import Mathlib.Algebra.Group.Nat.Defs
import PoolIndexer.Proofs.Text.Utf8

/-!
# Proofs.Text.Utf8.Order — names in the order of their octets

A lead octet tells how many octets follow, and more of them mean a higher character.  Of two
characters with equally many octets the octets compare like the digits of a number, the highest one
first.  So the order of texts is the order of their octets.
-/

namespace PoolIndexer.Text.Utf8

theorem ofNat_cons_lt {m n : Nat} {x y : List UInt8} (hm : m < 256) (hn : n < 256)
    (h : m < n ∨ m = n ∧ x < y) : UInt8.ofNat m :: x < UInt8.ofNat n :: y := by
  rw [List.cons_lt_cons_iff, UInt8.lt_iff_toNat_lt, toNat_ofNat hm, toNat_ofNat hn]
  exact h.imp_right fun ⟨heq, hrest⟩ => ⟨congrArg UInt8.ofNat heq, hrest⟩

/-- The octets behind the lead octet of a character, which hold its number in base 64. -/
def continuation : Nat → Nat → List UInt8
  | 0, _ => []
  | k + 1, v => UInt8.ofNat (v / 64 ^ k % 64 + 0x80) :: continuation k v

theorem continuation_append_lt {k v w : Nat} (h : v % 64 ^ k < w % 64 ^ k) (x y : List UInt8) :
    continuation k v ++ x < continuation k w ++ y := by
  induction k with
  | zero =>
    rw [Nat.pow_zero, Nat.mod_one, Nat.mod_one] at h
    exact absurd h (Nat.lt_irrefl 0)
  | succ k ih =>
    rw [Nat.pow_succ, Nat.mod_mul, Nat.mod_mul] at h
    refine ofNat_cons_lt (by omega) (by omega) ?_
    rcases Nat.lt_trichotomy (v / 64 ^ k % 64) (w / 64 ^ k % 64) with hlt | heq | hgt
    · exact .inl (by omega)
    · rw [heq] at h
      exact .inr ⟨by omega, ih (Nat.lt_of_add_lt_add_right h)⟩
    · -- a higher digit outweighs all digits below it
      have hlow : v % 64 ^ k < 64 ^ k := Nat.mod_lt _ (Nat.pow_pos (by omega))
      have hhigh : w % 64 ^ k < 64 ^ k := Nat.mod_lt _ (Nat.pow_pos (by omega))
      have hdigits : 64 ^ k * (w / 64 ^ k % 64) + 64 ^ k ≤ 64 ^ k * (v / 64 ^ k % 64) := by
        rw [← Nat.mul_succ]
        exact Nat.mul_le_mul_left _ hgt
      omega

/-- The lead octet and the number of octets behind it, by the range of the number of a character. -/
theorem encodeChar_cases (c : Char) :
    ∃ lead k, String.utf8EncodeChar c = UInt8.ofNat lead :: continuation k c.val.toNat ∧
      (k = 0 ∧ lead = c.val.toNat ∧ c.val.toNat < 0x80 ∨
        k = 1 ∧ lead = c.val.toNat / 64 + 0xc0 ∧ 0x80 ≤ c.val.toNat ∧ c.val.toNat < 0x800 ∨
        k = 2 ∧ lead = c.val.toNat / 4096 + 0xe0 ∧ 0x800 ≤ c.val.toNat ∧ c.val.toNat < 0x10000 ∨
        k = 3 ∧ lead = c.val.toNat / 262144 + 0xf0 ∧ 0x10000 ≤ c.val.toNat ∧ c.val.toNat < 0x110000) := by
  have hvalid : c.val.toNat < 0xd800 ∨ 0xdfff < c.val.toNat ∧ c.val.toNat < 0x110000 := c.valid
  unfold String.utf8EncodeChar
  generalize c.val.toNat = v at hvalid
  dsimp only
  split
  · exact ⟨v, 0, rfl, .inl ⟨rfl, rfl, by omega⟩⟩
  · split
    · refine ⟨v / 64 + 0xc0, 1, ?_, .inr (.inl ⟨rfl, rfl, by omega, by omega⟩)⟩
      rw [Nat.mod_eq_of_lt (show v / 64 < 32 by omega)]
      simp [continuation]
    · split
      · refine ⟨v / 4096 + 0xe0, 2, ?_, .inr (.inr (.inl ⟨rfl, rfl, by omega, by omega⟩))⟩
        rw [Nat.mod_eq_of_lt (show v / 4096 < 16 by omega)]
        simp [continuation]
      · refine ⟨v / 262144 + 0xf0, 3, ?_, .inr (.inr (.inr ⟨rfl, rfl, by omega, by omega⟩))⟩
        rw [Nat.mod_eq_of_lt (show v / 262144 < 8 by omega)]
        simp [continuation]

/-- The octets of the lower character come first, whatever follows. -/
theorem encodeChar_append_lt {c d : Char} (h : c < d) (x y : List UInt8) :
    String.utf8EncodeChar c ++ x < String.utf8EncodeChar d ++ y := by
  have hlt : c.val.toNat < d.val.toNat := UInt32.lt_iff_toNat_lt.1 (Char.lt_def.1 h)
  obtain ⟨lead, k, hc, hk⟩ := encodeChar_cases c
  obtain ⟨lead', k', hd, hk'⟩ := encodeChar_cases d
  have hleads : lead < 256 ∧ lead' < 256 := by omega
  have hfirst : lead < lead' ∨ lead = lead' ∧ k = k' ∧ c.val.toNat % 64 ^ k < d.val.toNat % 64 ^ k := by
    rcases hk with ⟨rfl, hk⟩ | ⟨rfl, hk⟩ | ⟨rfl, hk⟩ | ⟨rfl, hk⟩ <;> omega
  rw [hc, hd]
  refine ofNat_cons_lt hleads.1 hleads.2 (hfirst.imp_right ?_)
  rintro ⟨hlead, rfl, hlow⟩
  exact ⟨hlead, continuation_append_lt hlow x y⟩

theorem flatMap_encodeChar_lt {cs ds : List Char} (h : cs < ds) :
    cs.flatMap String.utf8EncodeChar < ds.flatMap String.utf8EncodeChar := by
  induction cs generalizing ds with
  | nil =>
    cases ds with
    | nil => exact absurd h (List.lt_irrefl [])
    | cons d ds =>
      obtain ⟨lead, k, hd, -⟩ := encodeChar_cases d
      rw [List.flatMap_nil, List.flatMap_cons, hd]
      exact List.nil_lt_cons _ _
  | cons c cs ih =>
    cases ds with
    | nil => exact absurd h (List.not_lt_nil _)
    | cons d ds =>
      rw [List.flatMap_cons, List.flatMap_cons]
      rcases List.cons_lt_cons_iff.1 h with hlt | ⟨rfl, hrest⟩
      · exact encodeChar_append_lt hlt _ _
      · exact List.append_left_lt (ih hrest)

theorem encode_lt_of_lt {s t : String} (h : s < t) : encode s < encode t := by
  have hs : s = String.ofList s.toList := String.ofList_toList.symm
  have ht : t = String.ofList t.toList := String.ofList_toList.symm
  rw [hs, ht, encode_ofList, encode_ofList]
  exact flatMap_encodeChar_lt h

/-- **Order**: texts are in the order of their octets. -/
theorem lt_iff_encode_lt {s t : String} : s < t ↔ encode s < encode t := by
  refine ⟨encode_lt_of_lt, fun h => ?_⟩
  have hge : ¬ t < s := fun hlt => List.lt_asymm h (encode_lt_of_lt hlt)
  have hne : s ≠ t := by
    rintro rfl
    exact List.lt_irrefl _ h
  grind

end PoolIndexer.Text.Utf8
