import PoolIndexer.Text.Utf8

/-!
# Proofs.Text.Utf8 — octets are text exactly if they are those of a text

* `decode_encode`: the octets of a character begin a sequence of the width that `front` expects, so
  decoding passes over them one character at a time.
* `decode_eq_ok_iff`: a character that `front` finds stands there with all its octets, so nothing else
  is read as text, least of all an overlong form or a surrogate.
-/

namespace PoolIndexer.Text.Utf8

/-! ### The octets of a text -/

theorem toList_loop (a : ByteArray) (i : Nat) (acc : List UInt8) :
    ByteArray.toList.loop a i acc = acc.reverse ++ a.data.toList.drop i := by
  fun_induction ByteArray.toList.loop a i acc with
  | case1 i acc h ih =>
    have hi : i < a.data.toList.length := h
    have hget : a.get! i = a.data.toList[i] := by
      simp only [ByteArray.get!, Array.getElem_toList]
      exact getElem!_pos a.data i h
    rw [ih, List.drop_eq_getElem_cons hi, hget]
    simp
  | case2 i acc h =>
    have hi : a.data.toList.length ≤ i := Nat.le_of_not_lt h
    simp [List.drop_eq_nil_of_le hi]

theorem encode_ofList (cs : List Char) :
    encode (String.ofList cs) = cs.flatMap String.utf8EncodeChar := by
  unfold encode
  rw [String.toUTF8_eq_toByteArray, String.toByteArray_ofList, ByteArray.toList, toList_loop]
  simp [List.utf8Encode]

/-! ### The front of a sequence -/

theorem toNat_ofNat {n : Nat} (h : n < 256) : (UInt8.ofNat n).toNat = n := by
  rw [UInt8.toNat_ofNat']
  exact Nat.mod_eq_of_lt h

theorem front_one {a : UInt8} (rest : List UInt8) (h : a.toNat < 0x80) :
    front a rest = .character (Char.ofNat a.toNat) 1 := by
  simp [front, h]

theorem front_two {a b : UInt8} (rest : List UInt8) (hl : 0xc2 ≤ a.toNat) (hu : a.toNat < 0xe0)
    (hb : isContinuation b) : front a (b :: rest) = .character (join2 a b) 2 := by
  have h1 : ¬ a.toNat < 0x80 := by omega
  have h2 : (decide (a.toNat < 0xc2) || decide (0xf5 ≤ a.toNat)) = false := by simp; omega
  simp [front, h1, h2, hu, hb]

theorem front_three {a b c : UInt8} (rest : List UInt8) (hl : 0xe0 ≤ a.toNat)
    (hu : a.toNat < 0xf0) (hb : isSecond a b) (hc : isContinuation c) :
    front a (b :: c :: rest) = .character (join3 a b c) 3 := by
  have h1 : ¬ a.toNat < 0x80 := by omega
  have h2 : (decide (a.toNat < 0xc2) || decide (0xf5 ≤ a.toNat)) = false := by simp; omega
  have h3 : ¬ a.toNat < 0xe0 := by omega
  simp [front, h1, h2, h3, hu, hb, hc]

theorem front_four {a b c d : UInt8} (rest : List UInt8) (hl : 0xf0 ≤ a.toNat)
    (hu : a.toNat < 0xf5) (hb : isSecond a b) (hc : isContinuation c) (hd : isContinuation d) :
    front a (b :: c :: d :: rest) = .character (join4 a b c d) 4 := by
  have h1 : ¬ a.toNat < 0x80 := by omega
  have h2 : (decide (a.toNat < 0xc2) || decide (0xf5 ≤ a.toNat)) = false := by simp; omega
  have h3 : ¬ a.toNat < 0xe0 := by omega
  have h4 : ¬ a.toNat < 0xf0 := by omega
  simp [front, h1, h2, h3, h4, hb, hc, hd]

theorem isContinuation_ofNat {n : Nat} (h : n < 64) : isContinuation (UInt8.ofNat (n + 0x80)) := by
  unfold isContinuation
  rw [toNat_ofNat (by omega)]
  simp
  omega

theorem front_encode_two {v : Nat} (hlow : 0x80 ≤ v) (hhigh : v < 0x800) (rest : List UInt8) :
    front (UInt8.ofNat (v / 64 % 32 + 0xc0)) (UInt8.ofNat (v % 64 + 0x80) :: rest) =
      .character (Char.ofNat v) 2 := by
  have h0 : (UInt8.ofNat (v / 64 % 32 + 0xc0)).toNat = v / 64 % 32 + 0xc0 := toNat_ofNat (by omega)
  have h1 : (UInt8.ofNat (v % 64 + 0x80)).toNat = v % 64 + 0x80 := toNat_ofNat (by omega)
  have hv : (v / 64 % 32 + 0xc0) % 32 * 64 + (v % 64 + 0x80) % 64 = v := by omega
  rw [front_two _ (by omega) (by omega) (isContinuation_ofNat (by omega)), join2, h0, h1, hv]

theorem front_encode_three {v : Nat} (hlow : 0x800 ≤ v) (hhigh : v < 0x10000)
    (hvalid : v < 0xd800 ∨ 0xdfff < v) (rest : List UInt8) :
    front (UInt8.ofNat (v / 4096 % 16 + 0xe0))
        (UInt8.ofNat (v / 64 % 64 + 0x80) :: UInt8.ofNat (v % 64 + 0x80) :: rest) =
      .character (Char.ofNat v) 3 := by
  have h0 : (UInt8.ofNat (v / 4096 % 16 + 0xe0)).toNat = v / 4096 % 16 + 0xe0 := toNat_ofNat (by omega)
  have h1 : (UInt8.ofNat (v / 64 % 64 + 0x80)).toNat = v / 64 % 64 + 0x80 := toNat_ofNat (by omega)
  have h2 : (UInt8.ofNat (v % 64 + 0x80)).toNat = v % 64 + 0x80 := toNat_ofNat (by omega)
  have hs : isSecond (UInt8.ofNat (v / 4096 % 16 + 0xe0)) (UInt8.ofNat (v / 64 % 64 + 0x80)) := by
    simp only [isSecond, h0, h1, Bool.and_eq_true, decide_eq_true_eq]
    constructor <;> split <;> (try split) <;> omega
  have hv : ((v / 4096 % 16 + 0xe0) % 16 * 64 + (v / 64 % 64 + 0x80) % 64) * 64 + (v % 64 + 0x80) % 64 = v := by
    omega
  rw [front_three _ (by omega) (by omega) hs (isContinuation_ofNat (by omega)), join3, h0, h1, h2, hv]

theorem front_encode_four {v : Nat} (hlow : 0x10000 ≤ v) (hhigh : v < 0x110000) (rest : List UInt8) :
    front (UInt8.ofNat (v / 262144 % 8 + 0xf0))
        (UInt8.ofNat (v / 4096 % 64 + 0x80) :: UInt8.ofNat (v / 64 % 64 + 0x80) ::
          UInt8.ofNat (v % 64 + 0x80) :: rest) =
      .character (Char.ofNat v) 4 := by
  have h0 : (UInt8.ofNat (v / 262144 % 8 + 0xf0)).toNat = v / 262144 % 8 + 0xf0 := toNat_ofNat (by omega)
  have h1 : (UInt8.ofNat (v / 4096 % 64 + 0x80)).toNat = v / 4096 % 64 + 0x80 := toNat_ofNat (by omega)
  have h2 : (UInt8.ofNat (v / 64 % 64 + 0x80)).toNat = v / 64 % 64 + 0x80 := toNat_ofNat (by omega)
  have h3 : (UInt8.ofNat (v % 64 + 0x80)).toNat = v % 64 + 0x80 := toNat_ofNat (by omega)
  have hs : isSecond (UInt8.ofNat (v / 262144 % 8 + 0xf0)) (UInt8.ofNat (v / 4096 % 64 + 0x80)) := by
    simp only [isSecond, h0, h1, Bool.and_eq_true, decide_eq_true_eq]
    constructor <;> split <;> (try split) <;> omega
  have hv : (((v / 262144 % 8 + 0xf0) % 8 * 64 + (v / 4096 % 64 + 0x80) % 64) * 64 +
      (v / 64 % 64 + 0x80) % 64) * 64 + (v % 64 + 0x80) % 64 = v := by
    omega
  rw [front_four _ (by omega) (by omega) hs (isContinuation_ofNat (by omega)) (isContinuation_ofNat (by omega)),
    join4, h0, h1, h2, h3, hv]

/-- The octets of a character are read back as that character, whatever follows them. -/
theorem front_encodeChar (c : Char) (rest : List UInt8) :
    ∃ a tail, String.utf8EncodeChar c = a :: tail ∧
      front a (tail ++ rest) = .character c (tail.length + 1) := by
  have hc : Char.ofNat c.val.toNat = c := Char.ofNat_toNat c
  have hvalid : c.val.toNat < 0xd800 ∨ 0xdfff < c.val.toNat ∧ c.val.toNat < 0x110000 := c.valid
  unfold String.utf8EncodeChar
  generalize c.val.toNat = v at hc hvalid
  subst hc
  dsimp only
  split
  · have h0 : (UInt8.ofNat v).toNat = v := toNat_ofNat (by omega)
    refine ⟨_, _, rfl, ?_⟩
    rw [front_one _ (by omega), h0]
    rfl
  · split
    · exact ⟨_, _, rfl, front_encode_two (by omega) (by omega) rest⟩
    · split
      · exact ⟨_, _, rfl, front_encode_three (by omega) (by omega) (by omega) rest⟩
      · exact ⟨_, _, rfl, front_encode_four (by omega) (by omega) rest⟩

/-! ### Reading back -/

theorem decodeFrom_skip (index : Nat) (tail rest : List UInt8) :
    decodeFrom index tail.length (tail ++ rest) = decodeFrom (index + tail.length) 0 rest := by
  induction tail generalizing index with
  | nil => rfl
  | cons a tail ih =>
    rw [List.cons_append, List.length_cons, decodeFrom, ih]
    congr 1
    omega

theorem decodeFrom_encode (index : Nat) (cs : List Char) :
    decodeFrom index 0 (cs.flatMap String.utf8EncodeChar) = .ok cs := by
  induction cs generalizing index with
  | nil => rfl
  | cons c cs ih =>
    obtain ⟨a, tail, henc, hfront⟩ := front_encodeChar c (cs.flatMap String.utf8EncodeChar)
    rw [List.flatMap_cons, henc, List.cons_append, decodeFrom, hfront]
    simp only [Nat.add_sub_cancel]
    rw [decodeFrom_skip, ih]
    rfl

/-- Every text is read back from its octets. -/
theorem decode_encode (s : String) : decode (encode s) = .ok s := by
  obtain ⟨cs, rfl⟩ : ∃ cs, s = String.ofList cs := ⟨s.toList, by simp⟩
  rw [encode_ofList, decode, decodeFrom_encode]
  rfl

/-! ### Octets that are read are those of a text -/

theorem toNat_ofNat_of_isValidChar {v : Nat} (h : v < 0xd800 ∨ 0xdfff < v ∧ v < 0x110000) :
    (Char.ofNat v).val.toNat = v := by
  have hvalid : v.isValidChar := h
  rw [Char.ofNat, dif_pos hvalid]
  rfl

theorem ofNat_eq {n : Nat} {a : UInt8} (h : n = a.toNat) : UInt8.ofNat n = a := by
  rw [h, UInt8.ofNat_toNat]

theorem isContinuation_iff {b : UInt8} : isContinuation b = true ↔ 0x80 ≤ b.toNat ∧ b.toNat ≤ 0xbf := by
  simp [isContinuation]

theorem encodeChar_join2 {a b : UInt8} (hl : 0xc2 ≤ a.toNat) (hu : a.toNat < 0xe0)
    (hb : isContinuation b = true) : String.utf8EncodeChar (join2 a b) = [a, b] := by
  obtain ⟨hb1, hb2⟩ := isContinuation_iff.1 hb
  have hv : (join2 a b).val.toNat = (a.toNat % 32) * 64 + b.toNat % 64 :=
    toNat_ofNat_of_isValidChar (by omega)
  have h1 : ¬ (a.toNat % 32) * 64 + b.toNat % 64 ≤ 127 := by omega
  have h2 : (a.toNat % 32) * 64 + b.toNat % 64 ≤ 2047 := by omega
  simp only [String.utf8EncodeChar, hv, if_neg h1, if_pos h2]
  rw [ofNat_eq (a := a) (by omega), ofNat_eq (a := b) (by omega)]

theorem isSecond_bounds {a b : UInt8} (h : isSecond a b = true) :
    0x80 ≤ b.toNat ∧ b.toNat ≤ 0xbf ∧ (a.toNat = 0xe0 → 0xa0 ≤ b.toNat) ∧
      (a.toNat = 0xf0 → 0x90 ≤ b.toNat) ∧ (a.toNat = 0xed → b.toNat ≤ 0x9f) ∧
      (a.toNat = 0xf4 → b.toNat ≤ 0x8f) := by
  simp only [isSecond, Bool.and_eq_true, decide_eq_true_eq] at h
  obtain ⟨hlow, hhigh⟩ := h
  split at hlow <;> split at hhigh <;> (try split at hlow) <;> (try split at hhigh) <;> omega

theorem encodeChar_join3 {a b c : UInt8} (hl : 0xe0 ≤ a.toNat) (hu : a.toNat < 0xf0)
    (hb : isSecond a b = true) (hc : isContinuation c = true) :
    String.utf8EncodeChar (join3 a b c) = [a, b, c] := by
  obtain ⟨hb1, hb2, he0, -, hed, -⟩ := isSecond_bounds hb
  obtain ⟨hc1, hc2⟩ := isContinuation_iff.1 hc
  have hv : (join3 a b c).val.toNat = ((a.toNat % 16) * 64 + b.toNat % 64) * 64 + c.toNat % 64 :=
    toNat_ofNat_of_isValidChar (by omega)
  have h1 : ¬ ((a.toNat % 16) * 64 + b.toNat % 64) * 64 + c.toNat % 64 ≤ 127 := by omega
  have h2 : ¬ ((a.toNat % 16) * 64 + b.toNat % 64) * 64 + c.toNat % 64 ≤ 2047 := by omega
  have h3 : ((a.toNat % 16) * 64 + b.toNat % 64) * 64 + c.toNat % 64 ≤ 65535 := by omega
  simp only [String.utf8EncodeChar, hv, if_neg h1, if_neg h2, if_pos h3]
  rw [ofNat_eq (a := a) (by omega), ofNat_eq (a := b) (by omega), ofNat_eq (a := c) (by omega)]

theorem encodeChar_join4 {a b c d : UInt8} (hl : 0xf0 ≤ a.toNat) (hu : a.toNat < 0xf5)
    (hb : isSecond a b = true) (hc : isContinuation c = true) (hd : isContinuation d = true) :
    String.utf8EncodeChar (join4 a b c d) = [a, b, c, d] := by
  obtain ⟨hb1, hb2, -, hf0, -, hf4⟩ := isSecond_bounds hb
  obtain ⟨hc1, hc2⟩ := isContinuation_iff.1 hc
  obtain ⟨hd1, hd2⟩ := isContinuation_iff.1 hd
  have hv : (join4 a b c d).val.toNat =
      (((a.toNat % 8) * 64 + b.toNat % 64) * 64 + c.toNat % 64) * 64 + d.toNat % 64 :=
    toNat_ofNat_of_isValidChar (by omega)
  generalize hn : (((a.toNat % 8) * 64 + b.toNat % 64) * 64 + c.toNat % 64) * 64 + d.toNat % 64 = n at hv
  have h1 : ¬ n ≤ 127 := by omega
  have h2 : ¬ n ≤ 2047 := by omega
  have h3 : ¬ n ≤ 65535 := by omega
  simp only [String.utf8EncodeChar, hv, if_neg h1, if_neg h2, if_neg h3]
  rw [ofNat_eq (a := a) (by omega), ofNat_eq (a := b) (by omega), ofNat_eq (a := c) (by omega),
    ofNat_eq (a := d) (by omega)]

/-- A character at the front stands there with all its octets. -/
theorem encodeChar_of_front {a : UInt8} {rest : List UInt8} {c : Char} {width : Nat}
    (h : front a rest = .character c width) :
    ∃ tail after, rest = tail ++ after ∧ String.utf8EncodeChar c = a :: tail ∧ width = tail.length + 1 := by
  by_cases hone : a.toNat < 0x80
  · rw [front_one rest hone] at h
    cases h
    have hv : (Char.ofNat a.toNat).val.toNat = a.toNat := toNat_ofNat_of_isValidChar (by omega)
    refine ⟨[], rest, rfl, ?_, rfl⟩
    simp only [String.utf8EncodeChar, hv]
    rw [if_pos (by omega), UInt8.ofNat_toNat]
  · unfold front at h
    simp only [if_neg hone] at h
    by_cases hlead : (decide (a.toNat < 0xc2) || decide (0xf5 ≤ a.toNat)) = true
    · rw [if_pos hlead] at h
      cases h
    · rw [if_neg hlead] at h
      simp only [Bool.or_eq_true, decide_eq_true_eq, not_or, Nat.not_lt, Nat.not_le] at hlead
      obtain ⟨hl, hu⟩ := hlead
      cases rest with
      | nil => cases h
      | cons b rest =>
        dsimp only at h
        by_cases htwo : a.toNat < 0xe0
        · rw [if_pos htwo] at h
          split at h
          · rename_i hb
            cases h
            exact ⟨[b], rest, rfl, encodeChar_join2 hl htwo hb, rfl⟩
          · cases h
        · rw [if_neg htwo] at h
          by_cases hb : isSecond a b = true
          · simp only [hb, Bool.not_true, Bool.false_eq_true, if_false] at h
            cases rest with
            | nil => cases h
            | cons c' rest =>
              dsimp only at h
              by_cases hc : isContinuation c' = true
              · simp only [hc, Bool.not_true, Bool.false_eq_true, if_false] at h
                by_cases hthree : a.toNat < 0xf0
                · rw [if_pos hthree] at h
                  cases h
                  exact ⟨[b, c'], rest, rfl, encodeChar_join3 (by omega) hthree hb hc, rfl⟩
                · rw [if_neg hthree] at h
                  cases rest with
                  | nil => cases h
                  | cons d rest =>
                    dsimp only at h
                    split at h
                    · rename_i hd
                      cases h
                      exact ⟨[b, c', d], rest, rfl, encodeChar_join4 (by omega) hu hb hc hd, rfl⟩
                    · cases h
              · rw [if_pos (by simp [hc])] at h
                cases h
          · rw [if_pos (by simp [hb])] at h
            cases h

theorem decodeFrom_eq_ok (octets : List UInt8) :
    ∀ {index : Nat} {cs : List Char}, decodeFrom index 0 octets = .ok cs →
      octets = cs.flatMap String.utf8EncodeChar := by
  induction hlen : octets.length using Nat.strongRecOn generalizing octets with
  | _ n ih =>
    intro index cs h
    cases octets with
    | nil =>
      cases h
      rfl
    | cons a rest =>
      rw [decodeFrom] at h
      cases hfront : front a rest with
      | bad skip =>
        rw [hfront] at h
        cases h
      | cut =>
        rw [hfront] at h
        cases h
      | character c width =>
        obtain ⟨tail, after, rfl, hc, rfl⟩ := encodeChar_of_front hfront
        rw [hfront] at h
        simp only [Nat.add_sub_cancel, decodeFrom_skip] at h
        cases hafter : decodeFrom (index + 1 + tail.length) 0 after with
        | error f =>
          rw [hafter] at h
          cases h
        | ok cs' =>
          rw [hafter] at h
          cases h
          have hshort : after.length < n := by
            rw [← hlen, List.length_cons, List.length_append]
            omega
          rw [List.flatMap_cons, hc, ← ih after.length hshort after rfl hafter]
          rfl

/-- Octets that are read as a text are the octets of that text. -/
theorem decode_eq_ok_iff {octets : List UInt8} {s : String} : decode octets = .ok s ↔ octets = encode s := by
  constructor
  · intro h
    unfold decode at h
    cases hcs : decodeFrom 0 0 octets with
    | error f =>
      rw [hcs] at h
      cases h
    | ok cs =>
      rw [hcs] at h
      cases h
      rw [encode_ofList]
      exact decodeFrom_eq_ok octets hcs
  · rintro rfl
    exact decode_encode s

end PoolIndexer.Text.Utf8
