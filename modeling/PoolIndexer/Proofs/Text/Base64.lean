import PoolIndexer.Proofs.Text.Utf8
import PoolIndexer.Text.Base64

/-!
# Proofs.Text.Base64 — what is written in base64 is read back

* `decode_encode`: octets written three at a time are read back, whatever is left for the last quad.
* `encode_ofText`: symbols are single octets in UTF-8, so a text in base64 has the octets that `encode` gives.
-/

namespace PoolIndexer.Text.Base64

/-! ### Symbols -/

theorem symbolValue?_symbol {n : Nat} (h : n < 64) : symbolValue? (symbol n) = some n := by
  have hall : ∀ i : Fin 64, symbolValue? (symbol i) = some i.val := by decide
  exact hall ⟨n, h⟩

theorem symbol_ne_pad {n : Nat} (h : n < 64) : symbol n ≠ pad := by
  have hall : ∀ i : Fin 64, symbol i ≠ pad := by decide
  exact hall ⟨n, h⟩

/-- A written octet: a symbol or a pad, each of seven bits. -/
def IsWritten (b : UInt8) : Prop := b.toNat < 0x80

theorem isWritten_symbol (n : Nat) : IsWritten (symbol n) := by
  have hall : ∀ i : Fin 64, (symbol i).toNat < 0x80 := by decide
  by_cases h : n < 64
  · exact hall ⟨n, h⟩
  · have hslash : symbol n = 47 := by
      unfold symbol
      rw [if_neg (by omega), if_neg (by omega), if_neg (by omega), if_neg (by omega)]
    rw [hslash]
    exact hall 63

theorem isWritten_encode (octets : List UInt8) : ∀ b ∈ encode octets, IsWritten b := by
  have hpad : IsWritten pad := by unfold IsWritten; decide
  fun_induction encode octets with
  | case1 => simp
  | case2 a => simp [isWritten_symbol, hpad]
  | case3 a b => simp [isWritten_symbol, hpad]
  | case4 a b c rest ih => simpa [isWritten_symbol] using ih

theorem length_encode (octets : List UInt8) : (encode octets).length % 4 = 0 := by
  fun_induction encode octets with
  | case1 => rfl
  | case2 a => simp
  | case3 a b => simp
  | case4 a b c rest ih =>
    simp only [List.length_cons]
    omega

/-! ### The last quad -/

section

variable (start : Nat)

theorem readTail_symbol {seen n : Nat} (h : n < 64) (symbols : List (UInt8 × Nat)) (rest : List UInt8) :
    readTail start seen ⟨symbols, 0⟩ (symbol n :: rest) =
      readTail start (seen + 1) ⟨symbols ++ [(symbol n, n)], 0⟩ rest := by
  rw [readTail, if_neg (symbol_ne_pad h), symbolValue?_symbol h]
  rfl

theorem readTail_pad {seen : Nat} (h : 2 ≤ seen) (t : Tail) (rest : List UInt8) :
    readTail start seen t (pad :: rest) = readTail start (seen + 1) { t with pads := t.pads + 1 } rest := by
  rw [readTail, if_pos rfl, if_neg (Nat.not_lt.2 h)]

theorem decodeTail_one (a : UInt8) : decodeTail start (encode [a]) = .ok [a] := by
  have ha := a.toNat_lt
  rw [encode, decodeTail, readTail_symbol start (by omega), readTail_symbol start (by omega),
    readTail_pad start (by omega), readTail_pad start (by omega), readTail]
  simp only [finish, List.nil_append, List.cons_append, List.length_cons, List.length_nil]
  rw [if_neg (by omega), if_neg (by omega), Utf8.ofNat_eq (a := a) (by omega)]

theorem decodeTail_two (a b : UInt8) : decodeTail start (encode [a, b]) = .ok [a, b] := by
  have ha := a.toNat_lt
  have hb := b.toNat_lt
  rw [encode, decodeTail, readTail_symbol start (by omega), readTail_symbol start (by omega),
    readTail_symbol start (by omega), readTail_pad start (by omega), readTail]
  simp only [finish, List.nil_append, List.cons_append, List.length_cons, List.length_nil]
  rw [if_neg (by omega), if_neg (by omega), Utf8.ofNat_eq (a := a) (by omega), Utf8.ofNat_eq (a := b) (by omega)]

theorem decodeTail_three (a b c : UInt8) : decodeTail start (encode [a, b, c]) = .ok [a, b, c] := by
  have ha := a.toNat_lt
  have hb := b.toNat_lt
  have hc := c.toNat_lt
  rw [encode, encode, decodeTail, readTail_symbol start (by omega), readTail_symbol start (by omega),
    readTail_symbol start (by omega), readTail_symbol start (by omega), readTail]
  simp only [finish, List.nil_append, List.cons_append, List.length_cons, List.length_nil]
  rw [if_neg (by omega), Utf8.ofNat_eq (a := a) (by omega), Utf8.ofNat_eq (a := b) (by omega),
    Utf8.ofNat_eq (a := c) (by omega)]

end

/-! ### All quads -/

theorem decodeFrom_quad (start : Nat) (a b c : UInt8) {rest : List UInt8} (hrest : rest ≠ []) :
    decodeFrom start (encode (a :: b :: c :: rest)) =
      (decodeFrom (start + 4) (encode rest)).map ([a, b, c] ++ ·) := by
  have ha := a.toNat_lt
  have hb := b.toNat_lt
  have hc := c.toNat_lt
  obtain ⟨e, tail, hnext⟩ : ∃ e tail, encode rest = e :: tail := by
    cases hencode : encode rest with
    | cons e tail => exact ⟨e, tail, rfl⟩
    | nil =>
      -- something is written for every octet
      unfold encode at hencode
      split at hencode <;> first | exact absurd rfl hrest | cases hencode
  rw [encode, hnext, decodeFrom, symbolValue?_symbol (by omega), symbolValue?_symbol (by omega),
    symbolValue?_symbol (by omega), symbolValue?_symbol (by omega)]
  simp only
  rw [Utf8.ofNat_eq (a := a) (by omega), Utf8.ofNat_eq (a := b) (by omega), Utf8.ofNat_eq (a := c) (by omega)]

theorem decodeFrom_encode (start : Nat) (octets : List UInt8) : decodeFrom start (encode octets) = .ok octets := by
  fun_induction encode octets generalizing start with
  | case1 => rfl
  | case2 a => exact decodeTail_one start a
  | case3 a b => exact decodeTail_two start a b
  | case4 a b c rest ih =>
    by_cases hrest : rest = []
    · subst hrest
      exact decodeTail_three start a b c
    · have hquad := decodeFrom_quad start a b c hrest
      rw [ih] at hquad
      rw [encode] at hquad
      exact hquad

theorem decode_encode (octets : List UInt8) : decode (encode octets) = .ok octets := by
  have hlength := length_encode octets
  have hdecode := decodeFrom_encode 0 octets
  unfold decode
  cases hlast : (encode octets).getLast? with
  | none =>
    rw [List.getLast?_eq_none_iff.1 hlast] at hdecode
    exact hdecode
  | some b =>
    dsimp only
    rw [if_neg (by omega)]
    exact hdecode

/-! ### Texts -/

/-- A text in base64. -/
def ofText (s : String) : String :=
  String.ofList ((encode (Utf8.encode s)).map fun b => Char.ofNat b.toNat)

theorem utf8EncodeChar_of_isWritten {b : UInt8} (h : IsWritten b) :
    String.utf8EncodeChar (Char.ofNat b.toNat) = [b] := by
  have hall : ∀ i : Fin 0x80, String.utf8EncodeChar (Char.ofNat i) = [UInt8.ofNat i] := by decide
  exact (hall ⟨b.toNat, h⟩).trans (congrArg ([·]) UInt8.ofNat_toNat)

/-- The octets of a text in base64 are those that are written for its own octets. -/
theorem encode_ofText (s : String) : Utf8.encode (ofText s) = encode (Utf8.encode s) := by
  unfold ofText
  rw [Utf8.encode_ofList, List.flatMap_map]
  have hwritten := isWritten_encode (Utf8.encode s)
  generalize encode (Utf8.encode s) = octets at hwritten ⊢
  induction octets with
  | nil => rfl
  | cons b rest ih =>
    obtain ⟨hb, hrest⟩ := List.forall_mem_cons.1 hwritten
    rw [List.flatMap_cons, utf8EncodeChar_of_isWritten hb, ih hrest]
    rfl

example : ofText "BTC.BTC" = "QlRDLkJUQw==" := by decide +kernel

end PoolIndexer.Text.Base64
