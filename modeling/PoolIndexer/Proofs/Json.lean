import PoolIndexer.Json.Parser
import PoolIndexer.Json.Printer
import PoolIndexer.Json.Reader
import PoolIndexer.Proofs.Basic
import PoolIndexer.Proofs.Text.Decimal

/-!
# Proofs.Json — a printed document is read back

* `Plain`: the documents whose strings have a text and whose numbers are whole ones of 64 bits.
* `value_renderChars`: of a printed plain document and what follows it, the parser takes the document and
  leaves what follows.
* `le_of_mem_renderChars`: there is no control character in a printed document.
* `fields?_record`: the fields of a record are found by their names.
-/

namespace PoolIndexer.Json

/-- Every string has a text, and every number is a whole one that fits into 64 bits, signed or not. -/
inductive Plain : Json → Prop where
  | null : Plain .null
  | bool (b : Bool) : Plain (.bool b)
  | whole {n : Int} (hlow : -2 ^ 63 ≤ n) (hhigh : n < 2 ^ 64) : Plain (.whole n)
  | text (s : String) : Plain (.text s)
  | array {xs : List Json} (h : ∀ x ∈ xs, Plain x) : Plain (.array xs)
  | object {fs : List (Option String × Json)} (hkeys : ∀ f ∈ fs, ∃ k, f.1 = some k)
      (hvalues : ∀ f ∈ fs, Plain f.2) : Plain (.object fs)

theorem Plain.int64 (n : Int64) : Plain (.int64 n) :=
  .whole (Int64.le_toInt n) (Int.lt_trans (Int64.toInt_lt n) (by decide))

theorem Plain.nat {n : Nat} (h : n < 2 ^ 64) : Plain (.nat n) := .whole (by omega) (by omega)

theorem Plain.list {α : Type} {f : α → Json} (h : ∀ a, Plain (f a)) (as : List α) : Plain (.list f as) :=
  .array fun _ hx => by
    obtain ⟨a, -, rfl⟩ := List.mem_map.1 hx
    exact h a

theorem Plain.record {fields : List (String × Json)} (h : ∀ f ∈ fields, Plain f.2) : Plain (.record fields) := by
  refine .object (fun f hf => ?_) (fun f hf => ?_)
  · obtain ⟨field, -, rfl⟩ := List.mem_map.1 hf
    exact ⟨field.1, rfl⟩
  · obtain ⟨field, hfield, rfl⟩ := List.mem_map.1 hf
    exact h field hfield

theorem skipBlank_cons {c : Char} (h : isJsonBlank c = false) (cs : List Char) : skipBlank (c :: cs) = c :: cs :=
  List.dropWhile_cons_of_neg (by simp [h])

/-! ### Strings -/

theorem hexDigit?_lowerDigit : ∀ d < 16, hexDigit? (Text.Hex.lowerDigit d) = some d := by decide

/-- An escaped character is one code unit. -/
theorem stringUnits_escapeChar (acc : List Nat) (c : Char) (tail : List Char) :
    stringUnits acc (escapeChar c ++ tail) = stringUnits (c.toNat :: acc) tail := by
  unfold escapeChar
  split
  iterate 7 rfl
  rename_i hquote hbackslash _ _ _ _ _
  split
  · rename_i hcontrol
    have hhigh := hexDigit?_lowerDigit (c.toNat / 16) (by omega)
    have hlow := hexDigit?_lowerDigit (c.toNat % 16) (by omega)
    have hzero : hexDigit? '0' = some 0 := rfl
    have hunit : hexUnit? '0' '0' (Text.Hex.lowerDigit (c.toNat / 16)) (Text.Hex.lowerDigit (c.toNat % 16)) =
        some c.toNat := by
      unfold hexUnit?
      rw [hhigh, hlow, hzero]
      exact congrArg some (by omega)
    show stringUnits acc ('\\' :: 'u' :: '0' :: '0' :: Text.Hex.lowerDigit (c.toNat / 16) ::
      Text.Hex.lowerDigit (c.toNat % 16) :: tail) = _
    rw [stringUnits, hunit]
  · rename_i hcontrol
    rw [List.singleton_append]
    conv => lhs; unfold stringUnits
    split
    · rename_i heq
      cases heq
    · rename_i heq
      exact absurd (List.cons.inj heq).1 hquote
    · rename_i heq
      exact absurd (List.cons.inj heq).1 hbackslash
    · rename_i heq
      exact absurd (List.cons.inj heq).1 hbackslash
    · rename_i heq
      obtain ⟨rfl, rfl⟩ := List.cons.inj heq
      have hplain : ¬ (decide (c.toNat < 0x20) || decide (c = '\\')) = true := by
        rw [Bool.or_eq_true, decide_eq_true_eq, decide_eq_true_eq]
        exact fun h => h.elim hcontrol hbackslash
      rw [if_neg hplain]

theorem stringUnits_escaped (acc : List Nat) (cs rest : List Char) :
    stringUnits acc (cs.flatMap escapeChar ++ '"' :: rest) = some (acc.reverse ++ cs.map Char.toNat, rest) := by
  induction cs generalizing acc with
  | nil =>
    rw [List.map_nil, List.append_nil]
    rfl
  | cons c cs ih =>
    rw [List.flatMap_cons, List.append_assoc, stringUnits_escapeChar, ih, List.reverse_cons, List.append_assoc]
    rfl

theorem isSurrogate_toNat (c : Char) : (isHigh c.toNat || isLow c.toNat) = false := by
  have hvalid : c.toNat < 0xd800 ∨ (0xdfff < c.toNat ∧ c.toNat < 0x110000) := c.valid
  simp only [isHigh, isLow, Bool.or_eq_false_iff, Bool.and_eq_false_iff, decide_eq_false_iff_not]
  omega

theorem joinUnits_map_toNat (cs : List Char) : joinUnits (cs.map Char.toNat) = some cs := by
  induction cs with
  | nil => rfl
  | cons c cs ih =>
    have hhigh := (Bool.or_eq_false_iff.1 (isSurrogate_toNat c)).1
    cases cs with
    | nil =>
      rw [List.map_cons, List.map_nil, joinUnits, isSurrogate_toNat, Char.ofNat_toNat]
      rfl
    | cons d cs =>
      rw [List.map_cons] at ih
      rw [List.map_cons, List.map_cons, joinUnits, isSurrogate_toNat, hhigh, ih, Char.ofNat_toNat]
      rfl

theorem quote_append (s : String) (rest : List Char) :
    quote s ++ rest = '"' :: (s.toList.flatMap escapeChar ++ '"' :: rest) := by
  unfold quote
  rw [List.cons_append, List.cons_append, List.append_assoc]
  rfl

theorem stringBody_escaped (s : String) (rest : List Char) :
    stringBody (s.toList.flatMap escapeChar ++ '"' :: rest) = some (some s, rest) := by
  unfold stringBody
  rw [stringUnits_escaped, Option.map_some, List.reverse_nil, List.nil_append]
  dsimp only
  rw [joinUnits_map_toNat, Option.map_some, String.ofList_toList]

/-! ### Numbers -/

/-- What follows a value in a printed document. -/
def Delimited (rest : List Char) : Prop := ∀ c, rest.head? = some c → c = ',' ∨ c = ']' ∨ c = '\x7d'

theorem delimited_nil : Delimited [] := fun _ h => (nomatch h)

theorem fraction?_of_delimited {rest : List Char} (h : Delimited rest) : fraction? rest = some ([], rest) := by
  unfold fraction?
  split
  · rcases h '.' rfl with h | h | h <;> cases h
  · rfl

theorem exponent?_of_delimited {rest : List Char} (h : Delimited rest) : exponent? rest = some ([], rest) := by
  cases rest with
  | nil => rfl
  | cons c rest =>
    unfold exponent?
    rcases h c rfl with rfl | rfl | rfl <;> rfl

theorem isDigit_of_delimited {rest : List Char} (h : Delimited rest) :
    ∀ c, rest.head? = some c → Text.Decimal.isDigit c = false := by
  intro c hc
  rcases h c hc with rfl | rfl | rfl <;> rfl

theorem isWholePart_digits (n : Nat) : isWholePart (Text.Decimal.digits n) = true := by
  rcases Nat.eq_zero_or_pos n with rfl | hn
  · rw [Text.Decimal.digits_of_lt (by decide)]
    rfl
  · have hzero := Text.Decimal.head?_digits_ne_zero hn
    have hne := Text.Decimal.digits_ne_nil n
    cases hds : Text.Decimal.digits n with
    | nil => exact absurd hds hne
    | cons c cs =>
      rw [hds] at hzero
      have hc : c ≠ '0' := fun h => hzero (congrArg some h)
      unfold isWholePart
      split
      · rename_i heq
        cases heq
      · rfl
      · rename_i heq
        obtain ⟨rfl, rfl⟩ := List.cons.inj heq
        exact bne_iff_ne.2 hc

theorem unsigned_digits (negative : Bool) (n : Nat) {rest : List Char} (h : Delimited rest) :
    unsigned negative (Text.Decimal.digits n ++ rest) =
      some (ofToken negative (Text.Decimal.digits n) [], rest) := by
  unfold unsigned
  rw [Text.Decimal.takeWhile_digits Text.Decimal.isDigit_of_mem_digits (isDigit_of_delimited h),
    Text.Decimal.dropWhile_digits Text.Decimal.isDigit_of_mem_digits (isDigit_of_delimited h)]
  dsimp only
  rw [if_pos (isWholePart_digits n), fraction?_of_delimited h]
  dsimp only
  rw [exponent?_of_delimited h]
  rfl

/-- A character that a number begins with. -/
def isNumeric (c : Char) : Bool := c = '-' || Text.Decimal.isDigit c

theorem isJsonBlank_of_isNumeric {c : Char} (h : isNumeric c = true) : isJsonBlank c = false := by
  refine Bool.eq_false_iff.2 fun hblank => ?_
  simp only [isJsonBlank, Bool.or_eq_true, decide_eq_true_eq] at hblank
  rcases hblank with ((rfl | rfl) | rfl) | rfl <;> cases h

theorem value_of_isNumeric {c : Char} (h : isNumeric c = true) (fuel : Nat) (cs : List Char) :
    value (fuel + 1) (c :: cs) = number (c :: cs) := by
  unfold value
  rw [skipBlank_cons (isJsonBlank_of_isNumeric h)]
  split
  iterate 6
    rename_i heq
    obtain ⟨rfl, -⟩ := List.cons.inj heq
    cases h
  rfl

theorem number_ofInt {n : Int} (hlow : -2 ^ 63 ≤ n) (hhigh : n < 2 ^ 64) {rest : List Char} (h : Delimited rest) :
    number (Text.Decimal.ofInt n ++ rest) = some (.whole n, rest) := by
  cases n with
  | ofNat k =>
    have htoken : ofToken false (Text.Decimal.digits k) [] = .whole k := by
      unfold ofToken
      rw [Text.Decimal.value?_digits]
      have hsize : k < UInt64.size := by
        have hhigh' : (k : Int) < 2 ^ 64 := hhigh
        rw [show UInt64.size = 2 ^ 64 from rfl]
        omega
      exact if_pos hsize
    have hnumber : number (Text.Decimal.digits k ++ rest) = unsigned false (Text.Decimal.digits k ++ rest) := by
      have hne := Text.Decimal.digits_ne_nil k
      have hdigits := Text.Decimal.isDigit_of_mem_digits (n := k)
      cases hds : Text.Decimal.digits k with
      | nil => exact absurd hds hne
      | cons c cs =>
        rw [hds] at hdigits
        unfold number
        rw [List.cons_append]
        split
        · rename_i heq
          obtain ⟨rfl, -⟩ := List.cons.inj heq
          exact absurd (hdigits _ List.mem_cons_self) Bool.false_ne_true
        · rfl
    rw [Text.Decimal.ofInt, hnumber, unsigned_digits false k h, htoken]
    rfl
  | negSucc k =>
    have htoken : ofToken true (Text.Decimal.digits (k + 1)) [] = .whole (Int.negSucc k) := by
      unfold ofToken
      rw [Text.Decimal.value?_digits]
      obtain ⟨w, hfit, -⟩ := Checked.exists_fit .negate (n := -((k + 1 : Nat) : Int)) (by omega) (by omega)
      have hsome : (Checked.fit? (-((k + 1 : Nat) : Int))).isSome = true := by
        rw [Checked.fit?_eq_some_iff.2 (Checked.fit_eq_ok_iff.1 hfit)]
        rfl
      rw [if_pos List.isEmpty_nil]
      dsimp only
      rw [if_pos rfl, if_pos ⟨Nat.succ_pos k, hsome⟩]
      rfl
    rw [Text.Decimal.ofInt, List.cons_append, number, unsigned_digits true (k + 1) h, htoken]

/-! ### Lists -/

/-- A text that a value or a field may be: it begins neither blank nor with a closing bracket. -/
def Opens (cs : List Char) : Prop := ∃ c more, cs = c :: more ∧ isJsonBlank c = false ∧ c ≠ ']' ∧ c ≠ '\x7d'

theorem commaSeparated_cons_cons (l l' : List Char) (ls : List (List Char)) :
    commaSeparated (l :: l' :: ls) = l ++ ',' :: commaSeparated (l' :: ls) := by
  rw [commaSeparated]
  exact fun h => (nomatch h)

theorem exists_commaSeparated_cons (l : List Char) (ls : List (List Char)) :
    ∃ more, commaSeparated (l :: ls) = l ++ more := by
  cases ls with
  | nil => exact ⟨[], (List.append_nil l).symm⟩
  | cons l' ls => exact ⟨_, commaSeparated_cons_cons l l' ls⟩

theorem length_le_commaSeparated {l : List Char} {ls : List (List Char)} (h : l ∈ ls) :
    l.length ≤ (commaSeparated ls).length := by
  induction ls with
  | nil => exact absurd h List.not_mem_nil
  | cons l' ls ih =>
    cases ls with
    | nil =>
      rw [List.mem_singleton.1 h]
      exact Nat.le_refl _
    | cons l'' ls =>
      rw [commaSeparated_cons_cons, List.length_append, List.length_cons]
      rcases List.mem_cons.1 h with rfl | h
      · omega
      · have hrest := ih h
        omega

theorem length_le_length_commaSeparated (ls : List (List Char)) : ls.length ≤ (commaSeparated ls).length + 1 := by
  induction ls with
  | nil => exact Nat.zero_le _
  | cons l ls ih =>
    cases ls with
    | nil => exact Nat.le_add_left 1 _
    | cons l' ls =>
      simp only [commaSeparated_cons_cons, List.length_append, List.length_cons] at ih ⊢
      omega

section

variable {α : Type} {item : List Char → Option (α × List Char)} {text : α → List Char} {close : Char}
  {xs : List α} {fuel : Nat}

theorem items_commaSeparated (hclose : close = ']' ∨ close = '\x7d') (hne : xs ≠ []) (hfuel : xs.length ≤ fuel)
    (hitem : ∀ x ∈ xs, ∀ rest, Delimited rest → item (text x ++ rest) = some (x, rest)) (rest : List Char) :
    items item close fuel (commaSeparated (xs.map text) ++ close :: rest) = some (xs, rest) := by
  induction xs generalizing fuel with
  | nil => exact absurd rfl hne
  | cons x xs ih =>
    obtain ⟨fuel, rfl⟩ : ∃ n, fuel = n + 1 :=
      Nat.exists_eq_succ_of_ne_zero (Nat.ne_of_gt (Nat.lt_of_lt_of_le (Nat.succ_pos xs.length) hfuel))
    cases xs with
    | nil =>
      have hrest : Delimited (close :: rest) := fun c hc => .inr (Option.some.inj hc ▸ hclose)
      have hblank : isJsonBlank close = false := by rcases hclose with rfl | rfl <;> rfl
      have hcomma : close ≠ ',' := by rcases hclose with rfl | rfl <;> decide
      rw [List.map_cons, List.map_nil, commaSeparated, items, hitem x List.mem_cons_self _ hrest]
      dsimp only
      rw [skipBlank_cons hblank]
      dsimp only
      rw [if_neg hcomma, if_pos rfl]
    | cons y ys =>
      have hrest : Delimited (',' :: (commaSeparated ((y :: ys).map text) ++ close :: rest)) :=
        fun c hc => .inl (Option.some.inj hc).symm
      have hmore := ih (List.cons_ne_nil y ys) (Nat.le_of_succ_le_succ hfuel)
        (fun z hz => hitem z (List.mem_cons_of_mem x hz))
      have hcomma : isJsonBlank ',' = false := rfl
      rw [List.map_cons] at hrest hmore
      rw [List.map_cons, List.map_cons, commaSeparated_cons_cons, List.append_assoc, List.cons_append, items,
        hitem x List.mem_cons_self _ hrest]
      dsimp only
      rw [skipBlank_cons hcomma]
      dsimp only
      rw [if_pos rfl, hmore, Option.map_some]

theorem bracketed_commaSeparated (hclose : close = ']' ∨ close = '\x7d') (hfuel : xs.length ≤ fuel)
    (hopens : ∀ x ∈ xs, Opens (text x))
    (hitem : ∀ x ∈ xs, ∀ rest, Delimited rest → item (text x ++ rest) = some (x, rest)) (rest : List Char) :
    bracketed item close fuel (commaSeparated (xs.map text) ++ close :: rest) = some (xs, rest) := by
  cases xs with
  | nil =>
    have hblank : isJsonBlank close = false := by rcases hclose with rfl | rfl <;> rfl
    unfold bracketed
    rw [List.map_nil, commaSeparated, List.nil_append, skipBlank_cons hblank]
    exact if_pos rfl
  | cons x xs =>
    have hitems := items_commaSeparated hclose (List.cons_ne_nil x xs) hfuel hitem rest
    obtain ⟨c, more, htext, hblank, hbracket, hbrace⟩ := hopens x List.mem_cons_self
    obtain ⟨tail, htail⟩ := exists_commaSeparated_cons (text x) (xs.map text)
    have hfront : commaSeparated ((x :: xs).map text) ++ close :: rest = c :: (more ++ tail ++ close :: rest) := by
      rw [List.map_cons, htail, htext]
      rfl
    rw [hfront] at hitems ⊢
    have hne : c ≠ close := by rcases hclose with rfl | rfl <;> assumption
    unfold bracketed
    rw [skipBlank_cons hblank]
    dsimp only
    rw [if_neg hne, hitems]

end

/-! ### Documents -/

theorem renderItems_eq_map (xs : List Json) : renderItems xs = xs.map renderChars := by
  induction xs with
  | nil => rfl
  | cons x xs ih => rw [renderItems, ih, List.map_cons]

def fieldChars (f : Option String × Json) : List Char := quoteOr f.1 ++ ':' :: renderChars f.2

theorem renderFields_eq_map (fs : List (Option String × Json)) : renderFields fs = fs.map fieldChars := by
  induction fs with
  | nil => rfl
  | cons f fs ih =>
    obtain ⟨k, v⟩ := f
    rw [renderFields, ih, List.map_cons, fieldChars]

theorem opens_fieldChars (f : Option String × Json) : Opens (fieldChars f) :=
  ⟨'"', _, rfl, rfl, by decide, by decide⟩

theorem opens_ofInt (n : Int) : ∃ c more, Text.Decimal.ofInt n = c :: more ∧ isNumeric c = true := by
  cases n with
  | ofNat k =>
    obtain ⟨c, more, hds⟩ := List.exists_cons_of_ne_nil (Text.Decimal.digits_ne_nil k)
    have hdigit := Text.Decimal.isDigit_of_mem_digits c (hds ▸ List.mem_cons_self)
    exact ⟨c, more, hds, by rw [isNumeric, hdigit, Bool.or_true]⟩
  | negSucc k => exact ⟨'-', _, rfl, rfl⟩

theorem Plain.opens {j : Json} (h : Plain j) : Opens (renderChars j) := by
  cases h with
  | null => exact ⟨'n', _, rfl, rfl, by decide, by decide⟩
  | bool b =>
    cases b with
    | true => exact ⟨'t', _, rfl, rfl, by decide, by decide⟩
    | false => exact ⟨'f', _, rfl, rfl, by decide, by decide⟩
  | @whole n _ _ =>
    obtain ⟨c, more, hchars, hnumeric⟩ := opens_ofInt n
    refine ⟨c, more, hchars, isJsonBlank_of_isNumeric hnumeric, ?_, ?_⟩
    · rintro rfl
      cases hnumeric
    · rintro rfl
      cases hnumeric
  | text s => exact ⟨'"', _, rfl, rfl, by decide, by decide⟩
  | array _ => exact ⟨'[', _, rfl, rfl, by decide, by decide⟩
  | object _ _ => exact ⟨'\x7b', _, rfl, rfl, by decide, by decide⟩

theorem value_text (fuel : Nat) (s : String) (rest : List Char) :
    value (fuel + 1) (quote s ++ rest) = some (.text s, rest) := by
  rw [quote_append]
  show (stringBody _).map _ = _
  rw [stringBody_escaped]
  rfl

theorem field_fieldChars {read : List Char → Option (Json × List Char)} {k : String} {v : Json} {rest : List Char}
    (h : read (renderChars v ++ rest) = some (v, rest)) :
    field read (fieldChars (some k, v) ++ rest) = some ((some k, v), rest) := by
  have hchars : fieldChars (some k, v) ++ rest =
      '"' :: (k.toList.flatMap escapeChar ++ '"' :: ':' :: (renderChars v ++ rest)) := by
    rw [fieldChars, List.append_assoc, List.cons_append]
    exact quote_append k _
  have hcolon : isJsonBlank ':' = false := rfl
  unfold field
  rw [hchars, skipBlank_cons rfl]
  simp only [stringBody_escaped, skipBlank_cons hcolon, h, Option.map_some]

/-- **The parser takes a printed document** and leaves what follows it. -/
theorem value_renderChars {j : Json} (h : Plain j) {fuel : Nat} (hfuel : (renderChars j).length < fuel)
    {rest : List Char} (hrest : Delimited rest) : value fuel (renderChars j ++ rest) = some (j, rest) := by
  induction h generalizing fuel rest with
  | null =>
    obtain ⟨fuel, rfl⟩ := Nat.exists_eq_add_of_lt hfuel
    rfl
  | bool b =>
    obtain ⟨fuel, rfl⟩ := Nat.exists_eq_add_of_lt hfuel
    cases b <;> rfl
  | @whole n hlow hhigh =>
    obtain ⟨fuel, rfl⟩ := Nat.exists_eq_add_of_lt hfuel
    obtain ⟨c, more, hchars, hnumeric⟩ := opens_ofInt n
    rw [← number_ofInt hlow hhigh hrest, renderChars, hchars]
    exact value_of_isNumeric hnumeric _ _
  | text s =>
    obtain ⟨fuel, rfl⟩ := Nat.exists_eq_add_of_lt hfuel
    exact value_text _ s rest
  | @array xs hplain ih =>
    obtain ⟨fuel, rfl⟩ := Nat.exists_eq_add_of_lt hfuel
    have hchars : renderChars (.array xs) = '[' :: commaSeparated (xs.map renderChars) ++ [']'] := by
      rw [renderChars, renderItems_eq_map]
    rw [hchars] at hfuel ⊢
    rw [List.length_append, List.length_cons, List.length_singleton] at hfuel ⊢
    have hcount := length_le_length_commaSeparated (xs.map renderChars)
    rw [List.length_map] at hcount
    generalize hdepth : (commaSeparated (xs.map renderChars)).length + 1 + 1 + fuel = depth
    have hitem : ∀ x ∈ xs, ∀ rest, Delimited rest → value depth (renderChars x ++ rest) = some (x, rest) := by
      intro x hx rest hrest
      have hlength := length_le_commaSeparated (List.mem_map_of_mem (f := renderChars) hx)
      exact ih x hx (by omega) hrest
    have hitems := bracketed_commaSeparated (.inl rfl) (show xs.length ≤ depth by omega)
      (fun x hx => (hplain x hx).opens) hitem rest
    rw [List.append_assoc, List.cons_append]
    show (bracketed (value depth) ']' depth _).map _ = _
    rw [List.singleton_append, hitems]
    rfl
  | @object fs hkeys hplain ih =>
    obtain ⟨fuel, rfl⟩ := Nat.exists_eq_add_of_lt hfuel
    have hchars : renderChars (.object fs) = '\x7b' :: commaSeparated (fs.map fieldChars) ++ ['\x7d'] := by
      rw [renderChars, renderFields_eq_map]
    rw [hchars] at hfuel ⊢
    rw [List.length_append, List.length_cons, List.length_singleton] at hfuel ⊢
    have hcount := length_le_length_commaSeparated (fs.map fieldChars)
    rw [List.length_map] at hcount
    generalize hdepth : (commaSeparated (fs.map fieldChars)).length + 1 + 1 + fuel = depth
    have hitem : ∀ f ∈ fs, ∀ rest, Delimited rest → field (value depth) (fieldChars f ++ rest) = some (f, rest) := by
      rintro ⟨key, v⟩ hf rest hrest
      obtain ⟨k, rfl : key = some k⟩ := hkeys _ hf
      have hlength := length_le_commaSeparated (List.mem_map_of_mem (f := fieldChars) hf)
      rw [fieldChars, List.length_append, List.length_cons] at hlength
      exact field_fieldChars (ih _ hf (by omega) hrest)
    have hitems := bracketed_commaSeparated (.inr rfl) (show fs.length ≤ depth by omega)
      (fun f _ => opens_fieldChars f) hitem rest
    rw [List.append_assoc, List.cons_append]
    show (bracketed (field (value depth)) '\x7d' depth _).map _ = _
    rw [List.singleton_append, hitems]
    rfl

theorem parse_render {j : Json} (h : Plain j) : parse (render j) = some j := by
  have hvalue := value_renderChars h (Nat.lt_succ_self _) delimited_nil
  rw [List.append_nil] at hvalue
  unfold parse parseChars render
  rw [String.toList_ofList, hvalue]
  rfl

/-! ### No control characters -/

theorem le_of_mem_escapeChar {c d : Char} (h : d ∈ escapeChar c) : 0x20 ≤ d.toNat := by
  have hdigit : ∀ n < 16, 0x20 ≤ (Text.Hex.lowerDigit n).toNat := by decide
  unfold escapeChar at h
  split at h
  iterate 7
    simp only [List.mem_cons, List.not_mem_nil, or_false] at h
    rcases h with rfl | rfl <;> decide
  split at h
  · simp only [List.mem_cons, List.not_mem_nil, or_false] at h
    rcases h with rfl | rfl | rfl | rfl | rfl | rfl
    iterate 4 decide
    · exact hdigit _ (by omega)
    · exact hdigit _ (by omega)
  · rw [List.mem_singleton.1 h]
    omega

theorem le_of_mem_quote {s : String} {c : Char} (h : c ∈ quote s) : 0x20 ≤ c.toNat := by
  have hchars := quote_append s []
  rw [List.append_nil] at hchars
  rw [hchars] at h
  rcases List.mem_cons.1 h with rfl | h
  · decide
  · rcases List.mem_append.1 h with h | h
    · obtain ⟨d, -, hd⟩ := List.mem_flatMap.1 h
      exact le_of_mem_escapeChar hd
    · rw [List.mem_singleton.1 h]
      decide

theorem le_of_mem_commaSeparated {ls : List (List Char)} (h : ∀ l ∈ ls, ∀ c ∈ l, 0x20 ≤ c.toNat) {c : Char}
    (hc : c ∈ commaSeparated ls) : 0x20 ≤ c.toNat := by
  induction ls with
  | nil => exact absurd hc List.not_mem_nil
  | cons l ls ih =>
    obtain ⟨hl, hls⟩ := List.forall_mem_cons.1 h
    cases ls with
    | nil => exact hl c hc
    | cons l' ls =>
      rw [commaSeparated_cons_cons] at hc
      rcases List.mem_append.1 hc with hc | hc
      · exact hl c hc
      · rcases List.mem_cons.1 hc with rfl | hc
        · decide
        · exact ih hls hc

theorem le_of_mem_ofInt {n : Int} {c : Char} (h : c ∈ Text.Decimal.ofInt n) : 0x20 ≤ c.toNat := by
  have hdigits : ∀ k, ∀ c ∈ Text.Decimal.digits k, 0x20 ≤ c.toNat := by
    intro k c hc
    have hdigit := Text.Decimal.isDigit_of_mem_digits c hc
    simp only [Text.Decimal.isDigit, Bool.and_eq_true, decide_eq_true_eq] at hdigit
    omega
  cases n with
  | ofNat k => exact hdigits k c h
  | negSucc k =>
    rcases List.mem_cons.1 h with rfl | h
    · decide
    · exact hdigits (k + 1) c h

/-- A printed document is one line. -/
theorem le_of_mem_renderChars {j : Json} (h : Plain j) {c : Char} (hc : c ∈ renderChars j) : 0x20 ≤ c.toNat := by
  induction h generalizing c with
  | null =>
    simp only [renderChars, List.mem_cons, List.not_mem_nil, or_false] at hc
    rcases hc with rfl | rfl | rfl | rfl <;> decide
  | bool b =>
    cases b with
    | true =>
      simp only [renderChars, List.mem_cons, List.not_mem_nil, or_false] at hc
      rcases hc with rfl | rfl | rfl | rfl <;> decide
    | false =>
      simp only [renderChars, List.mem_cons, List.not_mem_nil, or_false] at hc
      rcases hc with rfl | rfl | rfl | rfl | rfl <;> decide
  | whole _ _ => exact le_of_mem_ofInt hc
  | text s => exact le_of_mem_quote hc
  | @array xs _ ih =>
    rw [renderChars, renderItems_eq_map] at hc
    rcases List.mem_append.1 hc with hc | hc
    · rcases List.mem_cons.1 hc with rfl | hc
      · decide
      · refine le_of_mem_commaSeparated (fun l hl => ?_) hc
        obtain ⟨x, hx, rfl⟩ := List.mem_map.1 hl
        exact fun c hc => ih x hx hc
    · rw [List.mem_singleton.1 hc]
      decide
  | @object fs _ _ ih =>
    rw [renderChars, renderFields_eq_map] at hc
    rcases List.mem_append.1 hc with hc | hc
    · rcases List.mem_cons.1 hc with rfl | hc
      · decide
      · refine le_of_mem_commaSeparated (fun l hl => ?_) hc
        obtain ⟨f, hf, rfl⟩ := List.mem_map.1 hl
        intro c hc
        rcases List.mem_append.1 hc with hc | hc
        · exact le_of_mem_quote hc
        · rcases List.mem_cons.1 hc with rfl | hc
          · decide
          · exact ih f hf hc
    · rw [List.mem_singleton.1 hc]
      decide

/-! ### Records -/

theorem list?_list {α : Type} {item : Json → Option α} {f : α → Json} {as : List α}
    (h : ∀ a ∈ as, item (f a) = some a) : list? item (.list f as) = some as := by
  have hitems := mapM_map_eq_some (g := f) (k := id) h
  rw [List.map_id] at hitems
  exact hitems

theorem atMostOnce_of_mem {fields : List (String × Json)} (hkeys : (fields.map Prod.fst).Nodup)
    {f : String × Json} (h : f ∈ fields) :
    atMostOnce f.1 (fields.map fun g => (some g.1, g.2)) = some (some f.2) := by
  have hfilter : (fields.map fun g => (some g.1, g.2)).filter (fun g => g.1 = some f.1) = [(some f.1, f.2)] := by
    induction fields with
    | nil => exact absurd h List.not_mem_nil
    | cons g rest ih =>
      rw [List.map_cons, List.nodup_cons] at hkeys
      rw [List.map_cons]
      rcases List.mem_cons.1 h with rfl | h
      · rw [List.filter_cons_of_pos (by simp), List.filter_eq_nil_iff.2]
        intro g hg hkey
        obtain ⟨g', hg', rfl⟩ := List.mem_map.1 hg
        exact hkeys.1 (Option.some.inj (of_decide_eq_true hkey) ▸ List.mem_map_of_mem hg')
      · rw [List.filter_cons_of_neg, ih hkeys.2 h]
        intro hkey
        exact hkeys.1 (Option.some.inj (of_decide_eq_true hkey) ▸ List.mem_map_of_mem h)
  unfold atMostOnce
  split
  · rename_i heq
    cases heq.symm.trans hfilter
  · rename_i heq
    cases heq.symm.trans hfilter
    rfl
  · rename_i hother
    exact (hother _ _ hfilter).elim

/-- The fields of a record are given, each once. -/
theorem fields?_record {fields : List (String × Json)} (hkeys : (fields.map Prod.fst).Nodup) :
    (record fields).fields? (fields.map Prod.fst) = some (fields.map fun f => some f.2) := by
  have hall : ((fields.map fun g => (some g.1, g.2)).all fun g => g.1.isSome) = true := by
    refine List.all_eq_true.2 fun g hg => ?_
    obtain ⟨g', -, rfl⟩ := List.mem_map.1 hg
    rfl
  have hgiven : (record fields).fields? (fields.map Prod.fst) =
      (fields.map Prod.fst).mapM fun n => atMostOnce n (fields.map fun g => (some g.1, g.2)) := if_pos hall
  rw [hgiven]
  exact mapM_map_eq_some fun f hf => atMostOnce_of_mem hkeys hf

end PoolIndexer.Json
