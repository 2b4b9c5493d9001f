import PoolIndexer.Event.Attributes
import PoolIndexer.Proofs.Basic
import PoolIndexer.Proofs.Text.Blank
import PoolIndexer.Proofs.Text.Decimal

/-!
# Proofs.Coin — coins read back from their text

* `Coin.Writable`: the coins that have a text.  `Coin.Spells`: the texts of one coin, with any white space.
* `Coin.Lists`: the parts of a list of coins, some of them empty.
* `Coin.parseList?_of_lists`, `Coin.writable_of_parseList?`: such a list is read back, and whatever is read can
  be written.
* `Coin.parseDenom?_digits`, `Coin.eq_of_parseDenom?`: the same of an amount directly before its denomination.
* `Coin.codecs_exact`: all of this, for the attributes of an event.
-/

namespace PoolIndexer

namespace Coin

/-- An amount that is not negative, and an asset in one word without a comma. -/
structure Writable (c : Coin) : Prop where
  nonneg : 0 ≤ c.e8.toInt
  asset : Text.IsWord c.asset.toList
  comma : ',' ∉ c.asset.toList

/-- The amount and the asset, with white space between them and perhaps around them. -/
def Spells (c : Coin) (p : List Char) : Prop :=
  ∃ before gap after, Text.Blank before ∧ Text.Blank gap ∧ gap ≠ [] ∧ Text.Blank after ∧
    p = before ++ Text.Decimal.ofInt c.e8.toInt ++ gap ++ c.asset.toList ++ after

/-- The parts of a list of coins: one for each coin, in order, and any number of blank ones. -/
inductive Lists : List Coin → List (List Char) → Prop where
  | nil : Lists [] []
  | blank {coins : List Coin} {gap : List Char} {ps : List (List Char)} (hgap : Text.Blank gap)
      (h : Lists coins ps) : Lists coins (gap :: ps)
  | coin {c : Coin} {coins : List Coin} {p : List Char} {ps : List (List Char)} (hp : c.Spells p)
      (h : Lists coins ps) : Lists (c :: coins) (p :: ps)

/-- The list of coins as it is usually written. -/
def renderList (coins : List Coin) : String := String.ofList ([','].intercalate (coins.map render))

variable {c : Coin} {coins : List Coin} {p : List Char} {ps : List (List Char)}

theorem spells_render (c : Coin) : c.Spells c.render :=
  ⟨[], [' '], [], by simp [Text.Blank], by simp [Text.Blank, Text.isBlank], by simp, by simp [Text.Blank],
    by simp [render]⟩

theorem lists_render (coins : List Coin) : Lists coins (coins.map render) := by
  induction coins with
  | nil => exact .nil
  | cons c coins ih => exact .coin (spells_render c) ih

/-! ### One coin -/

theorem parseChars?_eq_some_iff : parseChars? p = some c ↔ ∃ amount, Text.words p = [amount, c.asset.toList] ∧
    Text.Decimal.int64? amount = some c.e8 ∧ 0 ≤ c.e8.toInt := by
  unfold parseChars?
  constructor
  · intro h
    split at h
    · rename_i amount asset hwords
      split at h
      · rename_i e8 hamount
        split at h
        · rename_i hnonneg
          cases h
          exact ⟨amount, by simpa using hwords, hamount, hnonneg⟩
        · cases h
      · cases h
    · cases h
  · rintro ⟨amount, hwords, hamount, hnonneg⟩
    simp [hwords, hamount, hnonneg]

theorem nonneg_of_parseChars? (h : parseChars? p = some c) : 0 ≤ c.e8.toInt := by
  obtain ⟨_, -, -, hnonneg⟩ := parseChars?_eq_some_iff.1 h
  exact hnonneg

theorem parseChars?_trim (p : List Char) : parseChars? (Text.trim p) = parseChars? p := by
  unfold parseChars?
  rw [Text.words_trim]

theorem writable_of_parseChars? (h : parseChars? p = some c) (hp : ',' ∉ p) : c.Writable := by
  obtain ⟨amount, hwords, -, hnonneg⟩ := parseChars?_eq_some_iff.1 h
  have hmem : c.asset.toList ∈ Text.words p := by simp [hwords]
  obtain ⟨hasset, hsub⟩ := Text.mem_words hmem
  exact ⟨hnonneg, hasset, fun hcomma => hp (hsub hcomma)⟩

theorem isWord_digits (n : Nat) : Text.IsWord (Text.Decimal.digits n) :=
  ⟨Text.Decimal.digits_ne_nil n, fun d hd => Text.Decimal.isBlank_of_isDigit (Text.Decimal.isDigit_of_mem_digits d hd)⟩

theorem parseChars?_of_spells (hc : c.Writable) (hp : c.Spells p) : parseChars? p = some c := by
  obtain ⟨before, gap, after, hbefore, hgap, hne, hafter, rfl⟩ := hp
  rw [Text.Decimal.ofInt_of_nonneg hc.nonneg]
  have hwords := Text.words_pair hbefore (isWord_digits c.e8.toInt.toNat) hgap hne hc.asset hafter
  exact parseChars?_eq_some_iff.2 ⟨_, hwords, Text.Decimal.int64?_digits hc.nonneg, hc.nonneg⟩

theorem comma_not_mem_of_spells (hc : c.Writable) (hp : c.Spells p) : ',' ∉ p := by
  have hblank : ∀ gap : List Char, Text.Blank gap → ',' ∉ gap := fun gap hgap h => absurd (hgap _ h) (by decide)
  have hdigits : ',' ∉ Text.Decimal.digits c.e8.toInt.toNat :=
    fun h => absurd (Text.Decimal.isDigit_of_mem_digits _ h) (by decide)
  obtain ⟨before, gap, after, hbefore, hgap, -, hafter, rfl⟩ := hp
  rw [Text.Decimal.ofInt_of_nonneg hc.nonneg]
  simp only [List.mem_append, not_or]
  exact ⟨⟨⟨⟨hblank _ hbefore, hdigits⟩, hblank _ hgap⟩, hc.comma⟩, hblank _ hafter⟩

/-! ### Lists of coins -/

theorem comma_not_mem_of_lists (hcoins : ∀ c ∈ coins, c.Writable) (h : Lists coins ps) : ∀ p ∈ ps, ',' ∉ p := by
  induction h with
  | nil => exact fun _ hp => absurd hp List.not_mem_nil
  | blank hgap _ ih =>
    exact List.forall_mem_cons.2 ⟨fun hcomma => absurd (hgap _ hcomma) (by decide), ih hcoins⟩
  | coin hp _ ih =>
    obtain ⟨hc, hcoins⟩ := List.forall_mem_cons.1 hcoins
    exact List.forall_mem_cons.2 ⟨comma_not_mem_of_spells hc hp, ih hcoins⟩

/-- Parts without commas are the parts of the text that joins them, but for the blank ones. -/
theorem parts_intercalate (h : ∀ p ∈ ps, ',' ∉ p) :
    parts ([','].intercalate ps) = (ps.map Text.trim).filter fun p => !p.isEmpty := by
  unfold parts
  cases ps with
  | nil => rfl
  | cons p ps =>
    rw [Text.splitOn_intercalate (by decide) (List.cons_ne_nil p ps)]
    intro part hpart d hd
    exact decide_eq_false fun hcomma => h part hpart (hcomma ▸ hd)

/-- Blank parts are passed over, and each other part gives its coin. -/
theorem mapM_parts (hcoins : ∀ c ∈ coins, c.Writable) (h : Lists coins ps) :
    ((ps.map Text.trim).filter fun p => !p.isEmpty).mapM parseChars? = some coins := by
  induction h with
  | nil => rfl
  | blank hgap _ ih =>
    rw [List.map_cons, Text.trim_of_blank hgap, List.filter_cons_of_neg (by simp)]
    exact ih hcoins
  | @coin c coins p ps hp _ ih =>
    obtain ⟨hc, hcoins⟩ := List.forall_mem_cons.1 hcoins
    have hparse : parseChars? (Text.trim p) = some c := (parseChars?_trim p).trans (parseChars?_of_spells hc hp)
    have hne : Text.trim p ≠ [] := by
      intro hempty
      rw [hempty] at hparse
      cases hparse
    rw [List.map_cons, List.filter_cons_of_pos (by simpa using hne), List.mapM_cons, hparse, ih hcoins]
    rfl

/-- **Reading what was written.** -/
theorem parseList?_of_lists (hcoins : ∀ c ∈ coins, c.Writable) (h : Lists coins ps) :
    parseList? (String.ofList ([','].intercalate ps)) = some coins := by
  rw [parseList?, String.toList_ofList, parts_intercalate (comma_not_mem_of_lists hcoins h), mapM_parts hcoins h]

/-- **Whatever is read can be written.** -/
theorem writable_of_parseList? {s : String} (h : parseList? s = some coins) : ∀ c ∈ coins, c.Writable := by
  intro c hc
  obtain ⟨part, hpart, hparse⟩ := (results_of_mapM h).2 c hc
  obtain ⟨whole, hwhole, rfl⟩ := List.mem_map.1 (List.mem_of_mem_filter hpart)
  refine writable_of_parseChars? hparse fun hcomma => ?_
  simpa using Text.mem_splitOn hwhole ',' (Text.trim_subset whole hcomma)

/-! ### An amount before its denomination -/

/-- Some text that does not begin with a digit. -/
structure IsDenom (denom : String) : Prop where
  ne_empty : denom ≠ ""
  front : ∀ d, denom.toList.head? = some d → Text.Decimal.isDigit d = false

theorem parseDenom?_eq_some_iff {s denom : String} {w : Int64} : parseDenom? s = some (w, denom) ↔
    IsDenom denom ∧ ∃ amount, (∀ d ∈ amount, Text.Decimal.isDigit d = true) ∧
      Text.Decimal.int64? amount = some w ∧ s.toList = amount ++ denom.toList := by
  unfold parseDenom?
  dsimp only
  constructor
  · intro h
    split at h
    · cases h
    · rename_i hne
      obtain ⟨w', hamount, heq⟩ := Option.map_eq_some_iff.1 h
      cases heq
      refine ⟨⟨fun hempty => hne ?_, fun d hd => ?_⟩, _, fun d hd => List.mem_takeWhile_imp hd, hamount, ?_⟩
      · simpa using hempty
      · have hfront := List.head?_dropWhile_not Text.Decimal.isDigit s.toList
        rw [String.toList_ofList] at hd
        rw [hd] at hfront
        simpa using hfront
      · rw [String.toList_ofList, List.takeWhile_append_dropWhile]
  · rintro ⟨⟨hne, hfront⟩, amount, hdigits, hamount, htext⟩
    rw [htext, Text.Decimal.takeWhile_digits hdigits hfront, Text.Decimal.dropWhile_digits hdigits hfront]
    simp [hne, hamount]

theorem parseDenom?_digits {n : Nat} (hn : n < 2 ^ 63) {denom : String} (h : IsDenom denom) :
    parseDenom? (Text.Decimal.showNat n ++ denom) = some (Int64.ofNat n, denom) := by
  have hw : (Int64.ofNat n).toInt = n := Int64.toInt_ofNat_of_lt hn
  have hamount := (Text.Decimal.int64?_eq_some_iff Text.Decimal.isDigit_of_mem_digits).2
    ⟨n, Text.Decimal.value?_digits n, hw⟩
  refine parseDenom?_eq_some_iff.2 ⟨h, _, Text.Decimal.isDigit_of_mem_digits, hamount, ?_⟩
  rw [String.toList_append, Text.Decimal.showNat, String.toList_ofList]

theorem eq_of_parseDenom? {s denom : String} {w : Int64} (h : parseDenom? s = some (w, denom)) :
    IsDenom denom ∧ ∃ n zeros : Nat, n < 2 ^ 63 ∧ w = Int64.ofNat n ∧
      s = String.ofList (List.replicate zeros '0') ++ Text.Decimal.showNat n ++ denom := by
  obtain ⟨hdenom, amount, hdigits, hamount, htext⟩ := parseDenom?_eq_some_iff.1 h
  obtain ⟨n, hvalue, hw⟩ := (Text.Decimal.int64?_eq_some_iff hdigits).1 hamount
  obtain ⟨zeros, rfl⟩ := Text.Decimal.exists_zeros_of_value? hvalue
  have hhigh := Int64.toInt_lt w
  refine ⟨hdenom, n, zeros, by omega, ?_, ?_⟩
  · rw [← Int64.toInt_inj, hw, Int64.toInt_ofNat_of_lt (by omega)]
  · rw [← String.toList_inj, htext]
    simp [Text.Decimal.showNat]

end Coin

theorem Attributes.coins_eq_ok_iff {as : Attributes} {key : String} {coins : List Coin} :
    as.coins key = .ok coins ↔ ∃ text, as.get? key = some text ∧ Coin.parseList? text = some coins := by
  unfold Attributes.coins Attributes.get
  cases as.get? key with
  | none => simp [bind, Except.bind]
  | some text => cases hcoins : Coin.parseList? text <;> simp [bind, Except.bind, hcoins, pure, Except.pure]

/-- **Codecs of coins**: an attribute that lists coins which can be written, with any white space and any blank
parts, is read as these coins.  Whatever is read from an attribute can be written, and is read again from what
is usually written.  An amount below `2 ^ 63` is read from its digits directly before a denomination, and nothing
else is read so but for zeros in front. -/
theorem Coin.codecs_exact :
    (∀ (as : Attributes) (key : String) (coins : List Coin) (ps : List (List Char)), (∀ c ∈ coins, c.Writable) →
      Coin.Lists coins ps → as.get? key = some (String.ofList ([','].intercalate ps)) →
      as.coins key = .ok coins) ∧
    (∀ (as : Attributes) (key : String) (coins : List Coin), as.coins key = .ok coins →
      (∀ c ∈ coins, c.Writable) ∧ ∀ (as' : Attributes) (key' : String),
        as'.get? key' = some (Coin.renderList coins) → as'.coins key' = .ok coins) ∧
    (∀ n < 2 ^ 63, ∀ denom, Coin.IsDenom denom →
      Coin.parseDenom? (Text.Decimal.showNat n ++ denom) = some (Int64.ofNat n, denom)) ∧
    ∀ text w denom, Coin.parseDenom? text = some (w, denom) →
      Coin.IsDenom denom ∧ ∃ n zeros : Nat, n < 2 ^ 63 ∧ w = Int64.ofNat n ∧
        text = String.ofList (List.replicate zeros '0') ++ Text.Decimal.showNat n ++ denom := by
  refine ⟨fun as key coins ps hcoins hps htext => ?_, fun as key coins h => ?_,
    fun n hn denom hdenom => Coin.parseDenom?_digits hn hdenom, fun text w denom h => Coin.eq_of_parseDenom? h⟩
  · exact Attributes.coins_eq_ok_iff.2 ⟨_, htext, Coin.parseList?_of_lists hcoins hps⟩
  · obtain ⟨text, -, hparse⟩ := Attributes.coins_eq_ok_iff.1 h
    have hcoins := Coin.writable_of_parseList? hparse
    refine ⟨hcoins, fun as' key' htext => ?_⟩
    exact Attributes.coins_eq_ok_iff.2 ⟨_, htext, Coin.parseList?_of_lists hcoins (Coin.lists_render coins)⟩

/-- Two coins among blank parts, one of them between ideographic spaces, and an amount of the bank. -/
theorem Coin.codecs_exact_spaced :
    Attributes.coins ⟨"swap", [("coin", "\u3000100  BTC.BTC\u3000,, 5 THOR.RUNE,")]⟩ "coin" =
        .ok [⟨"BTC.BTC", 100⟩, ⟨"THOR.RUNE", 5⟩] ∧
      Coin.parseDenom? "1500rune" = some (1500, "rune") := by
  obtain ⟨hlist, -, hdenom, -⟩ := Coin.codecs_exact
  have hbtc : Coin.Writable ⟨"BTC.BTC", 100⟩ := ⟨by decide, by decide, by decide⟩
  have hrune : Coin.Writable ⟨"THOR.RUNE", 5⟩ := ⟨by decide, by decide, by decide⟩
  refine ⟨hlist _ _ _ ["\u3000100  BTC.BTC\u3000".toList, [], " 5 THOR.RUNE".toList, []] ?_ ?_ rfl, ?_⟩
  · exact List.forall_mem_cons.2 ⟨hbtc, List.forall_mem_singleton.2 hrune⟩
  · have hfirst : Coin.Spells ⟨"BTC.BTC", 100⟩ "\u3000100  BTC.BTC\u3000".toList :=
      ⟨['\u3000'], [' ', ' '], ['\u3000'], by decide, by decide, by decide, by decide, by decide +kernel⟩
    have hsecond : Coin.Spells ⟨"THOR.RUNE", 5⟩ " 5 THOR.RUNE".toList :=
      ⟨[' '], [' '], [], by decide, by decide, by decide, by decide, by decide +kernel⟩
    exact .coin hfirst (.blank (by decide) (.coin hsecond (.blank (by decide) .nil)))
  · have htext : "1500rune" = Text.Decimal.showNat 1500 ++ "rune" := by decide +kernel
    have hfront : ∀ d, "rune".toList.head? = some d → Text.Decimal.isDigit d = false := by
      rintro d ⟨⟩
      rfl
    rw [htext]
    exact hdenom 1500 (by decide) "rune" ⟨by decide, hfront⟩

end PoolIndexer
