import PoolIndexer.Instant
import PoolIndexer.Proofs.Basic
import PoolIndexer.Proofs.Text.Decimal

/-!
# Proofs.Instant — an instant is read back from its text

Every part of the text ends before a character that is no digit, so each reader takes exactly the digits that
were written.  This holds of all years, with and without a sign.
-/

namespace PoolIndexer.Instant

open Text Text.Decimal

/-- A date of the calendar and a time of day, which may be a leap second. -/
structure IsValid (t : Instant) : Prop where
  date : t.date.isValid = true
  hour : t.hour < 24
  minute : t.minute < 60
  second : t.second ≤ 60
  nano : t.nano < 10 ^ 9

/-! ### Numbers and separators -/

theorem trimLeft_cons {c : Char} (h : isBlank c = false) (cs : List Char) : trimLeft (c :: cs) = c :: cs :=
  List.dropWhile_cons_of_neg (by simp [h])

theorem trimLeft_lastDigits {width : Nat} (hwidth : 0 < width) (n : Nat) (rest : List Char) :
    trimLeft (lastDigits width n ++ rest) = lastDigits width n ++ rest := by
  obtain ⟨c, cs, hds, hdigit⟩ := exists_cons_lastDigits hwidth n
  rw [hds]
  exact trimLeft_cons (isBlank_of_isDigit hdigit) _

theorem separator?_cons {c : Char} (h : isBlank c = false) (cs : List Char) : separator? c (c :: cs) = some cs := by
  simp [separator?, trimLeft_cons h]

theorem number?_lastDigits {width limit n : Nat} (hwidth : 0 < width) (hlimit : width ≤ limit) (h : n < 10 ^ width)
    {rest : List Char} (hrest : ∀ c, rest.head? = some c → isDigit c = false) :
    number? limit (lastDigits width n ++ rest) = some (n, rest) := by
  have htake : (lastDigits width n ++ rest).take limit =
      lastDigits width n ++ rest.take (limit - width) := by
    rw [List.take_append, length_lastDigits, List.take_of_length_le (by simpa using hlimit)]
  have hds : ((lastDigits width n ++ rest).take limit).takeWhile isDigit = lastDigits width n := by
    rw [htake]
    refine takeWhile_digits isDigit_of_mem_lastDigits fun c hc => hrest c ?_
    rw [List.head?_take] at hc
    split at hc
    · cases hc
    · exact hc
  simp only [number?, hds, value?_lastDigits hwidth h, Option.map_some, List.drop_left]

theorem twoDigits?_lastDigits {n : Nat} (h : n < 100) {rest : List Char}
    (hrest : ∀ c, rest.head? = some c → isDigit c = false) : twoDigits? (lastDigits 2 n ++ rest) = some (n, rest) := by
  rw [twoDigits?, trimLeft_lastDigits (by decide), number?_lastDigits (by decide) (by decide) h hrest]

theorem longNumber?_padded {width n : Nat} (hwidth : 0 < width) (h : n < 2 ^ 63) {rest : List Char}
    (hrest : ∀ c, rest.head? = some c → isDigit c = false) :
    longNumber? (padded width n ++ rest) = some ((n : Int), rest) := by
  obtain ⟨w, hfit, -⟩ := Checked.exists_fit .add (show -2 ^ 63 ≤ (n : Int) by omega) (by omega)
  have hsome : Checked.fit? n = some w := Checked.fit?_eq_some_iff.2 (Checked.fit_eq_ok_iff.1 hfit)
  simp only [longNumber?, takeWhile_digits isDigit_of_mem_padded hrest, value?_padded hwidth, hsome,
    Option.isSome_some, if_true, List.drop_left]

/-! ### Date and time -/

theorem year?_yearChars {year : Int} (hlow : Date.minYear ≤ year) (hhigh : year ≤ Date.maxYear) (rest : List Char) :
    year? (yearChars year ++ '-' :: rest) = some (year, '-' :: rest) := by
  have hrest : ∀ c, ('-' :: rest).head? = some c → isDigit c = false := by
    rintro c ⟨⟩
    rfl
  unfold Date.minYear at hlow
  unfold Date.maxYear at hhigh
  unfold yearChars
  by_cases hplain : 0 ≤ year ∧ year ≤ 9999
  · rw [if_pos hplain]
    have hnumber : number? 4 (lastDigits 4 year.toNat ++ '-' :: rest) = some (year.toNat, '-' :: rest) :=
      number?_lastDigits (by decide) (by decide) (by omega) hrest
    obtain ⟨c, cs, hds, hdigit⟩ := exists_cons_lastDigits (by decide : 0 < 4) year.toNat
    unfold year?
    rw [trimLeft_lastDigits (by decide)]
    split
    · rename_i heq
      rw [hds] at heq
      cases heq
      cases hdigit
    · rename_i heq
      rw [hds] at heq
      cases heq
      cases hdigit
    · rw [hnumber, Option.map_some]
      dsimp only
      rw [Int.toNat_of_nonneg hplain.1]
  · rw [if_neg hplain]
    by_cases hsign : 0 ≤ year
    · rw [if_pos hsign, List.cons_append]
      unfold year?
      rw [trimLeft_cons rfl]
      show longNumber? _ = _
      rw [longNumber?_padded (by decide) (by omega) hrest, Int.toNat_of_nonneg hsign]
    · rw [if_neg hsign, List.cons_append]
      unfold year?
      rw [trimLeft_cons rfl]
      show (longNumber? _).map _ = _
      rw [longNumber?_padded (by decide) (by omega) hrest, Int.toNat_of_nonneg (by omega)]
      simp

theorem date?_chars {d : Date} (h : d.isValid = true) {rest : List Char}
    (hrest : ∀ c, rest.head? = some c → isDigit c = false) :
    date? (yearChars d.year ++ '-' :: (lastDigits 2 d.month ++ '-' :: (lastDigits 2 d.day ++ rest))) =
      some (d, rest) := by
  simp only [Date.isValid, Bool.and_eq_true, decide_eq_true_eq] at h
  obtain ⟨⟨⟨⟨⟨hlow, hhigh⟩, -⟩, hmonth⟩, -⟩, hday⟩ := h
  have hlength : Date.daysInMonth d.year d.month ≤ 31 := by
    unfold Date.daysInMonth
    split
    · split <;> decide
    all_goals decide
  have hdash : ∀ (cs : List Char) (c : Char), ('-' :: cs).head? = some c → isDigit c = false := by
    rintro cs c ⟨⟩
    rfl
  unfold date?
  rw [year?_yearChars hlow hhigh]
  simp only [Option.bind_eq_bind, Option.bind_some, separator?_cons (show isBlank '-' = false from rfl),
    twoDigits?_lastDigits (show d.month < 100 by omega) (hdash _), twoDigits?_lastDigits (show d.day < 100 by omega) hrest]
  rfl

theorem fraction?_lastDigits {width n : Nat} (hwidth : 0 < width) (hlimit : width ≤ 9) (h : n < 10 ^ width) :
    fraction? ('.' :: lastDigits width n ++ ['Z']) = some (n * Nat.pow 10 (9 - width), ['Z']) := by
  have hrest : ∀ c, ['Z'].head? = some c → isDigit c = false := by
    rintro c ⟨⟩
    rfl
  have htake : (lastDigits width n ++ ['Z']).takeWhile isDigit = lastDigits width n :=
    takeWhile_digits isDigit_of_mem_lastDigits hrest
  have hwide : min 9 width = width := by omega
  unfold fraction?
  simp only [List.cons_append, number?_lastDigits hwidth hlimit h hrest, htake, Option.bind_eq_bind,
    Option.bind_some, length_lastDigits, hwide]
  rw [List.drop_left' (length_lastDigits width n)]
  rfl

theorem fraction?_fractionChars {nano : Nat} (h : nano < 10 ^ 9) :
    fraction? (fractionChars nano ++ ['Z']) = some (nano, ['Z']) := by
  unfold fractionChars
  by_cases hnone : nano = 0
  · rw [if_pos hnone, hnone]
    rfl
  rw [if_neg hnone]
  by_cases hmilli : nano % 1000000 = 0
  · rw [if_pos hmilli, fraction?_lastDigits (by decide) (by decide) (by omega)]
    exact congrArg (fun n => some (n, ['Z'])) (Nat.div_mul_cancel (Nat.dvd_of_mod_eq_zero hmilli))
  rw [if_neg hmilli]
  by_cases hmicro : nano % 1000 = 0
  · rw [if_pos hmicro, fraction?_lastDigits (by decide) (by decide) (by omega)]
    exact congrArg (fun n => some (n, ['Z'])) (Nat.div_mul_cancel (Nat.dvd_of_mod_eq_zero hmicro))
  · rw [if_neg hmicro, fraction?_lastDigits (by decide) (by decide) h]
    exact congrArg (fun n => some (n, ['Z'])) (Nat.mul_one nano)

theorem clock?_chars {t : Instant} (h : t.IsValid) :
    clock? (lastDigits 2 t.hour ++ ':' :: (lastDigits 2 t.minute ++ ':' :: (lastDigits 2 t.second ++
      (fractionChars t.nano ++ ['Z'])))) = some (⟨t.hour, t.minute, t.second, t.nano⟩, ['Z']) := by
  have hcolon : ∀ (cs : List Char) (c : Char), (':' :: cs).head? = some c → isDigit c = false := by
    rintro cs c ⟨⟩
    rfl
  have hpoint : ∀ c, (fractionChars t.nano ++ ['Z']).head? = some c → isDigit c = false := by
    unfold fractionChars
    intro c hc
    split at hc
    · cases hc
      rfl
    · split at hc
      · cases hc
        rfl
      · split at hc <;> cases hc <;> rfl
  have hhour := h.hour
  have hminute := h.minute
  have hsecond := h.second
  unfold clock?
  simp only [Option.bind_eq_bind, Option.bind_some, separator?_cons (show isBlank ':' = false from rfl),
    twoDigits?_lastDigits (show t.hour < 100 by omega) (hcolon _),
    twoDigits?_lastDigits (show t.minute < 100 by omega) (hcolon _),
    twoDigits?_lastDigits (show t.second < 100 by omega) hpoint, fraction?_fractionChars h.nano]
  rw [if_pos ⟨hhour, hminute, hsecond⟩]
  rfl

theorem ofLocal?_utc {t : Instant} (h : t.IsValid) :
    ofLocal? t.date ⟨t.hour, t.minute, t.second, t.nano⟩ 0 = some t := by
  have hhour := h.hour
  have hminute := h.minute
  unfold ofLocal?
  have hlow : ¬ (t.hour * 60 + t.minute - 0 : Int) < 0 := by omega
  have hhigh : (t.hour * 60 + t.minute - 0 : Int) < 1440 := by omega
  have hminutes : ((t.hour * 60 + t.minute - 0 : Int) % 1440).toNat = t.hour * 60 + t.minute := by omega
  dsimp only
  rw [if_neg hlow, if_pos hhigh, if_pos ⟨h.date, h.date, by decide, by decide⟩, hminutes,
    show (t.hour * 60 + t.minute) / 60 = t.hour by omega, show (t.hour * 60 + t.minute) % 60 = t.minute by omega]

/-- **Every instant of the calendar is read back.** -/
theorem parse?_render {t : Instant} (h : t.IsValid) : parse? t.render = some t := by
  have hchars : t.renderChars = yearChars t.date.year ++ '-' :: (lastDigits 2 t.date.month ++ '-' ::
      (lastDigits 2 t.date.day ++ 'T' :: (lastDigits 2 t.hour ++ ':' :: (lastDigits 2 t.minute ++ ':' ::
        (lastDigits 2 t.second ++ (fractionChars t.nano ++ ['Z'])))))) := by
    simp only [renderChars, List.append_assoc, List.cons_append]
  have hclock : ∀ (cs : List Char) (c : Char), ('T' :: cs).head? = some c → isDigit c = false := by
    rintro cs c ⟨⟩
    rfl
  have hoffset : offset? ['Z'] = some (0, []) := by decide
  unfold parse? render parseChars?
  rw [String.toList_ofList, hchars, date?_chars h.date (hclock _)]
  simp only [Option.bind_eq_bind, Option.bind_some, true_or, if_true, clock?_chars h, hoffset]
  exact ofLocal?_utc h

end PoolIndexer.Instant
