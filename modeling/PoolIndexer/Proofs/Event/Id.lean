import PoolIndexer.Event.Id
import PoolIndexer.Proofs.Basic

/-!
# Proofs.Event.Id — an id is read back from its code

The code of an id whose index stays below the span of a phase is a number in mixed radix, so its
height, phase and index are a quotient and remainders, and codes are ordered as ids are.

* `decode?_eq_some_iff`, `decode?_eq_none_iff`: which id a number stands for, and which numbers have none.
* `InRange`: the ids that have a code, whatever the sign of their height.
* `code_exact`: codes of ids in range against the order of the ids and against all numbers.
-/

namespace PoolIndexer

namespace Phase

theorem ofRank?_eq_some_iff {n : Nat} {p : Phase} : ofRank? n = some p ↔ n = p.rank := by
  constructor
  · intro h
    unfold ofRank? at h
    split at h <;> cases h <;> rfl
  · rintro rfl
    exact ofRank?_rank p

theorem ofRank?_eq_none_iff {n : Nat} : ofRank? n = none ↔ 3 ≤ n := by
  match n with
  | 0 | 1 | 2 => simp [ofRank?]
  | n + 3 => simp [ofRank?]

end Phase

namespace EventId

/-- The code is exact: height, phase and index in their places. -/
theorem toInt_of_encode {id : EventId} {value : Int64} (h : id.encode = .ok value) :
    value.toInt =
      id.height.toInt * heightSpan + id.phase.rank * phaseSpan + id.index.toNat := by
  have hphase : id.phase.rank ≤ 2 := by cases id.phase <;> decide
  have hindex : id.index.toNat < 2 ^ 32 := id.index.toNat_lt
  unfold encode at h
  cases hbase : Checked.mul id.height (Int64.ofNat heightSpan) with
  | error o =>
    rw [hbase] at h
    cases h
  | ok base =>
    rw [hbase] at h
    cases hplace : Checked.add base (Int64.ofNat (id.phase.rank * phaseSpan)) with
    | error o =>
      simp only [bind, Except.bind, hplace] at h
      cases h
    | ok place =>
      simp only [bind, Except.bind, hplace] at h
      rw [Checked.add_eq_ok_iff.1 h, Checked.add_eq_ok_iff.1 hplace, Checked.mul_eq_ok_iff.1 hbase,
        Int64.toInt_ofNat_of_lt (by simp only [heightSpan]; omega),
        Int64.toInt_ofNat_of_lt (by simp only [phaseSpan]; omega), Int64.toInt_ofNat_of_lt (by omega)]
      push_cast
      rfl

/-- The index fits under its phase, and the height above nine decimal places. -/
structure InRange (id : EventId) : Prop where
  height : id.height.toInt.natAbs ≤ 9223372036
  index : id.index.toNat ≤ maxIndex

/-- An id in range has a code. -/
theorem InRange.encode_isOk {id : EventId} (h : id.InRange) : ∃ value, id.encode = .ok value := by
  obtain ⟨hheight, hindex⟩ := h
  have hphase : id.phase.rank ≤ 2 := by cases id.phase <;> decide
  simp only [maxIndex, phaseSpan] at hindex
  have hspan : (Int64.ofNat heightSpan).toInt = 1000000000 := rfl
  have hplace : (Int64.ofNat (id.phase.rank * phaseSpan)).toInt = id.phase.rank * 100000000 := by
    rw [Int64.toInt_ofNat_of_lt (by simp only [phaseSpan]; omega)]
    simp only [phaseSpan]
    omega
  have hlast : (Int64.ofNat id.index.toNat).toInt = id.index.toNat := Int64.toInt_ofNat_of_lt (by omega)
  obtain ⟨base, hbase, hbase'⟩ := Checked.exists_fit .multiply
    (show -2 ^ 63 ≤ id.height.toInt * 1000000000 by omega) (by omega)
  obtain ⟨place, hadd, hplace'⟩ := Checked.exists_fit .add
    (show -2 ^ 63 ≤ base.toInt + id.phase.rank * 100000000 by omega) (by omega)
  obtain ⟨value, hvalue, -⟩ := Checked.exists_fit .add
    (show -2 ^ 63 ≤ place.toInt + id.index.toNat by omega) (by omega)
  refine ⟨value, ?_⟩
  unfold encode Checked.mul Checked.add
  simp only [hspan, hbase, bind, Except.bind, hplace, hadd, hlast, hvalue]

/-- Up to the last height with room for all its ids, an index that fits under its phase has a code. -/
theorem encode_isOk {id : EventId} (hlow : 0 ≤ id.height.toInt) (hhigh : id.height.toInt ≤ 9223372036)
    (hindex : id.index.toNat ≤ maxIndex) : ∃ value, id.encode = .ok value :=
  InRange.encode_isOk ⟨by omega, hindex⟩

theorem places_of_decode? {id : EventId} {value : Int64} (h : decode? value = some id) :
    id.index.toNat ≤ maxIndex ∧
      value.toInt = id.height.toInt * heightSpan + id.phase.rank * phaseSpan + id.index.toNat := by
  obtain ⟨phase, hphase, rfl⟩ := Option.map_eq_some_iff.1 h
  have hrank := Phase.ofRank?_eq_some_iff.1 hphase
  have hlow := Int64.le_toInt value
  have hhigh := Int64.toInt_lt value
  have hheight : (Int64.ofInt (value.toInt / (1000000000 : Nat))).toInt = value.toInt / (1000000000 : Nat) :=
    Int64.toInt_ofInt_of_le (by omega) (by omega)
  have hindex : (UInt32.ofNat ((value.toInt % (1000000000 : Nat)).toNat % 100000000)).toNat =
      (value.toInt % (1000000000 : Nat)).toNat % 100000000 :=
    UInt32.toNat_ofNat_of_lt' (by simp only [UInt32.size]; omega)
  simp only [heightSpan, phaseSpan] at hrank
  simp only [heightSpan, phaseSpan, maxIndex, hheight, hindex]
  omega

theorem decode?_of_places {id : EventId} {value : Int64} (hindex : id.index.toNat ≤ maxIndex)
    (hvalue : value.toInt = id.height.toInt * heightSpan + id.phase.rank * phaseSpan + id.index.toNat) :
    decode? value = some id := by
  have hphase : id.phase.rank ≤ 2 := by cases id.phase <;> decide
  simp only [heightSpan, phaseSpan] at hvalue
  simp only [maxIndex, phaseSpan] at hindex
  have hheight : value.toInt / (heightSpan : Nat) = id.height.toInt := by
    simp only [heightSpan]
    omega
  have hrest : (value.toInt % (heightSpan : Nat)).toNat = id.phase.rank * phaseSpan + id.index.toNat := by
    simp only [heightSpan, phaseSpan]
    omega
  have hrank : (id.phase.rank * phaseSpan + id.index.toNat) / phaseSpan = id.phase.rank := by
    simp only [phaseSpan]
    omega
  have hlast : (id.phase.rank * phaseSpan + id.index.toNat) % phaseSpan = id.index.toNat := by
    simp only [phaseSpan]
    omega
  simp only [decode?, hheight, hrest, hrank, hlast, Phase.ofRank?_rank, Option.map_some,
    Int64.ofInt_toInt, UInt32.ofNat_toNat]

/-- **Decoder**: an id is read from exactly the one number that holds its parts in their places. -/
theorem decode?_eq_some_iff {id : EventId} {value : Int64} :
    decode? value = some id ↔ id.index.toNat ≤ maxIndex ∧
      value.toInt = id.height.toInt * heightSpan + id.phase.rank * phaseSpan + id.index.toNat :=
  ⟨places_of_decode?, fun h => decode?_of_places h.1 h.2⟩

/-- A number has no id exactly where its phase digit names no phase. -/
theorem decode?_eq_none_iff {value : Int64} :
    decode? value = none ↔ 3 * phaseSpan ≤ value.toInt % heightSpan := by
  unfold decode?
  rw [Option.map_eq_none_iff, Phase.ofRank?_eq_none_iff]
  simp only [heightSpan, phaseSpan]
  omega

/-- **Round trip**: an id whose index fits under its phase is read back from its code. -/
theorem decode?_of_encode {id : EventId} {value : Int64} (h : id.encode = .ok value)
    (hindex : id.index.toNat ≤ maxIndex) : decode? value = some id :=
  decode?_eq_some_iff.2 ⟨hindex, toInt_of_encode h⟩

/-- The id comes before the other one, and is not the other one. -/
def Precedes (a b : EventId) : Prop := b.le a = false

theorem precedes_iff {a b : EventId} :
    a.Precedes b ↔ a.height.toInt < b.height.toInt ∨ a.height.toInt = b.height.toInt ∧
      (a.phase.rank < b.phase.rank ∨ a.phase.rank = b.phase.rank ∧ a.index.toNat < b.index.toNat) := by
  unfold Precedes le
  split
  · rw [decide_eq_false_iff_not]
    omega
  · split
    · rw [decide_eq_false_iff_not]
      omega
    · rw [decide_eq_false_iff_not]
      omega

/-- **Order**: of two ids whose indices fit, the one that comes first has the smaller code. -/
theorem precedes_iff_code_lt {a b : EventId} {x y : Int64} (hx : a.encode = .ok x) (hy : b.encode = .ok y)
    (ha : a.index.toNat ≤ maxIndex) (hb : b.index.toNat ≤ maxIndex) :
    a.Precedes b ↔ x.toInt < y.toInt := by
  have hx' := toInt_of_encode hx
  have hy' := toInt_of_encode hy
  have hranka : a.phase.rank ≤ 2 := by cases a.phase <;> decide
  have hrankb : b.phase.rank ≤ 2 := by cases b.phase <;> decide
  simp only [heightSpan, phaseSpan] at hx' hy'
  simp only [maxIndex, phaseSpan] at ha hb
  rw [precedes_iff]
  omega

/-- From the lowest code on, whatever is read is in range. -/
theorem inRange_of_decode? {id : EventId} {value : Int64} (h : decode? value = some id)
    (hlow : -9223372036 * heightSpan ≤ value.toInt) : id.InRange := by
  obtain ⟨hindex, hvalue⟩ := decode?_eq_some_iff.1 h
  have hphase : id.phase.rank ≤ 2 := by cases id.phase <;> decide
  have hhigh := Int64.toInt_lt value
  refine ⟨?_, hindex⟩
  simp only [heightSpan, phaseSpan] at hlow hvalue
  simp only [maxIndex, phaseSpan] at hindex
  omega

/-- An id in range that is read from a number has that number as its code. -/
theorem InRange.encode_of_decode? {id : EventId} (hrange : id.InRange) {value : Int64}
    (h : decode? value = some id) : id.encode = .ok value := by
  obtain ⟨code, hcode⟩ := hrange.encode_isOk
  obtain ⟨-, hvalue⟩ := decode?_eq_some_iff.1 h
  rw [hcode, Int64.toInt_inj.1 ((toInt_of_encode hcode).trans hvalue.symm)]

/-- **Order-preserving code**: ids in range have codes, which are ordered as the ids are and from which they are
read back.  From the lowest code on, a number has no id if its last nine places name no phase; any other number
is the code of its id. -/
theorem code_exact :
    (∀ a : EventId, a.InRange → ∃ x, a.encode = .ok x ∧ decode? x = some a) ∧
    (∀ a b : EventId, a.InRange → b.InRange → ∃ x y, a.encode = .ok x ∧ b.encode = .ok y ∧
      (a.Precedes b ↔ x < y)) ∧
    ∀ value : Int64, -9223372036 * 10 ^ 9 ≤ value.toInt →
      (decode? value = none ↔ 3 * 10 ^ 8 ≤ value.toInt % 10 ^ 9) ∧
      (value.toInt % 10 ^ 9 < 3 * 10 ^ 8 →
        ∃ id, decode? value = some id ∧ id.index.toNat ≤ maxIndex ∧ id.encode = .ok value) := by
  refine ⟨fun a ha => ?_, fun a b ha hb => ?_, fun value hlow => ?_⟩
  · obtain ⟨x, hx⟩ := ha.encode_isOk
    exact ⟨x, hx, decode?_of_encode hx ha.index⟩
  · obtain ⟨x, hx⟩ := ha.encode_isOk
    obtain ⟨y, hy⟩ := hb.encode_isOk
    refine ⟨x, y, hx, hy, ?_⟩
    rw [precedes_iff_code_lt hx hy ha.index hb.index, Int64.lt_iff_toInt_lt]
  · have hnone : decode? value = none ↔ 3 * 10 ^ 8 ≤ value.toInt % 10 ^ 9 := decode?_eq_none_iff
    refine ⟨hnone, fun hplaces => ?_⟩
    cases hid : decode? value with
    | none => exact absurd (hnone.1 hid) (by omega)
    | some id =>
      have hrange := inRange_of_decode? hid hlow
      exact ⟨id, rfl, hrange.index, hrange.encode_of_decode? hid⟩

/-- The lowest and the highest id in range; the numbers above the code of the latter have no id. -/
theorem code_exact_extremes :
    ∃ x y, encode ⟨-9223372036, .begin, 0⟩ = .ok x ∧ encode ⟨9223372036, .end, 99999999⟩ = .ok y ∧ x < y ∧
      decode? x = some ⟨-9223372036, .begin, 0⟩ ∧ decode? Int64.maxValue = none := by
  have hlowest : InRange ⟨-9223372036, .begin, 0⟩ := ⟨by decide, by decide⟩
  have hhighest : InRange ⟨9223372036, .end, 99999999⟩ := ⟨by decide, by decide⟩
  obtain ⟨hcodes, horder, hnumbers⟩ := code_exact
  obtain ⟨x, y, hx, hy, hlt⟩ := horder _ _ hlowest hhighest
  obtain ⟨x', hx', hback⟩ := hcodes _ hlowest
  have hsame : x' = x := Except.ok.inj (hx'.symm.trans hx)
  exact ⟨x, y, hx, hy, hlt.1 rfl, hsame ▸ hback, (hnumbers Int64.maxValue (by decide)).1.2 (by decide)⟩

end EventId

end PoolIndexer
