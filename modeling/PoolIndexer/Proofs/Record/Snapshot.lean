import Mathlib.Algebra.Group.Nat.Defs
import PoolIndexer.Proofs.Text.Utf8
import PoolIndexer.Record.Snapshot

/-!
# Proofs.Record.Snapshot — totals are read back from their snapshot

Each reader passes over exactly what its writer wrote, whatever follows.  Counts and lengths are
words, so a ledger is read back if its number of entries and the lengths of its keys fit; a
snapshot that memory has room for is far shorter than that.
-/

namespace PoolIndexer

/-! ### Ledgers from their entries -/

namespace Ledger

theorem ext {a b : Ledger} (h : a.entries = b.entries) : a = b := by
  cases a
  cases b
  cases h
  rfl

theorem insertEntry_of_forall_lt {key : String} {amount : Int64} {entries : List (String × Int64)}
    (h : ∀ e ∈ entries, e.1 < key) : insertEntry key amount entries = entries ++ [(key, amount)] := by
  induction entries with
  | nil => rfl
  | cons head rest ih =>
    obtain ⟨k, v⟩ := head
    have hk : k < key := h (k, v) List.mem_cons_self
    have hlt : ¬ key < k := String.lt_asymm hk
    have hne : key ≠ k := by
      rintro rfl
      exact String.lt_irrefl key hk
    rw [insertEntry, if_neg hlt, if_neg hne, ih fun e he => h e (List.mem_cons_of_mem _ he)]
    rfl

theorem entries_foldl_insert (entries : List (String × Int64)) :
    ∀ l : Ledger, Increasing (l.entries ++ entries) →
      (entries.foldl (fun l e => l.insert e.1 e.2) l).entries = l.entries ++ entries := by
  induction entries with
  | nil => simp
  | cons head rest ih =>
    intro l h
    have hlast : ∀ e ∈ l.entries, e.1 < head.1 := fun e he =>
      (List.pairwise_append.1 h).2.2 e he head List.mem_cons_self
    have hins : (l.insert head.1 head.2).entries = l.entries ++ [head] :=
      insertEntry_of_forall_lt hlast
    rw [List.foldl_cons, ih, hins, List.append_assoc]
    · rfl
    · rw [hins, List.append_assoc]
      exact h

/-- A ledger is the ledger of its entries. -/
theorem ofList_entries (l : Ledger) : ofList l.entries = l :=
  ext (entries_foldl_insert l.entries empty l.increasing)

end Ledger

namespace Snapshot

/-! ### Words -/

theorem length_octets (width n : Nat) : (octets width n).length = width := by
  induction width generalizing n with
  | zero => rfl
  | succ width ih => rw [octets, List.length_cons, ih]

theorem ofOctets_octets (width n : Nat) : ofOctets (octets width n) = n % 256 ^ width := by
  induction width generalizing n with
  | zero => simp [octets, ofOctets, Nat.mod_one]
  | succ width ih =>
    have h256 : (UInt8.ofNat (n % 256)).toNat = n % 256 :=
      Text.Utf8.toNat_ofNat (Nat.mod_lt _ (by omega))
    rw [octets, ofOctets, ih, h256, Nat.pow_succ', Nat.mod_mul]

theorem readWord_word {n : Nat} (h : n < UInt64.size) (rest : List UInt8) :
    readWord (word n ++ rest) = .ok (n, rest) := by
  have hlen : (word n).length = 8 := length_octets 8 n
  have hshort : ¬ (word n ++ rest).length < 8 := by
    rw [List.length_append]
    omega
  have hvalue : ofOctets (word n) = n := by
    rw [word, ofOctets_octets]
    exact Nat.mod_eq_of_lt h
  rw [readWord, if_neg hshort, List.take_left' hlen, List.drop_left' hlen, hvalue]

theorem readWord_amount (n : Int64) (rest : List UInt8) :
    readWord (amount n ++ rest) = .ok (n.toUInt64.toNat, rest) :=
  readWord_word n.toUInt64.toNat_lt_size rest

/-! ### Keys and entries -/

/-- Whether the length of the key fits into a word. -/
def KeyFits (s : String) : Prop := (Text.Utf8.encode s).length < UInt64.size

theorem readKey_key {s : String} (h : KeyFits s) (rest : List UInt8) :
    readKey (key s ++ rest) = .ok (s, rest) := by
  have hlong : ¬ (Text.Utf8.encode s ++ rest).length < (Text.Utf8.encode s).length := by
    rw [List.length_append]
    omega
  simp only [readKey, key, List.append_assoc, readWord_word h, bind, Except.bind]
  rw [if_neg hlong, List.take_left, Text.Utf8.decode_encode, List.drop_left]

theorem readEntry_entry {e : String × Int64} (h : KeyFits e.1) (rest : List UInt8) :
    readEntry (entry e ++ rest) = .ok (e, rest) := by
  simp only [readEntry, entry, List.append_assoc, readKey_key h, readWord_amount, bind,
    Except.bind, UInt64.ofNat_toNat]
  rfl

theorem readEntries_flatMap {es : List (String × Int64)} (h : ∀ e ∈ es, KeyFits e.1)
    (rest : List UInt8) : readEntries es.length (es.flatMap entry ++ rest) = .ok (es, rest) := by
  induction es with
  | nil => rfl
  | cons e es ih =>
    have he : KeyFits e.1 := h e List.mem_cons_self
    have hes := ih fun x hx => h x (List.mem_cons_of_mem _ hx)
    simp only [List.length_cons, readEntries, List.flatMap_cons, List.append_assoc,
      readEntry_entry he, hes, bind, Except.bind]

/-! ### Ledgers and totals -/

/-- Whether the number of entries and the lengths of the keys fit into words. -/
def LedgerFits (l : Ledger) : Prop := l.entries.length < UInt64.size ∧ ∀ e ∈ l.entries, KeyFits e.1

theorem readLedger_ledger {l : Ledger} (h : LedgerFits l) (rest : List UInt8) :
    readLedger (ledger l ++ rest) = .ok (l, rest) := by
  simp only [readLedger, ledger, List.append_assoc, readWord_word h.1, readEntries_flatMap h.2,
    bind, Except.bind, Ledger.ofList_entries]

theorem readTotals_ledgers {t : Totals} (ha : LedgerFits t.asset) (hr : LedgerFits t.rune)
    (hs : LedgerFits t.synth) (rest : List UInt8) :
    readTotals (ledger t.asset ++ (ledger t.rune ++ (ledger t.synth ++ rest))) =
      .ok { t with overflows := 0 } := by
  simp only [readTotals, readLedger_ledger ha, readLedger_ledger hr, readLedger_ledger hs, bind,
    Except.bind]

theorem length_key_le_entry (e : String × Int64) :
    (Text.Utf8.encode e.1).length + 1 ≤ (entry e).length := by
  simp only [entry, key, amount, word, List.length_append, length_octets]
  omega

theorem length_entry_le {es : List (String × Int64)} {e : String × Int64} (h : e ∈ es) :
    (entry e).length ≤ (es.flatMap entry).length := by
  obtain ⟨before, after, rfl⟩ := List.append_of_mem h
  simp only [List.flatMap_append, List.flatMap_cons, List.length_append]
  omega

theorem length_le_flatMap_entry (es : List (String × Int64)) :
    es.length ≤ (es.flatMap entry).length := by
  induction es with
  | nil => exact Nat.le_refl 0
  | cons e es ih =>
    have he := length_key_le_entry e
    simp only [List.flatMap_cons, List.length_append, List.length_cons]
    omega

theorem ledgerFits_of_length {l : Ledger} (h : (ledger l).length < UInt64.size) : LedgerFits l := by
  have hall : (l.entries.flatMap entry).length < UInt64.size := by
    rw [ledger, List.length_append] at h
    omega
  refine ⟨?_, fun e he => ?_⟩
  · have := length_le_flatMap_entry l.entries
    omega
  · have h1 := length_key_le_entry e
    have h2 := length_entry_le he
    unfold KeyFits
    omega

/-- **Round trip**: totals are read back from a snapshot that memory has room for; only the count of
refused deltas starts again. -/
theorem decode_of_write {t : Totals} {bs : List UInt8} (h : write t = .ok bs) (height : Int64) :
    decode bs height = .ok { t with overflows := 0 } := by
  unfold write at h
  split at h
  · rename_i hlen
    cases h
    have hshort : (encode t).length < UInt64.size := by
      rw [Int64.toInt_maxValue] at hlen
      simp only [UInt64.size]
      omega
    simp only [encode, List.cons_append, List.length_cons, List.length_append] at hshort
    have hread := readTotals_ledgers (t := t) (ledgerFits_of_length (by omega))
      (ledgerFits_of_length (by omega)) (ledgerFits_of_length (by omega)) []
    simp only [List.append_nil] at hread
    simp only [encode, decode, List.cons_append, List.append_assoc, if_pos, hread]
  · cases h

/-- A snapshot has room for one set of depths only. -/
theorem get_eq_of_write {s t : Totals} {state : List UInt8} (hs : write s = .ok state)
    (ht : write t = .ok state) (pool : String) : s.get pool = t.get pool := by
  have hread : ({ s with overflows := 0 } : Totals) = { t with overflows := 0 } :=
    Except.ok.inj ((decode_of_write hs 0).symm.trans (decode_of_write ht 0))
  have hget : ({ s with overflows := 0 } : Totals).get pool = ({ t with overflows := 0 } : Totals).get pool :=
    by rw [hread]
  exact hget

theorem write_congr {s t : Totals} (ha : s.asset = t.asset) (hr : s.rune = t.rune)
    (hs : s.synth = t.synth) : write s = write t := by
  have h : encode s = encode t := by rw [encode, encode, ha, hr, hs]
  rw [write, write, h]

end Snapshot

end PoolIndexer
