import PoolIndexer.Checked

/-!
# Record.Ledger — one amount per pool, the pools in increasing order

The order of names is the order of their characters, which is also the order of their octets in
UTF-8.
-/

namespace PoolIndexer

/-- Entries with strictly increasing keys. -/
def Increasing (entries : List (String × Int64)) : Prop :=
  entries.Pairwise fun a b => a.1 < b.1

structure Ledger where
  entries : List (String × Int64)
  increasing : Increasing entries
  deriving DecidableEq

namespace Ledger

def empty : Ledger := ⟨[], List.Pairwise.nil⟩

def insertEntry (key : String) (amount : Int64) : List (String × Int64) → List (String × Int64)
  | [] => [(key, amount)]
  | (k, v) :: rest =>
    if key < k then (key, amount) :: (k, v) :: rest
    else if key = k then (key, amount) :: rest
    else (k, v) :: insertEntry key amount rest

theorem mem_insertEntry {key : String} {amount : Int64} {entries : List (String × Int64)}
    {e : String × Int64} (h : e ∈ insertEntry key amount entries) :
    e = (key, amount) ∨ e ∈ entries := by
  induction entries with
  | nil => simpa [insertEntry] using h
  | cons head rest ih =>
    obtain ⟨k, v⟩ := head
    unfold insertEntry at h
    split at h
    · simpa using h
    · split at h
      · rcases List.mem_cons.1 h with h | h
        · exact .inl h
        · exact .inr (List.mem_cons_of_mem _ h)
      · rcases List.mem_cons.1 h with h | h
        · exact .inr (h ▸ List.mem_cons_self)
        · exact (ih h).imp_right (List.mem_cons_of_mem _)

theorem increasing_insertEntry {key : String} {amount : Int64}
    {entries : List (String × Int64)} (h : Increasing entries) :
    Increasing (insertEntry key amount entries) := by
  induction entries with
  | nil => exact List.pairwise_singleton _ _
  | cons head rest ih =>
    obtain ⟨k, v⟩ := head
    obtain ⟨hk, hrest⟩ := List.pairwise_cons.1 h
    unfold insertEntry
    split
    · rename_i hlt
      refine List.pairwise_cons.2 ⟨fun e he => ?_, h⟩
      rcases List.mem_cons.1 he with rfl | he
      · exact hlt
      · exact String.lt_trans hlt (hk e he)
    · split
      · rename_i heq
        exact List.pairwise_cons.2 ⟨fun e he => heq ▸ hk e he, hrest⟩
      · rename_i hlt hne
        have hgt : k < key := by grind
        refine List.pairwise_cons.2 ⟨fun e he => ?_, ih hrest⟩
        rcases mem_insertEntry he with rfl | he
        · exact hgt
        · exact hk e he

def insert (l : Ledger) (key : String) (amount : Int64) : Ledger :=
  ⟨insertEntry key amount l.entries, increasing_insertEntry l.increasing⟩

def get? (l : Ledger) (key : String) : Option Int64 := l.entries.lookup key

def get (l : Ledger) (key : String) : Int64 := (l.get? key).getD 0

def keys (l : Ledger) : List String := l.entries.map (·.1)

/-- Adds to the amount of a pool; nothing if the sum does not fit into 64 bits. -/
def add? (l : Ledger) (key : String) (delta : Int64) : Option Ledger :=
  match l.get? key with
  | some amount => (Checked.fit? (amount.toInt + delta.toInt)).map (l.insert key)
  | none => some (l.insert key delta)

/-- The ledger of a list of entries; of equal keys the last one counts. -/
def ofList (entries : List (String × Int64)) : Ledger :=
  entries.foldl (fun l e => l.insert e.1 e.2) empty

/-! ### Looking up -/

theorem lookup_insertEntry (key : String) (amount : Int64) (entries : List (String × Int64))
    (h : Increasing entries) (k : String) :
    (insertEntry key amount entries).lookup k =
      if k = key then some amount else entries.lookup k := by
  induction entries with
  | nil =>
    by_cases hk : k = key
    · subst hk; simp [insertEntry]
    · have : (k == key) = false := by simpa using hk
      simp [insertEntry, List.lookup_cons, this, hk]
  | cons head rest ih =>
    obtain ⟨k', v⟩ := head
    obtain ⟨hlow, hrest⟩ := List.pairwise_cons.1 h
    by_cases hk : k = key
    · subst hk
      unfold insertEntry
      split
      · simp
      · split
        · simp
        · rename_i hne
          have : (k == k') = false := by simpa using hne
          simp [List.lookup_cons, this, ih hrest]
    · have hkb : (k == key) = false := by simpa using hk
      unfold insertEntry
      split
      · simp [List.lookup_cons, hkb]
      · split
        · rename_i heq
          subst heq
          simp [List.lookup_cons, hkb]
        · simp only [List.lookup_cons]
          split
          · rfl
          · rw [ih hrest, if_neg hk]

theorem get?_insert (l : Ledger) (key : String) (amount : Int64) (k : String) :
    (l.insert key amount).get? k = if k = key then some amount else l.get? k :=
  lookup_insertEntry key amount l.entries l.increasing k

end Ledger

end PoolIndexer
