import PoolIndexer.Text.Blank

/-!
# Disk — a tree of folders and files

A folder has every name at most once, in no order that matters.  A path is a list of names; writing
a folder makes the folders on the way to it, but never takes the place of a file.
-/

namespace PoolIndexer

inductive Item where
  | plain (text : String)
  /-- A file whose text is compressed. -/
  | packed (text : String)
  | folder (items : List (String × Item))

abbrev Folder := List (String × Item)

abbrev Path := List String

/-- What a path leads to. -/
inductive Place where
  | absent
  /-- Something on the way is no folder. -/
  | barred
  | file
  | folder (items : Folder)

/-! ### Paths -/

/-- The names of a path that are not just points; an absolute path begins with the empty name. -/
def Path.ofText (s : String) : Path :=
  match Text.splitOn (· = '/') s.toList with
  | [] :: rest@(_ :: _) => "" :: names rest
  | parts => names parts
where
  names (parts : List (List Char)) : Path :=
    (parts.filter fun p => p ≠ [] ∧ p ≠ ['.']).map String.ofList

namespace Folder

/-! ### One folder -/

def names (f : Folder) : List String := f.map (·.1)

def sortedNames (f : Folder) : List String := f.names.mergeSort fun a b => a ≤ b

/-- The item of that name. -/
def get? (f : Folder) (name : String) : Option Item := List.lookup name f

def erase (f : Folder) (name : String) : Folder := List.filter (fun e => name ≠ e.1) f

def put (f : Folder) (name : String) (item : Item) : Folder := f.erase name ++ [(name, item)]

theorem get?_erase_self (f : Folder) (name : String) : (f.erase name).get? name = none := by
  simp [get?, erase, List.lookup_eq_none_iff]

theorem get?_erase_of_ne (f : Folder) {name other : String} (h : other ≠ name) :
    (f.erase name).get? other = f.get? other := by
  induction f with
  | nil => rfl
  | cons e f ih =>
    unfold get? erase at *
    by_cases he : name = e.1
    · rw [List.filter_cons_of_neg (by simpa using he), List.lookup_cons, ih]
      simp [← he, beq_eq_false_iff_ne.2 h]
    · rw [List.filter_cons_of_pos (by simpa using he), List.lookup_cons, List.lookup_cons, ih]

theorem get?_put_self (f : Folder) (name : String) (item : Item) :
    (f.put name item).get? name = some item := by
  have h := get?_erase_self f name
  unfold get? at h
  simp [put, get?, List.lookup_append, h]

theorem get?_put_of_ne (f : Folder) {name other : String} (item : Item) (h : other ≠ name) :
    (f.put name item).get? other = f.get? other := by
  rw [← get?_erase_of_ne f h]
  simp [put, get?, List.lookup_append, List.lookup_cons, beq_eq_false_iff_ne.2 h]

end Folder

/-- The names of a folder; anything else has none. -/
def Place.sortedNames : Place → List String
  | .folder f => Folder.sortedNames f
  | _ => []

namespace Item

/-! ### The tree -/

def at? : Path → Item → Option Item
  | [], i => some i
  | name :: rest, .folder items => (Folder.get? items name).bind (at? rest)
  | _ :: _, _ => none

def place : Path → Item → Place
  | [], .folder items => .folder items
  | [], _ => .file
  | name :: rest, .folder items =>
    match Folder.get? items name with
    | some i => place rest i
    | none => .absent
  | _ :: _, _ => .barred

/-- Makes an item what stands at a path; nothing changes behind a file. -/
def putAt (new : Item) : Path → Item → Item
  | [], _ => new
  | name :: rest, .folder items =>
    .folder (Folder.put items name (putAt new rest ((Folder.get? items name).getD (.folder []))))
  | _ :: _, i => i

/-- Makes the folders of a path; nothing if a file is in the way. -/
def makeFolders? (path : Path) (i : Item) : Option Item :=
  match i.place path with
  | .absent => some (putAt (.folder []) path i)
  | .folder _ => some i
  | .barred | .file => none

/-- Makes a folder what stands at a path. -/
def setPlace (path : Path) (i : Item) : Place → Item
  | .folder items => putAt (.folder items) path i
  | _ => i

end Item

end PoolIndexer
