import Mathlib.Algebra.Group.Int.Defs
import Mathlib.Algebra.Group.Nat.Defs
import Mathlib.Data.List.Forall2
import Mathlib.Data.List.Nodup
import PoolIndexer.Checked

/-!
# Proofs.Basic — results in a row, and named values

`Yields` is what a request gives when it is made again and again until it has no more.
-/

namespace PoolIndexer

variable {α β ε : Type}

/-- What is within the range of a word is given back exactly. -/
theorem Checked.exists_fit (fault : Overflow) {n : Int} (hlow : -2 ^ 63 ≤ n) (hhigh : n < 2 ^ 63) :
    ∃ w, fit fault n = .ok w ∧ w.toInt = n := by
  have hw : (Int64.ofInt n).toInt = n := Int64.toInt_ofInt_of_le hlow hhigh
  exact ⟨Int64.ofInt n, fit_eq_ok_iff.2 hw, hw⟩

theorem bind_eq_ok_iff {x : Except ε α} {f : α → Except ε β} {b : β} :
    x >>= f = .ok b ↔ ∃ a, x = .ok a ∧ f a = .ok b := by
  cases x with
  | error e =>
    constructor
    · intro h
      cases h
    · rintro ⟨a, h, -⟩
      cases h
  | ok a =>
    constructor
    · exact fun h => ⟨a, rfl, h⟩
    · rintro ⟨_, ⟨⟩, h⟩
      exact h

/-- Every item of either list is related to one of the other. -/
theorem exists_of_forall₂ {R : α → β → Prop} {xs : List α} {ys : List β} (h : List.Forall₂ R xs ys) :
    (∀ x ∈ xs, ∃ y ∈ ys, R x y) ∧ ∀ y ∈ ys, ∃ x ∈ xs, R x y := by
  induction h with
  | nil => exact ⟨fun _ hx => absurd hx List.not_mem_nil, fun _ hy => absurd hy List.not_mem_nil⟩
  | @cons x y xs ys hxy _ ih =>
    refine ⟨List.forall_mem_cons.2 ⟨⟨y, List.mem_cons_self, hxy⟩, fun x' hx' => ?_⟩,
      List.forall_mem_cons.2 ⟨⟨x, List.mem_cons_self, hxy⟩, fun y' hy' => ?_⟩⟩
    · obtain ⟨y', hmem, hy'⟩ := ih.1 x' hx'
      exact ⟨y', List.mem_cons_of_mem _ hmem, hy'⟩
    · obtain ⟨x', hmem, hx'⟩ := ih.2 y' hy'
      exact ⟨x', List.mem_cons_of_mem _ hmem, hx'⟩

/-- A list of results is made of those of its items, in order, in a monad in which a run that gives a value has
given one at each of its steps. -/
theorem mapM_eq_pure_iff {m : Type → Type} [Monad m] [LawfulMonad m]
    (hpure : ∀ {γ : Type} {a b : γ}, (pure a : m γ) = pure b ↔ a = b)
    (hbind : ∀ {γ δ : Type} {x : m γ} {f : γ → m δ} {b : δ}, x >>= f = pure b ↔ ∃ a, x = pure a ∧ f a = pure b)
    {f : α → m β} {xs : List α} {ys : List β} :
    xs.mapM f = pure ys ↔ List.Forall₂ (fun x y => f x = pure y) xs ys := by
  induction xs generalizing ys with
  | nil =>
    rw [List.mapM_nil, List.forall₂_nil_left_iff, hpure]
    exact eq_comm
  | cons x xs ih =>
    rw [List.mapM_cons, hbind, List.forall₂_cons_left_iff]
    constructor
    · rintro ⟨y, hy, h⟩
      obtain ⟨ys', hys', h⟩ := hbind.1 h
      exact ⟨y, ys', hy, ih.1 hys', (hpure.1 h).symm⟩
    · rintro ⟨y, ys', hy, hys', rfl⟩
      exact ⟨y, hy, hbind.2 ⟨ys', ih.2 hys', rfl⟩⟩

/-! ### Results that may be missing -/

theorem mapM_eq_some_iff {f : α → Option β} {xs : List α} {ys : List β} :
    xs.mapM f = some ys ↔ List.Forall₂ (fun x y => f x = some y) xs ys :=
  mapM_eq_pure_iff Option.some_inj Option.bind_eq_some_iff

/-- A list of results has one for each item, and no others. -/
theorem results_of_mapM {f : α → Option β} {xs : List α} {ys : List β} (h : xs.mapM f = some ys) :
    (∀ x ∈ xs, ∃ y ∈ ys, f x = some y) ∧ ∀ y ∈ ys, ∃ x ∈ xs, f x = some y :=
  exists_of_forall₂ (mapM_eq_some_iff.1 h)

/-- No result at all means that some item has none. -/
theorem exists_of_mapM_eq_none {f : α → Option β} {xs : List α} (h : xs.mapM f = none) : ∃ x ∈ xs, f x = none := by
  induction xs with
  | nil => cases h
  | cons x xs ih =>
    rw [List.mapM_cons] at h
    cases hx : f x with
    | none => exact ⟨x, List.mem_cons_self, hx⟩
    | some y =>
      cases hxs : xs.mapM f with
      | none =>
        obtain ⟨x', hmem, hx'⟩ := ih hxs
        exact ⟨x', List.mem_cons_of_mem _ hmem, hx'⟩
      | some ys =>
        rw [hx, hxs] at h
        cases h

theorem mapM_map_eq_some {γ : Type} {f : β → Option γ} {g : α → β} {k : α → γ} {xs : List α}
    (h : ∀ x ∈ xs, f (g x) = some (k x)) : (xs.map g).mapM f = some (xs.map k) := by
  rw [mapM_eq_some_iff, List.forall₂_map_left_iff, List.forall₂_map_right_iff]
  exact List.forall₂_same.2 h

/-! ### Results that may be errors -/

theorem mapM_congr {f g : α → Except ε β} {xs : List α} (h : ∀ x ∈ xs, f x = g x) : xs.mapM f = xs.mapM g := by
  induction xs with
  | nil => rfl
  | cons x xs ih =>
    obtain ⟨hx, hxs⟩ := List.forall_mem_cons.1 h
    rw [List.mapM_cons, List.mapM_cons, hx, ih hxs]

theorem mapM_isOk {f : α → Except ε β} {xs : List α} (h : ∀ x ∈ xs, ∃ y, f x = .ok y) :
    ∃ ys, xs.mapM f = .ok ys := by
  induction xs with
  | nil => exact ⟨[], rfl⟩
  | cons x xs ih =>
    obtain ⟨⟨y, hy⟩, hxs⟩ := List.forall_mem_cons.1 h
    obtain ⟨ys, hys⟩ := ih hxs
    refine ⟨y :: ys, ?_⟩
    rw [List.mapM_cons, hy, hys]
    rfl

/-- Checks in a row pass if each of them does. -/
theorem forM_eq_ok_iff {f : α → Except ε Unit} {xs : List α} : xs.forM f = .ok () ↔ ∀ x ∈ xs, f x = .ok () := by
  induction xs with
  | nil => exact iff_of_true rfl fun _ hx => absurd hx List.not_mem_nil
  | cons x xs ih =>
    rw [List.forM_eq_forM, List.forM_cons, bind_eq_ok_iff, List.forall_mem_cons]
    constructor
    · rintro ⟨_, hx, hxs⟩
      exact ⟨hx, ih.1 hxs⟩
    · rintro ⟨hx, hxs⟩
      exact ⟨(), hx, ih.2 hxs⟩

/-- A failure among the results is that of some item. -/
theorem exists_of_mapM_eq_error {f : α → Except ε β} {xs : List α} {e : ε} (h : xs.mapM f = .error e) :
    ∃ x ∈ xs, f x = .error e := by
  induction xs with
  | nil => cases h
  | cons x xs ih =>
    rw [List.mapM_cons] at h
    cases hx : f x with
    | error fault =>
      rw [hx] at h
      cases h
      exact ⟨x, List.mem_cons_self, hx⟩
    | ok y =>
      rw [hx] at h
      cases hxs : xs.mapM f with
      | error fault =>
        rw [hxs] at h
        cases h
        obtain ⟨x', hmem, hx'⟩ := ih hxs
        exact ⟨x', List.mem_cons_of_mem _ hmem, hx'⟩
      | ok ys =>
        rw [hxs] at h
        cases h

theorem mapM_eq_ok_iff {f : α → Except ε β} {xs : List α} {ys : List β} :
    xs.mapM f = .ok ys ↔ List.Forall₂ (fun x y => f x = .ok y) xs ys :=
  mapM_eq_pure_iff ⟨Except.ok.inj, congrArg _⟩ bind_eq_ok_iff

theorem mapM_eq_ok {f : α → Except ε β} {g : α → β} {xs : List α} (h : ∀ x ∈ xs, f x = .ok (g x)) :
    xs.mapM f = .ok (xs.map g) := by
  rw [mapM_eq_ok_iff, List.forall₂_map_right_iff]
  exact List.forall₂_same.2 h

/-- A list of results that are all there, as one result. -/
theorem map_eq_map_ok_iff {f : α → Except ε β} {xs : List α} {ys : List β} :
    xs.map f = ys.map .ok ↔ xs.mapM f = .ok ys := by
  rw [mapM_eq_ok_iff, ← List.forall₂_eq_eq_eq, List.forall₂_map_left_iff, List.forall₂_map_right_iff]

theorem exists_of_mapM_eq_ok {f : α → Except ε β} {xs : List α} {ys : List β} (h : xs.mapM f = .ok ys) :
    (∀ x ∈ xs, ∃ y ∈ ys, f x = .ok y) ∧ ∀ y ∈ ys, ∃ x ∈ xs, f x = .ok y :=
  exists_of_forall₂ (mapM_eq_ok_iff.1 h)

/-- A key that every result takes over from its item. -/
theorem map_eq_of_mapM {γ : Type} {f : α → Except ε β} {key : α → γ} {key' : β → γ} {xs : List α} {ys : List β}
    (hkey : ∀ x y, f x = .ok y → key' y = key x) (h : xs.mapM f = .ok ys) : ys.map key' = xs.map key := by
  have hkeys : List.Forall₂ Eq (ys.map key') (xs.map key) := by
    rw [List.forall₂_map_left_iff, List.forall₂_map_right_iff]
    exact ((mapM_eq_ok_iff.1 h).imp fun x y hxy => hkey x y hxy).flip
  exact List.forall₂_eq_eq_eq ▸ hkeys

/-- Dropping the entries of one key does not touch the other keys. -/
theorem lookup_filter_ne [DecidableEq α] (entries : List (α × β)) {k k' : α} (h : k' ≠ k) :
    (entries.filter fun e => e.1 ≠ k).lookup k' = entries.lookup k' := by
  induction entries with
  | nil => rfl
  | cons e rest ih =>
    obtain ⟨key, value⟩ := e
    by_cases hkey : key = k
    · subst hkey
      have hne : (k' == key) = false := beq_false_of_ne h
      simpa [List.lookup_cons, hne] using ih
    · simp only [List.filter_cons, hkey, ne_eq, not_false_eq_true, decide_true, if_true, List.lookup_cons,
        ← ih]

/-- Under a name that occurs once its entry is found. -/
theorem lookup_of_mem [DecidableEq α] {entries : List (α × β)} (hnames : (entries.map Prod.fst).Nodup)
    {e : α × β} (h : e ∈ entries) : entries.lookup e.1 = some e.2 := by
  induction entries with
  | nil => cases h
  | cons e' rest ih =>
    obtain ⟨hfirst, hrest⟩ := List.nodup_cons.1 hnames
    rcases List.mem_cons.1 h with rfl | hmem
    · exact List.lookup_cons_self
    · have hne : e.1 ≠ e'.1 := fun heq => hfirst (heq ▸ List.mem_map_of_mem hmem)
      rw [List.lookup_cons, beq_false_of_ne hne]
      exact ih hrest hmem

/-- Under a key stands the value at its first position. -/
theorem lookup_zip [DecidableEq α] {keys : List α} {values : List β} (h : values.length ≤ keys.length) (k : α) :
    (keys.zip values).lookup k = values[keys.idxOf k]? := by
  induction keys generalizing values with
  | nil => simp [List.length_eq_zero_iff.1 (Nat.le_zero.1 h)]
  | cons key keys ih =>
    cases values with
    | nil => simp
    | cons v values =>
      rw [List.zip_cons_cons, List.lookup_cons]
      by_cases hkey : k = key
      · simp [hkey]
      · rw [beq_false_of_ne hkey, List.idxOf_cons_ne _ (Ne.symm hkey), List.getElem?_cons_succ]
        exact ih (Nat.le_of_succ_le_succ h)

/-- Among items with different keys a search by key finds the item of that key. -/
theorem find?_key_eq_some_iff [DecidableEq β] {key : α → β} {xs : List α} (hkeys : (xs.map key).Nodup) {k : β}
    {x : α} : xs.find? (fun x => decide (key x = k)) = some x ↔ x ∈ xs ∧ key x = k := by
  constructor
  · intro h
    exact ⟨List.mem_of_find?_eq_some h, by simpa using List.find?_some h⟩
  · rintro ⟨hx, rfl⟩
    cases hfind : xs.find? fun y => decide (key y = key x) with
    | none => exact absurd (decide_eq_true rfl) (List.find?_eq_none.1 hfind x hx)
    | some y =>
      have hkey : key y = key x := by simpa using List.find?_some hfind
      exact congrArg some (List.inj_on_of_nodup_map hkeys (List.mem_of_find?_eq_some hfind) hx hkey)

/-- Items that give nothing may be left out. -/
theorem flatMap_filter_of_nil {p : α → Bool} {f : α → List β} {xs : List α} (h : ∀ x ∈ xs, p x = false → f x = []) :
    (xs.filter p).flatMap f = xs.flatMap f := by
  induction xs with
  | nil => rfl
  | cons x xs ih =>
    obtain ⟨hx, hxs⟩ := List.forall_mem_cons.1 h
    rw [List.flatMap_cons, ← ih hxs]
    cases hp : p x with
    | true => rw [List.filter_cons_of_pos hp, List.flatMap_cons]
    | false => rw [List.filter_cons_of_neg (by simp [hp]), hx hp, List.nil_append]

/-! ### Requests in a row -/

/-- The values that a request gives from a state on, up to the first time that it has none. -/
inductive Yields {σ : Type} (request : σ → Except ε (Option α) × σ) : σ → List α → Prop where
  | stop {s s' : σ} (h : request s = (.ok none, s')) : Yields request s []
  | more {s s' : σ} {a : α} {as : List α} (h : request s = (.ok (some a), s'))
      (hrest : Yields request s' as) : Yields request s (a :: as)

/-- A request that is answered at all gives one list of values. -/
theorem Yields.unique {σ : Type} {request : σ → Except ε (Option α) × σ} {s : σ} {as bs : List α}
    (ha : Yields request s as) (hb : Yields request s bs) : as = bs := by
  induction ha generalizing bs with
  | stop h =>
    cases hb with
    | stop _ => rfl
    | more h' _ => cases h.symm.trans h'
  | more h _ ih =>
    cases hb with
    | stop h' => cases h.symm.trans h'
    | more h' hrest =>
      cases h.symm.trans h'
      rw [ih hrest]

theorem not_yields_of_error {σ : Type} {request : σ → Except ε (Option α) × σ} {s : σ} {e : ε}
    (h : (request s).1 = .error e) {as : List α} : ¬ Yields request s as := by
  intro hyields
  cases hyields with
  | stop hstop =>
    rw [hstop] at h
    cases h
  | more hmore _ =>
    rw [hmore] at h
    cases h

end PoolIndexer
