import PoolIndexer.Chain.Rpc.Reply

/-!
# Proofs.Chain.Rpc.Phases — the events of a block in either format

A node lists the events of a block by phase, or in one list where the attribute `mode` of an event tells
its phase.

* `Interleaving`: two lists in one, each in its own order.
* `FirstMode`: an event with the mode that counts, and the event without it.
* `split_of_interleaving`: the mixed list is taken apart into the lists that it was made of.
* `BlockResults.phases_exact`: both formats give the same phases; of any reply nothing is lost but the modes.
-/

namespace PoolIndexer

namespace Rpc

/-! ### Interleavings -/

section

variable {α β : Type}

/-- The items of the third list are made of those of the first by `left` and of those of the second by `right`,
each list in its own order and every item once. -/
inductive Interleaving (left right : α → β → Prop) : List α → List α → List β → Prop
  | nil : Interleaving left right [] [] []
  | left {a : α} {c : β} {as bs : List α} {cs : List β} (h : left a c) (rest : Interleaving left right as bs cs) :
      Interleaving left right (a :: as) bs (c :: cs)
  | right {b : α} {c : β} {as bs : List α} {cs : List β} (h : right b c) (rest : Interleaving left right as bs cs) :
      Interleaving left right as (b :: bs) (c :: cs)

namespace Interleaving

variable {left right left' right' : α → β → Prop} {as bs : List α} {cs : List β}

/-- What is known of the items of the two lists may be used to say more of how the third is made. -/
theorem mono (h : Interleaving left right as bs cs) (hleft : ∀ a ∈ as, ∀ c, left a c → left' a c)
    (hright : ∀ b ∈ bs, ∀ c, right b c → right' b c) : Interleaving left' right' as bs cs := by
  induction h with
  | nil => exact .nil
  | left h _ ih =>
    have hrest := ih (fun a ha => hleft a (List.mem_cons_of_mem _ ha)) hright
    exact .left (hleft _ List.mem_cons_self _ h) hrest
  | right h _ ih =>
    have hrest := ih hleft (fun b hb => hright b (List.mem_cons_of_mem _ hb))
    exact .right (hright _ List.mem_cons_self _ h) hrest

/-- Every list is made of two if every item is made in one of the two ways. -/
theorem exists_of_forall (h : ∀ c ∈ cs, (∃ a, left a c) ∨ ∃ b, right b c) : ∃ as bs, Interleaving left right as bs cs := by
  induction cs with
  | nil => exact ⟨[], [], .nil⟩
  | cons c cs ih =>
    obtain ⟨hc, hcs⟩ := List.forall_mem_cons.1 h
    obtain ⟨as, bs, hrest⟩ := ih hcs
    rcases hc with ⟨a, ha⟩ | ⟨b, hb⟩
    · exact ⟨a :: as, bs, .left ha hrest⟩
    · exact ⟨as, b :: bs, .right hb hrest⟩

end Interleaving

end

/-! ### Modes -/

/-- The second event is the first with a mode put among its attributes. -/
def Tagged (mode : String) (e f : RawEvent) : Prop :=
  f.kind = e.kind ∧ ∃ front back, e.attributes = front ++ back ∧ f.attributes = front ++ ⟨"mode", mode⟩ :: back

/-- The second event is the first with a mode put in front of every other one. -/
def FirstMode (mode : String) (e f : RawEvent) : Prop :=
  f.kind = e.kind ∧ ∃ front back, (∀ a ∈ front, a.key ≠ "mode") ∧ e.attributes = front ++ back ∧
    f.attributes = front ++ ⟨"mode", mode⟩ :: back

def HasNoMode (e : RawEvent) : Prop := ∀ a ∈ e.attributes, a.key ≠ "mode"

/-- An event of the beginning of a block. -/
def Begins : RawEvent → RawEvent → Prop := FirstMode "BeginBlock"

/-- An event of the end of a block: its mode is another one, or it has none. -/
def Ends (e f : RawEvent) : Prop := (∃ mode, mode ≠ "BeginBlock" ∧ FirstMode mode e f) ∨ (HasNoMode e ∧ f = e)

theorem Tagged.firstMode {mode : String} {e f : RawEvent} (h : Tagged mode e f) (he : HasNoMode e) :
    FirstMode mode e f := by
  obtain ⟨hkind, front, back, hattributes, hf⟩ := h
  refine ⟨hkind, front, back, fun a ha => he a ?_, hattributes, hf⟩
  rw [hattributes]
  exact List.mem_append_left _ ha

theorem takeMode_append {front : List Attribute} (h : ∀ a ∈ front, a.key ≠ "mode") (rest : List Attribute) :
    takeMode (front ++ rest) = ((takeMode rest).1, front ++ (takeMode rest).2) := by
  induction front with
  | nil => rfl
  | cons a front ih =>
    obtain ⟨ha, hfront⟩ := List.forall_mem_cons.1 h
    simp [takeMode, ha, ih hfront]

theorem phased_of_firstMode {mode : String} {e f : RawEvent} (h : FirstMode mode e f) :
    phased f = (decide (mode = "BeginBlock"), e) := by
  obtain ⟨hkind, front, back, hfront, he, hf⟩ := h
  have hmode : takeMode f.attributes = (some mode, e.attributes) := by
    rw [hf, takeMode_append hfront, he]
    simp [takeMode]
  simp [phased, hmode, hkind]

theorem phased_of_hasNoMode {e : RawEvent} (h : HasNoMode e) : phased e = (false, e) := by
  have hmode : takeMode e.attributes = (none, e.attributes) := by
    have happend := takeMode_append h []
    simpa [takeMode] using happend
  simp [phased, hmode]

theorem phased_of_ends {e f : RawEvent} (h : Ends e f) : phased f = (false, e) := by
  rcases h with ⟨mode, hmode, hfirst⟩ | ⟨hnone, rfl⟩
  · simpa [hmode] using phased_of_firstMode hfirst
  · exact phased_of_hasNoMode hnone

/-- Any event begins or ends a block, and is some event with or without a mode. -/
theorem begins_or_ends (f : RawEvent) : (∃ e, Begins e f) ∨ ∃ e, Ends e f := by
  by_cases hnone : HasNoMode f
  · exact .inr ⟨f, .inr ⟨hnone, rfl⟩⟩
  · have hfind : (f.attributes.find? fun a => a.key = "mode").isSome := by
      simpa [HasNoMode] using hnone
    obtain ⟨a, ha⟩ := Option.isSome_iff_exists.1 hfind
    obtain ⟨hkey, front, back, hattributes, hfront⟩ := List.find?_eq_some_iff_append.1 ha
    have hfirst : FirstMode a.value { f with attributes := front ++ back } f := by
      refine ⟨rfl, front, back, fun b hb => by simpa using hfront b hb, rfl, ?_⟩
      rw [hattributes, ← of_decide_eq_true hkey]
    by_cases hmode : a.value = "BeginBlock"
    · exact .inl ⟨_, hmode ▸ hfirst⟩
    · exact .inr ⟨_, .inl ⟨_, hmode, hfirst⟩⟩

/-- The mixed list keeps its order when it is taken apart, so the two parts grow item by item with it. -/
theorem split_of_interleaving {beginEvents endEvents mixedEvents : List RawEvent}
    (h : Interleaving Begins Ends beginEvents endEvents mixedEvents) :
    ((mixedEvents.map phased).filter (·.1)).map (·.2) = beginEvents ∧
      ((mixedEvents.map phased).filter (!·.1)).map (·.2) = endEvents := by
  induction h with
  | nil => exact ⟨rfl, rfl⟩
  | left h _ ih =>
    have hphased := phased_of_firstMode h
    simpa [hphased] using ih
  | right h _ ih =>
    have hphased := phased_of_ends h
    simpa [hphased] using ih

/-! ### Phases -/

namespace BlockResults

theorem phases_of_interleaving {r : BlockResults} {beginEvents endEvents : List RawEvent}
    (h : Interleaving Begins Ends beginEvents endEvents r.mixedEvents) :
    r.phases = ⟨r.beginEvents ++ beginEvents, r.txs, r.endEvents ++ endEvents⟩ := by
  obtain ⟨hbegin, hend⟩ := split_of_interleaving h
  rw [phases, hbegin, hend]

/-- **Both formats give the same phases.**  Events that are tagged with their phase and put into one list in any
way come out as they were, like those of a reply that lists them by phase.  Of any reply the events of a phase
are those listed for it and then those of the mixed list that belong to it, each once, in order and without its
first mode. -/
theorem phases_exact :
    (∀ (beginEvents endEvents mixedEvents : List RawEvent) (txs : List TxResult) (height height' : Int64),
      (∀ e ∈ beginEvents, HasNoMode e) → (∀ e ∈ endEvents, HasNoMode e) →
      Interleaving (Tagged "BeginBlock") (fun e f => Tagged "EndBlock" e f ∨ f = e)
        beginEvents endEvents mixedEvents →
      phases ⟨height, txs, [], [], mixedEvents⟩ = ⟨beginEvents, txs, endEvents⟩ ∧
        phases ⟨height', txs, beginEvents, endEvents, []⟩ = ⟨beginEvents, txs, endEvents⟩) ∧
    ∀ r : BlockResults, ∃ beginEvents endEvents, Interleaving Begins Ends beginEvents endEvents r.mixedEvents ∧
      r.phases = ⟨r.beginEvents ++ beginEvents, r.txs, r.endEvents ++ endEvents⟩ := by
  constructor
  · intro beginEvents endEvents mixedEvents txs height height' hbegin hend hmixed
    have hfirst : Interleaving Begins Ends beginEvents endEvents mixedEvents := by
      refine hmixed.mono (fun e he f h => h.firstMode (hbegin e he)) fun e he f h => ?_
      rcases h with h | rfl
      · exact .inl ⟨"EndBlock", by decide, h.firstMode (hend e he)⟩
      · exact .inr ⟨hend f he, rfl⟩
    have hlisted := phases_of_interleaving (r := ⟨height', txs, beginEvents, endEvents, []⟩) .nil
    exact ⟨phases_of_interleaving hfirst, by simpa using hlisted⟩
  · intro r
    obtain ⟨beginEvents, endEvents, h⟩ : ∃ beginEvents endEvents, Interleaving Begins Ends beginEvents endEvents
        r.mixedEvents := Interleaving.exists_of_forall fun f _ => begins_or_ends f
    exact ⟨beginEvents, endEvents, h, phases_of_interleaving h⟩

/-- An event of the beginning between two of the end, the first of which has no mode. -/
def threeEvents : List RawEvent :=
  [⟨"pool", []⟩, ⟨"rewards", [⟨"bond", "1"⟩, ⟨"mode", "BeginBlock"⟩, ⟨"pool", "2"⟩]⟩,
    ⟨"gas", [⟨"mode", "EndBlock"⟩, ⟨"asset", "A"⟩]⟩]

theorem phases_exact_threeEvents :
    Interleaving (Tagged "BeginBlock") (fun e f => Tagged "EndBlock" e f ∨ f = e)
      [⟨"rewards", [⟨"bond", "1"⟩, ⟨"pool", "2"⟩]⟩] [⟨"pool", []⟩, ⟨"gas", [⟨"asset", "A"⟩]⟩] threeEvents ∧
    phases ⟨17, [⟨0, []⟩], [], [], threeEvents⟩ =
      ⟨[⟨"rewards", [⟨"bond", "1"⟩, ⟨"pool", "2"⟩]⟩], [⟨0, []⟩], [⟨"pool", []⟩, ⟨"gas", [⟨"asset", "A"⟩]⟩]⟩ := by
  have hmixed : Interleaving (Tagged "BeginBlock") (fun e f => Tagged "EndBlock" e f ∨ f = e)
      [⟨"rewards", [⟨"bond", "1"⟩, ⟨"pool", "2"⟩]⟩] [⟨"pool", []⟩, ⟨"gas", [⟨"asset", "A"⟩]⟩] threeEvents := by
    refine .right (.inr rfl) (.left ?_ (.right (.inl ?_) .nil))
    · exact ⟨rfl, [⟨"bond", "1"⟩], [⟨"pool", "2"⟩], rfl, rfl⟩
    · exact ⟨rfl, [], [⟨"asset", "A"⟩], rfl, rfl⟩
  have hphases := phases_exact.1 _ _ _ [⟨0, []⟩] 17 17 (by simp [HasNoMode]) (by simp [HasNoMode]) hmixed
  exact ⟨hmixed, hphases.1⟩

end BlockResults

end Rpc

end PoolIndexer
