import Mathlib.Data.List.Basic
import PoolIndexer.Chain.Rpc.Client
import PoolIndexer.Proofs.Basic
import PoolIndexer.Proofs.Exchange

/-!
# Proofs.Chain.Rpc.Requests — a node whose answers depend on the request alone

* `table`: such a node, which notes down the targets of all requests.
* `Client.target?`, `Client.answer`: what a request is for and what it is answered with.
* `Gives`: the result of an exchange with a table, and its requests if that is a value.
* `gives_inParallel`: requests with any number under way at a time give what they give one by one.
-/

namespace PoolIndexer

namespace Rpc

/-- Answers every request for the same target alike. -/
def table (answers : String → Response) : Transport (List String) := fun target sent =>
  (answers target, sent ++ [target])

namespace Client

/-! ### One request -/

section

variable {α β : Type} (c : Client) (answers : String → Response)

/-- What a request asks the node for, if its address makes sense. -/
def target? (method : String) (query : List (String × String)) : Option String :=
  (Text.Url.target? (c.url ++ "/" ++ method)).map fun target => (target.withPairs query).text

/-- What comes of a request. -/
def answer (method : String) (query : List (String × String)) (item : Json → Option α) : Except NoAnswer α :=
  match c.target? method query with
  | none => .error noConnection
  | some target => c.readResponse method item (answers target)

/-- The exchange has that result; if it is a value, the requests had these targets. -/
def Gives (x : Exchange NoAnswer (List String) α) (result : Except NoAnswer α) (targets : List (Option String)) :
    Prop :=
  ∀ sent, ∃ sent', x sent = (result, sent') ∧ ∀ a, result = .ok a → sent'.map some = sent.map some ++ targets

variable {c answers}

theorem Gives.bind {x : Exchange NoAnswer (List String) α} {f : α → Exchange NoAnswer (List String) β}
    {result : Except NoAnswer α} {next : α → Except NoAnswer β} {targets targets' : List (Option String)}
    (hx : Gives x result targets) (hf : ∀ a, result = .ok a → Gives (f a) (next a) targets') :
    Gives (x >>= f) (result >>= next) (targets ++ targets') := by
  intro sent
  obtain ⟨sent₁, hx, hsent₁⟩ := hx sent
  cases result with
  | error e => exact ⟨sent₁, Exchange.bind_of_error hx f, nofun⟩
  | ok a =>
    obtain ⟨sent₂, hf, hsent₂⟩ := hf a rfl sent₁
    refine ⟨sent₂, (Exchange.bind_of_ok hx f).trans hf, fun b hb => ?_⟩
    rw [hsent₂ b hb, hsent₁ a rfl, List.append_assoc]

theorem gives_known (result : Except NoAnswer α) : Gives (Exchange.known result) result [] := by
  intro sent
  refine ⟨sent, ?_, fun _ _ => (List.append_nil _).symm⟩
  cases result <;> rfl

theorem gives_call (method : String) (query : List (String × String)) (item : Json → Option α) :
    Gives (c.call (table answers) method query item) (c.answer answers method query item)
      [c.target? method query] := by
  intro sent
  unfold call answer target?
  cases Text.Url.target? (c.url ++ "/" ++ method) with
  | none => exact ⟨sent, rfl, nofun⟩
  | some target => exact ⟨_, rfl, fun _ _ => by simp⟩

end

/-! ### Many requests -/

section

variable {α : Type} {ask : Int64 → Exchange NoAnswer (List String) α} {answerOf : Int64 → Except NoAnswer α}
  {targetOf : Int64 → Option String} (hask : ∀ h, Gives (ask h) (answerOf h) [targetOf h])

theorem gives_inOrder_nil (ask : Int64 → Exchange NoAnswer (List String) α) (before : List Int64) :
    Gives (inOrder ask [] (before.map answerOf)) (before.mapM answerOf) [] := by
  intro sent
  refine ⟨sent, ?_, fun _ _ => (List.append_nil _).symm⟩
  induction before with
  | nil =>
    rw [List.map_nil, inOrder]
    rfl
  | cons b before ih =>
    rw [List.map_cons, List.mapM_cons]
    cases answerOf b with
    | error e =>
      rw [inOrder]
      rfl
    | ok a =>
      rw [inOrder, ih]
      cases before.mapM answerOf <;> rfl

include hask

/-- The next request is made when an answer is taken; its own answer waits behind those to earlier ones. -/
theorem gives_inOrder (heights before : List Int64) :
    Gives (inOrder ask heights (before.map answerOf)) ((before ++ heights).mapM answerOf) (heights.map targetOf) := by
  -- what has been asked for and what has not are one list, so moving a height from one to the other changes nothing
  induction heights generalizing before with
  | nil => simpa using gives_inOrder_nil ask before
  | cons h rest ih =>
    intro sent
    obtain ⟨sent₁, hfirst, hsent₁⟩ := hask h sent
    rcases before with _ | ⟨b, before⟩
    · obtain ⟨sent₂, hrest, hsent₂⟩ := ih [] sent₁
      rw [List.map_nil, List.nil_append] at hrest
      rw [List.map_nil, List.nil_append, List.mapM_cons, inOrder, hfirst]
      cases hanswer : answerOf h with
      | error e => exact ⟨sent₁, rfl, fun as has => by cases has⟩
      | ok a =>
        dsimp only
        rw [hrest]
        refine ⟨sent₂, by cases rest.mapM answerOf <;> rfl, fun as has => ?_⟩
        obtain ⟨_, -, has⟩ := bind_eq_ok_iff.1 has
        obtain ⟨as', hrest', -⟩ := bind_eq_ok_iff.1 has
        rw [hsent₂ as' hrest', hsent₁ a hanswer, List.append_assoc]
        rfl
    · rw [List.map_cons, List.cons_append, List.mapM_cons]
      cases answerOf b with
      | error e =>
        rw [inOrder]
        exact ⟨sent, rfl, fun as has => by cases has⟩
      | ok a =>
        obtain ⟨sent₂, hrest, hsent₂⟩ := ih (before ++ [h]) sent₁
        rw [List.append_assoc, List.singleton_append] at hrest hsent₂
        rw [inOrder, hfirst]
        dsimp only
        rw [← List.map_singleton, ← List.map_append, hrest]
        refine ⟨sent₂, by cases (before ++ h :: rest).mapM answerOf <;> rfl, fun as has => ?_⟩
        obtain ⟨_, -, has⟩ := bind_eq_ok_iff.1 has
        obtain ⟨as', hrest', -⟩ := bind_eq_ok_iff.1 has
        -- an answer that only waits may be an error, but then there is no value in the end
        obtain ⟨a', -, hanswer⟩ := (exists_of_mapM_eq_ok hrest').1 h (by simp)
        rw [hsent₂ as' hrest', hsent₁ a' hanswer, List.append_assoc]
        rfl

theorem startUpTo_eq (width : Nat) (heights : List Int64) (sent : List String) :
    ∃ sent', startUpTo ask width heights sent = ((heights.take width).map answerOf, heights.drop width, sent') ∧
      ∀ as, (heights.take width).mapM answerOf = .ok as →
        sent'.map some = sent.map some ++ (heights.take width).map targetOf := by
  induction width generalizing heights sent with
  | zero => exact ⟨sent, rfl, fun _ _ => (List.append_nil _).symm⟩
  | succ width ih =>
    rcases heights with _ | ⟨h, rest⟩
    · exact ⟨sent, rfl, fun _ _ => (List.append_nil _).symm⟩
    · obtain ⟨sent₁, hfirst, hsent₁⟩ := hask h sent
      obtain ⟨sent₂, hrest, hsent₂⟩ := ih rest sent₁
      rw [startUpTo, hfirst]
      dsimp only
      rw [hrest, List.take_succ_cons]
      refine ⟨sent₂, rfl, fun as has => ?_⟩
      rw [List.mapM_cons] at has
      obtain ⟨a, hanswer, has⟩ := bind_eq_ok_iff.1 has
      obtain ⟨as', hrest', -⟩ := bind_eq_ok_iff.1 has
      rw [hsent₂ as' hrest', hsent₁ a hanswer, List.append_assoc]
      rfl

/-- **How many requests may be under way** makes no difference to what they give or to their order. -/
theorem gives_inParallel (width : Nat) (heights : List Int64) :
    Gives (inParallel width ask heights) (heights.mapM answerOf) (heights.map targetOf) := by
  intro sent
  obtain ⟨sent₁, hstart, hsent₁⟩ := startUpTo_eq hask width heights sent
  obtain ⟨sent₂, hrest, hsent₂⟩ := gives_inOrder hask (heights.drop width) (heights.take width) sent₁
  rw [List.take_append_drop] at hrest hsent₂
  refine ⟨sent₂, ?_, fun as has => ?_⟩
  · rw [inParallel, hstart]
    exact hrest
  · have htake : (heights.take width).mapM answerOf = .ok (as.take width) :=
      mapM_eq_ok_iff.2 (List.forall₂_take width (mapM_eq_ok_iff.1 has))
    rw [hsent₂ as has, hsent₁ _ htake, List.append_assoc, ← List.map_append, List.take_append_drop]

end

end Client

end Rpc

end PoolIndexer
