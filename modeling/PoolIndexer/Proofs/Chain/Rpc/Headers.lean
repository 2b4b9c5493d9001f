import Mathlib.Data.List.Nodup
import PoolIndexer.Proofs.Chain.Node
import PoolIndexer.Proofs.Chain.Rpc.Requests

/-!
# Proofs.Chain.Rpc.Headers — the headers of a range, window by window

A node is asked for the headers of a range in windows of at most twenty heights.  A reply may have headers in any
order and for other heights.

* `Covers`: ranges that have the heights of a larger one, one after the other.
* `windows`: the windows of a range, by `windows_induction` those that the client goes through.
* `gives_headers`: the headers of a range, and the requests for them.
* `find?_of_sameHeaders`: which header has a height depends neither on the order of a reply nor on the headers for
  other heights in it.
-/

namespace PoolIndexer

namespace Rpc

namespace Client

/-! ### Windows -/

/-- The ranges have the heights of a larger one, one after the other, and at most twenty each. -/
structure Covers (low high : Int64) (ws : List (Int64 × Int64)) : Prop where
  heights_eq : ws.flatMap (fun w => Node.heights w.1 w.2) = Node.heights low high
  size : ∀ w ∈ ws, w.1.toInt ≤ w.2.toInt ∧ w.2.toInt < w.1.toInt + 20

/-- The windows of a range: each but the last has twenty heights. -/
def windows (low high : Int64) : List (Int64 × Int64) :=
  (List.range ((high.toInt - low.toInt + 20) / 20).toNat).map fun (i : Nat) =>
    (Int64.ofInt (low.toInt + 20 * i), Int64.ofInt (min (low.toInt + 20 * i + 19) high.toInt))

theorem windows_of_lt {low high : Int64} (h : high.toInt < low.toInt) : windows low high = [] := by
  rw [windows, show ((high.toInt - low.toInt + 20) / 20).toNat = 0 by omega]
  rfl

theorem windows_of_le {low last next high : Int64} (h : low.toInt ≤ high.toInt)
    (hlast : last.toInt = min (low.toInt + 19) high.toInt) (hnext : next.toInt = last.toInt + 1) :
    windows low high = (low, last) :: windows next high := by
  unfold windows
  rw [show ((high.toInt - low.toInt + 20) / 20).toNat = ((high.toInt - next.toInt + 20) / 20).toNat + 1 by omega,
    List.range_succ_eq_map, List.map_cons, List.map_map]
  refine List.cons_eq_cons.2 ⟨?_, List.map_congr_left fun i hi => ?_⟩
  · rw [show low.toInt + 20 * (0 : Nat) = low.toInt by omega, ← hlast, Int64.ofInt_toInt, Int64.ofInt_toInt]
  · have hi := List.mem_range.1 hi
    show (Int64.ofInt (low.toInt + 20 * (i + 1 : Nat)), Int64.ofInt (min (low.toInt + 20 * (i + 1 : Nat) + 19) high.toInt)) =
      (Int64.ofInt (next.toInt + 20 * i), Int64.ofInt (min (next.toInt + 20 * i + 19) high.toInt))
    -- there is a next window only if this one is full
    rw [show low.toInt + 20 * (i + 1 : Nat) = next.toInt + 20 * i by omega]

theorem covers_nil {low high : Int64} (h : high.toInt < low.toInt) : Covers low high [] where
  heights_eq := (Node.heights_of_lt h).symm
  size := fun _ hw => absurd hw List.not_mem_nil

theorem Covers.cons {low last next high : Int64} {ws : List (Int64 × Int64)} (h : Covers next high ws)
    (hle : low.toInt ≤ high.toInt) (hlast : last.toInt = min (low.toInt + 19) high.toInt)
    (hnext : next.toInt = last.toInt + 1) : Covers low high ((low, last) :: ws) := by
  have hsize : low.toInt ≤ last.toInt ∧ last.toInt < low.toInt + 20 := by omega
  have hhigh : last.toInt ≤ high.toInt := by omega
  refine ⟨?_, List.forall_mem_cons.2 ⟨hsize, h.size⟩⟩
  rw [List.flatMap_cons, h.heights_eq, Node.heights_append hsize.1 hnext hhigh]

theorem exists_window {low high : Int64} (hle : low.toInt ≤ high.toInt) (hfar : high.toInt + 20 < 2 ^ 63) :
    ∃ last next, window low high = .ok (last, next) ∧ last.toInt = min (low.toInt + 19) high.toInt ∧
      next.toInt = last.toInt + 1 := by
  have hbound := Int64.le_toInt low
  have h20 : headersPerCall.toInt = 20 := by decide
  have h1 : (1 : Int64).toInt = 1 := by decide
  obtain ⟨above, habove, htoInt⟩ :=
    Checked.exists_fit .add (n := low.toInt + headersPerCall.toInt) (by omega) (by omega)
  obtain ⟨stop, hstop, htoInt'⟩ :=
    Checked.exists_fit .subtract (n := above.toInt - (1 : Int64).toInt) (by omega) (by omega)
  have hlast := Checked.toInt_smaller stop high
  obtain ⟨next, hnext, htoInt''⟩ :=
    Checked.exists_fit .add (n := (Checked.smaller stop high).toInt + (1 : Int64).toInt) (by omega) (by omega)
  refine ⟨Checked.smaller stop high, next, ?_, by omega, by omega⟩
  exact bind_eq_ok_iff.2 ⟨_, bind_eq_ok_iff.2 ⟨above, habove, bind_eq_ok_iff.2 ⟨stop, hstop, rfl⟩⟩,
    bind_eq_ok_iff.2 ⟨next, hnext, rfl⟩⟩

/-- What is proved for no windows, and for one more in front, holds of those of every range. -/
theorem windows_induction {high : Int64} {motive : Int64 → List (Int64 × Int64) → Prop} (hfar : high.toInt + 20 < 2 ^ 63)
    (done : ∀ low, high.toInt < low.toInt → motive low [])
    (more : ∀ low last next ws, low.toInt ≤ high.toInt → window low high = .ok (last, next) →
      last.toInt = min (low.toInt + 19) high.toInt → next.toInt = last.toInt + 1 → motive next ws →
      motive low ((low, last) :: ws)) (low : Int64) : motive low (windows low high) := by
  generalize hn : (high.toInt - low.toInt + 1).toNat = n
  induction n using Nat.strongRecOn generalizing low with
  | _ n ih =>
    by_cases hle : low.toInt ≤ high.toInt
    · obtain ⟨last, next, hwindow, hlast, hnext⟩ := exists_window hle hfar
      rw [windows_of_le hle hlast hnext]
      exact more low last next _ hle hwindow hlast hnext (ih _ (by omega) next rfl)
    · rw [windows_of_lt (by omega)]
      exact done low (by omega)

theorem covers_windows {low high : Int64} (hfar : high.toInt + 20 < 2 ^ 63) : Covers low high (windows low high) :=
  windows_induction hfar (fun _ => covers_nil) (fun _ _ _ _ hle _ hlast hnext h => h.cons hle hlast hnext) low

/-! ### Replies -/

section

variable (c : Client) (answers : String → Response)

/-- What the request for the headers of a window says. -/
def windowQuery (w : Int64 × Int64) : List (String × String) :=
  [("minHeight", Text.Decimal.showInt64 w.1), ("maxHeight", Text.Decimal.showInt64 w.2)]

def headersTarget? (w : Int64 × Int64) : Option String := c.target? "blockchain" (windowQuery w)

def headersAnswer (w : Int64 × Int64) : Except NoAnswer (List Header) :=
  c.answer answers "blockchain" (windowQuery w) headersOfJson?

/-- The headers in the replies for all windows, the latest first. -/
def headersOf (ws : List (Int64 × Int64)) : Except NoAnswer (List Header) :=
  (ws.mapM (c.headersAnswer answers)).map fun replies => replies.flatten.reverse

variable {c answers}

theorem headersOf_cons (w : Int64 × Int64) (ws : List (Int64 × Int64)) :
    c.headersOf answers (w :: ws) =
      c.headersAnswer answers w >>= fun reply => (c.headersOf answers ws).map (· ++ reply.reverse) := by
  unfold headersOf
  rw [List.mapM_cons]
  cases c.headersAnswer answers w with
  | error e => rfl
  | ok reply =>
    cases ws.mapM (c.headersAnswer answers) with
    | error e => rfl
    | ok replies => exact congrArg Except.ok (by simp)

theorem headersOf_eq_ok_iff {ws : List (Int64 × Int64)} {known : List Header} :
    c.headersOf answers ws = .ok known ↔
      ∃ replies, ws.mapM (c.headersAnswer answers) = .ok replies ∧ replies.flatten.reverse = known := by
  unfold headersOf
  cases ws.mapM (c.headersAnswer answers) with
  | error e => exact ⟨nofun, nofun⟩
  | ok replies =>
    exact ⟨fun h => ⟨replies, rfl, Except.ok.inj h⟩, fun ⟨_, hreplies, h⟩ => Except.ok.inj hreplies ▸ congrArg _ h⟩

/-- A header is known from the reply for some window. -/
theorem exists_window_of_mem {ws : List (Int64 × Int64)} {known : List Header} (h : c.headersOf answers ws = .ok known)
    {header : Header} (hmem : header ∈ known) :
    ∃ w ∈ ws, ∃ reply, c.headersAnswer answers w = .ok reply ∧ header ∈ reply := by
  obtain ⟨replies, hreplies, rfl⟩ := headersOf_eq_ok_iff.1 h
  obtain ⟨reply, hreply, hheader⟩ := List.mem_flatten.1 (List.mem_reverse.1 hmem)
  obtain ⟨w, hw, hanswer⟩ := (exists_of_mapM_eq_ok hreplies).2 reply hreply
  exact ⟨w, hw, reply, hanswer, hheader⟩

theorem mem_headersOf {ws : List (Int64 × Int64)} {known : List Header} (h : c.headersOf answers ws = .ok known)
    {w : Int64 × Int64} (hw : w ∈ ws) {reply : List Header} (hreply : c.headersAnswer answers w = .ok reply)
    {header : Header} (hheader : header ∈ reply) : header ∈ known := by
  obtain ⟨replies, hreplies, rfl⟩ := headersOf_eq_ok_iff.1 h
  obtain ⟨reply', hmem, hreply'⟩ := (exists_of_mapM_eq_ok hreplies).1 w hw
  obtain rfl := Except.ok.inj (hreply.symm.trans hreply')
  exact List.mem_reverse.2 (List.mem_flatten_of_mem hmem hheader)

end

/-! ### Requests -/

theorem headers_of_window {σ : Type} (t : Transport σ) (c : Client) {low high last next : Int64}
    (hle : low.toInt ≤ high.toInt) (hwindow : window low high = .ok (last, next)) (known : List Header) :
    c.headers t high low known =
      c.requestHeaders t low last >>= fun more => c.headers t high next (more.reverse ++ known) := by
  funext s
  rw [headers, dif_pos hle]
  split
  · rename_i hfault
    cases hwindow.symm.trans hfault
  · rename_i hwindow'
    cases hwindow.symm.trans hwindow'
    cases hanswer : c.requestHeaders t low last s with
    | mk result s' =>
      cases result with
      | error e => exact (Exchange.bind_of_error hanswer _).symm
      | ok more => exact (Exchange.bind_of_ok hanswer fun more => c.headers t high next (more.reverse ++ known)).symm

/-- The requests for headers are those for the windows, whatever the node answers. -/
theorem gives_headers {high : Int64} (hfar : high.toInt + 20 < 2 ^ 63) (c : Client) (answers : String → Response)
    (low : Int64) (known : List Header) :
    Gives (c.headers (table answers) high low known) ((c.headersOf answers (windows low high)).map (· ++ known))
      ((windows low high).map c.headersTarget?) := by
  induction low using windows_induction hfar generalizing known with
  | done low hlt =>
    have hnone : c.headers (table answers) high low known = Exchange.known (.ok known) := by
      funext sent
      rw [headers, dif_neg (by omega)]
      rfl
    rw [hnone]
    exact gives_known (.ok known)
  | more low last next ws hle hwindow _ _ ih =>
    have hfirst : Gives (c.requestHeaders (table answers) low last) (c.headersAnswer answers (low, last))
        [c.headersTarget? (low, last)] := gives_call "blockchain" (windowQuery (low, last)) headersOfJson?
    have hall := hfirst.bind fun more _ => ih (more.reverse ++ known)
    have hresult : (c.headersOf answers ((low, last) :: ws)).map (· ++ known) =
        c.headersAnswer answers (low, last) >>= fun more =>
          (c.headersOf answers ws).map (· ++ (more.reverse ++ known)) := by
      rw [headersOf_cons]
      cases c.headersAnswer answers (low, last) with
      | error e => rfl
      | ok more =>
        cases c.headersOf answers ws with
        | error e => rfl
        | ok rest => exact congrArg Except.ok (List.append_assoc ..)
    rw [headers_of_window _ c hle hwindow, hresult]
    exact hall

/-! ### Headers of some heights -/

/-- The headers for some of the heights. -/
def wanted (heights : List Int64) (headers : List Header) : List Header :=
  headers.filter fun header => header.height ∈ heights

theorem wanted_reverse (heights : List Int64) (headers : List Header) :
    wanted heights headers.reverse = (wanted heights headers).reverse := List.filter_reverse

/-- Neither order nor headers for other heights tell the two results apart. -/
inductive SameHeaders (heights : List Int64) : Except NoAnswer (List Header) → Except NoAnswer (List Header) → Prop
  | error (e : NoAnswer) : SameHeaders heights (.error e) (.error e)
  | ok {reply reply' : List Header} (perm : (wanted heights reply).Perm (wanted heights reply'))
      (distinct : ((wanted heights reply).map Header.height).Nodup) : SameHeaders heights (.ok reply) (.ok reply')

theorem find?_eq_some_iff {heights : List Int64} {headers : List Header} {height : Int64} (hheight : height ∈ heights)
    (hdistinct : ((wanted heights headers).map Header.height).Nodup) {header : Header} :
    headers.find? (fun header => header.height = height) = some header ↔
      header ∈ wanted heights headers ∧ header.height = height := by
  have hwanted : ∀ header, headers.find? (fun header => header.height = height) = some header →
      header ∈ wanted heights headers ∧ header.height = height := by
    intro header hfind
    have hsame : header.height = height := by simpa using List.find?_some hfind
    refine ⟨List.mem_filter.2 ⟨List.mem_of_find?_eq_some hfind, ?_⟩, hsame⟩
    simpa [hsame] using hheight
  refine ⟨hwanted header, ?_⟩
  rintro ⟨hmem, hsame⟩
  have hfound : (headers.find? fun header => header.height = height).isSome := by
    simpa using ⟨header, (List.mem_filter.1 hmem).1, hsame⟩
  obtain ⟨header', hheader'⟩ := Option.isSome_iff_exists.1 hfound
  obtain ⟨hmem', hsame'⟩ := hwanted header' hheader'
  rw [hheader', List.inj_on_of_nodup_map hdistinct hmem' hmem (hsame'.trans hsame.symm)]

theorem find?_reverse_eq_of_perm {heights : List Int64} {headers headers' : List Header} {height : Int64}
    (hheight : height ∈ heights) (hperm : (wanted heights headers).Perm (wanted heights headers'))
    (hdistinct : ((wanted heights headers).map Header.height).Nodup) :
    headers.reverse.find? (fun header => header.height = height) =
      headers'.reverse.find? fun header => header.height = height := by
  have hdistinct' : ((wanted heights headers').map Header.height).Nodup := (hperm.map _).nodup_iff.1 hdistinct
  rw [← List.nodup_reverse, ← List.map_reverse, ← wanted_reverse] at hdistinct hdistinct'
  refine Option.ext fun header => ?_
  rw [find?_eq_some_iff hheight hdistinct, find?_eq_some_iff hheight hdistinct', wanted_reverse, wanted_reverse,
    List.mem_reverse, List.mem_reverse, hperm.mem_iff]

section

variable {c : Client} {answers answers' : String → Response} {ws : List (Int64 × Int64)} {heights : List Int64}

/-- The replies of both tables agree on the header of every height. -/
theorem find?_of_sameHeaders
    (h : ∀ w ∈ ws, SameHeaders heights (c.headersAnswer answers w) (c.headersAnswer answers' w)) :
    (∃ e, c.headersOf answers ws = .error e ∧ c.headersOf answers' ws = .error e) ∨
      ∃ known known', c.headersOf answers ws = .ok known ∧ c.headersOf answers' ws = .ok known' ∧
        ∀ height ∈ heights, (known.find? fun header => header.height = height) =
          known'.find? fun header => header.height = height := by
  induction ws with
  | nil => exact .inr ⟨[], [], rfl, rfl, fun _ _ => rfl⟩
  | cons w ws ih =>
    obtain ⟨hw, hws⟩ := List.forall_mem_cons.1 h
    rw [headersOf_cons, headersOf_cons]
    generalize c.headersAnswer answers w = result at hw
    generalize c.headersAnswer answers' w = result' at hw
    cases hw with
    | error e => exact .inl ⟨e, rfl, rfl⟩
    | @ok reply reply' hperm hdistinct =>
      rcases ih hws with ⟨e, herror, herror'⟩ | ⟨known, known', hknown, hknown', hsame⟩
      · rw [herror, herror']
        exact .inl ⟨e, rfl, rfl⟩
      · rw [hknown, hknown']
        refine .inr ⟨_, _, rfl, rfl, fun height hheight => ?_⟩
        rw [List.find?_append, List.find?_append, hsame height hheight, find?_reverse_eq_of_perm hheight hperm hdistinct]

end

end Client

end Rpc

end PoolIndexer
