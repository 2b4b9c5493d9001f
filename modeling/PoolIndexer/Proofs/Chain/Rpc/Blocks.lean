import PoolIndexer.Proofs.Chain.Rpc.Headers
import PoolIndexer.Proofs.Chain.Rpc.Replies

/-!
# Proofs.Chain.Rpc.Blocks — blocks out of headers and events

The headers of a range and the events of its heights come in different replies.

* `gives_blocks`: what a range is answered with, and the requests for it.
* `MadeOf`: a block with the time and the hash of a header and the events of a reply, all of its own height.
* `Answered`, `SameReplies`: a table that has all of a range, and two tables that tell the same of it.
* `blocks_exact`: the blocks are those of the range, made of the replies for it and of nothing else.
-/

namespace PoolIndexer

namespace Rpc

namespace Client

/-! ### Replies -/

section

variable (c : Client) (answers : String → Response)

def heightQuery (height : Int64) : List (String × String) := [("height", Text.Decimal.showInt64 height)]

def resultsTarget? (height : Int64) : Option String := c.target? "block_results" (heightQuery height)

/-- The events in the reply for a height, if it is one for that height. -/
def resultsAnswer (height : Int64) : Except NoAnswer BlockResults := do
  let r ← c.answer answers "block_results" (heightQuery height) resultsOfJson?
  if r.height ≠ height then .error (.error (.heightGap height r.height)) else .ok r

/-- The blocks that the replies are put together to. -/
def blocksOf (ws : List (Int64 × Int64)) (heights : List Int64) : Except NoAnswer (List Block) := do
  let known ← c.headersOf answers ws
  let results ← heights.mapM (c.resultsAnswer answers)
  results.mapM (assemble known)

variable {c answers}

theorem height_of_resultsAnswer {height : Int64} {r : BlockResults} (h : c.resultsAnswer answers height = .ok r) :
    r.height = height := by
  obtain ⟨r', -, h⟩ := bind_eq_ok_iff.1 h
  by_cases hheight : r'.height = height
  · rw [if_neg (not_not.2 hheight)] at h
    cases h
    exact hheight
  · rw [if_pos hheight] at h
    cases h

variable (c answers) in
theorem gives_results (height : Int64) :
    Gives (c.results (table answers) height) (c.resultsAnswer answers height) [c.resultsTarget? height] := by
  refine (gives_call "block_results" (heightQuery height) resultsOfJson?).bind fun r _ => ?_
  by_cases hheight : r.height = height
  · rw [if_neg (not_not.2 hheight), if_neg (not_not.2 hheight)]
    exact gives_known (.ok r)
  · rw [if_pos hheight, if_pos hheight]
    exact gives_known (.error _)

end

/-! ### Requests -/

/-- What a range is answered with, and the requests for it. -/
theorem gives_blocks {low high : Int64} (hfar : high.toInt + 20 < 2 ^ 63) (c : Client) (answers : String → Response) :
    Gives (c.blocks (table answers) low high) (c.blocksOf answers (windows low high) (Node.heights low high))
      ((windows low high).map c.headersTarget? ++ (Node.heights low high).map c.resultsTarget?) := by
  by_cases hlt : high.toInt < low.toInt
  · rw [blocks, if_pos hlt, windows_of_lt hlt, Node.heights_of_lt hlt]
    exact gives_known (.ok [])
  · have hmap : (c.headersOf answers (windows low high)).map (· ++ []) = c.headersOf answers (windows low high) := by
      cases c.headersOf answers (windows low high) with
      | error e => rfl
      | ok known => exact congrArg Except.ok (List.append_nil known)
    have hheaders := gives_headers hfar c answers low []
    have hresults := gives_inParallel (gives_results c answers) c.parallelism (Node.heights low high)
    have hall := hheaders.bind fun known _ =>
      hresults.bind fun results _ => gives_known (results.mapM (assemble known))
    rw [hmap, List.append_nil] at hall
    rw [blocks, if_neg hlt]
    exact hall

/-! ### Blocks -/

/-- The block is put together of a header and of events, both of its own height. -/
structure MadeOf (b : Block) (header : Header) (r : BlockResults) : Prop where
  header_height : header.height = b.height
  results_height : r.height = b.height
  time : b.timestamp = header.time
  hash : Text.Hex.decodeText header.hash = .ok b.hash
  phases : r.phases = ⟨b.beginEvents, b.txs, b.endEvents⟩

theorem madeOf_of_assemble {known : List Header} {r : BlockResults} {b : Block} (h : assemble known r = .ok b) :
    ∃ header ∈ known, MadeOf b header r := by
  unfold assemble at h
  cases hfind : known.find? fun header => header.height = r.height with
  | none =>
    rw [hfind] at h
    cases h
  | some header =>
    rw [hfind] at h
    dsimp only at h
    cases hhash : Text.Hex.decodeText header.hash with
    | error fault =>
      rw [hhash] at h
      cases h
    | ok hash =>
      rw [hhash] at h
      cases h
      have hheight : header.height = r.height := by simpa using List.find?_some hfind
      exact ⟨header, List.mem_of_find?_eq_some hfind, hheight, rfl, rfl, hhash, rfl⟩

theorem exists_assemble {known : List Header} {r : BlockResults} {header : Header} (hmem : header ∈ known)
    (hheight : header.height = r.height)
    (hhash : ∀ header ∈ known, header.height = r.height → ∃ hash, Text.Hex.decodeText header.hash = .ok hash) :
    ∃ b, assemble known r = .ok b := by
  have hfound : (known.find? fun header => header.height = r.height).isSome := by
    simpa using ⟨header, hmem, hheight⟩
  obtain ⟨header', hfind⟩ := Option.isSome_iff_exists.1 hfound
  obtain ⟨hash, hdecode⟩ := hhash header' (List.mem_of_find?_eq_some hfind) (by simpa using List.find?_some hfind)
  unfold assemble
  rw [hfind]
  dsimp only
  rw [hdecode]
  exact ⟨_, rfl⟩

theorem height_of_assemble {known : List Header} {r : BlockResults} {b : Block} (h : assemble known r = .ok b) :
    b.height = r.height := by
  obtain ⟨_, -, hmade⟩ := madeOf_of_assemble h
  exact hmade.results_height.symm

section

variable {c : Client} {answers answers' : String → Response} {ws : List (Int64 × Int64)} {heights : List Int64}

/-- The blocks stand in the order of the heights that were asked for. -/
theorem heights_of_blocksOf {bs : List Block} (h : c.blocksOf answers ws heights = .ok bs) :
    bs.map Block.height = heights := by
  obtain ⟨known, -, h⟩ := bind_eq_ok_iff.1 h
  obtain ⟨results, hresults, h⟩ := bind_eq_ok_iff.1 h
  have hassembled : bs.map Block.height = results.map BlockResults.height :=
    map_eq_of_mapM (fun r b hb => height_of_assemble hb) h
  have hanswered : results.map BlockResults.height = heights.map id :=
    map_eq_of_mapM (fun _ _ hr => height_of_resultsAnswer hr) hresults
  rw [hassembled, hanswered, List.map_id]

theorem madeOf_of_blocksOf {bs : List Block} (h : c.blocksOf answers ws heights = .ok bs) :
    ∀ b ∈ bs, ∃ w ∈ ws, ∃ reply, c.headersAnswer answers w = .ok reply ∧ ∃ header ∈ reply, ∃ r,
      c.resultsAnswer answers b.height = .ok r ∧ MadeOf b header r := by
  obtain ⟨known, hknown, h⟩ := bind_eq_ok_iff.1 h
  obtain ⟨results, hresults, h⟩ := bind_eq_ok_iff.1 h
  intro b hb
  obtain ⟨r, hr, hassemble⟩ := (exists_of_mapM_eq_ok h).2 b hb
  obtain ⟨height, -, hanswer⟩ := (exists_of_mapM_eq_ok hresults).2 r hr
  obtain ⟨header, hheader, hmade⟩ := madeOf_of_assemble hassemble
  obtain ⟨w, hw, reply, hreply, hmem⟩ := exists_window_of_mem hknown hheader
  have hheight : height = b.height := (height_of_resultsAnswer hanswer).symm.trans hmade.results_height
  exact ⟨w, hw, reply, hreply, header, hmem, r, hheight ▸ hanswer, hmade⟩

/-- All windows are answered, each height has events and a header, and hashes of wanted headers can be read. -/
structure Answered (c : Client) (answers : String → Response) (ws : List (Int64 × Int64)) (heights : List Int64) :
    Prop where
  headers : ∀ w ∈ ws, ∃ reply, c.headersAnswer answers w = .ok reply ∧
    ∀ header ∈ reply, header.height ∈ heights → ∃ hash, Text.Hex.decodeText header.hash = .ok hash
  results : ∀ height ∈ heights, ∃ r, c.resultsAnswer answers height = .ok r
  covered : ∀ height ∈ heights, ∃ w ∈ ws, ∃ reply, c.headersAnswer answers w = .ok reply ∧
    ∃ header ∈ reply, header.height = height

theorem exists_blocksOf (h : Answered c answers ws heights) :
    ∃ bs, c.blocksOf answers ws heights = .ok bs := by
  obtain ⟨replies, hreplies⟩ := mapM_isOk fun w hw => (h.headers w hw).imp fun _ => And.left
  obtain ⟨results, hresults⟩ := mapM_isOk h.results
  have hknown : c.headersOf answers ws = .ok replies.flatten.reverse := headersOf_eq_ok_iff.2 ⟨replies, hreplies, rfl⟩
  have hblocks : ∀ r ∈ results, ∃ b, assemble replies.flatten.reverse r = .ok b := by
    intro r hr
    obtain ⟨height, hheight, hanswer⟩ := (exists_of_mapM_eq_ok hresults).2 r hr
    obtain rfl := height_of_resultsAnswer hanswer
    obtain ⟨w, hw, reply, hreply, header, hheader, hsame⟩ := h.covered _ hheight
    refine exists_assemble (mem_headersOf hknown hw hreply hheader) hsame fun header' hmem hsame' => ?_
    obtain ⟨w', hw', reply', hreply', hmem'⟩ := exists_window_of_mem hknown hmem
    obtain ⟨reply'', hreply'', hhash⟩ := h.headers w' hw'
    obtain rfl := Except.ok.inj (hreply'.symm.trans hreply'')
    exact hhash header' hmem' (hsame' ▸ hheight)
  obtain ⟨bs, hbs⟩ := mapM_isOk hblocks
  exact ⟨bs, bind_eq_ok_iff.2 ⟨_, hknown, bind_eq_ok_iff.2 ⟨results, hresults, hbs⟩⟩⟩

/-! ### Other tables -/

/-- Two tables tell the same of the heights, though replies may have headers in another order and for other heights. -/
structure SameReplies (c : Client) (answers answers' : String → Response) (ws : List (Int64 × Int64))
    (heights : List Int64) : Prop where
  headers : ∀ w ∈ ws, SameHeaders heights (c.headersAnswer answers w) (c.headersAnswer answers' w)
  results : ∀ height ∈ heights, c.resultsAnswer answers height = c.resultsAnswer answers' height

theorem blocksOf_eq_of_sameReplies (h : SameReplies c answers answers' ws heights) :
    c.blocksOf answers ws heights = c.blocksOf answers' ws heights := by
  unfold blocksOf
  rw [← mapM_congr h.results]
  rcases find?_of_sameHeaders h.headers with ⟨e, herror, herror'⟩ | ⟨known, known', hknown, hknown', hsame⟩
  · rw [herror, herror']
  · rw [hknown, hknown']
    show (heights.mapM (c.resultsAnswer answers) >>= fun results => results.mapM (assemble known)) =
      heights.mapM (c.resultsAnswer answers) >>= fun results => results.mapM (assemble known')
    cases hresults : heights.mapM (c.resultsAnswer answers) with
    | error e => rfl
    | ok results =>
      refine mapM_congr fun r hr => ?_
      obtain ⟨height, hheight, hanswer⟩ := (exists_of_mapM_eq_ok hresults).2 r hr
      obtain rfl := height_of_resultsAnswer hanswer
      rw [assemble, assemble, hsame _ hheight]

end

/-- **A range of blocks is exact.**  If there is an answer, it has a block for each height of the range, in order,
with the time and the hash of a header of that height and the events of the reply for that height; and the
requests were those for the windows of the range, which cover it one after the other, and those for its heights.
There is an answer if the node has all of them.  It depends neither on how many requests are under way at a time
nor on the order of the headers in a reply nor on those for other heights. -/
theorem blocks_exact {low high : Int64} (hfar : high.toInt + 20 < 2 ^ 63) :
    Covers low high (windows low high) ∧
    ∀ (c : Client) (answers : String → Response) (sent : List String) result sent',
      c.blocks (table answers) low high sent = (result, sent') →
      (∀ bs, result = .ok bs →
        bs.map Block.height = Node.heights low high ∧
        (∀ b ∈ bs, ∃ w ∈ windows low high, ∃ reply, c.headersAnswer answers w = .ok reply ∧ ∃ header ∈ reply, ∃ r,
          c.resultsAnswer answers b.height = .ok r ∧ MadeOf b header r) ∧
        sent'.map some = sent.map some ++
          ((windows low high).map c.headersTarget? ++ (Node.heights low high).map c.resultsTarget?)) ∧
      (Answered c answers (windows low high) (Node.heights low high) → ∃ bs, result = .ok bs) ∧
      ∀ (width : Nat) answers' sent₁, SameReplies c answers answers' (windows low high) (Node.heights low high) →
        (({ c with parallelism := width } : Client).blocks (table answers') low high sent₁).1 = result := by
  refine ⟨covers_windows hfar, fun c answers sent result sent' hrun => ?_⟩
  obtain ⟨sent₂, hgives, hsent⟩ := gives_blocks hfar c answers sent
  obtain ⟨rfl, rfl⟩ := Prod.mk.inj (hrun.symm.trans hgives)
  refine ⟨fun bs hbs => ⟨heights_of_blocksOf hbs, madeOf_of_blocksOf hbs, hsent bs hbs⟩, exists_blocksOf,
    fun width answers' sent₁ hsame => ?_⟩
  obtain ⟨sent₃, hgives', -⟩ := gives_blocks hfar { c with parallelism := width } answers' sent₁
  rw [hgives', blocksOf_eq_of_sameReplies hsame]
  rfl

/-- Of the first moment of 2021, with a hash that tells its height. -/
def headerAt (n : Nat) : Header := ⟨Int64.ofNat n, ⟨⟨2021, 1, 1⟩, 0, 0, 0, 0⟩, Text.Hex.upper [UInt8.ofNat n]⟩

/-- A block in which nothing happens. -/
def quiet (height : Int64) : BlockResults := ⟨height, [], [], [], []⟩

/-- The node has those headers and the events of two heights. -/
def twoHeights (headers : List Header) (target : String) : Response :=
  if target = "/block_results?height=5" then .body (replyJson (quiet 5).toJson).render
  else if target = "/block_results?height=6" then .body (replyJson (quiet 6).toJson).render
  else .body (replyJson (headersJson headers)).render

def localNode : Client := ⟨"http://localhost:27147", 4, 1000⟩

theorem targets_localNode : localNode.headersTarget? (5, 6) = some "/blockchain?minHeight=5&maxHeight=6" ∧
    localNode.resultsTarget? 5 = some "/block_results?height=5" ∧
    localNode.resultsTarget? 6 = some "/block_results?height=6" := by
  have h5 : Text.Decimal.showInt64 5 = "5" := congrArg String.ofList (Text.Decimal.digits_of_lt (by decide))
  have h6 : Text.Decimal.showInt64 6 = "6" := congrArg String.ofList (Text.Decimal.digits_of_lt (by decide))
  rw [headersTarget?, resultsTarget?, resultsTarget?, windowQuery, heightQuery, heightQuery, h5, h6]
  decide +kernel

theorem headersAnswer_twoHeights {headers : List Header} (hvalid : ∀ h ∈ headers, h.time.IsValid) :
    localNode.headersAnswer (twoHeights headers) (5, 6) = .ok headers :=
  answer_of_reply targets_localNode.1 (by simp [twoHeights]) (plain_headersJson headers) (record_ne_null _)
    (headersOfJson?_headersJson hvalid)

theorem resultsAnswer_twoHeights (headers : List Header) :
    ∀ height ∈ ([5, 6] : List Int64), localNode.resultsAnswer (twoHeights headers) height = .ok (quiet height) := by
  have hreply : ∀ height target, localNode.resultsTarget? height = some target →
      twoHeights headers target = .body (replyJson (quiet height).toJson).render →
      localNode.resultsAnswer (twoHeights headers) height = .ok (quiet height) := by
    intro height target htarget hanswer
    have hread := BlockResults.ofJson?_toJson (quiet height)
    rw [resultsAnswer, answer_of_reply htarget hanswer (BlockResults.plain_toJson _) (record_ne_null _) hread]
    exact if_neg (not_not.2 rfl)
  obtain ⟨-, h5, h6⟩ := targets_localNode
  exact List.forall_mem_cons.2 ⟨hreply 5 _ h5 (by simp [twoHeights]),
    List.forall_mem_singleton.2 (hreply 6 _ h6 (by simp [twoHeights]))⟩

/-- One node has the headers in the wrong order and one too many, another just those of the range in order. -/
theorem blocks_exact_twoHeights :
    ∃ bs sent, localNode.blocks (table (twoHeights [headerAt 6, headerAt 9, headerAt 5])) 5 6 [] =
        (.ok bs, sent) ∧
      bs.map Block.height = [5, 6] ∧
      sent = ["/blockchain?minHeight=5&maxHeight=6", "/block_results?height=5", "/block_results?height=6"] ∧
      ∀ width, (({ localNode with parallelism := width } : Client).blocks
        (table (twoHeights [headerAt 5, headerAt 6])) 5 6 []).1 = .ok bs := by
  have hwindows : windows 5 6 = [(5, 6)] := by decide
  have hheights : Node.heights 5 6 = [5, 6] := by decide
  have hvalid : ∀ n, (headerAt n).time.IsValid := by
    intro n
    exact ⟨rfl, Nat.zero_lt_succ _, Nat.zero_lt_succ _, Nat.zero_le _, Nat.zero_lt_succ _⟩
  have hmixed : localNode.headersAnswer (twoHeights [headerAt 6, headerAt 9, headerAt 5]) (5, 6) =
      .ok [headerAt 6, headerAt 9, headerAt 5] := headersAnswer_twoHeights (by simp [hvalid])
  have hsorted : localNode.headersAnswer (twoHeights [headerAt 5, headerAt 6]) (5, 6) =
      .ok [headerAt 5, headerAt 6] := headersAnswer_twoHeights (by simp [hvalid])
  have hanswered : Answered localNode (twoHeights [headerAt 6, headerAt 9, headerAt 5]) [(5, 6)] [5, 6] := by
    have hhash : ∀ h ∈ [headerAt 6, headerAt 9, headerAt 5], ∃ hash, Text.Hex.decodeText h.hash = .ok hash := by
      simp [headerAt, Text.Hex.decodeText_upper]
    have hknown : ∀ height ∈ ([5, 6] : List Int64), ∃ h ∈ [headerAt 6, headerAt 9, headerAt 5], h.height = height := by
      simp [headerAt]
    exact ⟨List.forall_mem_singleton.2 ⟨_, hmixed, fun h hh _ => hhash h hh⟩,
      fun height hheight => ⟨_, resultsAnswer_twoHeights _ height hheight⟩,
      fun height hheight => ⟨_, List.mem_singleton_self _, _, hmixed, hknown height hheight⟩⟩
  have hsame : SameReplies localNode (twoHeights [headerAt 6, headerAt 9, headerAt 5])
      (twoHeights [headerAt 5, headerAt 6]) [(5, 6)] [5, 6] := by
    refine ⟨List.forall_mem_singleton.2 ?_, fun height hheight => ?_⟩
    · rw [hmixed, hsorted]
      exact .ok (.swap ..) (by decide)
    · rw [resultsAnswer_twoHeights _ height hheight, resultsAnswer_twoHeights _ height hheight]
  obtain ⟨-, hblocks⟩ := @blocks_exact 5 6 (by decide)
  rw [hwindows, hheights] at hblocks
  cases hrun : localNode.blocks (table (twoHeights [headerAt 6, headerAt 9, headerAt 5])) 5 6 [] with
  | mk result sent =>
    obtain ⟨hexact, hanswer, hother⟩ := hblocks _ _ _ _ _ hrun
    obtain ⟨bs, rfl⟩ := hanswer hanswered
    obtain ⟨hheights', -, hsent⟩ := hexact bs rfl
    have htargets : sent.map some = ["/blockchain?minHeight=5&maxHeight=6", "/block_results?height=5",
        "/block_results?height=6"].map some := by
      obtain ⟨hwindow, h5, h6⟩ := targets_localNode
      simpa [hwindow, h5, h6] using hsent
    exact ⟨bs, sent, rfl, hheights', List.map_injective_iff.2 (fun _ _ => Option.some.inj) htargets,
      fun width => hother width _ [] hsame⟩

end Client

end Rpc

end PoolIndexer
