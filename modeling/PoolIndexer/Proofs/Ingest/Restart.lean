import Mathlib.Data.List.Induction
import PoolIndexer.Proofs.Ingest.Journal

/-!
# Proofs.Ingest.Restart — a crash leaves no trace

A new start finds the journal as it was after the last commit: what was held since then is lost, but
the blocks it came from are fed again.  So a run with crashes ends as one without, if only the same
blocks commit.
-/

namespace PoolIndexer

/-! ### Lifetimes -/

/-- What is fed to an ingestor that waits for the height `next`. -/
def messagesFrom (next : Int64) (queue : List BlockMessage) : List BlockMessage :=
  queue.filter fun m => next.toInt ≤ m.block.height.toInt

/-- The ingestor at the end of its messages, if it comes so far. -/
def Ingestor.finished : Except (Stop IndexerError) Unit × Ingestor → Except (Stop IndexerError) Ingestor
  | (.ok _, g) => .ok g
  | (.error stop, _) => .error stop

namespace Setup

/-- One ingestor over what is stored, fed with some of the messages from its next height on. -/
def lifetime (setup : Setup) (queue : List BlockMessage) (count : Option Nat) (s : Store) :
    Except (Stop IndexerError) Ingestor :=
  match Recovered.ofStore s setup.startHeight with
  | .error stop => .error stop
  | .ok r =>
    let messages := messagesFrom r.nextHeight queue
    Ingestor.finished ((setup.ingestor s r).consume (count.elim messages messages.take))

/-- Ingestors over one store: each is dropped after that many blocks, and the last one goes on to the
end of the queue. -/
def lifetimes (setup : Setup) (queue : List BlockMessage) :
    List Nat → Store → Except (Stop IndexerError) Ingestor
  | [], s => setup.lifetime queue none s
  | count :: crashes, s =>
    match setup.lifetime queue (some count) s with
    | .error stop => .error stop
    | .ok g => setup.lifetimes queue crashes g.store

end Setup

/-! ### Queues -/

theorem messagesFrom_of_le {next : Int64} {queue : List BlockMessage} {start : Int}
    (hqueue : Consecutive start queue) (hle : next.toInt ≤ start) : messagesFrom next queue = queue := by
  induction queue generalizing start with
  | nil => rfl
  | cons m rest ih =>
    have hm : next.toInt ≤ m.block.height.toInt := hqueue.1 ▸ hle
    rw [messagesFrom, List.filter_cons, if_pos (decide_eq_true hm)]
    exact congrArg (m :: ·) (ih hqueue.2 (by omega))

/-- The messages before the next height are not fed again. -/
theorem messagesFrom_append {next : Int64} {ys zs : List BlockMessage} {start : Int}
    (hqueue : Consecutive start (ys ++ zs)) (hnext : next.toInt = start + ys.length) :
    messagesFrom next (ys ++ zs) = zs := by
  induction ys generalizing start with
  | nil => exact messagesFrom_of_le hqueue (by simpa using Int.le_of_eq hnext)
  | cons m rest ih =>
    rw [List.length_cons] at hnext
    have hm : ¬ next.toInt ≤ m.block.height.toInt := by
      rw [hqueue.1]
      omega
    rw [messagesFrom, List.cons_append, List.filter_cons, decide_eq_false hm]
    exact ih hqueue.2 (by omega)

namespace Rules

variable {R : Rules} {J J' K : Journal}

theorem consume_append (J : Journal) (xs ys : List BlockMessage) :
    R.consume J (xs ++ ys) =
      match R.consume J xs with
      | .error stop => .error stop
      | .ok K => R.consume K ys := by
  induction xs generalizing J with
  | nil => rfl
  | cons m rest ih =>
    rw [List.cons_append, consume_cons, consume_cons]
    cases R.process J m.block m.batchEnd with
    | error stop => rfl
    | ok J' => exact ih J'

theorem consume_append_eq_ok {xs ys : List BlockMessage} (h : R.consume J (xs ++ ys) = .ok J') :
    ∃ K, R.consume J xs = .ok K ∧ R.consume K ys = .ok J' := by
  rw [consume_append] at h
  cases hxs : R.consume J xs with
  | error stop =>
    rw [hxs] at h
    cases h
  | ok K =>
    rw [hxs] at h
    exact ⟨K, rfl, h⟩

theorem consume_of_append {xs ys : List BlockMessage} (hxs : R.consume J xs = .ok K)
    (h : R.consume J (xs ++ ys) = .ok J') : R.consume K ys = .ok J' := by
  rw [consume_append, hxs] at h
  exact h

theorem nextHeight_consume {xs : List BlockMessage} (h : R.consume J xs = .ok J') :
    J'.nextHeight.toInt = J.nextHeight.toInt + xs.length := by
  induction xs generalizing J with
  | nil =>
    cases h
    exact (Int.add_zero _).symm
  | cons m rest ih =>
    rw [consume_cons] at h
    cases hstep : R.process J m.block m.batchEnd with
    | error stop =>
      rw [hstep] at h
      cases h
    | ok K =>
      rw [hstep] at h
      rw [ih h, nextHeight_process hstep, List.length_cons]
      omega

end Rules

/-! ### What a new start finds -/

/-- No block of the journal is as high as the next one. -/
def Journal.Below (J : Journal) : Prop :=
  ∀ r ∈ blockRows (J.stored ++ J.held), ∀ h, r.blockHeight? = some h → h < J.nextHeight.toInt

/-- From what `J` has stored, a new start finds the journal `K`. -/
def Setup.Restarts (setup : Setup) (J K : Journal) : Prop :=
  ∀ s : Store, s.rows = J.stored →
    ∃ r, Recovered.ofStore s setup.startHeight = .ok r ∧ r.journal s.rows = K

namespace Rules

variable {R : Rules} {J J' : Journal} {b : Block} {batchEnd : Bool}

theorem below_process (hbelow : J.Below) (h : R.process J b batchEnd = .ok J') : J'.Below := by
  obtain ⟨hheight, added, balances, state, next, hadded, -, hnext, rfl⟩ := process_eq_ok h
  have hnext : next.toInt = J.nextHeight.toInt + 1 := Checked.add_eq_ok_iff.1 hnext
  have hrows : blockRows (J.stored ++ (J.held ++ added ++ [b.row state])) =
      blockRows (J.stored ++ J.held) ++ [b.row state] := by
    rw [blockRows_append, blockRows_append, blockRows_append, hadded, blockRows_row, List.append_nil,
      ← List.append_assoc, blockRows_append]
  have hlow : ∀ r ∈ blockRows (J.stored ++ (J.held ++ added ++ [b.row state])), ∀ h,
      r.blockHeight? = some h → h < next.toInt := by
    intro r hr h hh
    rw [hrows] at hr
    rcases List.mem_append.1 hr with hr | hr
    · have := hbelow r hr h hh
      omega
    · rw [List.mem_singleton.1 hr, Block.blockHeight?_row, hheight] at hh
      cases hh
      omega
  cases state with
  | none => exact hlow
  | some bytes =>
    unfold Journal.Below Journal.close
    rw [List.append_nil]
    exact hlow

/-- A block leaves what is stored alone, or it commits and a new start finds the journal after it. -/
theorem restarts_process (setup : Setup) (hbelow : J.Below) (h : R.process J b batchEnd = .ok J') :
    J'.stored = J.stored ∨ setup.Restarts J' J' := by
  obtain ⟨hheight, added, balances, state, next, hadded, hstate, hnext, rfl⟩ := process_eq_ok h
  cases state with
  | none => exact .inl rfl
  | some bytes =>
    refine .inr fun s hs => ?_
    have hwrite : Snapshot.write balances.totals = .ok bytes := write_of_state? hstate
    have hrows : s.rows = J.stored ++ (J.held ++ added) ++ [b.row (some bytes)] := by
      rw [hs, List.append_assoc]
      rfl
    have hlatest : s.latestCheckpoint = some (b.checkpoint bytes) := by
      refine Store.latestCheckpoint_eq hrows fun r hr h hh => ?_
      rw [← List.append_assoc, blockRows_append, hadded, List.append_nil] at hr
      rw [hheight]
      exact Int.le_of_lt (hbelow r hr h hh)
    rw [Recovered.ofStore_eq hlatest hwrite, show Checked.add b.height 1 = .ok next from hheight ▸ hnext]
    exact ⟨_, rfl, by rw [hs]; rfl⟩

theorem restarts_fresh (setup : Setup) {stored : List Row} (hempty : stored = []) :
    setup.Restarts ((Recovered.fresh setup.startHeight).journal stored)
      ((Recovered.fresh setup.startHeight).journal stored) := by
  subst hempty
  intro s hs
  exact ⟨_, Recovered.ofStore_eq_fresh hs _, by rw [show s.rows = [] from hs]⟩

/-- After any number of blocks, a new start finds the journal as it was after some of them. -/
theorem exists_restarts (setup : Setup) {J₀ : Journal} (hbelow : J₀.Below) (hfresh : setup.Restarts J₀ J₀)
    (xs : List BlockMessage) :
    ∀ J, R.consume J₀ xs = .ok J →
      J.Below ∧ ∃ ys zs K, xs = ys ++ zs ∧ R.consume J₀ ys = .ok K ∧ setup.Restarts J K := by
  induction xs using List.reverseRecOn with
  | nil =>
    intro J h
    cases h
    exact ⟨hbelow, [], [], J₀, rfl, rfl, hfresh⟩
  | append_singleton xs m ih =>
    intro J h
    obtain ⟨J₁, hxs, hlast⟩ := consume_append_eq_ok h
    rw [consume_cons] at hlast
    cases hstep : R.process J₁ m.block m.batchEnd with
    | error stop =>
      rw [hstep] at hlast
      cases hlast
    | ok J₂ =>
      rw [hstep] at hlast
      cases hlast
      obtain ⟨hbelow₁, ys, zs, K, hsplit, hys, hK⟩ := ih J₁ hxs
      refine ⟨below_process hbelow₁ hstep, ?_⟩
      rcases restarts_process setup hbelow₁ hstep with hsame | hcommit
      · -- nothing is stored, so a new start finds what it found before
        refine ⟨ys, zs ++ [m], K, by rw [hsplit, List.append_assoc], hys, fun s hs => hK s ?_⟩
        exact hs.trans hsame
      · exact ⟨xs ++ [m], [], J, (List.append_nil _).symm, h, hcommit⟩

end Rules

/-! ### Runs with crashes -/

namespace Setup

variable {setup : Setup} {R : Rules} {s : Store}

/-- A lifetime goes on from the journal that a new start finds. -/
theorem lifetime_eq (hR : setup.rules s = R) (hlog : "block_log" ∉ R.rejectedTables)
    (hs : s.CalmFor setup.strategy) {J K : Journal} (hK : setup.Restarts J K) (hrows : s.rows = J.stored)
    (queue : List BlockMessage) (count : Option Nat) :
    let messages := messagesFrom K.nextHeight queue
    match R.consume K (count.elim messages messages.take) with
    | .error stop => setup.lifetime queue count s = .error stop
    | .ok J' => ∃ g, setup.lifetime queue count s = .ok g ∧ g.Follows R ∧ g.journal = J' := by
  intro messages
  obtain ⟨r, hr, hjournal⟩ := hK s hrows
  have hnext : r.nextHeight = K.nextHeight := congrArg Journal.nextHeight hjournal
  have hfollows : (setup.ingestor s r).Follows R := hR ▸ follows_ingestor hs
  have hrun := Ingestor.consumeWithout_eq hlog (count.elim messages messages.take) hfollows
  rw [journal_ingestor, hjournal, show R.skip = fun _ => false from hR ▸ rfl,
    Ingestor.consumeWithout_none] at hrun
  have hlifetime : setup.lifetime queue count s =
      Ingestor.finished ((setup.ingestor s r).consume (count.elim messages messages.take)) := by
    unfold lifetime
    rw [hr]
    dsimp only
    rw [hnext]
  rw [hlifetime]
  cases hconsume : R.consume K (count.elim messages messages.take) with
  | error stop =>
    rw [hconsume] at hrun
    obtain ⟨g, hg⟩ := hrun
    rw [hg]
    rfl
  | ok J' =>
    rw [hconsume] at hrun
    obtain ⟨g, hg, hfollows', hjournal'⟩ := hrun
    exact ⟨g, by rw [hg]; rfl, hfollows', hjournal'⟩

/-- The store that an ingestor leaves is as calm as the one it was given. -/
theorem calmFor_of_follows (hs : s.CalmFor setup.strategy) {g : Ingestor} (h : g.Follows (setup.rules s)) :
    setup.rules g.store = setup.rules s ∧ g.store.CalmFor setup.strategy := by
  have hrejected : g.store.rejectedTables = s.rejectedTables := h.rejected
  refine ⟨?_, h.calm.outage, fun hbatch => hrejected.trans (hs.rejected hbatch)⟩
  unfold rules
  rw [hrejected]

section

variable {queue : List BlockMessage} {J₀ J : Journal}

/-- From what the blocks before it have stored, a lifetime goes on at some earlier point of the run, and
it is fed all that comes after that point. -/
theorem lifetime_resumes (hlog : "block_log" ∉ R.rejectedTables)
    (hqueue : Consecutive J₀.nextHeight.toInt queue) (hbelow : J₀.Below) (hfresh : setup.Restarts J₀ J₀)
    (hend : R.consume J₀ queue = .ok J) (hR : setup.rules s = R) (hs : s.CalmFor setup.strategy)
    {pre post : List BlockMessage} {J₁ : Journal} (hsplit : queue = pre ++ post)
    (hpre : R.consume J₀ pre = .ok J₁) (hrows : s.rows = J₁.stored) :
    ∃ ys rest K, queue = ys ++ rest ∧ R.consume J₀ ys = .ok K ∧ R.consume K rest = .ok J ∧
      ∀ count : Option Nat, match R.consume K (count.elim rest rest.take) with
        | .error stop => setup.lifetime queue count s = .error stop
        | .ok J' => ∃ g, setup.lifetime queue count s = .ok g ∧ g.Follows R ∧ g.journal = J' := by
  obtain ⟨-, ys, zs, K, rfl, hys, hK⟩ := R.exists_restarts setup hbelow hfresh pre J₁ hpre
  rw [List.append_assoc] at hsplit
  subst hsplit
  have hmessages : messagesFrom K.nextHeight (ys ++ (zs ++ post)) = zs ++ post :=
    messagesFrom_append hqueue (Rules.nextHeight_consume hys)
  refine ⟨ys, zs ++ post, K, rfl, hys, Rules.consume_of_append hys hend, fun count => ?_⟩
  have hlife := lifetime_eq hR hlog hs hK hrows (ys ++ (zs ++ post)) count
  rw [hmessages] at hlife
  exact hlife

/-- From any point of a run that goes through, a run with crashes gets to the same end. -/
theorem lifetimes_eq_ok (hlog : "block_log" ∉ R.rejectedTables)
    (hqueue : Consecutive J₀.nextHeight.toInt queue) (hbelow : J₀.Below) (hfresh : setup.Restarts J₀ J₀)
    (hend : R.consume J₀ queue = .ok J) (crashes : List Nat) :
    ∀ {s : Store} {pre post : List BlockMessage} {J₁ : Journal}, setup.rules s = R →
      s.CalmFor setup.strategy → queue = pre ++ post → R.consume J₀ pre = .ok J₁ → s.rows = J₁.stored →
      ∃ g, setup.lifetimes queue crashes s = .ok g ∧ g.journal = J := by
  induction crashes with
  | nil =>
    intro s pre post J₁ hR hs hsplit hpre hrows
    obtain ⟨ys, rest, K, -, -, hrest, hlife⟩ :=
      lifetime_resumes hlog hqueue hbelow hfresh hend hR hs hsplit hpre hrows
    have hlast := hlife none
    rw [Option.elim_none, hrest] at hlast
    obtain ⟨g, hg, -, hjournal⟩ := hlast
    exact ⟨g, hg, hjournal⟩
  | cons count crashes ih =>
    intro s pre post J₁ hR hs hsplit hpre hrows
    obtain ⟨ys, rest, K, hresumed, hys, hrest, hlife⟩ :=
      lifetime_resumes hlog hqueue hbelow hfresh hend hR hs hsplit hpre hrows
    -- the blocks of this lifetime are the first of a run that goes through
    rw [← List.take_append_drop count rest] at hrest
    obtain ⟨J', hfeed, -⟩ := Rules.consume_append_eq_ok hrest
    have hfirst := hlife (some count)
    rw [Option.elim_some, hfeed] at hfirst
    obtain ⟨g, hg, hfollows, hjournal⟩ := hfirst
    subst hR
    obtain ⟨hR', hs'⟩ := calmFor_of_follows hs hfollows
    have hpre' : (setup.rules s).consume J₀ (ys ++ rest.take count) = .ok J' := by
      rw [Rules.consume_append, hys]
      exact hfeed
    have hsplit' : queue = ys ++ rest.take count ++ rest.drop count := by
      rw [List.append_assoc, List.take_append_drop, hresumed]
    obtain ⟨g', hg', hjournal'⟩ := ih hR' hs' hsplit' hpre' (congrArg Journal.stored hjournal)
    refine ⟨g', ?_, hjournal'⟩
    unfold lifetimes
    rw [hg]
    exact hg'

end

end Setup

/-- **Restarts**: from an empty store where nothing but tables can refuse, blocks in a row either run
into an overflow, or every run with crashes between blocks ends with the same rows and totals as the
run without. -/
theorem Setup.lifetimes_eq (setup : Setup) (s : Store) (queue : List BlockMessage) (crashes : List Nat)
    (hs : s.CalmFor setup.strategy) (hlog : "block_log" ∉ s.rejectedTables) (hempty : s.rows = [])
    (hqueue : Consecutive setup.startHeight.toInt queue) :
    (∃ o, setup.lifetimes queue [] s = .error (.overflow o)) ∨
    ∃ g g', setup.lifetimes queue [] s = .ok g ∧ setup.lifetimes queue crashes s = .ok g' ∧
      g'.store.rows = g.store.rows ∧ g'.books.totals.balances = g.books.totals.balances := by
  let J₀ : Journal := (Recovered.fresh setup.startHeight).journal s.rows
  have hfresh : setup.Restarts J₀ J₀ := Rules.restarts_fresh setup hempty
  have hbelow : J₀.Below := by
    intro r hr
    rw [show J₀.stored ++ J₀.held = [] by rw [show J₀.stored = [] from hempty]; rfl] at hr
    cases hr
  cases hend : (setup.rules s).consume J₀ queue with
  | error stop =>
    obtain ⟨o, rfl⟩ := Rules.consume_eq_error hqueue hend
    have hmessages : messagesFrom J₀.nextHeight queue = queue := messagesFrom_of_le hqueue (Int.le_refl _)
    have hlife := Setup.lifetime_eq rfl hlog hs hfresh rfl queue none
    simp only [Option.elim_none, hmessages, hend] at hlife
    exact .inl ⟨o, hlife⟩
  | ok J =>
    obtain ⟨g, hg, hjournal⟩ := Setup.lifetimes_eq_ok hlog hqueue hbelow hfresh hend [] rfl hs
      (List.nil_append queue).symm rfl rfl
    obtain ⟨g', hg', hjournal'⟩ := Setup.lifetimes_eq_ok hlog hqueue hbelow hfresh hend crashes rfl hs
      (List.nil_append queue).symm rfl rfl
    have hsame : g'.journal = g.journal := hjournal'.trans hjournal.symm
    exact .inr ⟨g, g', hg, hg', congrArg Journal.stored hsame, congrArg Journal.balances hsame⟩

/-- Three blocks of which two are fed twice end as if they were fed once. -/
theorem Setup.lifetimes_seeded :
    let setup := Setup.seeded .tolerant 5
    let s := { Store.empty with rejectedTables := ["swap_events"] }
    let queue : List BlockMessage := [⟨.bare 5, true⟩, ⟨.bare 6, false⟩, ⟨.bare 7, true⟩]
    s.CalmFor setup.strategy ∧ "block_log" ∉ s.rejectedTables ∧ s.rows = [] ∧
      Consecutive setup.startHeight.toInt queue ∧
      (setup.lifetimes queue [2, 0, 1] s).toOption.isSome = true ∧
      ((∃ o, setup.lifetimes queue [] s = .error (.overflow o)) ∨
      ∃ g g', setup.lifetimes queue [] s = .ok g ∧ setup.lifetimes queue [2, 0, 1] s = .ok g' ∧
        g'.store.rows = g.store.rows ∧ g'.books.totals.balances = g.books.totals.balances) :=
  ⟨⟨rfl, fun h => by cases h⟩, by decide, rfl, ⟨rfl, rfl, rfl, trivial⟩, by decide +kernel,
    Setup.lifetimes_eq (.seeded .tolerant 5) { Store.empty with rejectedTables := ["swap_events"] }
      [⟨.bare 5, true⟩, ⟨.bare 6, false⟩, ⟨.bare 7, true⟩] [2, 0, 1] ⟨rfl, fun h => by cases h⟩ (by decide) rfl
      ⟨rfl, rfl, rfl, trivial⟩⟩

end PoolIndexer
