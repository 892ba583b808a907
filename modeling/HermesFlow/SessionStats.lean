import HermesFlow.FilePlayback
import HermesFlow.PlaybackEnd

/-!
# The statistics of a session

`get_next_frame` counts bytes and keeps the id of the current node, the loop of
the session counts packets, and the frames that `get_next_frame` reports as
underruns are counted in `is_status_ok`, which nothing calls. So an update is
consistent as long as no frame has been reported as one.
-/

namespace HermesFlow.Audio.Stats

open EventRun FileInputNode

variable {Shifter : Type} {fx : FloatOps Shifter}

/-- The statistics of a new executor; the bytes are not initialized. -/
def SessionStats.create (totalBytesSent : ℕ) : SessionStats := ⟨"", "", totalBytesSent, 0, 0⟩

/-- `STATS_UPDATE_INTERVAL_MS`, in nanoseconds of the steady clock. -/
def STATS_UPDATE_INTERVAL : ℕ := 100 * 1000000

/-- A call of `on_stats_update`, and what the run had done by then. -/
structure Update where
  /-- The argument. -/
  stats : SessionStats
  /-- The frames that `send_frame` had been called with. -/
  sent : ℕ
  /-- The frames that `get_next_frame` had reported as underruns. -/
  reported : ℕ
  /-- The id of the node that was current. -/
  currentNodeId : Option String

/-- A session in `run_main_audio_loop`, with its telemetry. -/
structure State (Shifter : Type) where
  /-- The executor and the streamer. -/
  loop : Dispatch.State Shifter
  /-- `observer_` is set. -/
  hasObserver : Bool
  /-- `last_stats_time`. -/
  lastStatsTime : ℕ
  /-- The frames that `get_next_frame` has reported as underruns. -/
  reported : ℕ
  /-- The calls of `on_stats_update`. -/
  updates : List Update

/-- A tick of the loop, the end of a pause or a step of a coroutine of a file input node. -/
inductive Event where
  /-- A tick; with the errors of the file system if nodes are closed, and the time. -/
  | frame (faults : ℕ → Option String) (now : ℕ)
  /-- `wait_for_resume` returns at a time. -/
  | wake (now : ℕ)
  /-- A coroutine. -/
  | task (i : ℕ) (t : FileInputNode.Task)

/-- The condition of `update_stats_if_needed`. -/
def UpdateNeeded (s : State Shifter) (now : ℕ) : Prop :=
  s.hasObserver = true ∧ s.lastStatsTime + STATS_UPDATE_INTERVAL < now

instance (s : State Shifter) (now : ℕ) : Decidable (UpdateNeeded s now) :=
  inferInstanceAs (Decidable (_ ∧ _))

/-- The call of `on_stats_update` with the present statistics. -/
def onStatsUpdate (s : State Shifter) : Update where
  stats := s.loop.executor.stats
  sent := s.loop.sent.length
  reported := s.reported
  currentNodeId := s.loop.executor.currentNode.map fun r => (s.loop.executor.nodes.base r).id

/-- `update_stats_if_needed`. -/
def updateStatsIfNeeded (s : State Shifter) (now : ℕ) : State Shifter :=
  if UpdateNeeded s now then
    { s with updates := s.updates ++ [onStatsUpdate s], lastStatsTime := now }
  else s

/-- The frame is reported as an underrun. -/
def IsUnderrun (fx : FloatOps Shifter) (s : State Shifter) (faults : ℕ → Option String) : Prop :=
  (Dispatch.nextFrame fx s.loop faults).status.code = .underrun

instance (s : State Shifter) (faults : ℕ → Option String) : Decidable (IsUnderrun fx s faults) :=
  inferInstanceAs (Decidable (_ = _))

/-- The executor, the streamer and the diagnostics of `process_and_stream_single_frame`. -/
def processFrame (fx : FloatOps Shifter) (s : State Shifter) (faults : ℕ → Option String) :
    State Shifter :=
  { s with
    loop := Dispatch.processAndStreamSingleFrame fx s.loop faults
    reported := if IsUnderrun fx s faults then s.reported + 1 else s.reported }

/-- `process_and_stream_single_frame`. -/
def processAndStreamSingleFrame (fx : FloatOps Shifter) (s : State Shifter)
    (faults : ℕ → Option String) (now : ℕ) : State Shifter :=
  if (Dispatch.nextFrame fx s.loop faults).wantsContinue = false then processFrame fx s faults
  else updateStatsIfNeeded (processFrame fx s faults) now

/-- The step of one event. -/
def step (fx : FloatOps Shifter) (s : State Shifter) : Event → Option (State Shifter)
  | .frame faults now =>
    if s.loop.isRunning = true then some (processAndStreamSingleFrame fx s faults now) else none
  | .wake now => if s.loop.isRunning = true then some { s with lastStatsTime := now } else none
  | .task i t => (Dispatch.step fx s.loop (.task i t)).map fun loop => { s with loop := loop }

/-- The session when its loop starts at a time, with the executor prepared. -/
def begin (graph : Infra.Graph) (disk : String → Option (List UInt8)) (shifter : Shifter)
    (totalBytesSent : ℕ) (reads : ℕ → Bool × Bool) (pcmBuffer : List UInt8) (hasObserver : Bool)
    (now : ℕ) : State Shifter where
  loop := startSession graph disk shifter (SessionStats.create totalBytesSent) reads pcmBuffer
  hasObserver := hasObserver
  lastStatsTime := now
  reported := 0
  updates := []

/-- An update tells what the run has done. -/
structure Update.Consistent (u : Update) : Prop where
  /-- It counts the frames sent. -/
  packetsSent : u.stats.packetsSent = u.sent
  /-- Its bytes are those of its packets. -/
  totalBytesSent : u.stats.totalBytesSent = FRAME_SIZE_BYTES * u.stats.packetsSent
  /-- It counts the underruns reported. -/
  underruns : u.stats.underruns = u.reported
  /-- It names the current node. -/
  currentNodeId : u.currentNodeId = some u.stats.currentNodeId

/-- The guard of runs in which an update is only made before any underrun. -/
def NoUnderrunAtUpdate (fx : FloatOps Shifter) (s : State Shifter) : Event → Prop
  | .frame faults now => UpdateNeeded s now →
      (Dispatch.nextFrame fx s.loop faults).wantsContinue = true →
        s.reported = 0 ∧ ¬IsUnderrun fx s faults
  | .wake _ | .task _ _ => True

section Executor

variable {e : AudioExecutor Shifter} {outputBuffer : List UInt8} {faults : ℕ → Option String}

/-- The id in the statistics is that of the current node. -/
def Named (e : AudioExecutor Shifter) : Prop :=
  ∀ r ∈ e.currentNode, e.stats.currentNodeId = (e.nodes.base r).id

/-- A transition counts nothing, and names the node that is next. -/
theorem advanceToNextNode_stats {current : NodeRef} (hnamed : Named e) :
    Named (e.advanceToNextNode fx current faults).1 ∧
      (e.advanceToNextNode fx current faults).1.stats.packetsSent = e.stats.packetsSent ∧
      (e.advanceToNextNode fx current faults).1.stats.totalBytesSent = e.stats.totalBytesSent ∧
      (e.advanceToNextNode fx current faults).1.stats.underruns = e.stats.underruns := by
  unfold AudioExecutor.advanceToNextNode
  dsimp only
  split
  · refine ⟨fun r hr => ?_, rfl, rfl, rfl⟩
    dsimp only at hr ⊢
    rw [Nodes.close_id]
    exact hnamed r hr
  · split
    · refine ⟨fun r hr => ?_, rfl, rfl, rfl⟩
      cases hr
      rfl
    · exact ⟨nofun, rfl, rfl, rfl⟩

/-- What `get_next_frame` does to the statistics: the bytes of a frame are counted
unless the frame is an underrun or ends the loop. -/
structure Counted (stats : SessionStats) (r : NextFrame Shifter) : Prop where
  /-- The statistics name the current node. -/
  named : Named r.executor
  /-- The call counts no packet. -/
  packetsSent : r.executor.stats.packetsSent = stats.packetsSent
  /-- The call counts no underrun. -/
  underruns : r.executor.stats.underruns = stats.underruns
  /-- A frame to be sent has a node. -/
  current : r.wantsContinue = true → r.executor.currentNode.isSome = true
  /-- An underrun adds no bytes. -/
  underrun : r.status.code = .underrun → r.executor.stats.totalBytesSent = stats.totalBytesSent
  /-- A frame adds its bytes. -/
  success : r.wantsContinue = true → r.status.code ≠ .underrun →
    r.executor.stats.totalBytesSent = stats.totalBytesSent + FRAME_SIZE_BYTES

/-- Counting a frame adds its bytes. -/
theorem countFrame_counted (hnamed : Named e) :
    Counted e.stats (AudioExecutor.getNextFrame.countFrame e outputBuffer) where
  named := hnamed
  packetsSent := rfl
  underruns := rfl
  current := fun h => h
  underrun := fun h => nomatch h
  success := fun _ _ => rfl

/-- The end of a frame adds its bytes. -/
theorem finishFrame_counted {current : NodeRef} {isEos : Bool} (hnamed : Named e) :
    Counted e.stats (AudioExecutor.getNextFrame.finishFrame fx faults e current outputBuffer isEos) := by
  obtain ⟨hnamed', hpackets, hbytes, hunderruns⟩ :=
    @advanceToNextNode_stats _ fx e faults current hnamed
  unfold AudioExecutor.getNextFrame.finishFrame
  by_cases hover : isEos = true ∨ (e.nodes.base current).isComplete = true
  · simp only [if_pos hover]
    cases hclosed : (e.nodes.close fx current faults).2 with
    | error error =>
      simp only [AudioExecutor.advanceToNextNode_error hclosed]
      exact ⟨hnamed', hpackets, hunderruns, nofun, fun _ => hbytes, nofun⟩
    | ok =>
      simp only [(AudioExecutor.advanceToNextNode_ok hclosed).1]
      have hcount := @countFrame_counted _ (e.advanceToNextNode fx current faults).1 outputBuffer
        hnamed'
      exact ⟨hcount.named, hcount.packetsSent.trans hpackets, hcount.underruns.trans hunderruns,
        hcount.current, fun hcode => (hcount.underrun hcode).trans hbytes,
        fun hcontinue hcode => by rw [hcount.success hcontinue hcode, hbytes]⟩
  · rw [if_neg hover]
    exact countFrame_counted hnamed

/-- Every call counts what it returns. -/
theorem getNextFrame_counted (hnamed : Named e) :
    Counted e.stats (e.getNextFrame fx outputBuffer faults) := by
  obtain ⟨nodes, currentNode, stats⟩ := e
  unfold AudioExecutor.getNextFrame
  cases currentNode with
  | none => exact ⟨hnamed, rfl, rfl, nofun, nofun, nofun⟩
  | some current =>
    dsimp only
    by_cases hempty : outputBuffer = []
    · rw [if_pos hempty]
      exact ⟨hnamed, rfl, rfl, nofun, nofun, nofun⟩
    rw [if_neg hempty]
    have hid := nodes.processFrame_id fx current (List.replicate outputBuffer.length 0)
    generalize nodes.processFrame fx current (List.replicate outputBuffer.length 0) = p at hid ⊢
    have hnamed' : Named ⟨p.node, some current, stats⟩ :=
      fun r hr => (hnamed r hr).trans (hid r).symm
    cases hresult : p.result with
    | ok => exact finishFrame_counted hnamed'
    | error error =>
      dsimp only
      split
      · exact ⟨hnamed', rfl, rfl, nofun, nofun, nofun⟩
      · split
        · refine ⟨hnamed', rfl, rfl, fun _ => ?_, fun _ => rfl, fun hcontinue hcode => ?_⟩
          · exact Option.isSome_some
          · exact absurd (of_decide_eq_true hcontinue) hcode
        · exact finishFrame_counted hnamed'

end Executor

section Loop

variable {s s' : State Shifter} {faults : ℕ → Option String} {now : ℕ}

/-- What the counters count in every state of the loop. -/
structure Accounted (s : State Shifter) : Prop where
  /-- The statistics name the current node. -/
  named : Named s.loop.executor
  /-- They count the frames sent. -/
  packetsSent : s.loop.executor.stats.packetsSent = s.loop.sent.length
  /-- They count no underrun. -/
  underruns : s.loop.executor.stats.underruns = 0
  /-- The bytes of the underruns are missing. -/
  totalBytesSent : s.loop.isRunning = true → s.loop.executor.stats.totalBytesSent +
    FRAME_SIZE_BYTES * s.reported = FRAME_SIZE_BYTES * s.loop.executor.stats.packetsSent

/-- An update tells what the run has done if there has been no underrun, and
only then. -/
theorem consistent_iff_reported (hs : Accounted s) (hrunning : s.loop.isRunning = true)
    (hcurrent : s.loop.executor.currentNode.isSome = true) :
    (onStatsUpdate s).Consistent ↔ s.reported = 0 := by
  have hbytes := hs.totalBytesSent hrunning
  constructor
  · intro h
    exact h.underruns.symm.trans hs.underruns
  · intro hzero
    obtain ⟨current, hsome⟩ := Option.isSome_iff_exists.mp hcurrent
    refine ⟨hs.packetsSent, ?_, hs.underruns.trans hzero.symm, ?_⟩
    · rw [hzero] at hbytes
      exact hbytes
    · rw [onStatsUpdate, hsome, Option.map_some, hs.named current hsome]

/-- A tick that the loop goes on from keeps the account. -/
theorem Accounted.processFrame_continues (hs : Accounted s) (hrunning : s.loop.isRunning = true)
    (hcontinue : (Dispatch.nextFrame fx s.loop faults).wantsContinue = true) :
    Accounted (processFrame fx s faults) ∧ (processFrame fx s faults).loop.isRunning = true ∧
      (processFrame fx s faults).loop.executor.currentNode.isSome = true := by
  have hcount := @getNextFrame_counted _ fx s.loop.executor s.loop.pcmBuffer faults hs.named
  have hbytes := hs.totalBytesSent hrunning
  have hloop : (processFrame fx s faults).loop =
      { s.loop with
        executor := { (Dispatch.nextFrame fx s.loop faults).executor with stats :=
          { (Dispatch.nextFrame fx s.loop faults).executor.stats with packetsSent :=
            (Dispatch.nextFrame fx s.loop faults).executor.stats.packetsSent + 1 } }
        pcmBuffer := (Dispatch.nextFrame fx s.loop faults).outputBuffer
        produced := s.loop.produced ++ Dispatch.produce fx s.loop
        sent := s.loop.sent ++ [(Dispatch.nextFrame fx s.loop faults).outputBuffer] } := by
    unfold processFrame Dispatch.processAndStreamSingleFrame
    dsimp only
    rw [if_neg (by rw [hcontinue]; nofun)]
  have hreported : (processFrame fx s faults).reported =
      if IsUnderrun fx s faults then s.reported + 1 else s.reported := rfl
  generalize processFrame fx s faults = t at hloop hreported ⊢
  change Counted s.loop.executor.stats (Dispatch.nextFrame fx s.loop faults) at hcount
  generalize hr : Dispatch.nextFrame fx s.loop faults = r at hcontinue hcount hloop
  have hunderrun : IsUnderrun fx s faults ↔ r.status.code = .underrun := by
    rw [IsUnderrun, hr]
  refine ⟨⟨?_, ?_, ?_, fun _ => ?_⟩, ?_, ?_⟩
  · rw [hloop]
    exact hcount.named
  · rw [hloop, List.length_append, List.length_singleton, hcount.packetsSent, hs.packetsSent]
  · rw [hloop]
    exact hcount.underruns.trans hs.underruns
  · rw [hloop, hreported, hcount.packetsSent]
    dsimp only
    by_cases hcode : r.status.code = .underrun
    · rw [if_pos (hunderrun.mpr hcode), hcount.underrun hcode]
      rw [Nat.mul_succ, Nat.mul_succ]
      omega
    · rw [if_neg (mt hunderrun.mp hcode), hcount.success hcontinue hcode]
      rw [Nat.mul_succ]
      omega
  · rw [hloop]
    exact hrunning
  · rw [hloop]
    exact hcount.current hcontinue

/-- The tick that ends the loop. -/
theorem Accounted.processFrame_stops (hs : Accounted s)
    (hstops : (Dispatch.nextFrame fx s.loop faults).wantsContinue = false) :
    Accounted (processFrame fx s faults) := by
  have hcount := @getNextFrame_counted _ fx s.loop.executor s.loop.pcmBuffer faults hs.named
  unfold processFrame Dispatch.processAndStreamSingleFrame
  dsimp only
  rw [if_pos hstops]
  refine ⟨hcount.named, ?_, hcount.underruns.trans hs.underruns, nofun⟩
  exact hcount.packetsSent.trans hs.packetsSent

/-- An update keeps the counters. -/
theorem Accounted.updateStatsIfNeeded (hs : Accounted s) :
    Accounted (updateStatsIfNeeded s now) := by
  unfold Stats.updateStatsIfNeeded
  split
  · exact ⟨hs.named, hs.packetsSent, hs.underruns, hs.totalBytesSent⟩
  · exact hs

/-- A coroutine renames no node. -/
theorem Named.task {loop loop' : Dispatch.State Shifter} (hnamed : Named loop.executor) {i : ℕ}
    {t : FileInputNode.Task} (hstep : Dispatch.step fx loop (.task i t) = some loop') :
    Named loop'.executor ∧ loop'.executor.stats = loop.executor.stats ∧
      loop'.sent = loop.sent ∧ loop'.isRunning = loop.isRunning := by
  obtain ⟨n, hrun, rfl⟩ := Option.map_eq_some_iff.mp hstep
  obtain ⟨handle, totalFrames, buffer, -, hn⟩ := FileInputNode.exists_runTask hrun
  have hid : n.base.id = (loop.executor.nodes.base (.fileInput i)).id := by
    rw [hn]
    rfl
  refine ⟨fun r hr => ?_, rfl, rfl, rfl⟩
  rw [Nodes.base_file, Nodes.update_component NodeBase.id hid]
  exact hnamed r hr

/-- Every step keeps the account. -/
theorem accounted_step {e : Event} (hs : Accounted s) (hstep : step fx s e = some s') :
    Accounted s' := by
  cases e with
  | frame faults now =>
    simp only [step] at hstep
    split at hstep
    · rename_i hrunning
      obtain rfl := Option.some.inj hstep
      unfold processAndStreamSingleFrame
      split
      · exact hs.processFrame_stops (by assumption)
      · rename_i hcontinue
        rw [Bool.not_eq_false] at hcontinue
        exact (hs.processFrame_continues hrunning hcontinue).1.updateStatsIfNeeded
    · cases hstep
  | wake now =>
    simp only [step] at hstep
    split at hstep
    · obtain rfl := Option.some.inj hstep
      exact ⟨hs.named, hs.packetsSent, hs.underruns, hs.totalBytesSent⟩
    · cases hstep
  | task i t =>
    obtain ⟨loop, hloop, rfl⟩ := Option.map_eq_some_iff.mp hstep
    obtain ⟨hnamed, hstats, hsent, hrunning⟩ := hs.named.task hloop
    refine ⟨hnamed, ?_, ?_, ?_⟩
    · rw [hstats, hsent]
      exact hs.packetsSent
    · rw [hstats]
      exact hs.underruns
    · rw [hstats, hrunning]
      exact hs.totalBytesSent

/-- The updates of a step: none, or the one of a tick that goes on when it is due. -/
theorem step_updates {e : Event} (hs : Accounted s) (hstep : step fx s e = some s') :
    (s'.updates = s.updates ∧ NoUnderrunAtUpdate fx s e) ∨
      ∃ u, s'.updates = s.updates ++ [u] ∧ (u.Consistent ↔ NoUnderrunAtUpdate fx s e) := by
  cases e with
  | frame faults now =>
    simp only [step] at hstep
    split at hstep
    · rename_i hrunning
      obtain rfl := Option.some.inj hstep
      unfold processAndStreamSingleFrame
      split
      · rename_i hstops
        refine .inl ⟨rfl, fun _ hcontinue => ?_⟩
        rw [hstops] at hcontinue
        cases hcontinue
      · rename_i hcontinue
        rw [Bool.not_eq_false] at hcontinue
        obtain ⟨haccount, hrunning', hcurrent⟩ := hs.processFrame_continues hrunning hcontinue
        unfold updateStatsIfNeeded
        split
        · rename_i hneeded
          refine .inr ⟨_, rfl, (consistent_iff_reported haccount hrunning' hcurrent).trans ?_⟩
          constructor
          · intro hzero _ _
            simp only [processFrame] at hzero
            split at hzero
            · cases hzero
            · exact ⟨hzero, by assumption⟩
          · intro hguard
            obtain ⟨hzero, hquiet⟩ := hguard hneeded hcontinue
            simp only [processFrame]
            rw [if_neg hquiet, hzero]
        · rename_i hneeded
          exact .inl ⟨rfl, fun hdue => absurd hdue hneeded⟩
    · cases hstep
  | wake now =>
    simp only [step] at hstep
    split at hstep
    · obtain rfl := Option.some.inj hstep
      exact .inl ⟨rfl, trivial⟩
    · cases hstep
  | task i t =>
    obtain ⟨loop, -, rfl⟩ := Option.map_eq_some_iff.mp hstep
    exact .inl ⟨rfl, trivial⟩

/-- From an account that is right, the updates of a run are if and only if none is
made after an underrun. -/
theorem Accounted.updates_of_run {s : State Shifter} (hs : Accounted s)
    (hfirst : ∀ u ∈ s.updates, u.Consistent) {es : List Event} {t : State Shifter}
    (hrun : runEvents (step fx) s es = some t) :
    (∀ u ∈ t.updates, u.Consistent) ↔ Meets (step fx) (NoUnderrunAtUpdate fx) s es := by
  have hinv : ∀ s e s', Accounted s → step fx s e = some s' → Accounted s' :=
    fun _ _ _ hi hstep => accounted_step hi hstep
  constructor
  · intro hall
    refine meets_of_not_bad (B := fun s => ∃ u ∈ s.updates, ¬u.Consistent) hinv
      (fun s e s' hi hnot hstep => ?_) (fun s e s' hi hbad hstep => ?_) hs hrun ?_
    · rcases step_updates hi hstep with ⟨-, hok⟩ | ⟨u, hupdates, hiff⟩
      · exact absurd hok hnot
      · refine ⟨u, ?_, mt hiff.mp hnot⟩
        rw [hupdates]
        exact List.mem_concat_self
    · obtain ⟨u, hu, hwrong⟩ := hbad
      refine ⟨u, ?_, hwrong⟩
      rcases step_updates hi hstep with ⟨hupdates, -⟩ | ⟨v, hupdates, -⟩ <;> rw [hupdates]
      · exact hu
      · exact List.mem_append_left _ hu
    · rintro ⟨u, hu, hwrong⟩
      exact hwrong (hall u hu)
  · intro hmeets
    refine (run_invariant (I := fun s => Accounted s ∧ ∀ u ∈ s.updates, u.Consistent)
      (fun s e s' hi hok hstep => ⟨hinv s e s' hi.1 hstep, fun u hu => ?_⟩) ⟨hs, hfirst⟩ hmeets
      hrun).2
    rcases step_updates hi.1 hstep with ⟨hupdates, -⟩ | ⟨v, hupdates, hiff⟩ <;>
      rw [hupdates] at hu
    · exact hi.2 u hu
    · rcases List.mem_append.mp hu with hold | hnew
      · exact hi.2 u hold
      · obtain rfl := List.mem_singleton.mp hnew
        exact hiff.mpr hok

end Loop

section Start

variable (graph : Infra.Graph) (disk : String → Option (List UInt8)) (shifter : Shifter)
  (totalBytesSent : ℕ) (reads : ℕ → Bool × Bool) (pcmBuffer : List UInt8) (hasObserver : Bool)
  (now : ℕ)

/-- `prepare` sets the bytes to zero and the id to that of the start node. -/
theorem accounted_begin :
    Accounted (begin graph disk shifter totalBytesSent reads pcmBuffer hasObserver now) where
  named := fun r hr => by
    change graph.startNode.bind (pointer graph) = some r at hr
    simp only [begin, startSession, AudioExecutor.prepare, hr, Option.elim_some]
  packetsSent := rfl
  underruns := rfl
  totalBytesSent := fun _ => rfl

/-- In every run of a session, every update tells what the run has done if and
only if none is made after an underrun. -/
theorem consistent_iff {es : List Event} {t : State Shifter}
    (hrun : runEvents (step fx)
      (begin graph disk shifter totalBytesSent reads pcmBuffer hasObserver now) es = some t) :
    (∀ u ∈ t.updates, u.Consistent) ↔ Meets (step fx) (NoUnderrunAtUpdate fx)
      (begin graph disk shifter totalBytesSent reads pcmBuffer hasObserver now) es := by
  have hstart := accounted_begin graph disk shifter totalBytesSent reads pcmBuffer hasObserver now
  refine hstart.updates_of_run ?_ hrun
  intro u hu
  cases hu

end Start

/-- The update of the first frame, on a delay that never ends. -/
theorem consistent_first_frame :
    ∃ t, runEvents (step Dispatch.idleOps) (begin (Dispatch.delayGraph 10) (fun _ => none) () 0
        (fun _ => (true, true)) (List.replicate FRAME_SIZE_BYTES 0) true 0)
          [.frame (fun _ => none) 200000000] = some t ∧
      t.updates.length = 1 ∧ ∀ u ∈ t.updates, u.Consistent :=
  ⟨_, rfl, by decide +kernel, (@consistent_iff _ Dispatch.idleOps (Dispatch.delayGraph 10)
    (fun _ => none) () 0 (fun _ => (true, true)) (List.replicate FRAME_SIZE_BYTES 0) true 0
    [.frame (fun _ => none) 200000000] _ rfl).mpr
      ⟨fun _ _ => ⟨rfl, by decide +kernel⟩, fun _ _ => trivial⟩⟩

section Underrun

variable {fx : FloatOps Unit} {n : FileInputNode Unit} {s : State Unit} {played : ℕ} {ready : Bool}

/-- A file of 410 frames before a call, with so many frames played since its last
`close`, none of them after a swap. -/
structure Reading (n : FileInputNode Unit) (played : ℕ) (ready : Bool) : Prop where
  /-- It has no options. -/
  options : n.options = none
  /-- It has the frames of two blocks. -/
  totalFrames : n.base.totalFrames = 410
  /-- It points to the delay. -/
  target : n.base.target = some (.delay 1)
  /-- So many frames have been played. -/
  processedFrames : n.base.processedFrames = played
  /-- So many have been taken from the block. -/
  taken : n.buffer.controller.inBufferProcessedFrames = played
  /-- Whether the other block is ready. -/
  ready : n.buffer.controller.bf.backBufferReady = ready

/-- A node in its first block has not ended. -/
theorem Reading.not_ended (h : Reading n played ready) (hplayed : played < 410) :
    ¬(n.base.processedFrames ≥ n.base.totalFrames ∧ n.base.totalFrames > 0) := by
  rintro ⟨hover, -⟩
  rw [h.totalFrames, h.processedFrames] at hover
  omega

/-- A frame of the block. -/
theorem Reading.processFrame (h : Reading n played ready) (hplayed : played < FRAMES_PER_BLOCK)
    (frameBuffer : List UInt8) :
    (n.processFrame fx.toEffects frameBuffer).result = .ok () ∧
      Reading (n.processFrame fx.toEffects frameBuffer).node (played + 1) ready := by
  have hblock : FRAMES_PER_BLOCK = 409 := by decide
  have hended := h.not_ended (by omega)
  have hfits : ¬n.buffer.controller.needsSwap 0 := by
    rw [needsSwap_iff_frames, h.taken]
    omega
  have hframe := AsyncBufferController.getFrame_of_fits hfits frameBuffer
  obtain ⟨hok, -⟩ := processFrame_of_fits fx.toEffects hended hfits frameBuffer
  have hbuffer := @processFrame_buffer _ fx.toEffects n hended frameBuffer
  have hoptions := (n.processFrame_frame fx.toEffects frameBuffer).2.1
  rcases (n.processFrame_base fx.toEffects frameBuffer).2 with ⟨-, hbase⟩ | ⟨⟨error, herror⟩, -⟩
  · refine ⟨hok, hoptions.trans h.options, ?_, ?_, ?_, ?_, ?_⟩
    · rw [hbase]
      exact h.totalFrames
    · rw [hbase]
      exact h.target
    · rw [hbase, h.processedFrames]
      rfl
    · rw [hbuffer]
      simp only [Buffering.getFrame, hframe, h.taken]
    · rw [hbuffer]
      simp only [Buffering.getFrame, hframe, h.ready]
  · cases hok.symm.trans herror

/-- The last frame is taken from the next block. -/
theorem Reading.last (h : Reading n FRAMES_PER_BLOCK true) (frameBuffer : List UInt8) :
    (n.processFrame fx.toEffects frameBuffer).result = .ok () ∧
      (n.processFrame fx.toEffects frameBuffer).node.base =
        { n.base with processedFrames := 410 } := by
  have hended := h.not_ended (by decide)
  have hswap : n.buffer.controller.needsSwap 0 := by
    rw [needsSwap_iff_frames, h.taken]
  have hframe := AsyncBufferController.getFrame_of_swap hswap h.ready frameBuffer
  have hok : (n.processFrame fx.toEffects frameBuffer).result = .ok () := by
    unfold FileInputNode.processFrame
    rw [if_neg hended]
    simp only [hframe]
  rcases (n.processFrame_base fx.toEffects frameBuffer).2 with ⟨-, hbase⟩ | ⟨⟨error, herror⟩, -⟩
  · refine ⟨hok, ?_⟩
    rw [hbase, h.processedFrames]
    rfl
  · cases hok.symm.trans herror

/-- Without that block it is an underrun. -/
theorem Reading.underrun (h : Reading n FRAMES_PER_BLOCK false) (frameBuffer : List UInt8) :
    (n.processFrame fx.toEffects frameBuffer).result = .error bufferUnderrun := by
  have hended := h.not_ended (by decide)
  have hswap : n.buffer.controller.needsSwap 0 := by
    rw [needsSwap_iff_frames, h.taken]
  unfold FileInputNode.processFrame
  rw [if_neg hended]
  simp only [AsyncBufferController.getFrame, if_pos hswap, h.ready, if_true]

/-- A delay of one frame before its frame, in a loop with a file. -/
structure Waiting (d : NodeBase) : Prop where
  /-- It lasts one frame. -/
  totalFrames : d.totalFrames = 1
  /-- It points to the file. -/
  target : d.target = some (.fileInput 0)
  /-- It has played nothing. -/
  processedFrames : d.processedFrames = 0

/-- An observed session at the start of its clock. -/
structure Silent (s : State Unit) : Prop where
  /-- The session runs. -/
  running : s.loop.isRunning = true
  /-- The buffer has the size of a frame. -/
  buffer : s.loop.pcmBuffer.length = FRAME_SIZE_BYTES
  /-- It has an observer. -/
  hasObserver : s.hasObserver = true
  /-- No statistics have been sent. -/
  lastStatsTime : s.lastStatsTime = 0

/-- The file is current. -/
structure OnFile (s : State Unit) (played : ℕ) (ready : Bool) : Prop extends Silent s where
  /-- The file is current. -/
  current : s.loop.executor.currentNode = some (.fileInput 0)
  /-- The file has played so many frames. -/
  file : Reading (s.loop.executor.nodes.files 0) played ready
  /-- The delay waits for its turn. -/
  delay : Waiting (s.loop.executor.nodes.delays 1).base

/-- A tick at the start of the clock makes no update. -/
theorem Silent.step_tick (h : Silent s) (faults : ℕ → Option String) :
    step fx s (.frame faults 0) = some (Stats.processFrame fx s faults) := by
  have hearly : ∀ t : State Unit, updateStatsIfNeeded t 0 = t := by
    intro t
    exact if_neg fun hneeded => absurd hneeded.2 (Nat.not_lt_zero _)
  simp only [step, h.running, if_true, processAndStreamSingleFrame, hearly, ite_self]

/-- The buffer is not empty. -/
theorem Silent.buffer_ne_nil (h : Silent s) : s.loop.pcmBuffer ≠ [] := by
  intro hempty
  have hlen := h.buffer
  rw [hempty] at hlen
  cases hlen

/-- A tick that the loop goes on from. -/
theorem Silent.continues (h : Silent s) {faults : ℕ → Option String}
    (hcontinue : (Dispatch.nextFrame fx s.loop faults).wantsContinue = true)
    (hlen : (Dispatch.nextFrame fx s.loop faults).outputBuffer.length = FRAME_SIZE_BYTES) :
    Silent (Stats.processFrame fx s faults) ∧
      (Stats.processFrame fx s faults).loop.executor.nodes =
        (Dispatch.nextFrame fx s.loop faults).executor.nodes ∧
      (Stats.processFrame fx s faults).loop.executor.currentNode =
        (Dispatch.nextFrame fx s.loop faults).executor.currentNode := by
  refine ⟨⟨?_, ?_, h.hasObserver, h.lastStatsTime⟩,
    Dispatch.processAndStreamSingleFrame_executor⟩
  · exact (Dispatch.isRunning_tick h.running).trans hcontinue
  · unfold Stats.processFrame Dispatch.processAndStreamSingleFrame
    dsimp only
    rw [if_neg (by rw [hcontinue]; nofun)]
    exact hlen

/-- A frame of the block. -/
theorem OnFile.tick (h : OnFile s played ready) (hplayed : played < FRAMES_PER_BLOCK)
    (faults : ℕ → Option String) : OnFile (Stats.processFrame fx s faults) (played + 1) ready := by
  have hblock : FRAMES_PER_BLOCK = 409 := by decide
  have hframe : (List.replicate s.loop.pcmBuffer.length (0 : UInt8)).length = FRAME_SIZE_BYTES := by
    rw [List.length_replicate, h.buffer]
  obtain ⟨hok, hreading⟩ := @Reading.processFrame fx _ _ _ h.file hplayed
    (List.replicate s.loop.pcmBuffer.length 0)
  have hlen := FileInputNode.length_processFrame fx.toEffects h.file.options hframe
  have hmore : ((s.loop.executor.nodes.processFrame fx (.fileInput 0)
      (List.replicate s.loop.pcmBuffer.length 0)).node.base (.fileInput 0)).isComplete = false := by
    simp only [Nodes.processFrame, Nodes.base, Function.update_self, NodeBase.isComplete,
      hreading.totalFrames, hreading.processedFrames]
    rw [Bool.and_eq_false_iff, decide_eq_false_iff_not, decide_eq_false_iff_not]
    omega
  have hnext := @Dispatch.nextFrame_of_incomplete _ fx _ faults _ h.buffer_ne_nil h.current _ rfl
    hok hmore
  obtain ⟨hsilent, hnodes, hcurrent⟩ := @Silent.continues fx _ h.toSilent faults (by rw [hnext])
    (by rw [hnext]; exact hlen)
  rw [hnext] at hnodes hcurrent
  refine ⟨hsilent, hcurrent, ?_, ?_⟩
  · rw [hnodes]
    simp only [Nodes.processFrame, Function.update_self]
    exact hreading
  · rw [hnodes]
    exact h.delay

/-- The frames of the block are played one after the other. -/
theorem OnFile.plays (h : OnFile s played ready) {calls : ℕ}
    (hcalls : played + calls ≤ FRAMES_PER_BLOCK) :
    ∃ t, runEvents (step fx) s (List.replicate calls (.frame (fun _ => none) 0)) = some t ∧
      OnFile t (played + calls) ready := by
  induction calls generalizing s played with
  | zero => exact ⟨s, rfl, h⟩
  | succ calls ih =>
    have hnext := @OnFile.tick fx _ _ _ h (by omega) fun _ => none
    obtain ⟨t, hrun, ht⟩ := ih hnext (by omega)
    rw [Nat.add_right_comm] at ht
    exact ⟨t, runEvents_cons_iff.mpr ⟨_, h.step_tick _, hrun⟩, ht⟩

/-- The delay is current, and the blocks of the file are empty. -/
structure OnDelay (s : State Unit) : Prop extends Silent s where
  /-- The delay is current. -/
  current : s.loop.executor.currentNode = some (.delay 1)
  /-- The file waits for its turn, with empty blocks. -/
  file : Reading (s.loop.executor.nodes.files 0) 0 false
  /-- The delay has played nothing. -/
  delay : Waiting (s.loop.executor.nodes.delays 1).base

/-- The last frame closes the file. -/
theorem OnFile.closes (h : OnFile s FRAMES_PER_BLOCK true) :
    OnDelay (Stats.processFrame fx s fun _ => none) := by
  have hframe : (List.replicate s.loop.pcmBuffer.length (0 : UInt8)).length = FRAME_SIZE_BYTES := by
    rw [List.length_replicate, h.buffer]
  obtain ⟨hok, hbase⟩ := @Reading.last fx _ h.file (List.replicate s.loop.pcmBuffer.length 0)
  have hlen := FileInputNode.length_processFrame fx.toEffects h.file.options hframe
  have hoptions := ((s.loop.executor.nodes.files 0).processFrame_frame fx.toEffects
    (List.replicate s.loop.pcmBuffer.length 0)).2.1
  have hcomplete : ((s.loop.executor.nodes.processFrame fx (.fileInput 0)
      (List.replicate s.loop.pcmBuffer.length 0)).node.base (.fileInput 0)).isComplete = true := by
    simp only [Nodes.processFrame, Nodes.base, Function.update_self, NodeBase.isComplete, hbase,
      h.file.totalFrames]
    decide
  obtain ⟨hnodes, htarget, hcontinue, -, hout⟩ := @Dispatch.nextFrame_of_closed _ fx _
    (fun _ => none) _ h.buffer_ne_nil h.current _ rfl hok hcomplete rfl
  generalize hn : ((s.loop.executor.nodes.files 0).processFrame fx.toEffects
    (List.replicate s.loop.pcmBuffer.length 0)).node = n at hbase hoptions
  have hfile : (Dispatch.nextFrame fx s.loop fun _ => none).executor.nodes.files 0 =
      (n.close fx.toEffects none).1 := by
    rw [hnodes, ← hn]
    simp only [Nodes.processFrame, Nodes.close, Function.update_self]
  have hnext : (Dispatch.nextFrame fx s.loop fun _ => none).executor.currentNode =
      some (.delay 1) := by
    rw [htarget, ← hnodes, Nodes.base, hfile]
    change n.base.target = _
    rw [hbase]
    exact h.file.target
  obtain ⟨hsilent, hnodes', hcurrent⟩ := @Silent.continues fx _ h.toSilent (fun _ => none)
    (by rw [hcontinue, hnext]; rfl) (by rw [hout]; exact hlen)
  refine ⟨hsilent, hcurrent.trans hnext, ?_, ?_⟩
  · rw [hnodes', hfile]
    refine ⟨hoptions.trans h.file.options, ?_, ?_, rfl, rfl, rfl⟩
    · change n.base.totalFrames = _
      rw [hbase]
      exact h.file.totalFrames
    · change n.base.target = _
      rw [hbase]
      exact h.file.target
  · rw [hnodes', hnodes]
    exact h.delay

/-- The frame of the delay leads back to the file. -/
theorem OnDelay.tick (h : OnDelay s) : OnFile (Stats.processFrame fx s fun _ => none) 0 false := by
  have hcomplete : ((s.loop.executor.nodes.processFrame fx (.delay 1)
      (List.replicate s.loop.pcmBuffer.length 0)).node.base (.delay 1)).isComplete = true := by
    simp only [Nodes.processFrame, Nodes.base, Function.update_self, NodeBase.isComplete,
      DelayNode.processFrame, h.delay.totalFrames, h.delay.processedFrames]
    decide
  obtain ⟨hnodes, htarget, hcontinue, -, hout⟩ := @Dispatch.nextFrame_of_closed _ fx _
    (fun _ => none) _ h.buffer_ne_nil h.current _ rfl rfl hcomplete rfl
  have hdelay : (Dispatch.nextFrame fx s.loop fun _ => none).executor.nodes.delays 1 =
      ((s.loop.executor.nodes.delays 1).processFrame
        (List.replicate s.loop.pcmBuffer.length 0)).node.close := by
    rw [hnodes]
    simp only [Nodes.processFrame, Nodes.close, Function.update_self]
  have hnext : (Dispatch.nextFrame fx s.loop fun _ => none).executor.currentNode =
      some (.fileInput 0) := by
    rw [htarget, ← hnodes, Nodes.base, hdelay]
    exact h.delay.target
  have hlen : (Dispatch.nextFrame fx s.loop fun _ => none).outputBuffer.length =
      FRAME_SIZE_BYTES := by
    rw [hout]
    simp only [Nodes.processFrame, DelayNode.processFrame, List.length_replicate]
    exact h.buffer
  obtain ⟨hsilent, hnodes', hcurrent⟩ := @Silent.continues fx _ h.toSilent (fun _ => none)
    (by rw [hcontinue, hnext]; rfl) hlen
  refine ⟨hsilent, hcurrent.trans hnext, ?_, ?_⟩
  · rw [hnodes', hnodes]
    exact h.file
  · rw [hnodes', hdelay]
    exact ⟨h.delay.totalFrames, h.delay.target, rfl⟩

/-- After the second pass through the block there is no block to swap to, and an
update that is due with the underrun is wrong. -/
theorem OnFile.underrun (h : OnFile s FRAMES_PER_BLOCK false) :
    ∃ t, step fx s (.frame (fun _ => none) 200000000) = some t ∧
      ¬NoUnderrunAtUpdate fx s (.frame (fun _ => none) 200000000) := by
  have hnext := @Dispatch.nextFrame_of_underrun _ fx _ (fun _ => none) _ h.buffer_ne_nil h.current _
    rfl (h.file.underrun _)
  refine ⟨_, if_pos h.running, fun hguard => ?_⟩
  have hneeded : UpdateNeeded s 200000000 := by
    refine ⟨h.hasObserver, ?_⟩
    rw [h.lastStatsTime]
    decide
  refine (hguard hneeded (by rw [hnext])).2 ?_
  rw [IsUnderrun, hnext]
  rfl

/-- The session of a file and a delay in a loop, on a disk with one file everywhere. -/
def fileLoopSession (graph : Infra.Graph) (file : List UInt8) : State Unit :=
  begin graph (fun _ => some file) () 0 (fun _ => (true, true)) (List.replicate FRAME_SIZE_BYTES 0)
    true 0

/-- It starts with the file. -/
theorem onFile_fileLoopSession {file : List UInt8} (htotal : totalFramesOf file = 410) :
    OnFile (fileLoopSession Infra.fileLoopGraph file) 0 true := by
  have hflagged := flagged_startSession Infra.fileLoopGraph (fun _ => some file) ()
    (SessionStats.create 0) (fun _ => (true, true)) (List.replicate FRAME_SIZE_BYTES 0)
  obtain ⟨flag, hflag⟩ := hflagged.files 0
  obtain ⟨flag', hflag'⟩ := hflagged.base (.delay 1)
  obtain ⟨-, hbase, first, second, hbuffer⟩ :=
    (unopened_createFileInput Infra.fileLoopGraph (fun _ => some file) () 0).initializeBuffers (true, true)
  have hframes : (createFileInput Infra.fileLoopGraph (fun _ => some file) () 0).openedFrames = 410 := by
    have hfile : (createFileInput Infra.fileLoopGraph (fun _ => some file) () 0).file = some file := rfl
    simp only [FileInputNode.openedFrames, hfile, htotal]
  have hdelay : Infra.delayFrames Infra.plainLibrary 20 = 1 := by decide +kernel
  have hfile : (fileLoopSession Infra.fileLoopGraph file).loop.executor.nodes.files 0 =
      ((createFileInput Infra.fileLoopGraph (fun _ => some file) () 0).initializeBuffers
        (true, true)).setInLoop flag := hflag
  refine ⟨⟨rfl, List.length_replicate, rfl, rfl⟩, rfl, ?_, ?_⟩
  · have hoptions : ((createFileInput Infra.fileLoopGraph (fun _ => some file) () 0).initializeBuffers
        (true, true)).options = none := rfl
    have htarget : (createFileInput Infra.fileLoopGraph (fun _ => some file) () 0).base.target =
        some (.delay 1) := rfl
    have hprocessed : (createFileInput Infra.fileLoopGraph (fun _ => some file) () 0).base.processedFrames =
        0 := rfl
    rw [hfile]
    generalize createFileInput Infra.fileLoopGraph (fun _ => some file) () 0 = n at *
    refine ⟨hoptions, ?_, ?_, ?_, ?_, ?_⟩ <;> simp only [FileInputNode.setInLoop, NodeBase.setInLoop]
    · rw [hbase]
      exact hframes
    · rw [hbase]
      exact htarget
    · rw [hbase]
      exact hprocessed
    · rw [hbuffer]
      rfl
    · rw [hbuffer]
      rfl
  · change Waiting ((startSession _ _ _ _ _ _).executor.nodes.base (.delay 1))
    rw [hflag']
    exact ⟨hdelay, rfl, rfl⟩

/-- A file of 410 frames in a loop with a delay: its second pass is not filled in
time, and the update after the underrun does not count it. -/
theorem not_consistent_underrun :
    ¬∀ (lib : Infra.Library) (o : Infra.JsonObject) (graph : Infra.Graph),
      Infra.parseGraph lib o = .ok graph → ∀ (es : List Event) (t : State Unit),
        runEvents (step Dispatch.idleOps)
          (fileLoopSession graph (List.replicate (410 * FRAME_SIZE_BYTES) 7)) es = some t →
            ∀ u ∈ t.updates, u.Consistent := by
  intro h
  have htotal := @totalFramesOf_replicate 410 (by decide) (by decide)
  generalize List.replicate (410 * FRAME_SIZE_BYTES) (7 : UInt8) = file at htotal h
  have hblock : 0 + 409 ≤ FRAMES_PER_BLOCK := by decide
  obtain ⟨s₁, hrun₁, h₁⟩ := @OnFile.plays Dispatch.idleOps _ _ _ (onFile_fileLoopSession htotal) _ hblock
  obtain ⟨s₂, hrun₂, h₂⟩ := @OnFile.plays Dispatch.idleOps _ _ _
    (@OnDelay.tick Dispatch.idleOps _ (@OnFile.closes Dispatch.idleOps _ h₁)) _ hblock
  obtain ⟨t, hlast, hnot⟩ := @OnFile.underrun Dispatch.idleOps _ h₂
  have hmiddle := runEvents_cons_iff.mpr ⟨_, h₁.step_tick fun _ => none,
    runEvents_cons_iff.mpr ⟨_, (@OnFile.closes Dispatch.idleOps _ h₁).step_tick fun _ => none, hrun₂⟩⟩
  have hrun := runEvents_append_iff.mpr ⟨s₁, hrun₁, runEvents_snoc hmiddle hlast⟩
  have hall := h _ _ _ Infra.parse_fileLoop _ t hrun
  have hstart : Accounted (fileLoopSession Infra.fileLoopGraph file) := accounted_begin _ _ _ _ _ _ _ _
  have hmeets := (hstart.updates_of_run (fun u hu => by cases hu) hrun).mp hall
  have hafter := (meets_append_iff.mp ((meets_append_iff.mp hmeets).2 s₁ hrun₁)).2 s₂ hmiddle
  exact hnot hafter.1

end Underrun

end HermesFlow.Audio.Stats
