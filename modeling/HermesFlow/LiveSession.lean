import HermesFlow.SessionNotification
import HermesFlow.SessionPacing
import HermesFlow.SessionTimeline

/-!
# A session as a whole

The coroutine of a session, the flags that it shares with its callers, its
clocks, its executor with the refills of the files, its streamer and its
observer are one machine here. Its parts are the machines of the other modules:
each step is a step of the coroutine with its clocks and of the observed
session, and where the nodes are served the loop has played a prefix of the
timeline, whoever pauses, resumes or stops it in between.
-/

namespace HermesFlow.Live

open Audio EventRun
open Session (Pc)
open Session.Timed (UpdateNeeded phaseOf)

variable {Shifter : Type} {fx : FloatOps Shifter}

/-- A call of the observer, with its argument. -/
inductive Notification where
  /-- `on_stats_update`. -/
  | statsUpdate (stats : SessionStats)
  /-- `on_webrtc_request`. -/
  | webrtcRequest (port : UInt16)
  /-- `on_session_complete`. -/
  | sessionComplete
  /-- `on_error`. -/
  | error (message : String)

/-- A session and what it has done. -/
structure State (Shifter : Type) where
  /-- The coroutine, the fields it shares and its clocks. -/
  timed : Session.Timed.State
  /-- `graph_`. -/
  graph : Infra.Graph
  /-- `audio_executor_`. -/
  executor : AudioExecutor Shifter
  /-- `pcm_buffer`. -/
  pcmBuffer : List UInt8
  /-- `is_webrtc_`. -/
  isWebrtc : Bool
  /-- `janus_port_`. -/
  janusPort : Option UInt16
  /-- `exit_reason`. -/
  exitReason : NodeError
  /-- The frames that `send_frame` was called with. -/
  sent : List (List UInt8)
  /-- The calls of the observer. -/
  notifications : List Notification

/-- A step of the session, with what the parts that it calls return, or time that passes. -/
inductive Event where
  | passes (elapsed : ℕ)
  /-- `prepare` returns, after reads that succeed or fail. -/
  | prepared (result : Except ErrorInfo Unit) (reads : ℕ → Bool × Bool)
  /-- `get_next_frame`; with the errors of the file system if nodes are closed. -/
  | frame (faults : ℕ → Option String)
  /-- A coroutine of a file input node. -/
  | task (i : ℕ) (t : FileInputNode.Task)
  /-- Any other step of the coroutine or of a caller. -/
  | act (action : Session.Event)

/-- Call the observer, if there is one. -/
def State.notify (s : State Shifter) (calls : List Notification) : State Shifter :=
  if s.timed.hasObserver = true then { s with notifications := s.notifications ++ calls } else s

/-- What `configure_streamer_from_graph` tells the observer. -/
def configureStreamerFromGraph (s : State Shifter) : State Shifter :=
  if s.isWebrtc = true then s.notify (s.janusPort.map Notification.webrtcRequest).toList else s

/-- `initialize_graph_execution` returns; then `configure_streamer_from_graph`. -/
def prepared (s : State Shifter) (result : Except ErrorInfo Unit) (reads : ℕ → Bool × Bool) :
    State Shifter :=
  match result with
  | .ok () => configureStreamerFromGraph { s with executor := s.executor.prepare s.graph reads }
  | .error error =>
    { s.notify [.error ("Prep Failed: " ++ error.message)] with
      exitReason := { s.exitReason with code := .initializationFailed } }

/-- The call of `get_next_frame` at a tick. -/
def nextFrame (fx : FloatOps Shifter) (s : State Shifter) (faults : ℕ → Option String) :
    NextFrame Shifter :=
  s.executor.getNextFrame fx s.pcmBuffer faults

/-- `process_and_stream_single_frame` up to its control flow; a status that it returns ends the
loop. -/
def processFrame (s : State Shifter) (r : NextFrame Shifter) : State Shifter :=
  { s with
    executor := r.executor
    pcmBuffer := r.outputBuffer
    exitReason := if r.wantsContinue = true then s.exitReason else r.status }

/-- The count of a frame that has been sent. -/
def countPacket (executor : AudioExecutor Shifter) : AudioExecutor Shifter :=
  { executor with stats := { executor.stats with packetsSent := executor.stats.packetsSent + 1 } }

/-- The rest of `process_and_stream_single_frame`: the audio is dispatched, and the observer is
told if an update is due. -/
def dispatchAudio (s : State Shifter) : State Shifter :=
  let s := { s with
    sent := s.sent ++ [s.pcmBuffer]
    executor := countPacket s.executor }
  if UpdateNeeded s.timed then s.notify [.statsUpdate s.executor.stats] else s

/-- The report of `finalize_session`. -/
def finalizeSession (result : NodeError) : Notification :=
  if result.code ≠ .success then .error result.message else .sessionComplete

/-- What the other steps of the coroutine do. -/
def act (s : State Shifter) : Session.Event → State Shifter
  | .tick =>
    if s.timed.session.pc = .timerDone true then
      { s with exitReason := Session.Observed.timerAborted }
    else s
  | .send => dispatchAudio s
  | .throws => { s with exitReason := { s.exitReason with code := .internalError } }
  | .teardown => s.notify [finalizeSession s.exitReason]
  | _ => s

/-- `prepare` has not returned: its coroutines are part of it. -/
def Unprepared (s : State Shifter) : Prop :=
  s.timed.session.pc = .spawned ∨ s.timed.session.pc = .preparing

instance (s : State Shifter) : Decidable (Unprepared s) := inferInstanceAs (Decidable (_ ∨ _))

/-- The events of the coroutine and its clocks. -/
def timedEvents (fx : FloatOps Shifter) (s : State Shifter) : Event → List Session.Timed.Event
  | .passes elapsed => [.passes elapsed]
  | .prepared result _ => [.act (.prepared result.isOk)]
  | .frame faults => [.act (.frame (nextFrame fx s faults).wantsContinue)]
  | .task _ _ => []
  | .act action => [.act action]

/-- What an event does besides. -/
def effect (fx : FloatOps Shifter) (s : State Shifter) : Event → Option (State Shifter)
  | .passes _ => some s
  | .prepared result reads => some (prepared s result reads)
  | .frame faults => some (processFrame s (nextFrame fx s faults))
  | .task i t =>
    if Unprepared s then none
    else ((s.executor.nodes.files i).runTask t).map fun n =>
      { s with executor := { s.executor with nodes := { s.executor.nodes with
        files := Function.update s.executor.nodes.files i n } } }
  | .act (.prepared _) | .act (.frame _) => none
  | .act action => some (act s action)

/-- The step of one event. -/
def step (fx : FloatOps Shifter) (s : State Shifter) (e : Event) : Option (State Shifter) :=
  (runEvents Session.Timed.step s.timed (timedEvents fx s e)).bind fun timed =>
    (effect fx s e).map fun s' => { s' with timed := timed }

/-- A session whose coroutine has just been spawned. -/
def spawned (graph : Infra.Graph) (disk : String → Option (List UInt8)) (shifter : Shifter)
    (stats : SessionStats) (pcmBuffer : List UInt8) (isWebrtc : Bool) (janusPort : Option UInt16)
    (hasObserver : Bool) (now : ℕ) : State Shifter where
  timed := Session.Timed.initial hasObserver now
  graph := graph
  executor := AudioExecutor.create graph disk shifter stats
  pcmBuffer := pcmBuffer
  isWebrtc := isWebrtc
  janusPort := janusPort
  exitReason := ⟨.success, "", ""⟩
  sent := []
  notifications := []

/-- The steps of the coroutine and its callers that have no effect of their own. -/
def Plain (s : State Shifter) (action : Session.Event) : Prop :=
  action.isSend = false ∧ action.isFrame = false ∧ (∀ ok, action ≠ .prepared ok) ∧
    action ≠ .throws ∧ action ≠ .teardown ∧
    (action = .tick → s.timed.session.pc ≠ .timerDone true)

/-- Every effect, with its branch resolved. -/
inductive Effects (fx : FloatOps Shifter) (s : State Shifter) : Event → State Shifter → Prop where
  | passes (elapsed : ℕ) : Effects fx s (.passes elapsed) s
  | prepareOk (reads : ℕ → Bool × Bool) :
      Effects fx s (.prepared (.ok ()) reads)
        (configureStreamerFromGraph { s with executor := s.executor.prepare s.graph reads })
  | prepareFails (error : ErrorInfo) (reads : ℕ → Bool × Bool) :
      Effects fx s (.prepared (.error error) reads)
        { s.notify [.error ("Prep Failed: " ++ error.message)] with
          exitReason := { s.exitReason with code := .initializationFailed } }
  | frame (faults : ℕ → Option String) :
      Effects fx s (.frame faults) (processFrame s (nextFrame fx s faults))
  | task {i : ℕ} {t : FileInputNode.Task} {n : FileInputNode Shifter} (hprepared : ¬Unprepared s)
      (hrun : (s.executor.nodes.files i).runTask t = some n) :
      Effects fx s (.task i t)
        { s with executor := { s.executor with nodes := { s.executor.nodes with
          files := Function.update s.executor.nodes.files i n } } }
  | send : Effects fx s (.act .send) (dispatchAudio s)
  | tickAborted (hpc : s.timed.session.pc = .timerDone true) :
      Effects fx s (.act .tick) { s with exitReason := Session.Observed.timerAborted }
  | throws :
      Effects fx s (.act .throws)
        { s with exitReason := { s.exitReason with code := .internalError } }
  | teardown : Effects fx s (.act .teardown) (s.notify [finalizeSession s.exitReason])
  | plain {action : Session.Event} (hplain : Plain s action) :
      Effects fx s (.act action) s

section Step

variable {s s' : State Shifter} {e : Event}

/-- What an event changes is within its effects. -/
theorem effect_effects {m : State Shifter} (h : effect fx s e = some m) : Effects fx s e m := by
  cases e with
  | passes elapsed =>
    cases h
    exact .passes elapsed
  | prepared result reads =>
    cases h
    cases result with
    | ok => exact .prepareOk reads
    | error error => exact .prepareFails error reads
  | frame faults =>
    cases h
    exact .frame faults
  | task i t =>
    rw [effect] at h
    split at h
    · cases h
    · rename_i hprepared
      obtain ⟨n, hrun, rfl⟩ := Option.map_eq_some_iff.mp h
      exact .task hprepared hrun
  | act action =>
    cases action with
    | prepared | frame => cases h
    | send => cases h; exact .send
    | throws => cases h; exact .throws
    | teardown => cases h; exact .teardown
    | tick =>
      cases h
      rw [act]
      split
      · exact .tickAborted (by assumption)
      · exact .plain ⟨rfl, rfl, nofun, nofun, nofun, fun _ => by assumption⟩
    | _ =>
      cases h
      exact .plain ⟨rfl, rfl, nofun, nofun, nofun, nofun⟩

/-- A step is one of the coroutine with its clocks, and an effect. -/
theorem step_eq_some_iff :
    step fx s e = some s' ↔
      runEvents Session.Timed.step s.timed (timedEvents fx s e) = some s'.timed ∧
        ∃ m, effect fx s e = some m ∧ s' = { m with timed := s'.timed } := by
  simp only [step, Option.bind_eq_some_iff, Option.map_eq_some_iff]
  constructor
  · rintro ⟨timed, htimed, m, hm, rfl⟩
    exact ⟨htimed, m, hm, rfl⟩
  · rintro ⟨htimed, m, hm, hs'⟩
    exact ⟨s'.timed, htimed, m, hm, hs'.symm⟩

/-- Telling the observer sends nothing. -/
theorem notify_sent (s : State Shifter) (calls : List Notification) :
    (s.notify calls).sent = s.sent := by
  unfold State.notify
  split <;> rfl

/-- Telling the observer plays nothing. -/
theorem notify_executor (s : State Shifter) (calls : List Notification) :
    (s.notify calls).executor = s.executor := by
  unfold State.notify
  split <;> rfl

/-- Telling the observer adds the calls, if there is one. -/
theorem notify_notifications (s : State Shifter) (calls : List Notification) :
    (s.notify calls).notifications =
      s.notifications ++ if s.timed.hasObserver = true then calls else [] := by
  unfold State.notify
  split
  · rfl
  · rw [List.append_nil]

/-- The dispatch, with the calls of the observer. -/
theorem dispatchAudio_eq (s : State Shifter) :
    dispatchAudio s =
      { s with
        sent := s.sent ++ [s.pcmBuffer]
        executor := countPacket s.executor
        notifications := s.notifications ++
          if UpdateNeeded s.timed then [.statsUpdate (countPacket s.executor).stats] else [] } := by
  unfold dispatchAudio
  dsimp only
  by_cases hneeded : UpdateNeeded s.timed
  · rw [if_pos hneeded, if_pos hneeded, State.notify, if_pos hneeded.1]
  · rw [if_neg hneeded, if_neg hneeded, List.append_nil]

/-- The call of `configure_streamer_from_graph`, if it makes one. -/
def webrtcCall (s : State Shifter) : Option Notification :=
  if s.isWebrtc = true ∧ s.timed.hasObserver = true then s.janusPort.map .webrtcRequest else none

/-- Configuring the streamer only tells the observer. -/
theorem configureStreamerFromGraph_eq (s : State Shifter) :
    configureStreamerFromGraph s =
      { s with notifications := s.notifications ++ (webrtcCall s).toList } := by
  unfold configureStreamerFromGraph State.notify webrtcCall
  by_cases hwebrtc : s.isWebrtc = true
  · by_cases hobserver : s.timed.hasObserver = true
    · rw [if_pos hwebrtc, if_pos hobserver, if_pos ⟨hwebrtc, hobserver⟩]
    · rw [if_pos hwebrtc, if_neg hobserver, if_neg fun h => hobserver h.2, Option.toList_none,
        List.append_nil]
  · rw [if_neg hwebrtc, if_neg fun h => hwebrtc h.1, Option.toList_none, List.append_nil]

/-- The event hands a frame to `send_frame`. -/
def Event.isSend : Event → Bool
  | .act action => action.isSend
  | .passes _ | .prepared _ _ | .frame _ | .task _ _ => false

/-- Without clocks and effect it is a step of the coroutine. -/
theorem session_moves {action : Session.Event} {now later : Session.Timed.State}
    (h : runEvents Session.Timed.step now [.act action] = some later) :
    ∃ session, later.session = session ∧ Session.Moves now.session action session := by
  obtain ⟨_, hstep, hend⟩ := runEvents_cons_iff.mp h
  cases hend
  exact ⟨_, rfl, Session.step_moves (Session.Timed.session_step hstep)⟩

/-- A step without an effect of its own neither enters the loop nor starts or ends a dispatch. -/
theorem plain_moves {session session' : Session.State} {action : Session.Event}
    (hmoves : Session.Moves session action session') (hplain : Plain s action) :
    (phaseOf session'.pc ≠ .outside → phaseOf session.pc ≠ .outside) ∧
      (session'.pc = .sending ↔ session.pc = .sending) ∧
      (session'.pc = .spawned ∨ session'.pc = .preparing ↔
        session.pc = .spawned ∨ session.pc = .preparing) ∧
      (session'.pc = .removing ∨ session'.pc = .done ↔
        session.pc = .removing ∨ session.pc = .done) := by
  obtain ⟨hsend, hframe, hprepared, hthrows, hteardown, -⟩ := hplain
  cases hmoves with
  | send => cases hsend
  | frame | lastFrame => cases hframe
  | prepareOk | prepareFails => exact absurd rfl (hprepared _)
  | throws => exact absurd rfl hthrows
  | teardown => exact absurd rfl hteardown
  | pause | resumeFlag | resumeIdle | resumeBuffers | stopFlag | stopCancels =>
    exact ⟨id, Iff.rfl, Iff.rfl, Iff.rfl⟩
  | start hp | loopGoesOn hp | loopEnds hp | pauseSeen hp | noPauseSeen hp | takesToken hp
  | suspends hp | wake hp | arm hp | timerExpires hp | tickAborted hp | tick hp
  | removeSelf hp | resumeWakes _ hp | stopAborts _ hp =>
    simp [phaseOf, hp]

/-- Only a dispatch sends. -/
theorem effects_sent {m : State Shifter} (h : Effects fx s e m) :
    m.sent = s.sent ++ if e.isSend = true then [s.pcmBuffer] else [] := by
  cases h with
  | passes | frame | task | tickAborted | throws => exact (List.append_nil _).symm
  | prepareOk =>
    rw [configureStreamerFromGraph_eq]
    exact (List.append_nil _).symm
  | prepareFails | teardown => exact (notify_sent _ _).trans (List.append_nil _).symm
  | send =>
    rw [dispatchAudio_eq]
    rfl
  | plain hplain =>
    rw [Event.isSend, hplain.1, if_neg Bool.false_ne_true, List.append_nil]

/-- The coroutine takes the same frames. -/
theorem timedEvents_isSend (fx : FloatOps Shifter) (s : State Shifter) (e : Event) :
    (timedEvents fx s e).countP (·.isSend) = if e.isSend = true then 1 else 0 := by
  cases e with
  | act action => exact List.countP_singleton
  | passes | prepared | frame | task => rfl

/-- The time that an event lets pass while the loop plays. -/
def played (s : State Shifter) : Event → ℕ
  | .passes elapsed => if Session.Timed.Playing s.timed then elapsed else 0
  | .prepared _ _ | .frame _ | .task _ _ | .act _ => 0

/-- The time played is that of the timed events. -/
theorem playedTime_timedEvents (fx : FloatOps Shifter) (s : State Shifter) (e : Event) :
    Session.Timed.playedTime s.timed (timedEvents fx s e) = played s e := by
  cases e with
  | task => rfl
  | passes | prepared | frame | act => exact runTotal_singleton _ _ _

/-- The time for which the loop plays in a run. -/
def playedTime (fx : FloatOps Shifter) (s : State Shifter) (es : List Event) : ℕ :=
  runTotal (step fx) played s es

/-- The frames that have been sent are paid with the time that has been played. -/
theorem timeInHand_step (hs : Session.Timed.OnTime s.timed) (h : step fx s e = some s') :
    Session.Timed.OnTime s'.timed ∧
      Session.Timed.timeInHand s'.timed +
          Session.Timed.AUDIO_TICK_INTERVAL * s'.sent.length ≤
        Session.Timed.timeInHand s.timed +
          Session.Timed.AUDIO_TICK_INTERVAL * s.sent.length + played s e := by
  obtain ⟨htimed, m, heffect, hs'⟩ := step_eq_some_iff.mp h
  have hsent := effects_sent (effect_effects heffect)
  have honTime := run_invariant_of_step (fun _ _ _ => Session.Timed.onTime_step) hs htimed
  have hlength : s'.sent.length = s.sent.length + if e.isSend = true then 1 else 0 := by
    rw [hs', hsent, List.length_append]
    split <;> rfl
  have hpaid := Session.Timed.timeInHand_run hs htimed
  rw [timedEvents_isSend, playedTime_timedEvents] at hpaid
  refine ⟨honTime, ?_⟩
  rw [hlength, Nat.mul_add]
  omega

end Step

end HermesFlow.Live
