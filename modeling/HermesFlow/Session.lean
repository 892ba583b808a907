import HermesFlow.EventRun

/-!
# The session coroutine and the calls that control it

One coroutine runs `Session::start`, `run_main_audio_loop` and, at its end,
`remove_session`. Other threads pause, resume and stop the session through
`ActiveSessions` while holding `mutex_`. Each event is one atomic access to a
shared flag, the channel or the timer, so every interleaving of the two sides
is an event list. What the executor, the timer and the I/O answer is part of
the event, and frame contents are left to the executor model.
-/

namespace HermesFlow.Session

open EventRun

/-- Where the coroutine spawned for a session stands. -/
inductive Pc where
  /-- Spawned; the first statement of `start` has not run. -/
  | spawned
  /-- Inside `initialize_graph_execution`, waiting for an I/O completion. -/
  | preparing
  /-- About to evaluate `while (is_running_)`. -/
  | testRunning
  /-- About to evaluate `if (is_paused_)`. -/
  | testPaused
  /-- Entered `wait_for_resume`; `async_receive` is not initiated yet. -/
  | receive
  /-- Suspended in `async_receive` on an empty channel. -/
  | waiting
  /-- The receive has completed and the coroutine is about to resume. -/
  | woken
  /-- Entered `wait_for_next_tick`; the timer is not armed yet. -/
  | arm
  /-- Suspended in `timer_.async_wait`. -/
  | timerWait
  /-- The wait has completed, with `operation_aborted` or without. -/
  | timerDone (aborted : Bool)
  /-- About to call `get_next_frame`. -/
  | processing
  /-- The executor wants to continue; `send_frame` is not called yet. -/
  | sending
  /-- The loop has returned or thrown; `is_running_ = false` comes next. -/
  | teardown
  /-- `start` has returned; the spawned lambda calls `remove_session`. -/
  | removing
  /-- The coroutine has finished. -/
  | done
  deriving DecidableEq

/-- The operation of another thread that holds `mutex_`. -/
inductive Holder where
  /-- Nobody holds the mutex. -/
  | none
  /-- `remove_session` is between the two statements of `stop`. -/
  | stopping
  /-- `resume_session` is between the flag and the `try_send`. -/
  | resuming
  deriving DecidableEq

/-- The session's shared fields and the position of its coroutine. -/
structure State where
  /-- `is_running_`. -/
  isRunning : Bool
  /-- `is_paused_`. -/
  isPaused : Bool
  /-- Whether the capacity-one `resume_channel_` buffers a token. -/
  token : Bool
  /-- The coroutine. -/
  pc : Pc
  /-- The operation inside `mutex_`. -/
  holder : Holder
  /-- Whether `sessions_` still has the session. -/
  registered : Bool
  deriving DecidableEq

/-- A registered session whose coroutine has just been spawned. -/
def initial : State := ⟨false, false, false, .spawned, .none, true⟩

/-- One atomic step of the coroutine, of a completion, or of another thread. -/
inductive Event where
  /-- First statement of `start`. -/
  | start
  /-- The I/O of `prepare` completes, with its result. -/
  | prepared (ok : Bool)
  /-- `while (is_running_)`. -/
  | testRunning
  /-- `if (is_paused_)`. -/
  | testPaused
  /-- `resume_channel_.async_receive`. -/
  | receive
  /-- The coroutine resumes from the receive and goes back to the loop test. -/
  | wake
  /-- `timer_.expires_at` and `timer_.async_wait`. -/
  | arm
  /-- The timer expires before anybody cancels the wait. -/
  | timerExpires
  /-- The coroutine resumes from the timer. -/
  | tick
  /-- `get_next_frame` returns; the flag is `executor_wants_continue`. -/
  | frame (wantsContinue : Bool)
  /-- `streamer_->send_frame`. -/
  | send
  /-- `is_running_ = false` and `finalize_session`. -/
  | teardown
  /-- The coroutine's own `remove_session`. -/
  | removeSelf
  /-- An exception inside the `try` block of `start`. -/
  | throws
  /-- `pause_session` on the registered session. -/
  | pause
  /-- `resume_session`: the test and store of `is_paused_`. -/
  | resumeFlag
  /-- `resume_session`: `resume_channel_.try_send`. -/
  | resumeSend
  /-- `remove_session` by a client: `is_running_ = false` in `stop`. -/
  | stopFlag
  /-- `remove_session` by a client: `timer_.cancel()` and the erase. -/
  | stopCancel
  deriving DecidableEq

/-- Whether the coroutine runs inside the `try` block of `start`. -/
def Pc.inTry : Pc → Bool
  | .spawned | .teardown | .removing | .done => false
  | _ => true

/-- `Session::start` up to its first suspension, inside `prepare`. -/
def start (s : State) : State := { s with isRunning := true, pc := .preparing }

/-- `resume_channel_.async_receive`: take the buffered token or suspend. -/
def asyncReceive (s : State) : State :=
  if s.token = true then { s with token := false, pc := .woken } else { s with pc := .waiting }

/-- `resume_channel_.try_send`: a suspended receiver gets the token at once,
otherwise one token is buffered and a second one is dropped. -/
def trySend (s : State) : State :=
  if s.pc = .waiting then { s with pc := .woken } else { s with token := true }

/-- `timer_.cancel()`: only a pending wait is aborted. -/
def timerCancel (s : State) : State :=
  if s.pc = .timerWait then { s with pc := .timerDone true } else s

/-- `Session::pause`. -/
def pause (s : State) : State := if s.isPaused = true then s else { s with isPaused := true }

/-- The step of one event; `none` when the event cannot happen now. -/
def step (s : State) : Event → Option State
  | .start => if s.pc = .spawned then some (start s) else none
  | .prepared ok =>
    if s.pc = .preparing then some { s with pc := if ok then .testRunning else .teardown }
    else none
  | .testRunning =>
    if s.pc = .testRunning then
      some { s with pc := if s.isRunning then .testPaused else .teardown }
    else none
  | .testPaused =>
    if s.pc = .testPaused then some { s with pc := if s.isPaused then .receive else .arm }
    else none
  | .receive => if s.pc = .receive then some (asyncReceive s) else none
  | .wake => if s.pc = .woken then some { s with pc := .testRunning } else none
  | .arm => if s.pc = .arm then some { s with pc := .timerWait } else none
  | .timerExpires => if s.pc = .timerWait then some { s with pc := .timerDone false } else none
  | .tick =>
    match s.pc with
    | .timerDone aborted => some { s with pc := if aborted then .teardown else .processing }
    | _ => none
  | .frame wantsContinue =>
    if s.pc = .processing then
      some { s with pc := if wantsContinue then .sending else .teardown }
    else none
  | .send => if s.pc = .sending then some { s with pc := .testRunning } else none
  | .teardown =>
    if s.pc = .teardown then some { s with isRunning := false, pc := .removing } else none
  | .removeSelf =>
    if s.pc = .removing ∧ s.holder = .none then
      -- if the session is still registered this calls `stop`, which stores the
      -- value `is_running_` has since the teardown and finds no pending wait
      some { s with registered := false, isRunning := false, pc := .done }
    else none
  | .throws => if s.pc.inTry = true then some { s with pc := .teardown } else none
  | .pause =>
    if s.registered = true ∧ s.holder = .none then some (pause s) else none
  | .resumeFlag =>
    if s.registered = true ∧ s.holder = .none then
      some (if s.isPaused = true then { s with isPaused := false, holder := .resuming } else s)
    else none
  | .resumeSend =>
    if s.holder = .resuming then some { trySend s with holder := .none } else none
  | .stopFlag =>
    if s.registered = true ∧ s.holder = .none then
      some { s with isRunning := false, holder := .stopping }
    else none
  | .stopCancel =>
    if s.holder = .stopping then
      some { timerCancel s with holder := .none, registered := false }
    else none

/-- `stop()` has been called on the session, by a client or by its coroutine. -/
def StopCalled (s : State) : Prop := s.holder = .stopping ∨ s.registered = false

instance (s : State) : Decidable (StopCalled s) := inferInstanceAs (Decidable (_ ∨ _))

/-- Whether the event hands a frame to `RTPStreamer::send_frame`. -/
def Event.isSend : Event → Bool
  | .send => true
  | _ => false

/-- Whether the event takes a frame from the executor. -/
def Event.isFrame : Event → Bool
  | .frame _ => true
  | _ => false

/-- The coroutine's own steps and the completions it may be suspended on. -/
def Event.isOwn : Event → Bool
  | .pause | .resumeFlag | .resumeSend | .stopFlag | .stopCancel | .throws => false
  | _ => true

/-- Every step with its branch resolved: the guard that held and the state left. -/
inductive Moves (s : State) : Event → State → Prop where
  | start (h : s.pc = .spawned) : Moves s .start { s with isRunning := true, pc := .preparing }
  | prepareOk (h : s.pc = .preparing) : Moves s (.prepared true) { s with pc := .testRunning }
  | prepareFails (h : s.pc = .preparing) : Moves s (.prepared false) { s with pc := .teardown }
  | loopGoesOn (h : s.pc = .testRunning) (hr : s.isRunning = true) :
      Moves s .testRunning { s with pc := .testPaused }
  | loopEnds (h : s.pc = .testRunning) (hr : s.isRunning = false) :
      Moves s .testRunning { s with pc := .teardown }
  | pauseSeen (h : s.pc = .testPaused) (hp : s.isPaused = true) :
      Moves s .testPaused { s with pc := .receive }
  | noPauseSeen (h : s.pc = .testPaused) (hp : s.isPaused = false) :
      Moves s .testPaused { s with pc := .arm }
  | takesToken (h : s.pc = .receive) (ht : s.token = true) :
      Moves s .receive { s with token := false, pc := .woken }
  | suspends (h : s.pc = .receive) (ht : s.token = false) :
      Moves s .receive { s with pc := .waiting }
  | wake (h : s.pc = .woken) : Moves s .wake { s with pc := .testRunning }
  | arm (h : s.pc = .arm) : Moves s .arm { s with pc := .timerWait }
  | timerExpires (h : s.pc = .timerWait) : Moves s .timerExpires { s with pc := .timerDone false }
  | tickAborted (h : s.pc = .timerDone true) : Moves s .tick { s with pc := .teardown }
  | tick (h : s.pc = .timerDone false) : Moves s .tick { s with pc := .processing }
  | frame (h : s.pc = .processing) : Moves s (.frame true) { s with pc := .sending }
  | lastFrame (h : s.pc = .processing) : Moves s (.frame false) { s with pc := .teardown }
  | send (h : s.pc = .sending) : Moves s .send { s with pc := .testRunning }
  | teardown (h : s.pc = .teardown) :
      Moves s .teardown { s with isRunning := false, pc := .removing }
  | removeSelf (h : s.pc = .removing) (hh : s.holder = .none) :
      Moves s .removeSelf { s with registered := false, isRunning := false, pc := .done }
  | throws (h : s.pc.inTry = true) : Moves s .throws { s with pc := .teardown }
  | pause (hreg : s.registered = true) (hh : s.holder = .none) :
      Moves s .pause { s with isPaused := true }
  | resumeFlag (hreg : s.registered = true) (hh : s.holder = .none) (hp : s.isPaused = true) :
      Moves s .resumeFlag { s with isPaused := false, holder := .resuming }
  | resumeIdle (hreg : s.registered = true) (hh : s.holder = .none) (hp : s.isPaused = false) :
      Moves s .resumeFlag s
  | resumeWakes (hh : s.holder = .resuming) (h : s.pc = .waiting) :
      Moves s .resumeSend { s with pc := .woken, holder := .none }
  | resumeBuffers (hh : s.holder = .resuming) (h : s.pc ≠ .waiting) :
      Moves s .resumeSend { s with token := true, holder := .none }
  | stopFlag (hreg : s.registered = true) (hh : s.holder = .none) :
      Moves s .stopFlag { s with isRunning := false, holder := .stopping }
  | stopAborts (hh : s.holder = .stopping) (h : s.pc = .timerWait) :
      Moves s .stopCancel { s with pc := .timerDone true, holder := .none, registered := false }
  | stopCancels (hh : s.holder = .stopping) (h : s.pc ≠ .timerWait) :
      Moves s .stopCancel { s with holder := .none, registered := false }

/-- The prepared graph decides whether the loop is entered. -/
theorem prepared_moves {s : State} (h : s.pc = .preparing) (ok : Bool) :
    Moves s (.prepared ok) { s with pc := if ok then .testRunning else .teardown } := by
  cases ok
  · exact .prepareFails h
  · exact .prepareOk h

/-- The test of the running flag. -/
theorem testRunning_moves {s : State} (h : s.pc = .testRunning) :
    Moves s .testRunning { s with pc := if s.isRunning then .testPaused else .teardown } := by
  split
  · exact .loopGoesOn h (by assumption)
  · exact .loopEnds h (Bool.eq_false_iff.mpr (by assumption))

/-- The test of the pause flag. -/
theorem testPaused_moves {s : State} (h : s.pc = .testPaused) :
    Moves s .testPaused { s with pc := if s.isPaused then .receive else .arm } := by
  split
  · exact .pauseSeen h (by assumption)
  · exact .noPauseSeen h (Bool.eq_false_iff.mpr (by assumption))

/-- The wait for the channel. -/
theorem receive_moves {s : State} (h : s.pc = .receive) : Moves s .receive (asyncReceive s) := by
  unfold asyncReceive
  split
  · exact .takesToken h (by assumption)
  · exact .suspends h (Bool.eq_false_iff.mpr (by assumption))

/-- A frame leads to the next tick or out of the loop. -/
theorem frame_moves {s : State} (h : s.pc = .processing) (wantsContinue : Bool) :
    Moves s (.frame wantsContinue)
      { s with pc := if wantsContinue then .sending else .teardown } := by
  cases wantsContinue
  · exact .lastFrame h
  · exact .frame h

/-- A pause sets its flag. -/
theorem pause_eq (s : State) : pause s = { s with isPaused := true } := by
  unfold pause
  split
  · obtain ⟨running, paused, token, pc, holder, registered⟩ := s
    simp_all
  · rfl

/-- A resume clears the flag of a paused session. -/
theorem resumeFlag_moves {s : State} (hreg : s.registered = true) (hh : s.holder = .none) :
    Moves s .resumeFlag
      (if s.isPaused = true then { s with isPaused := false, holder := .resuming } else s) := by
  split
  · exact .resumeFlag hreg hh (by assumption)
  · exact .resumeIdle hreg hh (Bool.eq_false_iff.mpr (by assumption))

/-- A resume sends through the channel. -/
theorem resumeSend_moves {s : State} (hh : s.holder = .resuming) :
    Moves s .resumeSend { trySend s with holder := .none } := by
  unfold trySend
  split
  · exact .resumeWakes hh (by assumption)
  · exact .resumeBuffers hh (by assumption)

/-- A stop cancels the timer. -/
theorem stopCancel_moves {s : State} (hh : s.holder = .stopping) :
    Moves s .stopCancel { timerCancel s with holder := .none, registered := false } := by
  unfold timerCancel
  split
  · exact .stopAborts hh (by assumption)
  · exact .stopCancels hh (by assumption)

/-- A step of the machine is one of the resolved steps. -/
theorem step_moves {s s' : State} {e : Event} (h : step s e = some s') : Moves s e s' := by
  cases e with
  | tick =>
    obtain ⟨running, paused, token, pc, holder, registered⟩ := s
    cases pc <;> simp only [step, Option.some.injEq, reduceCtorEq] at h
    rename_i aborted
    subst h
    cases aborted
    · exact .tick rfl
    · exact .tickAborted rfl
  | _ =>
    simp only [step, Option.ite_none_right_eq_some, Option.some.injEq] at h
    obtain ⟨hg, rfl⟩ := h
    first
    | exact .start hg
    | exact .wake hg
    | exact .arm hg
    | exact .timerExpires hg
    | exact .send hg
    | exact .teardown hg
    | exact .throws hg
    | exact .removeSelf hg.1 hg.2
    | exact .stopFlag hg.1 hg.2
    | exact prepared_moves hg _
    | exact testRunning_moves hg
    | exact testPaused_moves hg
    | exact receive_moves hg
    | exact frame_moves hg _
    | exact pause_eq s ▸ .pause hg.1 hg.2
    | exact resumeFlag_moves hg.1 hg.2
    | exact resumeSend_moves hg
    | exact stopCancel_moves hg

end HermesFlow.Session
