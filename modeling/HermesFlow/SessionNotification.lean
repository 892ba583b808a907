import HermesFlow.SessionStop
import HermesFlow.Types

/-!
# Notifications of a session

`start` keeps the reason for its end in `exit_reason` and reports it when the
coroutine tears down. A failed `prepare` has been reported by then and leaves no
message in `exit_reason`, and neither does an exception. A session that a stop
has left asleep reports nothing. In all other runs the observer receives one
terminal event, the last one, and it tells how the run ended.
-/

namespace HermesFlow.Session.Observed

open EventRun

/-- A call of the observer. -/
inductive Notification where
  /-- `on_stats_update`. -/
  | statsUpdate
  /-- `on_webrtc_request`. -/
  | webrtcRequest (port : ℕ)
  /-- `on_session_complete`. -/
  | sessionComplete
  /-- `on_error`. -/
  | error (message : String)
  deriving DecidableEq

/-- The call tells that the session is over. -/
def Notification.isTerminal : Notification → Bool
  | .statsUpdate | .webrtcRequest _ => false
  | .sessionComplete | .error _ => true

/-- What ended a run. -/
inductive Ending where
  /-- `stop`. -/
  | stopped
  /-- The natural end of the graph. -/
  | finished
  /-- A failure with a message. -/
  | failed (message : String)
  deriving DecidableEq

/-- The terminal event that an ending calls for. -/
def Ending.notification : Ending → Notification
  | .stopped | .finished => .sessionComplete
  | .failed message => .error message

/-- A session with an observer. -/
structure State where
  /-- The coroutine and the fields it shares. -/
  session : Session.State
  /-- `exit_reason`. -/
  exitReason : NodeError
  /-- What ended the run, once it has ended. -/
  ending : Option Ending
  /-- The calls of the observer. -/
  notifications : List Notification

/-- A registered session whose coroutine has just been spawned. -/
def initial : State := ⟨Session.initial, ⟨.success, "", ""⟩, none, []⟩

/-- A step of the session, with what the parts that it calls return. -/
structure Event where
  /-- The step of the session. -/
  action : Session.Event
  /-- The port of `on_webrtc_request`, if `configure_streamer_from_graph` calls it. -/
  webrtcPort : Option ℕ
  /-- The error of `prepare`, if it fails. -/
  prepareError : ErrorInfo
  /-- The status that `get_next_frame` returns. -/
  status : NodeError
  /-- `update_stats_if_needed` finds an update due. -/
  statsDue : Bool
  /-- The text of the exception, if one is thrown. -/
  what : String

/-- The report of `finalize_session`. -/
def finalizeSession (result : NodeError) : Notification :=
  if result.code ≠ .success then .error result.message else .sessionComplete

/-- Call the observer. -/
def State.notify (s : State) (notifications : List Notification) : State :=
  { s with notifications := s.notifications ++ notifications }

/-- The loop is left. -/
def State.ends (s : State) (ending : Ending) (exitReason : NodeError) : State :=
  { s with ending := some ending, exitReason := exitReason }

/-- `initialize_graph_execution` returns; then `configure_streamer_from_graph`. -/
def prepared (s : State) (e : Event) (ok : Bool) : State :=
  if ok then s.notify (e.webrtcPort.map Notification.webrtcRequest).toList
  else (s.notify [.error ("Prep Failed: " ++ e.prepareError.message)]).ends
    (.failed e.prepareError.message) { s.exitReason with code := .initializationFailed }

/-- The status of a cancelled timer. -/
def timerAborted : NodeError := ⟨.success, "Timer aborted manually", ""⟩

/-- The end of the run that a status is. -/
def endingOf (status : NodeError) : Ending :=
  if status.code = .success then .finished else .failed status.message

/-- What a step does to `exit_reason` and the observer. -/
def observe (s : State) (e : Event) : State :=
  match e.action with
  | .prepared ok => prepared s e ok
  | .testRunning => if s.session.isRunning = true then s else s.ends .stopped s.exitReason
  | .tick => if s.session.pc = .timerDone true then s.ends .stopped timerAborted else s
  | .frame wantsContinue => if wantsContinue then s else s.ends (endingOf e.status) e.status
  | .send => if e.statsDue then s.notify [.statsUpdate] else s
  | .throws => s.ends (.failed e.what) { s.exitReason with code := .internalError }
  | .teardown => s.notify [finalizeSession s.exitReason]
  | _ => s

/-- The step of one event. -/
def step (s : State) (e : Event) : Option State :=
  (Session.step s.session e.action).map fun session => { observe s e with session := session }

/-- The observer has received one terminal event, after all others, and it is the
one that the end of the run calls for. -/
def Notified (s : State) : Prop :=
  ∃ ending earlier, s.ending = some ending ∧
    (∀ n ∈ earlier, Notification.isTerminal n = false) ∧
    s.notifications = earlier ++ [ending.notification]

/-- `prepare` does not fail, and an exception has no text. -/
def Event.Reported (e : Event) : Prop :=
  match e.action with
  | .prepared ok => ok = true
  | .throws => e.what = ""
  | _ => True

instance (e : Event) : Decidable e.Reported := by
  unfold Event.Reported
  split <;> infer_instance

/-- `start` is past its loop. -/
def IsOver (s : State) : Prop :=
  s.session.pc = .teardown ∨ s.session.pc = .removing ∨ s.session.pc = .done

instance (s : State) : Decidable (IsOver s) := inferInstanceAs (Decidable (_ ∨ _ ∨ _))

/-- What the observer has received when the session is finalized. -/
def finalNotifications (s : State) : List Notification :=
  if s.session.pc = .teardown then s.notifications ++ [finalizeSession s.exitReason]
  else s.notifications

/-- The account given of a run that is over, with the report to come. -/
def Account (s : State) : Prop :=
  ∃ ending earlier, s.ending = some ending ∧
    (∀ n ∈ earlier, Notification.isTerminal n = false) ∧
    finalNotifications s = earlier ++ [ending.notification]

/-- The run goes on: nothing terminal has been reported. -/
structure Playing (s : State) : Prop where
  /-- Nothing terminal has been reported. -/
  quiet : ∀ n ∈ s.notifications, Notification.isTerminal n = false
  /-- No reason to end has been recorded. -/
  exitReason : s.exitReason = ⟨.success, "", ""⟩

section Step

variable {s s' : State} {e : Event}

/-- What a step is for the observer, by whether `start` is past its loop. -/
inductive Told (s : State) (e : Event) (s' : State) : Prop where
  /-- The run goes on. -/
  | playing (hs : ¬IsOver s) (hs' : ¬IsOver s') (hreported : e.Reported)
      (hkeeps : Playing s → Playing s')
  /-- The run ends. -/
  | ends (hs : ¬IsOver s) (hs' : IsOver s') (haccount : Playing s → (Account s' ↔ e.Reported))
  /-- The run has ended. -/
  | settled (hs : IsOver s) (hs' : IsOver s') (hreported : e.Reported)
      (haccount : Account s' ↔ Account s)

/-- Calls that are not terminal keep the run quiet. -/
theorem Playing.quiet_append (h : Playing s) {more : List Notification}
    (hmore : ∀ n ∈ more, Notification.isTerminal n = false) :
    ∀ n ∈ s.notifications ++ more, Notification.isTerminal n = false :=
  List.forall_mem_append.mpr ⟨h.quiet, hmore⟩

/-- A run in which nothing has been reported, and an end that is reported as it is. -/
theorem Playing.account (h : Playing s) {ending : Ending} (hpc : s'.session.pc = .teardown)
    (hending : s'.ending = some ending) (hsame : s'.notifications = s.notifications) :
    Account s' ↔ finalizeSession s'.exitReason = ending.notification := by
  have hfinal : finalNotifications s' = s.notifications ++ [finalizeSession s'.exitReason] := by
    rw [finalNotifications, if_pos hpc, hsame]
  constructor
  · rintro ⟨other, earlier, hother, -, hlast⟩
    obtain rfl := Option.some.inj (hending.symm.trans hother)
    rw [hfinal] at hlast
    exact List.singleton_injective (List.append_inj_right' hlast rfl)
  · intro hreport
    exact ⟨ending, s.notifications, hending, h.quiet, by rw [hfinal, hreport]⟩

/-- A terminal event before the last one is one too many. -/
theorem not_account {earlier : List Notification} {message : String}
    (hpc : s.session.pc = .teardown) (herror : s.notifications = earlier ++ [.error message]) :
    ¬Account s := by
  rintro ⟨ending, quiet, -, hquiet, hlast⟩
  rw [finalNotifications, if_pos hpc, herror] at hlast
  have hsame := List.append_inj_left' hlast rfl
  have hmem : Notification.error message ∈ quiet := by
    rw [← hsame]
    exact List.mem_concat_self
  exact absurd (hquiet _ hmem) nofun

/-- A status is reported as the end that it is. -/
theorem finalizeSession_endingOf (status : NodeError) :
    finalizeSession status = (endingOf status).notification := by
  unfold finalizeSession endingOf
  by_cases hcode : status.code = .success
  · rw [if_neg (not_not_intro hcode), if_pos hcode]
    rfl
  · rw [if_pos hcode, if_neg hcode]
    rfl

/-- An exception leaves no message. -/
theorem finalizeSession_throws (what : String) :
    finalizeSession ⟨.internalError, "", ""⟩ = (Ending.failed what).notification ↔ what = "" := by
  rw [finalizeSession, if_pos nofun, Ending.notification, Notification.error.injEq, eq_comm]

/-- Every other position of the loop is one of a run that goes on. -/
theorem not_isOver {pc : Pc} (hpc : s.session.pc = pc)
    (hgoes : ¬(pc = .teardown ∨ pc = .removing ∨ pc = .done)) : ¬IsOver s := by
  unfold IsOver
  rw [hpc]
  exact hgoes

/-- Another thread's step does not change whether the run is over. -/
theorem told_other {session : Session.State} (hreported : e.Reported)
    (hpc : session.pc = s.session.pc ∨
      ¬IsOver s ∧ ¬IsOver { s with session := session }) :
    Told s e { s with session := session } := by
  by_cases hover : IsOver s
  · obtain hsame | ⟨hnot, -⟩ := hpc
    · refine .settled hover ?_ hreported ?_
      · rw [IsOver, hsame]
        exact hover
      · simp only [Account, finalNotifications, hsame]
    · exact absurd hover hnot
  · refine .playing hover ?_ hreported fun h => ⟨h.quiet, h.exitReason⟩
    obtain hsame | ⟨-, hnot⟩ := hpc
    · rw [IsOver, hsame]
      exact hover
    · exact hnot

/-- A step of the loop of which the observer learns nothing. -/
theorem told_silent {session : Session.State} (hs : ¬IsOver s)
    (hs' : ¬IsOver { s with session := session }) (hreported : e.Reported)
    (hobserve : observe s e = s) : Told s e { observe s e with session := session } := by
  rw [hobserve]
  exact .playing hs hs' hreported fun h => ⟨h.quiet, h.exitReason⟩

/-- A step of the loop that is reported. -/
theorem told_report {session : Session.State} (more : List Notification) (hs : ¬IsOver s)
    (hs' : ¬IsOver { s with session := session }) (hreported : e.Reported)
    (hobserve : observe s e = s.notify more)
    (hmore : ∀ n ∈ more, Notification.isTerminal n = false) :
    Told s e { observe s e with session := session } := by
  rw [hobserve]
  exact .playing hs hs' hreported fun h => ⟨h.quiet_append hmore, h.exitReason⟩

/-- A step that leaves the loop with a reason. -/
theorem told_ends {session : Session.State} {ending : Ending} {exitReason : NodeError}
    (hs : ¬IsOver s) (hpc : session.pc = .teardown) (hobserve : observe s e = s.ends ending exitReason)
    (hreport : Playing s →
      (finalizeSession exitReason = ending.notification ↔ e.Reported)) :
    Told s e { observe s e with session := session } := by
  rw [hobserve]
  exact .ends hs (.inl hpc) fun h => Iff.trans (h.account hpc rfl rfl) (hreport h)

/-- A failed `prepare`: `on_error` has been called, and is called again. -/
theorem told_prepareFails {session : Session.State} (hs : ¬IsOver s)
    (hpc : session.pc = .teardown) (haction : e.action = .prepared false) :
    Told s e { observe s e with session := session } := by
  have hobserve : observe s e = prepared s e false := by rw [observe, haction]
  have hunreported : ¬e.Reported := by
    rw [Event.Reported, haction]
    nofun
  rw [hobserve]
  exact .ends hs (.inl hpc) fun _ => iff_of_false (not_account hpc rfl) hunreported

/-- `finalize_session` makes the report that was to come. -/
theorem told_teardown {session : Session.State} (hs : s.session.pc = .teardown)
    (hpc : session.pc = .removing) (haction : e.action = .teardown) :
    Told s e { observe s e with session := session } := by
  have hobserve : observe s e = s.notify [finalizeSession s.exitReason] := by
    rw [observe, haction]
  have hreported : e.Reported := by
    rw [Event.Reported, haction]
    trivial
  have hbefore : finalNotifications s = s.notifications ++ [finalizeSession s.exitReason] :=
    if_pos hs
  rw [hobserve]
  refine .settled (.inl hs) (.inr (.inl hpc)) hreported ?_
  have hafter : finalNotifications
      { s.notify [finalizeSession s.exitReason] with session := session } =
        s.notifications ++ [finalizeSession s.exitReason] := if_neg (by rw [hpc]; nofun)
  rw [Account, Account, hbefore, hafter]
  exact Iff.rfl

/-- The coroutine is removed after its last report. -/
theorem told_removeSelf {session : Session.State} (hs : s.session.pc = .removing)
    (hpc : session.pc = .done) (haction : e.action = .removeSelf) :
    Told s e { observe s e with session := session } := by
  have hobserve : observe s e = s := by rw [observe, haction]
  have hreported : e.Reported := by
    rw [Event.Reported, haction]
    trivial
  have hbefore : finalNotifications s = s.notifications := if_neg (by rw [hs]; nofun)
  rw [hobserve]
  refine .settled (.inr (.inl hs)) (.inr (.inr hpc)) hreported ?_
  have hafter : finalNotifications { s with session := session } = s.notifications :=
    if_neg (by rw [hpc]; nofun)
  rw [Account, Account, hbefore, hafter]

/-- One step tells what the session's move says. -/
theorem step_told (h : step s e = some s') : Told s e s' := by
  obtain ⟨session, hsession, rfl⟩ := Option.map_eq_some_iff.mp h
  have hmoves := Session.step_moves hsession
  obtain ⟨action, port, prepareError, status, due, what⟩ := e
  dsimp only at hmoves
  cases hmoves with
  | pause | resumeFlag | resumeIdle | resumeBuffers | stopFlag | stopCancels =>
    exact told_other trivial (.inl rfl)
  | resumeWakes _ hpc =>
    exact told_other trivial (.inr ⟨not_isOver hpc (by simp), not_isOver rfl (by simp)⟩)
  | stopAborts _ hpc =>
    exact told_other trivial (.inr ⟨not_isOver hpc (by simp), not_isOver rfl (by simp)⟩)
  | start hpc | pauseSeen hpc | noPauseSeen hpc | takesToken hpc | suspends hpc | wake hpc | arm hpc
  | timerExpires hpc | frame hpc =>
    exact told_silent (not_isOver hpc (by simp)) (not_isOver rfl (by simp)) trivial rfl
  | loopGoesOn hpc hrunning =>
    exact told_silent (not_isOver hpc (by simp)) (not_isOver rfl (by simp)) trivial
      (if_pos hrunning)
  | tick hpc =>
    exact told_silent (not_isOver hpc (by simp)) (not_isOver rfl (by simp)) trivial
      (if_neg (by rw [hpc]; nofun))
  | prepareOk hpc =>
    refine told_report (port.map Notification.webrtcRequest).toList
      (not_isOver hpc (by simp)) (not_isOver rfl (by simp)) rfl rfl fun n hn => ?_
    obtain ⟨_, -, rfl⟩ := Option.map_eq_some_iff.mp (Option.mem_toList.mp hn)
    rfl
  | send hpc =>
    cases due with
    | false => exact told_silent (not_isOver hpc (by simp)) (not_isOver rfl (by simp)) trivial rfl
    | true =>
      refine told_report [.statsUpdate] (not_isOver hpc (by simp))
        (not_isOver rfl (by simp)) trivial rfl fun n hn => ?_
      obtain rfl := List.mem_singleton.mp hn
      rfl
  | prepareFails hpc => exact told_prepareFails (not_isOver hpc (by simp)) rfl rfl
  | loopEnds hpc hrunning =>
    refine told_ends (not_isOver hpc (by simp)) rfl (if_neg (by rw [hrunning]; nofun)) fun h => ?_
    rw [h.exitReason]
    exact iff_of_true rfl trivial
  | tickAborted hpc =>
    exact told_ends (not_isOver hpc (by simp)) rfl (if_pos hpc) fun _ => iff_of_true rfl trivial
  | lastFrame hpc =>
    exact told_ends (not_isOver hpc (by simp)) rfl rfl
      fun _ => iff_of_true (finalizeSession_endingOf status) trivial
  | throws hpc =>
    refine told_ends ?_ rfl rfl fun h => ?_
    · rintro (hover | hover | hover) <;> rw [hover] at hpc <;> cases hpc
    · rw [h.exitReason]
      exact finalizeSession_throws what
  | teardown hpc => exact told_teardown hpc rfl rfl
  | removeSelf hpc _ => exact told_removeSelf hpc rfl rfl

/-- While the run goes on nothing terminal is reported. -/
theorem playing_step (hs : ¬IsOver s → Playing s) (h : step s e = some s') :
    ¬IsOver s' → Playing s' := by
  intro hnot
  cases step_told h with
  | playing hbefore _ _ hkeeps => exact hkeeps (hs hbefore)
  | ends _ hs' => exact absurd hs' hnot
  | settled _ hs' => exact absurd hs' hnot

end Step

/-- The account given of a run that is over is right if and only if `prepare` did
not fail and no exception with a text was thrown. -/
theorem account_iff {es : List Event} {t : State} (hrun : runEvents step initial es = some t)
    (hover : IsOver t) : Account t ↔ ∀ e ∈ es, e.Reported := by
  have hstart : ¬IsOver initial → Playing initial := fun _ => ⟨nofun, rfl⟩
  rw [← meets_events_iff hrun]
  constructor
  · intro haccount
    refine meets_of_not_bad (I := fun s => ¬IsOver s → Playing s) (B := fun s => IsOver s ∧ ¬Account s)
      (fun s e s' hs h => playing_step hs h) (fun s e s' hs hnot h => ?_) (fun s e s' hs hbad h => ?_)
      hstart hrun fun hbad => hbad.2 haccount
    · cases step_told h with
      | playing _ _ hreported => exact absurd hreported hnot
      | ends hbefore hs' hiff => exact ⟨hs', mt (hiff (hs hbefore)).mp hnot⟩
      | settled _ _ hreported => exact absurd hreported hnot
    · cases step_told h with
      | playing hbefore => exact absurd hbad.1 hbefore
      | ends hbefore => exact absurd hbad.1 hbefore
      | settled _ hs' _ hiff => exact ⟨hs', mt hiff.mp hbad.2⟩
  · intro hmeets
    refine (run_invariant (I := fun s => (¬IsOver s → Playing s) ∧ (IsOver s → Account s))
      (fun s e s' hs hreported h => ⟨playing_step hs.1 h, fun hover => ?_⟩)
      ⟨hstart, fun hover => absurd hover (by decide)⟩ hmeets hrun).2 hover
    cases step_told h with
    | playing _ hnot => exact absurd hover hnot
    | ends hbefore _ hiff => exact (hiff (hs.1 hbefore)).mpr hreported
    | settled hbefore _ _ hiff => exact hiff.mpr (hs.2 hbefore)

/-- When `start` has returned nothing is left to report. -/
theorem notified_iff_account {t : State}
    (hreturned : t.session.pc = .removing ∨ t.session.pc = .done) : Notified t ↔ Account t := by
  have hfinal : finalNotifications t = t.notifications := by
    refine if_neg fun hpc => ?_
    rw [hpc] at hreturned
    rcases hreturned with h | h <;> cases h
  rw [Notified, Account, hfinal]

/-- When `start` has returned, the observer has received exactly the terminal
event that the end of the run calls for, after all others, if and only if
`prepare` did not fail and no exception with a text was thrown. -/
theorem notified_returned_iff {es : List Event} {t : State}
    (hrun : runEvents step initial es = some t)
    (hreturned : t.session.pc = .removing ∨ t.session.pc = .done) :
    Notified t ↔ ∀ e ∈ es, e.Reported := by
  have hover : IsOver t := .inr hreturned
  exact (notified_iff_account hreturned).trans (account_iff hrun hover)

/-- Nothing happens any more: no step is left but an exception. -/
def Halted (s : State) : Prop := ∀ e : Event, e.action ≠ .throws → step s e = none

/-- A step at which nothing that is called says anything. -/
def silently (action : Session.Event) : Event :=
  ⟨action, none, ⟨.success, ""⟩, ⟨.success, "", ""⟩, false, ""⟩

/-- Then the session has no such step. -/
theorem Halted.session {s : State} (h : Halted s) {action : Session.Event}
    (haction : action ≠ .throws) : Session.step s.session action = none := by
  have hnone := h (silently action) haction
  exact Option.map_eq_none_iff.mp hnone

/-- A session that is removed and whose coroutine has finished. -/
theorem halted_of_done {s : State} (hpc : s.session.pc = .done)
    (hholder : s.session.holder = .none) (hregistered : s.session.registered = false) :
    Halted s := by
  rintro ⟨action, port, prepareError, status, due, what⟩ hthrows
  rw [step, Option.map_eq_none_iff]
  cases action with
  | throws => exact absurd rfl hthrows
  | _ => simp [Session.step, hpc, hholder, hregistered]

/-- Where nothing happens any more the coroutine has finished, or it sleeps on the empty
channel of a session that has been stopped. -/
theorem Halted.cases {s : State} (h : Halted s) :
    s.session.pc = .done ∨ s.session.pc = .waiting ∧ StopCalled s.session := by
  have hcalled : StopCalled s.session := by
    by_contra hnot
    obtain ⟨hstopping, hregistered⟩ := not_or.mp hnot
    have hregistered := Bool.of_not_eq_false hregistered
    cases hholder : s.session.holder with
    | none =>
      have hpause : Session.step s.session .pause = some (pause s.session) :=
        if_pos ⟨hregistered, hholder⟩
      have hnone : Session.step s.session .pause = none := h.session nofun
      rw [hnone] at hpause
      cases hpause
    | stopping => exact hstopping hholder
    | resuming =>
      have hsend : Session.step s.session .resumeSend =
          some { trySend s.session with holder := .none } := if_pos hholder
      have hnone : Session.step s.session .resumeSend = none := h.session nofun
      rw [hnone] at hsend
      cases hsend
  by_cases hdone : s.session.pc = .done
  · exact .inl hdone
  · refine .inr ⟨?_, hcalled⟩
    by_contra hawake
    have hsome : ∀ action, (Session.step s.session action).isSome = true → action = .throws := by
      intro action hstep
      by_contra hthrows
      rw [h.session hthrows] at hstep
      cases hstep
    rcases canAdvance_of_awake hdone hawake with ⟨action, hown, hstep⟩ | ⟨-, hstep | hstep⟩
    · obtain rfl := hsome action hstep
      cases hown
    · exact absurd (hsome _ hstep) nofun
    · exact absurd (hsome _ hstep) nofun

/-- Where no stop begins in a state that strands the session, nothing happens any more only
after the coroutine has finished. -/
theorem done_of_halted {es : List Event} {t : State}
    (hawake : Meets step (fun s e => StopsAwake s.session e.action) initial es)
    (hrun : runEvents step initial es = some t) (hhalted : Halted t) : t.session.pc = .done := by
  have hdrain : StopCalled t.session → Draining t.session := by
    refine run_invariant (I := fun s => StopCalled s.session → Draining s.session)
      (fun s e s' hs hok h => ?_) (fun hcalled => absurd hcalled (by decide)) hawake hrun
    obtain ⟨session, hsession, rfl⟩ := Option.map_eq_some_iff.mp h
    exact stopCalled_draining_step hs hok hsession
  rcases hhalted.cases with hdone | ⟨hasleep, hcalled⟩
  · exact hdone
  · exact absurd hasleep (hdrain hcalled).awake

/-- A session that sleeps has not told its observer that it is over. -/
theorem not_notified_of_waiting {es : List Event} {t : State}
    (hrun : runEvents step initial es = some t) (hasleep : t.session.pc = .waiting) :
    ¬Notified t := by
  have hplaying : ¬IsOver t → Playing t :=
    run_invariant_of_step (fun _ _ _ hs h => playing_step hs h)
      (fun _ => ⟨fun _ hn => absurd hn List.not_mem_nil, rfl⟩) hrun
  have hquiet := (hplaying (not_isOver hasleep (by simp))).quiet
  rintro ⟨ending, earlier, -, -, hlast⟩
  have hterminal := hquiet ending.notification (hlast ▸ List.mem_concat_self)
  cases ending <;> cases hterminal

/-- In a run whose stops strand nobody, when nothing happens any more the observer has
received exactly the terminal event that the end of the run calls for, after all others, if
and only if `prepare` did not fail and no exception with a text was thrown. -/
theorem notified_iff {es : List Event} {t : State}
    (hawake : Meets step (fun s e => StopsAwake s.session e.action) initial es)
    (hrun : runEvents step initial es = some t) (hhalted : Halted t) :
    Notified t ↔ ∀ e ∈ es, e.Reported :=
  notified_returned_iff hrun (.inr (done_of_halted hawake hrun hhalted))

/-- A session that plays a frame, is paused and resumed, and is stopped in its next wait, is
reported as complete. -/
theorem notified_stopped :
    ∃ t, runEvents step initial ([.start, .prepared true, .testRunning, .testPaused, .arm,
        .timerExpires, .tick, .frame true, .send, .pause, .testRunning, .testPaused, .receive,
        .resumeFlag, .resumeSend, .wake, .testRunning, .testPaused, .arm, .stopFlag, .stopCancel,
        .tick, .teardown, .removeSelf].map silently) = some t ∧
      t.notifications = [.sessionComplete] ∧ Notified t :=
  ⟨_, rfl, rfl, (@notified_iff ([.start, .prepared true, .testRunning, .testPaused, .arm,
    .timerExpires, .tick, .frame true, .send, .pause, .testRunning, .testPaused, .receive,
    .resumeFlag, .resumeSend, .wake, .testRunning, .testPaused, .arm, .stopFlag, .stopCancel,
    .tick, .teardown, .removeSelf].map silently) _ (by decide) rfl
    (halted_of_done rfl rfl rfl)).mpr (by decide)⟩

/-- The start of a session with a file that is not there and no storage to fetch it from. -/
def prepareFails : List Event :=
  [silently .start,
    { silently (.prepared false) with
      prepareError := ⟨.configError, "Missing S3 Configuration"⟩ },
    silently .teardown, silently .removeSelf]

/-- Its observer is told twice, and the second time nothing. -/
theorem not_notified_prepare :
    ¬∀ (es : List Event) (t : State), runEvents step initial es = some t → Halted t →
      Notified t := by
  intro h
  have hnotified := h prepareFails _ rfl (halted_of_done rfl rfl rfl)
  have hreported := (@notified_returned_iff prepareFails _ rfl (.inr rfl)).mp hnotified
  exact absurd hreported (by decide)

end HermesFlow.Session.Observed
