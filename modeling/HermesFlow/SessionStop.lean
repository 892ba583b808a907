import HermesFlow.Session

/-!
# Stopping a session

`stop` clears `is_running_` and cancels the timer. Both are lost when it runs
before the coroutine's first statement, and neither ends a wait for `resume`.
The conditions on the state in which `stop` begins are stated here, with what
a stopped coroutine can still do when they are met.
-/

namespace HermesFlow.Session

open EventRun

/-- `stop` has cleared the flag of a coroutine that will not set it again. -/
def Stopped (s : State) : Prop := s.isRunning = false ∧ s.pc ≠ .spawned

/-- No step sets the flag of a stopped session. -/
theorem stopped_step {s s' : State} {e : Event} (hs : Stopped s) (h : step s e = some s') :
    Stopped s' := by
  obtain ⟨hr, hpc⟩ := hs
  cases step_moves h with
  | start hp => exact absurd hp hpc
  | _ => first | exact ⟨hr, hpc⟩ | exact ⟨hr, nofun⟩ | exact ⟨rfl, hpc⟩ | exact ⟨rfl, nofun⟩

/-- Frames a stopped coroutine may still send before it reads `is_running_`. -/
def sendBudget (s : State) : ℕ :=
  match s.pc with
  | .testPaused | .arm | .timerWait | .timerDone _ | .processing | .sending => 1
  | _ => 0

/-- A stopped coroutine that comes back to the loop test leaves the loop. -/
theorem sendBudget_step {s s' : State} {e : Event} (hs : Stopped s) (h : step s e = some s') :
    sendBudget s' + (if e.isSend = true then 1 else 0) ≤ sendBudget s := by
  cases step_moves h with
  | start hp => exact absurd hp hs.2
  | loopGoesOn hp hr => exact absurd (hs.1.symm.trans hr) nofun
  | throws hp => exact Nat.zero_le _
  | pause | resumeFlag | resumeIdle | resumeBuffers | stopFlag | stopCancels =>
    exact Nat.le_refl _
  | prepareOk hp | prepareFails hp | loopEnds hp | pauseSeen hp | noPauseSeen hp | takesToken hp
  | suspends hp | wake hp | arm hp | timerExpires hp | tickAborted hp | tick hp | frame hp
  | lastFrame hp | send hp | teardown hp | removeSelf hp | resumeWakes _ hp | stopAborts _ hp =>
    simp only [sendBudget, hp, Event.isSend, Bool.false_eq_true, reduceIte, Nat.le_refl,
      Nat.zero_le, Nat.zero_add, Nat.add_zero]

/-- A stop that begins after the coroutine's first statement. -/
def StopsStarted (s : State) (e : Event) : Prop := e = .stopFlag → s.pc ≠ .spawned

instance (s : State) (e : Event) : Decidable (StopsStarted s e) :=
  inferInstanceAs (Decidable (_ → _))

/-- Where every stop finds a started coroutine, a stop leaves the session stopped. -/
theorem stopCalled_stopped_step {s s' : State} {e : Event} (hs : StopCalled s → Stopped s)
    (hok : StopsStarted s e) (h : step s e = some s') : StopCalled s' → Stopped s' := by
  intro hcalled
  by_cases hbefore : StopCalled s
  · exact stopped_step (hs hbefore) h
  · cases step_moves h with
    | stopFlag hreg hh => exact ⟨rfl, hok rfl⟩
    | removeSelf hp hh => exact ⟨rfl, nofun⟩
    | stopAborts hh | stopCancels hh => exact absurd (Or.inl hh) hbefore
    | resumeFlag | resumeWakes | resumeBuffers =>
      exact absurd (Or.inr (hcalled.resolve_left nofun)) hbefore
    | _ => exact absurd hcalled hbefore

/-- In runs whose stops find a started coroutine, at most one frame is sent
after `stop` has returned, and the flag stays false. -/
theorem stop_not_lost {es₁ es₂ : List Event} {s : State}
    (hmeets : Meets step StopsStarted initial (es₁ ++ .stopCancel :: es₂))
    (hrun : runEvents step initial (es₁ ++ .stopCancel :: es₂) = some s) :
    es₂.countP Event.isSend ≤ 1 ∧ s.isRunning = false := by
  obtain ⟨s₁, hrun₁, hrun'⟩ := runEvents_append_iff.mp hrun
  obtain ⟨s₂, hcancel, hrun₂⟩ := runEvents_cons_iff.mp hrun'
  have hcalled : StopCalled s₁ → Stopped s₁ :=
    run_invariant (fun _ _ _ => stopCalled_stopped_step)
      (fun h => absurd h (by decide)) (meets_append_iff.mp hmeets).1 hrun₁
  -- the cancel belongs to a call of `stop` whose store has been made
  have hstopping : s₁.holder = .stopping := by
    cases step_moves hcancel with
    | stopAborts hh | stopCancels hh => exact hh
  have hstopped : Stopped s₂ := stopped_step (hcalled (.inl hstopping)) hcancel
  have hbudget := run_count_le_budget sendBudget Event.isSend
    (fun s e s' (hs : Stopped s) _ h => ⟨stopped_step hs h, sendBudget_step hs h⟩) hstopped
    (meets_of_forall (fun _ _ => trivial) s₂ es₂ : Meets step (fun _ _ => True) s₂ es₂) hrun₂
  have hone : sendBudget s₂ ≤ 1 := by
    unfold sendBudget
    split <;> omega
  exact ⟨by omega, (run_invariant_of_step (fun _ _ _ => stopped_step) hstopped hrun₂).1⟩

/-- A stop between the loop test and the timer lets exactly that tick's frame out. -/
theorem stop_not_lost_in_tick :
    [Event.testPaused, .arm, .timerExpires, .tick, .frame true, .send, .testRunning].countP
        Event.isSend ≤ 1 ∧
      (⟨false, false, false, .teardown, .none, false⟩ : State).isRunning = false :=
  @stop_not_lost [.start, .prepared true, .testRunning, .stopFlag]
    [.testPaused, .arm, .timerExpires, .tick, .frame true, .send, .testRunning]
    ⟨false, false, false, .teardown, .none, false⟩ (by decide) rfl

/-- A stop before the first statement of `start` is overwritten: the session
goes on sending frames although `stop` has returned. -/
theorem stop_lost_before_start :
    ¬ ∀ (es₁ es₂ : List Event) (s : State),
      runEvents step initial (es₁ ++ .stopCancel :: es₂) = some s →
        es₂.countP Event.isSend ≤ 1 ∧ s.isRunning = false := by
  intro h
  have hlost := h [.stopFlag]
    [.start, .prepared true, .testRunning, .testPaused, .arm, .timerExpires, .tick, .frame true,
      .send, .testRunning, .testPaused, .arm, .timerExpires, .tick, .frame true, .send]
    ⟨true, false, false, .testRunning, .none, false⟩ rfl
  exact absurd hlost.2 (by decide)

/-- The states in which a stop leaves the coroutine asleep in `wait_for_resume`,
or on its way there, with nobody left to send the token. -/
def Strands (s : State) : Prop :=
  (s.pc = .spawned ∧ s.isPaused = true) ∨
  (s.pc = .testPaused ∧ s.isPaused = true ∧ s.token = false) ∨
  (s.pc = .receive ∧ s.token = false) ∨ s.pc = .waiting

instance (s : State) : Decidable (Strands s) :=
  inferInstanceAs (Decidable ((_ ∧ _) ∨ (_ ∧ _ ∧ _) ∨ (_ ∧ _) ∨ _))

/-- A stop that begins in a state it does not strand. -/
def StopsAwake (s : State) (e : Event) : Prop := e = .stopFlag → ¬Strands s

instance (s : State) (e : Event) : Decidable (StopsAwake s e) :=
  inferInstanceAs (Decidable (_ → _))

/-- After a stop: every wait the coroutine can still enter has its token, and a
pause that is left on is read by no further round of the loop. -/
structure Draining (s : State) : Prop where
  /-- The coroutine is not asleep on the channel. -/
  awake : s.pc ≠ .waiting
  /-- A receive about to start finds a token. -/
  receive : s.pc = .receive → s.token = true
  /-- So does one that the pause test is about to enter. -/
  testPaused : s.pc = .testPaused → s.isPaused = true → s.token = true
  /-- A session stopped while paused leaves its loop at the next test. -/
  paused : s.isPaused = true → s.pc ≠ .spawned ∧ s.isRunning = false

/-- Once the session is unregistered or being stopped, only its coroutine and
the stop itself take steps, and these keep it draining. -/
theorem draining_step {s s' : State} {e : Event} (hcalled : StopCalled s) (hs : Draining s)
    (h : step s e = some s') : Draining s' := by
  cases step_moves h with
  | pause hreg hh | resumeFlag hreg hh | resumeIdle hreg hh | stopFlag hreg hh =>
    rcases hcalled with hstop | hunreg
    · exact absurd (hh.symm.trans hstop) nofun
    · exact absurd (hreg.symm.trans hunreg) nofun
  | start hp =>
    have hnp : s.isPaused ≠ true := fun hpaused => (hs.paused hpaused).1 hp
    exact ⟨nofun, nofun, nofun, fun hpaused => absurd hpaused hnp⟩
  | loopGoesOn hp hr =>
    refine ⟨nofun, nofun, fun _ hpaused => ?_, fun hpaused => ⟨nofun, (hs.paused hpaused).2⟩⟩
    exact absurd (hr.symm.trans (hs.paused hpaused).2) nofun
  | pauseSeen hp hpaused =>
    exact ⟨nofun, fun _ => hs.testPaused hp hpaused, nofun, fun hq => ⟨nofun, (hs.paused hq).2⟩⟩
  | suspends hp ht => exact absurd ((hs.receive hp).symm.trans ht) nofun
  | resumeWakes hh hp => exact absurd hp hs.awake
  | resumeBuffers hh hp => exact ⟨hp, fun _ => rfl, fun _ _ => rfl, hs.paused⟩
  | stopCancels hh hp => exact ⟨hs.awake, hs.receive, hs.testPaused, hs.paused⟩
  | teardown hp | removeSelf hp hh => exact ⟨nofun, nofun, nofun, fun _ => ⟨nofun, rfl⟩⟩
  | _ => exact ⟨nofun, nofun, nofun, fun hpaused => ⟨nofun, (hs.paused hpaused).2⟩⟩

/-- Where no stop strands the session, a stopped session drains. -/
theorem stopCalled_draining_step {s s' : State} {e : Event} (hs : StopCalled s → Draining s)
    (hok : StopsAwake s e) (h : step s e = some s') : StopCalled s' → Draining s' := by
  intro hcalled
  by_cases hbefore : StopCalled s
  · exact draining_step hbefore (hs hbefore) h
  · cases step_moves h with
    | stopFlag hreg hh =>
      have hstrands := hok rfl
      simp only [Strands, not_or, not_and, Bool.not_eq_false] at hstrands
      obtain ⟨hspawned, htest, hreceive, hwaiting⟩ := hstrands
      exact ⟨hwaiting, hreceive, htest, fun hpaused => ⟨fun hp => hspawned hp hpaused, rfl⟩⟩
    | removeSelf hp hh => exact ⟨nofun, nofun, nofun, fun _ => ⟨nofun, rfl⟩⟩
    | stopAborts hh | stopCancels hh => exact absurd (Or.inl hh) hbefore
    | resumeFlag | resumeWakes | resumeBuffers =>
      exact absurd (Or.inr (hcalled.resolve_left nofun)) hbefore
    | _ => exact absurd hcalled hbefore

/-- The coroutine has an enabled step or a completion that will resume it; in
its own `remove_session` it may wait for the thread that holds `mutex_`. -/
def CanAdvance (s : State) : Prop :=
  (∃ e, e.isOwn = true ∧ (step s e).isSome = true) ∨
    (s.pc = .removing ∧ ((step s .resumeSend).isSome = true ∨ (step s .stopCancel).isSome = true))

/-- The coroutine reaches its end by its own steps and the rest of a stop. -/
def CanFinish (s : State) : Prop :=
  ∃ es t, (∀ e ∈ es, e.isOwn = true ∨ e = .stopCancel) ∧ runEvents step s es = some t ∧
    t.pc = .done

/-- Every program point but the wait for a token offers a step. -/
theorem canAdvance_of_awake {s : State} (hpc : s.pc ≠ .done) (hawake : s.pc ≠ .waiting) :
    CanAdvance s := by
  cases hp : s.pc with
  | spawned => exact .inl ⟨.start, rfl, by simp [step, hp]⟩
  | preparing => exact .inl ⟨.prepared true, rfl, by simp [step, hp]⟩
  | testRunning => exact .inl ⟨.testRunning, rfl, by simp [step, hp]⟩
  | testPaused => exact .inl ⟨.testPaused, rfl, by simp [step, hp]⟩
  | receive => exact .inl ⟨.receive, rfl, by simp [step, hp]⟩
  | waiting => exact absurd hp hawake
  | woken => exact .inl ⟨.wake, rfl, by simp [step, hp]⟩
  | arm => exact .inl ⟨.arm, rfl, by simp [step, hp]⟩
  | timerWait => exact .inl ⟨.timerExpires, rfl, by simp [step, hp]⟩
  | timerDone aborted => exact .inl ⟨.tick, rfl, by simp [step, hp]⟩
  | processing => exact .inl ⟨.frame true, rfl, by simp [step, hp]⟩
  | sending => exact .inl ⟨.send, rfl, by simp [step, hp]⟩
  | teardown => exact .inl ⟨.teardown, rfl, by simp [step, hp]⟩
  | removing =>
    cases hh : s.holder with
    | none => exact .inl ⟨.removeSelf, rfl, by simp [step, hp, hh]⟩
    | stopping => exact .inr ⟨hp, .inr (by simp [step, hh])⟩
    | resuming => exact .inr ⟨hp, .inl (by simp [step, hh])⟩
  | done => exact absurd hp hpc

/-- Own steps left on the shortest way to the end of the coroutine. -/
def exitRank (s : State) : ℕ :=
  match s.pc with
  | .done => 0
  | .removing => 1
  | .teardown => 2
  | .preparing | .processing => 3
  | .spawned | .timerDone _ => 4
  | .timerWait => 5
  | .arm => 6
  | .testPaused => if s.isPaused then 11 else 7
  | .testRunning => 8
  | .woken | .sending => 9
  | .receive => 10
  | .waiting => 12

/-- A draining coroutine has an own step that brings it closer to its end. -/
theorem draining_advances {s : State} (hs : Draining s) (hh : s.holder = .none)
    (hpc : s.pc ≠ .done) :
    ∃ e s', e.isOwn = true ∧ step s e = some s' ∧ s'.holder = .none ∧
      exitRank s' < exitRank s := by
  cases hp : s.pc with
  | spawned => exact ⟨.start, _, rfl, if_pos hp, hh, by simp [exitRank, hp, start]⟩
  | preparing => exact ⟨.prepared false, _, rfl, if_pos hp, hh, by simp [exitRank, hp]⟩
  | testRunning =>
    refine ⟨.testRunning, _, rfl, if_pos hp, hh, ?_⟩
    cases hr : s.isRunning with
    | false => simp [exitRank, hp]
    | true =>
      have hpaused : s.isPaused = false := by
        by_contra hpaused
        exact absurd (hr.symm.trans (hs.paused (by simpa using hpaused)).2) nofun
      simp [exitRank, hp, hpaused]
  | testPaused =>
    refine ⟨.testPaused, _, rfl, if_pos hp, hh, ?_⟩
    cases hpaused : s.isPaused <;> simp [exitRank, hp, hpaused]
  | receive =>
    refine ⟨.receive, _, rfl, if_pos hp, ?_, ?_⟩ <;>
      simp [asyncReceive, hs.receive hp, hh, exitRank, hp]
  | waiting => exact absurd hp hs.awake
  | woken => exact ⟨.wake, _, rfl, if_pos hp, hh, by simp [exitRank, hp]⟩
  | arm => exact ⟨.arm, _, rfl, if_pos hp, hh, by simp [exitRank, hp]⟩
  | timerWait => exact ⟨.timerExpires, _, rfl, if_pos hp, hh, by simp [exitRank, hp]⟩
  | timerDone aborted =>
    refine ⟨.tick, { s with pc := if aborted then .teardown else .processing }, rfl, ?_, hh, ?_⟩
    · simp only [step, hp]
    · cases aborted <;> simp [exitRank, hp]
  | processing => exact ⟨.frame false, _, rfl, if_pos hp, hh, by simp [exitRank, hp]⟩
  | sending => exact ⟨.send, _, rfl, if_pos hp, hh, by simp [exitRank, hp]⟩
  | teardown => exact ⟨.teardown, _, rfl, if_pos hp, hh, by simp [exitRank, hp]⟩
  | removing => exact ⟨.removeSelf, _, rfl, if_pos ⟨hp, hh⟩, hh, by simp [exitRank, hp]⟩
  | done => exact absurd hp hpc

/-- No step registers a session again. -/
theorem unregistered_step {s s' : State} {e : Event} (hreg : s.registered = false)
    (h : step s e = some s') : s'.registered = false := by
  cases step_moves h <;> first | exact hreg | rfl

/-- An unregistered draining session is never asleep for good. -/
theorem canFinish_of_draining {s : State} (hreg : s.registered = false) (hh : s.holder = .none)
    (hs : Draining s) : CanFinish s := by
  induction hn : exitRank s using Nat.strong_induction_on generalizing s with
  | _ n ih =>
    by_cases hpc : s.pc = .done
    · exact ⟨[], s, by simp, rfl, hpc⟩
    · obtain ⟨e, s', hown, hstep, hh', hlt⟩ := draining_advances hs hh hpc
      have hs' : Draining s' := draining_step (.inr hreg) hs hstep
      have hreg' : s'.registered = false := unregistered_step hreg hstep
      obtain ⟨es, t, hes, hrun, ht⟩ := ih (exitRank s') (hn ▸ hlt) hreg' hh' hs' rfl
      refine ⟨e :: es, t, ?_, runEvents_cons_iff.mpr ⟨s', hstep, hrun⟩, ht⟩
      exact List.forall_mem_cons.mpr ⟨.inl hown, hes⟩

/-- The coroutine's steps include nothing else before the stop is complete. -/
theorem canFinish_of_stopCalled {s : State} (hcalled : StopCalled s) (hs : Draining s)
    (hh : s.holder ≠ .resuming) : CanFinish s := by
  cases hholder : s.holder with
  | resuming => exact absurd hholder hh
  | none =>
    have hunreg : s.registered = false := hcalled.resolve_left (by simp [hholder])
    exact canFinish_of_draining hunreg hholder hs
  | stopping =>
    have hcancel : step s .stopCancel =
        some { timerCancel s with holder := .none, registered := false } := if_pos hholder
    obtain ⟨es, t, hes, hrun, ht⟩ :=
      canFinish_of_draining rfl rfl (draining_step hcalled hs hcancel)
    refine ⟨.stopCancel :: es, t, ?_, runEvents_cons_iff.mpr ⟨_, hcancel, hrun⟩, ht⟩
    exact List.forall_mem_cons.mpr ⟨.inr rfl, hes⟩

/-- A resume in progress has found its session registered and unstopped. -/
theorem resuming_step {s s' : State} {e : Event}
    (hs : s.holder = .resuming → s.registered = true) (h : step s e = some s') :
    s'.holder = .resuming → s'.registered = true := by
  cases step_moves h with
  | removeSelf hp hh => exact fun hres => absurd (hh.symm.trans hres) nofun
  | resumeFlag hreg hh hp => exact fun _ => hreg
  | resumeWakes | resumeBuffers | stopFlag | stopAborts | stopCancels => exact nofun
  | _ => exact hs

/-- Where no stop begins in a stranding state, a session whose stop has been
called is never asleep on the empty channel, can always go on and can finish. -/
theorem stop_strands_nobody {es : List Event} {s : State}
    (hmeets : Meets step StopsAwake initial es) (hrun : runEvents step initial es = some s)
    (hcalled : StopCalled s) (hpc : s.pc ≠ .done) :
    s.pc ≠ .waiting ∧ CanAdvance s ∧ CanFinish s := by
  have hdrain : StopCalled s → Draining s :=
    run_invariant (fun _ _ _ => stopCalled_draining_step)
      (fun h => absurd h (by decide)) hmeets hrun
  have hresume : s.holder = .resuming → s.registered = true :=
    run_invariant_of_step (fun _ _ _ => resuming_step) (fun h => absurd h (by decide)) hrun
  have hs : Draining s := hdrain hcalled
  refine ⟨hs.awake, canAdvance_of_awake hpc hs.awake, canFinish_of_stopCalled hcalled hs ?_⟩
  intro hres
  rcases hcalled with hstop | hunreg
  · exact absurd (hres.symm.trans hstop) nofun
  · exact absurd ((hresume hres).symm.trans hunreg) nofun

/-- A paused session stopped during its last tick still reads the stop. -/
theorem stop_strands_nobody_in_tick :
    (⟨false, true, false, .timerDone true, .none, false⟩ : State).pc ≠ .waiting ∧
      CanAdvance ⟨false, true, false, .timerDone true, .none, false⟩ ∧
      CanFinish ⟨false, true, false, .timerDone true, .none, false⟩ :=
  @stop_strands_nobody
    [.start, .prepared true, .testRunning, .testPaused, .arm, .pause, .stopFlag, .stopCancel]
    ⟨false, true, false, .timerDone true, .none, false⟩ (by decide) rfl (by decide) nofun

/-- A stop of a paused session whose coroutine sleeps in `wait_for_resume`
leaves it there, suspended on the empty channel. -/
theorem stop_strands_paused :
    ¬ ∀ (es : List Event) (s : State), runEvents step initial es = some s → StopCalled s →
      s.pc ≠ .done → s.pc ≠ .waiting ∧ CanAdvance s ∧ CanFinish s := by
  intro h
  have hasleep := h [.start, .prepared true, .pause, .testRunning, .testPaused, .receive,
    .stopFlag, .stopCancel] ⟨false, true, false, .waiting, .none, false⟩ rfl (by decide) nofun
  exact hasleep.1 rfl

end HermesFlow.Session
