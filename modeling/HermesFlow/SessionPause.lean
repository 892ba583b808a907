import HermesFlow.Session

/-!
# Pausing and resuming a session

The pause flag and the capacity-one channel are updated separately. The
invariant that links them to the loop position survives tokens left over from
earlier pauses and sends dropped on a full channel. Calls are serialised by
`mutex_`; the results do not need the session to be left unstopped.
-/

namespace HermesFlow.Session

open EventRun

/-- A loop on its way into the channel wait is still paused, is about to get
the token of a `resume` in progress, or has a token to take. -/
structure WakesUp (s : State) : Prop where
  /-- Before `async_receive`. -/
  receive : s.pc = .receive → s.isPaused = true ∨ s.holder = .resuming ∨ s.token = true
  /-- Inside `async_receive`. -/
  waiting : s.pc = .waiting → s.isPaused = true ∨ s.holder = .resuming
  /-- A `resume` between its two statements has cleared the flag. -/
  resuming : s.holder = .resuming → s.isPaused = false

/-- Each step of the loop and of the callers keeps the wake-up. -/
theorem wakesUp_step {s s' : State} {e : Event} (hs : WakesUp s) (h : step s e = some s') :
    WakesUp s' := by
  cases step_moves h with
  | pauseSeen hp hpaused => exact ⟨fun _ => .inl hpaused, nofun, hs.resuming⟩
  | suspends hp ht =>
    refine ⟨nofun, fun _ => (hs.receive hp).imp_right fun h => ?_, hs.resuming⟩
    exact h.resolve_right (by simp [ht])
  | pause hreg hh =>
    exact ⟨fun _ => .inl rfl, fun _ => .inl rfl, fun hres => absurd (hh.symm.trans hres) nofun⟩
  | resumeFlag hreg hh hp => exact ⟨fun _ => .inr (.inl rfl), fun _ => .inr rfl, fun _ => rfl⟩
  | resumeIdle hreg hh hp => exact hs
  | resumeWakes hh hp => exact ⟨nofun, nofun, nofun⟩
  | resumeBuffers hh hp => exact ⟨fun _ => .inr (.inr rfl), fun hw => absurd hw hp, nofun⟩
  | stopFlag hreg hh =>
    have hnot : s.holder ≠ .resuming := by simp [hh]
    refine ⟨fun hp => (hs.receive hp).imp_right fun h => .inr (h.resolve_left hnot), ?_, nofun⟩
    exact fun hp => .inl ((hs.waiting hp).resolve_right hnot)
  | stopAborts hh hp => exact ⟨nofun, nofun, nofun⟩
  | stopCancels hh hp =>
    have hnot : s.holder ≠ .resuming := by simp [hh]
    refine ⟨fun hp => (hs.receive hp).imp_right fun h => .inr (h.resolve_left hnot), ?_, nofun⟩
    exact fun hp => .inl ((hs.waiting hp).resolve_right hnot)
  | removeSelf hp hh => exact ⟨nofun, nofun, hs.resuming⟩
  | _ => exact ⟨nofun, nofun, hs.resuming⟩

/-- The wake-up holds in every reachable state. -/
theorem wakesUp_run {es : List Event} {s : State} (hrun : runEvents step initial es = some s) :
    WakesUp s := by
  refine run_invariant_of_step (fun _ _ _ => wakesUp_step) ⟨?_, ?_, ?_⟩ hrun <;>
    exact fun h => absurd h (by decide)

/-- Frames a paused loop takes from the executor before it reads the pause. -/
def frameBudget (s : State) : ℕ :=
  match s.pc with
  | .arm | .timerWait | .timerDone _ | .processing => 1
  | _ => 0

/-- Frames a paused loop sends before it reads the pause. -/
def pausedSendBudget (s : State) : ℕ :=
  match s.pc with
  | .arm | .timerWait | .timerDone _ | .processing | .sending => 1
  | _ => 0

/-- Only the first half of a resume clears the pause flag. -/
theorem paused_step {s s' : State} {e : Event} (hpaused : s.isPaused = true)
    (hok : e ≠ .resumeFlag) (h : step s e = some s') : s'.isPaused = true := by
  cases step_moves h with
  | resumeFlag => exact absurd rfl hok
  | pause => rfl
  | _ => exact hpaused

/-- While paused, a round of the loop ends in the channel wait: only the tick
under way can take a frame, however many tokens wake the loop. -/
theorem pausedBudgets_step {s s' : State} {e : Event} (hpaused : s.isPaused = true)
    (h : step s e = some s') :
    frameBudget s' + (if e.isFrame = true then 1 else 0) ≤ frameBudget s ∧
      pausedSendBudget s' + (if e.isSend = true then 1 else 0) ≤ pausedSendBudget s := by
  cases step_moves h with
  | noPauseSeen hp hno => exact absurd (hpaused.symm.trans hno) nofun
  | throws hp => exact ⟨Nat.zero_le _, Nat.zero_le _⟩
  | pause | resumeFlag | resumeIdle | resumeBuffers | stopFlag | stopCancels =>
    exact ⟨Nat.le_refl _, Nat.le_refl _⟩
  | start hp | prepareOk hp | prepareFails hp | loopGoesOn hp | loopEnds hp | pauseSeen hp
  | takesToken hp | suspends hp | wake hp | arm hp | timerExpires hp | tickAborted hp | tick hp
  | frame hp | lastFrame hp | send hp | teardown hp | removeSelf hp | resumeWakes _ hp
  | stopAborts _ hp =>
    simp only [frameBudget, pausedSendBudget, hp, Event.isFrame, Event.isSend,
      Bool.false_eq_true, reduceIte, Nat.le_refl, Nat.zero_le, Nat.zero_add, Nat.add_zero,
      and_self]

/-- After a pause has returned and before the next resume at most one frame is
processed; and after a resume has returned, a loop that is still inside the
channel wait with the pause flag down has a token to wake it. -/
theorem pause_resume_sound :
    (∀ (es₁ es₂ : List Event) (s : State),
      runEvents step initial (es₁ ++ .pause :: es₂) = some s → .resumeFlag ∉ es₂ →
        es₂.countP Event.isFrame ≤ 1 ∧ es₂.countP Event.isSend ≤ 1) ∧
    (∀ (es : List Event) (s : State), runEvents step initial es = some s →
      (s.pc = .receive ∨ s.pc = .waiting) → s.isPaused = false → s.holder ≠ .resuming →
        s.token = true) := by
  constructor
  · intro es₁ es₂ s hrun hno
    obtain ⟨s₁, -, hrun'⟩ := runEvents_append_iff.mp hrun
    obtain ⟨s₂, hpause, hrun₂⟩ := runEvents_cons_iff.mp hrun'
    have hpaused : s₂.isPaused = true := by
      cases step_moves hpause with
      | pause => rfl
    have hmeets : Meets step (fun _ e => e ≠ .resumeFlag) s₂ es₂ :=
      meets_of_events (fun (e : Event) he (heq : e = .resumeFlag) => hno (heq ▸ he)) s₂
    have hframes := run_count_le_budget frameBudget Event.isFrame
      (fun s e s' (hp : s.isPaused = true) hok h =>
        ⟨paused_step hp hok h, (pausedBudgets_step hp h).1⟩) hpaused hmeets hrun₂
    have hsends := run_count_le_budget pausedSendBudget Event.isSend
      (fun s e s' (hp : s.isPaused = true) hok h =>
        ⟨paused_step hp hok h, (pausedBudgets_step hp h).2⟩) hpaused hmeets hrun₂
    have hone : frameBudget s₂ ≤ 1 ∧ pausedSendBudget s₂ ≤ 1 := by
      unfold frameBudget pausedSendBudget
      constructor <;> split <;> omega
    omega
  · intro es s hrun hpc hpaused hholder
    have hs : WakesUp s := wakesUp_run hrun
    have hnot : ¬s.isPaused = true := by simp [hpaused]
    rcases hpc with hp | hp
    · exact ((hs.receive hp).resolve_left hnot).resolve_left hholder
    · exact absurd ((hs.waiting hp).resolve_left hnot) hholder

/-- A stale token wakes a paused loop once and lets no frame out; the resume of
a loop about to receive leaves it a token. -/
theorem pause_resume_sound_stale_token :
    ([Event.testRunning, .testPaused, .receive, .wake, .testRunning, .testPaused,
        .receive].countP Event.isFrame ≤ 1 ∧
      [Event.testRunning, .testPaused, .receive, .wake, .testRunning, .testPaused,
        .receive].countP Event.isSend ≤ 1) ∧
    (⟨true, false, true, .receive, .none, true⟩ : State).token = true :=
  ⟨pause_resume_sound.1
      [.start, .prepared true, .pause, .resumeFlag, .resumeSend]
      [.testRunning, .testPaused, .receive, .wake, .testRunning, .testPaused, .receive]
      ⟨true, true, false, .waiting, .none, true⟩ rfl (by decide),
    pause_resume_sound.2
      [.start, .prepared true, .pause, .testRunning, .testPaused, .resumeFlag, .resumeSend]
      ⟨true, false, true, .receive, .none, true⟩ rfl (.inl rfl) rfl nofun⟩

end HermesFlow.Session
