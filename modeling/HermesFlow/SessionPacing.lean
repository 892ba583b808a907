import HermesFlow.Session
import HermesFlow.SessionStats

/-!
# The clocks of a session

`run_main_audio_loop` arms the timer for `next_tick`, which moves on by one
interval a tick and is set to the present when the loop starts and when a pause
ends. So a tick that is late does not delay the ones after it, a pause is not
caught up, and the frames that are sent never run ahead of the steady clock.
-/

namespace HermesFlow.Session.Timed

open EventRun
open Audio.Stats (STATS_UPDATE_INTERVAL)

/-- `AUDIO_TICK_INTERVAL`, in nanoseconds of the steady clock. -/
def AUDIO_TICK_INTERVAL : ℕ := 20 * 1000000

/-- A session with the clocks of its loop. -/
structure State where
  /-- The coroutine and the fields it shares. -/
  session : Session.State
  /-- `observer_` is set. -/
  hasObserver : Bool
  /-- The steady clock. -/
  now : ℕ
  /-- `next_tick`. -/
  nextTick : ℕ
  /-- What `timer_` expires at. -/
  expiry : ℕ
  /-- `last_stats_time`. -/
  lastStatsTime : ℕ
  deriving DecidableEq

/-- Time passes, or the session takes a step. -/
inductive Event where
  | passes (elapsed : ℕ)
  | act (action : Session.Event)
  deriving DecidableEq

/-- A session whose coroutine has just been spawned, at a time. -/
def initial (hasObserver : Bool) (now : ℕ) : State :=
  ⟨Session.initial, hasObserver, now, now, now, now⟩

/-- `next_tick` and `last_stats_time` are set to the present. -/
def State.resetClocks (s : State) : State := { s with nextTick := s.now, lastStatsTime := s.now }

/-- The condition of `update_stats_if_needed`. -/
def UpdateNeeded (s : State) : Prop :=
  s.hasObserver = true ∧ s.lastStatsTime + STATS_UPDATE_INTERVAL < s.now

instance (s : State) : Decidable (UpdateNeeded s) := inferInstanceAs (Decidable (_ ∧ _))

/-- `update_stats_if_needed`. -/
def updateStatsIfNeeded (s : State) : State :=
  if UpdateNeeded s then { s with lastStatsTime := s.now } else s

/-- What the steps of the coroutine do to the clocks. -/
def clocks (s : State) : Session.Event → State
  | .prepared ok => if ok = true then s.resetClocks else s
  | .wake => s.resetClocks
  | .arm =>
    { s with
      nextTick := s.nextTick + AUDIO_TICK_INTERVAL
      expiry := s.nextTick + AUDIO_TICK_INTERVAL }
  | .send => updateStatsIfNeeded s
  | _ => s

/-- The step of one event. A wait ends without an error once its time has come. -/
def step (s : State) : Event → Option State
  | .passes elapsed => some { s with now := s.now + elapsed }
  | .act action =>
    if action = .timerExpires ∧ s.now < s.expiry then none
    else (Session.step s.session action).map fun session =>
      { clocks s action with session := session }

/-- Where the loop stands towards its timer. -/
inductive Phase where
  /-- Before or after the loop. -/
  | outside
  /-- Between two ticks. -/
  | between
  /-- The timer is armed, and the frame of the tick has not been sent. -/
  | ticking
  /-- In `wait_for_resume`. -/
  | paused
  deriving DecidableEq

/-- The phase of a position. -/
def phaseOf : Pc → Phase
  | .testRunning | .testPaused | .arm => .between
  | .timerWait | .timerDone _ | .processing | .sending => .ticking
  | .receive | .waiting | .woken => .paused
  | .spawned | .preparing | .teardown | .removing | .done => .outside

/-- The loop is under way and not paused. -/
def Playing (s : State) : Prop :=
  phaseOf s.session.pc = .between ∨ phaseOf s.session.pc = .ticking

instance (s : State) : Decidable (Playing s) := inferInstanceAs (Decidable (_ ∨ _))

/-- The time that an event lets pass while the loop plays. -/
def played (s : State) : Event → ℕ
  | .passes elapsed => if Playing s then elapsed else 0
  | .act _ => 0

/-- The time for which the loop plays in a run. -/
def playedTime (s : State) (es : List Event) : ℕ := runTotal step played s es

/-- The event hands a frame to `send_frame`. -/
def Event.isSend : Event → Bool
  | .act action => action.isSend
  | .passes _ => false

/-- When frames are handed to `send_frame`. -/
def sendTime (s : State) (e : Event) : List ℕ := if e.isSend = true then [s.now] else []

/-- When `on_stats_update` is called. -/
def updateTime (s : State) (e : Event) : List ℕ :=
  if e.isSend = true ∧ UpdateNeeded s then [s.now] else []

/-- The event sets the clocks to the present. -/
def Event.Resets (e : Event) : Prop := e = .act .wake ∨ e = .act (.prepared true)

instance (e : Event) : Decidable e.Resets := inferInstanceAs (Decidable (_ ∨ _))

/-- The time for which an event keeps the playing loop waiting for its thread: all that it lets
pass but the time until the timer expires. -/
def kept (s : State) : Event → ℕ
  | .passes elapsed =>
    if s.session.pc = .timerWait then s.now + elapsed - max s.now s.expiry
    else if Playing s then elapsed
    else 0
  | .act _ => 0

/-- The step of a session, with the time for which the loop has been kept waiting since it sent
its last frame. -/
def waitStep : State × ℕ → Event → Option (State × ℕ) := withTally step kept Event.isSend

/-- What keeps the loop waiting in the tick under way adds up to `late` at most. -/
def Prompt (late : ℕ) (s : State × ℕ) (e : Event) : Prop := s.2 + kept s.1 e ≤ late

instance (late : ℕ) (s : State × ℕ) (e : Event) : Decidable (Prompt late s e) :=
  inferInstanceAs (Decidable (_ ≤ _))

/-- The timer has expired, and the frame of the tick has not been sent. -/
def Fired (pc : Pc) : Prop := pc = .timerDone false ∨ pc = .processing ∨ pc = .sending

/-- What a step of the session is for its clocks. -/
inductive Ticks (s : State) : Session.Event → State → Prop where
  /-- The loop starts, or a pause ends. -/
  | resets {action : Session.Event} {session : Session.State}
      (hresets : (Event.act action).Resets) (houtside : ¬Playing s)
      (hpc : session.pc = .testRunning) : Ticks s action { s.resetClocks with session := session }
  /-- The timer is armed for the next tick. -/
  | arms {session : Session.State} (hpc : s.session.pc = .arm) (hpc' : session.pc = .timerWait) :
      Ticks s .arm { clocks s .arm with session := session }
  /-- The timer expires. -/
  | fires {session : Session.State} (hpc : s.session.pc = .timerWait)
      (hexpired : s.expiry ≤ s.now) (hpc' : session.pc = .timerDone false) :
      Ticks s .timerExpires { s with session := session }
  /-- A frame is sent. -/
  | sends {session : Session.State} (hpc : s.session.pc = .sending)
      (hpc' : session.pc = .testRunning) :
      Ticks s .send { updateStatsIfNeeded s with session := session }
  /-- Any other step. -/
  | keeps {action : Session.Event} {session : Session.State}
      (hresets : ¬(Event.act action).Resets) (hsend : action.isSend = false)
      (hbetween : phaseOf session.pc = .between → phaseOf s.session.pc = .between)
      (hticking : phaseOf session.pc = .ticking → phaseOf s.session.pc = .ticking)
      (hpaused : phaseOf session.pc = .paused →
        phaseOf s.session.pc = .between ∨ phaseOf s.session.pc = .paused)
      (hfired : Fired session.pc → Fired s.session.pc) :
      Ticks s action { s with session := session }

section Step

variable {s s' : State} {action : Session.Event}

/-- A step that touches no clock keeps the ticks. -/
theorem ticks_keeps {session : Session.State} (hclocks : clocks s action = s)
    (hresets : ¬(Event.act action).Resets) (hsend : action.isSend = false)
    (hphase : phaseOf session.pc = phaseOf s.session.pc ∨ phaseOf session.pc = .outside ∨
      (phaseOf s.session.pc = .between ∧ phaseOf session.pc = .paused))
    (hfired : Fired session.pc → Fired s.session.pc) :
    Ticks s action { clocks s action with session := session } := by
  rw [hclocks]
  refine .keeps hresets hsend (fun h => ?_) (fun h => ?_) (fun h => ?_) hfired <;>
    rcases hphase with hphase | hphase | ⟨hbetween, hphase⟩ <;>
    simp_all

/-- Without the clocks it is a step of the session. -/
theorem session_step (h : step s (.act action) = some s') :
    Session.step s.session action = some s'.session := by
  rw [step] at h
  split at h
  · cases h
  obtain ⟨session, hstep, rfl⟩ := Option.map_eq_some_iff.mp h
  exact hstep

/-- A step of the machine is one of these. -/
theorem step_ticks (h : step s (.act action) = some s') : Ticks s action s' := by
  rw [step] at h
  split at h
  · cases h
  rename_i hexpired
  obtain ⟨session, hstep, rfl⟩ := Option.map_eq_some_iff.mp h
  cases step_moves hstep with
  | prepareOk hp => exact .resets (.inr rfl) (by simp [Playing, phaseOf, hp]) rfl
  | wake hp => exact .resets (.inl rfl) (by simp [Playing, phaseOf, hp]) rfl
  | arm hp => exact .arms hp rfl
  | timerExpires hp => exact .fires hp (not_lt.mp fun hlt => hexpired ⟨rfl, hlt⟩) rfl
  | send hp => exact .sends hp rfl
  | pause | resumeFlag | resumeIdle | resumeBuffers | stopFlag | stopCancels =>
    exact ticks_keeps rfl (by simp [Event.Resets]) rfl (.inl rfl) id
  | start hp | prepareFails hp | loopGoesOn hp | loopEnds hp | pauseSeen hp | noPauseSeen hp
  | takesToken hp | suspends hp | tickAborted hp | tick hp | frame hp | lastFrame hp
  | teardown hp | removeSelf hp | throws hp | resumeWakes _ hp | stopAborts _ hp =>
    exact ticks_keeps rfl (by simp [Event.Resets]) rfl (by simp [phaseOf, hp]) (by simp [Fired, hp])

/-- The clocks of a loop that is on time. -/
structure OnTime (s : State) : Prop where
  /-- Between two ticks the next one is due. -/
  between : phaseOf s.session.pc = .between → s.nextTick ≤ s.now
  /-- An armed timer expires at the next tick, at most an interval ahead. -/
  armed : phaseOf s.session.pc = .ticking →
    s.expiry = s.nextTick ∧ s.nextTick ≤ s.now + AUDIO_TICK_INTERVAL
  /-- When the timer has fired the tick is due. -/
  fired : Fired s.session.pc → s.nextTick ≤ s.now
  /-- The last statistics lie behind. -/
  stats : s.lastStatsTime ≤ s.now

/-- A session starts on time. -/
theorem onTime_initial (hasObserver : Bool) (now : ℕ) : OnTime (initial hasObserver now) where
  between := fun _ => le_rfl
  armed := fun _ => ⟨rfl, Nat.le_add_right _ _⟩
  fired := fun _ => le_rfl
  stats := le_rfl

/-- An update changes `last_stats_time` alone. -/
theorem updateStatsIfNeeded_eq (s : State) :
    updateStatsIfNeeded s =
      { s with lastStatsTime := if UpdateNeeded s then s.now else s.lastStatsTime } := by
  unfold updateStatsIfNeeded
  split <;> rfl

/-- No step attaches or drops the observer. -/
theorem hasObserver_step {e : Event} (h : step s e = some s') : s'.hasObserver = s.hasObserver := by
  cases e with
  | passes elapsed =>
    obtain rfl := Option.some.inj h
    rfl
  | act action =>
    cases step_ticks h with
    | sends =>
      rw [updateStatsIfNeeded_eq]
    | resets | arms | fires | keeps => rfl

/-- Each step leaves the loop on time. -/
theorem onTime_step {e : Event} (hs : OnTime s) (h : step s e = some s') : OnTime s' := by
  cases e with
  | passes elapsed =>
    obtain rfl := Option.some.inj h
    have hlater : s.now ≤ s.now + elapsed := Nat.le_add_right _ _
    exact ⟨fun hp => (hs.between hp).trans hlater,
      fun hp => ⟨(hs.armed hp).1, (hs.armed hp).2.trans (Nat.add_le_add_right hlater _)⟩,
      fun hp => (hs.fired hp).trans hlater, hs.stats.trans hlater⟩
  | act action =>
    cases step_ticks h with
    | resets hresets houtside hpc =>
      exact ⟨fun _ => le_rfl, fun hp => by simp [phaseOf, hpc] at hp, fun _ => le_rfl, le_rfl⟩
    | arms hpc hpc' =>
      have hnow := hs.between (by rw [hpc, phaseOf])
      exact ⟨fun hp => by simp [phaseOf, hpc'] at hp,
        fun _ => ⟨rfl, Nat.add_le_add_right hnow _⟩, fun hp => by simp [Fired, hpc'] at hp, hs.stats⟩
    | fires hpc hexpired hpc' =>
      obtain ⟨harmed, hinterval⟩ := hs.armed (by rw [hpc, phaseOf])
      exact ⟨fun hp => by simp [phaseOf, hpc'] at hp, fun _ => ⟨harmed, hinterval⟩,
        fun _ => harmed ▸ hexpired, hs.stats⟩
    | sends hpc hpc' =>
      have hnow := hs.fired (.inr (.inr hpc))
      rw [updateStatsIfNeeded_eq]
      refine ⟨fun _ => hnow, fun hp => by simp [phaseOf, hpc'] at hp,
        fun hp => by simp [Fired, hpc'] at hp, ?_⟩
      dsimp only
      split
      · exact le_rfl
      · exact hs.stats
    | keeps hresets hsend hbetween hticking hpaused hfired =>
      exact ⟨fun hp => hs.between (hbetween hp), fun hp => hs.armed (hticking hp),
        fun hp => hs.fired (hfired hp), hs.stats⟩

/-- The time that a playing loop has left over after the frames it has sent. -/
def timeInHand (s : State) : ℕ :=
  match phaseOf s.session.pc with
  | .between => s.now - s.nextTick
  | .ticking => s.now + AUDIO_TICK_INTERVAL - s.nextTick
  | .outside | .paused => 0

/-- Between two ticks the time in hand is since the tick was due. -/
theorem timeInHand_between (h : phaseOf s.session.pc = .between) :
    timeInHand s = s.now - s.nextTick := by
  rw [timeInHand, h]

/-- With the timer armed it is the time since the tick before was due. -/
theorem timeInHand_ticking (h : phaseOf s.session.pc = .ticking) :
    timeInHand s = s.now + AUDIO_TICK_INTERVAL - s.nextTick := by
  rw [timeInHand, h]

/-- A session that does not play has no time in hand. -/
theorem timeInHand_of_not_playing (h : ¬Playing s) : timeInHand s = 0 := by
  obtain ⟨hbetween, hticking⟩ := not_or.mp h
  unfold timeInHand
  split
  · exact absurd (by assumption) hbetween
  · exact absurd (by assumption) hticking
  · rfl
  · rfl

/-- A frame is sent out of the time in hand. -/
theorem timeInHand_step {e : Event} (hs : OnTime s) (h : step s e = some s') :
    timeInHand s' + (if e.isSend = true then AUDIO_TICK_INTERVAL else 0) ≤
      timeInHand s + played s e := by
  cases e with
  | passes elapsed =>
    obtain rfl := Option.some.inj h
    rw [Event.isSend, if_neg Bool.false_ne_true, Nat.add_zero, played]
    by_cases hplaying : Playing s
    · rw [if_pos hplaying]
      rcases hplaying with hp | hp
      · rw [timeInHand_between hp]
        refine (@timeInHand_between { s with now := s.now + elapsed } hp).trans_le ?_
        have hnow := hs.between hp
        dsimp only
        omega
      · rw [timeInHand_ticking hp]
        refine (@timeInHand_ticking { s with now := s.now + elapsed } hp).trans_le ?_
        have hnow := (hs.armed hp).2
        dsimp only
        omega
    · exact (@timeInHand_of_not_playing { s with now := s.now + elapsed } hplaying).trans_le
        (Nat.zero_le _)
  | act action =>
    rw [played, Nat.add_zero]
    cases step_ticks h with
    | resets hresets houtside hpc =>
      have hsend : (Event.act action).isSend = false := by
        rcases hresets with heq | heq <;> rw [heq] <;> rfl
      rw [hsend, if_neg Bool.false_ne_true, timeInHand_between (by rw [hpc, phaseOf])]
      exact (Nat.sub_self _).le.trans (Nat.zero_le _)
    | arms hpc hpc' =>
      rw [timeInHand_between (s := s) (by rw [hpc, phaseOf]),
        timeInHand_ticking (by rw [hpc', phaseOf])]
      change s.now + AUDIO_TICK_INTERVAL - (s.nextTick + AUDIO_TICK_INTERVAL) + 0 ≤ _
      omega
    | fires hpc hexpired hpc' =>
      rw [timeInHand_ticking (s := s) (by rw [hpc, phaseOf]),
        timeInHand_ticking (by rw [hpc', phaseOf])]
      exact le_rfl
    | sends hpc hpc' =>
      have hnow := hs.fired (.inr (.inr hpc))
      rw [timeInHand_ticking (s := s) (by rw [hpc, phaseOf]),
        timeInHand_between (by rw [hpc', phaseOf]), updateStatsIfNeeded_eq]
      change s.now - s.nextTick + AUDIO_TICK_INTERVAL ≤ _
      omega
    | @keeps _ session hresets hsend hbetween hticking hpaused hfired =>
      rw [Event.isSend, hsend, if_neg Bool.false_ne_true, Nat.add_zero]
      by_cases hplaying : Playing { s with session := session }
      · rcases hplaying with hp | hp
        · rw [timeInHand_between (hbetween hp), timeInHand_between hp]
        · rw [timeInHand_ticking (hticking hp), timeInHand_ticking hp]
      · exact (timeInHand_of_not_playing hplaying).trans_le (Nat.zero_le _)

/-- The time that a playing loop has left over since it last called `on_stats_update`. -/
def statsInHand (s : State) : ℕ := if Playing s then s.now - s.lastStatsTime else 0

/-- The time in hand for statistics is at most the time since the last ones. -/
theorem statsInHand_le (s : State) : statsInHand s ≤ s.now - s.lastStatsTime := by
  unfold statsInHand
  split
  · exact le_rfl
  · exact Nat.zero_le _

/-- While the session plays it is just that time. -/
theorem statsInHand_playing (h : Playing s) : statsInHand s = s.now - s.lastStatsTime := if_pos h

/-- No step but that of a sent frame makes an update. -/
theorem updateTime_of_not_send (h : action.isSend = false) : updateTime s (.act action) = [] :=
  if_neg fun hsend => Bool.false_ne_true (h.symm.trans hsend.1)

/-- An event that resets the clocks sends no frame. -/
theorem Event.Resets.not_send (h : (Event.act action).Resets) : action.isSend = false := by
  rcases h with heq | heq <;> cases heq <;> rfl

/-- An update is made out of the time in hand. -/
theorem statsInHand_step {e : Event} (hs : OnTime s) (h : step s e = some s') :
    statsInHand s' + STATS_UPDATE_INTERVAL * (updateTime s e).length ≤
      statsInHand s + played s e := by
  have hnow := hs.stats
  cases e with
  | passes elapsed =>
    obtain rfl := Option.some.inj h
    have hnone : updateTime s (.passes elapsed) = [] :=
      if_neg fun hsend => Bool.false_ne_true hsend.1
    rw [hnone, List.length_nil, Nat.mul_zero, Nat.add_zero, played]
    by_cases hplaying : Playing s
    · rw [if_pos hplaying, statsInHand_playing hplaying]
      refine (statsInHand_le _).trans ?_
      dsimp only
      omega
    · have hidle : statsInHand { s with now := s.now + elapsed } = 0 := if_neg hplaying
      exact hidle.trans_le (Nat.zero_le _)
  | act action =>
    rw [played, Nat.add_zero]
    cases step_ticks h with
    | resets hresets houtside hpc =>
      rw [updateTime_of_not_send hresets.not_send, List.length_nil, Nat.mul_zero, Nat.add_zero]
      exact (statsInHand_le _).trans ((Nat.sub_self s.now).le.trans (Nat.zero_le _))
    | arms hpc hpc' =>
      rw [updateTime_of_not_send rfl, List.length_nil, Nat.mul_zero, Nat.add_zero,
        statsInHand_playing (s := s) (.inl (by rw [hpc, phaseOf]))]
      exact statsInHand_le _
    | fires hpc hexpired hpc' =>
      rw [updateTime_of_not_send rfl, List.length_nil, Nat.mul_zero, Nat.add_zero,
        statsInHand_playing (s := s) (.inr (by rw [hpc, phaseOf]))]
      exact statsInHand_le _
    | sends hpc hpc' =>
      rw [statsInHand_playing (s := s) (.inr (by rw [hpc, phaseOf])), updateTime,
        updateStatsIfNeeded_eq]
      refine (Nat.add_le_add_right (statsInHand_le _) _).trans ?_
      dsimp only
      by_cases hneeded : UpdateNeeded s
      · have hlong := hneeded.2
        rw [if_pos hneeded, if_pos ⟨rfl, hneeded⟩, List.length_singleton, Nat.mul_one]
        omega
      · rw [if_neg hneeded, if_neg fun h => hneeded h.2]
        exact le_rfl
    | @keeps _ session hresets hsend hbetween hticking hpaused hfired =>
      rw [updateTime_of_not_send hsend, List.length_nil, Nat.mul_zero, Nat.add_zero]
      by_cases hplaying : Playing { s with session := session }
      · rw [statsInHand_playing (s := s) (hplaying.imp hbetween hticking)]
        exact statsInHand_le _
      · have hidle : statsInHand { s with session := session } = 0 := if_neg hplaying
        exact hidle.trans_le (Nat.zero_le _)

end Step

/-- The frames of a run are paid with the time in hand at its start and the time it plays. -/
theorem timeInHand_run {s t : State} {es : List Event} (hs : OnTime s)
    (hrun : runEvents step s es = some t) :
    timeInHand t + AUDIO_TICK_INTERVAL * es.countP Event.isSend ≤
      timeInHand s + playedTime s es := by
  have hpaid := run_cost_le_earned timeInHand
    (fun _ e => if e.isSend = true then AUDIO_TICK_INTERVAL else 0) played
    (fun s e s' hs _ h => ⟨onTime_step hs h, timeInHand_step hs h⟩) hs
    (meets_of_forall (fun _ _ => trivial) s es) hrun
  rwa [runTotal_const AUDIO_TICK_INTERVAL Event.isSend hrun] at hpaid

/-- In every run the frames that have been sent last no longer than the loop has been playing:
the loop never runs ahead of the clock, however late its ticks are and however it is paused. -/
theorem frames_never_ahead {hasObserver : Bool} {now : ℕ} {es : List Event} {t : State}
    (hrun : runEvents step (initial hasObserver now) es = some t) :
    AUDIO_TICK_INTERVAL * es.countP Event.isSend ≤ playedTime (initial hasObserver now) es := by
  have hpaid := timeInHand_run (onTime_initial hasObserver now) hrun
  exact (Nat.le_add_left _ _).trans (hpaid.trans_eq (Nat.zero_add _))

/-- A late tick, a pause of a second, and a tick on time: two frames. -/
def lateThenPaused : List Event :=
  [.act .start, .passes 7, .act (.prepared true), .act .testRunning, .act .testPaused, .act .arm,
    .passes 50000000, .act .timerExpires, .act .tick, .act .pause, .act (.frame true), .act .send,
    .act .testRunning, .act .testPaused, .act .receive, .passes 1000000000, .act .resumeFlag,
    .act .resumeSend, .act .wake, .act .testRunning, .act .testPaused, .act .arm, .passes 20000000,
    .act .timerExpires, .act .tick, .act (.frame true), .passes 90000000, .act .send]

/-- The updates made so far are apart from each other and lie behind. -/
structure Spaced (updates : List ℕ) (s : State) : Prop where
  /-- The clocks are on time. -/
  onTime : OnTime s
  /-- Two updates are more than an interval apart. -/
  apart : updates.Pairwise fun a b => a + STATS_UPDATE_INTERVAL < b
  /-- No update lies ahead. -/
  behind : ∀ time ∈ updates, time ≤ s.lastStatsTime

/-- A step makes no update, or one at the time it leaves in `last_stats_time`. -/
theorem updateTime_step {s s' : State} {e : Event} (hnow : s.lastStatsTime ≤ s.now)
    (h : step s e = some s') :
    (updateTime s e = [] ∧ s.lastStatsTime ≤ s'.lastStatsTime) ∨
      (updateTime s e = [s'.lastStatsTime] ∧
        s.lastStatsTime + STATS_UPDATE_INTERVAL < s'.lastStatsTime) := by
  cases e with
  | passes elapsed =>
    obtain rfl := Option.some.inj h
    exact .inl ⟨if_neg fun hsend => Bool.false_ne_true hsend.1, le_rfl⟩
  | act action =>
    cases step_ticks h with
    | resets hresets houtside hpc => exact .inl ⟨updateTime_of_not_send hresets.not_send, hnow⟩
    | arms => exact .inl ⟨updateTime_of_not_send rfl, le_rfl⟩
    | fires => exact .inl ⟨updateTime_of_not_send rfl, le_rfl⟩
    | sends hpc hpc' =>
      rw [updateStatsIfNeeded_eq]
      dsimp only
      by_cases hneeded : UpdateNeeded s
      · rw [if_pos hneeded]
        exact .inr ⟨if_pos ⟨rfl, hneeded⟩, hneeded.2⟩
      · rw [if_neg hneeded]
        exact .inl ⟨if_neg fun h => hneeded h.2, le_rfl⟩
    | keeps hresets hsend => exact .inl ⟨updateTime_of_not_send hsend, le_rfl⟩

/-- One step keeps the updates apart. -/
theorem Spaced.step {updates : List ℕ} {s s' : State} {e : Event} (hs : Spaced updates s)
    (h : step s e = some s') : Spaced (updates ++ updateTime s e) s' := by
  have honTime := onTime_step hs.onTime h
  rcases updateTime_step hs.onTime.stats h with ⟨hnone, hlater⟩ | ⟨hone, hlater⟩
  · rw [hnone, List.append_nil]
    exact ⟨honTime, hs.apart, fun time htime => (hs.behind time htime).trans hlater⟩
  · rw [hone]
    refine ⟨honTime, List.pairwise_append.mpr ⟨hs.apart, List.pairwise_singleton _ _, ?_⟩, ?_⟩
    · intro a ha b hb
      obtain rfl := List.mem_singleton.mp hb
      have hbehind := hs.behind a ha
      omega
    · intro time htime
      rcases List.mem_append.mp htime with hold | hnew
      · have hbehind := hs.behind time hold
        omega
      · exact (List.mem_singleton.mp hnew).le

/-- The times at which a run calls `on_stats_update`. -/
def updateTimes (s : State) (es : List Event) : List ℕ := runLog step updateTime s es

/-- In every run the updates are more than an interval apart, across pauses too, and there are no
more of them than the loop has been playing intervals. -/
theorem updates_spaced {hasObserver : Bool} {now : ℕ} {es : List Event} {t : State}
    (hrun : runEvents step (initial hasObserver now) es = some t) :
    (updateTimes (initial hasObserver now) es).Pairwise
        (fun a b => a + STATS_UPDATE_INTERVAL < b) ∧
      STATS_UPDATE_INTERVAL * (updateTimes (initial hasObserver now) es).length ≤
        playedTime (initial hasObserver now) es := by
  constructor
  · have hspaced : Spaced (updateTimes (initial hasObserver now) es) t :=
      run_log_invariant (fun _ _ _ _ hs _ h => Spaced.step hs h)
        ⟨onTime_initial hasObserver now, List.Pairwise.nil, fun _ h => by cases h⟩
        (meets_of_forall (fun _ _ => trivial) _ es) hrun
    exact hspaced.apart
  · have hpaid := run_cost_le_earned statsInHand
      (fun s e => STATS_UPDATE_INTERVAL * (updateTime s e).length) played
      (fun s e s' hs _ h => ⟨onTime_step hs h, statsInHand_step hs h⟩)
      (onTime_initial hasObserver now) (meets_of_forall (fun _ _ => trivial) _ es) hrun
    rw [runTotal_length STATS_UPDATE_INTERVAL updateTime hrun] at hpaid
    exact (Nat.le_add_left _ _).trans (hpaid.trans_eq (Nat.zero_add _))

/-- The paused session has its updates apart. -/
theorem updates_spaced_paused :
    ∃ t, runEvents step (initial true 5) lateThenPaused = some t ∧
      (updateTimes (initial true 5) lateThenPaused).Pairwise
        (fun a b => a + STATS_UPDATE_INTERVAL < b) ∧
      STATS_UPDATE_INTERVAL * (updateTimes (initial true 5) lateThenPaused).length ≤
        playedTime (initial true 5) lateThenPaused := by
  have hsome : (runEvents step (initial true 5) lateThenPaused).isSome = true := by decide
  obtain ⟨t, ht⟩ := Option.isSome_iff_exists.mp hsome
  exact ⟨t, ht, updates_spaced ht⟩

/-- The clocks of a loop that started or woke at `epoch`, sent frames at `times` since, and has
been kept waiting for `waited` since the last of them. -/
structure OnSchedule (epoch late : ℕ) (times : List ℕ) (s : State) (waited : ℕ) : Prop where
  /-- The clocks stand to each other as in every run. -/
  onTime : OnTime s
  /-- Between two ticks `next_tick` is the tick of the last frame. -/
  between : phaseOf s.session.pc = .between →
    s.nextTick = epoch + AUDIO_TICK_INTERVAL * times.length
  /-- In a tick `next_tick` is the tick of the frame to come. -/
  ticking : phaseOf s.session.pc = .ticking →
    s.nextTick = epoch + AUDIO_TICK_INTERVAL * (times.length + 1)
  /-- The waits of the tick stay in their bound. -/
  bounded : waited ≤ late
  /-- Between two ticks the loop is behind by what the last frame was late and by its waits. -/
  behind : phaseOf s.session.pc = .between → s.now ≤ s.nextTick + late + waited
  /-- In a tick it is behind by its waits alone. -/
  caughtUp : phaseOf s.session.pc = .ticking → s.now ≤ s.nextTick + waited
  /-- Each frame was sent when it was due, or late. -/
  sent : ∀ k time, times[k]? = some time →
    epoch + AUDIO_TICK_INTERVAL * (k + 1) ≤ time ∧
      time ≤ epoch + AUDIO_TICK_INTERVAL * (k + 1) + late

/-- A loop on its schedule has the next tick before it, or is late for it. -/
theorem OnSchedule.now_le {epoch late : ℕ} {times : List ℕ} {s : State} {waited : ℕ}
    (h : OnSchedule epoch late times s waited) (hlate : late ≤ AUDIO_TICK_INTERVAL)
    (hplaying : Playing s) :
    s.now ≤ epoch + AUDIO_TICK_INTERVAL * (times.length + 1) + late := by
  have hbounded := h.bounded
  rcases hplaying with hp | hp
  · have hbehind := h.behind hp
    rw [h.between hp] at hbehind
    rw [Nat.mul_succ]
    omega
  · have hcaught := h.caughtUp hp
    rw [h.ticking hp] at hcaught
    omega

/-- A reset of the clocks starts a new schedule. -/
theorem onSchedule_reset {s s' : State} {e : Event} (hs : OnTime s) (hresets : e.Resets)
    (h : step s e = some s') (late : ℕ) : OnSchedule s.now late [] s' 0 := by
  have honTime := onTime_step hs h
  obtain ⟨action, rfl⟩ : ∃ action, e = .act action := by
    rcases hresets with heq | heq <;> exact ⟨_, heq⟩
  cases step_ticks h with
  | resets _ _ hpc =>
    have hbetween := congrArg phaseOf hpc
    have hoff : ∀ {p : Prop}, phaseOf _ = Phase.ticking → p := fun hp =>
      absurd (hp.symm.trans hbetween) (by decide)
    exact ⟨honTime, fun _ => rfl, hoff, Nat.zero_le _, fun _ => Nat.le_add_right _ _, hoff,
      fun k time htime => by cases htime⟩
  | arms | fires | sends => simp [Event.Resets] at hresets
  | keeps hno => exact absurd hresets hno

/-- A step that leaves the clocks and the phase, or leaves the playing loop. -/
theorem OnSchedule.keep {epoch late : ℕ} {times : List ℕ} {s : State} {waited : ℕ}
    {session : Session.State} (hs : OnSchedule epoch late times s waited)
    (honTime : OnTime { s with session := session })
    (hbetween : phaseOf session.pc = .between → phaseOf s.session.pc = .between)
    (hticking : phaseOf session.pc = .ticking → phaseOf s.session.pc = .ticking) :
    OnSchedule epoch late times { s with session := session } waited where
  onTime := honTime
  between := fun hp => hs.between (hbetween hp)
  ticking := fun hp => hs.ticking (hticking hp)
  bounded := hs.bounded
  behind := fun hp => hs.behind (hbetween hp)
  caughtUp := fun hp => hs.caughtUp (hticking hp)
  sent := hs.sent

/-- Only in `wait_for_next_tick` the loop waits for its timer too. -/
theorem kept_eq {s : State} {elapsed : ℕ} (hplaying : Playing s)
    (hpc : s.session.pc ≠ .timerWait) : kept s (.passes elapsed) = elapsed := by
  rw [kept, if_neg hpc, if_pos hplaying]

/-- Time passes: the loop falls behind by its waits. -/
theorem OnSchedule.passes {epoch late : ℕ} {times : List ℕ} {s : State} {waited elapsed : ℕ}
    (hs : OnSchedule epoch late times s waited)
    (hprompt : Prompt late (s, waited) (.passes elapsed))
    (honTime : OnTime { s with now := s.now + elapsed }) :
    OnSchedule epoch late times { s with now := s.now + elapsed }
      (waited + kept s (.passes elapsed)) where
  onTime := honTime
  between := hs.between
  ticking := hs.ticking
  bounded := hprompt
  behind := fun (hp : phaseOf s.session.pc = .between) => by
    have hpc : s.session.pc ≠ .timerWait := by
      rintro heq
      rw [heq] at hp
      cases hp
    have hbehind := hs.behind hp
    rw [kept_eq (.inl hp) hpc]
    dsimp only
    omega
  caughtUp := fun (hp : phaseOf s.session.pc = .ticking) => by
    have hcaught := hs.caughtUp hp
    have harmed := (hs.onTime.armed hp).1
    by_cases hpc : s.session.pc = .timerWait
    · rw [kept, if_pos hpc]
      dsimp only
      omega
    · rw [kept_eq (.inr hp) hpc]
      dsimp only
      omega
  sent := hs.sent

/-- The timer is armed: the interval of the tick makes up for the lateness of the frame before. -/
theorem OnSchedule.arms {epoch late : ℕ} {times : List ℕ} {s : State} {waited : ℕ}
    {session : Session.State} (hs : OnSchedule epoch late times s waited)
    (hlate : late ≤ AUDIO_TICK_INTERVAL) (hpc : s.session.pc = .arm)
    (hpc' : session.pc = .timerWait) (honTime : OnTime { clocks s .arm with session := session }) :
    OnSchedule epoch late times { clocks s .arm with session := session } waited := by
  have hbetween : phaseOf s.session.pc = .between := by rw [hpc, phaseOf]
  have hticking : phaseOf session.pc = .ticking := by rw [hpc', phaseOf]
  have hoff : ∀ {p : Prop}, phaseOf session.pc = .between → p := fun hp =>
    absurd (hp.symm.trans hticking) (by decide)
  have hnext : s.nextTick + AUDIO_TICK_INTERVAL =
      epoch + AUDIO_TICK_INTERVAL * (times.length + 1) := by
    rw [hs.between hbetween, Nat.mul_succ, Nat.add_assoc]
  have hbehind := hs.behind hbetween
  refine ⟨honTime, hoff, fun _ => hnext, hs.bounded, hoff, fun _ => ?_, hs.sent⟩
  change s.now ≤ s.nextTick + AUDIO_TICK_INTERVAL + waited
  omega

/-- A frame is sent: its tick has come, and the waits since the frame before make it late. -/
theorem OnSchedule.sends {epoch late : ℕ} {times : List ℕ} {s : State} {waited : ℕ}
    {session : Session.State} (hs : OnSchedule epoch late times s waited)
    (hpc : s.session.pc = .sending) (hpc' : session.pc = .testRunning)
    (honTime : OnTime { updateStatsIfNeeded s with session := session }) :
    OnSchedule epoch late (times ++ [s.now])
      { updateStatsIfNeeded s with session := session } 0 := by
  have hticking : phaseOf s.session.pc = .ticking := by rw [hpc, phaseOf]
  have hbetween : phaseOf session.pc = .between := by rw [hpc', phaseOf]
  have hoff : ∀ {p : Prop}, phaseOf session.pc = .ticking → p := fun hp =>
    absurd (hp.symm.trans hbetween) (by decide)
  have hnext := hs.ticking hticking
  have hfired := hs.onTime.fired (.inr (.inr hpc))
  have hcaught := hs.caughtUp hticking
  have hbounded := hs.bounded
  rw [updateStatsIfNeeded_eq] at honTime ⊢
  refine ⟨honTime, fun _ => ?_, hoff, Nat.zero_le _, fun _ => ?_, hoff, fun k time htime => ?_⟩
  · rw [List.length_append, List.length_singleton]
    exact hnext
  · dsimp only
    omega
  · rcases Nat.lt_or_ge k times.length with hk | hk
    · rw [List.getElem?_append_left hk] at htime
      exact hs.sent k time htime
    · rw [List.getElem?_append_right hk, List.getElem?_singleton] at htime
      split at htime
      · rename_i hlast
        obtain rfl : k = times.length := hk.antisymm' (Nat.sub_eq_zero_iff_le.mp hlast)
        obtain rfl := Option.some.inj htime
        omega
      · cases htime

/-- Each step keeps the loop on its schedule. -/
theorem OnSchedule.step {epoch late : ℕ} {times : List ℕ} {s s' : State × ℕ} {e : Event}
    (hlate : late ≤ AUDIO_TICK_INTERVAL) (hs : OnSchedule epoch late times s.1 s.2)
    (hprompt : Prompt late s e) (hepoch : ¬e.Resets) (h : waitStep s e = some s') :
    OnSchedule epoch late (times ++ sendTime s.1 e) s'.1 s'.2 := by
  obtain ⟨hstep, hwaited⟩ := withTally_eq_some_iff.mp h
  have honTime := onTime_step hs.onTime hstep
  rw [hwaited]
  cases e with
  | passes elapsed =>
    have hnone : sendTime s.1 (.passes elapsed) = [] := if_neg Bool.false_ne_true
    have hnow := Option.some.inj hstep
    rw [hnone, List.append_nil, if_neg (by exact Bool.false_ne_true), ← hnow]
    rw [← hnow] at honTime
    exact hs.passes hprompt honTime
  | act action =>
    by_cases hsend : action.isSend = true
    · have hone : sendTime s.1 (.act action) = [s.1.now] := if_pos hsend
      rw [hone, if_pos (by exact hsend)]
      generalize s'.1 = u at hstep honTime ⊢
      cases step_ticks hstep with
      | sends hpc hpc' => exact hs.sends hpc hpc' honTime
      | resets hresets => exact absurd hresets hepoch
      | arms | fires => cases hsend
      | keeps _ hno => exact absurd (hno.symm.trans hsend) Bool.false_ne_true
    · have hnone : sendTime s.1 (.act action) = [] := if_neg hsend
      have hkept : s.2 + kept s.1 (.act action) = s.2 := Nat.add_zero _
      rw [hnone, List.append_nil, if_neg (by exact hsend), hkept]
      generalize s'.1 = u at hstep honTime ⊢
      cases step_ticks hstep with
      | sends => exact absurd rfl hsend
      | resets hresets => exact absurd hresets hepoch
      | arms hpc hpc' => exact hs.arms hlate hpc hpc' honTime
      | @fires session hpc hexpired hpc' =>
        have hticking : phaseOf s.1.session.pc = .ticking := by rw [hpc, phaseOf]
        have hticking' : phaseOf session.pc = .ticking := by rw [hpc', phaseOf]
        refine hs.keep honTime (fun hp => ?_) fun _ => hticking
        exact absurd (hp.symm.trans hticking') (by decide)
      | keeps hresets hno hbetween hticking => exact hs.keep honTime hbetween hticking

/-- The times at which a run hands frames to `send_frame`. -/
def sendTimes (s : State) (es : List Event) : List ℕ := runLog step sendTime s es

/-- From the start of the loop or the end of a pause to the next pause, where the waits of each
tick add up to `late` at most, and that is an interval at most, the frame `k` is sent when its tick
is due and no later than `late` after it: lateness does not add up, and no tick is missed. -/
theorem frames_on_schedule {hasObserver : Bool} {now : ℕ} {before es : List Event} {e : Event}
    {s s' t : State} {late : ℕ} (hlate : late ≤ AUDIO_TICK_INTERVAL)
    (hbefore : runEvents step (initial hasObserver now) before = some s)
    (hresets : e.Resets) (hstep : step s e = some s') (hepoch : ∀ d ∈ es, ¬d.Resets)
    (hprompt : Meets waitStep (Prompt late) (s', 0) es) (hrun : runEvents step s' es = some t) :
    (∀ k time, (sendTimes s' es)[k]? = some time →
        s.now + AUDIO_TICK_INTERVAL * (k + 1) ≤ time ∧
          time ≤ s.now + AUDIO_TICK_INTERVAL * (k + 1) + late) ∧
      (Playing t →
        t.now ≤ s.now + AUDIO_TICK_INTERVAL * ((sendTimes s' es).length + 1) + late) := by
  have honTime := run_invariant_of_step (fun _ _ _ => onTime_step)
    (onTime_initial hasObserver now) hbefore
  obtain ⟨waited, hwaits, hlog⟩ := runEvents_withTally kept Event.isSend sendTime hrun 0
  have hschedule : OnSchedule s.now late
      ([] ++ runLog waitStep (fun s e => sendTime s.1 e) (s', 0) es) t waited :=
    run_log_invariant
      (I := fun times (u : State × ℕ) => OnSchedule s.now late times u.1 u.2)
      (fun _ _ _ _ hs hok h => OnSchedule.step hlate hs hok.1 hok.2 h)
      (onSchedule_reset honTime hresets hstep late) (hprompt.and (meets_of_events hepoch _)) hwaits
  rw [List.nil_append, waitStep, hlog] at hschedule
  exact ⟨hschedule.sent, hschedule.now_le hlate⟩

/-- Three ticks in each of which the loop waits for fifteen milliseconds: for its timer to be
served, in the tick, and both before it arms the timer and in the tick. -/
def lateTicks : List Event :=
  [.act .testRunning, .act .testPaused, .act .arm, .passes 35000000, .act .timerExpires,
    .act .tick, .act (.frame true), .act .send, .act .testRunning, .act .testPaused, .act .arm,
    .passes 5000000, .act .timerExpires, .act .tick, .passes 15000000, .act (.frame true),
    .act .send, .passes 10000000, .act .testRunning, .act .testPaused, .act .arm,
    .act .timerExpires, .act .tick, .act (.frame true), .passes 5000000, .act .send]

/-- Three ticks of 15 ms waits stay 15 ms late and no more. -/
theorem frames_on_schedule_late :
    ∃ s s' t, runEvents step (initial true 5) [.act .start, .passes 7] = some s ∧
      step s (.act (.prepared true)) = some s' ∧ runEvents step s' lateTicks = some t ∧
      (∀ k time, (sendTimes s' lateTicks)[k]? = some time →
        s.now + AUDIO_TICK_INTERVAL * (k + 1) ≤ time ∧
          time ≤ s.now + AUDIO_TICK_INTERVAL * (k + 1) + 15000000) ∧
      (Playing t → t.now ≤
        s.now + AUDIO_TICK_INTERVAL * ((sendTimes s' lateTicks).length + 1) + 15000000) := by
  have hsome : (runEvents step
      ⟨⟨true, false, false, .testRunning, .none, true⟩, true, 12, 12, 5, 12⟩ lateTicks).isSome =
        true := by decide
  obtain ⟨t, ht⟩ := Option.isSome_iff_exists.mp hsome
  have hbefore : runEvents step (initial true 5) [.act .start, .passes 7] =
      some ⟨⟨true, false, false, .preparing, .none, true⟩, true, 12, 5, 5, 5⟩ := rfl
  exact ⟨_, _, t, hbefore, rfl, ht,
    frames_on_schedule (by decide) hbefore (.inr rfl) rfl (by decide) (by decide) ht⟩

end HermesFlow.Session.Timed
