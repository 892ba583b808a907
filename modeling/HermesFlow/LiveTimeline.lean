import HermesFlow.LiveSession

/-!
# The timeline of a live session

The audio part of a session is the machine of its frames and refills: a frame
that has been taken and not yet sent counts as sent there. Pausing, resuming and
the clock are no steps of that machine, so they neither skip a frame of the
timeline nor repeat one, and stopping cuts the timeline off.
-/

namespace HermesFlow.Live

open Audio EventRun
open Audio.Timeline (PlayedTo Plays startReads timeline mixedThenDelayGraph mixedThenDelaySession
  mixerProgress parse_mixedThenDelay plays_mixedThenDelay rampFile served_delay
  served_mixerProgress timeline_mixedThenDelay)
open Session.Timed (phaseOf)

variable {Shifter : Type} {fx : FloatOps Shifter}

/-- The audio part of a session in its loop, with the frame that is about to be sent. -/
def audioPart (s : State Shifter) (produced : List (NodeRef × List UInt8)) :
    Dispatch.State Shifter :=
  if s.timed.session.pc = .sending then
    ⟨countPacket s.executor, s.pcmBuffer, true, s.sent ++ [s.pcmBuffer], produced⟩
  else ⟨s.executor, s.pcmBuffer, true, s.sent, produced⟩

/-- What a session in its loop, or after it, is for the machine of its audio part. -/
structure Renders (s : State Shifter) (d : Dispatch.State Shifter) : Prop where
  /-- The graph is prepared. -/
  prepared : ¬Unprepared s
  /-- Inside the loop the audio part is this machine's state. -/
  looping : phaseOf s.timed.session.pc ≠ .outside → ∃ produced, d = audioPart s produced
  /-- What has been sent is a part of what the machine sent. -/
  sent : s.sent <+: d.sent

/-- A session that is not prepared yet has the nodes of its graph. -/
structure Fresh (graph : Infra.Graph) (disk : String → Option (List UInt8)) (shifter : Shifter)
    (stats : SessionStats) (pcmBuffer : List UInt8) (s : State Shifter) : Prop where
  /-- Nothing is prepared. -/
  unprepared : Unprepared s
  /-- The graph is the one given. -/
  holdsGraph : s.graph = graph
  /-- The executor is the one created for it. -/
  executor : s.executor = AudioExecutor.create graph disk shifter stats
  /-- The buffer is the one given. -/
  pcmBuffer : s.pcmBuffer = pcmBuffer
  /-- Nothing has been sent. -/
  sent : s.sent = []

/-- What the audio part of a session has done after so many ticks, in runs that meet a guard. -/
structure Follows (fx : FloatOps Shifter)
    (ok : Dispatch.State Shifter → Dispatch.Event → Prop) (plan : ℕ → Dispatch.State Shifter → Prop)
    (start : Dispatch.State Shifter) : Prop where
  /-- It starts with no tick. -/
  starts : plan 0 start
  /-- A tick that meets the guard is one more. -/
  tick : ∀ {ticks : ℕ} {d d' : Dispatch.State Shifter} {faults : ℕ → Option String},
    plan ticks d → ok d (.frame faults) → Dispatch.step fx d (.frame faults) = some d' →
      plan (ticks + 1) d'
  /-- A step of a refill that meets the guard is none. -/
  task : ∀ {ticks : ℕ} {d d' : Dispatch.State Shifter} {i : ℕ} {t : FileInputNode.Task},
    plan ticks d → ok d (.task i t) → Dispatch.step fx d (.task i t) = some d' → plan ticks d'
  /-- The guard does not see what the nodes have produced before. -/
  blind : ∀ {d : Dispatch.State Shifter} {e : Dispatch.Event}
    (produced : List (NodeRef × List UInt8)), ok d e → ok { d with produced := produced } e

/-- The guard of runs whose audio part meets one: every read of `prepare` succeeds, too. -/
def Serves (ok : Dispatch.State Shifter → Dispatch.Event → Prop) (s : State Shifter) : Event → Prop
  | .prepared (.ok ()) reads => ∀ i, reads i = (true, true)
  | .frame faults => ok (audioPart s []) (.frame faults)
  | .task i t => ok (audioPart s []) (.task i t)
  | .prepared (.error _) _ | .passes _ | .act _ => True

/-- The guard of runs whose nodes are served: the refills are in time, and the file system reads
and closes. -/
def Served : State Shifter → Event → Prop := Serves Timeline.Served

/-- The session has not started, or its audio part follows its plan. -/
def Rehearsed (graph : Infra.Graph) (disk : String → Option (List UInt8)) (shifter : Shifter)
    (stats : SessionStats) (pcmBuffer : List UInt8) (plan : ℕ → Dispatch.State Shifter → Prop)
    (s : State Shifter) : Prop :=
  Fresh graph disk shifter stats pcmBuffer s ∨ ∃ ticks d, plan ticks d ∧ Renders s d

section Step

variable {s s' : State Shifter} {e : Event}

variable {graph : Infra.Graph} {disk : String → Option (List UInt8)} {shifter : Shifter}
  {stats : SessionStats} {pcmBuffer : List UInt8}
  {ok : Dispatch.State Shifter → Dispatch.Event → Prop}
  {plan : ℕ → Dispatch.State Shifter → Prop} {start : Dispatch.State Shifter}

/-- After the loop nothing more is sent. -/
theorem Renders.outside {d : Dispatch.State Shifter} (h : Renders s d)
    (hprepared : ¬Unprepared s') (hphase : phaseOf s'.timed.session.pc = .outside)
    (hsent : s'.sent = s.sent) : Renders s' d :=
  ⟨hprepared, fun hloop => absurd hphase hloop, hsent ▸ h.sent⟩

/-- The first step after `prepare`. -/
theorem rehearsed_prepared (hplan : plan 0 (startReads graph disk shifter stats pcmBuffer))
    (h : Fresh graph disk shifter stats pcmBuffer s) {reads : ℕ → Bool × Bool}
    (hreads : ∀ i, reads i = (true, true)) {timed : Session.Timed.State}
    (hpc : timed.session.pc = .testRunning) :
    Rehearsed graph disk shifter stats pcmBuffer plan
      { configureStreamerFromGraph { s with executor := s.executor.prepare s.graph reads } with
        timed := timed } := by
  obtain rfl : reads = fun _ => (true, true) := funext hreads
  refine .inr ⟨0, _, hplan, ?_⟩
  rw [configureStreamerFromGraph_eq]
  refine ⟨?_, fun _ => ⟨[], ?_⟩, ?_⟩
  · simp [Unprepared, hpc]
  · rw [audioPart, if_neg (by simp [hpc]), h.executor, h.holdsGraph]
    dsimp only
    rw [h.sent, h.pcmBuffer]
    rfl
  · dsimp only
    rw [h.sent]
    exact List.nil_prefix

/-- Outside the sending of a frame the audio part is what the session holds. -/
theorem audioPart_of_not_sending (hpc : s.timed.session.pc ≠ .sending)
    (produced : List (NodeRef × List UInt8)) :
    audioPart s produced = ⟨s.executor, s.pcmBuffer, true, s.sent, produced⟩ := if_neg hpc

/-- A running machine answers a frame's event with a tick. -/
theorem dispatch_frame {d : Dispatch.State Shifter} (hrunning : d.isRunning = true)
    (faults : ℕ → Option String) :
    Dispatch.step fx d (.frame faults) = some (Dispatch.processAndStreamSingleFrame fx d faults) :=
  if_pos hrunning

/-- A tick of the executor, of a loop that goes on. -/
theorem processAndStream_continues {d : Dispatch.State Shifter} {faults : ℕ → Option String}
    (hcontinue : (Dispatch.nextFrame fx d faults).wantsContinue = true) :
    Dispatch.processAndStreamSingleFrame fx d faults =
      ⟨countPacket (Dispatch.nextFrame fx d faults).executor,
        (Dispatch.nextFrame fx d faults).outputBuffer, d.isRunning,
        d.sent ++ [(Dispatch.nextFrame fx d faults).outputBuffer],
        d.produced ++ Dispatch.produce fx d⟩ := by
  unfold Dispatch.processAndStreamSingleFrame
  dsimp only
  rw [if_neg (by rw [hcontinue]; exact Bool.noConfusion)]
  rfl

/-- A tick of the executor that ends the loop. -/
theorem processAndStream_ends {d : Dispatch.State Shifter} {faults : ℕ → Option String}
    (hends : (Dispatch.nextFrame fx d faults).wantsContinue = false) :
    (Dispatch.processAndStreamSingleFrame fx d faults).sent = d.sent ∧
      (Dispatch.processAndStreamSingleFrame fx d faults).isRunning = false := by
  unfold Dispatch.processAndStreamSingleFrame
  dsimp only
  rw [if_pos hends]
  exact ⟨rfl, rfl⟩

/-- The guard of the audio part, with whatever it has produced. -/
theorem Follows.ok_audioPart (hfollows : Follows fx ok plan start) {e : Dispatch.Event}
    (hok : ok (audioPart s []) e) (produced : List (NodeRef × List UInt8)) :
    ok (audioPart s produced) e := by
  have hproduced : { audioPart s [] with produced := produced } = audioPart s produced := by
    unfold audioPart
    split <;> rfl
  exact hproduced ▸ hfollows.blind produced hok

/-- The frame of a tick is the next one of the plan. -/
theorem Renders.frame (hfollows : Follows fx ok plan start) {ticks : ℕ}
    {d : Dispatch.State Shifter} (hplan : plan ticks d) (h : Renders s d)
    (hpc : s.timed.session.pc = .processing) {faults : ℕ → Option String}
    (hserved : Serves ok s (.frame faults)) {timed : Session.Timed.State}
    (hpc' : timed.session.pc =
      if (nextFrame fx s faults).wantsContinue = true then .sending else .teardown) :
    ∃ d', plan (ticks + 1) d' ∧
      Renders { processFrame s (nextFrame fx s faults) with timed := timed } d' := by
  have hnot : s.timed.session.pc ≠ .sending := by rw [hpc]; exact nofun
  obtain ⟨produced, rfl⟩ := h.looping (by rw [hpc]; exact nofun)
  have hok := hfollows.ok_audioPart hserved produced
  rw [audioPart_of_not_sending hnot] at hok hplan
  have hcall : Dispatch.nextFrame fx ⟨s.executor, s.pcmBuffer, true, s.sent, produced⟩ faults =
      nextFrame fx s faults := rfl
  refine ⟨_, hfollows.tick hplan hok (dispatch_frame rfl faults), ?_⟩
  cases hcontinue : (nextFrame fx s faults).wantsContinue with
  | true =>
    rw [hcontinue, if_pos rfl] at hpc'
    rw [processAndStream_continues (hcall ▸ hcontinue)]
    refine ⟨by simp [Unprepared, hpc'], fun _ => ⟨produced ++ Dispatch.produce fx
      ⟨s.executor, s.pcmBuffer, true, s.sent, produced⟩, ?_⟩, List.prefix_append _ _⟩
    rw [audioPart, if_pos hpc']
    rfl
  | false =>
    rw [hcontinue, if_neg Bool.false_ne_true] at hpc'
    refine ⟨by simp [Unprepared, hpc'], fun hloop => ?_, ?_⟩
    · exact absurd (by rw [hpc']; rfl) hloop
    · rw [(processAndStream_ends (hcall ▸ hcontinue)).1]
      exact List.prefix_rfl

/-- A refill is one of the audio part, in whatever position the coroutine is. -/
theorem Renders.task (hfollows : Follows fx ok plan start) {ticks : ℕ}
    {d : Dispatch.State Shifter} (hplan : plan ticks d) (h : Renders s d) {i : ℕ}
    {t : FileInputNode.Task} {n : FileInputNode Shifter} (hserved : Serves ok s (.task i t))
    (hrun : (s.executor.nodes.files i).runTask t = some n) :
    ∃ d', plan ticks d' ∧
      Renders { s with executor := { s.executor with nodes := { s.executor.nodes with
        files := Function.update s.executor.nodes.files i n } } } d' := by
  by_cases hphase : phaseOf s.timed.session.pc = .outside
  · exact ⟨d, hplan, h.outside h.prepared hphase rfl⟩
  · obtain ⟨produced, rfl⟩ := h.looping hphase
    have hstep : Dispatch.step fx (audioPart s produced) (.task i t) =
        some (audioPart { s with executor := { s.executor with nodes := { s.executor.nodes with
          files := Function.update s.executor.nodes.files i n } } } produced) := by
      by_cases hpc : s.timed.session.pc = .sending
      · simp only [audioPart, if_pos hpc, Dispatch.step, countPacket, hrun, Option.map_some]
      · simp only [audioPart, if_neg hpc, Dispatch.step, hrun, Option.map_some]
    have hok := hfollows.ok_audioPart hserved produced
    refine ⟨_, hfollows.task hplan hok hstep, h.prepared, fun _ => ⟨produced, rfl⟩, ?_⟩
    unfold audioPart
    split
    · exact List.prefix_append _ _
    · exact List.prefix_rfl

/-- The dispatch of a frame that the audio part has sent. -/
theorem Renders.send {d : Dispatch.State Shifter} (h : Renders s d)
    (hpc : s.timed.session.pc = .sending) {timed : Session.Timed.State}
    (hpc' : timed.session.pc = .testRunning) :
    Renders { dispatchAudio s with timed := timed } d := by
  obtain ⟨produced, rfl⟩ := h.looping (by rw [hpc]; exact nofun)
  have hpart : audioPart s produced =
      ⟨countPacket s.executor, s.pcmBuffer, true, s.sent ++ [s.pcmBuffer], produced⟩ := if_pos hpc
  rw [hpart, dispatchAudio_eq]
  refine ⟨by simp [Unprepared, hpc'], fun _ => ⟨produced, ?_⟩, List.prefix_rfl⟩
  rw [audioPart, if_neg (by simp [hpc'])]

/-- A prepared session follows the plan. -/
theorem Rehearsed.renders (h : Rehearsed graph disk shifter stats pcmBuffer plan s)
    (hprepared : ¬Unprepared s) : ∃ ticks d, plan ticks d ∧ Renders s d :=
  h.resolve_left fun hfresh => hprepared hfresh.unprepared

/-- A step that sends nothing and ends outside the loop. -/
theorem Rehearsed.outside (hplan : plan 0 (startReads graph disk shifter stats pcmBuffer))
    (h : Rehearsed graph disk shifter stats pcmBuffer plan s) (hprepared : ¬Unprepared s')
    (hphase : phaseOf s'.timed.session.pc = .outside) (hsent : s'.sent = s.sent) :
    Rehearsed graph disk shifter stats pcmBuffer plan s' := by
  rcases h with hfresh | ⟨ticks, d, hd, hrenders⟩
  · refine .inr ⟨0, _, hplan, hprepared, fun hloop => absurd hphase hloop, ?_⟩
    rw [hsent, hfresh.sent]
    exact List.nil_prefix
  · exact .inr ⟨ticks, d, hd, hrenders.outside hprepared hphase hsent⟩

/-- A step without an effect of its own. -/
theorem Rehearsed.keep (h : Rehearsed graph disk shifter stats pcmBuffer plan s)
    {timed : Session.Timed.State}
    (hloop : phaseOf timed.session.pc ≠ .outside → phaseOf s.timed.session.pc ≠ .outside)
    (hsending : timed.session.pc = .sending ↔ s.timed.session.pc = .sending)
    (hprepared : Unprepared { s with timed := timed } ↔ Unprepared s) :
    Rehearsed graph disk shifter stats pcmBuffer plan { s with timed := timed } := by
  rcases h with hfresh | ⟨ticks, d, hd, hrenders⟩
  · exact .inl ⟨hprepared.mpr hfresh.unprepared, hfresh.holdsGraph, hfresh.executor,
      hfresh.pcmBuffer, hfresh.sent⟩
  · refine .inr ⟨ticks, d, hd, mt hprepared.mp hrenders.prepared, fun hphase => ?_, hrenders.sent⟩
    obtain ⟨produced, hpart⟩ := hrenders.looping (hloop hphase)
    refine ⟨produced, hpart.trans ?_⟩
    simp only [audioPart, hsending]

/-- A frame of the coroutine. -/
theorem frame_moves {wantsContinue : Bool} {now later : Session.Timed.State}
    (h : runEvents Session.Timed.step now [.act (.frame wantsContinue)] = some later) :
    now.session.pc = .processing ∧
      later.session.pc = if wantsContinue = true then .sending else .teardown := by
  obtain ⟨session, hsession, hmoves⟩ := session_moves h
  rw [hsession]
  cases hmoves with
  | frame hpc => exact ⟨hpc, rfl⟩
  | lastFrame hpc => exact ⟨hpc, rfl⟩

/-- Each step of a session that meets the guard follows the plan. -/
theorem rehearsed_step
    (hfollows : Follows fx ok plan (startReads graph disk shifter stats pcmBuffer))
    (hs : Rehearsed graph disk shifter stats pcmBuffer plan s) (hserved : Serves ok s e)
    (h : step fx s e = some s') : Rehearsed graph disk shifter stats pcmBuffer plan s' := by
  have hstart := hfollows.starts
  obtain ⟨htimed, m, heffect, hs'⟩ := step_eq_some_iff.mp h
  rw [hs']
  generalize s'.timed = timed at htimed
  cases effect_effects heffect with
  | passes elapsed =>
    obtain ⟨_, hpass, hend⟩ := runEvents_cons_iff.mp htimed
    cases hpass
    cases hend
    exact hs.keep id Iff.rfl Iff.rfl
  | prepareOk reads =>
    obtain ⟨session, hsession, hmoves⟩ := session_moves htimed
    rcases hs with hfresh | ⟨ticks, d, hd, hrenders⟩
    · refine rehearsed_prepared hstart hfresh hserved ?_
      cases hmoves with
      | prepareOk => rw [hsession]
    · cases hmoves with
      | prepareOk hpc => exact absurd (.inr hpc) hrenders.prepared
  | prepareFails error reads =>
    obtain ⟨session, hsession, hmoves⟩ := session_moves htimed
    cases hmoves with
    | prepareFails hpc =>
      exact hs.outside hstart (by simp [Unprepared, hsession]) (by rw [hsession]; rfl)
        (notify_sent _ _)
  | frame faults =>
    obtain ⟨hpc, hpc'⟩ := frame_moves htimed
    obtain ⟨ticks, d, hd, hrenders⟩ := hs.renders (by simp [Unprepared, hpc])
    obtain ⟨d', hd', hrenders'⟩ := hrenders.frame hfollows hd hpc hserved hpc'
    exact .inr ⟨ticks + 1, d', hd', hrenders'⟩
  | task hprepared hrun =>
    cases htimed
    obtain ⟨ticks, d, hd, hrenders⟩ := hs.renders hprepared
    obtain ⟨d', hd', hrenders'⟩ := hrenders.task hfollows hd hserved hrun
    exact .inr ⟨ticks, d', hd', hrenders'⟩
  | send =>
    obtain ⟨session, hsession, hmoves⟩ := session_moves htimed
    cases hmoves with
    | send hpc =>
      obtain ⟨ticks, d, hd, hrenders⟩ := hs.renders (by simp [Unprepared, hpc])
      exact .inr ⟨ticks, d, hd, hrenders.send hpc (by rw [hsession])⟩
  | tickAborted hpc =>
    obtain ⟨session, hsession, hmoves⟩ := session_moves htimed
    cases hmoves with
    | tickAborted =>
      exact hs.outside hstart (by simp [Unprepared, hsession]) (by rw [hsession]; rfl) rfl
    | tick hfired => cases hfired.symm.trans hpc
  | throws =>
    obtain ⟨session, hsession, hmoves⟩ := session_moves htimed
    cases hmoves with
    | throws =>
      exact hs.outside hstart (by simp [Unprepared, hsession]) (by rw [hsession]; rfl) rfl
  | teardown =>
    obtain ⟨session, hsession, hmoves⟩ := session_moves htimed
    cases hmoves with
    | teardown =>
      exact hs.outside hstart (by simp [Unprepared, hsession]) (by rw [hsession]; rfl)
        (notify_sent _ _)
  | plain hplain =>
    obtain ⟨session, rfl, hmoves⟩ := session_moves htimed
    obtain ⟨hloop, hsending, hunprepared, -⟩ := plain_moves hmoves hplain
    exact hs.keep hloop hsending hunprepared

end Step

section Run

variable {graph : Infra.Graph} {disk : String → Option (List UInt8)} {shifter : Shifter}
  {stats : SessionStats} {pcmBuffer : List UInt8} {isWebrtc : Bool} {janusPort : Option UInt16}
  {hasObserver : Bool} {now : ℕ} {es : List Event} {t : State Shifter}

/-- Every run of a session plays a run of its audio part. -/
theorem rehearsed_run {ok : Dispatch.State Shifter → Dispatch.Event → Prop}
    {plan : ℕ → Dispatch.State Shifter → Prop}
    (hfollows : Follows fx ok plan (startReads graph disk shifter stats pcmBuffer))
    (hserved : Meets (step fx) (Serves ok)
      (spawned graph disk shifter stats pcmBuffer isWebrtc janusPort hasObserver now) es)
    (hrun : runEvents (step fx)
      (spawned graph disk shifter stats pcmBuffer isWebrtc janusPort hasObserver now) es = some t) :
    Rehearsed graph disk shifter stats pcmBuffer plan t :=
  run_invariant (fun _ _ _ hs hok h => rehearsed_step hfollows hs hok h)
    (.inl ⟨.inl rfl, rfl, rfl, rfl, rfl⟩) hserved hrun

/-- The last frame of a run is the next one of the plan. -/
theorem frame_of_run {ok : Dispatch.State Shifter → Dispatch.Event → Prop}
    {plan : ℕ → Dispatch.State Shifter → Prop}
    (hfollows : Follows fx ok plan (startReads graph disk shifter stats pcmBuffer))
    {faults : ℕ → Option String}
    (hserved : Meets (step fx) (Serves ok)
      (spawned graph disk shifter stats pcmBuffer isWebrtc janusPort hasObserver now)
        (es ++ [.frame faults]))
    (hrun : runEvents (step fx)
      (spawned graph disk shifter stats pcmBuffer isWebrtc janusPort hasObserver now)
        (es ++ [.frame faults]) = some t) :
    ∃ s d ticks, step fx s (.frame faults) = some t ∧ plan ticks d ∧ ok d (.frame faults) ∧
      plan (ticks + 1) (Dispatch.processAndStreamSingleFrame fx d faults) ∧
        ∃ produced, d = ⟨s.executor, s.pcmBuffer, true, s.sent, produced⟩ := by
  obtain ⟨s, hbefore, hlast⟩ := runEvents_append_iff.mp hrun
  obtain ⟨hmeets, hframe⟩ := meets_append_iff.mp hserved
  obtain ⟨_, hstep, hend⟩ := runEvents_cons_iff.mp hlast
  cases hend
  obtain ⟨hpc, -⟩ := frame_moves (step_eq_some_iff.mp hstep).1
  have hnot : s.timed.session.pc ≠ .sending := by rw [hpc]; exact nofun
  rcases rehearsed_run hfollows hmeets hbefore with hfresh | ⟨ticks, d, hd, hrenders⟩
  · have hunprepared := hfresh.unprepared
    simp [Unprepared, hpc] at hunprepared
  · obtain ⟨produced, rfl⟩ := hrenders.looping (by rw [hpc]; exact nofun)
    have hok := hfollows.ok_audioPart (show ok (audioPart s []) (.frame faults) from
      (hframe s hbefore).1) produced
    rw [audioPart_of_not_sending hnot] at hd hok
    exact ⟨s, _, ticks, hstep, hd, hok, hfollows.tick hd hok (dispatch_frame rfl faults),
      produced, rfl⟩

/-- A session whose nodes are served follows its timeline. -/
theorem follows_timeline (hfx : fx.toEffects.InPlace) {chain : List NodeRef}
    {start : Dispatch.State Shifter} (hscored : Timeline.Scored fx chain start) :
    Follows fx Timeline.Served (PlayedTo fx start.executor.nodes chain) start where
  starts := Timeline.playedTo_start hscored
  tick := fun hplayed hserved hstep => hplayed.tick hfx hscored.playable hserved hstep
  task := fun hplayed hserved hstep => hplayed.task hscored.playable hserved hstep
  blind := fun {_ e} _ hserved => by cases e <;> exact hserved

/-- In every run the frames that have been sent last no longer than the session has played. -/
theorem sent_paid
    (hrun : runEvents (step fx)
      (spawned graph disk shifter stats pcmBuffer isWebrtc janusPort hasObserver now) es = some t) :
    Session.Timed.AUDIO_TICK_INTERVAL * t.sent.length ≤ playedTime fx
      (spawned graph disk shifter stats pcmBuffer isWebrtc janusPort hasObserver now) es := by
  have hpaid := run_cost_le_earned
    (fun s : State Shifter => Session.Timed.timeInHand s.timed +
      Session.Timed.AUDIO_TICK_INTERVAL * s.sent.length) (fun _ _ => 0) played
    (fun s e s' (hs : Session.Timed.OnTime s.timed) _ h =>
      ⟨(timeInHand_step hs h).1, (timeInHand_step hs h).2⟩)
    (Session.Timed.onTime_initial hasObserver now) (meets_of_forall (fun _ _ => trivial) _ es) hrun
  refine ((Nat.le_add_left _ _).trans (Nat.le_add_right _ _)).trans (hpaid.trans_eq ?_)
  exact Nat.zero_add _

/-- Served in time, a session of an accepted flow sends a prefix of the timeline. -/
theorem sent_within {lib : Infra.Library} {o : Infra.JsonObject}
    (hparse : Infra.parseGraph lib o = .ok graph) (hfx : fx.toEffects.InPlace)
    (hbuffer : pcmBuffer.length = FRAME_SIZE_BYTES) {chain : List NodeRef}
    (hplays : Plays (startReads graph disk shifter stats pcmBuffer) chain)
    (hserved : Meets (step fx) Served
      (spawned graph disk shifter stats pcmBuffer isWebrtc janusPort hasObserver now) es)
    (hrun : runEvents (step fx)
      (spawned graph disk shifter stats pcmBuffer isWebrtc janusPort hasObserver now) es = some t) :
    t.sent <+: (timeline fx (startReads graph disk shifter stats pcmBuffer).executor.nodes
      chain).dropLast := by
  rcases rehearsed_run (follows_timeline hfx (Timeline.scored_startReads hparse hbuffer hplays))
    hserved hrun with hfresh | ⟨ticks, d, hd, hrenders⟩
  · rw [hfresh.sent]
    exact List.nil_prefix
  · exact hrenders.sent.trans (hd.sent.1 ▸ List.take_prefix _ _)

/-- A loop that ends by itself has sent all of it, and reports success. -/
theorem sent_all {lib : Infra.Library} {o : Infra.JsonObject}
    (hparse : Infra.parseGraph lib o = .ok graph) (hfx : fx.toEffects.InPlace)
    (hbuffer : pcmBuffer.length = FRAME_SIZE_BYTES) {chain : List NodeRef}
    (hplays : Plays (startReads graph disk shifter stats pcmBuffer) chain)
    {faults : ℕ → Option String}
    (hserved : Meets (step fx) Served
      (spawned graph disk shifter stats pcmBuffer isWebrtc janusPort hasObserver now)
        (es ++ [.frame faults]))
    (hrun : runEvents (step fx)
      (spawned graph disk shifter stats pcmBuffer isWebrtc janusPort hasObserver now)
        (es ++ [.frame faults]) = some t)
    (hends : t.timed.session.pc = .teardown) :
    t.sent = (timeline fx (startReads graph disk shifter stats pcmBuffer).executor.nodes
        chain).dropLast ∧
      finalizeSession t.exitReason = .sessionComplete := by
  have hscored : Timeline.Scored fx chain (startReads graph disk shifter stats pcmBuffer) :=
    Timeline.scored_startReads hparse hbuffer hplays
  obtain ⟨s, d, ticks, hstep, hd, hok, hnext, produced, rfl⟩ :=
    frame_of_run (follows_timeline hfx hscored) hserved hrun
  obtain ⟨htimed, m, heffect, hs'⟩ := step_eq_some_iff.mp hstep
  obtain ⟨-, hpc'⟩ := frame_moves htimed
  obtain rfl := Option.some.inj heffect
  have hcontinue : (nextFrame fx s faults).wantsContinue = false := by
    by_contra hnot
    rw [if_pos (Bool.eq_true_of_not_eq_false hnot), hends] at hpc'
    cases hpc'
  have hstatus := hd.status hfx hscored.playable rfl hok
  obtain ⟨hplayed, hover⟩ := hnext.sent
  obtain ⟨hsent, hstopped⟩ := @processAndStream_ends _ fx
    ⟨s.executor, s.pcmBuffer, true, s.sent, produced⟩ faults hcontinue
  have hall : ¬ticks + 1 < (timeline fx _ chain).length := fun hlt =>
    Bool.false_ne_true (hstopped.symm.trans (hover.mpr hlt))
  rw [hsent, List.take_of_length_le (by rw [List.length_dropLast]; omega)] at hplayed
  rw [hs']
  refine ⟨hplayed, ?_⟩
  change finalizeSession (if (nextFrame fx s faults).wantsContinue = true then s.exitReason
    else (nextFrame fx s faults).status) = _
  rw [hcontinue, if_neg Bool.false_ne_true]
  exact congrArg finalizeSession hstatus

/-- A run of the session of an accepted flow, whoever pauses, resumes or stops it and however
time passes: what it has sent is a prefix of the timeline, but for its very last frame, and lasts
no longer than the session has been playing. -/
theorem live_plays_timeline {lib : Infra.Library} {o : Infra.JsonObject}
    (hparse : Infra.parseGraph lib o = .ok graph) (hfx : fx.toEffects.InPlace)
    (hbuffer : pcmBuffer.length = FRAME_SIZE_BYTES) {chain : List NodeRef}
    (hplays : Plays (startReads graph disk shifter stats pcmBuffer) chain)
    (hserved : Meets (step fx) Served
      (spawned graph disk shifter stats pcmBuffer isWebrtc janusPort hasObserver now) es)
    (hrun : runEvents (step fx)
      (spawned graph disk shifter stats pcmBuffer isWebrtc janusPort hasObserver now) es = some t) :
    t.sent <+: (timeline fx (startReads graph disk shifter stats pcmBuffer).executor.nodes
        chain).dropLast ∧
      Session.Timed.AUDIO_TICK_INTERVAL * t.sent.length ≤ playedTime fx
        (spawned graph disk shifter stats pcmBuffer isWebrtc janusPort hasObserver now) es :=
  ⟨sent_within hparse hfx hbuffer hplays hserved hrun, sent_paid hrun⟩

/-- A loop that ends by itself has sent the timeline, but for its very last frame, and reports
success. -/
theorem live_finishes_timeline {lib : Infra.Library} {o : Infra.JsonObject}
    (hparse : Infra.parseGraph lib o = .ok graph) (hfx : fx.toEffects.InPlace)
    (hbuffer : pcmBuffer.length = FRAME_SIZE_BYTES) {chain : List NodeRef}
    (hplays : Plays (startReads graph disk shifter stats pcmBuffer) chain)
    {faults : ℕ → Option String}
    (hserved : Meets (step fx) Served
      (spawned graph disk shifter stats pcmBuffer isWebrtc janusPort hasObserver now)
        (es ++ [.frame faults]))
    (hrun : runEvents (step fx)
      (spawned graph disk shifter stats pcmBuffer isWebrtc janusPort hasObserver now)
        (es ++ [.frame faults]) = some t)
    (hends : t.timed.session.pc = .teardown) :
    t.sent = (timeline fx (startReads graph disk shifter stats pcmBuffer).executor.nodes
        chain).dropLast ∧
      finalizeSession t.exitReason = .sessionComplete :=
  sent_all hparse hfx hbuffer hplays hserved hrun hends

end Run

/-- Events at which no node is served. -/
def Event.isFree : Event → Bool
  | .passes _ | .act _ => true
  | .prepared _ _ | .frame _ | .task _ _ => false

/-- Events that the guard does not touch meet it. -/
theorem serves_free {ok : Dispatch.State Shifter → Dispatch.Event → Prop} {s : State Shifter}
    {es : List Event} (h : ∀ e ∈ es, e.isFree = true) : Meets (step fx) (Serves ok) s es := by
  refine (meets_of_events h s).mono (I := fun _ => True) (fun _ _ _ _ _ _ => trivial)
    (fun _ e _ hfree => ?_) trivial
  cases e with
  | passes | act => trivial
  | prepared | frame | task => cases hfree

/-- The start, its preparation and a tick that is a millisecond late, while the session is
paused. -/
def pausedTick : List Event :=
  [.act .start] ++ [.prepared (.ok ()) fun _ => (true, true)] ++
    [.act .testRunning, .act .testPaused, .act .arm, .passes 21000000, .act .timerExpires,
      .act .tick, .act .pause]

/-- The pause, and the next tick. -/
def resumedTick : List Event :=
  [.act .send, .act .testRunning, .act .testPaused, .act .receive, .passes 1000000000,
    .act .resumeFlag, .act .resumeSend, .act .wake, .act .testRunning, .act .testPaused, .act .arm,
    .passes 20000000, .act .timerExpires, .act .tick]

/-- A run up to its second frame. -/
def pausedRun : List Event := pausedTick ++ [.frame fun _ => none] ++ resumedTick

/-- It is served when its two frames are. -/
theorem serves_pausedRun {ok : Dispatch.State Shifter → Dispatch.Event → Prop}
    {start : State Shifter}
    (hfirst : ∀ s, runEvents (step fx) start pausedTick = some s →
      ok (audioPart s []) (.frame fun _ => none))
    (hsecond : ∀ s, runEvents (step fx) start pausedRun = some s →
      ok (audioPart s []) (.frame fun _ => none)) :
    Meets (step fx) (Serves ok) start (pausedRun ++ [.frame fun _ => none]) := by
  refine meets_append_iff.mpr ⟨?_, fun s hs => ⟨hsecond s hs, fun _ _ => trivial⟩⟩
  refine meets_append_iff.mpr ⟨?_, fun _ _ => serves_free (by decide)⟩
  refine meets_append_iff.mpr ⟨?_, fun s hs => ⟨hfirst s hs, fun _ _ => trivial⟩⟩
  refine meets_append_iff.mpr ⟨?_, fun _ _ => serves_free (by decide)⟩
  exact meets_append_iff.mpr
    ⟨serves_free (by decide), fun _ _ => ⟨fun _ => rfl, fun _ _ => trivial⟩⟩

/-- A tick on time. -/
def nextTick : List Event :=
  [.act .send, .act .testRunning, .act .testPaused, .act .arm, .passes 20000000,
    .act .timerExpires, .act .tick]

/-- A run up to its third frame. -/
def mixedRun : List Event := pausedRun ++ [.frame fun _ => none] ++ nextTick

/-- A run whose three frames are a mixer's and a delay's is served. -/
theorem served_mixedRun {start : State Shifter}
    (hfirst : (runEvents (step fx) start pausedTick).map (fun s => mixerProgress (audioPart s [])) =
      some (some (.mixer 0), [1], []))
    (hsecond : (runEvents (step fx) start pausedRun).map (fun s => mixerProgress (audioPart s [])) =
      some (some (.mixer 0), [1], []))
    (hthird : (runEvents (step fx) start mixedRun).map
      (fun s => (audioPart s []).executor.currentNode) = some (some (.delay 2))) :
    Meets (step fx) Served start (mixedRun ++ [.frame fun _ => none]) := by
  refine meets_append_iff.mpr ⟨?_, fun s hs => ⟨?_, fun _ _ => trivial⟩⟩
  · refine meets_append_iff.mpr ⟨?_, fun _ _ => serves_free (by decide)⟩
    refine serves_pausedRun (fun s hs => ?_) fun s hs => ?_
    · rw [hs] at hfirst
      exact served_mixerProgress (Option.some.inj hfirst)
    · rw [hs] at hsecond
      exact served_mixerProgress (Option.some.inj hsecond)
  · rw [hs] at hthird
    exact served_delay (Option.some.inj hthird) _

/-- A session of a mixer of one file, and then a delay. -/
def mixedThenDelayLive : State Unit :=
  spawned mixedThenDelayGraph (fun _ => some rampFile) () ⟨"s", "", 0, 0, 0⟩
    (List.replicate FRAME_SIZE_BYTES 0) false none true 5

/-- The node of each of the example's frames, and the end. -/
theorem ticks_mixedThenDelayLive :
    (runEvents (step Dispatch.idleOps) mixedThenDelayLive pausedTick).map
          (fun s => mixerProgress (audioPart s [])) = some (some (.mixer 0), [1], []) ∧
      (runEvents (step Dispatch.idleOps) mixedThenDelayLive pausedRun).map
          (fun s => mixerProgress (audioPart s [])) = some (some (.mixer 0), [1], []) ∧
      (runEvents (step Dispatch.idleOps) mixedThenDelayLive mixedRun).map
          (fun s => (audioPart s []).executor.currentNode) = some (some (.delay 2)) ∧
      (runEvents (step Dispatch.idleOps) mixedThenDelayLive (mixedRun ++ [.frame fun _ => none])).map
          (fun s => s.timed.session.pc) = some .teardown := by
  decide +kernel

/-- The example is served. -/
theorem served_mixedThenDelayLive :
    Meets (step Dispatch.idleOps) Served mixedThenDelayLive (mixedRun ++ [.frame fun _ => none]) :=
  served_mixedRun ticks_mixedThenDelayLive.1 ticks_mixedThenDelayLive.2.1
    ticks_mixedThenDelayLive.2.2.1

/-- The frames of the file are sent before the last frame. -/
theorem sent_mixedThenDelayLive :
    (runEvents (step Dispatch.idleOps) mixedThenDelayLive mixedRun).map (·.sent) =
      some [rampFile.take FRAME_SIZE_BYTES, rampFile.drop FRAME_SIZE_BYTES] := by
  decide +kernel

/-- The frames of the file are sent, and the pause is not played. -/
theorem live_plays_timeline_paused :
    ∃ t, runEvents (step Dispatch.idleOps) mixedThenDelayLive mixedRun = some t ∧
      t.sent.length = 2 ∧
      t.sent <+: [rampFile.take FRAME_SIZE_BYTES, rampFile.drop FRAME_SIZE_BYTES] ∧
      Session.Timed.AUDIO_TICK_INTERVAL * t.sent.length ≤
        playedTime Dispatch.idleOps mixedThenDelayLive mixedRun := by
  obtain ⟨t, ht, hsent⟩ := Option.map_eq_some_iff.mp sent_mixedThenDelayLive
  obtain ⟨hwithin, hpaid⟩ := live_plays_timeline parse_mixedThenDelay (fun _ _ _ => rfl)
    List.length_replicate plays_mixedThenDelay (meets_append_iff.mp served_mixedThenDelayLive).1 ht
  refine ⟨t, ht, by rw [hsent]; rfl, hwithin.trans ?_, hpaid⟩
  change (timeline Dispatch.idleOps mixedThenDelaySession.executor.nodes _).dropLast <+: _
  rw [timeline_mixedThenDelay]
  exact List.prefix_rfl

/-- The frame of the delay ends the loop. -/
theorem live_finishes_timeline_paused :
    ∃ t, runEvents (step Dispatch.idleOps) mixedThenDelayLive
        (mixedRun ++ [.frame fun _ => none]) = some t ∧
      t.sent = [rampFile.take FRAME_SIZE_BYTES, rampFile.drop FRAME_SIZE_BYTES] ∧
      finalizeSession t.exitReason = .sessionComplete := by
  obtain ⟨t, ht, hpc⟩ := Option.map_eq_some_iff.mp ticks_mixedThenDelayLive.2.2.2
  obtain ⟨hsent, hreason⟩ := live_finishes_timeline parse_mixedThenDelay (fun _ _ _ => rfl)
    List.length_replicate plays_mixedThenDelay served_mixedThenDelayLive ht hpc
  refine ⟨t, ht, hsent.trans ?_, hreason⟩
  change (timeline Dispatch.idleOps mixedThenDelaySession.executor.nodes _).dropLast = _
  rw [timeline_mixedThenDelay]
  rfl

end HermesFlow.Live
