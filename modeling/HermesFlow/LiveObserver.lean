import HermesFlow.LiveTimeline

/-!
# What the observer of a live session is told

The port of a WebRTC session first, then updates with ever more packets, and
when `start` returns its report, once and last: the order in which a session
calls its observer does not depend on who pauses, resumes or stops it. A failed
`prepare` is told of as well, in place of the updates.
-/

namespace HermesFlow.Live

open Audio EventRun
open Audio.Stats (Named getNextFrame_counted)
open Session.Timed (UpdateNeeded phaseOf)

variable {Shifter : Type} {fx : FloatOps Shifter}

/-- In the loop the statistics name the current node; they count the frames that have been sent. -/
structure Counts (s : State Shifter) : Prop where
  /-- In the loop the statistics name the current node. -/
  named : phaseOf s.timed.session.pc ≠ .outside → Named s.executor
  /-- They count the frames that have been handed to the streamer. -/
  packetsSent : s.executor.stats.packetsSent = s.sent.length

/-- What `finalize_session` has reported. -/
def report (s : State Shifter) : List Notification :=
  if s.timed.session.pc = .removing ∨ s.timed.session.pc = .done then
    [finalizeSession s.exitReason]
  else []

/-- What the observer is told before the loop: nothing, the port of a WebRTC session, or the
failure of `prepare`. -/
def Opens (s : State Shifter) (first : List Notification) (updates : List SessionStats) : Prop :=
  first = [] ∨ first = (webrtcCall s).toList ∨
    ∃ message, first = [.error ("Prep Failed: " ++ message)] ∧ updates = []

/-- What the observer has been told: `first`, then the updates, then the report. -/
structure Story (s : State Shifter) (first : List Notification) (updates : List SessionStats) :
    Prop where
  /-- The session has an observer. -/
  observer : s.timed.hasObserver = true
  /-- What it was told is `first`, the updates and the report. -/
  notifications : s.notifications = first ++ updates.map Notification.statsUpdate ++ report s
  /-- What it was told before the loop is one of these. -/
  opens : Opens s first updates
  /-- Inside the loop `first` is the port of a WebRTC session, if it is one. -/
  looping : phaseOf s.timed.session.pc ≠ .outside → first = (webrtcCall s).toList
  /-- Nothing is told before the graph is prepared. -/
  unprepared : Unprepared s → first = [] ∧ updates = []
  /-- The counts of the updates grow. -/
  increasing : updates.Pairwise fun u v => u.packetsSent < v.packetsSent
  /-- No update counts more frames than were sent. -/
  sent : ∀ u ∈ updates, u.packetsSent ≤ s.sent.length

section Step

variable {s s' : State Shifter} {e : Event} {first : List Notification}
  {updates : List SessionStats}

/-- Counting a packet brings the count one further. -/
theorem Counts.countPacket (h : Counts s) :
    (Live.countPacket s.executor).stats.packetsSent = s.sent.length + 1 := by
  rw [Live.countPacket, h.packetsSent]

/-- A step that leaves the loop, or stays in it, and sends nothing. -/
theorem Counts.keep (h : Counts s) (hexecutor : s'.executor = s.executor) (hsent : s'.sent = s.sent)
    (hloop : phaseOf s'.timed.session.pc ≠ .outside → phaseOf s.timed.session.pc ≠ .outside) :
    Counts s' where
  named := fun hphase => hexecutor ▸ h.named (hloop hphase)
  packetsSent := by rw [hexecutor, hsent, h.packetsSent]

/-- Every step keeps the count. -/
theorem counts_step (hs : Counts s) (h : step fx s e = some s') : Counts s' := by
  obtain ⟨htimed, m, heffect, hs'⟩ := step_eq_some_iff.mp h
  rw [hs']
  generalize s'.timed = timed at htimed
  cases effect_effects heffect with
  | passes elapsed =>
    obtain ⟨_, hpass, hend⟩ := runEvents_cons_iff.mp htimed
    cases hpass
    cases hend
    exact hs.keep rfl rfl id
  | prepareOk reads =>
    rw [configureStreamerFromGraph_eq]
    refine ⟨fun _ r hr => ?_, hs.packetsSent⟩
    dsimp only [AudioExecutor.prepare] at hr ⊢
    rw [Option.mem_def.mp hr]
    rfl
  | frame faults =>
    obtain ⟨hpc, -⟩ := frame_moves htimed
    have hcount := @getNextFrame_counted _ fx s.executor s.pcmBuffer faults
      (hs.named (by simp [phaseOf, hpc]))
    exact ⟨fun _ => hcount.named, hcount.packetsSent.trans hs.packetsSent⟩
  | @task i t n hprepared hrun =>
    cases htimed
    have hstep : Dispatch.step fx ⟨s.executor, s.pcmBuffer, true, s.sent, []⟩ (.task i t) =
        some ⟨{ s.executor with nodes := { s.executor.nodes with
          files := Function.update s.executor.nodes.files i n } }, s.pcmBuffer, true, s.sent, []⟩ := by
      simp only [Dispatch.step, hrun, Option.map_some]
    exact ⟨fun hphase => (Named.task (hs.named hphase) hstep).1, hs.packetsSent⟩
  | send =>
    obtain ⟨session, -, hmoves⟩ := session_moves htimed
    cases hmoves with
    | send hpc =>
      rw [dispatchAudio_eq]
      refine ⟨fun _ => hs.named (by simp [phaseOf, hpc]), ?_⟩
      rw [hs.countPacket, List.length_append, List.length_singleton]
  | prepareFails error reads =>
    obtain ⟨session, hsession, hmoves⟩ := session_moves htimed
    cases hmoves with
    | prepareFails =>
      exact hs.keep (notify_executor _ _) (notify_sent _ _) fun hloop =>
        absurd (by rw [hsession]; rfl) hloop
  | tickAborted hpc =>
    exact hs.keep rfl rfl fun _ => by simp [phaseOf, hpc]
  | throws =>
    obtain ⟨session, hsession, hmoves⟩ := session_moves htimed
    cases hmoves with
    | throws => exact hs.keep rfl rfl fun hloop => absurd (by rw [hsession]; rfl) hloop
  | teardown =>
    obtain ⟨session, hsession, hmoves⟩ := session_moves htimed
    cases hmoves with
    | teardown =>
      exact hs.keep (notify_executor _ _) (notify_sent _ _) fun hloop =>
        absurd (by rw [hsession]; rfl) hloop
  | plain hplain =>
    obtain ⟨session, rfl, hmoves⟩ := session_moves htimed
    exact hs.keep rfl rfl (plain_moves hmoves hplain).1

/-- Before the end nothing is reported. -/
theorem report_of_running (hremoving : s.timed.session.pc ≠ .removing)
    (hdone : s.timed.session.pc ≠ .done) : report s = [] :=
  if_neg (not_or.mpr ⟨hremoving, hdone⟩)

/-- A step that tells the observer nothing. -/
theorem Story.keep (h : Story s first updates)
    (hobserver : s'.timed.hasObserver = s.timed.hasObserver)
    (hnotifications : s'.notifications = s.notifications) (hreport : report s' = report s)
    (hcall : webrtcCall s' = webrtcCall s)
    (hloop : phaseOf s'.timed.session.pc ≠ .outside → phaseOf s.timed.session.pc ≠ .outside)
    (hunprepared : Unprepared s' → Unprepared s) (hsent : s'.sent = s.sent) :
    Story s' first updates where
  observer := hobserver.trans h.observer
  notifications := by rw [hnotifications, hreport, h.notifications]
  opens := by
    unfold Opens
    rw [hcall]
    exact h.opens
  looping := fun hphase => hcall ▸ h.looping (hloop hphase)
  unprepared := fun hp => h.unprepared (hunprepared hp)
  increasing := h.increasing
  sent := hsent ▸ h.sent

/-- A step that tells the observer nothing and does not report. -/
theorem Story.silent (h : Story s first updates) (hremoving : s.timed.session.pc ≠ .removing)
    (hdone : s.timed.session.pc ≠ .done) (hobserver : s'.timed.hasObserver = s.timed.hasObserver)
    (hnotifications : s'.notifications = s.notifications) (hcall : webrtcCall s' = webrtcCall s)
    (hpc' : s'.timed.session.pc = .teardown ∨
      s'.timed.session.pc = .sending ∧ s.timed.session.pc = .processing)
    (hsent : s'.sent = s.sent) : Story s' first updates := by
  have hreport : report s' = report s := by
    rw [report_of_running hremoving hdone]
    rcases hpc' with hpc' | ⟨hpc', -⟩ <;>
      exact report_of_running (by simp [hpc']) (by simp [hpc'])
  refine h.keep hobserver hnotifications hreport hcall (fun hloop => ?_) (fun hunprepared => ?_) hsent
  · rcases hpc' with hpc' | ⟨-, hpc⟩
    · simp [phaseOf, hpc'] at hloop
    · simp [phaseOf, hpc]
  · rcases hpc' with hpc' | ⟨hpc', -⟩ <;> simp [Unprepared, hpc'] at hunprepared

/-- The observer stays. -/
theorem hasObserver_step (h : step fx s e = some s') : s'.timed.hasObserver = s.timed.hasObserver :=
  run_invariant_of_step (I := fun now => now.hasObserver = s.timed.hasObserver)
    (fun _ _ _ hnow hstep => (Session.Timed.hasObserver_step hstep).trans hnow) rfl
    (step_eq_some_iff.mp h).1

/-- The call of a session that has the same observer. -/
theorem webrtcCall_eq (hobserver : s'.timed.hasObserver = s.timed.hasObserver)
    (hwebrtc : s'.isWebrtc = s.isWebrtc) (hport : s'.janusPort = s.janusPort) :
    webrtcCall s' = webrtcCall s := by
  simp only [webrtcCall, hobserver, hwebrtc, hport]

/-- A dispatch tells of the frame that has been sent, if an update is due. -/
theorem Story.send (h : Story s first updates) (hcounts : Counts s)
    (hpc : s.timed.session.pc = .sending) {timed : Session.Timed.State}
    (hobserver : timed.hasObserver = s.timed.hasObserver) (hpc' : timed.session.pc = .testRunning) :
    Story { dispatchAudio s with timed := timed } first
      (updates ++ if UpdateNeeded s.timed then [(countPacket s.executor).stats] else []) := by
  have hfirst : first = (webrtcCall s).toList := h.looping (by simp [phaseOf, hpc])
  have hpackets := hcounts.countPacket
  rw [dispatchAudio_eq]
  refine ⟨hobserver.trans h.observer, ?_, .inr (.inl ?_), fun _ => ?_, ?_, ?_, ?_⟩
  · dsimp only
    rw [report_of_running (by simp [hpc']) (by simp [hpc']), h.notifications,
      report_of_running (by simp [hpc]) (by simp [hpc])]
    split <;> simp
  · simp only [hfirst, webrtcCall, hobserver]
  · simp only [hfirst, webrtcCall, hobserver]
  · intro hunprepared
    simp [Unprepared, hpc'] at hunprepared
  · refine List.pairwise_append.mpr ⟨h.increasing, ?_, fun u hu v hv => ?_⟩
    · split
      · exact List.pairwise_singleton _ _
      · exact List.Pairwise.nil
    · split at hv
      · obtain rfl := List.mem_singleton.mp hv
        exact hpackets ▸ Nat.lt_succ_of_le (h.sent u hu)
      · cases hv
  · intro u hu
    dsimp only
    rw [List.length_append, List.length_singleton]
    rcases List.mem_append.mp hu with hold | hnew
    · exact (h.sent u hold).trans (Nat.le_succ _)
    · split at hnew
      · obtain rfl := List.mem_singleton.mp hnew
        exact hpackets.le
      · cases hnew

/-- `finalize_session` reports. -/
theorem Story.teardown (h : Story s first updates) (hpc : s.timed.session.pc = .teardown)
    {timed : Session.Timed.State} (hobserver : timed.hasObserver = s.timed.hasObserver)
    (hpc' : timed.session.pc = .removing) :
    Story { s.notify [finalizeSession s.exitReason] with timed := timed } first updates := by
  have hnotify : s.notify [finalizeSession s.exitReason] =
      { s with notifications := s.notifications ++ [finalizeSession s.exitReason] } := by
    rw [State.notify, if_pos h.observer]
  rw [hnotify]
  refine ⟨hobserver.trans h.observer, ?_, ?_, ?_, ?_, h.increasing, h.sent⟩
  · dsimp only
    rw [h.notifications, report_of_running (by simp [hpc]) (by simp [hpc]), List.append_nil, report,
      if_pos (.inl hpc')]
  · simp only [Opens, webrtcCall, hobserver]
    exact h.opens
  · intro hloop
    simp [phaseOf, hpc'] at hloop
  · intro hunprepared
    simp [Unprepared, hpc'] at hunprepared

/-- `prepare` has succeeded: the streamer is configured. -/
theorem Story.prepareOk (h : Story s first updates) (hpc : s.timed.session.pc = .preparing)
    {executor : AudioExecutor Shifter} {timed : Session.Timed.State}
    (hobserver : timed.hasObserver = s.timed.hasObserver) (hpc' : timed.session.pc = .testRunning) :
    Story { configureStreamerFromGraph { s with executor := executor } with timed := timed }
      (webrtcCall s).toList [] := by
  obtain ⟨rfl, rfl⟩ := h.unprepared (.inr hpc)
  have hcall : webrtcCall { s with executor := executor } = webrtcCall s := rfl
  rw [configureStreamerFromGraph_eq, hcall]
  refine ⟨hobserver.trans h.observer, ?_, .inr (.inl ?_), fun _ => ?_, ?_, List.Pairwise.nil, ?_⟩
  · dsimp only
    rw [report_of_running (by simp [hpc']) (by simp [hpc']), h.notifications,
      report_of_running (by simp [hpc]) (by simp [hpc])]
    simp
  · simp only [webrtcCall, hobserver]
  · simp only [webrtcCall, hobserver]
  · intro hunprepared
    simp [Unprepared, hpc'] at hunprepared
  · intro u hu
    cases hu

/-- `prepare` has failed. -/
theorem Story.prepareFails (h : Story s first updates) (hpc : s.timed.session.pc = .preparing)
    {message : String} {exitReason : NodeError} {timed : Session.Timed.State}
    (hobserver : timed.hasObserver = s.timed.hasObserver) (hpc' : timed.session.pc = .teardown) :
    Story { s.notify [.error ("Prep Failed: " ++ message)] with
        exitReason := exitReason, timed := timed } [.error ("Prep Failed: " ++ message)] [] := by
  obtain ⟨rfl, rfl⟩ := h.unprepared (.inr hpc)
  have hnotify : s.notify [.error ("Prep Failed: " ++ message)] =
      { s with notifications := s.notifications ++ [.error ("Prep Failed: " ++ message)] } := by
    rw [State.notify, if_pos h.observer]
  rw [hnotify]
  refine ⟨hobserver.trans h.observer, ?_, .inr (.inr ⟨message, rfl, rfl⟩), ?_, ?_,
    List.Pairwise.nil, ?_⟩
  · dsimp only
    rw [report_of_running (by simp [hpc']) (by simp [hpc']), h.notifications,
      report_of_running (by simp [hpc]) (by simp [hpc])]
    simp
  · intro hloop
    simp [phaseOf, hpc'] at hloop
  · intro hunprepared
    simp [Unprepared, hpc'] at hunprepared
  · intro u hu
    cases hu

/-- Each step goes on with the story. -/
theorem story_step (hcounts : Counts s) (hs : ∃ first updates, Story s first updates)
    (h : step fx s e = some s') : ∃ first updates, Story s' first updates := by
  have hobserver := hasObserver_step h
  obtain ⟨first, updates, hstory⟩ := hs
  obtain ⟨htimed, m, heffect, hs'⟩ := step_eq_some_iff.mp h
  rw [hs']
  generalize s'.timed = timed at htimed hobserver
  cases effect_effects heffect with
  | passes elapsed =>
    obtain ⟨_, hpass, hend⟩ := runEvents_cons_iff.mp htimed
    cases hpass
    cases hend
    exact ⟨first, updates, hstory.keep rfl rfl rfl rfl id id rfl⟩
  | task =>
    cases htimed
    exact ⟨first, updates, hstory.keep rfl rfl rfl rfl id id rfl⟩
  | prepareOk reads =>
    obtain ⟨session, hsession, hmoves⟩ := session_moves htimed
    cases hmoves with
    | prepareOk hpc => exact ⟨_, _, hstory.prepareOk hpc hobserver (by rw [hsession])⟩
  | prepareFails error reads =>
    obtain ⟨session, hsession, hmoves⟩ := session_moves htimed
    cases hmoves with
    | prepareFails hpc => exact ⟨_, _, hstory.prepareFails hpc hobserver (by rw [hsession])⟩
  | frame faults =>
    obtain ⟨hpc, hpc'⟩ := frame_moves htimed
    refine ⟨first, updates, hstory.silent (by simp [hpc]) (by simp [hpc]) hobserver rfl
      (webrtcCall_eq hobserver rfl rfl) ?_ rfl⟩
    split at hpc'
    · exact .inr ⟨hpc', hpc⟩
    · exact .inl hpc'
  | send =>
    obtain ⟨session, hsession, hmoves⟩ := session_moves htimed
    cases hmoves with
    | send hpc => exact ⟨first, _, hstory.send hcounts hpc hobserver (by rw [hsession])⟩
  | tickAborted hpc =>
    obtain ⟨session, hsession, hmoves⟩ := session_moves htimed
    cases hmoves with
    | tickAborted =>
      exact ⟨first, updates, hstory.silent (by simp [hpc]) (by simp [hpc]) hobserver rfl
        (webrtcCall_eq hobserver rfl rfl) (.inl (by rw [hsession])) rfl⟩
    | tick hfired => cases hfired.symm.trans hpc
  | throws =>
    obtain ⟨session, hsession, hmoves⟩ := session_moves htimed
    cases hmoves with
    | throws htry =>
      refine ⟨first, updates, hstory.silent (fun hpc => ?_) (fun hpc => ?_) hobserver rfl
        (webrtcCall_eq hobserver rfl rfl) (.inl (by rw [hsession])) rfl⟩ <;>
        · rw [hpc] at htry
          cases htry
  | teardown =>
    obtain ⟨session, hsession, hmoves⟩ := session_moves htimed
    cases hmoves with
    | teardown hpc => exact ⟨first, updates, hstory.teardown hpc hobserver (by rw [hsession])⟩
  | plain hplain =>
    obtain ⟨session, rfl, hmoves⟩ := session_moves htimed
    obtain ⟨hloop, -, hunprepared, hover⟩ := plain_moves hmoves hplain
    exact ⟨first, updates, hstory.keep hobserver rfl (if_congr hover rfl rfl)
      (webrtcCall_eq hobserver rfl rfl) hloop hunprepared.mp rfl⟩

/-- The story of a session that has just been spawned. -/
theorem story_spawned (graph : Infra.Graph) (disk : String → Option (List UInt8)) (shifter : Shifter)
    (stats : SessionStats) (pcmBuffer : List UInt8) (isWebrtc : Bool) (janusPort : Option UInt16)
    (now : ℕ) :
    Story (spawned graph disk shifter stats pcmBuffer isWebrtc janusPort true now) [] [] where
  observer := rfl
  notifications := rfl
  opens := .inl rfl
  looping := fun hloop => absurd rfl hloop
  unprepared := fun _ => ⟨rfl, rfl⟩
  increasing := List.Pairwise.nil
  sent := fun u hu => by cases hu

end Step

/-- In every run the observer is told, in this order: of the port of a WebRTC session or of a failed
`prepare`, if any; of ever more packets, never more than frames have been handed to the streamer;
and once of the end. -/
theorem live_story {graph : Infra.Graph} {disk : String → Option (List UInt8)} {shifter : Shifter}
    {stats : SessionStats} {pcmBuffer : List UInt8} {isWebrtc : Bool} {janusPort : Option UInt16}
    {now : ℕ} {es : List Event} {t : State Shifter} (hstats : stats.packetsSent = 0)
    (hrun : runEvents (step fx)
      (spawned graph disk shifter stats pcmBuffer isWebrtc janusPort true now) es = some t) :
    ∃ first updates, t.notifications = first ++ updates.map Notification.statsUpdate ++ report t ∧
      Opens t first updates ∧ updates.Pairwise (fun u v => u.packetsSent < v.packetsSent) ∧
      ∀ u ∈ updates, u.packetsSent ≤ t.sent.length := by
  have hstart : Counts (spawned graph disk shifter stats pcmBuffer isWebrtc janusPort true now) :=
    ⟨fun hloop => absurd rfl hloop, hstats⟩
  obtain ⟨-, first, updates, hstory⟩ := run_invariant_of_step
    (I := fun s => Counts s ∧ ∃ first updates, Story s first updates)
    (fun _ _ _ hs h => ⟨counts_step hs.1 h, story_step hs.1 hs.2 h⟩)
    ⟨hstart, [], [], story_spawned graph disk shifter stats pcmBuffer isWebrtc janusPort now⟩ hrun
  exact ⟨first, updates, hstory.notifications, hstory.opens, hstory.increasing, hstory.sent⟩

/-- A delay of three frames, played to a WebRTC client. -/
def threeSilences : State Unit :=
  spawned (Dispatch.delayGraph 60) (fun _ => none) () ⟨"s", "", 0, 0, 0⟩
    (List.replicate FRAME_SIZE_BYTES 0) true (some 5004) true 5

/-- A tick that comes so late that an update is due with its frame. -/
def updateTick : List Event :=
  [.act .testRunning, .act .testPaused, .act .arm, .passes 300000000, .act .timerExpires,
    .act .tick, .frame fun _ => none, .act .send]

/-- A pause between two such ticks, and the frame that ends the loop. -/
def updatedRun : List Event :=
  [.act .start, .prepared (.ok ()) fun _ => (true, true)] ++ updateTick ++
    [.act .pause, .act .testRunning, .act .testPaused, .act .receive, .passes 1000000000,
      .act .resumeFlag, .act .resumeSend, .act .wake] ++ updateTick ++
    [.act .testRunning, .act .testPaused, .act .arm, .passes 20000000, .act .timerExpires,
      .act .tick, .frame fun _ => none, .act .teardown]

/-- The port, two updates and the end. -/
theorem live_story_updated :
    ∃ t, runEvents (step Dispatch.idleOps) threeSilences updatedRun = some t ∧
      t.notifications.length = 4 ∧
      ∃ first updates, t.notifications = first ++ updates.map Notification.statsUpdate ++ report t ∧
        Opens t first updates ∧ updates.Pairwise (fun u v => u.packetsSent < v.packetsSent) ∧
        ∀ u ∈ updates, u.packetsSent ≤ t.sent.length := by
  have hends : (runEvents (step Dispatch.idleOps) threeSilences updatedRun).map
      (fun s => s.notifications.length) = some 4 := by decide +kernel
  obtain ⟨t, ht, htold⟩ := Option.map_eq_some_iff.mp hends
  exact ⟨t, ht, htold, live_story rfl ht⟩

end HermesFlow.Live
