import HermesFlow.LiveObserver
import HermesFlow.WebSocketSession

/-!
# The messages of a session to its client

`WebSocketSessionObserver` turns each call of the observer into one message on
the WebSocket of the session, which writes on another thread. The observer only
has a weak pointer to the WebSocket, but the coroutine of the session owns it for
as long as it runs. So no call is dropped, and what the client gets is the calls
of the observer, each of them once and in their order, up to some point.
-/

namespace HermesFlow.WebSocketSession

open EventRun

/-- `send` has been called with what has been handled, then with what is posted. -/
def Queued (st : State) : Prop := st.called = st.handled ++ st.posted.filterMap Handler.text

/-- One step queues only what was sent. -/
theorem queued_step {st st' : State} {e : Event} (hwf : Wf st) (hs : Queued st)
    (h : step st e = some st') : Queued st' := by
  unfold Queued at hs ⊢
  cases step_moves hwf h with
  | send message => rw [List.filterMap_append, ← List.append_assoc, ← hs]; rfl
  | close =>
    rw [List.filterMap_append, ← List.append_assoc, ← hs]
    exact (List.append_nil _).symm
  | queues hposted | starts hposted =>
    rw [hs, hposted, List.append_assoc]
    rfl
  | closes hposted => rw [hs, hposted]; rfl
  | accepted | fails | lastWritten | nextWritten | closeFrame => exact hs

/-- What every run of a WebSocket keeps. -/
structure Delivers (st : State) : Prop where
  /-- The queue is well formed. -/
  wf : Wf st
  /-- Nothing is lost or doubled. -/
  conserved : Conserved st
  /-- What is queued was sent. -/
  queued : Queued st

/-- One step keeps the delivery. -/
theorem delivers_step {st st' : State} {e : Event} (hs : Delivers st) (h : step st e = some st') :
    Delivers st' :=
  ⟨wf_step hs.wf h, conserved_step hs.wf hs.conserved h, queued_step hs.wf hs.queued h⟩

/-- Nothing is to be delivered at first. -/
theorem delivers_initial : Delivers initial := ⟨wf_initial, rfl, rfl⟩

/-- What has been written is what `send` has been called with, up to some message. -/
theorem Delivers.written_prefix {st : State} (h : Delivers st) : st.written <+: st.called := by
  rw [h.queued, ← h.conserved, List.append_assoc]
  exact List.prefix_append _ _

/-- A WebSocket at rest whose writes have not failed has written everything. -/
theorem Delivers.written_all {st : State} (h : Delivers st) (hbusy : Busy st)
    (hposted : st.posted = []) (houtstanding : st.outstanding = []) : st.written = st.called := by
  have hqueue : st.sendQueue = [] := not_not.mp fun hne => hbusy hne houtstanding
  rw [h.queued, ← h.conserved, hposted, hqueue, List.append_nil]
  exact (List.append_nil _).symm

end HermesFlow.WebSocketSession

namespace HermesFlow.WebSocketSessionObserver

open EventRun
open Live (Notification)

variable {Shifter : Type}

/-- The object that a call of the observer serializes. -/
def message : Notification → Infra.JsonObject
  | .statsUpdate stats =>
    [("type", .string "stats"), ("node", .string stats.currentNodeId),
      ("bytes", .uint64 stats.totalBytesSent), ("packets", .uint64 stats.packetsSent),
      ("underruns", .uint64 stats.underruns)]
  | .webrtcRequest port =>
    [("type", .string "webrtc_ready"), ("mountpoint_id", .uint64 port.toNat),
      ("message", .string "Session created successfully. Watch this mountpoint.")]
  | .sessionComplete => [("type", .string "completion"), ("message", .string "Session Complete")]
  | .error errorMessage => [("type", .string "error"), ("message", .string errorMessage)]

/-- A session and the WebSocket of its client. -/
structure State (Shifter : Type) where
  /-- The session. -/
  live : Live.State Shifter
  /-- The socket of its client. -/
  socket : WebSocketSession.State
  /-- The `WebSocketSession` has not been destroyed: `ws_.lock()` finds it. -/
  alive : Bool

/-- A step of one side. -/
inductive Event where
  | session (e : Live.Event)
  | socket (e : WebSocketSession.Event)
  /-- The last owner of the `WebSocketSession` is gone. -/
  | destroy

/-- The calls of the observer that a step has added. -/
def newCalls (s s' : Live.State Shifter) : List Notification :=
  s'.notifications.drop s.notifications.length

/-- The calls of `send`, if the WebSocket is still there. -/
def sends (serialize : Infra.JsonObject → String) (alive : Bool) (calls : List Notification) :
    List WebSocketSession.Event :=
  if alive = true then calls.map fun call => .send (serialize (message call)) else []

/-- Nobody owns the WebSocket: not the coroutine of its session, which holds a pointer for as long
as it runs, and no handler of its own. -/
def Unowned (s : State Shifter) : Prop :=
  s.live.timed.session.pc = .done ∧ s.socket.posted = [] ∧ s.socket.outstanding = []

instance (s : State Shifter) : Decidable (Unowned s) := inferInstanceAs (Decidable (_ ∧ _))

/-- A call of `send`. -/
def isSend : WebSocketSession.Event → Bool
  | .send _ => true
  | _ => false

/-- The step of one event. Only the observer calls `send`. -/
def step (fx : Audio.FloatOps Shifter) (serialize : Infra.JsonObject → String) (s : State Shifter) :
    Event → Option (State Shifter)
  | .session e =>
    (Live.step fx s.live e).bind fun live =>
      (runEvents WebSocketSession.step s.socket (sends serialize s.alive (newCalls s.live live))).map
        fun socket => { s with live := live, socket := socket }
  | .socket e =>
    if isSend e = true ∨ s.alive = false then none
    else (WebSocketSession.step s.socket e).map fun socket => { s with socket := socket }
  | .destroy => if s.alive = true ∧ Unowned s then some { s with alive := false } else none

/-- A session that has just been spawned, with a WebSocket whose handshake is under way. -/
def connected (live : Live.State Shifter) : State Shifter :=
  ⟨live, WebSocketSession.initial, true⟩

/-- Whether the event is the failure of a write. -/
def Event.isError : Event → Bool
  | .socket e => e.isError
  | .session _ | .destroy => false

/-- The texts of the calls that a session has made. -/
def texts (serialize : Infra.JsonObject → String) (s : State Shifter) : List String :=
  s.live.notifications.map fun call => serialize (message call)

/-- What a step is for the WebSocket. -/
def socketEvents (fx : Audio.FloatOps Shifter) (serialize : Infra.JsonObject → String)
    (s : State Shifter) : Event → List WebSocketSession.Event
  | .session e =>
    ((Live.step fx s.live e).map fun live =>
      sends serialize s.alive (newCalls s.live live)).getD []
  | .socket e => [e]
  | .destroy => []

section Step

variable {fx : Audio.FloatOps Shifter} {serialize : Infra.JsonObject → String}

/-- Every step adds its calls to those made before. -/
theorem notifications_step {s s' : Live.State Shifter} {e : Live.Event}
    (h : Live.step fx s e = some s') : s'.notifications = s.notifications ++ newCalls s s' := by
  obtain ⟨-, m, heffect, hs'⟩ := Live.step_eq_some_iff.mp h
  have hnotifications : s'.notifications = m.notifications := by rw [hs']
  have hprefix : s.notifications <+: m.notifications := by
    cases Live.effect_effects heffect with
    | passes | frame | task | tickAborted | throws | plain => exact List.prefix_rfl
    | prepareOk =>
      rw [Live.configureStreamerFromGraph_eq]
      exact List.prefix_append _ _
    | prepareFails | teardown =>
      rw [Live.notify_notifications]
      exact List.prefix_append _ _
    | send =>
      rw [Live.dispatchAudio_eq]
      exact List.prefix_append _ _
  obtain ⟨calls, hcalls⟩ := hprefix
  rw [newCalls, hnotifications, ← hcalls, List.drop_left]

/-- A coroutine that has finished stays so. -/
theorem done_moves {session session' : Session.State} {action : Session.Event}
    (hmoves : Session.Moves session action session') (hpc : session.pc = .done) :
    session'.pc = .done := by
  cases hmoves with
  | pause | resumeFlag | resumeIdle | resumeBuffers | stopFlag | stopCancels => exact hpc
  | throws htry => rw [hpc] at htry; cases htry
  | removeSelf => rfl
  | start hp | prepareOk hp | prepareFails hp | loopGoesOn hp | loopEnds hp | pauseSeen hp
  | noPauseSeen hp | takesToken hp | suspends hp | wake hp | arm hp | timerExpires hp
  | tickAborted hp | tick hp | frame hp | lastFrame hp | send hp | teardown hp
  | resumeWakes _ hp | stopAborts _ hp =>
    cases hpc.symm.trans hp

/-- After the end of its coroutine a session calls nobody. -/
theorem done_step {s s' : Live.State Shifter} {e : Live.Event} (hpc : s.timed.session.pc = .done)
    (h : Live.step fx s e = some s') :
    s'.timed.session.pc = .done ∧ s'.notifications = s.notifications := by
  obtain ⟨htimed, m, heffect, hs'⟩ := Live.step_eq_some_iff.mp h
  have hdone : s'.timed.session.pc = .done :=
    run_invariant_of_step (I := fun now => now.session.pc = .done)
      (fun now e later hnow hstep => by
        cases e with
        | passes => cases hstep; exact hnow
        | act => exact done_moves (Session.step_moves (Session.Timed.session_step hstep)) hnow)
      hpc htimed
  refine ⟨hdone, ?_⟩
  have hnotifications : s'.notifications = m.notifications := by rw [hs']
  rw [hnotifications]
  clear hdone hs' hnotifications
  cases Live.effect_effects heffect with
  | passes | frame | task | tickAborted | throws | plain => rfl
  -- the coroutine is elsewhere at the steps that call the observer
  | prepareOk =>
    obtain ⟨session, -, hmoves⟩ := Live.session_moves htimed
    cases hmoves with
    | prepareOk hp => cases hpc.symm.trans hp
  | prepareFails =>
    obtain ⟨session, -, hmoves⟩ := Live.session_moves htimed
    cases hmoves with
    | prepareFails hp => cases hpc.symm.trans hp
  | send =>
    obtain ⟨session, -, hmoves⟩ := Live.session_moves htimed
    cases hmoves with
    | send hp => cases hpc.symm.trans hp
  | teardown =>
    obtain ⟨session, -, hmoves⟩ := Live.session_moves htimed
    cases hmoves with
    | teardown hp => cases hpc.symm.trans hp

/-- All that the observer does on the socket is to send. -/
theorem sends_send {p : WebSocketSession.Event → Prop} (hsend : ∀ text, p (.send text)) (alive : Bool)
    (calls : List Notification) : ∀ e ∈ sends serialize alive calls, p e := by
  intro e he
  unfold sends at he
  split at he
  · obtain ⟨call, -, rfl⟩ := List.mem_map.mp he
    exact hsend _
  · cases he

/-- The calls of `send` are made in their order. -/
theorem called_sends {socket socket' : WebSocketSession.State} {calls : List Notification}
    (h : runEvents WebSocketSession.step socket (sends serialize true calls) = some socket') :
    socket'.called = socket.called ++ calls.map fun call => serialize (message call) := by
  induction calls generalizing socket with
  | nil =>
    cases h
    exact (List.append_nil _).symm
  | cons call calls ih =>
    obtain ⟨m, hm, hrest⟩ := runEvents_cons_iff.mp h
    cases hm
    rw [ih hrest, List.append_assoc]
    rfl

/-- A step is a run of the WebSocket. Its events have every property that sends and the events of
the WebSocket have. -/
theorem step_socket {p : WebSocketSession.Event → Prop} (hsend : ∀ text, p (.send text))
    {s s' : State Shifter} {e : Event} (hevent : ∀ w, e = .socket w → p w)
    (h : step fx serialize s e = some s') :
    runEvents WebSocketSession.step s.socket (socketEvents fx serialize s e) = some s'.socket ∧
      Meets WebSocketSession.step (fun _ e => p e) s.socket (socketEvents fx serialize s e) := by
  cases e with
  | session e =>
    obtain ⟨live, hlive, hrest⟩ := Option.bind_eq_some_iff.mp h
    obtain ⟨socket, hsocket, rfl⟩ := Option.map_eq_some_iff.mp hrest
    rw [socketEvents, hlive, Option.map_some, Option.getD_some]
    exact ⟨hsocket, meets_of_events (sends_send hsend _ _) _⟩
  | socket e =>
    rw [step] at h
    split at h
    · cases h
    · obtain ⟨socket, hsocket, rfl⟩ := Option.map_eq_some_iff.mp h
      exact ⟨runEvents_cons_iff.mpr ⟨socket, hsocket, rfl⟩, hevent e rfl, fun _ _ => trivial⟩
  | destroy =>
    rw [step] at h
    split at h
    · cases h
      exact ⟨rfl, trivial⟩
    · cases h

/-- Each call of the observer is one call of `send`, and there are no others. -/
structure Sound (serialize : Infra.JsonObject → String) (s : State Shifter) : Prop where
  /-- The calls of send are the observer's texts. -/
  called : s.socket.called = texts serialize s
  /-- The observer is alive until the session is over. -/
  owned : s.alive = false → s.live.timed.session.pc = .done

/-- Events other than a send call nothing. -/
theorem called_step {socket socket' : WebSocketSession.State} {e : WebSocketSession.Event}
    (hwf : WebSocketSession.Wf socket) (hsend : isSend e = false)
    (h : WebSocketSession.step socket e = some socket') : socket'.called = socket.called := by
  cases WebSocketSession.step_moves hwf h with
  | send => cases hsend
  | close | queues | starts | closes | accepted | fails | lastWritten | nextWritten
  | closeFrame => rfl

/-- One step keeps the calls and the texts the same. -/
theorem sound_step {s s' : State Shifter} {e : Event} (hwf : WebSocketSession.Wf s.socket)
    (hs : Sound serialize s) (h : step fx serialize s e = some s') : Sound serialize s' := by
  cases e with
  | session e =>
    obtain ⟨live, hlive, hrest⟩ := Option.bind_eq_some_iff.mp h
    obtain ⟨socket, hsocket, rfl⟩ := Option.map_eq_some_iff.mp hrest
    have hnotifications := notifications_step hlive
    cases halive : s.alive with
    | true =>
      rw [halive] at hsocket
      refine ⟨?_, fun hdestroyed => by cases hdestroyed⟩
      rw [called_sends hsocket, hs.called, texts, texts, hnotifications, List.map_append]
    | false =>
      rw [halive] at hsocket
      cases hsocket
      obtain ⟨hdone, hquiet⟩ := done_step (hs.owned halive) hlive
      refine ⟨?_, fun _ => hdone⟩
      rw [hs.called, texts, texts, hquiet]
  | socket e =>
    rw [step] at h
    split at h
    · cases h
    · rename_i hguard
      obtain ⟨socket, hsocket, rfl⟩ := Option.map_eq_some_iff.mp h
      obtain ⟨hsend, -⟩ := not_or.mp hguard
      exact ⟨(called_step hwf (Bool.eq_false_of_not_eq_true hsend) hsocket).trans hs.called, hs.owned⟩
  | destroy =>
    rw [step] at h
    split at h
    · rename_i hguard
      cases h
      exact ⟨hs.called, fun _ => hguard.2.1⟩
    · cases h

/-- The WebSocket of a session takes a run of its own. -/
theorem socket_run {p : WebSocketSession.Event → Prop} (hsend : ∀ text, p (.send text))
    {s t : State Shifter} {es : List Event} (hevents : ∀ e, Event.socket e ∈ es → p e)
    (hrun : runEvents (step fx serialize) s es = some t) :
    ∃ events, runEvents WebSocketSession.step s.socket events = some t.socket ∧
      Meets WebSocketSession.step (fun _ e => p e) s.socket events := by
  have hmeets : Meets (step fx serialize) (fun _ e => ∀ w, e = .socket w → p w) s es := by
    refine meets_of_events (fun e he => ?_) s
    rintro w rfl
    exact hevents w he
  have hstep : ∀ (s : State Shifter) (socket : WebSocketSession.State) (e : Event)
      (s' : State Shifter), s.socket = socket → (∀ w, e = .socket w → p w) →
      step fx serialize s e = some s' →
      ∃ socket', runEvents WebSocketSession.step socket (socketEvents fx serialize s e) =
          some socket' ∧
        Meets WebSocketSession.step (fun _ e => p e) socket (socketEvents fx serialize s e) ∧
        s'.socket = socket' := by
    rintro s _ e s' rfl hp h
    obtain ⟨hsocket, hok⟩ := step_socket hsend hp h
    exact ⟨_, hsocket, hok, rfl⟩
  obtain ⟨v, hv, hok, rfl⟩ := run_simulation hstep rfl hmeets hrun
  exact ⟨_, hv, hok⟩

/-- What `send` has been called with is delivered, and each call of the observer is a call of it. -/
theorem sound_run {live : Live.State Shifter} (hstart : live.notifications = [])
    {es : List Event} {t : State Shifter}
    (hrun : runEvents (step fx serialize) (connected live) es = some t) :
    WebSocketSession.Delivers t.socket ∧ Sound serialize t := by
  have hsound : Sound serialize (connected live) :=
    ⟨(congrArg (List.map fun call => serialize (message call)) hstart).symm, fun h => by cases h⟩
  refine run_invariant_of_step
    (I := fun s => WebSocketSession.Delivers s.socket ∧ Sound serialize s)
    (fun s e s' hs h => ⟨?_, sound_step hs.1.wf hs.2 h⟩)
    ⟨WebSocketSession.delivers_initial, hsound⟩ hrun
  exact run_invariant_of_step (fun _ _ _ => WebSocketSession.delivers_step) hs.1
    (step_socket (p := fun _ => True) (fun _ => trivial) (fun _ _ => trivial) h).1

/-- In every run each call of the observer is one call of `send`, in their order; what has been
written is a prefix of their messages, and all of them once the WebSocket is at rest and no write
has failed. -/
theorem client_receives {live : Live.State Shifter} (hstart : live.notifications = [])
    {es : List Event} {t : State Shifter}
    (hrun : runEvents (step fx serialize) (connected live) es = some t) :
    t.socket.called = texts serialize t ∧ t.socket.written <+: texts serialize t ∧
      ((∀ e ∈ es, e.isError = false) → t.socket.posted = [] → t.socket.outstanding = [] →
        t.socket.written = texts serialize t) := by
  obtain ⟨hdelivers, hsound⟩ := sound_run hstart hrun
  rw [← hsound.called]
  refine ⟨rfl, hdelivers.written_prefix, fun hclean hposted houtstanding => ?_⟩
  obtain ⟨events, hevents, hok⟩ := socket_run (p := fun e => e.isError = false) (fun _ => rfl)
    (fun e he => hclean _ he) hrun
  have hbusy := run_invariant
    (I := fun socket => WebSocketSession.Wf socket ∧ WebSocketSession.Busy socket)
    (fun _ _ _ hs hnone h => ⟨WebSocketSession.wf_step hs.1 h,
      WebSocketSession.busy_step hs.1 hs.2 hnone h⟩)
    ⟨WebSocketSession.wf_initial, fun hqueue => absurd rfl hqueue⟩ hok hevents
  exact hdelivers.written_all hbusy.2 hposted houtstanding

end Step

/-- `boost::json::serialize` for the messages; none of them has a double. -/
def serializeMessage (o : Infra.JsonObject) : String :=
  Infra.Json.serialize (fun _ => "") (.object o)

/-- A WebRTC session that is paused; its messages are queued behind the first and written. -/
def completedRun : List Event :=
  [.socket (.accepted .success)] ++ Live.updatedRun.map .session ++
    [.socket .run, .socket .run, .socket .run, .socket .run, .socket (.written 0 .success),
      .socket (.written 0 .success), .socket (.written 0 .success), .socket (.written 0 .success)]

/-- The texts of these messages. -/
def updatedTexts : List String :=
  ["\x7b\"type\":\"webrtc_ready\",\"mountpoint_id\":5004,\"message\":" ++
      "\"Session created successfully. Watch this mountpoint.\"\x7d",
    "\x7b\"type\":\"stats\",\"node\":\"d\",\"bytes\":320,\"packets\":1,\"underruns\":0\x7d",
    "\x7b\"type\":\"stats\",\"node\":\"d\",\"bytes\":640,\"packets\":2,\"underruns\":0\x7d",
    "\x7b\"type\":\"completion\",\"message\":\"Session Complete\"\x7d"]

/-- The client is told of the port, of the packets twice, and that the session is complete. -/
theorem client_receives_completion :
    ∃ t, runEvents (step Audio.Dispatch.idleOps serializeMessage)
        (connected Live.threeSilences) completedRun = some t ∧
      t.socket.called = texts serializeMessage t ∧ t.socket.written = texts serializeMessage t ∧
      t.socket.written = updatedTexts := by
  have hends : (runEvents (step Audio.Dispatch.idleOps serializeMessage)
      (connected Live.threeSilences) completedRun).map
        (fun t => (t.socket.posted, t.socket.outstanding, t.socket.written)) =
          some ([], [], updatedTexts) := by decide +kernel
  obtain ⟨t, ht, hsocket⟩ := Option.map_eq_some_iff.mp hends
  obtain ⟨hposted, hsocket⟩ := Prod.mk.inj hsocket
  obtain ⟨houtstanding, hwritten⟩ := Prod.mk.inj hsocket
  obtain ⟨hcalled, -, hall⟩ := client_receives rfl ht
  exact ⟨t, ht, hcalled, hall (by decide) hposted houtstanding, hwritten⟩

end HermesFlow.WebSocketSessionObserver
