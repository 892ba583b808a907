import HermesFlow.WebSocketSession

/-!
# The handshake of the WebSocket

`async_accept` and the session's coroutine run on different contexts, and the
send handler starts a write whether or not `on_accept` has run. Such a write
fails, its message keeps the queue non-empty, and no later handler starts a
write again. Nothing of this happens precisely when every send handler runs
after a successful `on_accept`.
-/

namespace HermesFlow.WebSocketSession

open EventRun

/-- No write is initiated before the handshake has succeeded, and after it the
messages are written in the order of their handlers: those not yet written are
queued, and their front is being written. -/
structure WrittenAfterAccept (st : State) : Prop where
  /-- Every write was started after the handshake. -/
  started : ∀ w ∈ st.started, w.handshaken = true
  /-- What is written or queued is what was handed over, in order. -/
  order : st.written ++ st.sendQueue = st.handled
  /-- After the handshake the front of the queue is being written. -/
  front : st.accept = some .success → st.sendQueue ≠ [] →
    ∃ w ∈ st.outstanding, st.sendQueue.head? = some w.message

/-- The guard of runs in which a write fails only when the handshake had not
succeeded as it was started. -/
abbrev HandshakeErrorsOnly : State → Event → Prop := WritesSucceed fun w => w.handshaken = true

/-- The guard of runs whose send handlers run after a successful `on_accept`. -/
abbrev SendsAfterAccept : State → Event → Prop := HandlersMeet fun st handler =>
  handler ≠ .close → st.accept = some .success

/-- What the writes so far say about the handshake. -/
structure Handshake (st : State) : Prop where
  /-- The queue is well formed. -/
  wf : Wf st
  /-- Nothing is lost or doubled. -/
  conserved : Conserved st
  /-- The outstanding writes have been initiated. -/
  initiated : ∀ w ∈ st.outstanding, w ∈ st.started
  /-- A write that saw the handshake came after it. -/
  accepted : ∀ w ∈ st.started, w.handshaken = true → st.accept = some .success
  /-- Before the handshake a message in the queue means an early write. -/
  early : st.accept ≠ some .success → st.sendQueue ≠ [] → ∃ w ∈ st.started, w.handshaken = false

/-- A write is new after the handshake exactly when that has succeeded. -/
theorem handshaken_newWrite {st : State} {message : String} :
    (st.newWrite message).handshaken = true ↔ st.accept = some .success := by
  simp only [State.newWrite, decide_eq_true_eq]

/-- Nothing is written at first. -/
theorem handshake_initial : Handshake initial where
  wf := wf_initial
  conserved := rfl
  initiated := by simp [initial]
  accepted := by simp [initial]
  early := fun _ hqueue => absurd rfl hqueue

/-- The history of a write just initiated, for the front of the new queue. -/
theorem handshake_starts {st : State} (h : Handshake st) (message : String) :
    (∀ w ∈ st.started ++ [st.newWrite message], w.handshaken = true → st.accept = some .success) ∧
      (st.accept ≠ some .success →
        ∃ w ∈ st.started ++ [st.newWrite message], w.handshaken = false) := by
  constructor
  · intro w hw hsuccess
    rcases List.mem_append.mp hw with hbefore | hnew
    · exact h.accepted w hbefore hsuccess
    · rw [List.mem_singleton.mp hnew] at hsuccess
      exact handshaken_newWrite.mp hsuccess
  · intro hpending
    have hfalse : (st.newWrite message).handshaken = false :=
      Bool.eq_false_iff.mpr (mt handshaken_newWrite.mp hpending)
    exact ⟨_, List.mem_append_right _ (List.mem_singleton_self _), hfalse⟩

/-- One step keeps what is known of the handshake. -/
theorem handshake_step {st st' : State} {e : Event} (h : Handshake st)
    (he : step st e = some st') : Handshake st' := by
  have hwf := wf_step h.wf he
  have hconserved := conserved_step h.wf h.conserved he
  cases step_moves h.wf he with
  | send | close | closes | closeFrame =>
    exact ⟨hwf, hconserved, h.initiated, h.accepted, h.early⟩
  | queues hposted hbusy =>
    exact ⟨hwf, hconserved, h.initiated, h.accepted, fun hpending _ => h.early hpending hbusy⟩
  | @starts message rest hposted hidle =>
    obtain ⟨haccepted, hearly⟩ := handshake_starts h message
    refine ⟨hwf, hconserved, fun w hw => ?_, haccepted, fun hpending _ => hearly hpending⟩
    exact List.mem_append_right _ hw
  | @accepted ec hpending =>
    have hnever : ∀ w ∈ st.started, w.handshaken = false := by
      intro w hw
      by_contra hsuccess
      have hdone := h.accepted w hw (by simpa using hsuccess)
      rw [hpending] at hdone
      cases hdone
    refine ⟨hwf, hconserved, h.initiated, fun w hw hsuccess => ?_, fun _ hqueue => ?_⟩
    · rw [hnever w hw] at hsuccess
      cases hsuccess
    · exact h.early (by rw [hpending]; exact Option.some_ne_none _ |>.symm) hqueue
  | fails => exact ⟨hwf, hconserved, by simp, h.accepted, h.early⟩
  | lastWritten => exact ⟨hwf, hconserved, by simp, h.accepted, fun _ hqueue => absurd rfl hqueue⟩
  | @nextWritten k w next rest hout hpermits hqueue =>
    obtain ⟨haccepted, hearly⟩ := handshake_starts h next
    refine ⟨hwf, hconserved, fun w hw => ?_, haccepted, fun hpending _ => hearly hpending⟩
    exact List.mem_append_right _ hw

/-- Before the handshake, the property leaves nothing in the queue. -/
theorem WrittenAfterAccept.idle {st : State} (hp : WrittenAfterAccept st) (h : Handshake st)
    (hpending : st.accept ≠ some .success) : st.sendQueue = [] := by
  by_contra hqueue
  obtain ⟨w, hw, hfalse⟩ := h.early hpending hqueue
  rw [hp.started w hw] at hfalse
  cases hfalse

/-- Initiating a write keeps the property if and only if the handshake has succeeded. -/
theorem started_iff {st : State} (hp : WrittenAfterAccept st) (message : String) :
    (∀ w ∈ st.started ++ [st.newWrite message], w.handshaken = true) ↔
      st.accept = some .success := by
  constructor
  · intro hall
    have hnew := hall _ (List.mem_append_right _ (List.mem_singleton_self _))
    exact handshaken_newWrite.mp hnew
  · intro hsuccess w hw
    rcases List.mem_append.mp hw with hbefore | hnew
    · exact hp.started w hbefore
    · rw [List.mem_singleton.mp hnew]
      exact handshaken_newWrite.mpr hsuccess

/-- A step keeps the property precisely if it is no early send handler. -/
theorem writtenAfterAccept_step_iff {st st' : State} {e : Event} (h : Handshake st)
    (hp : WrittenAfterAccept st) (hok : HandshakeErrorsOnly st e) (he : step st e = some st') :
    WrittenAfterAccept st' ↔ SendsAfterAccept st e := by
  have horder : st'.written ++ st'.sendQueue = st'.handled := conserved_step h.wf h.conserved he
  cases step_moves h.wf he with
  | send | close | closeFrame => exact ⟨fun _ => trivial, fun _ => ⟨hp.started, horder, hp.front⟩⟩
  | closes hposted =>
    refine ⟨fun _ handler hhead hsend => ?_, fun _ => ⟨hp.started, horder, hp.front⟩⟩
    rw [hposted] at hhead
    exact absurd (Option.some.inj hhead).symm hsend
  | @queues message rest hposted hbusy =>
    have hsuccess : st.accept = some .success := by
      by_contra hpending
      exact hbusy (hp.idle h hpending)
    refine ⟨fun _ _ _ _ => hsuccess, fun _ => ⟨hp.started, horder, fun _ _ => ?_⟩⟩
    obtain ⟨w, hw, hfront⟩ := hp.front hsuccess hbusy
    exact ⟨w, hw, by rw [List.head?_append, hfront]; rfl⟩
  | @starts message rest hposted hidle =>
    constructor
    · intro hp' _ _ _
      exact (started_iff hp message).mp hp'.started
    · intro hsends
      have hsuccess := hsends (.send message) (by rw [hposted]; rfl) Handler.noConfusion
      refine ⟨(started_iff hp message).mpr hsuccess, horder, fun _ _ => ?_⟩
      exact ⟨_, List.mem_singleton_self _, rfl⟩
  | @accepted ec hpending =>
    have hidle := hp.idle h (by rw [hpending]; exact (Option.some_ne_none _).symm)
    exact ⟨fun _ => trivial, fun _ => ⟨hp.started, horder, fun _ hqueue => absurd hidle hqueue⟩⟩
  | @fails k w ec hout hpermits hec =>
    -- a failed write was started before the handshake
    simp only [step, Option.bind_eq_some_iff] at he
    obtain ⟨w', hk, -⟩ := he
    have hstarted := h.initiated w' (List.mem_of_getElem? hk)
    exact absurd (hok w' hk (hp.started w' hstarted)) hec
  | lastWritten =>
    exact ⟨fun _ => trivial, fun _ => ⟨hp.started, horder, fun _ hqueue => absurd rfl hqueue⟩⟩
  | @nextWritten k w next rest hout hpermits hqueue =>
    have hsuccess := h.accepted w (h.initiated w (hout ▸ List.mem_singleton_self w)) (hpermits.1 rfl)
    refine ⟨fun _ => trivial, fun _ => ⟨(started_iff hp next).mpr hsuccess, horder, fun _ _ => ?_⟩⟩
    exact ⟨_, List.mem_singleton_self _, rfl⟩

/-- In every state of a run no write precedes the handshake and no message is
lost to it if and only if every send handler runs after a successful `on_accept`. -/
theorem writtenAfterAccept_iff {t : State} {es : List Event}
    (hok : Meets step HandshakeErrorsOnly initial es) (hrun : runEvents step initial es = some t) :
    (∀ ds m, ds <+: es → runEvents step initial ds = some m → WrittenAfterAccept m) ↔
      Meets step SendsAfterAccept initial es :=
  prefixes_iff_meets_of_kind (I := Handshake) (fun _ _ _ h _ he => handshake_step h he)
    (fun _ _ _ h hp hok he => writtenAfterAccept_step_iff h hp hok he) handshake_initial
    ⟨by simp [initial], rfl, fun _ hqueue => absurd rfl hqueue⟩ hok hrun

/-- The handshake completes between the call of `send` and its handler. -/
theorem writtenAfterAccept_late_handler :
    ∃ t, runEvents step initial [.send "a", .accepted .success, .run, .written 0 .success] = some t ∧
      t.wire = [.message "a"] ∧ WrittenAfterAccept t :=
  ⟨_, rfl, rfl, (@writtenAfterAccept_iff _ [.send "a", .accepted .success, .run,
    .written 0 .success] (by decide) rfl).mpr (by decide) _ _ List.prefix_rfl rfl⟩

/-- A send handler that runs during the handshake starts a write; its failure
leaves that message and the later ones in the queue for good. -/
theorem not_writtenAfterAccept_early_send :
    ∃ t, runEvents step initial [.send "webrtc_ready", .run, .written 0 .operationAborted,
        .accepted .success, .send "stats", .run] = some t ∧
      Meets step HandshakeErrorsOnly initial [.send "webrtc_ready", .run,
        .written 0 .operationAborted, .accepted .success, .send "stats", .run] ∧
      t.started = [⟨"webrtc_ready", false, false⟩] ∧ t.sendQueue = ["webrtc_ready", "stats"] ∧
      t.outstanding = [] ∧ ¬WrittenAfterAccept t := by
  refine ⟨_, rfl, by decide, rfl, rfl, rfl, fun hp => ?_⟩
  have hhandshaken := hp.started _ (List.mem_singleton_self _)
  cases hhandshaken

end HermesFlow.WebSocketSession
