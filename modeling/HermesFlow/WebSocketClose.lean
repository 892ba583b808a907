import HermesFlow.WebSocketSession

/-!
# Closing the WebSocket

The handler of `close` does not look at the queue. The message being written
then still reaches the peer, and so the messages sent before `close` are all on
the wire before the close frame precisely when that message is the only one.
-/

namespace HermesFlow.WebSocketSession

open EventRun

/-- Each message `send` was called with before the first call of `close` is on
the wire before the close frame. -/
def Flushed (st : State) : Prop :=
  ∀ before after, st.wire = before ++ .close :: after →
    ∃ sent, st.calledBeforeClose = some sent ∧ sent <+: texts before

/-- The guard of runs in which only `async_close` makes writes fail. -/
abbrev NoTransportError : State → Event → Prop := WritesSucceed fun w => w.closing = false

/-- The guard of runs in which `async_close` is initiated with at most one
message in the queue. -/
abbrev ShortAtClose : State → Event → Prop := HandlersMeet fun st handler =>
  handler = .close → st.closedWith = none → st.sendQueue.length ≤ 1

/-- Before `async_close`. -/
structure Open (st : State) : Prop where
  /-- It has not been closed. -/
  closedWith : st.closedWith = none
  /-- Only messages are on the wire. -/
  wire : ∃ sent : List String, st.wire = sent.map .message
  /-- No write that closes is outstanding. -/
  outstanding : ∀ w ∈ st.outstanding, w.closing = false
  /-- What is queued is being written. -/
  busy : Busy st

/-- How far the close has come. -/
inductive Phase (st : State) : Prop where
  /-- `close` has not been called. -/
  | idle (sends : List String) (hopen : Open st) (hcalls : st.calledBeforeClose = none)
      (hposted : st.posted = sends.map .send) (hcalled : st.called = st.handled ++ sends)
  /-- `close` has been called, and these send handlers run before its own. -/
  | posted (sends : List String) (after : List Handler) (hopen : Open st)
      (hcalls : st.calledBeforeClose = some (st.handled ++ sends))
      (hposted : st.posted = sends.map .send ++ .close :: after)
  /-- `async_close` has been initiated during the write of the front. -/
  | writing (queue sent : List String) (w : Write) (hclosed : st.closedWith = some queue)
      (hcalls : st.calledBeforeClose = some (sent ++ queue)) (hwire : st.wire = sent.map .message)
      (hout : st.outstanding = [w]) (hw : w.closing = false)
      (hfront : queue.head? = some w.message)
  /-- That write has completed; nothing else is written. -/
  | settled (queue sent : List String) (frame : List Frame) (hclosed : st.closedWith = some queue)
      (hcalls : st.calledBeforeClose = some (sent ++ queue.tail))
      (hwire : st.wire = sent.map .message ++ frame) (hframe : frame = [] ∨ frame = [.close])
      (hout : ∀ w ∈ st.outstanding, w.closing = true)

/-- An open socket has put no closing frame on the wire. -/
theorem Open.close_not_mem {st : State} (h : Open st) : .close ∉ st.wire := by
  obtain ⟨sent, hwire⟩ := h.wire
  rw [hwire]
  simp

/-- A completion that leaves an open session open. -/
theorem open_step {st st' : State} {e : Event} (hwf : Wf st) (h : Open st)
    (hok : NoTransportError st e) (he : step st e = some st')
    (hstays : st'.closedWith = none) : Open st' := by
  have hbusy : e.isError = false → Busy st' := fun hclean => busy_step hwf h.busy hclean he
  have hfresh : ∀ message, (st.newWrite message).closing = false := fun _ => by
    simp only [State.newWrite, h.closedWith, Option.isSome_none]
  obtain ⟨sent, hwire⟩ := h.wire
  cases step_moves hwf he with
  | send | close | queues | closes | accepted =>
    exact ⟨hstays, h.wire, h.outstanding, hbusy rfl⟩
  | starts =>
    refine ⟨hstays, h.wire, fun w hw => ?_, hbusy rfl⟩
    rw [List.mem_singleton.mp hw]
    exact hfresh _
  | @fails k w ec hout hpermits hec =>
    -- the step looks the write up, so it is the one that failed
    simp only [step, Option.bind_eq_some_iff] at he
    obtain ⟨w', hk, -⟩ := he
    have hmem : w' ∈ st.outstanding := List.mem_of_getElem? hk
    exact absurd (hok w' hk (h.outstanding w' hmem)) hec
  | @lastWritten k w hout hpermits hqueue =>
    refine ⟨hstays, ⟨sent ++ [w.message], ?_⟩, by simp, hbusy rfl⟩
    rw [hwire, List.map_append]
    rfl
  | @nextWritten k w next rest hout hpermits hqueue =>
    refine ⟨hstays, ⟨sent ++ [w.message], ?_⟩, fun w hw => ?_, hbusy rfl⟩
    · rw [hwire, List.map_append]
      rfl
    · rw [List.mem_singleton.mp hw]
      exact hfresh _
  | closeFrame hmay =>
    have hclosed := hmay.1
    rw [h.closedWith] at hclosed
    cases hclosed

/-- `async_close` is initiated with the queue that there is. -/
theorem phase_closes {st : State} {rest : List Handler} (hwf : Wf st) (hconserved : Conserved st)
    (hopen : Open st) (hcalls : st.calledBeforeClose = some st.handled) :
    Phase { st with posted := rest, closedWith := st.closedWith.or (some st.sendQueue) } := by
  have hclosed : st.closedWith.or (some st.sendQueue) = some st.sendQueue := by
    rw [hopen.closedWith, Option.none_or]
  obtain ⟨sent, hwire⟩ := hopen.wire
  have hsent : sent ++ st.sendQueue = st.handled := by
    rw [← hconserved, State.written, hwire, texts_map_message]
  rw [← hsent] at hcalls
  rcases hwf.outstanding with hnone | ⟨w, hout, hfront⟩
  · have hqueue : st.sendQueue = [] := by
      by_contra hqueue
      exact hopen.busy hqueue hnone
    refine .settled _ _ _ hclosed ?_ (hwire.trans (List.append_nil _).symm) (.inl rfl) ?_
    · rw [hqueue] at hcalls
      rw [hqueue, List.tail_nil]
      exact hcalls
    · intro w hw
      rw [hnone] at hw
      cases hw
  · have hw := hopen.outstanding w (hout ▸ List.mem_singleton_self w)
    exact .writing _ _ _ hclosed hcalls hwire hout hw hfront

/-- Without a call to close every step stays before it. -/
theorem phase_idle_step {st st' : State} {e : Event} {sends : List String} (hwf : Wf st)
    (hopen : Open st) (hcalls : st.calledBeforeClose = none) (hposted : st.posted = sends.map .send)
    (hcalled : st.called = st.handled ++ sends) (hok : NoTransportError st e)
    (he : step st e = some st') : Phase st' := by
  have hopen' := open_step hwf hopen hok he
  cases step_moves hwf he with
  | send message =>
    refine .idle (sends ++ [message]) (hopen' hopen.closedWith) hcalls ?_ ?_
    · rw [hposted, List.map_append]
      rfl
    · rw [hcalled, List.append_assoc]
  | close =>
    refine .posted sends [] (hopen' hopen.closedWith) ?_ ?_
    · rw [hcalls, Option.none_or, hcalled]
    · rw [hposted]
  | @queues message rest hqueued hbusy | @starts message rest hqueued hidle =>
    rw [hposted] at hqueued
    cases sends with
    | nil => cases hqueued
    | cons first sends =>
      cases hqueued
      refine .idle sends (hopen' hopen.closedWith) hcalls rfl ?_
      rw [hcalled, List.append_assoc]
      rfl
  | closes hqueued =>
    rw [hposted] at hqueued
    cases sends <;> cases hqueued
  | accepted | fails | lastWritten | nextWritten | closeFrame =>
    exact .idle _ (hopen' hopen.closedWith) hcalls hposted hcalled

/-- With the call posted a step stays there or starts to close. -/
theorem phase_posted_step {st st' : State} {e : Event} {sends : List String}
    {after : List Handler} (hwf : Wf st) (hconserved : Conserved st) (hopen : Open st)
    (hcalls : st.calledBeforeClose = some (st.handled ++ sends))
    (hposted : st.posted = sends.map .send ++ .close :: after) (hok : NoTransportError st e)
    (he : step st e = some st') : Phase st' := by
  have hopen' := open_step hwf hopen hok he
  cases step_moves hwf he with
  | send message =>
    refine .posted _ (after ++ [.send message]) (hopen' hopen.closedWith) hcalls ?_
    rw [hposted, List.append_assoc]
    rfl
  | close =>
    refine .posted sends (after ++ [.close]) (hopen' hopen.closedWith) ?_ ?_
    · rw [hcalls, Option.some_or]
    · rw [hposted, List.append_assoc]
      rfl
  | @queues message rest hqueued hbusy | @starts message rest hqueued hidle =>
    rw [hposted] at hqueued
    cases sends with
    | nil => cases hqueued
    | cons first sends =>
      cases hqueued
      refine .posted sends _ (hopen' hopen.closedWith) ?_ rfl
      rw [hcalls, List.append_assoc]
      rfl
  | closes hqueued =>
    rw [hposted] at hqueued
    cases sends with
    | nil =>
      rw [List.append_nil] at hcalls
      exact phase_closes hwf hconserved hopen hcalls
    | cons first sends => cases hqueued
  | accepted | fails | lastWritten | nextWritten | closeFrame =>
    exact .posted _ _ (hopen' hopen.closedWith) hcalls hposted

/-- While the front is being written a step stays there or settles it. -/
theorem phase_writing_step {st st' : State} {e : Event} {queue sent : List String} {w : Write}
    (hwf : Wf st) (hclosed : st.closedWith = some queue)
    (hcalls : st.calledBeforeClose = some (sent ++ queue)) (hwire : st.wire = sent.map .message)
    (hout : st.outstanding = [w]) (hw : w.closing = false) (hfront : queue.head? = some w.message)
    (hok : NoTransportError st e) (he : step st e = some st') : Phase st' := by
  obtain ⟨rest, rfl⟩ := List.head?_eq_some_iff.mp hfront
  -- the write completes: its message is on the wire
  have hwritten : st.wire ++ [.message w.message] = (sent ++ [w.message]).map .message ++ [] := by
    rw [hwire, List.append_nil, List.map_append]
    rfl
  have hcalls' : st.calledBeforeClose = some (sent ++ [w.message] ++ (w.message :: rest).tail) := by
    rw [hcalls, List.append_assoc]
    rfl
  cases step_moves hwf he with
  | send | queues | accepted => exact .writing _ _ _ hclosed hcalls hwire hout hw hfront
  | close =>
    refine .writing _ sent _ hclosed ?_ hwire hout hw hfront
    rw [hcalls, Option.some_or]
  | closes =>
    refine .writing (w.message :: rest) _ _ ?_ hcalls hwire hout hw hfront
    rw [hclosed, Option.some_or]
  | starts hqueued hidle =>
    rw [hwf.outstanding_of_idle hidle] at hout
    cases hout
  | @fails k w' ec hout' hpermits hec =>
    simp only [step, Option.bind_eq_some_iff] at he
    obtain ⟨w₀, hk, -⟩ := he
    have hmem : w₀ ∈ st.outstanding := List.mem_of_getElem? hk
    rw [hout, List.mem_singleton] at hmem
    exact absurd (hok w₀ hk (hmem ▸ hw)) hec
  | @lastWritten k w' hout' hpermits hqueue =>
    obtain rfl : w = w' := List.singleton_inj.mp (hout.symm.trans hout')
    exact .settled _ _ _ hclosed hcalls' hwritten (.inl rfl) (by simp)
  | @nextWritten k w' next more hout' hpermits hqueue =>
    obtain rfl : w = w' := List.singleton_inj.mp (hout.symm.trans hout')
    refine .settled _ _ _ hclosed hcalls' hwritten (.inl rfl) fun v hv => ?_
    rw [List.mem_singleton.mp hv]
    simp only [State.newWrite, hclosed, Option.isSome_some]
  | closeFrame hmay =>
    have hclosing := hmay.2.2.2 w (hout ▸ List.mem_singleton_self w)
    rw [hw] at hclosing
    cases hclosing

/-- Once it is settled a step puts at most the closing frame on the wire. -/
theorem phase_over_step {st st' : State} {e : Event} {queue sent : List String}
    {frame : List Frame} (hwf : Wf st) (hclosed : st.closedWith = some queue)
    (hcalls : st.calledBeforeClose = some (sent ++ queue.tail))
    (hwire : st.wire = sent.map .message ++ frame) (hframe : frame = [] ∨ frame = [.close])
    (hout : ∀ w ∈ st.outstanding, w.closing = true) (he : step st e = some st') : Phase st' := by
  have haborted : ∀ w : Write, st.outstanding = [w] → ¬ w.Permits .success := by
    intro w hw hpermits
    have hec := hpermits.2 (hout w (hw ▸ List.mem_singleton_self w))
    cases hec
  cases step_moves hwf he with
  | send | queues | accepted => exact .settled _ _ _ hclosed hcalls hwire hframe hout
  | close =>
    refine .settled _ sent _ hclosed ?_ hwire hframe hout
    rw [hcalls, Option.some_or]
  | closes =>
    refine .settled queue _ _ ?_ hcalls hwire hframe hout
    rw [hclosed, Option.some_or]
  | starts =>
    refine .settled _ _ _ hclosed hcalls hwire hframe fun w hw => ?_
    rw [List.mem_singleton.mp hw]
    simp only [State.newWrite, hclosed, Option.isSome_some]
  | fails => exact .settled _ _ _ hclosed hcalls hwire hframe (by simp)
  | lastWritten hout' hpermits => exact absurd hpermits (haborted _ hout')
  | nextWritten hout' hpermits => exact absurd hpermits (haborted _ hout')
  | closeFrame hmay =>
    have hnone := hmay.2.2.1
    rcases hframe with rfl | rfl
    · refine .settled _ _ [.close] hclosed hcalls ?_ (.inr rfl) hout
      rw [hwire, List.append_nil]
    · rw [hwire] at hnone
      simp at hnone

/-- One step keeps the phase. -/
theorem phase_step {st st' : State} {e : Event} (hwf : Wf st) (hconserved : Conserved st)
    (hphase : Phase st) (hok : NoTransportError st e) (he : step st e = some st') : Phase st' := by
  cases hphase with
  | idle sends hopen hcalls hposted hcalled =>
    exact phase_idle_step hwf hopen hcalls hposted hcalled hok he
  | posted sends after hopen hcalls hposted =>
    exact phase_posted_step hwf hconserved hopen hcalls hposted hok he
  | writing queue sent w hclosed hcalls hwire hout hw hfront =>
    exact phase_writing_step hwf hclosed hcalls hwire hout hw hfront hok he
  | settled queue sent frame hclosed hcalls hwire hframe hout =>
    exact phase_over_step hwf hclosed hcalls hwire hframe hout he

/-- The phase is right along every run. -/
theorem phase_of_run {t : State} {es : List Event} (hok : Meets step NoTransportError initial es)
    (hrun : runEvents step initial es = some t) : Phase t := by
  have hopen : Open initial := ⟨rfl, ⟨[], rfl⟩, by simp [initial], fun hqueue => absurd rfl hqueue⟩
  have hstart : Wf initial ∧ Conserved initial ∧ Phase initial :=
    ⟨wf_initial, rfl, .idle [] hopen rfl rfl rfl⟩
  have hend := run_invariant (I := fun st => Wf st ∧ Conserved st ∧ Phase st)
    (fun st e st' hi hok he => ⟨wf_step hi.1 he, conserved_step hi.1 hi.2.1 he,
      phase_step hi.1 hi.2.1 hi.2.2 hok he⟩) hstart hok hrun
  exact hend.2.2

/-- The queue at `async_close` is recorded once. -/
theorem closedWith_step {st st' : State} {e : Event} (hwf : Wf st) (he : step st e = some st') :
    st'.closedWith = st.closedWith ∨ e = .run ∧ st.posted.head? = some .close ∧
      st.closedWith = none ∧ st'.closedWith = some st.sendQueue := by
  cases step_moves hwf he with
  | closes hposted =>
    cases hclosed : st.closedWith with
    | none => exact .inr ⟨rfl, by rw [hposted]; rfl, rfl, rfl⟩
    | some queue => exact .inl rfl
  | _ => exact .inl rfl

/-- Whether a run meets the condition can be read off the recorded queue. -/
theorem shortAtClose_iff {t : State} {es : List Event} (hrun : runEvents step initial es = some t) :
    Meets step ShortAtClose initial es ↔ ∀ queue ∈ t.closedWith, queue.length ≤ 1 := by
  constructor
  · intro hshort
    have hstart : Wf initial ∧ ∀ queue ∈ initial.closedWith, queue.length ≤ 1 :=
      ⟨wf_initial, by simp [initial]⟩
    refine (run_invariant (I := fun st => Wf st ∧ ∀ queue ∈ st.closedWith, queue.length ≤ 1)
      (fun st e st' hi hok he => ⟨wf_step hi.1 he, ?_⟩) hstart hshort hrun).2
    rcases closedWith_step hi.1 he with hsame | ⟨rfl, hhead, hnone, hqueue⟩
    · rw [hsame]
      exact hi.2
    · intro queue hmem
      rw [hqueue] at hmem
      cases hmem
      exact hok .close hhead rfl hnone
  · intro hshort
    refine meets_of_not_bad (I := Wf) (B := fun st => ∃ queue ∈ st.closedWith, 1 < queue.length)
      (fun st e st' hi he => wf_step hi he) ?_ ?_ wf_initial hrun ?_
    · intro st e st' hwf hlong he
      cases e with
      | run =>
        simp only [ShortAtClose, HandlersMeet, not_forall, Nat.not_le] at hlong
        obtain ⟨handler, hhead, rfl, hnone, hlength⟩ := hlong
        obtain ⟨rest, hposted⟩ := List.head?_eq_some_iff.mp hhead
        simp only [step, hposted, Option.some.injEq] at he
        subst he
        exact ⟨st.sendQueue, by simp [runHandler, closeHandler, hnone], hlength⟩
      | _ => exact absurd trivial hlong
    · rintro st e st' hwf ⟨queue, hmem, hlength⟩ he
      rcases closedWith_step hwf he with hsame | ⟨-, -, hnone, -⟩
      · exact ⟨queue, hsame ▸ hmem, hlength⟩
      · rw [hnone] at hmem
        cases hmem
    · rintro ⟨queue, hmem, hlength⟩
      have hle := hshort queue hmem
      omega

/-- The close frame splits the wire where it was sent. -/
theorem eq_of_split {sent : List String} {before after : List Frame}
    (h : sent.map .message ++ [.close] = before ++ .close :: after) : texts before = sent := by
  induction sent generalizing before with
  | nil =>
    cases before with
    | nil => rfl
    | cons first before =>
      rw [List.map_nil, List.nil_append, List.cons_append, List.cons.injEq] at h
      exact absurd h.2 (by simp)
  | cons message sent ih =>
    cases before with
    | nil => cases h
    | cons first before =>
      rw [List.map_cons, List.cons_append, List.cons_append, List.cons.injEq] at h
      obtain ⟨rfl, h⟩ := h
      rw [← ih h]
      rfl

/-- In a run without transport errors the messages sent before `close` precede
the close frame if and only if `async_close` was initiated with at most one
message in the queue, unless the close frame is still to come. -/
theorem flushed_iff {t : State} {es : List Event} (hok : Meets step NoTransportError initial es)
    (hrun : runEvents step initial es = some t) :
    Flushed t ↔ (.close ∈ t.wire → Meets step ShortAtClose initial es) := by
  rw [shortAtClose_iff hrun]
  have hvacuous : .close ∉ t.wire → Flushed t := by
    intro hnone before after hsplit
    rw [hsplit] at hnone
    simp at hnone
  cases phase_of_run hok hrun with
  | idle _ hopen | posted _ _ hopen =>
    have hnone := hopen.close_not_mem
    exact ⟨fun _ hmem => absurd hmem hnone, fun _ => hvacuous hnone⟩
  | writing queue sent w hclosed hcalls hwire hout hw hfront =>
    have hnone : .close ∉ t.wire := by
      rw [hwire]
      simp
    exact ⟨fun _ hmem => absurd hmem hnone, fun _ => hvacuous hnone⟩
  | settled queue sent frame hclosed hcalls hwire hframe hout =>
    have hshort : queue.length ≤ 1 ↔ queue.tail = [] := by
      rw [← List.length_eq_zero_iff, List.length_tail]
      omega
    simp only [hclosed, Option.mem_some_iff, forall_eq', hshort]
    rcases hframe with rfl | rfl
    · have hnone : .close ∉ t.wire := by
        rw [hwire]
        simp
      exact ⟨fun _ hmem => absurd hmem hnone, fun _ => hvacuous hnone⟩
    · have hmem : .close ∈ t.wire := by
        rw [hwire]
        simp
      constructor
      · intro hflushed _
        obtain ⟨called, hcalled, hprefix⟩ := hflushed _ [] hwire
        rw [hcalls, Option.some.injEq] at hcalled
        subst hcalled
        -- nothing but what was sent is a prefix of it
        rw [texts_map_message] at hprefix
        have hlength := hprefix.length_le
        rw [List.length_append] at hlength
        exact List.length_eq_zero_iff.mp (by omega)
      · intro htail before after hsplit
        have hbefore := eq_of_split (hwire.symm.trans hsplit)
        refine ⟨_, hcalls, ?_⟩
        rw [htail hmem, hbefore, List.append_nil]

/-- A completion event that is being written when `close` is called. -/
theorem flushed_single_message :
    ∃ t, runEvents step initial [.accepted .success, .send "completion", .close, .run, .run,
        .written 0 .success, .closeFrame] = some t ∧ .close ∈ t.wire ∧ Flushed t :=
  ⟨_, rfl, by decide, (@flushed_iff _ [.accepted .success, .send "completion", .close, .run,
    .run, .written 0 .success, .closeFrame] (by decide) rfl).mpr fun _ => by decide⟩

/-- A completion event that waits behind a write of statistics is lost. -/
theorem not_flushed_completion :
    ∃ t, runEvents step initial [.accepted .success, .send "stats", .run, .send "completion",
        .close, .run, .run, .written 0 .success, .written 0 .operationAborted, .closeFrame] =
          some t ∧
      Meets step NoTransportError initial [.accepted .success, .send "stats", .run,
        .send "completion", .close, .run, .run, .written 0 .success, .written 0 .operationAborted,
        .closeFrame] ∧
      t.calledBeforeClose = some ["stats", "completion"] ∧
      t.wire = [.message "stats", .close] ∧ ¬Flushed t := by
  refine ⟨_, rfl, by decide, rfl, rfl, fun hflushed => ?_⟩
  obtain ⟨sent, hsent, hprefix⟩ := hflushed [.message "stats"] [] rfl
  cases hsent
  exact absurd hprefix (by decide)

end HermesFlow.WebSocketSession
