import HermesFlow.EventRun

/-!
# The WebSocket of a session

`send` and `close` may be called on any thread. Each posts a handler to the
executor of the socket, which runs the handlers in the order of the posts, and
the completions of the accept and of writes at any time between them. What the
stream answers is part of the event: a write that was started before the
handshake cannot succeed, and one that was started after `async_close` is
aborted. The state also keeps the history that the results speak about.
-/

namespace HermesFlow.WebSocketSession

open EventRun

/-- The completion codes that `on_write` tells apart. -/
inductive ErrorCode where
  | success | closed | operationAborted | other
  deriving DecidableEq

/-- A handler posted to the executor. -/
inductive Handler where
  /-- The handler of `send`. -/
  | send (message : String)
  /-- The handler of `close`. -/
  | close
  deriving DecidableEq

/-- An `async_write` and the state of the stream when it was initiated. -/
structure Write where
  /-- The message in its buffer. -/
  message : String
  /-- The handshake had succeeded. -/
  handshaken : Bool
  /-- `async_close` had been initiated. -/
  closing : Bool
  deriving DecidableEq

/-- What the stream sends to the peer. -/
inductive Frame where
  | message (message : String)
  | close
  deriving DecidableEq

/-- A WebSocket session, its stream and their history. -/
structure State where
  /-- Handlers posted and not yet run, the next one first. -/
  posted : List Handler
  /-- The code that `on_accept` was called with. -/
  accept : Option ErrorCode
  /-- `send_queue_` when `async_close` was initiated. -/
  closedWith : Option (List String)
  /-- `send_queue_`. -/
  sendQueue : List String
  /-- The writes that have not completed. -/
  outstanding : List Write
  /-- The messages `send` was called with. -/
  called : List String
  /-- Those it was called with before the first call of `close`. -/
  calledBeforeClose : Option (List String)
  /-- The messages whose send handlers have run. -/
  handled : List String
  /-- The writes initiated. -/
  started : List Write
  /-- The frames sent. -/
  wire : List Frame
  /-- The front of an empty queue was read or popped. -/
  fault : Bool
  deriving DecidableEq

/-- A session whose `async_accept` has been initiated. -/
def initial : State where
  posted := []
  accept := none
  closedWith := none
  sendQueue := []
  outstanding := []
  called := []
  calledBeforeClose := none
  handled := []
  started := []
  wire := []
  fault := false

/-- A call or a completion. -/
inductive Event where
  /-- A call of `send`. -/
  | send (message : String)
  /-- A call of `close`. -/
  | close
  /-- The executor runs the next handler. -/
  | run
  /-- `on_accept`. -/
  | accepted (ec : ErrorCode)
  /-- `on_write` for an outstanding write. -/
  | written (k : ℕ) (ec : ErrorCode)
  /-- The stream sends the close frame. -/
  | closeFrame
  deriving DecidableEq

/-- The text of a frame. -/
def Frame.text : Frame → Option String
  | .message m => some m
  | .close => none

/-- The messages sent, in order. -/
def texts (wire : List Frame) : List String := wire.filterMap Frame.text

/-- The messages whose writes have completed, in order. -/
def State.written (st : State) : List String := texts st.wire

/-- The write that `async_write` would initiate for a message. -/
def State.newWrite (st : State) (message : String) : Write :=
  ⟨message, st.accept = some .success, st.closedWith.isSome⟩

/-- `do_write`. -/
def doWrite (st : State) : State :=
  match st.sendQueue with
  | [] => { st with fault := true }
  | message :: _ =>
    { st with
      outstanding := st.outstanding ++ [st.newWrite message]
      started := st.started ++ [st.newWrite message] }

/-- The handler of `send`. -/
def sendHandler (st : State) (message : String) : State :=
  let writing : Bool := st.sendQueue ≠ []
  let st := { st with
    sendQueue := st.sendQueue ++ [message]
    handled := st.handled ++ [message] }
  if writing = false then doWrite st else st

/-- The handler of `close`. -/
def closeHandler (st : State) : State :=
  { st with closedWith := st.closedWith.or (some st.sendQueue) }

/-- `send_queue_.pop_front()`. -/
def popFront (st : State) : State :=
  match st.sendQueue with
  | [] => { st with fault := true }
  | _ :: rest => { st with sendQueue := rest }

/-- `on_write`. -/
def onWrite (st : State) (ec : ErrorCode) : State :=
  if ec = .closed ∨ ec = .operationAborted then st
  else if ec ≠ .success then st
  else
    let st := popFront st
    if st.sendQueue ≠ [] then doWrite st else st

/-- The codes a write may complete with. -/
def Write.Permits (w : Write) (ec : ErrorCode) : Prop :=
  (ec = .success → w.handshaken = true) ∧ (w.closing = true → ec = .operationAborted)

instance (w : Write) (ec : ErrorCode) : Decidable (w.Permits ec) :=
  inferInstanceAs (Decidable (_ ∧ _))

/-- A write has completed: the stream has sent its message if it succeeded. -/
def complete (st : State) (k : ℕ) (w : Write) (ec : ErrorCode) : State :=
  { st with
    outstanding := st.outstanding.eraseIdx k
    wire := if ec = .success then st.wire ++ [.message w.message] else st.wire }

/-- The close frame is next: the writes that were outstanding when
`async_close` was initiated have completed. -/
def MayClose (st : State) : Prop :=
  st.closedWith.isSome = true ∧ st.accept = some .success ∧ .close ∉ st.wire ∧
    ∀ w ∈ st.outstanding, w.closing = true

instance (st : State) : Decidable (MayClose st) := inferInstanceAs (Decidable (_ ∧ _))

/-- Run a posted handler. -/
def runHandler (st : State) : Handler → State
  | .send message => sendHandler st message
  | .close => closeHandler st

/-- The step of one event; `none` when the event cannot happen now. -/
def step (st : State) : Event → Option State
  | .send message =>
    some { st with posted := st.posted ++ [.send message], called := st.called ++ [message] }
  | .close =>
    some { st with
      posted := st.posted ++ [.close]
      calledBeforeClose := st.calledBeforeClose.or (some st.called) }
  | .run =>
    match st.posted with
    | [] => none
    | handler :: rest => some (runHandler { st with posted := rest } handler)
  | .accepted ec => if st.accept = none then some { st with accept := some ec } else none
  | .written k ec => st.outstanding[k]?.bind fun w =>
    if w.Permits ec then some (onWrite (complete st k w ec) ec) else none
  | .closeFrame => if MayClose st then some { st with wire := st.wire ++ [.close] } else none

/-- The texts of two wires are those of each. -/
@[simp] theorem texts_append (a b : List Frame) : texts (a ++ b) = texts a ++ texts b :=
  List.filterMap_append

/-- Messages are their texts. -/
@[simp] theorem texts_map_message (l : List String) : texts (l.map .message) = l := by
  induction l with
  | nil => rfl
  | cons message l ih => exact congrArg (message :: ·) ih

/-- At most one write is outstanding, for the front of the queue. -/
structure Wf (st : State) : Prop where
  /-- No handler has read the front of an empty queue. -/
  fault : st.fault = false
  /-- At most one write is outstanding, for the front of the queue. -/
  outstanding : st.outstanding = [] ∨
    ∃ w, st.outstanding = [w] ∧ st.sendQueue.head? = some w.message

/-- With an empty queue no write is outstanding. -/
theorem Wf.outstanding_of_idle {st : State} (h : Wf st) (hidle : st.sendQueue = []) :
    st.outstanding = [] := by
  rcases h.outstanding with hnone | ⟨w, -, hfront⟩
  · exact hnone
  · rw [hidle] at hfront
    cases hfront

/-- Every step that a well-formed session takes. -/
inductive Moves (st : State) : Event → State → Prop where
  | send (message : String) :
      Moves st (.send message)
        { st with posted := st.posted ++ [.send message], called := st.called ++ [message] }
  | close :
      Moves st .close
        { st with
          posted := st.posted ++ [.close]
          calledBeforeClose := st.calledBeforeClose.or (some st.called) }
  /-- A send handler finds a write in progress. -/
  | queues {message : String} {rest : List Handler} (hposted : st.posted = .send message :: rest)
      (hbusy : st.sendQueue ≠ []) :
      Moves st .run
        { st with
          posted := rest
          sendQueue := st.sendQueue ++ [message]
          handled := st.handled ++ [message] }
  /-- A send handler starts the write of its message. -/
  | starts {message : String} {rest : List Handler} (hposted : st.posted = .send message :: rest)
      (hidle : st.sendQueue = []) :
      Moves st .run
        { st with
          posted := rest
          sendQueue := [message]
          handled := st.handled ++ [message]
          outstanding := [st.newWrite message]
          started := st.started ++ [st.newWrite message] }
  | closes {rest : List Handler} (hposted : st.posted = .close :: rest) :
      Moves st .run
        { st with posted := rest, closedWith := st.closedWith.or (some st.sendQueue) }
  | accepted {ec : ErrorCode} (hpending : st.accept = none) :
      Moves st (.accepted ec) { st with accept := some ec }
  /-- A write fails; its message stays in the queue. -/
  | fails {k : ℕ} {w : Write} {ec : ErrorCode} (hout : st.outstanding = [w])
      (hpermits : w.Permits ec) (hec : ec ≠ .success) :
      Moves st (.written k ec) { st with outstanding := [] }
  /-- A write succeeds and the queue is empty. -/
  | lastWritten {k : ℕ} {w : Write} (hout : st.outstanding = [w])
      (hpermits : w.Permits .success) (hqueue : st.sendQueue = [w.message]) :
      Moves st (.written k .success)
        { st with
          sendQueue := []
          outstanding := []
          wire := st.wire ++ [.message w.message] }
  /-- A write succeeds and that of the next message starts. -/
  | nextWritten {k : ℕ} {w : Write} {next : String} {rest : List String}
      (hout : st.outstanding = [w]) (hpermits : w.Permits .success)
      (hqueue : st.sendQueue = w.message :: next :: rest) :
      Moves st (.written k .success)
        { st with
          sendQueue := next :: rest
          outstanding := [st.newWrite next]
          started := st.started ++ [st.newWrite next]
          wire := st.wire ++ [.message w.message] }
  | closeFrame (hmay : MayClose st) : Moves st .closeFrame { st with wire := st.wire ++ [.close] }

/-- The handler of a send, as a move. -/
theorem sendHandler_moves {st : State} (hwf : Wf st) {message : String} {rest : List Handler}
    (hposted : st.posted = .send message :: rest) :
    Moves st .run (sendHandler { st with posted := rest } message) := by
  by_cases hidle : st.sendQueue = []
  · have hout := hwf.outstanding_of_idle hidle
    have hstarts := Moves.starts hposted hidle
    simpa [sendHandler, doWrite, hidle, hout, State.newWrite] using hstarts
  · have hqueues := Moves.queues hposted hidle
    simpa [sendHandler, hidle] using hqueues

/-- The handler of a write, as a move. -/
theorem onWrite_moves {st : State} (hwf : Wf st) {k : ℕ} {w : Write} {ec : ErrorCode}
    (hk : st.outstanding[k]? = some w) (hpermits : w.Permits ec) :
    Moves st (.written k ec) (onWrite (complete st k w ec) ec) := by
  rcases hwf.outstanding with hnone | ⟨w', hout, hfront⟩
  · rw [hnone, List.getElem?_nil] at hk
    cases hk
  · -- the only outstanding write is the first
    rw [hout] at hk
    obtain ⟨rfl, rfl⟩ : k = 0 ∧ w' = w := by
      cases k with
      | zero => exact ⟨rfl, Option.some.inj hk⟩
      | succ k => cases hk
    by_cases hec : ec = .success
    · subst hec
      obtain ⟨queue, hqueue⟩ := List.head?_eq_some_iff.mp hfront
      cases queue with
      | nil =>
        have hlast := Moves.lastWritten (k := 0) hout hpermits hqueue
        simpa [onWrite, complete, popFront, hqueue, hout] using hlast
      | cons next rest =>
        have hnext := Moves.nextWritten (k := 0) hout hpermits hqueue
        simpa [onWrite, complete, popFront, doWrite, State.newWrite, hqueue, hout] using hnext
    · have hfails := Moves.fails (k := 0) hout hpermits hec
      simpa [onWrite, complete, hec, hout] using hfails

/-- Every step is one of the moves. -/
theorem step_moves {st st' : State} {e : Event} (hwf : Wf st) (h : step st e = some st') :
    Moves st e st' := by
  cases e with
  | send message => cases h; exact .send message
  | close => cases h; exact .close
  | run =>
    simp only [step] at h
    split at h
    · cases h
    · rename_i handler rest hposted
      cases h
      cases handler with
      | send message => exact sendHandler_moves hwf hposted
      | close => exact .closes hposted
  | accepted ec =>
    simp only [step, Option.ite_none_right_eq_some, Option.some.injEq] at h
    obtain ⟨hpending, rfl⟩ := h
    exact .accepted hpending
  | written k ec =>
    simp only [step, Option.bind_eq_some_iff, Option.ite_none_right_eq_some,
      Option.some.injEq] at h
    obtain ⟨w, hk, hpermits, rfl⟩ := h
    exact onWrite_moves hwf hk hpermits
  | closeFrame =>
    simp only [step, Option.ite_none_right_eq_some, Option.some.injEq] at h
    obtain ⟨hmay, rfl⟩ := h
    exact .closeFrame hmay

/-- The queue is well formed at first. -/
theorem wf_initial : Wf initial := ⟨rfl, .inl rfl⟩

/-- One step keeps the queue well formed. -/
theorem wf_step {st st' : State} {e : Event} (hwf : Wf st) (h : step st e = some st') :
    Wf st' := by
  cases step_moves hwf h with
  | send | close | closes | accepted | closeFrame => exact ⟨hwf.fault, hwf.outstanding⟩
  | queues hposted hbusy =>
    refine ⟨hwf.fault, hwf.outstanding.imp_right ?_⟩
    rintro ⟨w, hout, hfront⟩
    exact ⟨w, hout, by rw [List.head?_append, hfront]; rfl⟩
  | starts | nextWritten => exact ⟨hwf.fault, .inr ⟨_, rfl, rfl⟩⟩
  | fails | lastWritten => exact ⟨hwf.fault, .inl rfl⟩

/-- In every run, errors and closes included, at most one write is outstanding,
and its message is the front of the queue. -/
theorem wf_of_run {t : State} {es : List Event} (hrun : runEvents step initial es = some t) :
    Wf t :=
  run_invariant_of_step (fun _ _ _ hwf he => wf_step hwf he) wf_initial hrun

/-- Nothing is lost or duplicated: what has been written, then the queue. -/
def Conserved (st : State) : Prop := st.written ++ st.sendQueue = st.handled

/-- One step loses and doubles nothing. -/
theorem conserved_step {st st' : State} {e : Event} (hwf : Wf st) (hs : Conserved st)
    (h : step st e = some st') : Conserved st' := by
  unfold Conserved State.written at hs ⊢
  cases step_moves hwf h with
  | send | close | closes | accepted | fails => exact hs
  | queues hposted hbusy => rw [← hs, List.append_assoc]
  | starts hposted hidle => rw [← hs, hidle, List.append_nil]
  | lastWritten hout hpermits hqueue =>
    rw [hqueue] at hs
    rw [texts_append, List.append_nil, ← hs]
    rfl
  | nextWritten hout hpermits hqueue =>
    rw [hqueue] at hs
    rw [texts_append, List.append_assoc, ← hs]
    rfl
  | closeFrame =>
    rw [texts_append, ← hs]
    exact congrArg (· ++ st.sendQueue) (List.append_nil _)

/-- The message of a posted `send`. -/
def Handler.text : Handler → Option String
  | .send message => some message
  | .close => none

/-- The handler that a call posts. -/
def Event.posts : Event → Option Handler
  | .send message => some (.send message)
  | .close => some .close
  | .run | .accepted _ | .written _ _ | .closeFrame => none

/-- Whether the executor runs a handler. -/
def Event.isRun : Event → Bool
  | .run => true
  | .send _ | .close | .accepted _ | .written _ _ | .closeFrame => false

/-- Whether a write completes without an error. -/
def Event.isWritten : Event → Bool
  | .written _ ec => ec = .success
  | .send _ | .close | .run | .accepted _ | .closeFrame => false

/-- The handlers that the calls of a run post. -/
def handlersPosted (es : List Event) : List Handler := es.filterMap Event.posts

/-- The messages whose send handlers have run, in that order: the executor runs the
handlers in the order of the posts. -/
def messagesHandled (es : List Event) : List String :=
  ((handlersPosted es).take (es.countP Event.isRun)).filterMap Handler.text

/-- The history that the state keeps is that of the events. -/
structure Traced (es : List Event) (st : State) : Prop where
  /-- The handlers that have run, then those that wait; the messages of the first. -/
  handlers : ∃ ran, handlersPosted es = ran ++ st.posted ∧ ran.length = es.countP Event.isRun ∧
    st.handled = ran.filterMap Handler.text
  /-- The messages written are those of the completed writes. -/
  written : st.written.length = es.countP Event.isWritten

/-- Nothing has been handled at first. -/
theorem traced_initial : Traced [] initial := ⟨⟨[], rfl, rfl, rfl⟩, rfl⟩

/-- The handlers that have run give the messages handled. -/
theorem Traced.handled_eq {es : List Event} {st : State} (h : Traced es st) :
    st.handled = messagesHandled es := by
  obtain ⟨ran, hposted, hcount, hhandled⟩ := h.handlers
  rw [messagesHandled, hposted, ← hcount, List.take_left, hhandled]

/-- An event that runs no handler may post one, and may complete a write. -/
theorem Traced.waits {es : List Event} {st st' : State} {e : Event} (h : Traced es st)
    (hrun : e.isRun = false) (hposted : st'.posted = st.posted ++ e.posts.toList)
    (hhandled : st'.handled = st.handled)
    (hwritten : st'.written.length = st.written.length + e.isWritten.toNat) :
    Traced (es ++ [e]) st' := by
  obtain ⟨ran, hall, hcount, htexts⟩ := h.handlers
  refine ⟨⟨ran, ?_, ?_, hhandled.trans htexts⟩, ?_⟩
  · rw [hposted, ← List.append_assoc, ← hall]
    cases hpost : e.posts <;> simp [handlersPosted, hpost]
  · simp [List.countP_append, hrun, hcount]
  · rw [hwritten, h.written, List.countP_append]
    cases he : e.isWritten <;> simp [he]

/-- A handler that runs is the first of those that wait. -/
theorem Traced.runs {es : List Event} {st st' : State} {handler : Handler} (h : Traced es st)
    (hposted : st.posted = handler :: st'.posted)
    (hhandled : st'.handled = st.handled ++ handler.text.toList)
    (hwritten : st'.written = st.written) : Traced (es ++ [.run]) st' := by
  obtain ⟨ran, hall, hcount, htexts⟩ := h.handlers
  refine ⟨⟨ran ++ [handler], ?_, ?_, ?_⟩, ?_⟩
  · rw [List.append_assoc, List.singleton_append, ← hposted, ← hall]
    simp [handlersPosted, Event.posts]
  · simp [List.countP_append, Event.isRun, hcount]
  · rw [hhandled, htexts]
    cases htext : handler.text <;> simp [htext]
  · rw [hwritten, h.written]
    simp [List.countP_append, Event.isWritten]

/-- One event. -/
theorem traced_step {es : List Event} {st st' : State} {e : Event} (hwf : Wf st)
    (hs : Traced es st) (h : step st e = some st') : Traced (es ++ [e]) st' := by
  cases step_moves hwf h with
  | send | close => exact hs.waits rfl rfl rfl rfl
  | queues hfirst | starts hfirst => exact hs.runs hfirst rfl rfl
  | closes hfirst => exact hs.runs hfirst (List.append_nil _).symm rfl
  | accepted => exact hs.waits rfl (List.append_nil _).symm rfl rfl
  | fails hout hpermits hec =>
    refine hs.waits rfl (List.append_nil _).symm rfl ?_
    simp [Event.isWritten, hec, State.written]
  | lastWritten | nextWritten =>
    refine hs.waits rfl (List.append_nil _).symm rfl ?_
    rw [State.written, texts_append, List.length_append]
    rfl
  | closeFrame =>
    refine hs.waits rfl (List.append_nil _).symm rfl ?_
    rw [State.written, texts_append, List.length_append]
    rfl

/-- In every run the history in the state is that of the events. -/
theorem traced_of_run {t : State} {es : List Event} (hrun : runEvents step initial es = some t) :
    Traced es t := by
  have hfree : Meets step (fun _ _ => True) initial es :=
    meets_of_forall (fun _ _ => trivial) initial es
  have htraced : Wf t ∧ Traced ([] ++ runLog step (fun _ e => [e]) initial es) t :=
    run_log_invariant (I := fun es st => Wf st ∧ Traced es st)
      (fun _ _ _ _ hi _ he => ⟨wf_step hi.1 he, traced_step hi.1 hi.2 he⟩)
      ⟨wf_initial, traced_initial⟩ hfree hrun
  rw [List.nil_append, runLog_events hrun] at htraced
  exact htraced.2

/-- The guard of runs in which the writes of a kind succeed. -/
def WritesSucceed (kind : Write → Prop) (st : State) : Event → Prop
  | .written k ec => ∀ w ∈ st.outstanding[k]?, kind w → ec = .success
  | _ => True

instance {kind : Write → Prop} [DecidablePred kind] (st : State) :
    DecidablePred (WritesSucceed kind st)
  | .written k ec => inferInstanceAs (Decidable (∀ w ∈ st.outstanding[k]?, kind w → ec = .success))
  | .send _ | .close | .run | .accepted _ | .closeFrame => instDecidableTrue

/-- The guard of runs whose handlers meet a condition as they run. -/
def HandlersMeet (ok : State → Handler → Prop) (st : State) : Event → Prop
  | .run => ∀ handler ∈ st.posted.head?, ok st handler
  | _ => True

instance {ok : State → Handler → Prop} [∀ st, DecidablePred (ok st)] (st : State) :
    DecidablePred (HandlersMeet ok st)
  | .run => inferInstanceAs (Decidable (∀ handler ∈ st.posted.head?, ok st handler))
  | .send _ | .close | .accepted _ | .written _ _ | .closeFrame => instDecidableTrue

/-- A message in the queue is being written. -/
def Busy (st : State) : Prop := st.sendQueue ≠ [] → st.outstanding ≠ []

/-- Whether the event is the failure of a write. -/
def Event.isError : Event → Bool
  | .written _ ec => ec ≠ .success
  | _ => false

/-- Without an error the front of the queue stays in writing. -/
theorem busy_step {st st' : State} {e : Event} (hwf : Wf st) (hs : Busy st)
    (hclean : e.isError = false) (h : step st e = some st') : Busy st' := by
  cases step_moves hwf h with
  | send | close | closes | accepted | closeFrame => exact hs
  | queues hposted hbusy => exact fun _ => hs hbusy
  | starts | nextWritten => exact fun _ => List.cons_ne_nil _ _
  | fails hout hpermits hec => simp [Event.isError, hec] at hclean
  | lastWritten => exact fun hqueue => absurd rfl hqueue

/-- After a run, writes are serialised, in order and exactly once. -/
structure Serialised (es : List Event) (st : State) : Prop where
  /-- At most one write is outstanding. -/
  outstanding_le : st.outstanding.length ≤ 1
  /-- The queue is the flag of a write in progress. -/
  nonempty_iff : st.sendQueue ≠ [] ↔ st.outstanding ≠ []
  /-- The front is the message being written. -/
  front : ∀ w ∈ st.outstanding, st.sendQueue.head? = some w.message
  /-- A message has been written for each write that has completed. -/
  completed : st.written.length = es.countP Event.isWritten
  /-- What has been written, then the queue, is what the send handlers that have run were
  given. -/
  history : st.written ++ st.sendQueue = messagesHandled es

/-- What is traced and conserved is serialised. -/
theorem Wf.serialised {es : List Event} {st : State} (hwf : Wf st) (htraced : Traced es st)
    (hconserved : Conserved st) (hbusy : Busy st) : Serialised es st := by
  refine ⟨?_, ⟨hbusy, fun hout hqueue => hout (hwf.outstanding_of_idle hqueue)⟩, ?_,
    htraced.written, hconserved.trans htraced.handled_eq⟩
  · rcases hwf.outstanding with hnone | ⟨w, hout, -⟩
    · rw [hnone]
      exact Nat.zero_le 1
    · rw [hout, List.length_singleton]
  · intro w hw
    rcases hwf.outstanding with hnone | ⟨w', hout, hfront⟩
    · rw [hnone] at hw
      cases hw
    · rw [hout, List.mem_singleton] at hw
      rw [hw, hfront]

/-- In every run without a failed write the writes are serialised. -/
theorem serialised_of_run {t : State} {es : List Event}
    (hclean : ∀ e ∈ es, e.isError = false) (hrun : runEvents step initial es = some t) :
    Serialised es t := by
  have hstart : Wf initial ∧ Conserved initial ∧ Busy initial :=
    ⟨wf_initial, rfl, fun hqueue => absurd rfl hqueue⟩
  obtain ⟨hwf, hconserved, hbusy⟩ := run_invariant
    (I := fun st => Wf st ∧ Conserved st ∧ Busy st)
    (fun st e st' hi hok he => ⟨wf_step hi.1 he, conserved_step hi.1 hi.2.1 he,
      busy_step hi.1 hi.2.2 hok he⟩)
    hstart (meets_of_events hclean initial) hrun
  exact hwf.serialised (traced_of_run hrun) hconserved hbusy

/-- Three messages, the others sent while the first is being written. -/
theorem serialised_three_messages :
    ∃ t, runEvents step initial [.accepted .success, .send "a", .run, .send "b", .send "c", .run,
        .written 0 .success] = some t ∧ t.written = ["a"] ∧ t.sendQueue = ["b"] ∧
      Serialised [.accepted .success, .send "a", .run, .send "b", .send "c", .run,
        .written 0 .success] t :=
  ⟨_, rfl, rfl, rfl, @serialised_of_run _ [.accepted .success, .send "a", .run, .send "b",
    .send "c", .run, .written 0 .success] (by decide) rfl⟩

end HermesFlow.WebSocketSession
