import HermesFlow.EventRun
import HermesFlow.Types
import Mathlib.Algebra.Order.Ring.Nat

/-!
# The session registry

`ActiveSessions` creates sessions, connects a WebSocket to one of them and
runs it, and removes sessions, from any number of threads. An event is one
critical section of `mutex_` or one access to a session between two of them.
The outcomes of `parse_graph` and `Session::create` are part of the event.
A session object is named by its UUID, and a WebSocket by the position of the
connect call that made it.
-/

namespace HermesFlow.ActiveSessions

open EventRun

/-- A WebRTC port, a `uint16_t`. -/
abbrev Port := UInt16

/-- The UUID of a session. -/
abbrev SessionId := ℕ

/-- `config::SessionType`. -/
inductive SessionType where
  | standard | standartEncrypted | webRtc
  deriving DecidableEq

/-- The loop that fills the port list, for at most `fuel` of its tests; the
counter is a `uint16_t` and wraps. `none` when it is still running. -/
def fillWebrtcPorts : ℕ → Port → Port → Option (List Port)
  | 0, _, _ => none
  | fuel + 1, p, portEnd =>
    if p ≤ portEnd then (fillWebrtcPorts fuel (p + 1) portEnd).map (p :: ·) else some []

/-- The contexts of an `IoContextPool` and its round-robin counter. -/
structure IoContextPool where
  /-- Number of contexts. -/
  size : ℕ
  /-- `next_io_context_`, a `std::size_t`. -/
  next : ℕ

/-- `get_io_context`: the index of the context and the advanced pool. -/
def IoContextPool.getIoContext (pool : IoContextPool) : ℕ × IoContextPool :=
  (pool.next % pool.size, { pool with next := (pool.next + 1) % 2 ^ 64 })

/-- What the registry reads and writes of a session object. -/
structure Session where
  /-- Index of the context its timer, channel, socket and files belong to. -/
  io : ℕ
  /-- `janus_port_`. -/
  janusPort : Option Port
  /-- `is_running_`. -/
  isRunning : Bool
  /-- The WebSocket of the attached observer. -/
  observer : Option ℕ

/-- How `create_session` ends. -/
inductive CreateOutcome where
  /-- The session id is returned. -/
  | created
  /-- An error value is returned. -/
  | failed (error : ErrorInfo)
  /-- An exception leaves the call. -/
  | threw

/-- Where a `create_session` call stands. -/
inductive CreatePc where
  /-- Inside `parse_graph`. -/
  | parsing
  /-- The graph is parsed and the type is WebRTC: `allocate_webrtc_port` next. -/
  | allocating
  /-- `port_guard` is constructed; inside `Session::create`. -/
  | creating (port : Option Port)
  /-- `Session::create` failed: the explicit push of the port next. -/
  | returningPort (port : Port) (error : ErrorInfo)
  /-- `Session::create` succeeded: the insertion into `sessions_` next. -/
  | registering (port : Option Port)
  /-- Leaving the scope of `port_guard`: its destructor next. -/
  | unwinding (port : Option Port) (outcome : CreateOutcome)
  /-- The call has ended. -/
  | done (outcome : CreateOutcome)

/-- One call of `create_session`. -/
structure CreateCall where
  /-- The UUID drawn for the session. -/
  id : SessionId
  /-- The requested type. -/
  sessionType : SessionType
  /-- The context drawn for the session. -/
  io : ℕ
  /-- The position. -/
  pc : CreatePc

/-- Where a `create_and_run_websocket_session` call stands. -/
inductive ConnectPc where
  /-- `get(audio_session_id)` next. -/
  | lookup
  /-- The session is found: `is_running()` next. -/
  | testRunning
  /-- The test has passed: the WebSocket and its observer next. -/
  | attach
  /-- The entry of `websocket_sessions_` next. -/
  | insert
  /-- `spawn_session_coroutine` next. -/
  | spawn
  /-- The call has returned. -/
  | done (result : Except ErrorInfo Unit)

/-- One call of `create_and_run_websocket_session`. -/
structure ConnectCall where
  /-- The requested session. -/
  id : SessionId
  /-- The position. -/
  pc : ConnectPc

/-- Where a coroutine of `spawn_session_coroutine` stands. -/
inductive CoroutinePc where
  /-- Spawned; `start` has not begun. -/
  | spawned
  /-- Inside `start`, after `is_running_ = true`. -/
  | started
  /-- `start` has returned, `is_running_` is cleared: `remove_session` next. -/
  | ended
  /-- Finished. -/
  | finished
  deriving DecidableEq

/-- One coroutine of `spawn_session_coroutine`. -/
structure Coroutine where
  /-- The session it runs. -/
  id : SessionId
  /-- The WebSocket it captured. -/
  websocket : ℕ
  /-- Index of the context it was spawned on. -/
  io : ℕ
  /-- The position. -/
  pc : CoroutinePc

/-- `SessionOpStatus`. -/
inductive SessionOpStatus where
  | success | sessionNotFound | webSocketNotFound
  deriving DecidableEq

/-- The registry, the session objects and the calls made so far. -/
structure State where
  /-- `available_webrtc_ports_`, front first. -/
  availableWebrtcPorts : List Port
  /-- Keys of `sessions_`. -/
  sessions : List SessionId
  /-- The session objects. -/
  object : SessionId → Session
  /-- `websocket_sessions_`. -/
  websocketSessions : SessionId → Option ℕ
  /-- WebSockets on which `close` was called. -/
  closed : List ℕ
  /-- `next_session_id_`. -/
  nextSessionId : ℕ
  /-- `pool_`. -/
  pool : IoContextPool
  /-- The calls of `create_session`. -/
  creates : List CreateCall
  /-- The calls of `create_and_run_websocket_session`. -/
  connects : List ConnectCall
  /-- The coroutines spawned. -/
  coroutines : List Coroutine

/-- The registry after its constructor has filled the port list. -/
def initial (ports : List Port) (pool : IoContextPool) : State where
  availableWebrtcPorts := ports
  sessions := []
  object := fun _ => ⟨0, none, false, none⟩
  websocketSessions := fun _ => none
  closed := []
  nextSessionId := 0
  pool := pool
  creates := []
  connects := []
  coroutines := []

/-- Errors of the two calls. -/
def noPortsError : ErrorInfo := ⟨.logicError, "No available WebRTC ports"⟩
/-- The session is not registered. -/
def sessionNotFound : ErrorInfo := ⟨.logicError, "Session not found"⟩
/-- The session's coroutine is running. -/
def alreadyConnected : ErrorInfo := ⟨.logicError, "WebSocket already connected"⟩

/-- Result of `parse_graph` or of `Session::create`. -/
inductive CallResult where
  /-- A value. -/
  | ok
  /-- An error value. -/
  | error (error : ErrorInfo)
  /-- An exception. -/
  | threw

/-- One critical section of `mutex_`, or one step between two of them. -/
inductive Event where
  /-- `create_session` begins: UUID, counter and context are drawn. -/
  | beginCreate (id : SessionId) (sessionType : SessionType)
  /-- `parse_graph` ends. -/
  | parsed (call : ℕ) (result : CallResult)
  /-- `allocate_webrtc_port`. -/
  | allocate (call : ℕ)
  /-- `Session::create` ends. -/
  | sessionCreated (call : ℕ) (result : CallResult)
  /-- The push in the branch `!session_result`. -/
  | returnPort (call : ℕ)
  /-- `sessions_[session_id] = ...`. -/
  | register (call : ℕ)
  /-- `~PortGuard`. -/
  | unwind (call : ℕ)
  /-- `create_and_run_websocket_session` begins. -/
  | beginConnect (id : SessionId)
  /-- `get`. -/
  | lookup (call : ℕ)
  /-- `session->is_running()`. -/
  | testRunning (call : ℕ)
  /-- The WebSocket is made and accepted, its observer attached. -/
  | attach (call : ℕ)
  /-- `websocket_sessions_[audio_session_id] = websocket`. -/
  | insert (call : ℕ)
  /-- `spawn_session_coroutine`. -/
  | spawn (call : ℕ)
  /-- First statement of `start`. -/
  | start (coroutine : ℕ)
  /-- Teardown of `start`. -/
  | finish (coroutine : ℕ)
  /-- The coroutine's `remove_session`. -/
  | removeOwn (coroutine : ℕ)
  /-- `remove_session` by a client. -/
  | remove (id : SessionId)
  /-- The listener draws a context for a connection. -/
  | accept

/-- `create_session` up to `parse_graph`. -/
def beginCreate (st : State) (id : SessionId) (sessionType : SessionType) : State :=
  { st with
    nextSessionId := st.nextSessionId + 1
    pool := st.pool.getIoContext.2
    creates := st.creates ++ [⟨id, sessionType, st.pool.getIoContext.1, .parsing⟩] }

/-- Move a `create_session` call. -/
def State.setCreate (st : State) (i : ℕ) (call : CreateCall) (pc : CreatePc) : State :=
  { st with creates := st.creates.set i { call with pc := pc } }

/-- Move a `create_and_run_websocket_session` call. -/
def State.setConnect (st : State) (j : ℕ) (call : ConnectCall) (pc : ConnectPc) : State :=
  { st with connects := st.connects.set j { call with pc := pc } }

/-- Move a coroutine. -/
def State.setCoroutine (st : State) (k : ℕ) (co : Coroutine) (pc : CoroutinePc) : State :=
  { st with coroutines := st.coroutines.set k { co with pc := pc } }

/-- Change a session object. -/
def State.setObject (st : State) (id : SessionId) (session : Session) : State :=
  { st with object := Function.update st.object id session }

/-- After `parse_graph`: the error returns, and only WebRTC allocates a port. -/
def afterParse (sessionType : SessionType) : CallResult → CreatePc
  | .ok => if sessionType = .webRtc then .allocating else .creating none
  | .error error => .done (.failed error)
  | .threw => .done .threw

/-- `allocate_webrtc_port` and the test of its result. -/
def allocate (st : State) (i : ℕ) (call : CreateCall) : State :=
  match st.availableWebrtcPorts with
  | [] => st.setCreate i call (.done (.failed noPortsError))
  | port :: rest => { st with availableWebrtcPorts := rest }.setCreate i call (.creating (some port))

/-- After `Session::create`: on an error value the port is pushed explicitly. -/
def afterSessionCreate (port : Option Port) : CallResult → CreatePc
  | .ok => .registering port
  | .error error =>
    match port with
    | some p => .returningPort p error
    | none => .unwinding none (.failed error)
  | .threw => .unwinding port .threw

/-- `~PortGuard`; nothing ever sets its field `released`. -/
def unwindPort (st : State) : Option Port → State
  | some port => { st with availableWebrtcPorts := st.availableWebrtcPorts ++ [port] }
  | none => st

/-- `sessions_[session_id] = ...` with the session made by this call. -/
def register (st : State) (call : CreateCall) (port : Option Port) : State :=
  { st.setObject call.id ⟨call.io, port, false, none⟩ with
    sessions := if call.id ∈ st.sessions then st.sessions else st.sessions ++ [call.id] }

/-- `session->attach_observer` with the WebSocket of connect call `j`. -/
def attachObserver (st : State) (id : SessionId) (j : ℕ) : State :=
  st.setObject id { st.object id with observer := some j }

/-- `websocket_sessions_[audio_session_id] = websocket`. -/
def insertWebsocket (st : State) (id : SessionId) (j : ℕ) : State :=
  { st with websocketSessions := Function.update st.websocketSessions id (some j) }

/-- `spawn_session_coroutine`: the coroutine runs on the next context of the pool. -/
def spawnSessionCoroutine (st : State) (id : SessionId) (j : ℕ) : State :=
  { st with
    pool := st.pool.getIoContext.2
    coroutines := st.coroutines ++ [⟨id, j, st.pool.getIoContext.1, .spawned⟩] }

/-- A store to `is_running_`, by `start` or `stop`. -/
def setRunning (st : State) (id : SessionId) (value : Bool) : State :=
  st.setObject id { st.object id with isRunning := value }

/-- `remove_session`, one critical section. -/
def removeSession (st : State) (id : SessionId) : State × SessionOpStatus :=
  if id ∈ st.sessions then
    let st' : State :=
      { setRunning st id false with
        availableWebrtcPorts := st.availableWebrtcPorts ++ (st.object id).janusPort.toList
        sessions := st.sessions.erase id }
    match st.websocketSessions id with
    | some ws =>
      ({ st' with
          closed := st.closed ++ [ws]
          websocketSessions := Function.update st.websocketSessions id none }, .success)
    | none => (st', .webSocketNotFound)
  else (st, .sessionNotFound)

/-- Make the next move of a `create_session` call. -/
def State.atCreate (st : State) (i : ℕ) (move : CreateCall → Option State) : Option State :=
  st.creates[i]?.bind move

/-- Make the next move of a `create_and_run_websocket_session` call. -/
def State.atConnect (st : State) (j : ℕ) (move : ConnectCall → Option State) : Option State :=
  st.connects[j]?.bind move

/-- Make the next move of a coroutine. -/
def State.atCoroutine (st : State) (k : ℕ) (move : Coroutine → Option State) : Option State :=
  st.coroutines[k]?.bind move

/-- The step of one event; `none` when the event cannot happen now. -/
def step (st : State) : Event → Option State
  | .beginCreate id sessionType =>
    -- UUIDs are never drawn twice
    if id ∈ st.creates.map CreateCall.id then none else some (beginCreate st id sessionType)
  | .parsed i result => st.atCreate i fun call =>
    match call.pc with
    | .parsing => some (st.setCreate i call (afterParse call.sessionType result))
    | _ => none
  | .allocate i => st.atCreate i fun call =>
    match call.pc with
    | .allocating => some (allocate st i call)
    | _ => none
  | .sessionCreated i result => st.atCreate i fun call =>
    match call.pc with
    | .creating port => some (st.setCreate i call (afterSessionCreate port result))
    | _ => none
  | .returnPort i => st.atCreate i fun call =>
    match call.pc with
    | .returningPort port error =>
      some ((unwindPort st (some port)).setCreate i call (.unwinding (some port) (.failed error)))
    | _ => none
  | .register i => st.atCreate i fun call =>
    match call.pc with
    | .registering port => some ((register st call port).setCreate i call (.unwinding port .created))
    | _ => none
  | .unwind i => st.atCreate i fun call =>
    match call.pc with
    | .unwinding port outcome => some ((unwindPort st port).setCreate i call (.done outcome))
    | _ => none
  | .beginConnect id => some { st with connects := st.connects ++ [⟨id, .lookup⟩] }
  | .lookup j => st.atConnect j fun call =>
    match call.pc with
    | .lookup =>
      some (st.setConnect j call
        (if call.id ∈ st.sessions then .testRunning else .done (.error sessionNotFound)))
    | _ => none
  | .testRunning j => st.atConnect j fun call =>
    match call.pc with
    | .testRunning =>
      some (st.setConnect j call
        (if (st.object call.id).isRunning then .done (.error alreadyConnected) else .attach))
    | _ => none
  | .attach j => st.atConnect j fun call =>
    match call.pc with
    | .attach => some ((attachObserver st call.id j).setConnect j call .insert)
    | _ => none
  | .insert j => st.atConnect j fun call =>
    match call.pc with
    | .insert => some ((insertWebsocket st call.id j).setConnect j call .spawn)
    | _ => none
  | .spawn j => st.atConnect j fun call =>
    match call.pc with
    | .spawn => some ((spawnSessionCoroutine st call.id j).setConnect j call (.done (.ok ())))
    | _ => none
  | .start k => st.atCoroutine k fun co =>
    match co.pc with
    | .spawned => some ((setRunning st co.id true).setCoroutine k co .started)
    | _ => none
  | .finish k => st.atCoroutine k fun co =>
    match co.pc with
    | .started => some ((setRunning st co.id false).setCoroutine k co .ended)
    | _ => none
  | .removeOwn k => st.atCoroutine k fun co =>
    match co.pc with
    | .ended => some ((removeSession st co.id).1.setCoroutine k co .finished)
    | _ => none
  | .remove id => some (removeSession st id).1
  | .accept => some { st with pool := st.pool.getIoContext.2 }

/-- Every step with the call or coroutine that takes it. -/
inductive Moves (st : State) : Event → State → Prop where
  | beginCreate {id : SessionId} (hid : id ∉ st.creates.map CreateCall.id)
      (sessionType : SessionType) :
      Moves st (.beginCreate id sessionType) (beginCreate st id sessionType)
  | parsed {i : ℕ} {call : CreateCall} (hc : st.creates[i]? = some call)
      (hp : call.pc = .parsing) (result : CallResult) :
      Moves st (.parsed i result) (st.setCreate i call (afterParse call.sessionType result))
  | allocate {i : ℕ} {call : CreateCall} (hc : st.creates[i]? = some call)
      (hp : call.pc = .allocating) : Moves st (.allocate i) (allocate st i call)
  | sessionCreated {i : ℕ} {call : CreateCall} {port : Option Port}
      (hc : st.creates[i]? = some call) (hp : call.pc = .creating port) (result : CallResult) :
      Moves st (.sessionCreated i result) (st.setCreate i call (afterSessionCreate port result))
  | returnPort {i : ℕ} {call : CreateCall} {port : Port} {error : ErrorInfo}
      (hc : st.creates[i]? = some call) (hp : call.pc = .returningPort port error) :
      Moves st (.returnPort i) ((unwindPort st (some port)).setCreate i call
        (.unwinding (some port) (.failed error)))
  | register {i : ℕ} {call : CreateCall} {port : Option Port}
      (hc : st.creates[i]? = some call) (hp : call.pc = .registering port) :
      Moves st (.register i) ((register st call port).setCreate i call (.unwinding port .created))
  | unwind {i : ℕ} {call : CreateCall} {port : Option Port} {outcome : CreateOutcome}
      (hc : st.creates[i]? = some call) (hp : call.pc = .unwinding port outcome) :
      Moves st (.unwind i) ((unwindPort st port).setCreate i call (.done outcome))
  | beginConnect (id : SessionId) :
      Moves st (.beginConnect id) { st with connects := st.connects ++ [⟨id, .lookup⟩] }
  | found {j : ℕ} {call : ConnectCall} (hc : st.connects[j]? = some call)
      (hp : call.pc = .lookup) (hreg : call.id ∈ st.sessions) :
      Moves st (.lookup j) (st.setConnect j call .testRunning)
  | notFound {j : ℕ} {call : ConnectCall} (hc : st.connects[j]? = some call)
      (hp : call.pc = .lookup) (hreg : call.id ∉ st.sessions) :
      Moves st (.lookup j) (st.setConnect j call (.done (.error sessionNotFound)))
  | refused {j : ℕ} {call : ConnectCall} (hc : st.connects[j]? = some call)
      (hp : call.pc = .testRunning) (hr : (st.object call.id).isRunning = true) :
      Moves st (.testRunning j) (st.setConnect j call (.done (.error alreadyConnected)))
  | passed {j : ℕ} {call : ConnectCall} (hc : st.connects[j]? = some call)
      (hp : call.pc = .testRunning) (hr : (st.object call.id).isRunning = false) :
      Moves st (.testRunning j) (st.setConnect j call .attach)
  | attach {j : ℕ} {call : ConnectCall} (hc : st.connects[j]? = some call)
      (hp : call.pc = .attach) :
      Moves st (.attach j) ((attachObserver st call.id j).setConnect j call .insert)
  | insert {j : ℕ} {call : ConnectCall} (hc : st.connects[j]? = some call)
      (hp : call.pc = .insert) :
      Moves st (.insert j) ((insertWebsocket st call.id j).setConnect j call .spawn)
  | spawn {j : ℕ} {call : ConnectCall} (hc : st.connects[j]? = some call)
      (hp : call.pc = .spawn) :
      Moves st (.spawn j) ((spawnSessionCoroutine st call.id j).setConnect j call (.done (.ok ())))
  | start {k : ℕ} {co : Coroutine} (hc : st.coroutines[k]? = some co) (hp : co.pc = .spawned) :
      Moves st (.start k) ((setRunning st co.id true).setCoroutine k co .started)
  | finish {k : ℕ} {co : Coroutine} (hc : st.coroutines[k]? = some co) (hp : co.pc = .started) :
      Moves st (.finish k) ((setRunning st co.id false).setCoroutine k co .ended)
  | removeOwn {k : ℕ} {co : Coroutine} (hc : st.coroutines[k]? = some co) (hp : co.pc = .ended) :
      Moves st (.removeOwn k) ((removeSession st co.id).1.setCoroutine k co .finished)
  | remove (id : SessionId) : Moves st (.remove id) (removeSession st id).1
  | accept : Moves st .accept { st with pool := st.pool.getIoContext.2 }

/-- A lookup goes to the test of the running flag for a known id, and ends with an error else. -/
theorem lookup_moves {st : State} {j : ℕ} {call : ConnectCall} (hc : st.connects[j]? = some call)
    (hp : call.pc = .lookup) :
    Moves st (.lookup j) (st.setConnect j call
      (if call.id ∈ st.sessions then .testRunning else .done (.error sessionNotFound))) := by
  split
  · exact .found hc hp (by assumption)
  · exact .notFound hc hp (by assumption)

/-- The test of the running flag ends the call or lets it attach its observer. -/
theorem testRunning_moves {st : State} {j : ℕ} {call : ConnectCall}
    (hc : st.connects[j]? = some call) (hp : call.pc = .testRunning) :
    Moves st (.testRunning j) (st.setConnect j call
      (if (st.object call.id).isRunning then .done (.error alreadyConnected) else .attach)) := by
  split
  · exact .refused hc hp (by assumption)
  · exact .passed hc hp (Bool.eq_false_iff.mpr (by assumption))

/-- A step of the registry is one of the moves. -/
theorem step_moves {st st' : State} {e : Event} (h : step st e = some st') : Moves st e st' := by
  cases e with
  | beginCreate id sessionType =>
    simp only [step, Option.ite_none_left_eq_some, Option.some.injEq] at h
    obtain ⟨hid, rfl⟩ := h
    exact .beginCreate hid sessionType
  | beginConnect id => cases h; exact .beginConnect id
  | remove id => cases h; exact .remove id
  | accept => cases h; exact .accept
  | _ =>
    simp only [step, State.atCreate, State.atConnect, State.atCoroutine,
      Option.bind_eq_some_iff] at h
    obtain ⟨call, hc, h⟩ := h
    split at h <;> simp only [Option.some.injEq, reduceCtorEq] at h
    subst h
    rename_i hp
    first
    | exact .parsed hc hp _
    | exact .allocate hc hp
    | exact .sessionCreated hc hp _
    | exact .returnPort hc hp
    | exact .register hc hp
    | exact .unwind hc hp
    | exact lookup_moves hc hp
    | exact testRunning_moves hc hp
    | exact .attach hc hp
    | exact .insert hc hp
    | exact .spawn hc hp
    | exact .start hc hp
    | exact .finish hc hp
    | exact .removeOwn hc hp

end HermesFlow.ActiveSessions
