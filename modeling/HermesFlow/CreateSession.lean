import HermesFlow.ActiveSessions

/-!
# A failed `create_session`

The call is one function of the registry and of what `parse_graph`,
`allocate_webrtc_port` and `Session::create` do; without other threads it is a
run of the registry's machine. A call that fails leaves the two maps as they
are. It has counted a session all the same, and an error value of
`Session::create` returns an allocated port twice.
-/

namespace HermesFlow.ActiveSessions

open EventRun

/-- What the three fallible calls do. -/
structure Answers where
  /-- `parse_graph`. -/
  parseGraph : CallResult
  /-- `allocate_webrtc_port` throws. -/
  allocateThrows : Bool
  /-- `Session::create`, the constructor of the session included. -/
  create : CallResult

/-- `get_total_sessions_created`. -/
def getTotalSessionsCreated (st : State) : UInt64 := UInt64.ofNat st.nextSessionId

/-- `allocate_webrtc_port`. -/
def allocateWebrtcPort (st : State) : Option Port × State :=
  match st.availableWebrtcPorts with
  | [] => (none, st)
  | port :: rest => (some port, { st with availableWebrtcPorts := rest })

/-- `create_session` once `port_guard` has been constructed. -/
def createGuarded (st : State) (call : CreateCall) (port : Option Port) (result : CallResult) :
    State × CreateOutcome :=
  match result with
  | .ok => (unwindPort (register st call port) port, .created)
  | .error error =>
    -- the branch returns the port, and then the guard does
    let st := unwindPort st port
    (unwindPort st port, .failed error)
  | .threw => (unwindPort st port, .threw)

/-- `create_session`. -/
def createSession (st : State) (id : SessionId) (sessionType : SessionType) (a : Answers) :
    State × CreateOutcome :=
  let call : CreateCall := ⟨id, sessionType, st.pool.getIoContext.1, .parsing⟩
  let st := { st with
    nextSessionId := st.nextSessionId + 1
    pool := st.pool.getIoContext.2 }
  match a.parseGraph with
  | .error error => (st, .failed error)
  | .threw => (st, .threw)
  | .ok =>
    if sessionType = .webRtc then
      if a.allocateThrows = true then (st, .threw)
      else
        match allocateWebrtcPort st with
        | (none, st) => (st, .failed noPortsError)
        | (some port, st) => createGuarded st call (some port) a.create
    else createGuarded st call none a.create

/-- The registry a client sees: the ports, the sessions, the WebSockets and the
number of sessions created. -/
structure Unchanged (st st' : State) : Prop where
  /-- The ports are the same, in some order. -/
  ports : st'.availableWebrtcPorts.Perm st.availableWebrtcPorts
  /-- The sessions are the same. -/
  sessions : st'.sessions = st.sessions
  /-- Their objects are the same. -/
  object : ∀ id ∈ st.sessions, st'.object id = st.object id
  /-- The websocket sessions are the same. -/
  websocketSessions : st'.websocketSessions = st.websocketSessions
  /-- The number of sessions created is the same. -/
  total : getTotalSessionsCreated st' = getTotalSessionsCreated st

/-- A call that returns no session id leaves the registry unchanged. -/
def AtomicOnFailure (st : State) (result : State × CreateOutcome) : Prop :=
  result.2 ≠ .created → Unchanged st result.1

/-- No call of `create_session` fails: the graph parses, a port is there if it
is needed, and the session is made. -/
structure NoFailure (st : State) (sessionType : SessionType) (a : Answers) : Prop where
  /-- The text is a graph. -/
  parses : a.parseGraph = .ok
  /-- A port is there if one is needed. -/
  port : sessionType = .webRtc → a.allocateThrows = false ∧ st.availableWebrtcPorts ≠ []
  /-- The session is created. -/
  creates : a.create = .ok

/-- An allocated port meets an error value of `Session::create`. -/
structure ReturnsTwice (st : State) (sessionType : SessionType) (a : Answers) : Prop where
  /-- The text is a graph. -/
  parses : a.parseGraph = .ok
  /-- A port is needed. -/
  webRtc : sessionType = .webRtc
  /-- The port is allocated. -/
  allocates : a.allocateThrows = false ∧ st.availableWebrtcPorts ≠ []
  /-- The creation returns an error value. -/
  fails : ∃ error, a.create = .error error

section Call

variable {st : State} {id : SessionId} {sessionType : SessionType} {a : Answers}

/-- Giving a port back changes nothing but the ports. -/
@[simp] theorem unwindPort_fields (st : State) (port : Option Port) :
    (unwindPort st port).sessions = st.sessions ∧ (unwindPort st port).object = st.object ∧
      (unwindPort st port).websocketSessions = st.websocketSessions ∧
        (unwindPort st port).nextSessionId = st.nextSessionId := by
  cases port <;> exact ⟨rfl, rfl, rfl, rfl⟩

/-- Giving a port back appends it to the ports. -/
theorem unwindPort_ports (st : State) (port : Option Port) :
    (unwindPort st port).availableWebrtcPorts = st.availableWebrtcPorts ++ port.toList := by
  cases port with
  | none => exact (List.append_nil _).symm
  | some port => rfl

/-- What the guarded part of a call does to the registry if it fails. -/
theorem createGuarded_failed {call : CreateCall} {port : Option Port} {result : CallResult}
    (hfailed : (createGuarded st call port result).2 ≠ .created) :
    ∃ copies, (createGuarded st call port result).1.availableWebrtcPorts =
        st.availableWebrtcPorts ++ port.toList ++ copies ∧
      (copies = [] ↔ port = none ∨ ∀ error, result ≠ .error error) ∧
      (createGuarded st call port result).1.sessions = st.sessions ∧
      (createGuarded st call port result).1.object = st.object ∧
      (createGuarded st call port result).1.websocketSessions = st.websocketSessions ∧
      (createGuarded st call port result).1.nextSessionId = st.nextSessionId := by
  cases result with
  | ok => exact absurd rfl hfailed
  | threw =>
    refine ⟨[], ?_, by simp, unwindPort_fields st port⟩
    rw [List.append_nil]
    exact unwindPort_ports st port
  | error error =>
    refine ⟨port.toList, ?_, ?_, ?_⟩
    · exact (unwindPort_ports _ port).trans (congrArg (· ++ _) (unwindPort_ports st port))
    · rw [Option.toList_eq_nil_iff]
      exact ⟨.inl, fun h => h.elim id fun hnone => absurd rfl (hnone error)⟩
    · have hfirst := unwindPort_fields st port
      obtain ⟨hsessions, hobject, hwebsockets, htotal⟩ :=
        unwindPort_fields (unwindPort st port) port
      exact ⟨hsessions.trans hfirst.1, hobject.trans hfirst.2.1, hwebsockets.trans hfirst.2.2.1,
        htotal.trans hfirst.2.2.2⟩

/-- What a failed call has done. -/
structure FailedCall (st : State) (sessionType : SessionType) (a : Answers) (st' : State) :
    Prop where
  /-- The ports are the same exactly when none was given back twice. -/
  ports : st'.availableWebrtcPorts.Perm st.availableWebrtcPorts ↔ ¬ReturnsTwice st sessionType a
  /-- The sessions are the same. -/
  sessions : st'.sessions = st.sessions
  /-- Their objects are the same. -/
  object : st'.object = st.object
  /-- The websocket sessions are the same. -/
  websocketSessions : st'.websocketSessions = st.websocketSessions
  /-- An identifier has been used up. -/
  nextSessionId : st'.nextSessionId = st.nextSessionId + 1

/-- A call that fails before `Session::create` leaves its count and nothing else. -/
theorem FailedCall.of_counted (hnot : ¬ReturnsTwice st sessionType a) :
    FailedCall st sessionType a
      { st with nextSessionId := st.nextSessionId + 1, pool := st.pool.getIoContext.2 } :=
  ⟨⟨fun _ => hnot, fun _ => .refl _⟩, rfl, rfl, rfl, rfl⟩

/-- A call fails at one of three places, and none of them undoes the count. -/
theorem createSession_failed (hfailed : (createSession st id sessionType a).2 ≠ .created) :
    FailedCall st sessionType a (createSession st id sessionType a).1 := by
  unfold createSession at hfailed ⊢
  dsimp only at hfailed ⊢
  cases hparse : a.parseGraph with
  | error error => exact .of_counted fun h => by cases hparse.symm.trans h.parses
  | threw => exact .of_counted fun h => by cases hparse.symm.trans h.parses
  | ok =>
    simp only [hparse] at hfailed
    by_cases htype : sessionType = .webRtc
    · simp only [if_pos htype] at hfailed ⊢
      by_cases hthrows : a.allocateThrows = true
      · rw [if_pos hthrows]
        exact .of_counted fun h => by cases hthrows.symm.trans h.allocates.1
      · simp only [if_neg hthrows, allocateWebrtcPort] at hfailed ⊢
        cases hports : st.availableWebrtcPorts with
        | nil =>
          have hnone := @FailedCall.of_counted st sessionType a fun h => h.allocates.2 hports
          rw [hports] at hnone
          exact hnone
        | cons port rest =>
          simp only [hports] at hfailed ⊢
          obtain ⟨copies, hafter, hcopies, hsame⟩ := createGuarded_failed hfailed
          refine ⟨?_, hsame.1, hsame.2.1, hsame.2.2.1, hsame.2.2.2⟩
          rw [hafter, hports]
          have hrest : (rest ++ [port] ++ copies).Perm (port :: rest) ↔ copies = [] := by
            constructor
            · intro hperm
              have hlength := hperm.length_eq
              simp only [List.length_append, List.length_cons] at hlength
              exact List.length_eq_zero_iff.mp (by omega)
            · rintro rfl
              rw [List.append_nil]
              exact List.perm_append_singleton port rest
          refine hrest.trans (hcopies.trans ?_)
          constructor
          · rintro (hnone | hvalue) htwice
            · cases hnone
            · obtain ⟨error, herror⟩ := htwice.fails
              exact hvalue error herror
          · intro hnot
            refine .inr fun error herror => hnot ⟨hparse, htype, ⟨?_, ?_⟩, error, herror⟩
            · simpa using hthrows
            · rw [hports]
              exact List.cons_ne_nil port rest
    · simp only [if_neg htype] at hfailed ⊢
      obtain ⟨copies, hafter, hcopies, hsame⟩ := createGuarded_failed hfailed
      obtain rfl : copies = [] := hcopies.mpr (.inl rfl)
      have hnot : ¬ReturnsTwice st sessionType a := fun h => htype h.webRtc
      refine ⟨⟨fun _ => hnot, fun _ => ?_⟩, hsame.1, hsame.2.1, hsame.2.2.1, hsame.2.2.2⟩
      rw [hafter]
      simp

/-- A call returns a session id if nothing it calls fails. -/
theorem created_iff :
    (createSession st id sessionType a).2 = .created ↔ NoFailure st sessionType a := by
  have hguarded : ∀ (m : State) (call : CreateCall) (port : Option Port),
      (createGuarded m call port a.create).2 = .created ↔ a.create = .ok := by
    intro m call port
    unfold createGuarded
    cases a.create <;> simp
  unfold createSession
  dsimp only
  constructor
  · intro hcreated
    cases hparse : a.parseGraph with
    | error error => simp [hparse] at hcreated
    | threw => simp [hparse] at hcreated
    | ok =>
      simp only [hparse] at hcreated
      split at hcreated
      · rename_i htype
        split at hcreated
        · cases hcreated
        · rename_i hthrows
          unfold allocateWebrtcPort at hcreated
          cases hports : st.availableWebrtcPorts with
          | nil => simp [hports] at hcreated
          | cons port rest =>
            simp only [hports, hguarded] at hcreated
            refine ⟨hparse, fun _ => ⟨by simpa using hthrows, ?_⟩, hcreated⟩
            rw [hports]
            exact List.cons_ne_nil port rest
      · rename_i htype
        exact ⟨hparse, fun h => absurd h htype, (hguarded _ _ _).mp hcreated⟩
  · intro h
    simp only [h.parses]
    split
    · rename_i htype
      obtain ⟨hthrows, hports⟩ := h.port htype
      obtain ⟨port, rest, hports⟩ := List.exists_cons_of_ne_nil hports
      simp only [hthrows, Bool.false_eq_true, if_false, allocateWebrtcPort, hports, hguarded]
      exact h.creates
    · exact (hguarded _ _ _).mpr h.creates

/-- A used identifier counts as a session created. -/
theorem total_ne {st' : State} (h : st'.nextSessionId = st.nextSessionId + 1) :
    getTotalSessionsCreated st' ≠ getTotalSessionsCreated st := by
  intro hsame
  have hnat := congrArg UInt64.toNat hsame
  simp only [getTotalSessionsCreated, h, UInt64.toNat_ofNat'] at hnat
  omega

/-- A call that fails always leaves a trace: it is atomic on failure if and
only if nothing fails. -/
theorem atomicOnFailure_iff :
    AtomicOnFailure st (createSession st id sessionType a) ↔ NoFailure st sessionType a := by
  constructor
  · intro hatomic
    by_contra hfails
    have hfailed : (createSession st id sessionType a).2 ≠ .created := mt created_iff.mp hfails
    exact total_ne (createSession_failed hfailed).nextSessionId (hatomic hfailed).total
  · intro hnone hfailed
    exact absurd (created_iff.mpr hnone) hfailed

end Call

/-- A request without a flow has been counted as a session. -/
theorem not_atomicOnFailure_parse_error :
    let error : ErrorInfo := ⟨.parseError, "Missing required key: flow"⟩
    let result := createSession (initial [5000] ⟨2, 0⟩) 0 .standard ⟨.error error, false, .ok⟩
    result.2 = .failed error ∧ getTotalSessionsCreated (initial [5000] ⟨2, 0⟩) = 0 ∧
      getTotalSessionsCreated result.1 = 1 ∧ ¬AtomicOnFailure (initial [5000] ⟨2, 0⟩) result := by
  refine ⟨rfl, rfl, rfl, fun hatomic => ?_⟩
  have htotal := (hatomic CreateOutcome.noConfusion).total
  exact absurd htotal (by decide)

/-- An error value of `Session::create` returns the port twice. -/
example : (createSession (initial [5000] ⟨2, 0⟩) 0 .webRtc
    ⟨.ok, false, .error noPortsError⟩).1.availableWebrtcPorts = [5000, 5000] := rfl

/-- The events of a call's guarded part. -/
def guardedEvents (i : ℕ) (result : CallResult) (port : Option Port) : List Event :=
  .sessionCreated i result ::
    match result, port with
    | .ok, _ => [.register i, .unwind i]
    | .error _, some _ => [.returnPort i, .unwind i]
    | .error _, none => [.unwind i]
    | .threw, _ => [.unwind i]

/-- The events of a call that no other thread interrupts, from the number of
calls before it. -/
def createEvents (st : State) (id : SessionId) (sessionType : SessionType) (a : Answers) :
    List Event :=
  let i := st.creates.length
  .beginCreate id sessionType :: .parsed i a.parseGraph ::
    match a.parseGraph with
    | .ok =>
      if sessionType = .webRtc then
        .allocate i ::
          match st.availableWebrtcPorts with
          | [] => []
          | port :: _ => guardedEvents i a.create (some port)
      else guardedEvents i a.create none
    | _ => []

/-- The two agree on everything but the record of the calls. -/
structure SameRegistry (a b : State) : Prop where
  /-- The same ports. -/
  ports : a.availableWebrtcPorts = b.availableWebrtcPorts
  /-- The same sessions. -/
  sessions : a.sessions = b.sessions
  /-- The same objects. -/
  object : a.object = b.object
  /-- The same websocket sessions. -/
  websocketSessions : a.websocketSessions = b.websocketSessions
  /-- The same next identifier. -/
  nextSessionId : a.nextSessionId = b.nextSessionId
  /-- The same pool. -/
  pool : a.pool = b.pool

/-- Agreement composes. -/
theorem SameRegistry.trans {a b c : State} (h : SameRegistry a b) (h' : SameRegistry b c) :
    SameRegistry a c where
  ports := h.ports.trans h'.ports
  sessions := h.sessions.trans h'.sessions
  object := h.object.trans h'.object
  websocketSessions := h.websocketSessions.trans h'.websocketSessions
  nextSessionId := h.nextSessionId.trans h'.nextSessionId
  pool := h.pool.trans h'.pool

/-- The last call moves. -/
theorem atCreate_last {st : State} {calls : List CreateCall} {call : CreateCall}
    (hcreates : st.creates = calls ++ [call]) (move : CreateCall → Option State) :
    st.atCreate calls.length move = move call := by
  simp [State.atCreate, hcreates]

/-- The registry after the last call has moved. -/
def movedTo (st : State) (calls : List CreateCall) (call : CreateCall) (pc : CreatePc) : State :=
  { st with creates := calls ++ [{ call with pc := pc }] }

/-- The last call is moved to a new counter. -/
theorem setCreate_last {st : State} {calls : List CreateCall} {call : CreateCall}
    (hcreates : st.creates = calls ++ [call]) (pc : CreatePc) :
    st.setCreate calls.length call pc = movedTo st calls call pc := by
  simp [State.setCreate, movedTo, hcreates]

/-- The unwinding of a call gives its port back. -/
theorem unwind_run {st : State} {calls : List CreateCall} {call : CreateCall} {port : Option Port}
    {outcome : CreateOutcome} (hcreates : st.creates = calls ++ [call])
    (hpc : call.pc = .unwinding port outcome) :
    ∃ m, runEvents step st [.unwind calls.length] = some m ∧
      SameRegistry m (unwindPort st port) := by
  have hmoved : (unwindPort st port).creates = calls ++ [call] := by
    cases port <;> exact hcreates
  refine ⟨movedTo (unwindPort st port) calls call (.done outcome), ?_, ⟨rfl, rfl, rfl, rfl, rfl, rfl⟩⟩
  simp only [runEvents, step, atCreate_last hcreates, hpc, setCreate_last hmoved, Option.bind_some]

/-- Moving a call changes the record of the calls alone. -/
theorem movedTo_same (st : State) (calls : List CreateCall) (call : CreateCall) (pc : CreatePc) :
    SameRegistry (movedTo st calls call pc) st := ⟨rfl, rfl, rfl, rfl, rfl, rfl⟩

/-- Giving a port back keeps the agreement. -/
theorem SameRegistry.unwindPort {a b : State} (h : SameRegistry a b) (port : Option Port) :
    SameRegistry (unwindPort a port) (unwindPort b port) := by
  cases port with
  | none => exact h
  | some port =>
    exact ⟨congrArg (· ++ [port]) h.ports, h.sessions, h.object, h.websocketSessions,
      h.nextSessionId, h.pool⟩

/-- The registration reads the registry and the call's id and context. -/
theorem SameRegistry.register {a b : State} (h : SameRegistry a b) {call call' : CreateCall}
    (hid : call.id = call'.id) (hio : call.io = call'.io) (port : Option Port) :
    SameRegistry (register a call port) (register b call' port) := by
  refine ⟨h.ports, ?_, ?_, h.websocketSessions, h.nextSessionId, h.pool⟩
  · simp only [ActiveSessions.register, State.setObject, hid, h.sessions]
  · simp only [ActiveSessions.register, State.setObject, hid, hio, h.object]

/-- The guarded part of a call is these events of the machine. -/
theorem createGuarded_run {st : State} {calls : List CreateCall} {call : CreateCall}
    {port : Option Port} (result : CallResult) (hcreates : st.creates = calls ++ [call])
    (hpc : call.pc = .creating port) :
    ∃ m, runEvents step st (guardedEvents calls.length result port) = some m ∧
      SameRegistry m (createGuarded st call port result).1 := by
  have hfirst : step st (.sessionCreated calls.length result) =
      some (movedTo st calls call (afterSessionCreate port result)) := by
    simp only [step, atCreate_last hcreates, hpc, setCreate_last hcreates]
  have hmoved := fun pc => movedTo_same st calls call pc
  unfold guardedEvents
  simp only [runEvents_cons_iff (s := st), hfirst, Option.some.injEq, exists_eq_left']
  cases result with
  | ok =>
    generalize hmid : movedTo st calls call (afterSessionCreate port .ok) = mid
    have hregister : step mid (.register calls.length) = some (movedTo (register mid
        { call with pc := .registering port } port) calls call (.unwinding port .created)) := by
      subst hmid
      simp only [step, afterSessionCreate]
      rw [@atCreate_last (movedTo st calls call (.registering port)) _ _ rfl]
      exact congrArg some (@setCreate_last _ _ { call with pc := .registering port } rfl _)
    obtain ⟨m, hrun, hsame⟩ := @unwind_run (movedTo (register mid
      { call with pc := .registering port } port) calls call (.unwinding port .created)) _ _ _ _
        rfl rfl
    refine ⟨m, runEvents_cons_iff.mpr ⟨_, hregister, hrun⟩, hsame.trans ?_⟩
    subst hmid
    exact ((movedTo_same _ _ _ _).trans ((hmoved _).register rfl rfl port)).unwindPort port
  | threw =>
    obtain ⟨m, hrun, hsame⟩ :=
      @unwind_run (movedTo st calls call (.unwinding port .threw)) _ _ _ _ rfl rfl
    exact ⟨m, hrun, hsame.trans ((hmoved _).unwindPort port)⟩
  | error error =>
    cases port with
    | none =>
      obtain ⟨m, hrun, hsame⟩ :=
        @unwind_run (movedTo st calls call (.unwinding none (.failed error))) _ _ _ _ rfl rfl
      exact ⟨m, hrun, hsame.trans (hmoved _)⟩
    | some port =>
      generalize hmid : movedTo st calls call (afterSessionCreate (some port) (.error error)) = mid
      have hreturn : step mid (.returnPort calls.length) = some (movedTo
          (ActiveSessions.unwindPort mid (some port)) calls call
            (.unwinding (some port) (.failed error))) := by
        subst hmid
        simp only [step, afterSessionCreate]
        rw [@atCreate_last (movedTo st calls call (.returningPort port error)) _ _ rfl]
        exact congrArg some
          (@setCreate_last _ _ { call with pc := .returningPort port error } rfl _)
      obtain ⟨m, hrun, hsame⟩ := @unwind_run (movedTo
        (ActiveSessions.unwindPort mid (some port)) calls call
          (.unwinding (some port) (.failed error))) _ _ _ _ rfl rfl
      refine ⟨m, runEvents_cons_iff.mpr ⟨_, hreturn, hrun⟩, hsame.trans ?_⟩
      subst hmid
      exact ((movedTo_same _ _ _ _).trans ((hmoved _).unwindPort (some port))).unwindPort (some port)

/-- So does the whole guarded part. -/
theorem SameRegistry.createGuarded {a b : State} (h : SameRegistry a b) {call call' : CreateCall}
    (hid : call.id = call'.id) (hio : call.io = call'.io) (port : Option Port)
    (result : CallResult) :
    SameRegistry (createGuarded a call port result).1 (createGuarded b call' port result).1 := by
  cases result with
  | ok => exact (h.register hid hio port).unwindPort port
  | error error => exact (h.unwindPort port).unwindPort port
  | threw => exact h.unwindPort port

/-- Where no mutex fails, the call is a run of the registry's machine. -/
theorem createSession_run {st : State} {id : SessionId} {sessionType : SessionType} {a : Answers}
    (hfresh : id ∉ st.creates.map CreateCall.id) (hlock : a.allocateThrows = false) :
    ∃ m, runEvents step st (createEvents st id sessionType a) = some m ∧
      SameRegistry m (createSession st id sessionType a).1 := by
  have hbegin : step st (.beginCreate id sessionType) = some (beginCreate st id sessionType) := by
    simp only [step, if_neg hfresh]
  generalize hcall : (⟨id, sessionType, st.pool.getIoContext.1, .parsing⟩ : CreateCall) = call
  have hcreates : (beginCreate st id sessionType).creates = st.creates ++ [call] := hcall ▸ rfl
  have hparsed : step (beginCreate st id sessionType) (.parsed st.creates.length a.parseGraph) =
      some (movedTo (beginCreate st id sessionType) st.creates call
        (afterParse sessionType a.parseGraph)) := by
    subst hcall
    simp only [step, atCreate_last hcreates, setCreate_last hcreates]
  have hsame : SameRegistry (beginCreate st id sessionType)
      { st with nextSessionId := st.nextSessionId + 1, pool := st.pool.getIoContext.2 } :=
    ⟨rfl, rfl, rfl, rfl, rfl, rfl⟩
  unfold createEvents createSession
  simp only [runEvents_cons_iff (s := st), runEvents_cons_iff (s := beginCreate st id sessionType),
    hbegin, hparsed, Option.some.injEq, exists_eq_left', hcall]
  have hmoved := fun pc => (movedTo_same (beginCreate st id sessionType) st.creates call pc).trans hsame
  cases a.parseGraph with
  | error error | threw => exact ⟨_, rfl, hmoved _⟩
  | ok =>
    by_cases htype : sessionType = .webRtc
    · simp only [if_pos htype, afterParse, hlock, Bool.false_eq_true, if_false, allocateWebrtcPort]
      generalize hmid : movedTo (beginCreate st id sessionType) st.creates call .allocating = mid
      have hmid' : mid.creates = st.creates ++ [{ call with pc := .allocating }] := hmid ▸ rfl
      have hports' : mid.availableWebrtcPorts = st.availableWebrtcPorts := hmid ▸ rfl
      have hstep : step mid (.allocate st.creates.length) =
          some (allocate mid st.creates.length { call with pc := .allocating }) := by
        simp only [step, atCreate_last hmid']
      simp only [runEvents_cons_iff (s := mid), hstep, Option.some.injEq, exists_eq_left']
      unfold allocate
      cases hports : st.availableWebrtcPorts with
      | nil =>
        simp only [hports', hports, setCreate_last hmid']
        refine ⟨_, rfl, (movedTo_same mid _ _ _).trans ?_⟩
        rw [← hports]
        exact hmid ▸ hmoved _
      | cons port rest =>
        simp only [hports', hports]
        have hnext : ({ mid with availableWebrtcPorts := rest } : State).creates =
            st.creates ++ [{ call with pc := .allocating }] := hmid'
        rw [setCreate_last hnext]
        obtain ⟨m, hrun, hlast⟩ := @createGuarded_run
          (movedTo { mid with availableWebrtcPorts := rest } st.creates
            { call with pc := .allocating } (.creating (some port))) _
          { call with pc := .creating (some port) } _ a.create rfl rfl
        refine ⟨m, hrun, hlast.trans (SameRegistry.createGuarded ?_ rfl rfl (some port) a.create)⟩
        subst hmid
        exact ⟨rfl, rfl, rfl, rfl, rfl, rfl⟩
    · simp only [if_neg htype, afterParse]
      obtain ⟨m, hrun, hlast⟩ := @createGuarded_run
        (movedTo (beginCreate st id sessionType) st.creates call (.creating none)) _
        { call with pc := .creating none } _ a.create rfl rfl
      exact ⟨m, hrun, hlast.trans ((hmoved _).createGuarded rfl rfl none a.create)⟩

end HermesFlow.ActiveSessions
