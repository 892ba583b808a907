import HermesFlow.Router
import HermesFlow.SegmentedStream
import HermesFlow.GraphInvariant

/-!
# The HTTP session

`do_session` reads a request, hands an upgrade request to the router and returns,
and answers any other one. An upgrade request that the router rejects is not
answered, and the response to a successful session request says that the
connection closes whatever the loop decides. Every other request is answered.
-/

namespace HermesFlow.Http

open EventRun SegmentedStream

/-- `MAX_BODY_LIMIT`. -/
def MAX_BODY_LIMIT : ℕ := 10 * 1024 * 1024

/-- Beast's request parser: it reads a header, then the body that belongs to it.
A header that announces a body over the limit is an error. -/
structure Parser where
  /-- What the parser has after a header, the length of the body included. -/
  Head : Type
  /-- The header, with the limit of the body. -/
  header : ℕ → List UInt8 → Parsed Head
  /-- `get`, before the body is read. -/
  get : Head → Request
  /-- The body, after which `get` gives the request. -/
  body : ℕ → Head → List UInt8 → Parsed Request

/-- A request that has been dispatched, and what became of it. -/
structure Dispatched where
  /-- The request. -/
  req : Request
  /-- What it found when it was routed. -/
  env : Environment
  /-- The socket has been handed over to a `WebSocketSession`. -/
  released : Bool
  /-- The status of the response that was built. -/
  decided : Status
  /-- The responses that `async_write` was called with. -/
  responses : List Response
  /-- The decision of the loop to keep the connection once they are written. -/
  keepAlive : Bool
  /-- The writes succeed. -/
  written : Bool

/-- A connection in `do_session`. -/
structure State where
  /-- `buffer_`. -/
  buffer : List UInt8
  /-- The segments that have not been received, as they will be. -/
  incoming : List (List UInt8)
  /-- The loop has not returned. -/
  isOpen : Bool
  /-- The requests dispatched. -/
  log : List Dispatched
  /-- The bytes that each new parser is started on, received or not. -/
  starts : List (List UInt8)
  /-- The message of the response to what was no request. -/
  badRequest : Option String

/-- What a turn of the loop finds. -/
structure Turn where
  /-- What the environment answers. -/
  env : Environment
  /-- The write of the response succeeds. -/
  written : Bool

/-- The error of `async_read_header` at the end of the bytes. -/
def headerEnd (got : List UInt8) : String := if got = [] then "End of Stream" else "partial message"

/-- `is_options_request`. -/
def Request.isOptionsRequest (req : Request) : Prop := req.method = .options

instance : DecidablePred Request.isOptionsRequest :=
  fun req => inferInstanceAs (Decidable (req.method = .options))

/-- `do_read_request`: the request and what is left of the stream. -/
def doReadRequest (parser : Parser) (s : State) : Except String (Read UInt8 Request) :=
  match readFrame (parser.header MAX_BODY_LIMIT) headerEnd s.buffer s.incoming with
  | .error message => .error message
  | .ok (head, buffer, incoming) =>
    if (parser.get head).isOptionsRequest then .ok (parser.get head, buffer, incoming)
    else
      readFrame (parser.body MAX_BODY_LIMIT head) (fun _ => "partial message") buffer incoming

/-- `do_build_response`, with what the router does. -/
def doBuildResponse (lib : Library) (env : Environment) (req : Request) : Routed :=
  if req.isOptionsRequest then
    ⟨env.registry, false, buildOptionsResponse req.version req.keepAlive⟩
  else
    routeQuery lib env req { Response.create with version := req.version, keepAlive := req.keepAlive }

/-- `handle_websocket_upgrade` of an upgrade request: nothing is written. -/
def handleWebsocketUpgrade (lib : Library) (turn : Turn) (req : Request) : Dispatched :=
  let routed := routeQuery lib turn.env req Response.create
  ⟨req, turn.env, routed.released, routed.res.status, [], false, turn.written⟩

/-- `process_single_request`. -/
def processSingleRequest (lib : Library) (turn : Turn) (req : Request) (keepAlive : Bool) :
    Dispatched :=
  let routed := doBuildResponse lib turn.env req
  ⟨req, turn.env, routed.released, routed.res.status, [routed.res], keepAlive, turn.written⟩

/-- The request of a turn is dispatched. -/
def dispatch (lib : Library) (turn : Turn) (req : Request) : Dispatched :=
  if req.isUpgrade = true then handleWebsocketUpgrade lib turn req
  else processSingleRequest lib turn req req.keepAlive

/-- The connection ends with the request. -/
def Dispatched.ends (d : Dispatched) : Bool :=
  d.req.isUpgrade || !d.written || !d.keepAlive

/-- One turn of the loop. -/
def step (lib : Library) (parser : Parser) (s : State) (turn : Turn) : Option State :=
  if s.isOpen = false then none
  else
    let s := { s with starts := s.starts ++ [s.buffer ++ s.incoming.flatten] }
    match doReadRequest parser s with
    | .error message =>
      -- the stream is not used any more
      some { s with isOpen := false, badRequest := some ("Invalid Request: " ++ message) }
    | .ok (req, buffer, incoming) =>
      let d := dispatch lib turn req
      some { s with
        buffer := buffer
        incoming := incoming
        isOpen := !d.ends
        log := s.log ++ [d] }

/-- A new connection, with the segments it will receive. -/
def start (incoming : List (List UInt8)) : State := ⟨[], incoming, true, [], [], none⟩

/-- The socket is a WebSocket's, or one response has been written, with the
status decided and the decision of the loop. -/
def Dispatched.Answered (d : Dispatched) : Prop :=
  d.released = true ∨
    ∃ res, d.responses = [res] ∧ res.status = d.decided ∧ res.keepAlive = d.keepAlive

/-- An upgrade request is handed over, and any other one that asks to keep the
connection is no request about a session that succeeds. -/
def Accepted (lib : Library) (env : Environment) (req : Request) : Prop :=
  if req.isUpgrade = true then HandsOver lib env req
  else req.keepAlive = true → ¬Succeeds lib env req

section Steps

variable {lib : Library} {parser : Parser} {s s' : State} {turn : Turn} {req : Request}

/-- Dispatching keeps the request. -/
@[simp] theorem dispatch_req : (dispatch lib turn req).req = req := by
  unfold dispatch
  split <;> rfl

/-- The environment is the turn's. -/
@[simp] theorem dispatch_env : (dispatch lib turn req).env = turn.env := by
  unfold dispatch
  split <;> rfl

/-- What a turn does: it finds no request and returns, or dispatches one. -/
theorem step_cases (hstep : step lib parser s turn = some s') :
    s.isOpen = true ∧ s'.starts = s.starts ++ [s.buffer ++ s.incoming.flatten] ∧
      ((∃ message, doReadRequest parser s = .error message ∧ s'.isOpen = false ∧
          s'.log = s.log) ∨
        ∃ req buffer incoming, doReadRequest parser s = .ok (req, buffer, incoming) ∧
          s'.buffer = buffer ∧ s'.incoming = incoming ∧
          s'.isOpen = !(dispatch lib turn req).ends ∧ s'.log = s.log ++ [dispatch lib turn req]) := by
  unfold step at hstep
  cases hopen : s.isOpen with
  | false =>
    rw [if_pos hopen] at hstep
    cases hstep
  | true =>
    rw [if_neg (by simp [hopen])] at hstep
    have hread : doReadRequest parser
        { s with starts := s.starts ++ [s.buffer ++ s.incoming.flatten] } =
          doReadRequest parser s := rfl
    simp only [hread] at hstep
    cases hgot : doReadRequest parser s with
    | error message =>
      rw [hgot] at hstep
      obtain rfl := Option.some.inj hstep
      exact ⟨rfl, rfl, .inl ⟨message, rfl, rfl, rfl⟩⟩
    | ok got =>
      obtain ⟨req, buffer, incoming⟩ := got
      rw [hgot] at hstep
      obtain rfl := Option.some.inj hstep
      exact ⟨rfl, rfl, .inr ⟨req, buffer, incoming, rfl, rfl, rfl, rfl, rfl⟩⟩

/-- An `OPTIONS` request is answered as it asks. -/
theorem doBuildResponse_keepAlive {env : Environment} (hplain : req.isUpgrade = false) :
    (doBuildResponse lib env req).released = false ∧
      ((doBuildResponse lib env req).res.keepAlive = req.keepAlive ↔
        (req.keepAlive = true → ¬Succeeds lib env req)) := by
  unfold doBuildResponse
  by_cases hoptions : req.isOptionsRequest
  · rw [if_pos hoptions]
    exact ⟨rfl, iff_of_true rfl fun _ hsucceeds => hsucceeds.method_ne hoptions⟩
  · rw [if_neg hoptions]
    exact routeQuery_plain hplain

/-- The dispatch of a request answers it if and only if the request is accepted. -/
theorem dispatch_answered :
    (dispatch lib turn req).Answered ↔ Accepted lib turn.env req := by
  unfold dispatch Accepted
  cases hupgrade : req.isUpgrade with
  | true =>
    rw [if_pos rfl, if_pos rfl]
    refine Iff.trans ?_ (@released_iff lib turn.env req Response.create hupgrade)
    constructor
    · rintro (hreleased | ⟨res, hwritten, -⟩)
      · exact hreleased
      · cases hwritten
    · exact .inl
  | false =>
    rw [if_neg Bool.false_ne_true, if_neg Bool.false_ne_true]
    obtain ⟨hreleased, hkeepAlive⟩ := @doBuildResponse_keepAlive lib req turn.env hupgrade
    refine Iff.trans ?_ hkeepAlive
    constructor
    · rintro (hgone | ⟨res, hwritten, -, hsame⟩)
      · cases hreleased.symm.trans hgone
      · obtain rfl := List.singleton_inj.mp hwritten
        exact hsame
    · intro hsame
      exact .inr ⟨_, rfl, rfl, hsame⟩

/-- What is in the log has been dispatched. -/
def Logged (lib : Library) (s : State) : Prop :=
  ∀ d ∈ s.log, ∃ turn req, d = dispatch lib turn req

/-- A turn logs only what it dispatched. -/
theorem Logged.step (h : Logged lib s) (hstep : step lib parser s turn = some s') :
    Logged lib s' := by
  obtain ⟨-, -, ⟨message, -, -, hlog⟩ | ⟨req, buffer, incoming, -, -, -, -, hlog⟩⟩ :=
    step_cases hstep
  · unfold Logged
    rw [hlog]
    exact h
  · intro d hd
    rw [hlog, List.mem_append, List.mem_singleton] at hd
    rcases hd with hd | rfl
    · exact h d hd
    · exact ⟨turn, req, rfl⟩

/-- A run has dispatched what is in its log. -/
theorem logged_of_run {incoming : List (List UInt8)} {turns : List Turn} {t : State}
    (hrun : runEvents (step lib parser) (start incoming) turns = some t) : Logged lib t := by
  have hstart : Logged lib (start incoming) := by
    intro d hd
    cases hd
  exact run_invariant_of_step (fun s turn s' h => h.step) hstart hrun

end Steps

/-- In every run, a request that has been dispatched has been answered if and
only if it was accepted. -/
theorem answered_iff {lib : Library} {parser : Parser} {incoming : List (List UInt8)}
    {turns : List Turn} {t : State}
    (hrun : runEvents (step lib parser) (start incoming) turns = some t)
    {d : Dispatched} (hd : d ∈ t.log) : d.Answered ↔ Accepted lib d.env d.req := by
  obtain ⟨turn, req, rfl⟩ := logged_of_run hrun d hd
  rw [dispatch_env, dispatch_req]
  exact dispatch_answered

/-- The bytes of a text. -/
def bytesOf (text : String) : List UInt8 := text.toUTF8.data.toList

/-- A parser of one request without a body. -/
def bodilessParser (header : String) (req : Request) : Parser where
  Head := Request
  header := fun _ => oneOf [(bytesOf header, req)]
  get := id
  body := fun _ req => oneOf [([], req)]

/-- A library for targets without a query, and for that of one session. -/
def plainLibrary : Library :=
  { Infra.plainLibrary with
    parseUrl := fun target =>
      if target = "/connect/?id=7" then .ok ⟨"/connect/", [("id", "7")]⟩ else .ok ⟨target, []⟩
    parseJson := fun _ => none
    uuid := toString }

/-- A registry, and no exception. -/
def quietEnvironment (registry : ActiveSessions.State) : Environment :=
  ⟨registry, 0, false, .ok, none, "", 0, ⟨0, 0, 0, 0, 0, []⟩⟩

/-- The registry after one `create_session`. -/
def oneSession : ActiveSessions.State :=
  (ActiveSessions.createSession (ActiveSessions.initial [] ⟨2, 0⟩) 7 .standard ⟨.ok, false, .ok⟩).1

/-- The header of an upgrade request. -/
def connectHeader : String :=
  "GET /connect/?id=7 HTTP/1.1\r\nHost: a\r\nConnection: Upgrade\r\nUpgrade: websocket\r\n\r\n"

/-- What it is parsed to. -/
def connectRequest : Request := ⟨.get, "/connect/?id=7", 11, true, true, ""⟩

/-- The upgrade of a registered session. -/
theorem answered_connect :
    ∃ t d, runEvents (step plainLibrary (bodilessParser connectHeader connectRequest))
        (start [bytesOf connectHeader]) [⟨quietEnvironment oneSession, true⟩] = some t ∧
      d ∈ t.log ∧ d.Answered := by
  let turn : Turn := ⟨quietEnvironment oneSession, true⟩
  obtain ⟨t, hrun, hlog⟩ : ∃ t,
      runEvents (step plainLibrary (bodilessParser connectHeader connectRequest))
          (start [bytesOf connectHeader]) [turn] = some t ∧
        t.log = [dispatch plainLibrary turn connectRequest] := ⟨_, rfl, rfl⟩
  have hd : dispatch plainLibrary turn connectRequest ∈ t.log := by
    rw [hlog]
    exact List.mem_singleton_self _
  refine ⟨t, _, hrun, hd, (answered_iff hrun hd).mpr ?_⟩
  exact ⟨⟨"/connect/", [("id", "7")]⟩, ⟨"/connect/", .get, .websocket⟩, "7", 7, rfl, by decide,
    rfl, rfl, rfl, rfl, rfl, rfl, .inl rfl⟩

/-- The upgrade of a session that is not registered: nothing is written. -/
theorem not_answered_unknown_id :
    ∃ t d, runEvents (step plainLibrary (bodilessParser connectHeader connectRequest))
        (start [bytesOf connectHeader])
        [⟨quietEnvironment (ActiveSessions.initial [] ⟨2, 0⟩), true⟩] = some t ∧
      d ∈ t.log ∧ d.decided = .conflict ∧ d.responses = [] ∧ ¬d.Answered := by
  refine ⟨_, _, rfl, List.mem_singleton.mpr rfl, rfl, rfl, ?_⟩
  rintro (hreleased | ⟨res, hwritten, -⟩)
  · cases hreleased
  · cases hwritten

end HermesFlow.Http
