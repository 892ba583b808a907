import HermesFlow.CreateSession
import HermesFlow.Json2Graph

/-!
# The router

`route_query` finds the first route whose path prefix the target has, checks the
method and calls the handler. An error or an exception becomes a JSON response
with a status. The only handler that gives away the socket is that of
`/connect/`, and only for an upgrade request.
-/

namespace HermesFlow.Http

open ActiveSessions (SessionId SessionType SessionOpStatus)

/-- The method of a request. -/
inductive Verb where
  | get | post | options
  /-- Any other method, with its name. -/
  | other (name : String)
  deriving DecidableEq

/-- `to_string`. -/
def Verb.text : Verb → String
  | .get => "GET"
  | .post => "POST"
  | .options => "OPTIONS"
  | .other name => name

/-- A parsed request. -/
structure Request where
  /-- The method. -/
  method : Verb
  /-- The target, with its query. -/
  target : String
  /-- `version()`: 11 for HTTP/1.1. -/
  version : ℕ
  /-- `keep_alive()`. -/
  keepAlive : Bool
  /-- `Connection` has the token `upgrade`, and `Upgrade` the token `websocket`. -/
  upgradeTokens : Bool
  /-- The body. -/
  body : String
  deriving DecidableEq

/-- `websocket::is_upgrade`. -/
def Request.isUpgrade (req : Request) : Bool :=
  11 ≤ req.version && req.method = .get && req.upgradeTokens

/-- The status of a response. -/
inductive Status where
  | ok | badRequest | notFound | methodNotAllowed | conflict | internalServerError | badGateway
  deriving DecidableEq

/-- The body of a response. -/
inductive Body where
  | json (fields : List (String × String))
  | text (text : String)
  deriving DecidableEq

/-- A response; the fields that all of them have are left out. -/
structure Response where
  /-- The status. -/
  status : Status
  /-- The version of the protocol. -/
  version : ℕ
  /-- Whether the connection is kept. -/
  keepAlive : Bool
  /-- The type of the body. -/
  contentType : String
  /-- The body. -/
  body : Body
  deriving DecidableEq

/-- A response as its constructor leaves it. -/
def Response.create : Response := ⟨.ok, 11, true, "", .text ""⟩

/-- `build_success_response`. -/
def buildSuccessResponse (sessionId : String) (version : ℕ) (keepAlive : Bool) : Response where
  status := .ok
  version := version
  keepAlive := keepAlive
  contentType := "application/json"
  body := .json
    [("status", "success"), ("message", "Session has started"), ("sessionID", sessionId)]

/-- `build_error_response`. -/
def buildErrorResponse (errorMessage : String) (version : ℕ) (keepAlive : Bool) (status : Status) :
    Response where
  status := status
  version := version
  keepAlive := keepAlive
  contentType := "application/json"
  body := .json [("status", "error"), ("message", errorMessage)]

/-- `build_plaintext_response`. -/
def buildPlaintextResponse (bodyText : String) (version : ℕ) (keepAlive : Bool) : Response where
  status := .ok
  version := version
  keepAlive := keepAlive
  contentType := "text/plain; version=0.0.4"
  body := .text bodyText

/-- `build_options_response`. -/
def buildOptionsResponse (version : ℕ) (keepAlive : Bool) : Response where
  status := .ok
  version := version
  keepAlive := keepAlive
  contentType := "text/plain"
  body := .text "OK"

/-- `map_app_error`. -/
def mapAppError : AppError → Status
  | .parseError => .badRequest
  | .logicError => .conflict
  | .configError => .internalServerError
  | .networkError => .badGateway
  | .fileSystemError => .internalServerError
  | .success | .critical => .internalServerError

/-- `RouteError`. -/
structure RouteError where
  /-- The status to answer with. -/
  code : Status
  /-- The text to answer with. -/
  message : String

/-- The path of a target and its query parameters. -/
structure Url where
  /-- The path. -/
  path : String
  /-- The parameters. -/
  params : List (String × String)

/-- What the router takes from Boost. -/
structure Library extends Infra.Library where
  /-- `url_view`: the parts of a target, or the text of the exception. -/
  parseUrl : String → Except String Url
  /-- `json::parse`; nothing on an error. -/
  parseJson : String → Option Infra.Json
  /-- The text of a UUID. -/
  uuid : SessionId → String

/-- Where an operation of `ActiveSessions` is left by an exception. -/
inductive Fault where
  /-- Before the session is looked up. -/
  | beforeLookup
  /-- Before the socket is released, if it is. -/
  | beforeRelease
  /-- After that. -/
  | afterRelease
  deriving DecidableEq

/-- The numbers of `handle_metrics`. -/
structure Metrics where
  /-- The requests so far. -/
  httpRequestsTotal : ℕ
  /-- The sessions created so far. -/
  totalSessionsCreated : ℕ
  /-- The sessions there are. -/
  size : ℕ
  /-- The websocket sessions there are. -/
  activeWebsockets : ℕ
  /-- The ports that are free. -/
  availableWebrtcPorts : ℕ
  /-- Id, bytes and packets of each session. -/
  rtpStats : List (String × ℕ × ℕ)

/-- What a request finds when it is routed, and what the calls it makes do. -/
structure Environment where
  /-- The registry, as the other threads have left it. -/
  registry : ActiveSessions.State
  /-- The UUID that `create_session` draws. -/
  id : SessionId
  /-- `allocate_webrtc_port` throws. -/
  allocateThrows : Bool
  /-- `Session::create`. -/
  create : ActiveSessions.CallResult
  /-- An exception in another operation of the registry. -/
  fault : Option Fault
  /-- The text of an exception of the registry. -/
  what : String
  /-- The WebSocket that is made. -/
  websocket : ℕ
  /-- The numbers of the metrics. -/
  metrics : Metrics

/-- How a handler fails. -/
inductive Failed where
  | error (error : RouteError)
  | threw (what : String)

/-- What a handler leaves and returns. -/
structure Handled where
  /-- The sessions after it. -/
  registry : ActiveSessions.State
  /-- `release_socket` has given the socket to a `WebSocketSession`. -/
  released : Bool
  /-- The response. -/
  res : Response
  /-- Whether it failed. -/
  result : Except Failed Unit

/-- Nothing but the result. -/
def Handled.fails (env : Environment) (res : Response) (failed : Failed) : Handled :=
  ⟨env.registry, false, res, .error failed⟩

/-- `extract_session_id`. -/
def extractSessionId (url : Url) : Except Failed String :=
  match url.params.lookup "id" with
  | none => .error (.error ⟨.badRequest, "Missing query parameter: id"⟩)
  | some id => .ok id

section Handlers

variable (lib : Library) (env : Environment) (req : Request) (res : Response) (url : Url)

/-- `sessions_.find`. -/
def findSession (id : String) : Option SessionId :=
  env.registry.sessions.find? fun session => lib.uuid session = id

/-- What the calls of `create_session` do, and the text of an exception. -/
def createAnswers (o : Infra.JsonObject) : ActiveSessions.Answers × String :=
  match Infra.parseGraph lib.toLibrary o with
  | .ok _ => (⟨.ok, env.allocateThrows, env.create⟩, env.what)
  | .error (.error error) => (⟨.error error, env.allocateThrows, env.create⟩, env.what)
  | .error (.threw what) => (⟨.threw, env.allocateThrows, env.create⟩, what)

/-- `process_session_request`. -/
def processSessionRequest (sessionType : SessionType) : Handled :=
  match lib.parseJson req.body with
  | none => .fails env res (.error ⟨.badRequest, "Invalid JSON format"⟩)
  | some (.object o) =>
    let (answers, what) := createAnswers lib env o
    let (registry, outcome) :=
      ActiveSessions.createSession env.registry env.id sessionType answers
    match outcome with
    | .created =>
      ⟨registry, false, buildSuccessResponse (lib.uuid env.id) req.version false, .ok ()⟩
    | .failed error =>
      ⟨registry, false, res, .error (.error ⟨mapAppError error.code, error.message⟩)⟩
    | .threw => ⟨registry, false, res, .error (.threw what)⟩
  | some _ => .fails env res (.error ⟨.badRequest, "JSON root must be an object"⟩)

/-- `handle_transmit`. -/
def handleTransmit : Handled := processSessionRequest lib env req res .standard

/-- `handle_secure_transmit`. -/
def handleSecureTransmit : Handled := processSessionRequest lib env req res .standartEncrypted

/-- `handle_webrtc_request`. -/
def handleWebrtcRequest : Handled := processSessionRequest lib env req res .webRtc

/-- `handle_stop`, `handle_pause` and `handle_resume`, by what they do to a
registered session. -/
def handleSessionIdOp
    (op : ActiveSessions.State → SessionId → ActiveSessions.State × SessionOpStatus) : Handled :=
  match extractSessionId url with
  | .error failed => .fails env res failed
  | .ok id =>
    if env.fault.isSome = true then .fails env res (.threw env.what)
    else
      match findSession lib env id with
      | none => .fails env res (.error ⟨.notFound, "Session ID not found"⟩)
      | some session =>
        let (registry, status) := op env.registry session
        match status with
        | .success | .webSocketNotFound =>
          ⟨registry, false, buildSuccessResponse id req.version false, .ok ()⟩
        | .sessionNotFound => .fails env res (.error ⟨.notFound, "Session ID not found"⟩)

/-- `handle_stop`. -/
def handleStop : Handled := handleSessionIdOp lib env req res url ActiveSessions.removeSession

/-- `handle_pause`; the session's own fields are those of its coroutine. -/
def handlePause : Handled :=
  handleSessionIdOp lib env req res url fun registry _ => (registry, .success)

/-- `handle_resume`. -/
def handleResume : Handled :=
  handleSessionIdOp lib env req res url fun registry _ => (registry, .success)

/-- `create_and_run_websocket_session` after the socket has been released. -/
def runWebsocketSession (session : SessionId) : ActiveSessions.State :=
  let st := ActiveSessions.attachObserver env.registry session env.websocket
  let st := ActiveSessions.insertWebsocket st session env.websocket
  ActiveSessions.spawnSessionCoroutine st session env.websocket

/-- `create_and_run_websocket_session`, with the translation of its error. -/
def createAndRunWebsocketSession (id : String) : Handled :=
  let fails := fun error : ErrorInfo =>
    Handled.fails env res (.error ⟨mapAppError error.code, error.message⟩)
  if env.fault = some .beforeLookup then .fails env res (.threw env.what)
  else
    match findSession lib env id with
    | none => fails ActiveSessions.sessionNotFound
    | some session =>
      if (env.registry.object session).isRunning = true then fails ActiveSessions.alreadyConnected
      else
        match env.fault with
        | none => ⟨runWebsocketSession env session, true, res, .ok ()⟩
        | some .afterRelease => ⟨env.registry, true, res, .error (.threw env.what)⟩
        | some _ => .fails env res (.threw env.what)

/-- `handle_websocket_request`. -/
def handleWebsocketRequest : Handled :=
  if req.isUpgrade = false then
    .fails env res (.error ⟨.badRequest, "Request is not a WebSocket upgrade"⟩)
  else
    match extractSessionId url with
    | .error failed => .fails env res failed
    | .ok id => createAndRunWebsocketSession lib env res id

/-- A metric without labels. -/
def metricText (name help type : String) (value : ℕ) : String :=
  "# HELP " ++ name ++ " " ++ help ++ "\n# TYPE " ++ name ++ " " ++ type ++ "\n" ++
    name ++ " " ++ toString value ++ "\n"

/-- A metric of every session. -/
def rtpMetricText (name help : String) (values : List (String × ℕ)) : String :=
  "# HELP " ++ name ++ " " ++ help ++ "\n# TYPE " ++ name ++ " counter\n" ++
    String.join (values.map fun v =>
      name ++ "\x7bsession_id=\"" ++ v.1 ++ "\"\x7d " ++ toString v.2 ++ "\n")

/-- The text of `handle_metrics`. -/
def metricsText (m : Metrics) : String :=
  metricText "hermes_http_requests_total" "Total number of HTTP requests processed." "counter"
      m.httpRequestsTotal ++
    metricText "hermes_total_sessions_created_total" "Total number of sessions instantiated."
      "counter" m.totalSessionsCreated ++
    metricText "hermes_active_sessions_total" "Number of currently active audio sessions." "gauge"
      m.size ++
    metricText "hermes_active_websockets_total" "Number of currently connected WebSockets." "gauge"
      m.activeWebsockets ++
    metricText "hermes_available_webrtc_ports" "Number of WebRTC UDP ports currently available."
      "gauge" m.availableWebrtcPorts ++
    if m.rtpStats = [] then ""
    else
      rtpMetricText "hermes_rtp_bytes_sent_total" "Total RTP bytes sent by a session."
          (m.rtpStats.map fun s => (s.1, s.2.1)) ++
        rtpMetricText "hermes_rtp_packets_sent_total" "Total RTP packets sent by a session."
          (m.rtpStats.map fun s => (s.1, s.2.2))

/-- `handle_metrics`. -/
def handleMetrics : Handled :=
  if env.fault.isSome = true then .fails env res (.threw env.what)
  else
    ⟨env.registry, false,
      buildPlaintextResponse (metricsText env.metrics) req.version req.keepAlive, .ok ()⟩

end Handlers

/-- The handlers. -/
inductive Endpoint where
  | transmit | secureTransmit | webrtc | websocket | stop | pause | resume | metrics
  deriving DecidableEq

/-- The call of a handler. -/
def handle (lib : Library) (env : Environment) (req : Request) (res : Response) (url : Url) :
    Endpoint → Handled
  | .transmit => handleTransmit lib env req res
  | .secureTransmit => handleSecureTransmit lib env req res
  | .webrtc => handleWebrtcRequest lib env req res
  | .websocket => handleWebsocketRequest lib env req res url
  | .stop => handleStop lib env req res url
  | .pause => handlePause lib env req res url
  | .resume => handleResume lib env req res url
  | .metrics => handleMetrics env req res

/-- A call of `match_route`. -/
structure Route where
  /-- The path it matches. -/
  path : String
  /-- The method it takes. -/
  method : Verb
  /-- The handler. -/
  endpoint : Endpoint
  deriving DecidableEq

/-- The routes of `try_routes`, in order. -/
def routes : List Route :=
  [⟨"/transmit/", .post, .transmit⟩, ⟨"/secure_transmit/", .post, .secureTransmit⟩,
    ⟨"/preview/", .post, .webrtc⟩, ⟨"/connect/", .get, .websocket⟩, ⟨"/stop/", .post, .stop⟩,
    ⟨"/pause/", .post, .pause⟩, ⟨"/resume/", .post, .resume⟩, ⟨"/metrics", .get, .metrics⟩]

/-- `starts_with`. -/
def startsWith (path start : String) : Bool := start.toList.isPrefixOf path.toList

/-- The first route that matches a path. -/
def findRoute (path : String) : Option Route := routes.find? fun route => startsWith path route.path

/-- `try_routes`. -/
def tryRoutes (lib : Library) (env : Environment) (req : Request) (res : Response) (url : Url) :
    Handled :=
  match findRoute url.path with
  | none => .fails env res (.error ⟨.notFound, "Route not found"⟩)
  | some route =>
    if req.method ≠ route.method then
      .fails env res (.error ⟨.methodNotAllowed, "Method must be " ++ route.method.text⟩)
    else handle lib env req res url route.endpoint

/-- What `route_query` leaves. -/
structure Routed where
  /-- The sessions after it. -/
  registry : ActiveSessions.State
  /-- Whether the connection has been handed over. -/
  released : Bool
  /-- The response. -/
  res : Response

/-- The response to an exception. -/
def internalError (req : Request) (what : String) : Response :=
  buildErrorResponse ("Internal Error: " ++ what) req.version req.keepAlive .internalServerError

/-- `route_query`. -/
def routeQuery (lib : Library) (env : Environment) (req : Request) (res : Response) : Routed :=
  match lib.parseUrl req.target with
  | .error what => ⟨env.registry, false, internalError req what⟩
  | .ok url =>
    let handled := tryRoutes lib env req res url
    match handled.result with
    | .ok () => ⟨handled.registry, handled.released, handled.res⟩
    | .error (.error error) =>
      ⟨handled.registry, handled.released,
        buildErrorResponse error.message req.version req.keepAlive error.code⟩
    | .error (.threw what) => ⟨handled.registry, handled.released, internalError req what⟩

section Spec

variable (lib : Library) (env : Environment) (req : Request)

/-- A request body that is a JSON object, of which `create_session` makes a session. -/
def CreatesSession (sessionType : SessionType) : Prop :=
  ∃ o, lib.parseJson req.body = some (.object o) ∧
    ActiveSessions.NoFailure env.registry sessionType (createAnswers lib env o).1

/-- The id of a registered session. -/
def NamesSession (url : Url) : Prop :=
  env.fault = none ∧ ∃ id, url.params.lookup "id" = some id ∧ (findSession lib env id).isSome = true

/-- The handler of a request about a session succeeds. -/
def Serves (url : Url) : Endpoint → Prop
  | .transmit => CreatesSession lib env req .standard
  | .secureTransmit => CreatesSession lib env req .standartEncrypted
  | .webrtc => CreatesSession lib env req .webRtc
  | .stop | .pause | .resume => NamesSession lib env url
  | .websocket | .metrics => False

/-- The request is routed to a handler about a session, and that succeeds. -/
def Succeeds : Prop :=
  ∃ url route, lib.parseUrl req.target = .ok url ∧ findRoute url.path = some route ∧
    req.method = route.method ∧ Serves lib env req url route.endpoint

/-- No exception comes before the socket is released. -/
def ReleasesSocket : Prop := env.fault = none ∨ env.fault = some .afterRelease

/-- The request goes to `/connect/` with the id of a registered session that does
not run, and no exception comes before the socket is released. -/
def HandsOver : Prop :=
  ∃ url route id session, lib.parseUrl req.target = .ok url ∧ findRoute url.path = some route ∧
    route.endpoint = .websocket ∧ req.method = route.method ∧ req.isUpgrade = true ∧
    url.params.lookup "id" = some id ∧ findSession lib env id = some session ∧
    (env.registry.object session).isRunning = false ∧ ReleasesSocket env

variable {lib env req} {res : Response} {url : Url}

/-- A handler that answers a request about a session says that the connection
closes. -/
structure Closes (h : Handled) (served : Prop) : Prop where
  /-- The connection is not handed over. -/
  released : h.released = false
  /-- The handler succeeds exactly when it serves. -/
  result : h.result = .ok () ↔ served
  /-- Then the connection is closed. -/
  keepAlive : h.result = .ok () → h.res.keepAlive = false

/-- A request for a session closes the connection when it creates one. -/
theorem processSessionRequest_closes (sessionType : SessionType) :
    Closes (processSessionRequest lib env req res sessionType)
      (CreatesSession lib env req sessionType) := by
  unfold processSessionRequest CreatesSession
  cases lib.parseJson req.body with
  | none => exact ⟨rfl, iff_of_false nofun (by simp), nofun⟩
  | some json =>
    cases json with
    | object o =>
      have hcreated := @ActiveSessions.created_iff env.registry env.id sessionType
        (createAnswers lib env o).1
      dsimp only
      generalize ActiveSessions.createSession env.registry env.id sessionType
        (createAnswers lib env o).1 = r at hcreated ⊢
      obtain ⟨registry, outcome⟩ := r
      have hserved : outcome = .created ↔ ∃ o', some (Infra.Json.object o) = some (.object o') ∧
          ActiveSessions.NoFailure env.registry sessionType (createAnswers lib env o').1 := by
        refine hcreated.trans ⟨fun h => ⟨o, rfl, h⟩, ?_⟩
        rintro ⟨o', ho, h⟩
        cases ho
        exact h
      cases outcome with
      | created => exact ⟨rfl, iff_of_true rfl (hserved.mp rfl), fun _ => rfl⟩
      | failed error => exact ⟨rfl, iff_of_false nofun (fun h => nomatch hserved.mpr h), nofun⟩
      | threw => exact ⟨rfl, iff_of_false nofun (fun h => nomatch hserved.mpr h), nofun⟩
    | _ => exact ⟨rfl, iff_of_false nofun (by simp), nofun⟩

/-- The operation finds the session that the handler has found. -/
theorem handleSessionIdOp_closes
    {op : ActiveSessions.State → SessionId → ActiveSessions.State × SessionOpStatus}
    (hop : ∀ session ∈ env.registry.sessions, (op env.registry session).2 ≠ .sessionNotFound) :
    Closes (handleSessionIdOp lib env req res url op) (NamesSession lib env url) := by
  unfold handleSessionIdOp extractSessionId NamesSession
  cases url.params.lookup "id" with
  | none => exact ⟨rfl, iff_of_false nofun (by simp), nofun⟩
  | some id =>
    dsimp only
    cases hfault : env.fault with
    | some fault => exact ⟨rfl, iff_of_false nofun (by simp), nofun⟩
    | none =>
      rw [if_neg (by simp)]
      cases hfound : findSession lib env id with
      | none =>
        refine ⟨rfl, iff_of_false nofun ?_, nofun⟩
        rintro ⟨-, id', hid, hsome⟩
        cases hid
        rw [hfound] at hsome
        cases hsome
      | some session =>
        have hmem := List.mem_of_find?_eq_some hfound
        have hstatus := hop session hmem
        have hnames : (none : Option Fault) = none ∧ ∃ id', some id = some id' ∧
            (findSession lib env id').isSome = true := ⟨rfl, id, rfl, by rw [hfound]; rfl⟩
        dsimp only
        generalize op env.registry session = r at hstatus ⊢
        obtain ⟨registry, status⟩ := r
        cases status with
        | success => exact ⟨rfl, iff_of_true rfl hnames, fun _ => rfl⟩
        | webSocketNotFound => exact ⟨rfl, iff_of_true rfl hnames, fun _ => rfl⟩
        | sessionNotFound => exact absurd rfl hstatus

/-- A stop closes the connection when it names a session. -/
theorem handleStop_closes :
    Closes (handleStop lib env req res url) (NamesSession lib env url) := by
  refine handleSessionIdOp_closes fun session hsession => ?_
  unfold ActiveSessions.removeSession
  rw [if_pos hsession]
  cases env.registry.websocketSessions session <;> exact nofun

/-- A pause closes the connection when it names a session. -/
theorem handlePause_closes :
    Closes (handlePause lib env req res url) (NamesSession lib env url) :=
  handleSessionIdOp_closes fun _ _ h => nomatch h

/-- What the handlers do to a request that is no upgrade. -/
theorem handle_plain (hplain : req.isUpgrade = false) (endpoint : Endpoint) :
    (handle lib env req res url endpoint).released = false ∧
      ((handle lib env req res url endpoint).result = .ok () →
        ((handle lib env req res url endpoint).res.keepAlive = false ∧
            Serves lib env req url endpoint ∨
          (handle lib env req res url endpoint).res.keepAlive = req.keepAlive ∧
            ¬Serves lib env req url endpoint)) ∧
      (Serves lib env req url endpoint → (handle lib env req res url endpoint).result = .ok ()) := by
  have hcloses : ∀ {h : Handled} {served : Prop}, Closes h served → h.released = false ∧
      (h.result = .ok () → (h.res.keepAlive = false ∧ served ∨
        h.res.keepAlive = req.keepAlive ∧ ¬served)) ∧ (served → h.result = .ok ()) :=
    fun h => ⟨h.released, fun hok => .inl ⟨h.keepAlive hok, h.result.mp hok⟩, h.result.mpr⟩
  cases endpoint with
  | transmit => exact hcloses (processSessionRequest_closes _)
  | secureTransmit => exact hcloses (processSessionRequest_closes _)
  | webrtc => exact hcloses (processSessionRequest_closes _)
  | stop => exact hcloses handleStop_closes
  | pause => exact hcloses handlePause_closes
  | resume => exact hcloses handlePause_closes
  | websocket =>
    simp only [handle, handleWebsocketRequest, hplain, if_true]
    exact ⟨rfl, nofun, nofun⟩
  | metrics =>
    simp only [handle, handleMetrics]
    split
    · exact ⟨rfl, nofun, nofun⟩
    · exact ⟨rfl, fun _ => .inr ⟨rfl, nofun⟩, nofun⟩

/-- The routing of a target that parses. -/
theorem succeeds_iff (hurl : lib.parseUrl req.target = .ok url) :
    Succeeds lib env req ↔ ∃ route, findRoute url.path = some route ∧
      req.method = route.method ∧ Serves lib env req url route.endpoint := by
  constructor
  · rintro ⟨url', route, hurl', h⟩
    obtain rfl := Except.ok.inj (hurl.symm.trans hurl')
    exact ⟨route, h⟩
  · rintro ⟨route, h⟩
    exact ⟨url, route, hurl, h⟩

/-- The routes take no `OPTIONS` request. -/
theorem Succeeds.method_ne (h : Succeeds lib env req) : req.method ≠ .options := by
  obtain ⟨url, route, -, hroute, hmethod, -⟩ := h
  have hnone : ∀ route ∈ routes, route.method ≠ .options := by decide
  rw [hmethod]
  exact hnone route (List.mem_of_find?_eq_some hroute)

/-- A target is routed to the handler of its route, or it has none for its method. -/
theorem tryRoutes_cases :
    (∃ route, findRoute url.path = some route ∧ req.method = route.method ∧
      tryRoutes lib env req res url = handle lib env req res url route.endpoint) ∨
    (∀ route, findRoute url.path = some route → req.method ≠ route.method) ∧
      ∃ error, tryRoutes lib env req res url = .fails env res (.error error) := by
  unfold tryRoutes
  cases findRoute url.path with
  | none => exact .inr ⟨nofun, _, rfl⟩
  | some route =>
    by_cases hmethod : req.method = route.method
    · exact .inl ⟨route, rfl, hmethod, if_neg (not_not_intro hmethod)⟩
    · refine .inr ⟨?_, _, if_pos hmethod⟩
      intro other hother
      obtain rfl := Option.some.inj hother
      exact hmethod

/-- A request that is no upgrade keeps its socket, and is answered as it asks
unless it is a request about a session that succeeds. -/
theorem routeQuery_plain (hplain : req.isUpgrade = false) :
    (routeQuery lib env req res).released = false ∧
      ((routeQuery lib env req res).res.keepAlive = req.keepAlive ↔
        (req.keepAlive = true → ¬Succeeds lib env req)) := by
  unfold routeQuery
  cases hurl : lib.parseUrl req.target with
  | error what =>
    refine ⟨rfl, iff_of_true rfl ?_⟩
    rintro - ⟨url, route, hparsed, -⟩
    cases hurl.symm.trans hparsed
  | ok url =>
    have hsucceeds := @succeeds_iff lib env req url hurl
    dsimp only
    rcases @tryRoutes_cases lib env req res url with
      ⟨route, hroute, hmethod, htried⟩ | ⟨hnone, error, htried⟩
    · have hserves : Succeeds lib env req ↔ Serves lib env req url route.endpoint := by
        refine hsucceeds.trans ⟨?_, fun h => ⟨route, hroute, hmethod, h⟩⟩
        rintro ⟨route', hfound, -, h⟩
        obtain rfl := Option.some.inj (hroute.symm.trans hfound)
        exact h
      obtain ⟨hreleased, hok, hserved⟩ :=
        @handle_plain lib env req res url hplain route.endpoint
      rw [htried, hserves]
      generalize handle lib env req res url route.endpoint = h at hreleased hok hserved
      cases hresult : h.result with
      | ok =>
        refine ⟨hreleased, ?_⟩
        rcases hok hresult with ⟨hcloses, hserves⟩ | ⟨hkeeps, hnot⟩
        · dsimp only
          rw [hcloses]
          constructor
          · intro hsame hkeep
            rw [hkeep] at hsame
            cases hsame
          · intro hnot
            by_contra hkeep
            exact hnot (by simpa using Ne.symm hkeep) hserves
        · exact iff_of_true hkeeps fun _ => hnot
      | error failed =>
        have hnot : ¬Serves lib env req url route.endpoint := by
          intro h
          rw [hserved h] at hresult
          cases hresult
        cases failed <;> exact ⟨hreleased, iff_of_true rfl fun _ => hnot⟩
    · rw [htried]
      refine ⟨rfl, iff_of_true rfl fun _ h => ?_⟩
      obtain ⟨route, hfound, hmethod, -⟩ := hsucceeds.mp h
      exact hnone route hfound hmethod

/-- The socket is released for a registered session that does not run. -/
theorem createAndRunWebsocketSession_released {id : String} :
    (createAndRunWebsocketSession lib env res id).released = true ↔
      ∃ session, findSession lib env id = some session ∧
        (env.registry.object session).isRunning = false ∧ ReleasesSocket env := by
  unfold createAndRunWebsocketSession ReleasesSocket
  by_cases hlookup : env.fault = some .beforeLookup
  · rw [if_pos hlookup, hlookup]
    exact iff_of_false Bool.false_ne_true (by simp)
  · rw [if_neg hlookup]
    cases findSession lib env id with
    | none => exact iff_of_false Bool.false_ne_true (by simp)
    | some session =>
      simp only [Option.some.injEq, exists_eq_left']
      cases (env.registry.object session).isRunning with
      | true => exact iff_of_false Bool.false_ne_true (by simp)
      | false =>
        cases env.fault with
        | none => exact iff_of_true rfl ⟨rfl, .inl rfl⟩
        | some fault =>
          cases fault with
          | beforeLookup | beforeRelease => exact iff_of_false Bool.false_ne_true (by simp)
          | afterRelease => exact iff_of_true rfl ⟨rfl, .inr rfl⟩

/-- Only the handler of `/connect/` releases the socket of an upgrade request. -/
theorem handle_released (hupgrade : req.isUpgrade = true) (endpoint : Endpoint) :
    (handle lib env req res url endpoint).released = true ↔
      endpoint = .websocket ∧ ∃ id session, url.params.lookup "id" = some id ∧
        findSession lib env id = some session ∧
        (env.registry.object session).isRunning = false ∧ ReleasesSocket env := by
  have hkeeps : ∀ {h : Handled} {served : Prop} {p : Prop} {other : Endpoint},
      other ≠ .websocket → Closes h served → (h.released = true ↔ other = .websocket ∧ p) := by
    intro h served p other hother hcloses
    rw [hcloses.released]
    exact iff_of_false Bool.false_ne_true fun h => hother h.1
  cases endpoint with
  | transmit => exact hkeeps (by decide) (processSessionRequest_closes _)
  | secureTransmit => exact hkeeps (by decide) (processSessionRequest_closes _)
  | webrtc => exact hkeeps (by decide) (processSessionRequest_closes _)
  | stop => exact hkeeps (by decide) handleStop_closes
  | pause => exact hkeeps (by decide) handlePause_closes
  | resume => exact hkeeps (by decide) handlePause_closes
  | websocket =>
    simp only [handle, handleWebsocketRequest, hupgrade, Bool.true_eq_false, if_false, true_and,
      extractSessionId]
    cases url.params.lookup "id" with
    | none => exact iff_of_false Bool.false_ne_true (by simp)
    | some id =>
      simp only [Option.some.injEq, exists_and_left, exists_eq_left']
      exact createAndRunWebsocketSession_released
  | metrics =>
    refine iff_of_false ?_ fun h => nomatch h.1
    simp only [handle, handleMetrics]
    split <;> exact Bool.false_ne_true

/-- The router keeps what the handler has done with the socket. -/
theorem routeQuery_released (hurl : lib.parseUrl req.target = .ok url) :
    (routeQuery lib env req res).released = (tryRoutes lib env req res url).released := by
  unfold routeQuery
  rw [hurl]
  dsimp only
  cases (tryRoutes lib env req res url).result with
  | ok => rfl
  | error failed => cases failed <;> rfl

/-- The socket is released by no other request than one that hands it over. -/
theorem released_iff (hupgrade : req.isUpgrade = true) :
    (routeQuery lib env req res).released = true ↔ HandsOver lib env req := by
  cases hurl : lib.parseUrl req.target with
  | error what =>
    refine iff_of_false ?_ ?_
    · unfold routeQuery
      rw [hurl]
      exact Bool.false_ne_true
    · rintro ⟨url, route, id, session, hparsed, -⟩
      cases hurl.symm.trans hparsed
  | ok url =>
    rw [routeQuery_released hurl]
    rcases @tryRoutes_cases lib env req res url with
      ⟨route, hroute, hmethod, htried⟩ | ⟨hnone, error, htried⟩
    · rw [htried, handle_released hupgrade]
      constructor
      · rintro ⟨hendpoint, id, session, hnames⟩
        exact ⟨url, route, id, session, hurl, hroute, hendpoint, hmethod, hupgrade, hnames⟩
      · rintro ⟨url', route', id, session, hparsed, hfound, hendpoint, -, -, hnames⟩
        obtain rfl := Except.ok.inj (hurl.symm.trans hparsed)
        obtain rfl := Option.some.inj (hroute.symm.trans hfound)
        exact ⟨hendpoint, id, session, hnames⟩
    · rw [htried]
      refine iff_of_false Bool.false_ne_true ?_
      rintro ⟨url', route, id, session, hparsed, hfound, -, hmethod, -⟩
      obtain rfl := Except.ok.inj (hurl.symm.trans hparsed)
      exact hnone route hfound hmethod

end Spec

end HermesFlow.Http
