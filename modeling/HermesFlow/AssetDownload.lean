import HermesFlow.AssetComplete
import HermesFlow.HttpStreamer

/-!
# Downloads over HTTP

A download runs `HttpStreamer::execute` on a connection of its own and hands the body of the
response to its sink piece by piece. Here the calls of `ensure_file_exists` interleave at the
events of their connections too, so that what a successful download has written is no longer
assumed but follows from what its peer has sent.
-/

namespace HermesFlow.AssetDownload

open AssetCache EventRun Net.Http

/-- The head of a response, and the bytes that came with it. -/
structure ResponseHead where
  /-- The status code. -/
  status : ℕ
  /-- The text of its `Content-Length`. -/
  contentLength : Option String
  /-- The body's bytes that the read of the head has left in the buffer. -/
  buffer : List UInt8

/-- How the read of an error's body ends. -/
inductive ErrorBody where
  | body (text : String)
  /-- `eof` or `end_of_stream`. -/
  | ended
  | error (message : String)

/-- The text of `handle_error_response`. -/
def ErrorBody.text : ErrorBody → String
  | .body text => text
  | .ended => "No Body"
  | .error message => "Failed to parse error body: " ++ message

/-- Where a call of `execute` waits. -/
inductive Phase where
  | resolving
  | connecting
  /-- `async_write` of the request. -/
  | requesting
  /-- `async_read_header`. -/
  | readingHeader
  /-- The read of `handle_error_response`. -/
  | readingError (status : ℕ)
  /-- The write of `drain_residual_buffer`. -/
  | draining (expectedSize : ℕ) (buffer : List UInt8)
  /-- The read of `transfer_stream_data`: the bytes that were drained, and those of its loop. -/
  | reading (expectedSize drained written : ℕ)
  /-- The write behind it. -/
  | writing (expectedSize drained written : ℕ) (bytes : List UInt8)

/-- What a call of `execute` waits for; a time limit is a fault. -/
inductive Completion where
  | resolved (fault : Option String)
  | connected (fault : Option String)
  | requested (fault : Option String)
  | header (result : Except String ResponseHead)
  | errorBody (result : ErrorBody)
  | read (result : ReadResult)
  | wrote (result : WriteResult)

/-- How a call of `execute` goes on. -/
inductive Next where
  | waits (phase : Phase)
  /-- It returns, with the size that it has expected. -/
  | returns (expectedSize : ℕ) (result : Except ErrorInfo Unit)

/-- One turn of `execute`: body bytes from the peer, bytes into the sink, and how it goes on. -/
structure Turn where
  /-- The bytes that came from the peer. -/
  came : List UInt8
  /-- The bytes that went into the sink. -/
  sink : List UInt8
  /-- How the call goes on. -/
  next : Next

/-- A turn that moves no bytes. -/
def Turn.only (next : Next) : Turn := ⟨[], [], next⟩

/-- A turn that returns an error. -/
def fails (message : String) : Next := .returns 0 (.error (networkError message))

/-- The head of the loop of `transfer_stream_data`; behind it the check of `stream_to_sink`. -/
def loopHead (expectedSize drained written : ℕ) : Next :=
  let remaining := if expectedSize > 0 then expectedSize - drained else 0
  if remaining = 0 ∨ written < remaining then .waits (.reading expectedSize drained written)
  else .returns expectedSize (checkTotal expectedSize (drained + written))

/-- `stream_to_sink` behind its drain. -/
def afterDrain (expectedSize drained : ℕ) : Next :=
  if expectedSize = 0 ∨ drained < expectedSize then loopHead expectedSize drained 0
  else .returns expectedSize (checkTotal expectedSize drained)

/-- `execute` behind the head of the response; what `stoull` throws ends the call. -/
def afterHead (head : ResponseHead) : Turn :=
  if head.status ≠ 200 then .only (.waits (.readingError head.status))
  else
    match getContentLength head.contentLength with
    | none => .only (.returns 0 (.error ⟨.critical, "stoull"⟩))
    | some expectedSize =>
      if head.buffer.length > 0 then
        ⟨head.buffer, [], .waits (.draining expectedSize head.buffer)⟩
      else .only (afterDrain expectedSize 0)

/-- `execute`, by what it waits for. -/
def execute : Phase → Completion → Option Turn
  | .resolving, .resolved none => some (.only (.waits .connecting))
  | .resolving, .resolved (some fault) => some (.only (fails ("Resolve failed: " ++ fault)))
  | .connecting, .connected none => some (.only (.waits .requesting))
  | .connecting, .connected (some fault) => some (.only (fails ("Connect failed: " ++ fault)))
  | .requesting, .requested none => some (.only (.waits .readingHeader))
  | .requesting, .requested (some fault) => some (.only (fails ("Write request failed: " ++ fault)))
  | .readingHeader, .header (.ok head) => some (afterHead head)
  | .readingHeader, .header (.error fault) => some (.only (fails ("Read header failed: " ++ fault)))
  | .readingError status, .errorBody result =>
    some (.only (fails ("HTTP Error " ++ toString status ++ ": " ++ result.text)))
  | .draining expectedSize buffer, .wrote .ok =>
    some ⟨[], buffer, afterDrain expectedSize buffer.length⟩
  | .draining _ buffer, .wrote (.error fault accepted) =>
    some ⟨[], buffer.take accepted, fails ("Drain error: " ++ fault)⟩
  | .reading expectedSize drained written, .read .eof =>
    some (.only (.returns expectedSize (checkTotal expectedSize (drained + written))))
  | .reading _ _ _, .read (.error fault) => some (.only (fails ("Read error: " ++ fault)))
  | .reading expectedSize drained written, .read (.data bytes _) =>
    if bytes.length = 0 then
      some (.only (.returns expectedSize (checkTotal expectedSize (drained + written))))
    else some ⟨bytes, [], .waits (.writing expectedSize drained written bytes)⟩
  | .writing expectedSize drained written bytes, .wrote .ok =>
    some ⟨[], bytes, loopHead expectedSize drained (written + bytes.length)⟩
  | .writing _ _ _ bytes, .wrote (.error fault accepted) =>
    some ⟨[], bytes.take accepted, fails ("Write error: " ++ fault)⟩
  | _, _ => none

/-- What a call of `execute` has returned. -/
def Next.result : Next → Option (Except ErrorInfo Unit)
  | .waits _ => none
  | .returns _ result => some result

/-- The loop of a transfer along the turns of its peer and its sink. -/
def follow : Next → List UInt8 → List Net.Http.Turn → Next × List UInt8
  | .waits phase, sink, turn :: turns =>
    match execute phase (.read turn.read) with
    | none => (.waits phase, sink)
    | some read =>
      match read.next with
      | .returns expectedSize result => (.returns expectedSize result, sink)
      | .waits phase =>
        match execute phase (.wrote turn.write) with
        | none => (.waits phase, sink)
        | some wrote => follow wrote.next (sink ++ wrote.sink) turns
  | next, sink, _ => (next, sink)

/-- `execute` behind the head of a response, with the drain of what came with it. -/
def afterRequest (head : ResponseHead) (drain : WriteResult) (turns : List Net.Http.Turn) :
    Next × List UInt8 :=
  match (afterHead head).next with
  | .waits phase =>
    match execute phase (.wrote drain) with
    | none => follow (.waits phase) [] turns
    | some drained => follow drained.next drained.sink turns
  | next => (next, [])

section Transfer

variable {expectedSize : ℕ}

/-- A call that has returned takes no further turn. -/
@[simp] theorem follow_returns (result : Except ErrorInfo Unit) (sink : List UInt8)
    (turns : List Net.Http.Turn) :
    follow (.returns expectedSize result) sink turns = (.returns expectedSize result, sink) := by
  cases turns <;> rfl

/-- The loop by its events is `transfer_stream_data`, with the check behind it. -/
theorem follow_loopHead (drained : ℕ) (turns : List Net.Http.Turn) (written : ℕ) (w : Wire) :
    (follow (loopHead expectedSize drained written) w.sink turns).1.result =
        (transferStreamData (if expectedSize > 0 then expectedSize - drained else 0) turns written
          w).1.map (fun total => total.bind fun total => checkTotal expectedSize (drained + total)) ∧
      (follow (loopHead expectedSize drained written) w.sink turns).2 =
        (transferStreamData (if expectedSize > 0 then expectedSize - drained else 0) turns written
          w).2.sink := by
  generalize hremaining : (if expectedSize > 0 then expectedSize - drained else 0) = remaining
  have hhead : ∀ written, loopHead expectedSize drained written =
      if remaining = 0 ∨ written < remaining then .waits (.reading expectedSize drained written)
      else .returns expectedSize (checkTotal expectedSize (drained + written)) := fun written => by
    rw [← hremaining]
    rfl
  induction turns generalizing written w with
  | nil =>
    rw [transferStreamData, hhead]
    split <;> exact ⟨rfl, rfl⟩
  | cons turn turns ih =>
    rw [transferStreamData]
    by_cases hmore : remaining = 0 ∨ written < remaining
    · rw [if_pos hmore, hhead, if_pos hmore, follow]
      cases hread : turn.read with
      | eof => exact ⟨rfl, rfl⟩
      | error message => exact ⟨rfl, rfl⟩
      | data bytes fits =>
        simp only [execute]
        by_cases hnone : bytes.length = 0
        · rw [if_pos hnone, if_pos hnone]
          exact ⟨rfl, rfl⟩
        · rw [if_neg hnone, if_neg hnone]
          cases hwrite : turn.write with
          | error message accepted =>
            dsimp only
            rw [fails, follow_returns]
            exact ⟨rfl, rfl⟩
          | ok =>
            exact ih (written + bytes.length) ((w.startRead.receive bytes).write bytes .ok)
    · rw [if_neg hmore, hhead, if_neg hmore]
      exact ⟨rfl, rfl⟩

/-- So is what follows the drain the rest of `stream_to_sink`. -/
theorem follow_afterDrain {buffer : List UInt8} {drain : WriteResult} {drained : ℕ} {w : Wire}
    (hdrain : drainResidualBuffer buffer drain ⟨buffer, [], false, []⟩ = (.ok drained, w))
    (turns : List Net.Http.Turn) :
    (follow (afterDrain expectedSize drained) w.sink turns).1.result =
        (streamToSink buffer drain turns expectedSize).1 ∧
      (follow (afterDrain expectedSize drained) w.sink turns).2 =
        (streamToSink buffer drain turns expectedSize).2.sink := by
  unfold afterDrain
  rw [streamToSink, hdrain]
  dsimp only
  split
  · obtain ⟨hresult, hsink⟩ := @follow_loopHead expectedSize drained turns 0 w
    rw [hresult, hsink]
    generalize transferStreamData _ turns 0 w = run
    obtain ⟨_ | _ | _, w⟩ := run <;> exact ⟨rfl, rfl⟩
  · rw [follow_returns]
    exact ⟨rfl, rfl⟩

/-- Behind a head that announces a size `execute` is `stream_to_sink`. -/
theorem afterRequest_eq {head : ResponseHead} (hstatus : head.status = 200)
    (hlength : getContentLength head.contentLength = some expectedSize) (drain : WriteResult)
    (turns : List Net.Http.Turn) :
    (afterRequest head drain turns).1.result =
        (streamToSink head.buffer drain turns expectedSize).1 ∧
      (afterRequest head drain turns).2 =
        (streamToSink head.buffer drain turns expectedSize).2.sink := by
  unfold afterRequest afterHead
  rw [if_neg (not_not.mpr hstatus), hlength]
  dsimp only
  by_cases hbuffer : head.buffer.length > 0
  · rw [if_pos hbuffer]
    cases drain with
    | ok =>
      have hdrain : drainResidualBuffer head.buffer .ok ⟨head.buffer, [], false, []⟩ =
          (.ok head.buffer.length, (⟨head.buffer, [], false, []⟩ : Wire).write head.buffer .ok) := by
        rw [drainResidualBuffer, if_pos hbuffer]
      exact follow_afterDrain hdrain turns
    | error message accepted =>
      have hdrain : drainResidualBuffer head.buffer (.error message accepted)
          ⟨head.buffer, [], false, []⟩ = (.error (networkError ("Drain error: " ++ message)),
            (⟨head.buffer, [], false, []⟩ : Wire).write head.buffer (.error message accepted)) := by
        simp only [drainResidualBuffer, if_pos hbuffer]
      rw [streamToSink, hdrain]
      dsimp only [execute]
      rw [fails, follow_returns]
      exact ⟨rfl, rfl⟩
  · have hdrain : drainResidualBuffer head.buffer drain ⟨head.buffer, [], false, []⟩ =
        (.ok 0, ⟨head.buffer, [], false, []⟩) := by
      unfold drainResidualBuffer
      rw [if_neg hbuffer]
    have hreads : afterDrain expectedSize 0 = .waits (.reading expectedSize 0 0) := by
      rw [afterDrain, if_pos (by omega), loopHead]
      exact if_pos (by omega)
    have hrest := @follow_afterDrain expectedSize _ _ _ _ hdrain turns
    rw [hreads] at hrest
    rw [if_neg hbuffer, hreads]
    exact hrest

end Transfer

/-- What the sink and the peer have of a body where a call of `execute` waits. -/
def Phase.Keeps (sunk received : List UInt8) : Phase → Prop
  | .draining _ buffer => sunk = [] ∧ received = buffer
  | .reading _ drained written => received = sunk ∧ sunk.length = drained + written
  | .writing _ drained written bytes => received = sunk ++ bytes ∧ sunk.length = drained + written
  | _ => sunk = [] ∧ received = []

/-- A call that has returned success has sunk what it received, all that was announced. -/
def Next.Keeps (sunk received : List UInt8) : Next → Prop
  | .waits phase => phase.Keeps sunk received
  | .returns expectedSize (.ok _) =>
    sunk = received ∧ (expectedSize = 0 ∨ received.length = expectedSize)
  | .returns _ (.error _) => True

section Turns

variable {sunk received : List UInt8} {expectedSize drained written : ℕ}

/-- The last test of the total keeps the account. -/
theorem keeps_checkTotal (hsame : received = sunk) {total : ℕ} (htotal : sunk.length = total) :
    (Next.returns expectedSize (checkTotal expectedSize total)).Keeps sunk received := by
  unfold checkTotal
  split
  · trivial
  · rename_i hshort
    refine ⟨hsame.symm, ?_⟩
    rw [hsame, htotal]
    omega

/-- Another turn of the loop keeps the account. -/
theorem keeps_loopHead (hsame : received = sunk) (htotal : sunk.length = drained + written) :
    (loopHead expectedSize drained written).Keeps sunk received := by
  unfold loopHead
  dsimp only
  generalize (if expectedSize > 0 then expectedSize - drained else 0) = remaining
  split
  · exact ⟨hsame, htotal⟩
  · exact keeps_checkTotal hsame htotal

/-- The drained rest of the buffer keeps the account. -/
theorem keeps_afterDrain (hsame : received = sunk) (htotal : sunk.length = drained) :
    (afterDrain expectedSize drained).Keeps sunk received := by
  unfold afterDrain
  split
  · exact keeps_loopHead hsame htotal
  · exact keeps_checkTotal hsame htotal

/-- What came with the head is accounted for. -/
theorem keeps_afterHead (head : ResponseHead) :
    (afterHead head).next.Keeps (afterHead head).sink (afterHead head).came := by
  unfold afterHead
  split
  · exact ⟨rfl, rfl⟩
  · split
    · trivial
    · split
      · exact ⟨rfl, rfl⟩
      · exact keeps_afterDrain rfl rfl

/-- A turn keeps account of the body. -/
theorem Phase.Keeps.turn {phase : Phase} {completion : Completion} {turn : Turn}
    (h : phase.Keeps sunk received) (hturn : execute phase completion = some turn) :
    turn.next.Keeps (sunk ++ turn.sink) (received ++ turn.came) := by
  unfold execute at hturn
  split at hturn
  case h_7 head =>
    cases hturn
    obtain ⟨rfl, rfl⟩ := h
    exact keeps_afterHead head
  case h_10 expectedSize buffer =>
    cases hturn
    obtain ⟨rfl, rfl⟩ := h
    exact keeps_afterDrain (List.append_nil _) rfl
  case h_12 expectedSize drained written =>
    cases hturn
    obtain ⟨rfl, htotal⟩ := h
    exact keeps_checkTotal rfl (by rw [Turn.only, List.append_nil, htotal])
  case h_14 expectedSize drained written bytes fits =>
    obtain ⟨rfl, htotal⟩ := h
    split at hturn <;> cases hturn
    · exact keeps_checkTotal rfl (by rw [Turn.only, List.append_nil, htotal])
    · exact ⟨by rw [List.append_nil], by rw [List.append_nil, htotal]⟩
  case h_15 expectedSize drained written bytes =>
    cases hturn
    obtain ⟨rfl, htotal⟩ := h
    refine keeps_loopHead (List.append_nil _) ?_
    rw [List.length_append, htotal, Nat.add_assoc]
  case h_17 => cases hturn
  all_goals
    cases hturn
    first
    | trivial
    | exact ⟨by rw [h.1]; rfl, by rw [h.2]; rfl⟩

end Turns

/-- The calls with the file system, and their connections. -/
structure State where
  /-- The calls and the file system. -/
  cache : AssetCache.State
  /-- Where the call of `execute` of each download waits. -/
  phases : ℕ → Option Phase
  /-- The bytes of the body that each download has received. -/
  received : ℕ → List UInt8
  /-- The bodies received for a path by calls of `execute` that returned success, with the sizes
  that they expected. -/
  bodies : Path → List (ℕ × List UInt8)

/-- The server starts; files that are there are complete. -/
def initial (fs : FileSystem Path) : State where
  cache := AssetCache.initial fs
  phases := fun _ => none
  received := fun _ => []
  bodies := fun _ => []

/-- An event of the cache, or a turn of a connection. -/
inductive Event where
  /-- A step of `ensure_file_exists` outside `request_file`. -/
  | call (e : AssetCache.Event)
  /-- What the call of `execute` of a download waits for. -/
  | completes (i : ℕ) (completion : Completion)

/-- A step of `ensure_file_exists` that `request_file` takes. -/
def OfRequest : AssetCache.Event → Prop
  | .write _ _ | .streamed _ _ => True
  | _ => False

instance : DecidablePred OfRequest
  | .write _ _ | .streamed _ _ => .isTrue trivial
  | .begin _ | .test _ | .createSession _ _ | .prepare _ _ | .commit _ | .guardTest _
  | .guardRemove _ => .isFalse id

/-- What a turn does to the file system and the calls. -/
def cacheEvents (i : ℕ) (turn : Turn) : List AssetCache.Event :=
  (if turn.sink = [] then [] else [.write i turn.sink]) ++
    match turn.next with
    | .waits _ => []
    | .returns _ result => [.streamed i result]

/-- The connection of a download begins with `Prepare`, which is followed by `request_file`. -/
def State.connect (s : State) : AssetCache.Event → AssetCache.State → State
  | .prepare i (.ok ()), cache =>
    { s with
      cache := cache
      phases := Function.update s.phases i (some .resolving)
      received := Function.update s.received i [] }
  | _, cache => { s with cache := cache }

/-- The path of a call. -/
def State.pathOf (s : State) (i : ℕ) : Path := ((s.cache.calls[i]?).map Call.path).getD ""

/-- The connection of a download after a turn. -/
def State.after (s : State) (i : ℕ) (turn : Turn) (cache : AssetCache.State) : State :=
  let received := s.received i ++ turn.came
  let s := { s with cache := cache, received := Function.update s.received i received }
  match turn.next with
  | .waits phase => { s with phases := Function.update s.phases i (some phase) }
  | .returns expectedSize (.ok ()) =>
    { s with
      phases := Function.update s.phases i none
      bodies := Function.update s.bodies (s.pathOf i)
        (s.bodies (s.pathOf i) ++ [(expectedSize, received)]) }
  | .returns _ (.error _) => { s with phases := Function.update s.phases i none }

/-- The step of one event; `none` when the event cannot happen now. -/
def step (s : State) : Event → Option State
  | .call e => if OfRequest e then none else (AssetCache.step s.cache e).map (s.connect e)
  | .completes i completion =>
    (s.phases i).bind fun phase => (execute phase completion).bind fun turn =>
      (runEvents AssetCache.step s.cache (cacheEvents i turn)).map (s.after i turn)

/-- The guard of the cache, at its own events. -/
def Undisturbed (s : State) : Event → Prop
  | .call e => AssetCache.Undisturbed s.cache e
  | .completes _ _ => True

instance (s : State) : (e : Event) → Decidable (Undisturbed s e)
  | .call e => inferInstanceAs (Decidable (AssetCache.Undisturbed s.cache e))
  | .completes _ _ => inferInstanceAs (Decidable True)

/-- A body that has been received whole: all that was announced, if anything was. -/
def State.Whole (s : State) (path : Path) (bytes : List UInt8) : Prop :=
  ∃ expectedSize, (expectedSize, bytes) ∈ s.bodies path ∧
    (expectedSize = 0 ∨ bytes.length = expectedSize)

/-- A call that returns success leaves a file at its path that was there from the beginning, or
holds a body that has been received whole. -/
def ArrivedStep (fs : FileSystem Path) (s : State) (e : Event) : Prop :=
  ∀ s', step s e = some s' → ∀ (i : ℕ) (call : Call), s'.cache.calls[i]? = some call →
    call.pc = .done (.ok ()) → s.cache.calls[i]? ≠ some call →
      ∃ bytes, s'.cache.fs.contents call.path = some bytes ∧
        (fs.contents call.path = some bytes ∨ s'.Whole call.path bytes)

section Cache

variable {s s' : AssetCache.State} {i j : ℕ} {call : Call} {file : ℕ} {written : List UInt8}

/-- A request's own events do not disturb the cache. -/
theorem undisturbed_of_request {e : AssetCache.Event} (h : OfRequest e) :
    AssetCache.Undisturbed s e := by
  cases e with
  | write | streamed => trivial
  | begin | test | createSession | prepare | commit | guardTest | guardRemove => exact h.elim

/-- A step outside `request_file` leaves the downloads alone, but for one that it prepares. -/
theorem streaming_of_call {e : AssetCache.Event} (he : ¬OfRequest e)
    (hs : AssetCache.step s e = some s') (hj : s'.calls[j]? = some call)
    (hp : call.pc = .streaming file written) :
    s.calls[j]? = some call ∧ e ≠ .prepare j (.ok ()) ∨
      e = .prepare j (.ok ()) ∧ written = [] := by
  have hkept : ∀ {i : ℕ} {moved : Call} {pc : Pc} (s₁ : AssetCache.State), s₁.calls = s.calls →
      (s₁.setCall i moved pc).calls[j]? = some call → (∀ file written, pc ≠ .streaming file written) →
        j ≠ i ∧ s.calls[j]? = some call := by
    intro i moved pc s₁ hcalls hmoved hpc
    rcases getElem?_setCall hmoved with ⟨-, rfl⟩ | ⟨hne, hold⟩
    · exact absurd hp (hpc file written)
    · exact ⟨hne, hcalls ▸ hold⟩
  cases step_moves hs with
  | begin path =>
    rw [List.getElem?_append] at hj
    split at hj
    · exact .inl ⟨hj, nofun⟩
    · rw [List.mem_singleton.mp (List.mem_of_getElem? hj)] at hp
      cases hp
  | prepared hc hpc =>
    rcases getElem?_setCall hj with ⟨rfl, rfl⟩ | ⟨hne, hold⟩
    · cases hp
      exact .inr ⟨rfl, rfl⟩
    · refine .inl ⟨hold, fun hsame => hne ?_⟩
      cases hsame
      rfl
  | created hc hpc accessKey hfile hdone =>
    refine .inl ⟨(hkept s rfl hj fun f w hw => ?_).2, nofun⟩
    rw [hw] at hfile
    cases hfile
  | write | delivered | failed => exact absurd trivial he
  | found | missing | unprepared | guardFound | guardMissing => exact .inl ⟨(hkept s rfl hj nofun).2, nofun⟩
  | commit | guardRemove => exact .inl ⟨(hkept _ rfl hj nofun).2, nofun⟩

/-- It delivers nothing. -/
theorem delivered_of_call {e : AssetCache.Event} (he : ¬OfRequest e)
    (hs : AssetCache.step s e = some s') : s'.delivered = s.delivered := by
  cases step_moves hs with
  | write | delivered | failed => exact absurd trivial he
  | _ => rfl

/-- `request_file` does not end a call. -/
theorem done_of_request {e : AssetCache.Event} (he : OfRequest e) (hs : AssetCache.step s e = some s')
    {result : Except ErrorInfo Unit} (hj : s'.calls[j]? = some call) (hp : call.pc = .done result) :
    s.calls[j]? = some call := by
  cases step_moves hs with
  | write | delivered | failed =>
    rcases getElem?_setCall hj with ⟨-, rfl⟩ | ⟨-, hold⟩
    · cases hp
    · exact hold
  | _ => exact he.elim

/-- The bytes of a turn in the sink. -/
theorem run_sink {sink : List UInt8}
    (hrun : runEvents AssetCache.step s (if sink = [] then [] else [.write i sink]) = some s') :
    s'.delivered = s.delivered ∧ (∀ j, j ≠ i → s'.calls[j]? = s.calls[j]?) ∧
      ∀ call file sunk, s'.calls[i]? = some call → call.pc = .streaming file sunk →
        ∃ before written, s.calls[i]? = some before ∧ before.path = call.path ∧
          before.pc = .streaming file written ∧ sunk = written ++ sink := by
  split at hrun
  · rename_i hempty
    cases hrun
    exact ⟨rfl, fun _ _ => rfl, fun call file sunk hc hp =>
      ⟨call, sunk, hc, rfl, hp, by rw [hempty, List.append_nil]⟩⟩
  · obtain ⟨_, hs, hend⟩ := runEvents_cons_iff.mp hrun
    cases hend
    cases step_moves hs with
    | write hc hp =>
      refine ⟨rfl, fun j hj => getElem?_setCall_of_ne _ _ hj, fun call file sunk hmoved hsunk => ?_⟩
      rcases getElem?_setCall hmoved with ⟨-, rfl⟩ | ⟨hne, -⟩
      · cases hsunk
        exact ⟨_, _, hc, rfl, hp, rfl⟩
      · exact absurd rfl hne

/-- The events of a turn are those of `request_file`. -/
theorem ofRequest_cacheEvents (i : ℕ) (turn : Turn) : ∀ e ∈ cacheEvents i turn, OfRequest e := by
  intro e he
  rcases List.mem_append.mp he with hsink | hnext
  · split at hsink
    · cases hsink
    · rw [List.mem_singleton.mp hsink]
      trivial
  · split at hnext
    · cases hnext
    · rw [List.mem_singleton.mp hnext]
      trivial

/-- The events of a turn keep the cache's invariant. -/
theorem request_run {turn : Turn} (h : AssetCache.Inv s)
    (hrun : runEvents AssetCache.step s (cacheEvents i turn) = some s') : AssetCache.Inv s' :=
  run_invariant (fun _ _ _ hinv he hs => AssetCache.inv_step hinv (undisturbed_of_request he) hs) h
    (meets_of_events (ofRequest_cacheEvents i turn) s) hrun

/-- The events of a turn end no other call. -/
theorem done_of_run {turn : Turn} {result : Except ErrorInfo Unit}
    (hrun : runEvents AssetCache.step s (cacheEvents i turn) = some s')
    (hj : s'.calls[j]? = some call) (hp : call.pc = .done result) : s.calls[j]? = some call :=
  run_invariant (I := fun t => t.calls[j]? = some call → s.calls[j]? = some call)
    (fun _ _ _ hback he hs hmoved => hback (done_of_request he hs hmoved hp)) id
    (meets_of_events (ofRequest_cacheEvents i turn) s) hrun hj

end Cache

/-- Downloads of one path follow one another, and each keeps account of its body. -/
structure Inv (fs : FileSystem Path) (s : State) : Prop where
  /-- The cache's own invariant. -/
  cache : AssetCache.Inv s.cache
  /-- What has been delivered was there from the beginning or has been received whole. -/
  delivered : ∀ path, ∀ bytes ∈ s.cache.delivered path,
    fs.contents path = some bytes ∨ s.Whole path bytes
  /-- A streaming call has written what its connection counted. -/
  streams : ∀ (i : ℕ) (call : Call) (file : ℕ) (written : List UInt8),
    s.cache.calls[i]? = some call → call.pc = .streaming file written →
      ∀ phase ∈ s.phases i, phase.Keeps written (s.received i)

/-- Nothing is requested at first. -/
theorem inv_initial (fs : FileSystem Path) : Inv fs (initial fs) where
  cache := AssetCache.inv_initial fs
  delivered := fun _ _ hbytes => .inl (Option.mem_toList.mp hbytes)
  streams := fun _ _ _ _ hc => by cases hc

section Step

variable {fs : FileSystem Path} {s s' : State}

/-- What `connect` does. -/
theorem connect_bodies (s : State) (e : AssetCache.Event) (cache : AssetCache.State) :
    (s.connect e cache).bodies = s.bodies ∧ (s.connect e cache).cache = cache := by
  unfold State.connect
  split <;> exact ⟨rfl, rfl⟩

/-- Only a successful preparation opens a connection. -/
theorem connect_of_ne (s : State) {e : AssetCache.Event} (cache : AssetCache.State) {j : ℕ}
    (he : e ≠ .prepare j (.ok ())) :
    (s.connect e cache).phases j = s.phases j ∧
      (s.connect e cache).received j = s.received j := by
  unfold State.connect
  split
  · rename_i i
    have hne : j ≠ i := fun hj => he (hj ▸ rfl)
    exact ⟨Function.update_of_ne hne _ _, Function.update_of_ne hne _ _⟩
  · exact ⟨rfl, rfl⟩

/-- A step outside `request_file` keeps the invariant. -/
theorem Inv.call (h : Inv fs s) {e : AssetCache.Event} (hok : AssetCache.Undisturbed s.cache e)
    (he : ¬OfRequest e) {cache : AssetCache.State} (hs : AssetCache.step s.cache e = some cache) :
    Inv fs (s.connect e cache) := by
  obtain ⟨hbodies, hcache⟩ := connect_bodies s e cache
  refine ⟨?_, fun path bytes hbytes => ?_, fun j call file written hj hp phase hphase => ?_⟩
  · rw [hcache]
    exact AssetCache.inv_step h.cache hok hs
  · rw [hcache, delivered_of_call he hs] at hbytes
    rw [State.Whole, hbodies]
    exact h.delivered path bytes hbytes
  · rw [hcache] at hj
    rcases streaming_of_call he hs hj hp with ⟨hold, hne⟩ | ⟨rfl, rfl⟩
    · obtain ⟨hphases, hreceived⟩ := connect_of_ne s cache hne
      rw [hphases] at hphase
      rw [hreceived]
      exact h.streams j call file written hold hp phase hphase
    · change Function.update s.phases j (some Phase.resolving) j = some phase at hphase
      change phase.Keeps [] (Function.update s.received j [] j)
      rw [Function.update_self] at hphase ⊢
      cases hphase
      exact ⟨rfl, rfl⟩

/-- Other connections stay as they are. -/
theorem after_of_ne (s : State) (turn : Turn) (cache : AssetCache.State) {i j : ℕ} (hne : j ≠ i) :
    (s.after i turn cache).phases j = s.phases j ∧
      (s.after i turn cache).received j = s.received j := by
  unfold State.after
  dsimp only
  split <;> exact ⟨Function.update_of_ne hne _ _, Function.update_of_ne hne _ _⟩

/-- The cache after a turn is the one given. -/
theorem after_cache (s : State) (i : ℕ) (turn : Turn) (cache : AssetCache.State) :
    (s.after i turn cache).cache = cache := by
  unfold State.after
  dsimp only
  split <;> rfl

/-- A turn adds its bytes to what the call has received. -/
theorem after_received (s : State) (i : ℕ) (turn : Turn) (cache : AssetCache.State) :
    (s.after i turn cache).received i = s.received i ++ turn.came := by
  unfold State.after
  dsimp only
  split <;> exact Function.update_self _ _ _

/-- A body that has been received stays. -/
theorem whole_after {path : Path} {bytes : List UInt8} (h : s.Whole path bytes) (i : ℕ) (turn : Turn)
    (cache : AssetCache.State) : (s.after i turn cache).Whole path bytes := by
  obtain ⟨expectedSize, hmem, hsize⟩ := h
  refine ⟨expectedSize, ?_, hsize⟩
  unfold State.after
  dsimp only
  split
  · exact hmem
  · simp only [Function.update_apply]
    split
    · rename_i hpath
      exact List.mem_append_left _ (hpath ▸ hmem)
    · exact hmem
  · exact hmem

/-- A turn of a download that goes on. -/
theorem Inv.waits (h : Inv fs s) {i : ℕ} {phase next : Phase} {completion : Completion} {turn : Turn}
    (hphase : s.phases i = some phase) (hturn : execute phase completion = some turn)
    (hnext : turn.next = .waits next) {cache : AssetCache.State} (hinv : AssetCache.Inv cache)
    (hrun : runEvents AssetCache.step s.cache (cacheEvents i turn) = some cache) :
    Inv fs (s.after i turn cache) := by
  rw [cacheEvents, hnext, List.append_nil] at hrun
  obtain ⟨hdelivered, hothers, hsunk⟩ := run_sink hrun
  refine ⟨(after_cache s i turn cache).symm ▸ hinv, fun path bytes hbytes => ?_,
    fun j call file written hj hp phase' hphase' => ?_⟩
  · rw [after_cache, hdelivered] at hbytes
    exact (h.delivered path bytes hbytes).imp_right fun hwhole => whole_after hwhole i turn cache
  · rw [after_cache] at hj
    rcases eq_or_ne j i with rfl | hne
    · obtain ⟨before, sunk, hc, -, hbefore, rfl⟩ := hsunk call file written hj hp
      have hkeeps := (h.streams j before file sunk hc hbefore phase hphase).turn hturn
      have hgoes : (s.after j turn cache).phases j = some next := by
        unfold State.after
        rw [hnext]
        exact Function.update_self _ _ _
      rw [hnext] at hkeeps
      rw [hgoes] at hphase'
      cases hphase'
      rw [after_received]
      exact hkeeps
    · obtain ⟨hphases, hreceived⟩ := after_of_ne s turn cache hne
      rw [hphases] at hphase'
      rw [hreceived]
      exact h.streams j call file written (hothers j hne ▸ hj) hp phase' hphase'

/-- A download that ends has no more account to keep. -/
theorem Inv.streams_closed (h : Inv fs s) {i : ℕ} {turn : Turn} {cache : AssetCache.State}
    (hothers : ∀ j, j ≠ i → cache.calls[j]? = s.cache.calls[j]?)
    (hclosed : ∀ call file written, cache.calls[i]? = some call → call.pc ≠ .streaming file written)
    (j : ℕ) (call : Call) (file : ℕ) (written : List UInt8)
    (hj : (s.after i turn cache).cache.calls[j]? = some call) (hp : call.pc = .streaming file written) :
    ∀ phase ∈ (s.after i turn cache).phases j,
      phase.Keeps written ((s.after i turn cache).received j) := by
  rw [after_cache] at hj
  rcases eq_or_ne j i with rfl | hne
  · exact absurd hp (hclosed call file written hj)
  · obtain ⟨hphases, hreceived⟩ := after_of_ne s turn cache hne
    rw [hphases, hreceived]
    exact h.streams j call file written (hothers j hne ▸ hj) hp

/-- A download that returns success has received its body whole. -/
theorem whole_of_returned {i : ℕ} {turn : Turn} {expectedSize : ℕ} {cache : AssetCache.State}
    {call : Call} (hnext : turn.next = .returns expectedSize (.ok ()))
    (hcall : cache.calls[i]? = some call)
    (hsize : expectedSize = 0 ∨ (s.received i ++ turn.came).length = expectedSize) :
    (s.after i turn cache).Whole call.path (s.received i ++ turn.came) := by
  refine ⟨expectedSize, ?_, hsize⟩
  unfold State.after
  rw [hnext]
  dsimp only [State.pathOf]
  rw [hcall, Option.map_some, Option.getD_some, Function.update_self]
  exact List.mem_append_right _ (List.mem_singleton_self _)

/-- A turn with which a download ends. -/
theorem Inv.returns (h : Inv fs s) {i : ℕ} {phase : Phase} {completion : Completion} {turn : Turn}
    (hphase : s.phases i = some phase) (hturn : execute phase completion = some turn)
    {expectedSize : ℕ} {result : Except ErrorInfo Unit}
    (hnext : turn.next = .returns expectedSize result) {cache : AssetCache.State}
    (hinv : AssetCache.Inv cache)
    (hrun : runEvents AssetCache.step s.cache (cacheEvents i turn) = some cache) :
    Inv fs (s.after i turn cache) := by
  rw [cacheEvents, hnext] at hrun
  obtain ⟨m, hsink, hlast⟩ := runEvents_append_iff.mp hrun
  obtain ⟨hdelivered, hothers, hsunk⟩ := run_sink hsink
  obtain ⟨_, hstreamed, hend⟩ := runEvents_cons_iff.mp hlast
  cases hend
  have hkept : ∀ path, ∀ bytes ∈ s.cache.delivered path,
      fs.contents path = some bytes ∨ (s.after i turn cache).Whole path bytes :=
    fun path bytes hbytes =>
      (h.delivered path bytes hbytes).imp_right fun hwhole => whole_after hwhole i turn cache
  have hcache : AssetCache.Inv (s.after i turn cache).cache :=
    (after_cache s i turn cache).symm ▸ hinv
  cases step_moves hstreamed with
  | @delivered _ call file sunk hc hp =>
    have hmoved : (streamed m i call file sunk (.ok ())).calls[i]? =
        some { call with pc := .committing file sunk } := getElem?_setCall_self hc _
    refine ⟨hcache, fun path bytes hbytes => ?_, h.streams_closed
      (fun j hne => (getElem?_setCall_of_ne _ _ hne).trans (hothers j hne)) fun other f w hother hw => ?_⟩
    · rw [after_cache] at hbytes
      change bytes ∈ Function.update m.delivered call.path (m.delivered call.path ++ [sunk]) path
        at hbytes
      rw [Function.update_apply, hdelivered] at hbytes
      split at hbytes
      · rename_i hpath
        rcases List.mem_append.mp hbytes with hold | hnew
        · exact hkept path bytes (hpath ▸ hold)
        · obtain rfl := List.mem_singleton.mp hnew
          obtain ⟨before, written, hbefore, -, hstreaming, rfl⟩ := hsunk call file bytes hc hp
          have hkeeps := (h.streams i before file written hbefore hstreaming phase hphase).turn hturn
          rw [hnext] at hkeeps
          obtain ⟨hall, hsize⟩ := hkeeps
          have hwhole := whole_of_returned hnext hmoved hsize
          exact .inr (hpath ▸ hall ▸ hwhole)
      · exact hkept path bytes hbytes
    · rw [hmoved] at hother
      cases hother
      cases hw
  | @failed _ call file sunk hc hp error =>
    refine ⟨hcache, fun path bytes hbytes => ?_, h.streams_closed
      (fun j hne => (getElem?_setCall_of_ne _ _ hne).trans (hothers j hne)) fun other f w hother hw => ?_⟩
    · rw [after_cache] at hbytes
      exact hkept path bytes (hdelivered ▸ hbytes)
    · rw [getElem?_setCall_self hc] at hother
      cases hother
      cases hw

/-- One undisturbed step keeps the invariant. -/
theorem inv_step (h : Inv fs s) {e : Event} (hok : Undisturbed s e) (hs : step s e = some s') :
    Inv fs s' := by
  cases e with
  | call e =>
    rw [step] at hs
    split at hs
    · cases hs
    · rename_i he
      obtain ⟨cache, hcache, rfl⟩ := Option.map_eq_some_iff.mp hs
      exact h.call hok he hcache
  | completes i completion =>
    obtain ⟨phase, hphase, hs⟩ := Option.bind_eq_some_iff.mp hs
    obtain ⟨turn, hturn, hs⟩ := Option.bind_eq_some_iff.mp hs
    obtain ⟨cache, hrun, rfl⟩ := Option.map_eq_some_iff.mp hs
    have hinv := request_run h.cache hrun
    cases hnext : turn.next with
    | waits next => exact h.waits hphase hturn hnext hinv hrun
    | returns expectedSize result => exact h.returns hphase hturn hnext hinv hrun

/-- A step that meets the guard leaves whole files behind its successes. -/
theorem arrivedStep (h : Inv fs s) {e : Event} (hok : Undisturbed s e) : ArrivedStep fs s e := by
  intro s' hs i call hcall hdone hnew
  have hnext := inv_step h hok hs
  cases e with
  | call e =>
    rw [step] at hs
    split at hs
    · cases hs
    · obtain ⟨cache, hcache, rfl⟩ := Option.map_eq_some_iff.mp hs
      rw [(connect_bodies s e cache).2] at hcall ⊢
      obtain ⟨bytes, hbytes, hcontents⟩ :=
        (sound_of_undisturbed h.cache hok cache hcache).success i call hcall hdone hnew
      exact ⟨bytes, hcontents, hnext.delivered call.path bytes
        ((connect_bodies s e cache).2.symm ▸ hbytes)⟩
  | completes i' completion =>
    obtain ⟨phase, hphase, hs⟩ := Option.bind_eq_some_iff.mp hs
    obtain ⟨turn, hturn, hs⟩ := Option.bind_eq_some_iff.mp hs
    obtain ⟨cache, hrun, rfl⟩ := Option.map_eq_some_iff.mp hs
    rw [after_cache] at hcall
    exact absurd (done_of_run hrun hcall hdone) hnew

end Step

/-- In every run of any number of calls whose tests and downloads are undisturbed, each call that
returns success leaves at its path a file that was there from the beginning, or the body of a
response as the peer has sent it, all that was announced. -/
theorem downloads_arrive {fs : FileSystem Path} {es : List Event}
    (hmeets : Meets step Undisturbed (initial fs) es) :
    Meets step (ArrivedStep fs) (initial fs) es :=
  hmeets.mono (fun _ _ _ h hok hs => inv_step h hok hs) (fun _ _ h hok => arrivedStep h hok)
    (inv_initial fs)

/-- Two downloads of different files whose turns interleave; the body of the first comes in part
with its head, and the peer of the second ends early. -/
def twoDownloads : List Event :=
  [.call (.begin "a.wav"), .call (.begin "b.wav"), .call (.test 0), .call (.test 1),
    .call (.createSession 0 "key"), .call (.createSession 1 "key"), .call (.prepare 0 (.ok ())),
    .completes 0 (.resolved none), .call (.prepare 1 (.ok ())), .completes 1 (.resolved none),
    .completes 0 (.connected none), .completes 1 (.connected none), .completes 0 (.requested none),
    .completes 0 (.header (.ok ⟨200, some "3", [7]⟩)), .completes 1 (.requested none),
    .completes 1 (.header (.ok ⟨200, some "2", []⟩)), .completes 0 (.wrote .ok),
    .completes 0 (.read (.data [8, 9] (by decide))), .completes 1 (.read .eof),
    .completes 0 (.wrote .ok), .call (.commit 0), .call (.begin "a.wav"), .call (.test 2)]

/-- Two downloads arrive whole. -/
theorem downloads_arrive_two :
    Meets step (ArrivedStep .empty) (initial .empty) twoDownloads ∧
      (runEvents step (initial .empty) twoDownloads).map (fun t => t.cache.fs.contents "a.wav") =
        some (some [7, 8, 9]) :=
  ⟨downloads_arrive (by decide +kernel), by decide +kernel⟩

end HermesFlow.AssetDownload
