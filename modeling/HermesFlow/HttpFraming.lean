import HermesFlow.HttpSession

/-!
# Request framing

The loop starts a new parser on what the last one has left in `buffer_`. A
request is read to its last byte, except an `OPTIONS` request: that is read to
the end of its header, and the next parser starts on its body. So the requests
of a stream are dispatched as they were sent if and only if no `OPTIONS` request
that another turn follows has a body.
-/

namespace HermesFlow.Http

open EventRun SegmentedStream

/-- A request as a client sends it. -/
structure Wire where
  /-- The bytes of the header, up to the blank line. -/
  header : List UInt8
  /-- The bytes of the body. -/
  body : List UInt8
  /-- What they mean. -/
  request : Request
  deriving DecidableEq

/-- All bytes of a request. -/
def Wire.bytes (w : Wire) : List UInt8 := w.header ++ w.body

/-- The request without its body. -/
def Wire.head (w : Wire) : Request := { w.request with body := "" }

/-- What is dispatched: an `OPTIONS` request is answered on its header. -/
def Wire.dispatched (w : Wire) : Request :=
  if w.request.isOptionsRequest then w.head else w.request

/-- What `do_read_request` leaves of a request. -/
def Wire.unread (w : Wire) : List UInt8 :=
  if w.request.isOptionsRequest then w.body else []

/-- The bytes of some requests. -/
def stream (ws : List Wire) : List UInt8 := (ws.map Wire.bytes).flatten

/-- The parser takes exactly the header, and then exactly the body that belongs to it, which
the limit admits. -/
def WellFormed (parser : Parser) (w : Wire) : Prop :=
  ∃ head, parser.get head = w.head ∧
    Frames (parser.header MAX_BODY_LIMIT) w.header head ∧
    Frames (parser.body MAX_BODY_LIMIT head) w.body w.request

/-- The requests are dispatched as they were sent. -/
structure Framed (ws : List Wire) (t : State) : Prop where
  /-- Each parser starts where a request starts, or at the end. -/
  starts : ∀ (k : ℕ) (bytes : List UInt8), t.starts[k]? = some bytes → bytes = stream (ws.drop k)
  /-- Each once and in order. -/
  log : t.log.map Dispatched.req = (ws.take t.log.length).map Wire.dispatched
  /-- Up to one that ends the connection, -/
  continues : ∀ d ∈ t.log.dropLast, d.ends = false
  /-- and not less. -/
  complete : t.isOpen = false →
    t.log.length = ws.length ∨ ∃ d, t.log.getLast? = some d ∧ d.ends = true
  /-- Every turn dispatches one. -/
  progress : t.isOpen = true → t.log.length = t.starts.length

/-- An open connection at the start of a request. -/
structure Aligned (ws : List Wire) (s : State) : Prop where
  /-- The requests so far are those of the stream. -/
  framed : Framed ws s
  /-- The connection is open. -/
  isOpen : s.isOpen = true
  /-- No request so far ends the connection. -/
  continues : ∀ d ∈ s.log, d.ends = false
  /-- What is left is the stream of the requests not taken. -/
  stream : s.buffer ++ s.incoming.flatten = Http.stream (ws.drop s.log.length)

section Reading

variable {parser : Parser} {w : Wire} {s : State}

/-- A request that is there is read, up to the body of an `OPTIONS` request. -/
theorem doReadRequest_wire (hw : WellFormed parser w) {later : List UInt8}
    (hstream : s.buffer ++ s.incoming.flatten = w.bytes ++ later) :
    ∃ buffer incoming, doReadRequest parser s = .ok (w.dispatched, buffer, incoming) ∧
      buffer ++ incoming.flatten = w.unread ++ later := by
  obtain ⟨head, hget, hheader, hbody⟩ := hw
  unfold Wire.bytes at hstream
  rw [List.append_assoc] at hstream
  obtain ⟨buffer, incoming, hread, hafter⟩ :=
    @Frames.readFrame _ _ _ headerEnd _ _ hheader _ _ _ hstream
  unfold doReadRequest Wire.dispatched Wire.unread
  rw [hread]
  dsimp only
  rw [hget]
  have hmethod : w.head.isOptionsRequest ↔ w.request.isOptionsRequest := Iff.rfl
  by_cases hoptions : w.request.isOptionsRequest
  · rw [if_pos (hmethod.mpr hoptions), if_pos hoptions, if_pos hoptions]
    exact ⟨buffer, incoming, rfl, hafter⟩
  · rw [if_neg (mt hmethod.mp hoptions), if_neg hoptions, if_neg hoptions, List.nil_append]
    exact hbody.readFrame hafter

/-- A stream that is over has no request. -/
theorem doReadRequest_end (hempty : parser.header MAX_BODY_LIMIT [] = .needMore)
    (hstream : s.buffer ++ s.incoming.flatten = []) :
    doReadRequest parser s = .error "End of Stream" := by
  obtain ⟨hbuffer, hincoming⟩ := List.append_eq_nil_iff.mp hstream
  unfold doReadRequest
  rw [hbuffer, readFrame_nil hempty hincoming]
  rfl

end Reading

section Turns

variable {lib : Library} {parser : Parser} {ws : List Wire} {w : Wire} {rest : List Wire}
variable {s s' : State} {turn : Turn}

/-- A stream starts with its first request's bytes. -/
theorem stream_cons : stream (w :: rest) = w.bytes ++ stream rest := rfl

/-- The next parser of an aligned connection starts where it should. -/
theorem Aligned.starts_snoc (h : Aligned ws s) (k : ℕ) (bytes : List UInt8)
    (hk : (s.starts ++ [s.buffer ++ s.incoming.flatten])[k]? = some bytes) :
    bytes = Http.stream (ws.drop k) := by
  rw [List.getElem?_append] at hk
  split at hk
  · exact h.framed.starts k bytes hk
  · have hlast : k = s.starts.length := by
      by_contra hne
      rw [List.getElem?_eq_none (by simp only [List.length_singleton]; omega)] at hk
      cases hk
    rw [hlast, Nat.sub_self] at hk
    obtain rfl := Option.some.inj hk
    rw [hlast, ← h.framed.progress h.isOpen]
    exact h.stream

/-- At the end of the stream the loop returns. -/
theorem Aligned.step_end (h : Aligned ws s)
    (hempty : parser.header MAX_BODY_LIMIT [] = .needMore) (hws : ws.drop s.log.length = [])
    (hstep : step lib parser s turn = some s') : s'.isOpen = false ∧ Framed ws s' := by
  have hstream := h.stream
  rw [hws] at hstream
  have hread := doReadRequest_end hempty hstream
  obtain ⟨-, hstarts, ⟨message, -, hclosed, hlog⟩ | ⟨req, buffer, incoming, hgot, -⟩⟩ :=
    step_cases hstep
  · refine ⟨hclosed, ?_, ?_, ?_, ?_, ?_⟩
    · rw [hstarts]
      exact h.starts_snoc
    · rw [hlog]
      exact h.framed.log
    · rw [hlog]
      exact h.framed.continues
    · intro _
      have hlength := congrArg List.length h.framed.log
      have hdrop := List.drop_eq_nil_iff.mp hws
      simp only [List.length_map, List.length_take] at hlength
      rw [hlog]
      left
      omega
    · intro hopen
      cases hclosed.symm.trans hopen
  · cases hread.symm.trans hgot

/-- A turn dispatches the next request, and leaves what follows. -/
theorem Aligned.step_wire (h : Aligned ws s) (hw : WellFormed parser w)
    (hws : ws.drop s.log.length = w :: rest) (hstep : step lib parser s turn = some s') :
    Framed ws s' ∧ s'.log.length = s.log.length + 1 ∧
      s'.buffer ++ s'.incoming.flatten = w.unread ++ Http.stream rest ∧
      (s'.isOpen = true → ∀ d ∈ s'.log, d.ends = false) := by
  have hstream := h.stream
  rw [hws, stream_cons] at hstream
  obtain ⟨buffer, incoming, hread, hafter⟩ := doReadRequest_wire hw hstream
  obtain ⟨-, hstarts, ⟨message, hgot, -⟩ | ⟨req, buffer', incoming', hgot, hbuffer, hincoming,
    hopen, hlog⟩⟩ := step_cases hstep
  · cases hread.symm.trans hgot
  · obtain ⟨rfl, rfl, rfl⟩ : w.dispatched = req ∧ buffer = buffer' ∧ incoming = incoming' := by
      have hsame := Except.ok.inj (hread.symm.trans hgot)
      simpa only [Prod.mk.injEq] using hsame
    have hnext : ws[s.log.length]? = some w := by
      have hfirst := congrArg List.head? hws
      rw [List.head?_drop] at hfirst
      exact hfirst
    have hlength : s'.log.length = s.log.length + 1 := by
      rw [hlog, List.length_append, List.length_singleton]
    refine ⟨⟨?_, ?_, ?_, ?_, ?_⟩, hlength, ?_, ?_⟩
    · rw [hstarts]
      exact h.starts_snoc
    · rw [hlength, List.take_add_one, hnext, hlog, List.map_append, List.map_append,
        h.framed.log]
      simp
    · rw [hlog, List.dropLast_concat]
      exact h.continues
    · intro hclosed
      rw [hopen] at hclosed
      rw [hlog, List.getLast?_concat]
      exact .inr ⟨_, rfl, by simpa using hclosed⟩
    · intro _
      rw [hlength, hstarts, List.length_append, List.length_singleton,
        h.framed.progress h.isOpen]
    · rw [hbuffer, hincoming]
      exact hafter
    · intro hstill d hd
      rw [hlog, List.mem_append, List.mem_singleton] at hd
      rcases hd with hd | rfl
      · exact h.continues d hd
      · rw [hopen] at hstill
        simpa using hstill

/-- Without a rest of the request the connection is aligned again. -/
theorem Aligned.step_aligned (h : Aligned ws s) (hw : WellFormed parser w)
    (hws : ws.drop s.log.length = w :: rest) (hunread : w.unread = [])
    (hstep : step lib parser s turn = some s') (hopen : s'.isOpen = true) :
    Aligned ws s' ∧ ws.drop s'.log.length = rest := by
  obtain ⟨hframed, hlength, hafter, hcontinues⟩ := h.step_wire hw hws hstep
  have hrest : ws.drop s'.log.length = rest := by
    rw [hlength, ← List.drop_drop, hws]
    rfl
  refine ⟨⟨hframed, hopen, hcontinues hopen, ?_⟩, hrest⟩
  rw [hafter, hunread, hrest, List.nil_append]

/-- A closed connection takes no turn. -/
theorem eq_of_closed {t : State} {turns : List Turn} (hclosed : s.isOpen = false)
    (hrun : runEvents (step lib parser) s turns = some t) : turns = [] ∧ t = s := by
  cases turns with
  | nil => exact ⟨rfl, (Option.some.inj hrun).symm⟩
  | cons turn turns =>
    obtain ⟨s', hstep, -⟩ := runEvents_cons_iff.mp hrun
    cases hclosed.symm.trans (step_cases hstep).1

/-- The starts of the parsers are kept. -/
theorem starts_prefix {t : State} {turns : List Turn}
    (hrun : runEvents (step lib parser) s turns = some t) : s.starts <+: t.starts := by
  refine run_invariant_of_step (I := fun m => s.starts <+: m.starts) ?_ List.prefix_rfl hrun
  intro m turn m' hm hstep
  rw [(step_cases hstep).2.1]
  exact hm.trans (List.prefix_append _ _)

/-- A turn that starts on the rest of a request ends the framing. -/
theorem Aligned.not_framed (h : Aligned ws s) (hw : WellFormed parser w)
    (hws : ws.drop s.log.length = w :: rest) (hunread : w.unread ≠ [])
    (hstep : step lib parser s turn = some s') {s'' t : State} {turn' : Turn} {turns : List Turn}
    (hnext : step lib parser s' turn' = some s'')
    (hrun : runEvents (step lib parser) s'' turns = some t) : ¬Framed ws t := by
  intro hframed
  obtain ⟨hframed', hlength, hafter, -⟩ := h.step_wire hw hws hstep
  obtain ⟨hopen, hstarts, -⟩ := step_cases hnext
  obtain ⟨later, hlater⟩ := starts_prefix hrun
  have hstart : t.starts[s'.log.length]? = some (w.unread ++ Http.stream rest) := by
    rw [← hlater, hstarts, hframed'.progress hopen, List.append_assoc,
      List.getElem?_append_right le_rfl, Nat.sub_self, hafter]
    rfl
  have hrest : ws.drop s'.log.length = rest := by
    rw [hlength, ← List.drop_drop, hws]
    rfl
  have hbytes := hframed.starts _ _ hstart
  rw [hrest] at hbytes
  exact hunread (List.append_left_eq_self.mp hbytes)

/-- The requests that another turn follows have been read to their last byte. -/
theorem Aligned.run (hempty : parser.header MAX_BODY_LIMIT [] = .needMore)
    (hwell : ∀ w ∈ ws, WellFormed parser w) {t : State} {turns : List Turn} (h : Aligned ws s)
    (hrun : runEvents (step lib parser) s turns = some t) :
    Framed ws t ↔
      ∀ w ∈ (ws.drop s.log.length).take (turns.length - 1), w.unread = [] := by
  induction turns generalizing s with
  | nil =>
    obtain rfl := Option.some.inj hrun
    refine iff_of_true h.framed fun w hw => ?_
    simp at hw
  | cons turn turns ih =>
    obtain ⟨s', hstep, hrest⟩ := runEvents_cons_iff.mp hrun
    rw [List.length_cons, Nat.add_sub_cancel]
    cases hws : ws.drop s.log.length with
    | nil =>
      obtain ⟨hclosed, hframed⟩ := h.step_end hempty hws hstep
      obtain ⟨rfl, rfl⟩ := eq_of_closed hclosed hrest
      refine iff_of_true hframed fun w hw => ?_
      simp at hw
    | cons w rest =>
      have hw : WellFormed parser w :=
        hwell w (List.mem_of_mem_drop (hws ▸ List.mem_cons_self))
      cases turns with
      | nil =>
        obtain rfl := Option.some.inj hrest
        refine iff_of_true (h.step_wire hw hws hstep).1 fun w hw => ?_
        simp at hw
      | cons turn' turns =>
        rw [List.length_cons, List.take_succ_cons, List.forall_mem_cons]
        obtain ⟨s'', hnext, hlast⟩ := runEvents_cons_iff.mp hrest
        by_cases hunread : w.unread = []
        · obtain ⟨haligned, hdrop⟩ :=
            h.step_aligned hw hws hunread hstep (step_cases hnext).1
          rw [ih haligned hrest, hdrop, List.length_cons, Nat.add_sub_cancel]
          exact (and_iff_right hunread).symm
        · exact iff_of_false (h.not_framed hw hws hunread hstep hnext hlast)
            fun hall => hunread hall.1

end Turns

/-- Nothing stays unread unless an OPTIONS request has a body. -/
theorem unread_eq_nil_iff {w : Wire} :
    w.unread = [] ↔ (w.request.isOptionsRequest → w.body = []) := by
  unfold Wire.unread
  split
  · rename_i hoptions
    exact ⟨fun h _ => h, fun h => h hoptions⟩
  · rename_i hoptions
    exact iff_of_true rfl fun h => absurd h hoptions

/-- A new connection is at the start of its first request. -/
theorem start_aligned {ws : List Wire} {incoming : List (List UInt8)}
    (hstream : incoming.flatten = stream ws) : Aligned ws (start incoming) := by
  refine ⟨⟨?_, rfl, ?_, ?_, fun _ => rfl⟩, rfl, ?_, ?_⟩
  · intro k bytes hk
    cases hk
  · intro d hd
    cases hd
  · intro hclosed
    cases hclosed
  · intro d hd
    cases hd
  · exact hstream

/-- The requests of a stream are dispatched as they were sent if and only if no
`OPTIONS` request that another turn follows has a body. -/
theorem framed_iff {lib : Library} {parser : Parser} {ws : List Wire}
    {incoming : List (List UInt8)} {turns : List Turn} {t : State}
    (hempty : parser.header MAX_BODY_LIMIT [] = .needMore)
    (hwell : ∀ w ∈ ws, WellFormed parser w) (hstream : incoming.flatten = stream ws)
    (hrun : runEvents (step lib parser) (start incoming) turns = some t) :
    Framed ws t ↔
      ∀ w ∈ ws.take (turns.length - 1), w.request.isOptionsRequest → w.body = [] := by
  refine ((start_aligned hstream).run hempty hwell hrun).trans ?_
  exact forall₂_congr fun w _ => unread_eq_nil_iff

/-- The parser of some requests: it knows a header by its bytes. -/
def tableParser (ws : List Wire) : Parser where
  Head := Wire
  header := fun _ => oneOf (ws.map fun w => (w.header, w))
  get := Wire.head
  body := fun _ w => oneOf [(w.body, w.request)]

/-- Where no header begins with another, they are well-formed. -/
theorem tableParser_wellFormed {ws : List Wire}
    (hfree : PrefixFree (ws.map fun w => (w.header, w))) {w : Wire} (hw : w ∈ ws) :
    WellFormed (tableParser ws) w := by
  refine ⟨w, rfl, oneOf_frames hfree (List.mem_map_of_mem hw),
    oneOf_frames ?_ (List.mem_singleton_self _)⟩
  intro f hf g hg _
  rw [List.mem_singleton.mp hf, List.mem_singleton.mp hg]

/-- A request of a browser before it asks anything. -/
def preflightWire : Wire :=
  ⟨bytesOf "OPTIONS * HTTP/1.1\r\nHost: a\r\n\r\n", [], ⟨.options, "*", 11, true, false, ""⟩⟩

/-- A request whose body has two bytes. -/
def shortWire : Wire :=
  ⟨bytesOf "POST /transmit/ HTTP/1.1\r\nHost: a\r\nContent-Length: 2\r\n\r\n", bytesOf "\x7b\x7d",
    ⟨.post, "/transmit/", 11, true, false, "\x7b\x7d"⟩⟩

/-- The same request with one more byte. -/
def longWire : Wire :=
  ⟨bytesOf "POST /transmit/ HTTP/1.1\r\nHost: a\r\nContent-Length: 3\r\n\r\n", bytesOf "\x7b\x7d ",
    ⟨.post, "/transmit/", 11, true, false, "\x7b\x7d "⟩⟩

/-- The header of an `OPTIONS` request with a body of its own length. -/
def optionsHeader : String := "OPTIONS * HTTP/1.1\r\nHost: a\r\nContent-Length: 51\r\n\r\n"

/-- The request: its body is its header once more. -/
def optionsWire : Wire :=
  ⟨bytesOf optionsHeader, bytesOf optionsHeader, ⟨.options, "*", 11, true, false, optionsHeader⟩⟩

/-- Four requests, two heads with two bodies each, in three segments; the last body is not
read. -/
theorem framed_four_requests :
    let ws := [preflightWire, longWire, shortWire, optionsWire]
    let segments := [(stream ws).take 40, ((stream ws).drop 40).take 90, (stream ws).drop 130]
    let turn : Turn := ⟨quietEnvironment oneSession, true⟩
    ∃ t, runEvents (step plainLibrary (tableParser ws)) (start segments) [turn, turn, turn, turn] =
        some t ∧
      t.log.map Dispatched.req =
        [preflightWire.request, longWire.request, shortWire.request, optionsWire.head] ∧
      Framed ws t := by
  intro ws segments turn
  have hlog : (runEvents (step plainLibrary (tableParser ws)) (start segments)
      [turn, turn, turn, turn]).map (fun t => t.log.map Dispatched.req) =
        some [preflightWire.request, longWire.request, shortWire.request, optionsWire.head] := by
    decide +kernel
  obtain ⟨t, hrun, hreqs⟩ := Option.map_eq_some_iff.mp hlog
  have hfree : PrefixFree (ws.map fun w => (w.header, w)) := by decide +kernel
  have hstream : segments.flatten = stream ws := by decide +kernel
  have hempty : (tableParser ws).header MAX_BODY_LIMIT [] = .needMore := rfl
  refine ⟨t, hrun, hreqs, (framed_iff hempty (fun w hw => tableParser_wellFormed hfree hw) hstream
    hrun).mpr ?_⟩
  decide +kernel

/-- One request is dispatched twice: the second parser starts on its body. -/
theorem not_framed_options_body :
    let turn : Turn := ⟨quietEnvironment oneSession, true⟩
    WellFormed (tableParser [optionsWire]) optionsWire ∧
      optionsWire.body.length = 51 ∧
      ∃ t, runEvents (step plainLibrary (tableParser [optionsWire])) (start [optionsWire.bytes])
          [turn, turn] = some t ∧
        t.log.map Dispatched.req = [optionsWire.head, optionsWire.head] ∧
        ¬Framed [optionsWire] t := by
  intro turn
  refine ⟨tableParser_wellFormed (by decide) (List.mem_singleton_self _), rfl, _, rfl, rfl,
    fun hframed => ?_⟩
  have hlength := congrArg List.length hframed.log
  exact absurd hlength (by decide)

end HermesFlow.Http
