import HermesFlow.Numeral
import HermesFlow.Types
import Mathlib.Tactic.Linarith

/-!
# Streaming a response body into a sink

The body of a response comes in the bytes that were read along with the header
and in the reads that follow; each is written to the sink before the next read.
The peer and the sink are a list of turns, a read and the write behind it; a
transfer that has used up the list is waiting in a read.

Read headers announce at most 2 GiB (`MAX_HTTP_BODY_SIZE`), so the `size_t`
counters do not wrap.
-/

namespace HermesFlow.Net.Http

open Numeral

/-- `TRANSFER_CHUNK_SIZE`. -/
def TRANSFER_CHUNK_SIZE : ℕ := 128 * 1024

/-- How `async_read_some` completes; its bytes fit in the buffer. -/
inductive ReadResult where
  | data (bytes : List UInt8) (fits : bytes.length ≤ TRANSFER_CHUNK_SIZE)
  | eof
  | error (message : String)

/-- How `async_write` completes: with all bytes in the sink, or after some of them. -/
inductive WriteResult where
  | ok
  | error (message : String) (accepted : ℕ)

/-- A read of the transfer loop and the write of what it read. -/
structure Turn where
  /-- What the peer sends. -/
  read : ReadResult
  /-- What the sink takes. -/
  write : WriteResult

/-- What happened on the two sides of a transfer. -/
structure Wire where
  /-- The bytes of the body received so far. -/
  received : List UInt8
  /-- The bytes the sink accepted. -/
  sink : List UInt8
  /-- Some write failed. -/
  writeFailed : Bool
  /-- For each read that was started, how many bytes the sink had then. -/
  reads : List ℕ

/-- A read is started. -/
def Wire.startRead (w : Wire) : Wire := { w with reads := w.reads ++ [w.sink.length] }

/-- A read hands over bytes. -/
def Wire.receive (w : Wire) (bytes : List UInt8) : Wire :=
  { w with received := w.received ++ bytes }

/-- The write of bytes completes; the amount and the error are what it reports. -/
def Wire.write (w : Wire) (bytes : List UInt8) : WriteResult → Wire
  | .ok => { w with sink := w.sink ++ bytes }
  | .error _ accepted => { w with sink := w.sink ++ bytes.take accepted, writeFailed := true }

/-- `ErrorInfo::From(AppError::NetworkError, message)`. -/
def networkError (message : String) : ErrorInfo := ⟨.networkError, message⟩

/-- `get_content_length`, of the text of the header field; nothing when `stoull`
throws. -/
def getContentLength : Option String → Option ℕ
  | some text => stoull text.toList
  | none => some 0

/-- `drain_residual_buffer`. -/
def drainResidualBuffer (buffer : List UInt8) (write : WriteResult) (w : Wire) :
    Except ErrorInfo ℕ × Wire :=
  if buffer.length > 0 then
    match write with
    | .error message _ => (.error (networkError ("Drain error: " ++ message)), w.write buffer write)
    | .ok => (.ok buffer.length, w.write buffer write)
  else (.ok 0, w)

/-- `transfer_stream_data`, from the head of its loop; no result while a read is
pending. -/
def transferStreamData (remainingSize : ℕ) :
    List Turn → ℕ → Wire → Option (Except ErrorInfo ℕ) × Wire
  | [], totalWritten, w =>
    if remainingSize = 0 ∨ totalWritten < remainingSize then (none, w.startRead)
    else (some (.ok totalWritten), w)
  | turn :: turns, totalWritten, w =>
    if remainingSize = 0 ∨ totalWritten < remainingSize then
      match turn.read with
      | .eof => (some (.ok totalWritten), w.startRead)
      | .error message => (some (.error (networkError ("Read error: " ++ message))), w.startRead)
      | .data bytes _ =>
        if bytes.length = 0 then (some (.ok totalWritten), w.startRead)
        else
          let w := (w.startRead.receive bytes).write bytes turn.write
          match turn.write with
          | .error message _ => (some (.error (networkError ("Write error: " ++ message))), w)
          | .ok => transferStreamData remainingSize turns (totalWritten + bytes.length) w
    else (some (.ok totalWritten), w)

/-- The last check of `stream_to_sink`. -/
def checkTotal (expectedSize totalWritten : ℕ) : Except ErrorInfo Unit :=
  if expectedSize > 0 ∧ totalWritten ≠ expectedSize then
    .error (networkError ("Download truncated. Expected: " ++ toString expectedSize ++
      ", Got: " ++ toString totalWritten))
  else .ok ()

/-- `stream_to_sink`. -/
def streamToSink (buffer : List UInt8) (drain : WriteResult) (turns : List Turn)
    (expectedSize : ℕ) : Option (Except ErrorInfo Unit) × Wire :=
  match drainResidualBuffer buffer drain ⟨buffer, [], false, []⟩ with
  | (.error e, w) => (some (.error e), w)
  | (.ok totalWritten, w) =>
    if expectedSize = 0 ∨ totalWritten < expectedSize then
      let remaining := if expectedSize > 0 then expectedSize - totalWritten else 0
      match transferStreamData remaining turns 0 w with
      | (none, w) => (none, w)
      | (some (.error e), w) => (some (.error e), w)
      | (some (.ok written), w) => (some (checkTotal expectedSize (totalWritten + written)), w)
    else (some (checkTotal expectedSize totalWritten), w)

/-- The end of `execute`, behind the header; nothing when `get_content_length` throws. -/
def streamBody (contentLength : Option String) (buffer : List UInt8) (drain : WriteResult)
    (turns : List Turn) : Option (Option (Except ErrorInfo Unit) × Wire) :=
  (getContentLength contentLength).map (streamToSink buffer drain turns)

/-- A transfer of a body of `n` bytes is exact: it succeeds when it received `n`
bytes and no write failed, and then the sink has these bytes; it starts no read
once it has written `n` bytes; and it ends when the peer takes `n` turns. -/
structure ExactTransfer (n : ℕ) (turns : List Turn) (run : Option (Except ErrorInfo Unit) × Wire) :
    Prop where
  /-- It succeeds exactly when all bytes were received and written. -/
  succeeds_iff : run.1 = some (.ok ()) ↔ run.2.received.length = n ∧ run.2.writeFailed = false
  /-- The sink then has what was received. -/
  delivers : run.1 = some (.ok ()) → run.2.sink = run.2.received
  /-- No read is started after the last byte. -/
  reads_short : ∀ k ∈ run.2.reads, k < n
  /-- It ends when the peer has taken its turns. -/
  returns : n ≤ turns.length → run.1 ≠ none

/-- The sink has what was received, and every read was started before it had `n` bytes. -/
structure Wire.Clean (n : ℕ) (w : Wire) : Prop where
  /-- The sink has what was received. -/
  sink_eq : w.sink = w.received
  /-- No write has failed. -/
  noFailure : w.writeFailed = false
  /-- Every read was started before the last byte. -/
  reads_short : ∀ k ∈ w.reads, k < n

/-- Starting a read keeps the wire clean while the sink is short of `n` bytes. -/
theorem Wire.Clean.startRead {n : ℕ} {w : Wire} (h : w.Clean n) (hn : w.sink.length < n) :
    w.startRead.Clean n where
  sink_eq := h.sink_eq
  noFailure := h.noFailure
  reads_short := by
    intro k hk
    rcases List.mem_append.mp hk with hk | hk
    · exact h.reads_short k hk
    · rw [List.mem_singleton.mp hk]
      exact hn

/-- Bytes that are received and written keep the wire clean. -/
theorem Wire.Clean.receive_write {n : ℕ} {w : Wire} (h : w.Clean n) (bytes : List UInt8) :
    ((w.receive bytes).write bytes .ok).Clean n where
  sink_eq := by simp only [Wire.write, Wire.receive, h.sink_eq]
  noFailure := h.noFailure
  reads_short := h.reads_short

/-- How the transfer loop leaves the wire when `n` bytes are to be written, of
which `written` were there before the loop. -/
structure Transferred (n written : ℕ) (run : Option (Except ErrorInfo ℕ) × Wire) : Prop where
  /-- Until it ends, bytes are missing. -/
  pending : run.1 = none → run.2.received.length < n
  /-- It ends well only with all bytes in the sink. -/
  finished : ∀ total, run.1 = some (.ok total) →
    run.2.Clean n ∧ run.2.sink.length = written + total
  /-- It fails only if a write failed or bytes are missing. -/
  failed : ∀ e, run.1 = some (.error e) → run.2.writeFailed = true ∨ run.2.received.length < n
  /-- Every read was started before the last byte. -/
  reads_short : ∀ k ∈ run.2.reads, k < n

/-- An end of the loop with a clean wire. -/
theorem transferred_of_clean {n written total : ℕ} {w : Wire} (h : w.Clean n)
    (hw : w.sink.length = written + total) :
    Transferred n written (some (.ok total), w) where
  pending hp := nomatch hp
  finished t ht := by
    obtain rfl : total = t := by simpa using ht
    exact ⟨h, hw⟩
  failed _ he := by simp at he
  reads_short := h.reads_short

/-- The transfer loop, from any clean wire. -/
theorem transferStreamData_spec {n written remaining : ℕ} (hr : 0 < remaining)
    (hn : written + remaining = n) :
    ∀ (turns : List Turn) (total : ℕ) (w : Wire), w.Clean n → w.sink.length = written + total →
      Transferred n written (transferStreamData remaining turns total w) := by
  intro turns
  induction turns with
  | nil =>
    intro total w hc hw
    by_cases ht : remaining = 0 ∨ total < remaining
    · have hs : w.sink.length < n := by omega
      rw [transferStreamData, if_pos ht]
      exact
        { pending := fun _ => by
            have hlen := congrArg List.length hc.sink_eq
            exact hlen ▸ hs
          finished := fun _ h => nomatch h
          failed := fun _ h => nomatch h
          reads_short := (hc.startRead hs).reads_short }
    · rw [transferStreamData, if_neg ht]
      exact transferred_of_clean hc hw
  | cons turn turns ih =>
    intro total w hc hw
    by_cases ht : remaining = 0 ∨ total < remaining
    · have hs : w.sink.length < n := by omega
      have hstart := hc.startRead hs
      rw [transferStreamData, if_pos ht]
      cases hread : turn.read with
      | eof => exact transferred_of_clean hstart hw
      | error message =>
        exact
          { pending := fun h => nomatch h
            finished := fun _ h => nomatch h
            failed := fun _ _ => .inr (by rw [← hstart.sink_eq]; exact hs)
            reads_short := hstart.reads_short }
      | data bytes fits =>
        dsimp only
        by_cases hb : bytes.length = 0
        · rw [if_pos hb]
          exact transferred_of_clean hstart hw
        · rw [if_neg hb]
          cases hwrite : turn.write with
          | error message accepted =>
            exact
              { pending := fun h => nomatch h
                finished := fun _ h => nomatch h
                failed := fun _ _ => .inl rfl
                reads_short := hstart.reads_short }
          | ok =>
            refine ih _ _ (hstart.receive_write bytes) ?_
            simp only [Wire.write, Wire.receive, Wire.startRead, List.length_append]
            omega
    · rw [transferStreamData, if_neg ht]
      exact transferred_of_clean hc hw

/-- The transfer loop ends when there are as many turns as bytes to come: each
turn ends it or brings a byte. -/
theorem transferStreamData_returns {remaining : ℕ} (hr : 0 < remaining) :
    ∀ (turns : List Turn) (total : ℕ) (w : Wire), remaining ≤ total + turns.length →
      (transferStreamData remaining turns total w).1 ≠ none := by
  intro turns
  induction turns with
  | nil =>
    intro total w h
    rw [List.length_nil] at h
    rw [transferStreamData, if_neg (by omega)]
    nofun
  | cons turn turns ih =>
    intro total w h
    rw [List.length_cons] at h
    rw [transferStreamData]
    split
    · cases turn.read with
      | eof => nofun
      | error message => nofun
      | data bytes fits =>
        dsimp only
        by_cases hb : bytes.length = 0
        · rw [if_pos hb]
          nofun
        · rw [if_neg hb]
          cases turn.write with
          | error message accepted => nofun
          | ok => exact ih _ _ (by omega)
    · nofun

/-- The wire before the drain, with the bytes that came along with the header. -/
theorem clean_residual (n : ℕ) (buffer : List UInt8) :
    ((⟨buffer, [], false, []⟩ : Wire).write buffer .ok).Clean n :=
  ⟨rfl, rfl, nofun⟩

/-- A drain that does not fail writes the bytes that came along with the header. -/
theorem drainResidualBuffer_eq {buffer : List UInt8} {drain : WriteResult}
    (h : buffer = [] ∨ drain = .ok) :
    drainResidualBuffer buffer drain ⟨buffer, [], false, []⟩ =
      (.ok buffer.length, (⟨buffer, [], false, []⟩ : Wire).write buffer .ok) := by
  unfold drainResidualBuffer
  rcases h with rfl | rfl
  · rfl
  · cases buffer with
    | nil => rfl
    | cons byte bytes => rfl

/-- A drain that fails ends the transfer. -/
theorem streamToSink_drainError {buffer : List UInt8} {drain : WriteResult}
    (h : ¬ (buffer = [] ∨ drain = .ok)) (turns : List Turn) (n : ℕ) :
    ∃ e w, streamToSink buffer drain turns n = (some (.error e), w) ∧
      w.writeFailed = true ∧ w.reads = [] := by
  obtain ⟨hb, hd⟩ := not_or.mp h
  cases drain with
  | ok => exact absurd rfl hd
  | error message accepted =>
    have hlen : buffer.length > 0 := List.length_pos_of_ne_nil hb
    rw [streamToSink, drainResidualBuffer, if_pos hlen]
    exact ⟨_, _, rfl, rfl, rfl⟩

/-- The last check passes exactly the announced amount. -/
theorem checkTotal_eq_ok {n total : ℕ} (hn : 0 < n) : checkTotal n total = .ok () ↔ total = n := by
  unfold checkTotal
  by_cases h : total = n
  · simp [h]
  · simp [h, hn]

/-- A clean end of `stream_to_sink` is exact. -/
theorem exactTransfer_of_clean {n total : ℕ} {turns : List Turn} {w : Wire} (hn : 0 < n)
    (h : w.Clean n) (hw : w.sink.length = total) :
    ExactTransfer n turns (some (checkTotal n total), w) where
  succeeds_iff := by
    rw [Option.some_inj, checkTotal_eq_ok hn, ← hw, h.sink_eq]
    exact ⟨fun hs => ⟨hs, h.noFailure⟩, fun hs => hs.1⟩
  delivers _ := h.sink_eq
  reads_short := h.reads_short
  returns _ := nofun

/-- An end of `stream_to_sink` with an error is exact when bytes are missing or a write failed. -/
theorem exactTransfer_of_error {n : ℕ} {turns : List Turn} {e : ErrorInfo} {w : Wire}
    (h : w.writeFailed = true ∨ w.received.length < n) (hr : ∀ k ∈ w.reads, k < n) :
    ExactTransfer n turns (some (.error e), w) where
  succeeds_iff := by
    constructor
    · nofun
    · rintro ⟨hlen, hfail⟩
      rcases h with h | h
      · simp [h] at hfail
      · exact absurd hlen (Nat.ne_of_lt h)
  delivers := nofun
  reads_short := hr
  returns _ := nofun

/-- Every transfer of an announced body that is not empty is exact. -/
theorem streamToSink_exact {n : ℕ} (hn : 0 < n) (buffer : List UInt8) (drain : WriteResult)
    (turns : List Turn) : ExactTransfer n turns (streamToSink buffer drain turns n) := by
  by_cases hd : buffer = [] ∨ drain = .ok
  · have hclean := clean_residual n buffer
    generalize hw : (⟨buffer, [], false, []⟩ : Wire).write buffer .ok = w at hclean
    have hlen : w.sink.length = buffer.length := by rw [← hw]; rfl
    rw [streamToSink, drainResidualBuffer_eq hd, hw]
    dsimp only
    by_cases hmore : n = 0 ∨ buffer.length < n
    · rw [if_pos hmore, if_pos hn]
      have hremaining : 0 < n - buffer.length := by omega
      have htotal : buffer.length + (n - buffer.length) = n := by omega
      have hspec := transferStreamData_spec hremaining htotal turns 0 w hclean hlen
      have hret := transferStreamData_returns hremaining turns 0 w
      generalize transferStreamData (n - buffer.length) turns 0 w = run at hspec hret
      obtain ⟨result, w'⟩ := run
      match result with
      | none =>
        exact
          { succeeds_iff := ⟨nofun, fun h => absurd h.1 (Nat.ne_of_lt (hspec.pending rfl))⟩
            delivers := nofun
            reads_short := hspec.reads_short
            returns := fun h => absurd rfl (hret (by omega)) }
      | some (.error e) => exact exactTransfer_of_error (hspec.failed e rfl) hspec.reads_short
      | some (.ok written) =>
        obtain ⟨hc, hs⟩ := hspec.finished written rfl
        exact exactTransfer_of_clean hn hc hs
    · rw [if_neg hmore]
      exact exactTransfer_of_clean hn hclean hlen
  · obtain ⟨e, w, hrun, hfail, hreads⟩ := streamToSink_drainError hd turns n
    rw [hrun]
    exact exactTransfer_of_error (.inl hfail) (by rw [hreads]; nofun)

/-- The loop keeps the reads that were started before it. -/
theorem transferStreamData_reads {k : ℕ} (remaining : ℕ) (turns : List Turn) (total : ℕ) (w : Wire)
    (hk : k ∈ w.reads) : k ∈ (transferStreamData remaining turns total w).2.reads := by
  have hstart (w : Wire) (hk : k ∈ w.reads) : k ∈ w.startRead.reads :=
    List.mem_append_left _ hk
  induction turns generalizing total w with
  | nil =>
    rw [transferStreamData]
    split
    · exact hstart w hk
    · exact hk
  | cons turn turns ih =>
    rw [transferStreamData]
    split
    · cases turn.read with
      | eof => exact hstart w hk
      | error message => exact hstart w hk
      | data bytes fits =>
        dsimp only
        split
        · exact hstart w hk
        · cases turn.write with
          | error message accepted => exact hstart w hk
          | ok => exact ih _ _ (hstart w hk)
    · exact hk

/-- Without an amount to come the loop starts a read at once. -/
theorem transferStreamData_zero (turns : List Turn) (w : Wire) :
    ∃ k, k ∈ (transferStreamData 0 turns 0 w).2.reads := by
  have hstart : w.sink.length ∈ w.startRead.reads :=
    List.mem_append_right _ (List.mem_singleton_self _)
  refine ⟨w.sink.length, ?_⟩
  cases turns with
  | nil => exact hstart
  | cons turn turns =>
    rw [transferStreamData, if_pos (.inl rfl)]
    cases turn.read with
    | eof => exact hstart
    | error message => exact hstart
    | data bytes fits =>
      dsimp only
      split
      · exact hstart
      · cases turn.write with
        | error message accepted => exact hstart
        | ok => exact transferStreamData_reads 0 turns _ _ hstart

/-- With the amount 0 a drain that does not fail is followed by a read. -/
theorem streamToSink_zero {buffer : List UInt8} {drain : WriteResult}
    (h : buffer = [] ∨ drain = .ok) (turns : List Turn) :
    ∃ k, k ∈ (streamToSink buffer drain turns 0).2.reads := by
  rw [streamToSink, drainResidualBuffer_eq h]
  dsimp only
  rw [if_pos (.inl rfl), if_neg (Nat.lt_irrefl 0)]
  obtain ⟨k, hk⟩ := transferStreamData_zero turns ((⟨buffer, [], false, []⟩ : Wire).write buffer .ok)
  refine ⟨k, ?_⟩
  generalize transferStreamData 0 turns 0 _ = run at hk ⊢
  obtain ⟨_ | _ | _, w⟩ := run <;> exact hk

/-- The transfer of a response with an announced length is exact unless the
length is 0: 0 also stands for a length that was not announced, so that a read
is started and the amount is not checked. -/
theorem streamBody_exact_iff {text : String} {n : ℕ} (hn : stoull text.toList = some n)
    (buffer : List UInt8) (drain : WriteResult) (turns : List Turn) :
    (∃ run, streamBody (some text) buffer drain turns = some run ∧ ExactTransfer n turns run) ↔
      n ≠ 0 ∨ ¬ (buffer = [] ∨ drain = .ok) := by
  have hbody : streamBody (some text) buffer drain turns =
      some (streamToSink buffer drain turns n) := by
    rw [streamBody, getContentLength, hn, Option.map_some]
  rw [hbody]
  constructor
  · rintro ⟨run, hrun, hexact⟩
    obtain rfl := Option.some_inj.mp hrun
    by_contra hcon
    obtain ⟨hzero, hdrain⟩ := not_or.mp hcon
    obtain rfl := not_not.mp hzero
    obtain ⟨k, hk⟩ := streamToSink_zero (not_not.mp hdrain) turns
    exact absurd (hexact.reads_short k hk) (Nat.not_lt_zero k)
  · intro h
    refine ⟨_, rfl, ?_⟩
    by_cases hzero : n = 0
    · subst hzero
      obtain ⟨e, w, hrun, hfail, hreads⟩ :=
        streamToSink_drainError (h.resolve_left fun hne => hne rfl) turns 0
      rw [hrun]
      exact exactTransfer_of_error (.inl hfail) (by rw [hreads]; nofun)
    · exact streamToSink_exact (Nat.pos_of_ne_zero hzero) buffer drain turns

/-- A body of three bytes, one of them along with the header. -/
theorem streamBody_exact_three :
    ∃ run, streamBody (some "3") [7] .ok [⟨.data [8, 9] (by decide), .ok⟩] = some run ∧
      ExactTransfer 3 [⟨.data [8, 9] (by decide), .ok⟩] run :=
  (streamBody_exact_iff (by decide) [7] .ok [⟨.data [8, 9] (by decide), .ok⟩]).mpr
    (.inl (by decide))

/-- A response announces an empty body and the peer sends a byte: the byte is
written and the transfer succeeds. -/
theorem empty_body_overrun :
    stoull "0".toList = some 0 ∧
      ∃ run, streamBody (some "0") [] .ok [⟨.data [7] (by decide), .ok⟩, ⟨.eof, .ok⟩] = some run ∧
        run.1 = some (.ok ()) ∧ run.2.sink = [7] ∧
        ¬ ExactTransfer 0 [⟨.data [7] (by decide), .ok⟩, ⟨.eof, .ok⟩] run := by
  refine ⟨by decide, _, rfl, rfl, rfl, fun h => ?_⟩
  exact absurd (h.succeeds_iff.mp rfl).1 (by decide)

end HermesFlow.Net.Http
