import HermesFlow.FrameStream

/-!
# The counters of a streamer

The handler of a send that had no error adds the bytes it has transferred to `bytes_sent_`
and one to `packets_sent_`. Sends are started by calls of the loop and their handlers run in
any order, so the counters lag behind the frames; at all times they agree with each other and
with the sends that are over.
-/

namespace HermesFlow.Rtp.Ring

open Audio Crypto EventRun

/-- A streamer, its sends and its counters. -/
structure Metered where
  /-- The streamer and its sends. -/
  ring : State
  /-- `bytes_sent_`. -/
  bytesSent : UInt64
  /-- `packets_sent_`. -/
  packetsSent : UInt64

/-- A step of the streamer, or the handler of a send. -/
inductive MeteredEvent where
  /-- A step that runs no handler. -/
  | ring (e : Event)
  /-- A handler, with or without an error; a datagram is transferred whole. -/
  | handler (i : ℕ) (failed : Bool)

/-- The constructor, with both counters at 0. -/
def Metered.initial (p : RTPPacketizer) (ency : Option IEncryptionStrategy) : Metered :=
  ⟨Ring.initial p ency, 0, 0⟩

/-- The handler of `async_send_to`: its `fetch_add`s. -/
def Metered.count (m : Metered) (bytesTransferred : ℕ) (failed : Bool) : Metered :=
  if failed = true then m
  else { m with
    bytesSent := m.bytesSent + UInt64.ofNat bytesTransferred
    packetsSent := m.packetsSent + 1 }

/-- The step of one event. -/
def meteredStep (m : Metered) : MeteredEvent → Option Metered
  | .ring (.complete _) => none
  | .ring e => (step m.ring e).map fun ring => { m with ring := ring }
  | .handler i failed =>
    (m.ring.sends[i]?).bind fun send =>
      (step m.ring (.complete i)).map fun ring =>
        { m with ring := ring }.count send.packetSize failed

/-- The event of the streamer in an event. -/
def MeteredEvent.toEvent : MeteredEvent → Event
  | .ring e => e
  | .handler i _ => .complete i

/-- A handler without an error. -/
def MeteredEvent.delivers : MeteredEvent → Bool
  | .handler _ failed => !failed
  | .ring _ => false

/-- A handler with an error. -/
def MeteredEvent.fails : MeteredEvent → Bool
  | .handler _ failed => failed
  | .ring _ => false

/-- The counters of a streamer whose sends have been over so many times. -/
structure Counted (p : RTPPacketizer) (ency : Option IEncryptionStrategy) (delivered failed : ℕ)
    (log : List (ℕ × ℕ)) (m : Metered) : Prop where
  /-- The sends are those of the frames taken. -/
  stream : ∃ frames, Streamed p ency frames m.ring
  /-- Every datagram has the size of a packet with one frame. -/
  size : ∀ send ∈ m.ring.sends, send.packetSize = RTP_HEADER_SIZE + SAMPLES_PER_FRAME
  /-- The bytes are those of the packets. -/
  bytes : m.bytesSent = 172 * m.packetsSent
  /-- The packets are the sends that have been over. -/
  packets : m.packetsSent = UInt64.ofNat delivered
  /-- Every send started is outstanding or over. -/
  conserved : log.length = m.ring.sends.length + delivered + failed

/-- The sends that an event starts. -/
def meteredStarts (m : Metered) (e : MeteredEvent) : List (ℕ × ℕ) := startedBy m.ring e.toEvent

section Step

variable {p : RTPPacketizer} {ency : Option IEncryptionStrategy} {delivered failed : ℕ}
  {log : List (ℕ × ℕ)} {m m' : Metered}

/-- A step of the streamer starts sends and finishes none. -/
theorem Counted.ring (h : Counted p ency delivered failed log m) (hspan : KeepsSpan ency)
    {e : Event} (hframe : FrameSized e) (hstep : meteredStep m (.ring e) = some m') :
    Counted p ency delivered failed (log ++ startedBy m.ring e) m' := by
  obtain ⟨frames, hstream⟩ := h.stream
  cases e with
  | complete i => cases hstep
  | sendFrame pcmFrame lost =>
    cases hstep
    refine ⟨⟨_, hstream.step hspan hframe rfl⟩, fun send hsend => ?_, h.bytes, h.packets, ?_⟩
    · rcases List.mem_append.mp hsend with hold | hnew
      · exact h.size send hold
      · obtain ⟨started, hstarted, rfl⟩ := List.mem_map.mp hnew
        by_cases hnone : m.ring.streamer.clients = []
        · rw [RTPStreamer.sendFrame_of_no_client hnone] at hstarted
          cases hstarted
        · rw [sendFrame_eq (hstream.encryptor ▸ hspan) hnone (hstream.slots _) hframe] at hstarted
          obtain ⟨client, -, rfl⟩ := List.mem_map.mp hstarted
          rfl
    · have hconserved := h.conserved
      dsimp only [startedBy]
      rw [List.length_append, List.length_append, List.length_map, List.length_map]
      omega
  | addClient | removeClient =>
    cases hstep
    refine ⟨⟨_, hstream.step hspan hframe rfl⟩, h.size, h.bytes, h.packets, ?_⟩
    rw [startedBy, List.append_nil]
    exact h.conserved
  | transmit i =>
    obtain ⟨ring, hring, rfl⟩ := Option.map_eq_some_iff.mp hstep
    have hnext := hstream.step hspan hframe hring
    obtain ⟨send, -, rfl⟩ := Option.map_eq_some_iff.mp hring
    refine ⟨⟨_, hnext⟩, h.size, h.bytes, h.packets, ?_⟩
    rw [startedBy, List.append_nil]
    exact h.conserved

/-- A handler finishes one send, and counts it unless it has an error. -/
theorem Counted.handler (h : Counted p ency delivered failed log m) (hspan : KeepsSpan ency)
    {i : ℕ} {fault : Bool} (hstep : meteredStep m (.handler i fault) = some m') :
    Counted p ency (delivered + (!fault).toNat) (failed + fault.toNat) log m' := by
  obtain ⟨frames, hstream⟩ := h.stream
  obtain ⟨send, hsend, hstep⟩ := Option.bind_eq_some_iff.mp hstep
  obtain ⟨ring, hring, rfl⟩ := Option.map_eq_some_iff.mp hstep
  have hnext := hstream.step hspan (show FrameSized (.complete i) from trivial) hring
  obtain ⟨_, -, rfl⟩ := Option.map_eq_some_iff.mp hring
  have hlt := (List.getElem?_eq_some_iff.mp hsend).1
  have hleft := List.length_eraseIdx_add_one hlt
  have hsize := h.size send (List.mem_of_getElem? hsend)
  have hconserved := h.conserved
  have hsizes : ∀ other ∈ m.ring.sends.eraseIdx i,
      other.packetSize = RTP_HEADER_SIZE + SAMPLES_PER_FRAME :=
    fun other hother => h.size other (List.mem_of_mem_eraseIdx hother)
  cases fault with
  | true =>
    refine ⟨⟨_, hnext⟩, hsizes, h.bytes, h.packets, ?_⟩
    change log.length = (m.ring.sends.eraseIdx i).length + _ + _
    simp only [Bool.not_true, Bool.toNat_false, Bool.toNat_true]
    omega
  | false =>
    refine ⟨⟨_, hnext⟩, hsizes, ?_, ?_, ?_⟩
    · change m.bytesSent + UInt64.ofNat send.packetSize = 172 * (m.packetsSent + 1)
      rw [hsize, h.bytes, UInt64.mul_add]
      rfl
    · change m.packetsSent + 1 = _
      rw [h.packets, Bool.not_false, Bool.toNat_true, UInt64.ofNat_add]
      rfl
    · change log.length = (m.ring.sends.eraseIdx i).length + _ + _
      simp only [Bool.not_false, Bool.toNat_false, Bool.toNat_true]
      omega

/-- A run counts the handlers that run in it. -/
theorem Counted.run (h : Counted p ency delivered failed log m) (hspan : KeepsSpan ency)
    {es : List MeteredEvent} (hframes : ∀ e ∈ es, FrameSized e.toEvent)
    (hrun : runEvents meteredStep m es = some m') :
    Counted p ency (delivered + es.countP (·.delivers)) (failed + es.countP (·.fails))
      (log ++ runLog meteredStep meteredStarts m es) m' := by
  induction es generalizing m delivered failed log with
  | nil =>
    cases hrun
    rw [runLog, List.append_nil]
    exact h
  | cons e es ih =>
    obtain ⟨next, hstep, hrest⟩ := runEvents_cons_iff.mp hrun
    obtain ⟨hframe, hrestFrames⟩ := List.forall_mem_cons.mp hframes
    rw [runLog, hstep, Option.map_some, Option.getD_some, ← List.append_assoc, List.countP_cons,
      List.countP_cons]
    cases e with
    | ring e =>
      have hnext := ih (h.ring hspan hframe hstep) hrestFrames hrest
      rwa [MeteredEvent.delivers, MeteredEvent.fails, if_neg Bool.false_ne_true, Nat.add_zero, Nat.add_zero]
    | handler i fault =>
      have hnext := ih (h.handler hspan hstep) hrestFrames hrest
      have hstarts : meteredStarts m (.handler i fault) = [] := rfl
      rw [hstarts, List.append_nil]
      convert hnext using 1
      · rw [MeteredEvent.delivers, Nat.add_assoc]
        cases fault <;> simp [Nat.add_comm]
      · rw [MeteredEvent.fails, Nat.add_assoc]
        cases fault <;> simp [Nat.add_comm]

/-- Nothing is counted at first. -/
theorem counted_initial (p : RTPPacketizer) (ency : Option IEncryptionStrategy) :
    Counted p ency 0 0 [] (Metered.initial p ency) where
  stream := ⟨[], streamed_initial p ency⟩
  size := fun _ hsend => by cases hsend
  bytes := rfl
  packets := rfl
  conserved := rfl

end Step

/-- In every run `bytes_sent_` is 172 bytes for each packet counted in `packets_sent_`, that is
the number of handlers without an error, and every send that was started is either outstanding
or over, with one handler or the other. -/
theorem counters_conserved {p : RTPPacketizer} {ency : Option IEncryptionStrategy}
    (hspan : KeepsSpan ency) {es : List MeteredEvent} {t : Metered}
    (hframes : ∀ e ∈ es, FrameSized e.toEvent)
    (hrun : runEvents meteredStep (Metered.initial p ency) es = some t) :
    t.bytesSent = 172 * t.packetsSent ∧
      t.packetsSent = UInt64.ofNat (es.countP (·.delivers)) ∧
      (runLog meteredStep meteredStarts (Metered.initial p ency) es).length =
        t.ring.sends.length + es.countP (·.delivers) + es.countP (·.fails) := by
  have hcounted := (counted_initial p ency).run hspan hframes hrun
  rw [Nat.zero_add, Nat.zero_add] at hcounted
  exact ⟨hcounted.bytes, hcounted.packets, hcounted.conserved⟩

/-- Two clients, and a handler of each kind, the second send first. -/
theorem counters_conserved_two_clients :
    ∃ t, runEvents meteredStep (Metered.initial (streamPacketizer 5 65535 9) none)
        [.ring (.addClient 7 false), .ring (.addClient 8 false),
          .ring (.sendFrame (List.replicate FRAME_SIZE_BYTES 0) fun _ => false), .handler 1 false,
          .ring (.sendFrame (List.replicate FRAME_SIZE_BYTES 1) fun _ => false), .handler 0 true] =
        some t ∧
      t.bytesSent = 172 * t.packetsSent := by
  have hsome : (runEvents meteredStep (Metered.initial (streamPacketizer 5 65535 9) none)
      [.ring (.addClient 7 false), .ring (.addClient 8 false),
        .ring (.sendFrame (List.replicate FRAME_SIZE_BYTES 0) fun _ => false), .handler 1 false,
        .ring (.sendFrame (List.replicate FRAME_SIZE_BYTES 1) fun _ => false),
        .handler 0 true]).isSome = true := by decide +kernel
  obtain ⟨t, ht⟩ := Option.isSome_iff_exists.mp hsome
  refine ⟨t, ht, (counters_conserved keepsSpan_none ?_ ht).1⟩
  simp only [List.forall_mem_cons, MeteredEvent.toEvent, FrameSized, List.length_replicate,
    List.not_mem_nil, false_implies, implies_true, and_self]

end HermesFlow.Rtp.Ring
