import HermesFlow.CodecStrategy
import HermesFlow.EventRun
import HermesFlow.RTPPacketizer

/-!
# The ring of packet buffers

`send_frame` assembles a packet in the next of sixteen slots and starts one
asynchronous send of that slot for each client. A send reads its bytes some
time before its handler runs, in any order with other sends and other calls of
`send_frame`. The numbers drawn for the simulated loss are events' choices.
-/

namespace HermesFlow.Rtp

open Audio Crypto EventRun

/-- The bytes of the server's header. -/
def RTP_HEADER_SIZE : ℕ := 12
/-- The number of slots. -/
def RING_BUFFER_SIZE : ℕ := 16

/-- What a call of `packet_to_rtp` leaves and returns. -/
structure Assembled where
  /-- The packetizer after it. -/
  packetizer : RTPPacketizer
  /-- The buffer it wrote to. -/
  outBuffer : List UInt8
  /-- The size returned. -/
  size : ℕ

/-- `packet_to_rtp`: the frame is encoded behind the header, encrypted there,
and the packet is assembled over it. -/
def packetToRtp (pcmFrame : List UInt8) (packetizer : RTPPacketizer)
    (encryptor : Option IEncryptionStrategy) (outBuffer : List UInt8) : Assembled :=
  if outBuffer.length < RTP_HEADER_SIZE then ⟨packetizer, outBuffer, 0⟩
  else
    let encoded := ALawCodecStrategy.encode pcmFrame (outBuffer.drop RTP_HEADER_SIZE)
    let outBuffer := outBuffer.take RTP_HEADER_SIZE ++ encoded.1
    if encoded.2 = 0 then ⟨packetizer, outBuffer, 0⟩
    else
      let packetized := packetizer.packetize (encoded.1.take encoded.2) outBuffer encryptor
      -- a packet that is refused leaves the encrypted payload in the buffer
      ⟨packetized.packetizer,
        if packetized.size = 0 then
          outBuffer.take RTP_HEADER_SIZE ++ packetized.payload ++ encoded.1.drop encoded.2
        else packetized.outBuffer,
        packetized.size⟩

/-- `RtpClientTarget`. -/
structure RtpClientTarget where
  /-- The address and port. -/
  endpoint : ℕ
  /-- `packet_loss_ratio > 0.0`. -/
  lossy : Bool

/-- `RTPStreamer`, as far as `send_frame` uses it. -/
structure RTPStreamer where
  /-- `packet_ring_`, by slot. -/
  packetRing : ℕ → List UInt8
  /-- `ring_index_`. -/
  ringIndex : ℕ
  /-- The packetizer. -/
  packetizer : RTPPacketizer
  /-- `encryptor_`. -/
  encryptor : Option IEncryptionStrategy
  /-- `clients_`. -/
  clients : List RtpClientTarget

/-- The arguments of `async_send_to`: `asio::buffer(*packet_owner, packet_size)`
and the endpoint. -/
structure AsyncSend where
  /-- The slot of the ring. -/
  slot : ℕ
  /-- The size of the packet. -/
  packetSize : ℕ
  /-- The endpoint it goes to. -/
  endpoint : ℕ

namespace RTPStreamer

/-- The constructor, and `setup_security` when there is an encryptor. -/
def create (packetizer : RTPPacketizer) (encryptor : Option IEncryptionStrategy) : RTPStreamer where
  packetRing := fun _ => List.replicate (RTP_HEADER_SIZE + FRAME_SIZE_BYTES) 0
  ringIndex := 0
  packetizer := packetizer
  encryptor := encryptor
  clients := []

/-- `add_client`, with the endpoint resolved. -/
def addClient (s : RTPStreamer) (endpoint : ℕ) (lossy : Bool) : RTPStreamer :=
  if s.clients.any (·.endpoint == endpoint) then s
  else { s with clients := s.clients ++ [⟨endpoint, lossy⟩] }

/-- `remove_client`, with the endpoint resolved. -/
def removeClient (s : RTPStreamer) (endpoint : ℕ) : RTPStreamer :=
  { s with clients := s.clients.filter (·.endpoint != endpoint) }

/-- `send_frame`: the streamer after the call and the sends started. `lost` says
for each client whether the number drawn is below its ratio. -/
def sendFrame (s : RTPStreamer) (pcmFrame : List UInt8) (lost : ℕ → Bool) :
    RTPStreamer × List AsyncSend :=
  if s.clients = [] then (s, [])
  else
    let slot := s.ringIndex
    let assembled := packetToRtp pcmFrame s.packetizer s.encryptor (s.packetRing slot)
    let s := { s with
      ringIndex := (slot + 1) % RING_BUFFER_SIZE
      packetRing := Function.update s.packetRing slot assembled.outBuffer
      packetizer := assembled.packetizer }
    if assembled.size = 0 then (s, [])
    else
      (s, (s.clients.filter fun client => !(client.lossy && lost client.endpoint)).map fun client =>
        ⟨slot, assembled.size, client.endpoint⟩)

/-- A call of `send_frame` encodes its frame into the slot it takes. -/
def Writes (s : RTPStreamer) (pcmFrame : List UInt8) : Prop :=
  s.clients ≠ [] ∧ RTP_HEADER_SIZE ≤ (s.packetRing s.ringIndex).length ∧
    (ALawCodecStrategy.encode pcmFrame
      ((s.packetRing s.ringIndex).drop RTP_HEADER_SIZE)).2 ≠ 0

instance (s : RTPStreamer) (pcmFrame : List UInt8) : Decidable (s.Writes pcmFrame) :=
  inferInstanceAs (Decidable (_ ∧ _))

/-- Adding a client takes no slot. -/
@[simp] theorem ringIndex_addClient (s : RTPStreamer) (endpoint : ℕ) (lossy : Bool) :
    (s.addClient endpoint lossy).ringIndex = s.ringIndex := by
  unfold addClient
  split <;> rfl

/-- Adding a client rewrites no slot. -/
@[simp] theorem packetRing_addClient (s : RTPStreamer) (endpoint : ℕ) (lossy : Bool) :
    (s.addClient endpoint lossy).packetRing = s.packetRing := by
  unfold addClient
  split <;> rfl

section SendFrame

variable {s : RTPStreamer} {pcmFrame : List UInt8} {lost : ℕ → Bool}

/-- Without clients a frame changes nothing. -/
theorem sendFrame_of_no_client (h : s.clients = []) : s.sendFrame pcmFrame lost = (s, []) :=
  if_pos h

/-- A call that has a client takes the slot. -/
theorem ringIndex_sendFrame (h : s.clients ≠ []) :
    (s.sendFrame pcmFrame lost).1.ringIndex = (s.ringIndex + 1) % RING_BUFFER_SIZE := by
  unfold sendFrame
  rw [if_neg h]
  dsimp only
  split <;> rfl

/-- A frame rewrites one slot, with its packet. -/
theorem packetRing_sendFrame (h : s.clients ≠ []) :
    (s.sendFrame pcmFrame lost).1.packetRing =
      Function.update s.packetRing s.ringIndex
        (packetToRtp pcmFrame s.packetizer s.encryptor (s.packetRing s.ringIndex)).outBuffer := by
  unfold sendFrame
  rw [if_neg h]
  dsimp only
  split <;> rfl

/-- Only the slot taken is written. -/
theorem packetRing_sendFrame_of_ne {slot : ℕ} (h : slot ≠ s.ringIndex) :
    (s.sendFrame pcmFrame lost).1.packetRing slot = s.packetRing slot := by
  by_cases hclients : s.clients = []
  · rw [sendFrame_of_no_client hclients]
  · rw [packetRing_sendFrame hclients, Function.update_of_ne h]

/-- A frame that is not encoded leaves every slot as it is. -/
theorem packetRing_sendFrame_of_not_writes (h : ¬ s.Writes pcmFrame) :
    (s.sendFrame pcmFrame lost).1.packetRing = s.packetRing := by
  by_cases hclients : s.clients = []
  · rw [sendFrame_of_no_client hclients]
  · rw [packetRing_sendFrame hclients, packetToRtp]
    split
    · exact Function.update_eq_self _ _
    · rename_i hroom
      have hsize : (ALawCodecStrategy.encode pcmFrame
          ((s.packetRing s.ringIndex).drop RTP_HEADER_SIZE)).2 = 0 := by
        by_contra hsize
        exact h ⟨hclients, by omega, hsize⟩
      rw [if_pos hsize, ALawCodecStrategy.encode_of_size_zero hsize, List.take_append_drop,
        Function.update_eq_self]

/-- Every send started is one of the slot taken. -/
theorem slot_of_mem_sendFrame {send : AsyncSend} (h : send ∈ (s.sendFrame pcmFrame lost).2) :
    s.clients ≠ [] ∧ send.slot = s.ringIndex := by
  unfold sendFrame at h
  split at h
  · cases h
  · rename_i hclients
    dsimp only at h
    split at h
    · cases h
    · obtain ⟨client, -, rfl⟩ := List.mem_map.mp h
      exact ⟨hclients, rfl⟩

end SendFrame

end RTPStreamer

namespace Ring

/-- A send whose handler has not run. -/
structure Outstanding extends AsyncSend where
  /-- Which of the calls that took a slot started it. -/
  frame : ℕ
  /-- The packet built by that call. -/
  packet : List UInt8

/-- The streamer and its sends. -/
structure State where
  /-- The streamer. -/
  streamer : RTPStreamer
  /-- Calls of `send_frame` so far that took a slot. -/
  frames : ℕ
  /-- The sends that have not completed. -/
  sends : List Outstanding
  /-- The sends that have read their bytes, with the bytes. -/
  wire : List (Outstanding × List UInt8)

/-- A streamer without clients. -/
def initial (packetizer : RTPPacketizer) (encryptor : Option IEncryptionStrategy) : State :=
  ⟨.create packetizer encryptor, 0, [], []⟩

/-- A call of the streamer, or what becomes of a send. -/
inductive Event where
  | addClient (endpoint : ℕ) (lossy : Bool)
  | removeClient (endpoint : ℕ)
  | sendFrame (pcmFrame : List UInt8) (lost : ℕ → Bool)
  /-- The bytes of a send are read from its slot. -/
  | transmit (i : ℕ)
  /-- The handler of a send runs, with or without an error. -/
  | complete (i : ℕ)

/-- The step of one event; `none` when the event cannot happen now. -/
def step (s : State) : Event → Option State
  | .addClient endpoint lossy => some { s with streamer := s.streamer.addClient endpoint lossy }
  | .removeClient endpoint => some { s with streamer := s.streamer.removeClient endpoint }
  | .sendFrame pcmFrame lost =>
    let r := s.streamer.sendFrame pcmFrame lost
    some { s with
      streamer := r.1
      frames := if s.streamer.clients = [] then s.frames else s.frames + 1
      sends := s.sends ++ r.2.map fun send =>
        { send with
          frame := s.frames
          packet := (r.1.packetRing send.slot).take send.packetSize } }
  | .transmit i => (s.sends[i]?).map fun send =>
      { s with
        wire := s.wire ++ [(send, (s.streamer.packetRing send.slot).take send.packetSize)] }
  | .complete i => (s.sends[i]?).map fun _ => { s with sends := s.sends.eraseIdx i }

/-- A call that writes a slot finds no send of that slot outstanding. -/
def NotRewritten (s : State) : Event → Prop
  | .sendFrame pcmFrame _ => s.streamer.Writes pcmFrame →
      ∀ send ∈ s.sends, send.slot ≠ s.streamer.ringIndex
  | _ => True

/-- A call that writes a slot finds no send outstanding that was started a
multiple of sixteen calls before it. -/
def InTime (s : State) : Event → Prop
  | .sendFrame pcmFrame _ => s.streamer.Writes pcmFrame →
      ∀ send ∈ s.sends, ¬ RING_BUFFER_SIZE ∣ s.frames - send.frame
  | _ => True

instance (s : State) : (e : Event) → Decidable (InTime s e)
  | .sendFrame pcmFrame _ => inferInstanceAs (Decidable (s.streamer.Writes pcmFrame →
      ∀ send ∈ s.sends, ¬ RING_BUFFER_SIZE ∣ s.frames - send.frame))
  | .addClient _ _ | .removeClient _ | .transmit _ | .complete _ => inferInstanceAs (Decidable True)

/-- Slots are taken in turn, and a send keeps that of its call. -/
structure Numbered (s : State) : Prop where
  /-- The next slot is the number of frames, round the ring. -/
  ringIndex : s.streamer.ringIndex = s.frames % RING_BUFFER_SIZE
  /-- A send is for a frame taken before. -/
  frame : ∀ send ∈ s.sends, send.frame < s.frames
  /-- A send keeps the slot of its frame. -/
  slot : ∀ send ∈ s.sends, send.slot = send.frame % RING_BUFFER_SIZE

/-- Slots and datagrams hold the packets of their sends. -/
structure Kept (s : State) : Prop where
  /-- The slot of a send holds its packet. -/
  sends : ∀ send ∈ s.sends, (s.streamer.packetRing send.slot).take send.packetSize = send.packet
  /-- A datagram is the packet of its send. -/
  wire : ∀ sent ∈ s.wire, sent.2 = sent.1.packet

/-- Nothing is numbered wrong at first. -/
theorem numbered_initial (packetizer : RTPPacketizer) (encryptor : Option IEncryptionStrategy) :
    Numbered (initial packetizer encryptor) where
  ringIndex := rfl
  frame := fun _ h => by cases h
  slot := fun _ h => by cases h

/-- Nothing is kept wrong at first. -/
theorem kept_initial (packetizer : RTPPacketizer) (encryptor : Option IEncryptionStrategy) :
    Kept (initial packetizer encryptor) where
  sends := fun _ h => by cases h
  wire := fun _ h => by cases h

/-- A slot is that of the call to come exactly when their numbers are a multiple
of sixteen apart. -/
theorem slot_ne_iff {s : State} (h : Numbered s) {send : Outstanding} (hsend : send ∈ s.sends) :
    send.slot ≠ s.streamer.ringIndex ↔ ¬ RING_BUFFER_SIZE ∣ s.frames - send.frame := by
  have hframe := h.frame send hsend
  rw [h.slot send hsend, h.ringIndex]
  unfold RING_BUFFER_SIZE
  omega

/-- A slot is not rewritten exactly when its sends were in time. -/
theorem notRewritten_iff {s : State} {e : Event} (h : Numbered s) :
    NotRewritten s e ↔ InTime s e := by
  cases e with
  | sendFrame pcmFrame lost =>
    constructor
    · intro hfree hwrites send hsend
      exact (slot_ne_iff h hsend).mp (hfree hwrites send hsend)
    · intro htime hwrites send hsend
      exact (slot_ne_iff h hsend).mpr (htime hwrites send hsend)
  | addClient | removeClient | transmit | complete => exact Iff.rfl

/-- A frame keeps the numbers. -/
theorem numbered_sendFrame {s s' : State} (h : Numbered s) {pcmFrame : List UInt8}
    {lost : ℕ → Bool} (hs : step s (.sendFrame pcmFrame lost) = some s') : Numbered s' := by
  cases hs
  by_cases hclients : s.streamer.clients = []
  · simp only [RTPStreamer.sendFrame_of_no_client hclients, hclients, List.map_nil, List.append_nil]
    exact h
  · have hnext : s.frames < s.frames + 1 := Nat.lt_succ_self _
    constructor
    · simp only [RTPStreamer.ringIndex_sendFrame hclients, if_neg hclients, h.ringIndex]
      exact (Nat.mod_add_mod _ _ _)
    · intro send hsend
      simp only [if_neg hclients, List.mem_append, List.mem_map] at hsend ⊢
      rcases hsend with hold | ⟨started, -, rfl⟩
      · exact (h.frame send hold).trans hnext
      · exact hnext
    · intro send hsend
      simp only [List.mem_append, List.mem_map] at hsend
      rcases hsend with hold | ⟨started, hstarted, rfl⟩
      · exact h.slot send hold
      · exact (RTPStreamer.slot_of_mem_sendFrame hstarted).2.trans h.ringIndex

/-- One step keeps the numbers. -/
theorem numbered_step {s s' : State} {e : Event} (h : Numbered s) (hs : step s e = some s') :
    Numbered s' := by
  cases e with
  | sendFrame pcmFrame lost => exact numbered_sendFrame h hs
  | addClient endpoint lossy =>
    cases hs
    exact ⟨by simpa using h.ringIndex, h.frame, h.slot⟩
  | removeClient endpoint =>
    cases hs
    exact ⟨h.ringIndex, h.frame, h.slot⟩
  | transmit i =>
    obtain ⟨send, -, rfl⟩ := Option.map_eq_some_iff.mp hs
    exact ⟨h.ringIndex, h.frame, h.slot⟩
  | complete i =>
    obtain ⟨send, -, rfl⟩ := Option.map_eq_some_iff.mp hs
    exact ⟨h.ringIndex, fun send hsend => h.frame send (List.mem_of_mem_eraseIdx hsend),
      fun send hsend => h.slot send (List.mem_of_mem_eraseIdx hsend)⟩

/-- A frame that rewrites no outstanding send keeps the packets. -/
theorem kept_sendFrame {s s' : State} (h : Kept s) {pcmFrame : List UInt8} {lost : ℕ → Bool}
    (hfree : NotRewritten s (.sendFrame pcmFrame lost))
    (hs : step s (.sendFrame pcmFrame lost) = some s') : Kept s' := by
  cases hs
  refine ⟨fun send hsend => ?_, h.wire⟩
  simp only [List.mem_append, List.mem_map] at hsend
  rcases hsend with hold | ⟨started, -, rfl⟩
  · -- a slot that is written is not that of an outstanding send
    have hsame : (s.streamer.sendFrame pcmFrame lost).1.packetRing send.slot =
        s.streamer.packetRing send.slot := by
      by_cases hwrites : s.streamer.Writes pcmFrame
      · exact RTPStreamer.packetRing_sendFrame_of_ne (hfree hwrites send hold)
      · rw [RTPStreamer.packetRing_sendFrame_of_not_writes hwrites]
    rw [hsame]
    exact h.sends send hold
  · rfl

/-- A step that rewrites no outstanding send keeps the packets. -/
theorem kept_step {s s' : State} {e : Event} (h : Kept s) (hfree : NotRewritten s e)
    (hs : step s e = some s') : Kept s' := by
  cases e with
  | sendFrame pcmFrame lost => exact kept_sendFrame h hfree hs
  | addClient endpoint lossy =>
    cases hs
    exact ⟨by simpa using h.sends, h.wire⟩
  | removeClient endpoint =>
    cases hs
    exact ⟨h.sends, h.wire⟩
  | transmit i =>
    obtain ⟨send, hsend, rfl⟩ := Option.map_eq_some_iff.mp hs
    refine ⟨h.sends, fun sent hsent => ?_⟩
    rcases List.mem_append.mp hsent with hold | hnew
    · exact h.wire sent hold
    · rw [List.mem_singleton.mp hnew]
      exact h.sends send (List.mem_of_getElem? hsend)
  | complete i =>
    obtain ⟨send, -, rfl⟩ := Option.map_eq_some_iff.mp hs
    exact ⟨fun send hsend => h.sends send (List.mem_of_mem_eraseIdx hsend), h.wire⟩

/-- A call is in time when only sends of the last fifteen frames are outstanding. -/
theorem inTime_of_recent {s : State} (h : Numbered s)
    (hrecent : ∀ send ∈ s.sends, s.frames < send.frame + RING_BUFFER_SIZE) (e : Event) :
    InTime s e := by
  cases e with
  | sendFrame pcmFrame lost =>
    intro _ send hsend
    have hframe := h.frame send hsend
    have hlast := hrecent send hsend
    unfold RING_BUFFER_SIZE at hlast ⊢
    omega
  | addClient | removeClient | transmit | complete => trivial

/-- In a run from a fresh streamer every datagram carries the packet of its send,
and no slot is rewritten under a send, exactly when each call that writes a
slot finds the sends started a multiple of sixteen calls before it complete. -/
theorem in_flight_intact_iff {packetizer : RTPPacketizer} {encryptor : Option IEncryptionStrategy}
    {es : List Event} {t : State} (hrun : runEvents step (initial packetizer encryptor) es = some t) :
    ((∀ sent ∈ t.wire, sent.2 = sent.1.packet) ∧
        Meets step NotRewritten (initial packetizer encryptor) es) ↔
      Meets step InTime (initial packetizer encryptor) es := by
  have hguards : Meets step NotRewritten (initial packetizer encryptor) es ↔
      Meets step InTime (initial packetizer encryptor) es :=
    @meets_iff_meets _ _ step NotRewritten Numbered (fun _ => True) InTime
      (fun s e hs _ => notRewritten_iff hs) (fun s e s' hs _ _ hstep => numbered_step hs hstep)
      _ _ (numbered_initial packetizer encryptor) (fun _ _ => trivial)
  rw [← hguards]
  constructor
  · exact fun h => h.2
  · intro hfree
    have hkept := run_invariant (fun s e s' hs hok hstep => kept_step hs hok hstep)
      (kept_initial packetizer encryptor) hfree hrun
    exact ⟨hkept.wire, hfree⟩

/-- Two clients, and a second frame sent before the first is on its way. -/
theorem in_flight_intact_iff_two_clients :
    ∃ t, runEvents step (initial (create 8 7 160 0 0) none)
        [.addClient 1 false, .addClient 2 true, .sendFrame [0, 0] (· == 2),
          .sendFrame [0, 1] fun _ => false, .transmit 2, .complete 2, .transmit 0, .complete 0] =
        some t ∧
      ∀ sent ∈ t.wire, sent.2 = sent.1.packet := by
  have hsome : (runEvents step (initial (create 8 7 160 0 0) none)
      [.addClient 1 false, .addClient 2 true, .sendFrame [0, 0] (· == 2),
        .sendFrame [0, 1] fun _ => false, .transmit 2, .complete 2, .transmit 0,
        .complete 0]).isSome = true := by decide +kernel
  obtain ⟨t, ht⟩ := Option.isSome_iff_exists.mp hsome
  exact ⟨t, ht, ((in_flight_intact_iff ht).mpr (by decide +kernel)).1⟩

/-- Seventeen frames for one client, none of whose handlers has run when the
first send reads its bytes. -/
def slowSend : List Event :=
  .addClient 1 false :: List.replicate 17 (.sendFrame [0, 0] fun _ => false) ++ [.transmit 0]

/-- The first send transmits the packet of the seventeenth frame. -/
theorem in_flight_overwritten :
    ∃ t, runEvents step (initial (create 8 7 160 0 0) none) slowSend = some t ∧
      ∃ sent ∈ t.wire, sent.1.frame = 0 ∧ sent.2 ≠ sent.1.packet := by
  have hwire : ((runEvents step (initial (create 8 7 160 0 0) none) slowSend).map fun t =>
      t.wire.map fun sent => (sent.1.frame, decide (sent.2 = sent.1.packet))) =
      some [(0, false)] := by decide +kernel
  obtain ⟨t, ht, hsent⟩ := Option.map_eq_some_iff.mp hwire
  have hmem : (0, false) ∈ t.wire.map fun sent => (sent.1.frame, decide (sent.2 = sent.1.packet)) := by
    rw [hsent]
    exact List.mem_singleton.mpr rfl
  obtain ⟨sent, hwired, heq⟩ := List.mem_map.mp hmem
  obtain ⟨hframe, hbytes⟩ := Prod.mk.inj heq
  exact ⟨t, ht, sent, hwired, hframe, of_decide_eq_false hbytes⟩

end Ring

end HermesFlow.Rtp
