import HermesFlow.PacketAssembly
import HermesFlow.PacketRoundTrip

/-!
# The datagrams of a stream

A run of the streamer: clients come and go, the loop hands over frames, sends read their
slots and complete in any order. While no slot is rewritten under a send, a datagram on the
wire is the packet of its frame, with the numbers of its place in the stream, and a frame
goes once to each client that is registered for it.
-/

namespace HermesFlow.Rtp

open Audio Crypto EventRun

namespace RTPPacketizer

/-- The packetizer of packet `k` of a stream. -/
def nth (p : RTPPacketizer) (k : ℕ) : RTPPacketizer := next^[k] p

/-- The next header follows from the last one. -/
theorem nth_succ (p : RTPPacketizer) (k : ℕ) : p.nth (k + 1) = (p.nth k).next :=
  Function.iterate_succ_apply' next k p

/-- The header of packet `k`. -/
def headerAt (p : RTPPacketizer) (k : ℕ) : Header where
  padding := false
  version := version
  payloadType := p.payloadType
  marker := false
  sequenceNum := p.sequenceNum + UInt16.ofNat k
  timestamp := p.timestamp + UInt32.ofNat k * p.timestampIncrement
  ssrc := p.ssrc
  csrcList := []
  extension := none

/-- What packets do to the fields that go into headers. -/
theorem nth_fields (p : RTPPacketizer) (k : ℕ) :
    (p.nth k).payloadType = p.payloadType ∧ (p.nth k).ssrc = p.ssrc ∧
      (p.nth k).timestampIncrement = p.timestampIncrement ∧
      (p.nth k).sequenceNum = p.sequenceNum + UInt16.ofNat k ∧
      (p.nth k).timestamp = p.timestamp + UInt32.ofNat k * p.timestampIncrement := by
  induction k with
  | zero =>
    refine ⟨rfl, rfl, rfl, (UInt16.add_zero p.sequenceNum).symm, ?_⟩
    change p.timestamp = p.timestamp + 0 * p.timestampIncrement
    rw [UInt32.zero_mul, UInt32.add_zero]
  | succ k ih =>
    obtain ⟨htype, hssrc, hincrement, hsequence, htime⟩ := ih
    rw [nth_succ]
    refine ⟨htype, hssrc, hincrement, ?_, ?_⟩
    · change (p.nth k).sequenceNum + 1 = _
      rw [hsequence, UInt16.add_assoc, UInt16.ofNat_add, UInt16.ofNat_one]
    · change (p.nth k).timestamp + (p.nth k).timestampIncrement = _
      rw [htime, hincrement, UInt32.add_assoc, UInt32.ofNat_add, UInt32.ofNat_one, UInt32.add_mul,
        UInt32.one_mul]

/-- The fields of a packet's header are these sums. -/
theorem header_nth (p : RTPPacketizer) (k : ℕ) : (p.nth k).header = p.headerAt k := by
  obtain ⟨htype, hssrc, -, hsequence, htime⟩ := p.nth_fields k
  rw [header, htype, hssrc, hsequence, htime, headerAt]

/-- The 48-bit count of packets. -/
theorem position_nth (p : RTPPacketizer) (k : ℕ) :
    (p.nth k).position = (p.position + k) % 2 ^ 48 := by
  induction k with
  | zero =>
    have hlt := p.position_lt
    rw [Nat.add_zero, Nat.mod_eq_of_lt hlt]
    rfl
  | succ k ih =>
    rw [nth_succ]
    change (p.nth k).advance.position = _
    rw [position_advance, ih, Nat.mod_add_mod, Nat.add_assoc]

/-- Packet `k`, with a frame as its payload. -/
def packetAt (p : RTPPacketizer) (ency : Option IEncryptionStrategy) (k : ℕ)
    (pcmFrame : List UInt8) : List UInt8 :=
  headerBytes (p.headerAt k) ++
    encrypted ency (encodeAlaw (asSamples pcmFrame)) (p.nth k).packetIndex

/-- Its fields fit theirs. -/
theorem fitsWire_headerAt {p : RTPPacketizer} (htype : p.payloadType.toNat < 2 ^ 7) (k : ℕ) :
    (p.headerAt k).FitsWire where
  csrcs := Nat.two_pow_pos 4
  version := (by decide : HermesFlow.Rtp.version.toNat < 2 ^ 2)
  payloadType := htype
  extension := fun _ hextension => by cases hextension

end RTPPacketizer

namespace Ring

/-- The frame of an event, if the call takes a slot for it. -/
def frameTaken (s : State) : Event → List (List UInt8)
  | .sendFrame pcmFrame _ => if s.streamer.clients = [] then [] else [pcmFrame]
  | .addClient _ _ | .removeClient _ | .transmit _ | .complete _ => []

/-- The frames of a run that took a slot. -/
def taken (s : State) (es : List Event) : List (List UInt8) := runLog step frameTaken s es

/-- The sends that an event starts: the number of the frame, and the endpoint. -/
def startedBy (s : State) : Event → List (ℕ × ℕ)
  | .sendFrame pcmFrame lost =>
    (s.streamer.sendFrame pcmFrame lost).2.map fun send => (s.frames, send.endpoint)
  | .addClient _ _ | .removeClient _ | .transmit _ | .complete _ => []

/-- The sends that a run starts. -/
def started (s : State) (es : List Event) : List (ℕ × ℕ) := runLog step startedBy s es

/-- The buffer of the loop holds one frame. -/
def FrameSized : Event → Prop
  | .sendFrame pcmFrame _ => pcmFrame.length = FRAME_SIZE_BYTES
  | _ => True

instance : DecidablePred FrameSized
  | .sendFrame pcmFrame _ => inferInstanceAs (Decidable (pcmFrame.length = FRAME_SIZE_BYTES))
  | .addClient _ _ | .removeClient _ | .transmit _ | .complete _ => inferInstanceAs (Decidable True)

/-- A send carries the packet of its frame. -/
def Carries (p : RTPPacketizer) (ency : Option IEncryptionStrategy) (frames : List (List UInt8))
    (send : Outstanding) : Prop :=
  ∃ pcmFrame, frames[send.frame]? = some pcmFrame ∧
    send.packet = p.packetAt ency send.frame pcmFrame

/-- A streamer that has taken these frames, from its first packetizer on. -/
structure Streamed (p : RTPPacketizer) (ency : Option IEncryptionStrategy)
    (frames : List (List UInt8)) (s : State) : Prop where
  /-- Every send in flight carries its frame. -/
  sends : ∀ send ∈ s.sends, Carries p ency frames send
  /-- Every datagram on the wire carries its frame. -/
  wire : ∀ sent ∈ s.wire, Carries p ency frames sent.1
  /-- The frames counted are the frames taken. -/
  count : s.frames = frames.length
  /-- The packetizer has moved on by as many packets. -/
  packetizer : s.streamer.packetizer = p.nth s.frames
  /-- The encryptor is the first one. -/
  encryptor : s.streamer.encryptor = ency
  /-- Every slot of the ring has the size of a packet. -/
  slots : ∀ i, (s.streamer.packetRing i).length = RTP_HEADER_SIZE + FRAME_SIZE_BYTES

/-- Nothing has been streamed at first. -/
theorem streamed_initial (p : RTPPacketizer) (ency : Option IEncryptionStrategy) :
    Streamed p ency [] (initial p ency) where
  sends := fun _ h => by cases h
  wire := fun _ h => by cases h
  count := rfl
  packetizer := rfl
  encryptor := rfl
  slots := fun _ => List.length_replicate

/-- More frames do not change what a send carries. -/
theorem Carries.append {p : RTPPacketizer} {ency : Option IEncryptionStrategy}
    {frames : List (List UInt8)} {send : Outstanding} (h : Carries p ency frames send)
    (more : List (List UInt8)) : Carries p ency (frames ++ more) send := by
  obtain ⟨pcmFrame, hframe, hpacket⟩ := h
  have hlt := (List.getElem?_eq_some_iff.mp hframe).1
  exact ⟨pcmFrame, by rw [List.getElem?_append_left hlt, hframe], hpacket⟩

/-- A call with a frame and a client. -/
theorem sendFrame_eq {s : RTPStreamer} {pcmFrame : List UInt8} {lost : ℕ → Bool}
    (hspan : KeepsSpan s.encryptor) (hclients : s.clients ≠ [])
    (hslot : (s.packetRing s.ringIndex).length = RTP_HEADER_SIZE + FRAME_SIZE_BYTES)
    (hframe : pcmFrame.length = FRAME_SIZE_BYTES) :
    s.sendFrame pcmFrame lost =
      ({ s with
          ringIndex := (s.ringIndex + 1) % RING_BUFFER_SIZE
          packetRing := Function.update s.packetRing s.ringIndex
            (headerBytes s.packetizer.header ++ encrypted s.encryptor
                (encodeAlaw (asSamples pcmFrame)) s.packetizer.packetIndex ++
              (s.packetRing s.ringIndex).drop (RTP_HEADER_SIZE + SAMPLES_PER_FRAME))
          packetizer := s.packetizer.next },
        (s.clients.filter fun client => !(client.lossy && lost client.endpoint)).map fun client =>
          ⟨s.ringIndex, RTP_HEADER_SIZE + SAMPLES_PER_FRAME, client.endpoint⟩) := by
  have hsamples : pcmFrame.length / 2 = SAMPLES_PER_FRAME := by rw [hframe]; rfl
  have hassembled := @packetToRtp_of_fits s.encryptor s.packetizer pcmFrame
    (s.packetRing s.ringIndex) hspan (by rw [hsamples]; decide) (by rw [hsamples, hslot]; decide)
  rw [hsamples] at hassembled
  rw [RTPStreamer.sendFrame, if_neg hclients]
  dsimp only
  rw [hassembled]
  exact if_neg (show RTP_HEADER_SIZE + SAMPLES_PER_FRAME ≠ 0 by decide)

/-- The buffers of the ring keep their size. -/
theorem length_encoded {ency : Option IEncryptionStrategy} (hspan : KeepsSpan ency)
    {pcmFrame : List UInt8} (hframe : pcmFrame.length = FRAME_SIZE_BYTES) (packetIndex : UInt64) :
    (encrypted ency (encodeAlaw (asSamples pcmFrame)) packetIndex).length = SAMPLES_PER_FRAME := by
  rw [length_encrypted hspan, encodeAlaw, List.length_map, length_asSamples, hframe]
  rfl

section Step

variable {p : RTPPacketizer} {ency : Option IEncryptionStrategy} {frames : List (List UInt8)}
  {s s' : State}

/-- A call of the loop takes the next frame. -/
theorem Streamed.sendFrame (h : Streamed p ency frames s) (hspan : KeepsSpan ency)
    {pcmFrame : List UInt8} {lost : ℕ → Bool} (hframe : pcmFrame.length = FRAME_SIZE_BYTES)
    (hstep : step s (.sendFrame pcmFrame lost) = some s') :
    Streamed p ency (frames ++ frameTaken s (.sendFrame pcmFrame lost)) s' := by
  cases hstep
  rw [frameTaken]
  by_cases hclients : s.streamer.clients = []
  · simp only [RTPStreamer.sendFrame_of_no_client hclients, if_pos hclients, List.map_nil,
      List.append_nil]
    exact h
  have hsent := @sendFrame_eq s.streamer pcmFrame lost (h.encryptor ▸ hspan) hclients (h.slots _)
    hframe
  have hnew : (frames ++ [pcmFrame])[s.frames]? = some pcmFrame := by
    rw [h.count, List.getElem?_concat_length]
  have hencoded := length_encoded (h.encryptor ▸ hspan) hframe s.streamer.packetizer.packetIndex
  simp only [hsent, if_neg hclients]
  refine ⟨fun send hsend => ?_, fun sent hsent => (h.wire sent hsent).append _, ?_, ?_, h.encryptor,
    fun i => ?_⟩
  · rcases List.mem_append.mp hsend with hold | hnewSend
    · exact (h.sends send hold).append _
    · -- the send of a client has the packet just built
      obtain ⟨started, hstarted, rfl⟩ := List.mem_map.mp hnewSend
      obtain ⟨client, -, rfl⟩ := List.mem_map.mp hstarted
      refine ⟨pcmFrame, hnew, ?_⟩
      dsimp only
      rw [Function.update_self, RTPPacketizer.packetAt, ← RTPPacketizer.header_nth, ← h.packetizer,
        ← h.encryptor]
      refine List.take_left' ?_
      rw [List.length_append, RTPPacketizer.length_header, hencoded]
  · rw [List.length_append, h.count, List.length_singleton]
  · rw [RTPPacketizer.nth_succ, h.packetizer]
  · dsimp only
    rcases eq_or_ne i s.streamer.ringIndex with rfl | hi
    · rw [Function.update_self, List.length_append, List.length_append,
        RTPPacketizer.length_header, hencoded, List.length_drop, h.slots]
      rfl
    · rw [Function.update_of_ne hi, h.slots]

/-- A step keeps the stream. -/
theorem Streamed.step (h : Streamed p ency frames s) (hspan : KeepsSpan ency) {e : Event}
    (hframe : FrameSized e) (hstep : step s e = some s') :
    Streamed p ency (frames ++ frameTaken s e) s' := by
  cases e with
  | sendFrame pcmFrame lost => exact h.sendFrame hspan hframe hstep
  | addClient endpoint lossy =>
    cases hstep
    rw [frameTaken, List.append_nil]
    have hkept : ∀ streamer : RTPStreamer, streamer.packetRing = s.streamer.packetRing →
        streamer.packetizer = s.streamer.packetizer → streamer.encryptor = s.streamer.encryptor →
          Streamed p ency frames { s with streamer := streamer } := by
      intro streamer hring hpacketizer hencryptor
      exact ⟨h.sends, h.wire, h.count, hpacketizer.trans h.packetizer,
        hencryptor.trans h.encryptor, fun i => by rw [hring, h.slots]⟩
    unfold RTPStreamer.addClient
    split
    · exact hkept _ rfl rfl rfl
    · exact hkept _ rfl rfl rfl
  | removeClient endpoint =>
    cases hstep
    rw [frameTaken, List.append_nil]
    exact ⟨h.sends, h.wire, h.count, h.packetizer, h.encryptor, h.slots⟩
  | transmit i =>
    obtain ⟨send, hsend, rfl⟩ := Option.map_eq_some_iff.mp hstep
    rw [frameTaken, List.append_nil]
    refine ⟨h.sends, fun sent hsent => ?_, h.count, h.packetizer, h.encryptor, h.slots⟩
    rcases List.mem_append.mp hsent with hold | hnew
    · exact h.wire sent hold
    · rw [List.mem_singleton.mp hnew]
      exact h.sends send (List.mem_of_getElem? hsend)
  | complete i =>
    obtain ⟨send, -, rfl⟩ := Option.map_eq_some_iff.mp hstep
    rw [frameTaken, List.append_nil]
    exact ⟨fun send hsend => h.sends send (List.mem_of_mem_eraseIdx hsend), h.wire, h.count,
      h.packetizer, h.encryptor, h.slots⟩

end Step

/-- A run of frames keeps the stream. -/
theorem streamed_of_run {p : RTPPacketizer} {ency : Option IEncryptionStrategy}
    (hspan : KeepsSpan ency) {es : List Event} {t : State}
    (hrun : runEvents step (initial p ency) es = some t) (hframes : ∀ e ∈ es, FrameSized e) :
    Streamed p ency (taken (initial p ency) es) t :=
  run_log_invariant (fun _ _ _ _ h hframe hstep => h.step hspan hframe hstep)
    (streamed_initial p ency) (meets_of_events hframes _) hrun

/-- Where no slot is rewritten under a send, every datagram on the wire is the packet of one
frame of the run. -/
theorem wire_packetAt {p : RTPPacketizer} {ency : Option IEncryptionStrategy}
    (hspan : KeepsSpan ency) {es : List Event} {t : State}
    (hrun : runEvents step (initial p ency) es = some t) (hframes : ∀ e ∈ es, FrameSized e)
    (htime : Meets step InTime (initial p ency) es) :
    ∀ sent ∈ t.wire, ∃ pcmFrame, (taken (initial p ency) es)[sent.1.frame]? = some pcmFrame ∧
      sent.2 = p.packetAt ency sent.1.frame pcmFrame := by
  have hkept := run_invariant (I := fun s => Numbered s ∧ Kept s) (fun s e s' hs hok hstep =>
      ⟨numbered_step hs.1 hstep, kept_step hs.2 ((notRewritten_iff hs.1).mpr hok) hstep⟩)
    ⟨numbered_initial p ency, kept_initial p ency⟩ htime hrun
  intro sent hsent
  obtain ⟨pcmFrame, hframe, hpacket⟩ := (streamed_of_run hspan hrun hframes).wire sent hsent
  exact ⟨pcmFrame, hframe, (hkept.2.wire sent hsent).trans hpacket⟩

/-- Without encryption the payload keeps its length. -/
theorem keepsSpan_none : KeepsSpan none := fun _ hstrategy => by cases hstrategy

/-- The packetizer of a streamer, with the numbers that are drawn. -/
def streamPacketizer (ssrc : UInt32) (sequenceNum : UInt16) (timestamp : UInt32) : RTPPacketizer :=
  create ALawCodecStrategy.getPayloadType ssrc
    (ALawCodecStrategy.getTimestampIncrement FRAME_SIZE_BYTES) sequenceNum timestamp

/-- In a run whose slots are not rewritten in flight every datagram on the wire parses as the
RTP packet of one frame, numbered by the place of the frame: sequence number and timestamp,
and the frame in A-law as its payload, encrypted if there is an encryptor. -/
theorem wire_parses {ssrc : UInt32} {sequenceNum : UInt16} {timestamp : UInt32}
    {ency : Option IEncryptionStrategy} (hspan : KeepsSpan ency) {es : List Event} {t : State}
    (hrun : runEvents step (initial (streamPacketizer ssrc sequenceNum timestamp) ency) es = some t)
    (hframes : ∀ e ∈ es, FrameSized e)
    (htime : Meets step InTime (initial (streamPacketizer ssrc sequenceNum timestamp) ency) es) :
    ∀ sent ∈ t.wire, ∃ pcmFrame,
      (taken (initial (streamPacketizer ssrc sequenceNum timestamp) ency) es)[sent.1.frame]? =
          some pcmFrame ∧
        RTPPacket.fromBuffer sent.2 = some
          { header :=
              { padding := false
                version := 2
                payloadType := 8
                marker := false
                sequenceNum := sequenceNum + UInt16.ofNat sent.1.frame
                timestamp := timestamp + UInt32.ofNat sent.1.frame * 160
                ssrc := ssrc
                csrcList := []
                extension := none }
            payload := encrypted ency (encodeAlaw (asSamples pcmFrame))
              ((streamPacketizer ssrc sequenceNum timestamp).nth sent.1.frame).packetIndex } := by
  intro sent hsent
  obtain ⟨pcmFrame, hframe, hpacket⟩ := wire_packetAt hspan hrun hframes htime sent hsent
  have hfits := (streamPacketizer ssrc sequenceNum timestamp).fitsWire_headerAt (by
    change (8 : UInt8).toNat < 2 ^ 7
    decide) sent.1.frame
  refine ⟨pcmFrame, hframe, ?_⟩
  rw [hpacket, RTPPacketizer.packetAt, fromBuffer_headerBytes hfits]
  rfl

/-- A frame for one client, read after a second frame has been taken. -/
def twoFrames : List Event :=
  [.addClient 7 false, .sendFrame (List.replicate FRAME_SIZE_BYTES 0) fun _ => false,
    .sendFrame (List.replicate FRAME_SIZE_BYTES 1) fun _ => false, .transmit 0, .complete 0,
    .transmit 0]

/-- The packets of a stream with SSRC 1, encrypted. -/
def encryptedStream : State :=
  initial (streamPacketizer 1 10 9) (some exampleEncryptor)

/-- Both frames are on the wire, encrypted. -/
theorem wire_parses_two_frames :
    ∃ t, runEvents step encryptedStream twoFrames = some t ∧ t.wire.length = 2 ∧
      ∀ sent ∈ t.wire, ∃ pcmFrame,
        (taken encryptedStream twoFrames)[sent.1.frame]? = some pcmFrame ∧
          RTPPacket.fromBuffer sent.2 = some
            ⟨⟨false, 2, 8, false, 10 + UInt16.ofNat sent.1.frame,
              9 + UInt32.ofNat sent.1.frame * 160, 1, [], none⟩,
              encrypted (some exampleEncryptor)
                (encodeAlaw (asSamples pcmFrame))
                ((streamPacketizer 1 10 9).nth sent.1.frame).packetIndex⟩ := by
  have hwire : (runEvents step encryptedStream twoFrames).map (·.wire.length) = some 2 := by
    decide +kernel
  obtain ⟨t, ht, hlength⟩ := Option.map_eq_some_iff.mp hwire
  have hspan := keepsSpan_strategy inPlace_exampleAes exampleStrategy
  exact ⟨t, ht, hlength, wire_parses hspan ht (by decide +kernel) (by decide +kernel)⟩

/-- The registered clients as a map from endpoints: whether their packets may be lost. -/
abbrev Targets := ℕ → Option Bool

/-- What an event does to them: a client that is registered already is not registered anew. -/
def register (targets : Targets) : Event → Targets
  | .addClient endpoint lossy =>
    if (targets endpoint).isSome then targets else Function.update targets endpoint (some lossy)
  | .removeClient endpoint => Function.update targets endpoint none
  | .sendFrame _ _ | .transmit _ | .complete _ => targets

/-- The clients after some events, none at first. -/
def targetsAfter (es : List Event) : Targets := es.foldl register fun _ => none

/-- A list of clients is a map: no endpoint is twice in it. -/
structure Represents (clients : List RtpClientTarget) (targets : Targets) : Prop where
  /-- No endpoint is twice in the list. -/
  nodup : (clients.map (·.endpoint)).Nodup
  /-- A client is in the list exactly when it is in the map. -/
  mem_iff : ∀ endpoint lossy, ⟨endpoint, lossy⟩ ∈ clients ↔ targets endpoint = some lossy

/-- An endpoint is found in the list exactly when the map has it. -/
theorem Represents.any_iff {clients : List RtpClientTarget} {targets : Targets}
    (h : Represents clients targets) (endpoint : ℕ) :
    clients.any (·.endpoint == endpoint) = true ↔ (targets endpoint).isSome := by
  simp only [List.any_eq_true, beq_iff_eq, Option.isSome_iff_exists]
  constructor
  · rintro ⟨⟨_, lossy⟩, hmem, rfl⟩
    exact ⟨lossy, (h.mem_iff _ _).mp hmem⟩
  · rintro ⟨lossy, hlossy⟩
    exact ⟨⟨endpoint, lossy⟩, (h.mem_iff _ _).mpr hlossy, rfl⟩

/-- Adding a client registers it. -/
theorem Represents.addClient {s : RTPStreamer} {targets : Targets}
    (h : Represents s.clients targets) (endpoint : ℕ) (lossy : Bool) :
    Represents (s.addClient endpoint lossy).clients
      (register targets (.addClient endpoint lossy)) := by
  have hany := h.any_iff endpoint
  rw [RTPStreamer.addClient, register]
  by_cases hknown : (targets endpoint).isSome
  · rw [if_pos (hany.mpr hknown), if_pos hknown]
    exact h
  · have hnone := Option.not_isSome_iff_eq_none.mp hknown
    have hfresh : endpoint ∉ s.clients.map (·.endpoint) := by
      rintro hmem
      obtain ⟨⟨_, other⟩, hother, rfl⟩ := List.mem_map.mp hmem
      rw [(h.mem_iff _ _).mp hother] at hnone
      cases hnone
    rw [if_neg (mt hany.mp hknown), if_neg hknown]
    refine ⟨?_, fun other otherLossy => ?_⟩
    · rw [List.map_append, List.map_singleton, ← List.concat_eq_append]
      exact h.nodup.concat hfresh
    · rw [List.mem_append, List.mem_singleton, h.mem_iff, RtpClientTarget.mk.injEq]
      rcases eq_or_ne other endpoint with rfl | hne
      · rw [Function.update_self, hnone]
        simp [eq_comm]
      · rw [Function.update_of_ne hne]
        simp [hne]

/-- Removing a client forgets it. -/
theorem Represents.removeClient {s : RTPStreamer} {targets : Targets}
    (h : Represents s.clients targets) (endpoint : ℕ) :
    Represents (s.removeClient endpoint).clients (register targets (.removeClient endpoint)) := by
  rw [RTPStreamer.removeClient, register]
  refine ⟨h.nodup.sublist (List.filter_sublist.map _), fun other lossy => ?_⟩
  rw [List.mem_filter, h.mem_iff, bne_iff_ne]
  rcases eq_or_ne other endpoint with rfl | hne
  · rw [Function.update_self]
    simp
  · rw [Function.update_of_ne hne]
    simp [hne]

/-- Each event does to the list what it does to the map. -/
theorem Represents.step {s s' : State} {targets : Targets}
    (h : Represents s.streamer.clients targets) {e : Event} (hstep : step s e = some s') :
    Represents s'.streamer.clients (register targets e) := by
  cases e with
  | addClient endpoint lossy => cases hstep; exact h.addClient endpoint lossy
  | removeClient endpoint => cases hstep; exact h.removeClient endpoint
  | sendFrame pcmFrame lost =>
    cases hstep
    have hclients : (s.streamer.sendFrame pcmFrame lost).1.clients = s.streamer.clients := by
      unfold RTPStreamer.sendFrame
      dsimp only
      split <;> [rfl; (split <;> rfl)]
    rw [register]
    dsimp only
    rw [hclients]
    exact h
  | transmit i | complete i =>
    obtain ⟨_, -, rfl⟩ := Option.map_eq_some_iff.mp hstep
    exact h

/-- The list of the streamer is the map at all times. -/
theorem represents_of_run {s t : State} {targets : Targets}
    (h : Represents s.streamer.clients targets) {es : List Event}
    (hrun : runEvents step s es = some t) :
    Represents t.streamer.clients (es.foldl register targets) := by
  induction es generalizing s targets with
  | nil =>
    cases hrun
    exact h
  | cons e es ih =>
    obtain ⟨s', hstep, ht⟩ := runEvents_cons_iff.mp hrun
    exact ih (h.step hstep) ht

/-- The first list represents the empty map. -/
theorem represents_initial (p : RTPPacketizer) (ency : Option IEncryptionStrategy) :
    Represents (initial p ency).streamer.clients fun _ => none :=
  ⟨List.nodup_nil, fun _ _ => iff_of_false List.not_mem_nil nofun⟩

/-- A client is spared unless it is lossy and this frame is lost. -/
theorem spared_iff {lossy lost : Bool} :
    (!(lossy && lost)) = true ↔ ¬(lossy = true ∧ lost = true) := by
  rw [Bool.not_eq_true', ← Bool.not_eq_true, Bool.and_eq_true]

/-- The sends of a call: one to each client that is registered and spared. -/
theorem mem_startedBy {p : RTPPacketizer} {ency : Option IEncryptionStrategy}
    {frames : List (List UInt8)} {s : State} {targets : Targets} (hspan : KeepsSpan ency)
    (hstream : Streamed p ency frames s) (hclients : Represents s.streamer.clients targets)
    {pcmFrame : List UInt8} {lost : ℕ → Bool} (hframe : pcmFrame.length = FRAME_SIZE_BYTES)
    {k endpoint : ℕ} :
    (k, endpoint) ∈ startedBy s (.sendFrame pcmFrame lost) ↔ k = s.frames ∧
      ∃ lossy, targets endpoint = some lossy ∧ ¬(lossy = true ∧ lost endpoint = true) := by
  rw [startedBy]
  by_cases hnone : s.streamer.clients = []
  · rw [RTPStreamer.sendFrame_of_no_client hnone]
    refine iff_of_false List.not_mem_nil ?_
    rintro ⟨-, lossy, hlossy, -⟩
    have hmem := (hclients.mem_iff _ _).mpr hlossy
    rw [hnone] at hmem
    cases hmem
  · rw [sendFrame_eq (hstream.encryptor ▸ hspan) hnone (hstream.slots _) hframe, List.map_map,
      List.mem_map]
    constructor
    · rintro ⟨⟨_, lossy⟩, hclient, heq⟩
      obtain ⟨rfl, rfl⟩ := Prod.mk.inj heq
      obtain ⟨hmem, hspared⟩ := List.mem_filter.mp hclient
      exact ⟨rfl, lossy, (hclients.mem_iff _ _).mp hmem, spared_iff.mp hspared⟩
    · rintro ⟨rfl, lossy, hlossy, hspared⟩
      exact ⟨⟨endpoint, lossy⟩, List.mem_filter.mpr ⟨(hclients.mem_iff _ _).mpr hlossy,
        spared_iff.mpr hspared⟩, rfl⟩

/-- A call starts no send twice. -/
theorem nodup_startedBy {s : State} {targets : Targets}
    (hclients : Represents s.streamer.clients targets) (e : Event) : (startedBy s e).Nodup := by
  cases e with
  | sendFrame pcmFrame lost =>
    rw [startedBy, RTPStreamer.sendFrame]
    dsimp only
    have hnodup : ∀ (slot size : ℕ), (((s.streamer.clients.filter fun client =>
        !(client.lossy && lost client.endpoint)).map fun client =>
          (⟨slot, size, client.endpoint⟩ : AsyncSend)).map fun send =>
            (s.frames, send.endpoint)).Nodup := by
      intro slot size
      have hspared : (s.streamer.clients.filter fun client =>
          !(client.lossy && lost client.endpoint)).Sublist s.streamer.clients := List.filter_sublist
      have hpairs := (hclients.nodup.sublist (hspared.map (·.endpoint))).map
        (Prod.mk_right_injective s.frames)
      rw [List.map_map] at hpairs ⊢
      exact hpairs
    split
    · exact List.nodup_nil
    · split
      · exact List.nodup_nil
      · exact hnodup _ _
  | addClient | removeClient | transmit | complete => exact List.nodup_nil

/-- The number of a send is that of the call, which takes it. -/
theorem startedBy_frames {s s' : State} {e : Event} (hstep : step s e = some s') :
    s.frames ≤ s'.frames ∧ ∀ sent ∈ startedBy s e, sent.1 = s.frames ∧ sent.1 < s'.frames := by
  cases e with
  | sendFrame pcmFrame lost =>
    cases hstep
    by_cases hnone : s.streamer.clients = []
    · rw [startedBy, RTPStreamer.sendFrame_of_no_client hnone]
      exact ⟨by dsimp only; rw [if_pos hnone], nofun⟩
    · dsimp only
      rw [if_neg hnone]
      refine ⟨Nat.le_succ _, fun sent hsent => ?_⟩
      obtain ⟨_, -, rfl⟩ := List.mem_map.mp hsent
      exact ⟨rfl, Nat.lt_succ_self _⟩
  | addClient | removeClient =>
    cases hstep
    exact ⟨le_rfl, nofun⟩
  | transmit i | complete i =>
    obtain ⟨_, -, rfl⟩ := Option.map_eq_some_iff.mp hstep
    exact ⟨le_rfl, nofun⟩

/-- The sends so far, each of which was started once and for a frame taken before. -/
structure SentOnce (p : RTPPacketizer) (ency : Option IEncryptionStrategy) (log : List (ℕ × ℕ))
    (s : State) : Prop where
  /-- No send is started twice. -/
  nodup : log.Nodup
  /-- A send is for a frame taken before. -/
  below : ∀ sent ∈ log, sent.1 < s.frames
  /-- What is sent is streamed in order. -/
  stream : ∃ frames, Streamed p ency frames s
  /-- The clients are a map. -/
  clients : ∃ targets, Represents s.streamer.clients targets

/-- Nothing has been sent at first. -/
theorem sentOnce_initial (p : RTPPacketizer) (ency : Option IEncryptionStrategy) :
    SentOnce p ency [] (initial p ency) where
  nodup := List.nodup_nil
  below := nofun
  stream := ⟨[], streamed_initial p ency⟩
  clients := ⟨_, represents_initial p ency⟩

/-- One step starts each of its sends once. -/
theorem SentOnce.step {p : RTPPacketizer} {ency : Option IEncryptionStrategy}
    {log : List (ℕ × ℕ)} {s s' : State} (h : SentOnce p ency log s) (hspan : KeepsSpan ency)
    {e : Event} (hframe : FrameSized e) (hstep : step s e = some s') :
    SentOnce p ency (log ++ startedBy s e) s' := by
  obtain ⟨frames, hstream⟩ := h.stream
  obtain ⟨targets, hclients⟩ := h.clients
  have hnew := startedBy_frames hstep
  refine ⟨?_, ?_, ⟨_, hstream.step hspan hframe hstep⟩, _, hclients.step hstep⟩
  · refine h.nodup.append (nodup_startedBy hclients e) fun sent hold hsent => ?_
    have hlt := h.below sent hold
    rw [(hnew.2 sent hsent).1] at hlt
    exact lt_irrefl _ hlt
  · intro sent hsent
    rcases List.mem_append.mp hsent with hold | hsent
    · exact (h.below sent hold).trans_le hnew.1
    · exact (hnew.2 sent hsent).2

/-- In every run a frame is sent at most once to an endpoint, and the next call sends its frame
to exactly the clients registered then, but for the packets that the simulated loss takes. -/
theorem fan_out {p : RTPPacketizer} {ency : Option IEncryptionStrategy} (hspan : KeepsSpan ency)
    {es : List Event} {t : State} (hrun : runEvents step (initial p ency) es = some t)
    (hframes : ∀ e ∈ es, FrameSized e) :
    (started (initial p ency) es).Nodup ∧
      ∀ (pcmFrame : List UInt8) (lost : ℕ → Bool), pcmFrame.length = FRAME_SIZE_BYTES →
        ∀ endpoint, (t.frames, endpoint) ∈ startedBy t (.sendFrame pcmFrame lost) ↔
          ∃ lossy, targetsAfter es endpoint = some lossy ∧
            ¬(lossy = true ∧ lost endpoint = true) := by
  constructor
  · have hlog : SentOnce p ency (started (initial p ency) es) t :=
      run_log_invariant (fun _ _ _ _ h hframe hstep => h.step hspan hframe hstep)
        (sentOnce_initial p ency) (meets_of_events hframes (initial p ency)) hrun
    exact hlog.nodup
  · intro pcmFrame lost hframe endpoint
    rw [mem_startedBy hspan (streamed_of_run hspan hrun hframes)
      (represents_of_run (represents_initial p ency) hrun) hframe, targetsAfter]
    exact and_iff_right rfl

/-- One of two clients is removed between two frames. -/
theorem fan_out_removed :
    ∃ t, runEvents step (initial (streamPacketizer 5 65535 9) none)
        [.addClient 7 false, .addClient 8 true, .addClient 7 true,
          .sendFrame (List.replicate FRAME_SIZE_BYTES 0) fun _ => false, .removeClient 7] = some t ∧
      ∀ endpoint, (t.frames, endpoint) ∈
          startedBy t (.sendFrame (List.replicate FRAME_SIZE_BYTES 1) fun _ => false) ↔
        ∃ lossy, targetsAfter [.addClient 7 false, .addClient 8 true, .addClient 7 true,
            .sendFrame (List.replicate FRAME_SIZE_BYTES 0) fun _ => false, .removeClient 7]
              endpoint = some lossy ∧ ¬(lossy = true ∧ false = true) := by
  have hsome : (runEvents step (initial (streamPacketizer 5 65535 9) none)
      [.addClient 7 false, .addClient 8 true, .addClient 7 true,
        .sendFrame (List.replicate FRAME_SIZE_BYTES 0) fun _ => false,
        .removeClient 7]).isSome = true := by decide +kernel
  obtain ⟨t, ht⟩ := Option.isSome_iff_exists.mp hsome
  exact ⟨t, ht, (fan_out keepsSpan_none ht (by decide +kernel)).2 _ _ List.length_replicate⟩

end Ring

end HermesFlow.Rtp
