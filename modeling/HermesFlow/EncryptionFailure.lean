import HermesFlow.IvAgreement
import HermesFlow.PacketAssembly

/-!
# Frames whose encryption fails

A frame is encoded in place, so the plaintext is in the slot when `encrypt` is
called, and `packetize` goes on whatever `encrypt` returns. A datagram carries
what the slot holds when the send reads it: the packet of its own call, or of a
later call that has taken the slot meanwhile, encrypted or not.
-/

namespace HermesFlow.Rtp

open Audio Crypto EventRun

namespace RTPStreamer

/-- The clients that the simulated loss spares. -/
def reached (s : RTPStreamer) (lost : ℕ → Bool) : List RtpClientTarget :=
  s.clients.filter fun client => !(client.lossy && lost client.endpoint)

/-- What `encrypt` leaves of a frame in the next call, and what it returns. -/
def encryptFrame (s : RTPStreamer) (strategy : IEncryptionStrategy) (pcmFrame : List UInt8) :
    List UInt8 × ℕ :=
  strategy.encrypt (encodeAlaw (asSamples pcmFrame)) s.packetizer.packetIndex

/-- The packet of a frame in the next call. -/
def packetBytes (s : RTPStreamer) (strategy : IEncryptionStrategy) (pcmFrame : List UInt8) :
    List UInt8 :=
  headerBytes s.packetizer.header ++ (s.encryptFrame strategy pcmFrame).1

/-- `setup_security` has succeeded and installed its encryptor. -/
structure SecuredBy (s : RTPStreamer) (cryptopp : CryptoPP) (hkdf : Hkdf)
    (sessionMasterKey sessionSalt : List UInt8) (aes : AESEncryptionStrategy) : Prop where
  /-- The call for the SSRC of the stream. -/
  setup : setupSecurity hkdf sessionMasterKey sessionSalt s.packetizer.ssrc = .ok aes
  /-- The strategy it has made. -/
  encryptor : s.encryptor = some (aes.strategy cryptopp)

section SendFrame

variable {s : RTPStreamer} {strategy : IEncryptionStrategy} {pcmFrame : List UInt8}
  {lost : ℕ → Bool}

/-- A frame that is encoded has a sample, and its samples fit behind the header. -/
theorem fits_of_writes (hwrites : s.Writes pcmFrame) :
    0 < pcmFrame.length / 2 ∧
      RTP_HEADER_SIZE + pcmFrame.length / 2 ≤ (s.packetRing s.ringIndex).length := by
  obtain ⟨-, hroom, hsize⟩ := hwrites
  unfold ALawCodecStrategy.encode at hsize
  rw [BYTES_PER_SAMPLE, List.length_drop] at hsize
  dsimp only at hsize
  split at hsize
  · exact absurd rfl hsize
  · dsimp only at hsize
    omega

/-- The packet of a call that encodes its frame: the header, and the payload
as `encrypt` leaves it. -/
theorem packetToRtp_of_writes (hency : s.encryptor = some strategy)
    (hsize : ∀ pcm index, (strategy.encrypt pcm index).1.length = pcm.length)
    (hwrites : s.Writes pcmFrame) :
    (packetToRtp pcmFrame s.packetizer s.encryptor (s.packetRing s.ringIndex)).size =
        RTP_HEADER_SIZE + pcmFrame.length / 2 ∧
      (packetToRtp pcmFrame s.packetizer s.encryptor (s.packetRing s.ringIndex)).outBuffer.take
        (RTP_HEADER_SIZE + pcmFrame.length / 2) = s.packetBytes strategy pcmFrame := by
  have hspan : KeepsSpan (some strategy) := by
    intro other hother
    cases hother
    exact hsize
  have hlength : (encodeAlaw (asSamples pcmFrame)).length = pcmFrame.length / 2 := by
    rw [encodeAlaw, List.length_map, length_asSamples]
  obtain ⟨hsamples, hfits⟩ := fits_of_writes hwrites
  rw [hency, packetToRtp_of_fits hspan hsamples hfits]
  refine ⟨rfl, List.take_left' ?_⟩
  rw [List.length_append, RTPPacketizer.length_header, length_encrypted hspan, hlength]

/-- Such a call starts a send of its packet for each client that the loss spares. -/
theorem sends_of_writes (hency : s.encryptor = some strategy)
    (hsize : ∀ pcm index, (strategy.encrypt pcm index).1.length = pcm.length)
    (hwrites : s.Writes pcmFrame) :
    (s.sendFrame pcmFrame lost).2 = (s.reached lost).map fun client =>
      ⟨s.ringIndex, RTP_HEADER_SIZE + pcmFrame.length / 2, client.endpoint⟩ := by
  have hpacket := (packetToRtp_of_writes hency hsize hwrites).1
  have hnonzero : RTP_HEADER_SIZE + pcmFrame.length / 2 ≠ 0 := by
    have hsamples := (fits_of_writes hwrites).1
    omega
  unfold sendFrame
  rw [if_neg hwrites.1]
  dsimp only
  rw [hpacket, if_neg hnonzero, reached]

/-- The other calls start none. -/
theorem sends_of_not_writes (h : ¬s.Writes pcmFrame) : (s.sendFrame pcmFrame lost).2 = [] := by
  unfold sendFrame
  split
  · rfl
  · rename_i hclients
    have hrefused :
        (packetToRtp pcmFrame s.packetizer s.encryptor (s.packetRing s.ringIndex)).size = 0 := by
      unfold packetToRtp
      split
      · rfl
      · rename_i hroom
        have hencoded : (ALawCodecStrategy.encode pcmFrame
            ((s.packetRing s.ringIndex).drop RTP_HEADER_SIZE)).2 = 0 := by
          by_contra hencoded
          exact h ⟨hclients, by omega, hencoded⟩
        rw [if_pos hencoded]
    rw [if_pos hrefused]

/-- The slot that such a call takes begins with its packet. -/
theorem slot_of_writes (lost : ℕ → Bool) (hency : s.encryptor = some strategy)
    (hsize : ∀ pcm index, (strategy.encrypt pcm index).1.length = pcm.length)
    (hwrites : s.Writes pcmFrame) :
    ((s.sendFrame pcmFrame lost).1.packetRing s.ringIndex).take
      (RTP_HEADER_SIZE + pcmFrame.length / 2) = s.packetBytes strategy pcmFrame := by
  rw [packetRing_sendFrame hwrites.1, Function.update_self]
  exact (packetToRtp_of_writes hency hsize hwrites).2

/-- No call changes the encryptor. -/
theorem encryptor_sendFrame : (s.sendFrame pcmFrame lost).1.encryptor = s.encryptor := by
  unfold sendFrame
  split
  · rfl
  · dsimp only
    split <;> rfl

/-- Neither does a new client. -/
theorem encryptor_addClient (s : RTPStreamer) (endpoint : ℕ) (lossy : Bool) :
    (s.addClient endpoint lossy).encryptor = s.encryptor := by
  unfold addClient
  split <;> rfl

end SendFrame

/-- `encrypt` returns 0 for an empty payload and on an exception. -/
theorem encrypt_eq_zero_iff {aes : AESEncryptionStrategy} {cryptopp : CryptoPP}
    {pcm : List UInt8} {index : UInt64} (hpcm : 0 < pcm.length) :
    (aes.encrypt cryptopp pcm index).2 ≠ 0 ↔ cryptopp.raises (aes.currentIv index) pcm = none := by
  have hne : pcm ≠ [] := List.ne_nil_of_length_pos hpcm
  rw [AESEncryptionStrategy.encrypt, if_neg hne, if_neg (not_not.mpr aes.baseIv_size)]
  cases cryptopp.raises (aes.currentIv index) pcm with
  | none => simp only [iff_true]; omega
  | some raised => simp

/-- Of a frame that is encoded, `encrypt` returns 0 on an exception only. -/
theorem encryptFrame_eq_zero_iff {s : RTPStreamer} {pcmFrame : List UInt8}
    (hwrites : s.Writes pcmFrame) (aes : AESEncryptionStrategy) (cryptopp : CryptoPP) :
    (s.encryptFrame (aes.strategy cryptopp) pcmFrame).2 ≠ 0 ↔
      cryptopp.raises (aes.currentIv s.packetizer.packetIndex)
        (encodeAlaw (asSamples pcmFrame)) = none := by
  refine encrypt_eq_zero_iff ?_
  rw [encodeAlaw, List.length_map, length_asSamples]
  exact (fits_of_writes hwrites).1

end RTPStreamer

namespace Ring

open ReceiverClient (exampleHkdf)

/-- The packets whose encryption has succeeded: a call has encoded its frame, and
`encrypt` has returned a size. -/
def encryptedPackets (strategy : IEncryptionStrategy) (s : State) : Event → List (List UInt8)
  | .sendFrame pcmFrame _ =>
    if s.streamer.Writes pcmFrame ∧ (s.streamer.encryptFrame strategy pcmFrame).2 ≠ 0 then
      [s.streamer.packetBytes strategy pcmFrame]
    else []
  | .addClient _ _ | .removeClient _ | .transmit _ | .complete _ => []

/-- Every datagram of the run is a packet whose encryption has succeeded. -/
def FailsClosed (strategy : IEncryptionStrategy) (s : State) (es : List Event) (t : State) :
    Prop :=
  ∀ sent ∈ t.wire, sent.2 ∈ runLog step (encryptedPackets strategy) s es

/-- Where a call encodes its frame into a slot that is sent, for its own clients or by an
earlier send that is outstanding, Crypto++ raises no exception, and the earlier sends are
of its size. -/
def Encrypts (cryptopp : CryptoPP) (aes : AESEncryptionStrategy) (s : State) : Event → Prop
  | .sendFrame pcmFrame lost => s.streamer.Writes pcmFrame →
      (s.streamer.reached lost ≠ [] ∨ ∃ send ∈ s.sends, send.slot = s.streamer.ringIndex) →
        cryptopp.raises (aes.currentIv s.streamer.packetizer.packetIndex)
            (encodeAlaw (asSamples pcmFrame)) = none ∧
          ∀ send ∈ s.sends, send.slot = s.streamer.ringIndex →
            send.packetSize = RTP_HEADER_SIZE + pcmFrame.length / 2
  | .addClient _ _ | .removeClient _ | .transmit _ | .complete _ => True

instance (cryptopp : CryptoPP) (aes : AESEncryptionStrategy) (s : State) :
    (e : Event) → Decidable (Encrypts cryptopp aes s e)
  | .sendFrame pcmFrame lost => inferInstanceAs (Decidable (s.streamer.Writes pcmFrame →
      (s.streamer.reached lost ≠ [] ∨ ∃ send ∈ s.sends, send.slot = s.streamer.ringIndex) →
        cryptopp.raises (aes.currentIv s.streamer.packetizer.packetIndex)
            (encodeAlaw (asSamples pcmFrame)) = none ∧
          ∀ send ∈ s.sends, send.slot = s.streamer.ringIndex →
            send.packetSize = RTP_HEADER_SIZE + pcmFrame.length / 2))
  | .addClient _ _ | .removeClient _ | .transmit _ | .complete _ => inferInstanceAs (Decidable True)

/-- What the slots of the outstanding sends hold, and what was sent, are packets of a list. -/
structure Holds (strategy : IEncryptionStrategy) (packets : List (List UInt8)) (s : State) :
    Prop where
  /-- The strategy stays that of the set-up. -/
  encryptor : s.streamer.encryptor = some strategy
  /-- A send would read such a packet now. -/
  sends : ∀ send ∈ s.sends, (s.streamer.packetRing send.slot).take send.packetSize ∈ packets
  /-- The datagrams that have been read. -/
  wire : ∀ sent ∈ s.wire, sent.2 ∈ packets

section Run

variable {cryptopp : CryptoPP} {aes : AESEncryptionStrategy} {packets : List (List UInt8)}
  {s s' : State}

/-- More packets do not matter. -/
theorem Holds.mono {strategy : IEncryptionStrategy} (h : Holds strategy packets s)
    (more : List (List UInt8)) : Holds strategy (packets ++ more) s where
  encryptor := h.encryptor
  sends := fun send hsend => List.mem_append_left more (h.sends send hsend)
  wire := fun sent hsent => List.mem_append_left more (h.wire sent hsent)

/-- A call of `send_frame` that encodes its frame. -/
theorem Holds.writes (hplace : cryptopp.InPlace)
    (h : Holds (aes.strategy cryptopp) packets s) {pcmFrame : List UInt8} {lost : ℕ → Bool}
    (hwrites : s.streamer.Writes pcmFrame) (hok : Encrypts cryptopp aes s (.sendFrame pcmFrame lost))
    (hstep : step s (.sendFrame pcmFrame lost) = some s') :
    Holds (aes.strategy cryptopp)
      (packets ++ encryptedPackets (aes.strategy cryptopp) s (.sendFrame pcmFrame lost)) s' := by
  have hsize := AESEncryptionStrategy.length_encrypt hplace aes
  have hslot := RTPStreamer.slot_of_writes lost h.encryptor hsize hwrites
  -- the packet is on the list when its slot is sent
  have hsealed : (s.streamer.reached lost ≠ [] ∨
      ∃ send ∈ s.sends, send.slot = s.streamer.ringIndex) →
        s.streamer.packetBytes (aes.strategy cryptopp) pcmFrame ∈ packets ++
          encryptedPackets (aes.strategy cryptopp) s (.sendFrame pcmFrame lost) := by
    intro hsent
    have hraises := (hok hwrites hsent).1
    have hreturned := (RTPStreamer.encryptFrame_eq_zero_iff hwrites aes cryptopp).mpr hraises
    rw [encryptedPackets, if_pos ⟨hwrites, hreturned⟩]
    exact List.mem_append_right packets (List.mem_singleton_self _)
  cases hstep
  refine ⟨RTPStreamer.encryptor_sendFrame.trans h.encryptor, fun send hsend => ?_,
    fun sent hsent => List.mem_append_left _ (h.wire sent hsent)⟩
  rcases List.mem_append.mp hsend with hold | hnew
  · by_cases hsame : send.slot = s.streamer.ringIndex
    · -- the slot of an earlier send is taken again
      have hsent : s.streamer.reached lost ≠ [] ∨
          ∃ send ∈ s.sends, send.slot = s.streamer.ringIndex := .inr ⟨send, hold, hsame⟩
      rw [hsame, (hok hwrites hsent).2 send hold hsame, hslot]
      exact hsealed hsent
    · dsimp only
      rw [RTPStreamer.packetRing_sendFrame_of_ne hsame]
      exact List.mem_append_left _ (h.sends send hold)
  · obtain ⟨started, hstarted, rfl⟩ := List.mem_map.mp hnew
    rw [RTPStreamer.sends_of_writes h.encryptor hsize hwrites] at hstarted
    obtain ⟨client, hclient, rfl⟩ := List.mem_map.mp hstarted
    dsimp only
    rw [hslot]
    exact hsealed (.inl (List.ne_nil_of_mem hclient))

/-- One event. -/
theorem Holds.step (hplace : cryptopp.InPlace)
    (h : Holds (aes.strategy cryptopp) packets s) {e : Event} (hok : Encrypts cryptopp aes s e)
    (hstep : Ring.step s e = some s') :
    Holds (aes.strategy cryptopp) (packets ++ encryptedPackets (aes.strategy cryptopp) s e) s' := by
  cases e with
  | sendFrame pcmFrame lost =>
    by_cases hwrites : s.streamer.Writes pcmFrame
    · exact h.writes hplace hwrites hok hstep
    · have hkept := h.mono (encryptedPackets (aes.strategy cryptopp) s (.sendFrame pcmFrame lost))
      cases hstep
      rw [RTPStreamer.sends_of_not_writes hwrites, List.map_nil, List.append_nil]
      refine ⟨RTPStreamer.encryptor_sendFrame.trans h.encryptor, fun send hsend => ?_, hkept.wire⟩
      dsimp only
      rw [RTPStreamer.packetRing_sendFrame_of_not_writes hwrites]
      exact hkept.sends send hsend
  | addClient endpoint lossy =>
    cases hstep
    rw [encryptedPackets, List.append_nil]
    exact ⟨(s.streamer.encryptor_addClient endpoint lossy).trans h.encryptor,
      by simpa using h.sends, h.wire⟩
  | removeClient endpoint =>
    cases hstep
    rw [encryptedPackets, List.append_nil]
    exact ⟨h.encryptor, h.sends, h.wire⟩
  | transmit i =>
    obtain ⟨send, hsend, rfl⟩ := Option.map_eq_some_iff.mp hstep
    rw [encryptedPackets, List.append_nil]
    refine ⟨h.encryptor, h.sends, fun sent hsent => ?_⟩
    rcases List.mem_append.mp hsent with hold | hnew
    · exact h.wire sent hold
    · rw [List.mem_singleton.mp hnew]
      exact h.sends send (List.mem_of_getElem? hsend)
  | complete i =>
    obtain ⟨send, -, rfl⟩ := Option.map_eq_some_iff.mp hstep
    rw [encryptedPackets, List.append_nil]
    exact ⟨h.encryptor, fun send hsend => h.sends send (List.mem_of_mem_eraseIdx hsend), h.wire⟩

/-- With encryption set up, a run whose calls encrypt what is sent fails closed. -/
theorem failsClosed_of_run {streamer : RTPStreamer} {hkdf : Hkdf}
    {sessionMasterKey sessionSalt : List UInt8} (hplace : cryptopp.InPlace)
    (hsecured : streamer.SecuredBy cryptopp hkdf sessionMasterKey sessionSalt aes)
    {es : List Event} {t : State}
    (hmeets : Meets step (Encrypts cryptopp aes) ⟨streamer, 0, [], []⟩ es)
    (hrun : runEvents step ⟨streamer, 0, [], []⟩ es = some t) :
    FailsClosed (aes.strategy cryptopp) ⟨streamer, 0, [], []⟩ es t := by
  have hstart : Holds (aes.strategy cryptopp) [] ⟨streamer, 0, [], []⟩ :=
    ⟨hsecured.encryptor, nofun, nofun⟩
  have hheld : Holds (aes.strategy cryptopp)
      ([] ++ runLog step (encryptedPackets (aes.strategy cryptopp)) ⟨streamer, 0, [], []⟩ es) t :=
    run_log_invariant (fun _ _ _ _ h hok hstep => h.step hplace hok hstep) hstart hmeets hrun
  exact hheld.wire

/-- Where a call fails the condition, the send of its slot reads what the exception has left
behind the header. -/
theorem transmit_of_raises (hplace : cryptopp.InPlace)
    (hency : s.streamer.encryptor = some (aes.strategy cryptopp)) {pcmFrame : List UInt8}
    {lost : ℕ → Bool} (hwrites : s.streamer.Writes pcmFrame) {what : String} {left : List UInt8}
    (hraises : cryptopp.raises (aes.currentIv s.streamer.packetizer.packetIndex)
      (encodeAlaw (asSamples pcmFrame)) = some (what, left))
    (hstep : step s (.sendFrame pcmFrame lost) = some s') {i : ℕ} {send : Outstanding}
    (hsend : s'.sends[i]? = some send) (hslot : send.slot = s.streamer.ringIndex)
    (hpacketSize : send.packetSize = RTP_HEADER_SIZE + pcmFrame.length / 2) :
    step s' (.transmit i) = some { s' with
      wire := s'.wire ++ [(send, headerBytes s.streamer.packetizer.header ++ left)] } := by
  have hread := RTPStreamer.slot_of_writes lost hency
    (AESEncryptionStrategy.length_encrypt hplace aes) hwrites
  have hbytes : encodeAlaw (asSamples pcmFrame) ≠ [] := by
    have hsamples := (RTPStreamer.fits_of_writes hwrites).1
    apply List.ne_nil_of_length_pos
    rwa [encodeAlaw, List.length_map, length_asSamples]
  have hleft : (s.streamer.encryptFrame (aes.strategy cryptopp) pcmFrame).1 = left := by
    change (aes.encrypt cryptopp _ _).1 = left
    rw [AESEncryptionStrategy.encrypt, if_neg hbytes, if_neg (not_not.mpr aes.baseIv_size), hraises]
  rw [RTPStreamer.packetBytes, hleft] at hread
  cases hstep
  rw [step, hsend, Option.map_some, hslot, hpacketSize]
  dsimp only
  rw [hread]

end Run

/-- A stream with SSRC 1, zero master key and zero salt, and one client. -/
def exampleStreamer (cryptopp : CryptoPP) : RTPStreamer :=
  (RTPStreamer.create (Rtp.create 8 1 160 10 0) (some (exampleStrategy.strategy cryptopp))).addClient
    1 false

/-- Its encryption is set up. -/
theorem securedBy_exampleStreamer (cryptopp : CryptoPP) :
    (exampleStreamer cryptopp).SecuredBy cryptopp exampleHkdf (List.replicate 16 0)
      (List.replicate 16 0) exampleStrategy := by
  have hssrc : (exampleStreamer cryptopp).packetizer.ssrc = 1 := rfl
  refine ⟨?_, rfl⟩
  rw [hssrc]
  rfl

/-- Two frames of two samples; the second packet is on its way first. -/
def crossedFrames : List Event :=
  [.sendFrame [0, 1, 2, 3] fun _ => false, .sendFrame [4, 5, 6, 7] fun _ => false, .transmit 1,
    .transmit 0, .complete 0, .complete 0]

/-- Frames that Crypto++ encrypts go out encrypted. -/
theorem failsClosed_crossed_frames :
    ∃ t, runEvents step ⟨exampleStreamer ⟨exampleAes, fun _ _ => none⟩, 0, [], []⟩ crossedFrames =
        some t ∧
      t.wire.map Prod.snd = [[128, 8, 0, 11, 0, 0, 0, 160, 0, 0, 0, 1, 173, 178],
        [128, 8, 0, 10, 0, 0, 0, 0, 0, 0, 0, 1, 31, 58]] ∧
      FailsClosed (exampleStrategy.strategy ⟨exampleAes, fun _ _ => none⟩)
        ⟨exampleStreamer ⟨exampleAes, fun _ _ => none⟩, 0, [], []⟩ crossedFrames t := by
  have hwire : ((runEvents step ⟨exampleStreamer ⟨exampleAes, fun _ _ => none⟩, 0, [], []⟩
      crossedFrames).map fun t => t.wire.map Prod.snd) =
        some [[128, 8, 0, 11, 0, 0, 0, 160, 0, 0, 0, 1, 173, 178],
          [128, 8, 0, 10, 0, 0, 0, 0, 0, 0, 0, 1, 31, 58]] := by decide +kernel
  obtain ⟨t, ht, hbytes⟩ := Option.map_eq_some_iff.mp hwire
  exact ⟨t, ht, hbytes, failsClosed_of_run inPlace_exampleAes (securedBy_exampleStreamer _)
    (by decide +kernel) ht⟩

/-- A frame whose encryption raises is sent as it was encoded. -/
theorem not_failsClosed_exception :
    ∃ t, runEvents step
        ⟨exampleStreamer ⟨exampleAes, fun _ data => some ("Resynchronize", data)⟩, 0, [], []⟩
        [.sendFrame [0, 1, 2, 3] fun _ => false, .transmit 0] = some t ∧
      t.wire.map Prod.snd =
        [[128, 8, 0, 10, 0, 0, 0, 0, 0, 0, 0, 1] ++ encodeAlaw (asSamples [0, 1, 2, 3])] ∧
      ¬FailsClosed
        (exampleStrategy.strategy ⟨exampleAes, fun _ data => some ("Resynchronize", data)⟩)
        ⟨exampleStreamer ⟨exampleAes, fun _ data => some ("Resynchronize", data)⟩, 0, [], []⟩
        [.sendFrame [0, 1, 2, 3] fun _ => false, .transmit 0] t := by
  have hwire : ((runEvents step
      ⟨exampleStreamer ⟨exampleAes, fun _ data => some ("Resynchronize", data)⟩, 0, [], []⟩
      [.sendFrame [0, 1, 2, 3] fun _ => false, .transmit 0]).map fun t => t.wire.map Prod.snd) =
        some [[128, 8, 0, 10, 0, 0, 0, 0, 0, 0, 0, 1] ++ encodeAlaw (asSamples [0, 1, 2, 3])] := by
    decide +kernel
  obtain ⟨t, ht, hbytes⟩ := Option.map_eq_some_iff.mp hwire
  refine ⟨t, ht, hbytes, fun hclosed => ?_⟩
  -- no packet of the run was encrypted
  have hnone : runLog step
      (encryptedPackets
        (exampleStrategy.strategy ⟨exampleAes, fun _ data => some ("Resynchronize", data)⟩))
      ⟨exampleStreamer ⟨exampleAes, fun _ data => some ("Resynchronize", data)⟩, 0, [], []⟩
      [.sendFrame [0, 1, 2, 3] fun _ => false, .transmit 0] = [] := by decide +kernel
  have hsent : t.wire ≠ [] := by
    rintro hempty
    rw [hempty] at hbytes
    cases hbytes
  obtain ⟨sent, hsent⟩ := List.exists_mem_of_ne_nil _ hsent
  have hmem := hclosed sent hsent
  rw [hnone] at hmem
  cases hmem

end Ring

end HermesFlow.Rtp
