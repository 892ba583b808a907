import HermesFlow.EncryptionFailure
import HermesFlow.FrameStream
import HermesFlow.IvAgreement

/-!
# An encrypted stream and its receiver

The server's run and the receiver's rounds put together. Both derive the same key, and where
the receiver computes the IV of the server, its keystream is that of the server: what it
decrypts is the frame in A-law.
-/

namespace HermesFlow.ReceiverClient

open Audio ByteOrder CounterMode Crypto EventRun Rtp

section Receiver

variable {crypto : Cryptography} {masterKey salt : List UInt8} {st st' : State}

/-- The key of the active stream is derived from its SSRC. -/
def Keyed (crypto : Cryptography) (masterKey : List UInt8) (st : State) : Prop :=
  ∀ ssrc, st.activeSsrc = some ssrc →
    st.sessionKey = (crypto.hkdf masterKey (storeBE 4 ssrc)).toList

/-- No source has a key at first. -/
theorem keyed_initial (crypto : Cryptography) (masterKey : List UInt8) :
    Keyed crypto masterKey initial := nofun

/-- A source that is tracked has its key. -/
theorem Keyed.trackSsrc (h : Keyed crypto masterKey st) {ssrc seqNum : ℕ}
    (htrack : trackSsrc crypto masterKey salt st ssrc seqNum = some st') :
    Keyed crypto masterKey st' ∧ st'.activeSsrc = some ssrc := by
  unfold ReceiverClient.trackSsrc at htrack
  split at htrack
  · rename_i hactive
    obtain rfl := Option.some.inj htrack
    exact ⟨h, hactive⟩
  · obtain ⟨baseIv, -, rfl⟩ := Option.map_eq_some_iff.mp htrack
    refine ⟨fun other hother => ?_, rfl⟩
    obtain rfl := Option.some.inj hother
    rfl

/-- What the client decrypts of a datagram, under the IV that it has computed. -/
def DecryptedUnder (crypto : Cryptography) (masterKey datagram : List UInt8) (r : Received) :
    Prop :=
  r.currentIv.length = 16 ∧
    r.decryptedAlaw = process
      (crypto.aes (crypto.hkdf masterKey
        (storeBE 4 (loadBE (((datagram.take 2048).drop 8).take 4)))).toList)
      (counters (BitVec.ofNat 128 (loadBE r.currentIv))
        ((((datagram.take 2048).drop 12).length + 15) / 16)) ((datagram.take 2048).drop 12)

/-- One round. -/
theorem Keyed.receive (h : Keyed crypto masterKey st) {datagram : List UInt8}
    {received : Option Received} (hlong : 12 ≤ (datagram.take 2048).length)
    (hreceive : receive crypto masterKey salt st datagram = some (st', received)) :
    Keyed crypto masterKey st' ∧ ∃ r, received = some r ∧
      DecryptedUnder crypto masterKey datagram r := by
  unfold ReceiverClient.receive at hreceive
  dsimp only at hreceive
  rw [if_neg (by omega)] at hreceive
  obtain ⟨st₁, htrack, hreceive⟩ := Option.bind_eq_some_iff.mp hreceive
  obtain ⟨hkeyed, hactive⟩ := h.trackSsrc htrack
  obtain ⟨iv, -, hreceive⟩ := Option.bind_eq_some_iff.mp hreceive
  obtain ⟨alaw, hdecrypt, hreceive⟩ := Option.bind_eq_some_iff.mp hreceive
  obtain ⟨rfl, rfl⟩ := Prod.mk.inj (Option.some.inj hreceive)
  refine ⟨hkeyed, _, rfl, ?_⟩
  unfold decrypt at hdecrypt
  split at hdecrypt
  · rename_i hiv
    obtain rfl := Option.some.inj hdecrypt
    rw [hkeyed _ hactive]
    exact ⟨hiv, rfl⟩
  · cases hdecrypt

/-- All rounds: no datagram with a header is dropped. -/
theorem Keyed.receiveAll (h : Keyed crypto masterKey st) {datagrams : List (List UInt8)}
    {received : List Received} (hlong : ∀ datagram ∈ datagrams, 12 ≤ (datagram.take 2048).length)
    (hall : receiveAll crypto masterKey salt st datagrams = some received) :
    List.Forall₂ (DecryptedUnder crypto masterKey) datagrams received := by
  induction datagrams generalizing st received with
  | nil =>
    cases hall
    exact .nil
  | cons datagram datagrams ih =>
    obtain ⟨hfirst, hlong⟩ := List.forall_mem_cons.mp hlong
    obtain ⟨⟨st₁, r⟩, hreceive, hall⟩ := Option.bind_eq_some_iff.mp hall
    obtain ⟨rest, hrest, hall⟩ := Option.bind_eq_some_iff.mp hall
    obtain rfl := Option.some.inj hall
    obtain ⟨hkeyed, r, rfl, hdecrypted⟩ := h.receive hfirst hreceive
    exact .cons hdecrypted (ih hkeyed hlong hrest)

end Receiver

/-- Pairings that chain up. -/
theorem forall₂_join {α β γ : Type*} {R : α → β → Prop} {S : β → γ → Prop} {Q : α → γ → Prop}
    {T : α → γ → Prop} {as : List α} {bs : List β} {cs : List γ} (hR : List.Forall₂ R as bs)
    (hS : List.Forall₂ S bs cs) (hQ : List.Forall₂ Q as cs)
    (hT : ∀ a ∈ as, ∀ b c, R a b → S b c → Q a c → T a c) : List.Forall₂ T as cs := by
  induction hR generalizing cs with
  | nil =>
    cases hS
    exact .nil
  | cons hab _ ih =>
    cases hS with
    | cons hbc hS =>
      cases hQ with
      | cons hac hQ =>
        exact .cons (hT _ List.mem_cons_self _ _ hab hbc hac)
          (ih hS hQ fun a ha => hT a (List.mem_cons_of_mem _ ha))

/-- A byte of the source is read by dividing. -/
theorem ssrcByte_div (ssrc shift : ℕ) : ssrcByte ssrc shift = UInt8.ofNat (ssrc / 2 ^ shift) := by
  apply UInt8.toNat_inj.mp
  rw [ssrcByte, UInt8.toNat_ofNat', UInt8.toNat_ofNat', Nat.shiftRight_eq_div_pow,
    show (0xFF : ℕ) = 2 ^ 8 - 1 from rfl, Nat.and_two_pow_sub_one_eq_mod, Nat.mod_mod]

/-- The four bytes of the SSRC are the number that the receiver packs. -/
theorem ssrcBytes_eq (ssrc : UInt32) :
    [Rtp.ssrcByte ssrc 24, Rtp.ssrcByte ssrc 16, Rtp.ssrcByte ssrc 8, Rtp.ssrcByte ssrc 0] =
      storeBE 4 ssrc.toNat := by
  have hbyte : ∀ shift : UInt32, shift.toNat < 32 →
      Rtp.ssrcByte ssrc shift = UInt8.ofNat (ssrc.toNat / 2 ^ shift.toNat) := fun shift hshift => by
    rw [← ssrcByte_eq ssrc shift hshift, ssrcByte_div]
  rw [hbyte 24 (by decide), hbyte 16 (by decide), hbyte 8 (by decide), hbyte 0 (by decide)]
  simp only [storeBE, storeLE, Nat.div_div_eq_div_mul, List.reverse_cons, List.reverse_nil,
    List.nil_append, List.cons_append]
  simp

/-- The server's key is the receiver's. -/
theorem setupSecurity_key {hkdf : Hkdf} {masterKey salt : List UInt8} {ssrc : UInt32}
    {s : AESEncryptionStrategy} (h : setupSecurity hkdf masterKey salt ssrc = .ok s) :
    s.key = (hkdf masterKey (storeBE 4 ssrc.toNat)).toList := by
  unfold setupSecurity at h
  split at h
  · cases h
  · unfold createAesEncryptionStrategy at h
    split at h
    · cases h
      rw [← ssrcBytes_eq]
      rfl
    · cases h

/-- The packets of a run as calls, for frames in A-law. -/
def callsOf (p : RTPPacketizer) (frames : List (List UInt8)) : List (RTPPacketizer × Call) :=
  frames.mapIdx fun k pcmFrame =>
    (p.nth k, ⟨encodeAlaw (asSamples pcmFrame),
      List.replicate (RTP_HEADER_SIZE + SAMPLES_PER_FRAME) 0⟩)

/-- The calls of a stream are made for its frames, in order. -/
theorem getElem?_callsOf {p : RTPPacketizer} {frames : List (List UInt8)} {k : ℕ}
    {call : RTPPacketizer × Call} (h : (callsOf p frames)[k]? = some call) :
    ∃ pcmFrame, frames[k]? = some pcmFrame ∧ call.1 = p.nth k ∧
      call.2.payload = encodeAlaw (asSamples pcmFrame) := by
  rw [callsOf, List.getElem?_mapIdx, Option.map_eq_some_iff] at h
  obtain ⟨pcmFrame, hframe, rfl⟩ := h
  exact ⟨pcmFrame, hframe, rfl, rfl⟩

/-- Each builds the packet of its frame. -/
theorem datagram_callsOf {p : RTPPacketizer} {ency : Option IEncryptionStrategy}
    (hspan : KeepsSpan ency) {frames : List (List UInt8)} {k : ℕ} {pcmFrame : List UInt8}
    (hframe : frames[k]? = some pcmFrame) (hsize : pcmFrame.length = FRAME_SIZE_BYTES) :
    ∃ call, (callsOf p frames)[k]? = some call ∧
      datagram ency call = some (p.packetAt ency k pcmFrame) := by
  have hlength : (encodeAlaw (asSamples pcmFrame)).length = SAMPLES_PER_FRAME := by
    rw [encodeAlaw, List.length_map, length_asSamples, hsize]
    rfl
  refine ⟨_, by rw [callsOf, List.getElem?_mapIdx, hframe, Option.map_some], ?_⟩
  have hbuilt := @RTPPacketizer.packetize_of_fits ency (p.nth k) hspan
    (encodeAlaw (asSamples pcmFrame)) (List.replicate (RTP_HEADER_SIZE + SAMPLES_PER_FRAME) 0)
    (by rw [hlength, List.length_replicate])
  have hnonzero : RTP_HEADER_SIZE + SAMPLES_PER_FRAME ≠ 0 := by decide
  rw [datagram]
  dsimp only
  rw [hbuilt, hlength, if_neg hnonzero, RTPPacketizer.packetAt, ← RTPPacketizer.header_nth]
  refine congrArg some (List.take_left' ?_)
  rw [List.length_append, RTPPacketizer.length_header, length_encrypted hspan, hlength]

/-- What it makes of a frame. -/
theorem encrypted_strategy {cryptopp : CryptoPP} {aes : AESEncryptionStrategy}
    (hraises : ∀ iv data, cryptopp.raises iv data = none) {payload : List UInt8}
    (hpayload : payload ≠ []) (index : UInt64) :
    encrypted (some (aes.strategy cryptopp)) payload index =
      process (cryptopp.aes aes.key) (aes.counterBlocks payload index) payload := by
  change (aes.encrypt cryptopp payload index).1 = _
  rw [AESEncryptionStrategy.encrypt, if_neg hpayload, if_neg (not_not.mpr aes.baseIv_size), hraises]

/-- A packet is decrypted under its own IV: the keystream of the server comes twice. -/
theorem decryptedAlaw_packetAt {cryptopp : CryptoPP} {hkdf : Hkdf} {masterKey salt : List UInt8}
    {ssrc : UInt32} {aes : AESEncryptionStrategy} (hplace : cryptopp.InPlace)
    (hraises : ∀ iv data, cryptopp.raises iv data = none)
    (hsetup : setupSecurity hkdf masterKey salt ssrc = .ok aes) {p : RTPPacketizer} {k : ℕ}
    {pcmFrame : List UInt8} (hsize : pcmFrame.length = FRAME_SIZE_BYTES) {r : Received}
    (hr : DecryptedUnder ⟨hkdf, cryptopp.aes⟩ masterKey
      (p.packetAt (some (aes.strategy cryptopp)) k pcmFrame) r)
    (hssrc : loadBE ((((p.packetAt (some (aes.strategy cryptopp)) k pcmFrame).take 2048).drop
      8).take 4) = ssrc.toNat)
    (hiv : r.currentIv = aes.currentIv (p.nth k).packetIndex) :
    r.decryptedAlaw = encodeAlaw (asSamples pcmFrame) := by
  obtain ⟨-, hdecrypted⟩ := hr
  obtain ⟨payload, hpayload⟩ : ∃ payload, payload = encodeAlaw (asSamples pcmFrame) := ⟨_, rfl⟩
  have hlength : payload.length = SAMPLES_PER_FRAME := by
    rw [hpayload, encodeAlaw, List.length_map, length_asSamples, hsize]
    rfl
  have hbody : encrypted (some (aes.strategy cryptopp)) payload (p.nth k).packetIndex =
      process (cryptopp.aes aes.key) (aes.counterBlocks payload (p.nth k).packetIndex) payload :=
    encrypted_strategy hraises (List.ne_nil_of_length_pos (by rw [hlength]; decide)) _
  have hcover := le_length_keystream (by decide) (hplace.block aes.key)
    (BitVec.ofNat 128 (loadBE (aes.currentIv (p.nth k).packetIndex))) payload
  have hprocessed := length_process hcover
  have hpacket : (p.packetAt (some (aes.strategy cryptopp)) k pcmFrame).take 2048 =
      headerBytes (p.nth k).header ++ process (cryptopp.aes aes.key)
        (aes.counterBlocks payload (p.nth k).packetIndex) payload := by
    rw [RTPPacketizer.packetAt, ← RTPPacketizer.header_nth, ← hpayload, hbody]
    refine List.take_of_length_le ?_
    rw [List.length_append, RTPPacketizer.length_header]
    exact (Nat.add_le_add_left (hprocessed.trans hlength).le _).trans (by decide)
  have hdrop : ((p.packetAt (some (aes.strategy cryptopp)) k pcmFrame).take 2048).drop 12 =
      process (cryptopp.aes aes.key) (aes.counterBlocks payload (p.nth k).packetIndex) payload := by
    rw [hpacket]
    exact List.drop_left' (RTPPacketizer.length_header _)
  rw [hdecrypted, hssrc, ← setupSecurity_key hsetup, hdrop, hiv,
    show (process (cryptopp.aes aes.key) (aes.counterBlocks payload (p.nth k).packetIndex)
      payload).length = payload.length from hprocessed, ← hpayload]
  exact process_process hcover

/-- Datagrams that arrive, by the frames they belong to. -/
def Delivered (wire : List (Ring.Outstanding × List UInt8)) : List ℕ → List (List UInt8) → Prop :=
  List.Forall₂ fun k bytes => ∃ sent ∈ wire, sent.1.frame = k ∧ sent.2 = bytes

/-- The frames of a log have the size of one. -/
def Sized (log : List (List UInt8)) (_ : Ring.State) : Prop :=
  ∀ pcmFrame ∈ log, pcmFrame.length = FRAME_SIZE_BYTES

/-- Every frame that is taken has its size. -/
theorem sized_taken {s t : Ring.State} {es : List Ring.Event}
    (hrun : runEvents Ring.step s es = some t) (hframes : ∀ e ∈ es, Ring.FrameSized e) :
    Sized (Ring.taken s es) t := by
  have hinitial : Sized [] s := fun _ h => by cases h
  refine run_log_invariant (fun log s e s' h hframe _ => ?_) hinitial
    (meets_of_events hframes s) hrun
  intro pcmFrame hmem
  rcases List.mem_append.mp hmem with hold | hnew
  · exact h pcmFrame hold
  · cases e with
    | sendFrame sent lost =>
      rw [Ring.frameTaken] at hnew
      split at hnew
      · cases hnew
      · rw [List.mem_singleton.mp hnew]
        exact hframe
    | addClient | removeClient | transmit | complete => cases hnew

/-- The packets of some frames, in the order in which they arrive. -/
def PacketsOf (p : RTPPacketizer) (ency : Option IEncryptionStrategy) (frames : List (List UInt8)) :
    List ℕ → List (List UInt8) → Prop :=
  List.Forall₂ fun k bytes => ∃ pcmFrame, frames[k]? = some pcmFrame ∧
    bytes = p.packetAt ency k pcmFrame

/-- A frame has been decrypted: what the client has of packet `k`. -/
def Hears (sequenceNum : UInt16) (frames : List (List UInt8)) (k : ℕ) (r : Received) : Prop :=
  (sequenceNum.toNat + k) % 2 ^ 16 ≠ 2 ^ 16 - 1 →
    ∃ pcmFrame, frames[k]? = some pcmFrame ∧ r.decryptedAlaw = encodeAlaw (asSamples pcmFrame)

section Receive

variable {cryptopp : CryptoPP} {hkdf : Hkdf} {masterKey salt : List UInt8} {ssrc : UInt32}
  {aes : AESEncryptionStrategy} {sequenceNum : UInt16} {timestamp : UInt32}
  {frames : List (List UInt8)} {ks : List ℕ} {datagrams : List (List UInt8)}

/-- The header fields of such packets, as calls of the packetizer. -/
theorem calls_of_packets {p : RTPPacketizer} {ency : Option IEncryptionStrategy}
    (hspan : KeepsSpan ency) (hsized : ∀ pcmFrame ∈ frames, pcmFrame.length = FRAME_SIZE_BYTES)
    (hpackets : PacketsOf p ency frames ks datagrams) :
    List.Forall₂ (fun k bytes => ∃ call, (callsOf p frames)[k]? = some call ∧
      datagram ency call = some bytes) ks datagrams := by
  refine hpackets.imp fun k bytes h => ?_
  obtain ⟨pcmFrame, hframe, rfl⟩ := h
  exact datagram_callsOf hspan hframe (hsized _ (List.mem_of_getElem? hframe))

/-- A client that starts with a packet of the first lap and gets packets within the window
decrypts their frames, but for those with the last sequence number of a lap. -/
theorem receiver_decrypts (hplace : cryptopp.InPlace)
    (hraises : ∀ iv data, cryptopp.raises iv data = none)
    (hsetup : setupSecurity hkdf masterKey salt ssrc = .ok aes)
    (hsized : ∀ pcmFrame ∈ frames, pcmFrame.length = FRAME_SIZE_BYTES)
    (hpackets : PacketsOf (Ring.streamPacketizer ssrc sequenceNum timestamp)
      (some (aes.strategy cryptopp)) frames ks datagrams)
    (hwin : InWindow ks) (hstart : ∀ k ∈ ks.head?, sequenceNum.toNat + k < 2 ^ 16) :
    ∃ received, receiveAll ⟨hkdf, cryptopp.aes⟩ masterKey salt initial datagrams =
        some received ∧ List.Forall₂ (Hears sequenceNum frames) ks received := by
  obtain ⟨p, hp⟩ : ∃ p, p = Ring.streamPacketizer ssrc sequenceNum timestamp := ⟨_, rfl⟩
  rw [← hp] at hpackets
  have hspan := keepsSpan_strategy hplace aes
  have hsent := calls_of_packets hspan hsized hpackets
  have hpssrc : p.ssrc = ssrc := by rw [hp]; rfl
  have hppos : p.position = sequenceNum.toNat := by
    rw [hp]
    simp [Ring.streamPacketizer, create, RTPPacketizer.position]
  have hpos : ∀ k, (p.nth k).position = (sequenceNum.toNat + k) % 2 ^ 48 := fun k => by
    rw [p.position_nth, hppos]
  have hcalls : ∀ (k : ℕ) (call : RTPPacketizer × Call), (callsOf p frames)[k]? = some call →
      call.1.ssrc = ssrc ∧ call.1.sequenceNum.toNat = (sequenceNum.toNat + k) % 2 ^ 16 := by
    intro k call hcall
    obtain ⟨pcmFrame, -, hnth, -⟩ := getElem?_callsOf hcall
    rw [hnth, RTPPacketizer.sequenceNum_toNat, hpos]
    exact ⟨(p.nth_fields k).2.1.trans hpssrc, by omega⟩
  have hparsed : List.Forall₂ (fun k bytes => ∃ pcmFrame, frames[k]? = some pcmFrame ∧
      bytes = p.packetAt (some (aes.strategy cryptopp)) k pcmFrame ∧
        12 ≤ (bytes.take 2048).length ∧
          loadBE (((bytes.take 2048).drop 8).take 4) = ssrc.toNat) ks datagrams := by
    refine hpackets.imp fun k bytes h => ?_
    obtain ⟨pcmFrame, hframe, rfl⟩ := h
    obtain ⟨call, hcall, hdatagram⟩ :=
      datagram_callsOf hspan hframe (hsized _ (List.mem_of_getElem? hframe))
    obtain ⟨hlong, -, hssrc⟩ := parse_datagram hdatagram
    rw [(hcalls _ call hcall).1] at hssrc
    exact ⟨pcmFrame, hframe, rfl, hlong, hssrc⟩
  cases ks with
  | nil =>
    cases hpackets
    exact ⟨[], rfl, .nil⟩
  | cons first ks =>
    have hlow : (sequenceNum.toNat + first) / 2 ^ 16 = 0 := Nat.div_eq_of_lt (hstart first rfl)
    obtain ⟨received, hall, hplaced⟩ :=
      @receiveAll_initial ⟨hkdf, cryptopp.aes⟩ _ _ _ _ _ _ _ _ hsetup hcalls _ _ _ hsent hwin.2
    refine ⟨received, hall, ?_⟩
    have hlong : ∀ bytes ∈ datagrams, 12 ≤ (bytes.take 2048).length := fun bytes hbytes => by
      obtain ⟨_, _, -, -, hlong, -⟩ := exists_of_forall₂ (List.Forall₂.flip hparsed) bytes hbytes
      exact hlong
    have hdecrypted := (keyed_initial ⟨hkdf, cryptopp.aes⟩ masterKey).receiveAll hlong hall
    refine forall₂_join hparsed hdecrypted hplaced ?_
    rintro k - bytes r ⟨pcmFrame, hframe, hpacket, -, hssrc⟩ hr hplacedAt hlast
    obtain ⟨call, hcall, -⟩ :=
      datagram_callsOf hspan hframe (hsized _ (List.mem_of_getElem? hframe))
    obtain ⟨_, -, hnth, -⟩ := getElem?_callsOf hcall
    -- the laps are the same, and so are the IVs
    have hagrees : Agrees aes (callsOf p frames) k r := by
      refine (agrees_iff_lap hcall (by rw [hnth, hpos]) hplacedAt).mpr ?_
      rw [hlow]
      omega
    obtain ⟨other, hother, -, -, hiv⟩ := hagrees
    obtain rfl := Option.some.inj (hcall.symm.trans hother)
    rw [hnth] at hiv
    rw [hpacket] at hr hssrc
    exact ⟨pcmFrame, hframe, decryptedAlaw_packetAt hplace hraises hsetup
      (hsized _ (List.mem_of_getElem? hframe)) hr hssrc hiv⟩

/-- The datagrams of a run whose slots are not rewritten in flight are packets of its frames. -/
theorem packets_of_run {p : RTPPacketizer} {ency : Option IEncryptionStrategy}
    (hspan : KeepsSpan ency) {es : List Ring.Event} {t : Ring.State}
    (hrun : runEvents Ring.step (Ring.initial p ency) es = some t)
    (hframes : ∀ e ∈ es, Ring.FrameSized e)
    (htime : Meets Ring.step Ring.InTime (Ring.initial p ency) es)
    (hdelivered : Delivered t.wire ks datagrams) :
    PacketsOf p ency (Ring.taken (Ring.initial p ency) es) ks datagrams := by
  refine hdelivered.imp fun k bytes h => ?_
  obtain ⟨sent, hmem, rfl, rfl⟩ := h
  exact Ring.wire_packetAt hspan hrun hframes htime sent hmem

/-- In a run whose slots are not rewritten in flight, a client that starts with a packet of the
first lap and gets the datagrams within the window decrypts the frame of each in A-law, but for
the packets with the last sequence number of a lap. -/
theorem decrypts_stream (hplace : cryptopp.InPlace)
    (hraises : ∀ iv data, cryptopp.raises iv data = none)
    (hsetup : setupSecurity hkdf masterKey salt ssrc = .ok aes) {es : List Ring.Event}
    {t : Ring.State}
    (hrun : runEvents Ring.step (Ring.initial (Ring.streamPacketizer ssrc sequenceNum timestamp)
      (some (aes.strategy cryptopp))) es = some t)
    (hframes : ∀ e ∈ es, Ring.FrameSized e)
    (htime : Meets Ring.step Ring.InTime (Ring.initial
      (Ring.streamPacketizer ssrc sequenceNum timestamp) (some (aes.strategy cryptopp))) es)
    (hdelivered : Delivered t.wire ks datagrams)
    (hwin : InWindow ks) (hstart : ∀ k ∈ ks.head?, sequenceNum.toNat + k < 2 ^ 16) :
    ∃ received, receiveAll ⟨hkdf, cryptopp.aes⟩ masterKey salt initial datagrams =
        some received ∧
      List.Forall₂ (Hears sequenceNum (Ring.taken (Ring.initial
        (Ring.streamPacketizer ssrc sequenceNum timestamp) (some (aes.strategy cryptopp))) es))
          ks received :=
  receiver_decrypts hplace hraises hsetup (sized_taken hrun hframes)
    (packets_of_run (keepsSpan_strategy hplace aes) hrun hframes htime hdelivered) hwin hstart

end Receive

/-- The wire itself is a delivery. -/
theorem delivered_wire (wire : List (Ring.Outstanding × List UInt8)) :
    Delivered wire (wire.map (·.1.frame)) (wire.map (·.2)) := by
  rw [Delivered, List.forall₂_map_left_iff, List.forall₂_map_right_iff, List.forall₂_same]
  exact fun sent hmem => ⟨sent, hmem, rfl, rfl⟩

/-- A frame of rising samples. -/
def rampFrame (start : ℕ) : List UInt8 :=
  (List.range FRAME_SIZE_BYTES).map fun i => UInt8.ofNat ((start + i) % 100)

/-- Two frames for one client, the second on its way first. -/
def crossedFrames : List Ring.Event :=
  [.addClient 7 false, .sendFrame (rampFrame 0) fun _ => false,
    .sendFrame (rampFrame 20) fun _ => false, .transmit 1, .transmit 0]

/-- Both frames are decrypted, whatever their order. -/
theorem decrypts_stream_crossed_frames :
    ∃ t received, runEvents Ring.step Ring.encryptedStream crossedFrames = some t ∧
      receiveAll ⟨exampleHkdf, exampleAes⟩ (List.replicate 16 0) (List.replicate 16 0) initial
        (t.wire.map (·.2)) = some received ∧
      List.Forall₂ (Hears 10 [rampFrame 0, rampFrame 20]) [1, 0] received := by
  have hframes : (runEvents Ring.step Ring.encryptedStream crossedFrames).map
      (fun t => t.wire.map (·.1.frame)) = some [1, 0] := by decide +kernel
  obtain ⟨t, ht, hwire⟩ := Option.map_eq_some_iff.mp hframes
  have hdelivered := delivered_wire t.wire
  rw [hwire] at hdelivered
  have htaken : Ring.taken Ring.encryptedStream crossedFrames = [rampFrame 0, rampFrame 20] := by
    decide +kernel
  obtain ⟨received, hall, hheard⟩ := @decrypts_stream ⟨exampleAes, fun _ _ => none⟩ exampleHkdf
    (List.replicate 16 0) (List.replicate 16 0) 1 exampleStrategy 10 9 [1, 0] _ inPlace_exampleAes
    (fun _ _ => rfl) rfl crossedFrames t ht (by decide +kernel) (by decide +kernel) hdelivered
    (by decide) (by decide)
  exact ⟨t, received, ht, hall, htaken ▸ hheard⟩

end HermesFlow.ReceiverClient
