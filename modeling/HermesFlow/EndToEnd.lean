import HermesFlow.AlawFidelity
import HermesFlow.LiveTimeline
import HermesFlow.SecureStream

/-!
# From the files to the receiver

The loop of a session hands its frames to the streamer. Where nodes and slots are served in
time and a client is registered from the first frame on, packet `k` of the stream carries frame
`k` of the timeline, and the receiver decrypts that frame. Decoded, its samples are those of the
frame up to what A-law loses.
-/

namespace HermesFlow.EndToEnd

open Audio Crypto EventRun ReceiverClient Rtp
open Audio.Timeline (Plays Served startReads timeline length_nodeFrame mixedThenDelaySession
  parse_mixedThenDelay plays_mixedThenDelay rampFile timeline_mixedThenDelay)

/-- The frames that the events hand to the streamer. -/
def handed : List Ring.Event → List (List UInt8)
  | [] => []
  | .sendFrame pcmFrame _ :: es => pcmFrame :: handed es
  | .addClient _ _ :: es | .removeClient _ :: es | .transmit _ :: es | .complete _ :: es =>
    handed es

/-- A client is registered when a frame is handed over. -/
def HasClient (s : Ring.State) : Ring.Event → Prop
  | .sendFrame _ _ => s.streamer.clients ≠ []
  | .addClient _ _ | .removeClient _ | .transmit _ | .complete _ => True

instance (s : Ring.State) : (e : Ring.Event) → Decidable (HasClient s e)
  | .sendFrame _ _ => inferInstanceAs (Decidable (_ ≠ _))
  | .addClient _ _ | .removeClient _ | .transmit _ | .complete _ => inferInstanceAs (Decidable True)

/-- Then the streamer takes every frame. -/
theorem taken_eq_handed {s t : Ring.State} {es : List Ring.Event}
    (hclient : Meets Ring.step HasClient s es) (hrun : runEvents Ring.step s es = some t) :
    Ring.taken s es = handed es := by
  induction es generalizing s with
  | nil => rfl
  | cons e es ih =>
    obtain ⟨s', hstep, hrest⟩ := runEvents_cons_iff.mp hrun
    obtain ⟨hfirst, hclient⟩ := hclient
    have htail : Ring.taken s (e :: es) = Ring.frameTaken s e ++ handed es := by
      rw [← ih (hclient s' hstep) hrest, Ring.taken, runLog, hstep]
      rfl
    rw [htail]
    cases e with
    | sendFrame pcmFrame lost =>
      rw [Ring.frameTaken, if_neg hfirst, handed]
      rfl
    | addClient | removeClient | transmit | complete => rfl

/-- Every frame handed over has the size of one. -/
theorem frameSized_of_handed {es : List Ring.Event}
    (h : ∀ pcmFrame ∈ handed es, pcmFrame.length = FRAME_SIZE_BYTES) :
    ∀ e ∈ es, Ring.FrameSized e := by
  induction es with
  | nil => exact fun _ he => by cases he
  | cons e es ih =>
    cases e with
    | sendFrame pcmFrame lost =>
      obtain ⟨hfirst, hrest⟩ := List.forall_mem_cons.mp h
      exact List.forall_mem_cons.mpr ⟨hfirst, ih hrest⟩
    | addClient | removeClient | transmit | complete =>
      exact List.forall_mem_cons.mpr ⟨trivial, ih h⟩

/-- So have those of a timeline. -/
theorem length_of_mem_timeline {Shifter : Type} {fx : FloatOps Shifter}
    (hfx : fx.toEffects.InPlace) {g : Nodes Shifter} {chain : List NodeRef}
    (haudio : ∀ r ∈ chain, r.IsAudio) {pcmFrame : List UInt8}
    (h : pcmFrame ∈ timeline fx g chain) : pcmFrame.length = FRAME_SIZE_BYTES := by
  obtain ⟨r, hr, hmem⟩ := List.mem_flatMap.mp h
  obtain ⟨k, -, rfl⟩ := List.mem_map.mp hmem
  exact length_nodeFrame hfx (haudio r hr) k

/-- What the client makes of packet `k`, decoded: the samples of the frame, as A-law leaves them. -/
def PlaysSamples (sequenceNum : UInt16) (frames : List (List UInt8)) (k : ℕ) (r : Received) : Prop :=
  (sequenceNum.toNat + k) % 2 ^ 16 ≠ 2 ^ 16 - 1 →
    ∃ pcmFrame, frames[k]? = some pcmFrame ∧
      List.Forall₂ Alaw.HeardAs (asSamples pcmFrame) (decodeAlaw r.decryptedAlaw)

/-- The receiver plays the timeline: where the session of an accepted flow is served in time,
whoever pauses, resumes or stops it, a client is registered, and no slot is rewritten in flight, a
client that starts with a packet of the first lap and gets the datagrams within the window
decodes, for each packet but those with the last sequence number of a lap, the samples of the frame
that the timeline has in the packet's place. -/
theorem receiver_plays_timeline {Shifter : Type} {fx : FloatOps Shifter} {lib : Infra.Library}
    {o : Infra.JsonObject} {graph : Infra.Graph} (hparse : Infra.parseGraph lib o = .ok graph)
    (hfx : fx.toEffects.InPlace) {disk : String → Option (List UInt8)} {shifter : Shifter}
    {stats : SessionStats} {pcmBuffer : List UInt8} (hbuffer : pcmBuffer.length = FRAME_SIZE_BYTES)
    {chain : List NodeRef} (hplays : Plays (startReads graph disk shifter stats pcmBuffer) chain)
    {isWebrtc hasObserver : Bool} {janusPort : Option UInt16} {now : ℕ}
    {steps : List Live.Event} {session : Live.State Shifter}
    (hserved : Meets (Live.step fx) Live.Served
      (Live.spawned graph disk shifter stats pcmBuffer isWebrtc janusPort hasObserver now) steps)
    (hsession : runEvents (Live.step fx)
      (Live.spawned graph disk shifter stats pcmBuffer isWebrtc janusPort hasObserver now) steps =
        some session)
    {cryptopp : CryptoPP} {hkdf : Hkdf} {masterKey salt : List UInt8} {ssrc : UInt32}
    {aes : AESEncryptionStrategy} (hplace : cryptopp.InPlace)
    (hraises : ∀ iv data, cryptopp.raises iv data = none)
    (hsetup : setupSecurity hkdf masterKey salt ssrc = .ok aes) {sequenceNum : UInt16}
    {timestamp : UInt32} {es : List Ring.Event} {t : Ring.State}
    (hrun : runEvents Ring.step (Ring.initial (Ring.streamPacketizer ssrc sequenceNum timestamp)
      (some (aes.strategy cryptopp))) es = some t)
    (hhanded : handed es = session.sent)
    (hclient : Meets Ring.step HasClient (Ring.initial
      (Ring.streamPacketizer ssrc sequenceNum timestamp) (some (aes.strategy cryptopp))) es)
    (htime : Meets Ring.step Ring.InTime (Ring.initial
      (Ring.streamPacketizer ssrc sequenceNum timestamp) (some (aes.strategy cryptopp))) es)
    {ks : List ℕ} {datagrams : List (List UInt8)} (hdelivered : Delivered t.wire ks datagrams)
    (hwin : InWindow ks) (hstart : ∀ k ∈ ks.head?, sequenceNum.toNat + k < 2 ^ 16) :
    ∃ received, receiveAll ⟨hkdf, cryptopp.aes⟩ masterKey salt initial datagrams =
        some received ∧
      List.Forall₂ (PlaysSamples sequenceNum (timeline fx
        (startReads graph disk shifter stats pcmBuffer).executor.nodes chain)) ks received := by
  have hwithin : session.sent <+: timeline fx
      (startReads graph disk shifter stats pcmBuffer).executor.nodes chain :=
    (Live.sent_within hparse hfx hbuffer hplays hserved hsession).trans (List.dropLast_prefix _)
  have hsized : ∀ pcmFrame ∈ session.sent, pcmFrame.length = FRAME_SIZE_BYTES := fun pcmFrame hpcm =>
    length_of_mem_timeline hfx (fun r hr => (hplays.audio r hr).1) (hwithin.subset hpcm)
  have hframes : ∀ e ∈ es, Ring.FrameSized e := frameSized_of_handed (by rwa [hhanded])
  have hpackets := packets_of_run (keepsSpan_strategy hplace aes) hrun hframes htime hdelivered
  rw [taken_eq_handed hclient hrun, hhanded] at hpackets
  obtain ⟨received, hall, hheard⟩ :=
    receiver_decrypts hplace hraises hsetup hsized hpackets hwin hstart
  refine ⟨received, hall, hheard.imp fun k r hr hlast => ?_⟩
  obtain ⟨pcmFrame, hframe, halaw⟩ := hr hlast
  have hplayed := heardAs_decodeAlaw (fitsInt16_asSamples pcmFrame)
  obtain ⟨more, hmore⟩ := hwithin
  refine ⟨pcmFrame, ?_, by rwa [halaw]⟩
  rw [← hmore, List.getElem?_append_left (List.getElem?_eq_some_iff.mp hframe).1, hframe]

/-- The listener of a file plays its samples, whatever the order of the packets. -/
theorem receiver_plays_timeline_paused :
    ∃ t received, runEvents Ring.step Ring.encryptedStream crossedFrames = some t ∧
      receiveAll ⟨exampleHkdf, exampleAes⟩ (List.replicate 16 0) (List.replicate 16 0) initial
        (t.wire.map (·.2)) = some received ∧
      List.Forall₂ (PlaysSamples 10 [rampFile.take FRAME_SIZE_BYTES, rampFile.drop FRAME_SIZE_BYTES,
        List.replicate FRAME_SIZE_BYTES 0]) [1, 0] received := by
  obtain ⟨session, hsession, hsent⟩ := Option.map_eq_some_iff.mp Live.sent_mixedThenDelayLive
  have hhanded : handed crossedFrames = session.sent := by
    rw [hsent]
    decide +kernel
  have hframes : (runEvents Ring.step Ring.encryptedStream crossedFrames).map
      (fun t => t.wire.map (·.1.frame)) = some [1, 0] := by decide +kernel
  obtain ⟨t, ht, hwire⟩ := Option.map_eq_some_iff.mp hframes
  have hdelivered := delivered_wire t.wire
  rw [hwire] at hdelivered
  obtain ⟨received, hall, hheard⟩ := receiver_plays_timeline parse_mixedThenDelay
    (fun _ _ _ => rfl) List.length_replicate plays_mixedThenDelay
    (meets_append_iff.mp Live.served_mixedThenDelayLive).1 hsession inPlace_exampleAes (fun _ _ => rfl)
    (show setupSecurity exampleHkdf (List.replicate 16 0) (List.replicate 16 0) 1 =
      .ok exampleStrategy from rfl) ht hhanded (by decide +kernel) (by decide +kernel)
    hdelivered (by decide) (by decide)
  change List.Forall₂ (PlaysSamples 10 (timeline Dispatch.idleOps
    mixedThenDelaySession.executor.nodes [.mixer 0, .delay 2])) [1, 0] received at hheard
  rw [timeline_mixedThenDelay] at hheard
  exact ⟨t, received, ht, hall, hheard⟩

end HermesFlow.EndToEnd
