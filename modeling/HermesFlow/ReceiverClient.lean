import HermesFlow.RTPStreamer
import HermesFlow.Rollover

/-!
# The receiver of the example client

The client parses the sequence number and the SSRC of each datagram, derives
key and base IV when the SSRC is new, estimates the rollover counter and
decrypts the rest. Its numbers are integers without bound. HKDF and AES are
parameters; an exception ends the program.
-/

namespace HermesFlow.ReceiverClient

open ByteOrder CounterMode Rtp

/-- What the client takes from its cryptography package. -/
structure Cryptography where
  /-- `HKDF(...).derive`. -/
  hkdf : Hkdf
  /-- One block of AES: key and counter value. -/
  aes : List UInt8 → BitVec 128 → List UInt8

/-- The variables kept between datagrams. -/
structure State where
  /-- `active_ssrc`. -/
  activeSsrc : Option ℕ
  /-- `session_key`. -/
  sessionKey : List UInt8
  /-- `base_iv`. -/
  baseIv : List UInt8
  /-- `roc`. -/
  roc : ℕ
  /-- `max_seq_num`. -/
  maxSeqNum : ℕ

/-- The variables before the first datagram. -/
def initial : State := ⟨none, [], [], 0, 0⟩

/-- What the client computes for a datagram. -/
structure Received where
  /-- `v_roc`. -/
  vRoc : ℕ
  /-- `seq_num`. -/
  seqNum : ℕ
  /-- `current_iv`. -/
  currentIv : List UInt8
  /-- `decrypted_alaw`. -/
  decryptedAlaw : List UInt8

/-- Byte of the SSRC: `(ssrc >> shift) & 0xFF`. -/
def ssrcByte (ssrc shift : ℕ) : UInt8 := UInt8.ofNat (ssrc >>> shift &&& 0xFF)

/-- The salt with the SSRC XORed in; `none` is an `IndexError`. -/
def deriveBaseIv (masterSalt : List UInt8) (ssrc : ℕ) : Option (List UInt8) :=
  match masterSalt with
  | a :: b :: c :: d :: rest =>
    some ((a ^^^ ssrcByte ssrc 24) :: (b ^^^ ssrcByte ssrc 16) :: (c ^^^ ssrcByte ssrc 8) ::
      (d ^^^ ssrcByte ssrc 0) :: rest)
  | _ => none

/-- A datagram whose SSRC is not the active one starts a new stream. -/
def trackSsrc (crypto : Cryptography) (masterKey masterSalt : List UInt8) (st : State)
    (ssrc seqNum : ℕ) : Option State :=
  if st.activeSsrc = some ssrc then some st
  else (deriveBaseIv masterSalt ssrc).map fun baseIv =>
    { activeSsrc := some ssrc
      sessionKey := (crypto.hkdf masterKey (storeBE 4 ssrc)).toList
      baseIv := baseIv
      roc := 0
      maxSeqNum := seqNum }

/-- The estimate `v_roc`, and `roc` and `max_seq_num` after it. -/
def rollover (roc maxSeqNum seqNum : ℕ) : ℕ × ℕ × ℕ :=
  if maxSeqNum < 32768 then
    if (seqNum : ℤ) - maxSeqNum > 32768 then ((((roc : ℤ) - 1) % 2 ^ 32).toNat, roc, maxSeqNum)
    else (roc, roc, max maxSeqNum seqNum)
  else if (maxSeqNum : ℤ) - seqNum > 32768 then
    let vRoc := (roc + 1) % 2 ^ 32
    (vRoc, vRoc, seqNum)
  else if seqNum > maxSeqNum then (roc, roc, seqNum)
  else (roc, roc, maxSeqNum)

/-- The IV of a packet index; `none` is the error of `struct.unpack`. -/
def currentIv (baseIv : List UInt8) (packetIndex : ℕ) : Option (List UInt8) :=
  if ((baseIv.drop 8).take 8).length = 8 then
    some (baseIv.take 8 ++ storeLE 8 (loadLE ((baseIv.drop 8).take 8) ^^^ packetIndex) ++
      baseIv.drop 16)
  else none

/-- AES-CTR decryption; `none` is the error of a nonce that is not 16 bytes. -/
def decrypt (crypto : Cryptography) (key iv payload : List UInt8) : Option (List UInt8) :=
  if iv.length = 16 then
    some (process (crypto.aes key)
      (counters (BitVec.ofNat 128 (loadBE iv)) ((payload.length + 15) / 16)) payload)
  else none

/-- One round of the loop; a datagram is cut off at 2048 bytes. The inner
`none` is a datagram dropped as malformed, the outer one an exception. -/
def receive (crypto : Cryptography) (masterKey masterSalt : List UInt8) (st : State)
    (datagram : List UInt8) : Option (State × Option Received) :=
  let packet := datagram.take 2048
  if packet.length < 12 then some (st, none)
  else do
    let seqNum := loadBE ((packet.drop 2).take 2)
    let ssrc := loadBE ((packet.drop 8).take 4)
    let st ← trackSsrc crypto masterKey masterSalt st ssrc seqNum
    let (vRoc, roc, maxSeqNum) := rollover st.roc st.maxSeqNum seqNum
    let iv ← currentIv st.baseIv (vRoc <<< 16 ||| seqNum)
    let decryptedAlaw ← decrypt crypto st.sessionKey iv (packet.drop 12)
    pure ({ st with roc := roc, maxSeqNum := maxSeqNum },
      some ⟨vRoc, seqNum, iv, decryptedAlaw⟩)

/-- The rounds for the datagrams in the order in which they arrive. -/
def receiveAll (crypto : Cryptography) (masterKey masterSalt : List UInt8) :
    State → List (List UInt8) → Option (List Received)
  | _, [] => some []
  | st, datagram :: datagrams => do
    let (st, received) ← receive crypto masterKey masterSalt st datagram
    let rest ← receiveAll crypto masterKey masterSalt st datagrams
    pure (received.toList ++ rest)

/-- The client's estimate is the rollover rule for 16-bit places and 32-bit laps. -/
theorem rollover_eq (roc maxSeqNum seqNum : ℕ) :
    rollover roc maxSeqNum seqNum =
      (((⟨roc, maxSeqNum⟩ : Rollover.Tracker).receive (2 ^ 15) (2 ^ 32) seqNum).1,
        ((⟨roc, maxSeqNum⟩ : Rollover.Tracker).receive (2 ^ 15) (2 ^ 32) seqNum).2.lap,
        ((⟨roc, maxSeqNum⟩ : Rollover.Tracker).receive (2 ^ 15) (2 ^ 32) seqNum).2.place) := by
  have hpred : (((roc : ℤ) - 1) % 2 ^ 32).toNat = (roc + 2 ^ 32 - 1) % 2 ^ 32 := by omega
  have hlow : maxSeqNum < 32768 ↔ maxSeqNum < 2 ^ 15 := Iff.rfl
  have hearlier : (seqNum : ℤ) - maxSeqNum > 32768 ↔ maxSeqNum + 2 ^ 15 < seqNum := by omega
  have hlater : (maxSeqNum : ℤ) - seqNum > 32768 ↔ seqNum + 2 ^ 15 < maxSeqNum := by omega
  simp only [rollover, Rollover.Tracker.receive, hpred, hlow, hearlier, hlater]
  split
  · split <;> rfl
  · split
    · rfl
    · split
      · rename_i h
        rw [Nat.max_eq_right (by omega)]
      · rename_i h
        rw [Nat.max_eq_left (by omega)]

end HermesFlow.ReceiverClient
