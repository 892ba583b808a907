import HermesFlow.RTPPacketizer

/-!
# The keys of a stream

The session key and the base IV of a stream are derived from the configured
master key and salt and the SSRC. HKDF is a parameter.
-/

namespace HermesFlow.Rtp

open ByteOrder Crypto

/-- HKDF-SHA256 for sixteen bytes: input key material and salt. -/
abbrev Hkdf := List UInt8 → List UInt8 → Vector UInt8 16

/-- Byte `i` of the SSRC, most significant first: `(ssrc >> shift) & BYTE_MASK`. -/
def ssrcByte (ssrc : UInt32) (shift : UInt32) : UInt8 := (ssrc >>> shift &&& 0xFF).toUInt8

/-- `derive_iv_from_ssrc`; `none` when `iv[3]` is not a byte of the salt. -/
def deriveIvFromSsrc (sessionSalt : List UInt8) (ssrc : UInt32) : Option (List UInt8) :=
  match sessionSalt with
  | a :: b :: c :: d :: rest =>
    some ((a ^^^ ssrcByte ssrc 24) :: (b ^^^ ssrcByte ssrc 16) :: (c ^^^ ssrcByte ssrc 8) ::
      (d ^^^ ssrcByte ssrc 0) :: rest)
  | _ => none

/-- The IV is as long as the salt. -/
theorem length_deriveIvFromSsrc {sessionSalt iv : List UInt8} {ssrc : UInt32}
    (h : deriveIvFromSsrc sessionSalt ssrc = some iv) : iv.length = sessionSalt.length := by
  unfold deriveIvFromSsrc at h
  split at h
  · obtain rfl := Option.some.inj h
    rfl
  · cases h

/-- A salt of four bytes gives an initialisation vector for every source. -/
theorem deriveIvFromSsrc_isSome {sessionSalt : List UInt8} (ssrc : UInt32)
    (h : 4 ≤ sessionSalt.length) : ∃ iv, deriveIvFromSsrc sessionSalt ssrc = some iv := by
  rcases sessionSalt with _ | ⟨a, _ | ⟨b, _ | ⟨c, _ | ⟨d, rest⟩⟩⟩⟩
  · simp at h
  · simp at h
  · simp at h
  · simp at h
  · exact ⟨_, rfl⟩

/-- `derive_session_key`. -/
def deriveSessionKey (hkdf : Hkdf) (sessionMasterKey : List UInt8) (ssrc : UInt32) : List UInt8 :=
  (hkdf sessionMasterKey
    [ssrcByte ssrc 24, ssrcByte ssrc 16, ssrcByte ssrc 8, ssrcByte ssrc 0]).toList

/-- How `setup_security` fails. -/
inductive SetupFault where
  /-- A byte beyond the end of the salt is written. -/
  | outOfBounds
  /-- The strategy's constructor throws. -/
  | threw (what : String)

/-- `setup_security`: the encryptor installed. -/
def setupSecurity (hkdf : Hkdf) (sessionMasterKey sessionSalt : List UInt8) (ssrc : UInt32) :
    Except SetupFault AESEncryptionStrategy :=
  match deriveIvFromSsrc sessionSalt ssrc with
  | none => .error .outOfBounds
  | some iv =>
    (createAesEncryptionStrategy (deriveSessionKey hkdf sessionMasterKey ssrc) iv).mapError .threw

/-- A stream whose security is set up encrypts under the derived IV. -/
theorem setupSecurity_ok {hkdf : Hkdf} {sessionMasterKey sessionSalt : List UInt8} {ssrc : UInt32}
    {s : AESEncryptionStrategy}
    (h : setupSecurity hkdf sessionMasterKey sessionSalt ssrc = .ok s) :
    deriveIvFromSsrc sessionSalt ssrc = some s.baseIv := by
  unfold setupSecurity at h
  split at h
  · cases h
  · rename_i iv hiv
    unfold createAesEncryptionStrategy at h
    split at h
    · cases h
      exact hiv
    · cases h

end HermesFlow.Rtp
