import HermesFlow.ReceiverClient

/-!
# The IVs of sender and receiver

The receiver's estimate of the rollover counter counts from the lap of the
first packet it receives, the server's from the lap of the first packet it
sends, and the server counts the rollover one packet early. They agree on all
packets received if and only if the first of them is in the first lap and none
has the last sequence number of a lap.
-/

namespace HermesFlow.ReceiverClient

open ByteOrder Rollover Rtp Crypto

/-- Positions stay less than `2 ^ 15` from the highest one, `h` at first. -/
def WithinWindow : ℕ → List ℕ → Prop
  | _, [] => True
  | h, k :: ks => h < k + 2 ^ 15 ∧ k < h + 2 ^ 15 ∧ WithinWindow (max h k) ks

/-- The first position is less than `2 ^ 15`, and the others stay within the
window of the highest one before them. -/
def InWindow : List ℕ → Prop
  | [] => True
  | k :: ks => k < 2 ^ 15 ∧ WithinWindow k ks

instance decidableWithinWindow : ∀ (h : ℕ) (ks : List ℕ), Decidable (WithinWindow h ks)
  | _, [] => isTrue trivial
  | h, k :: ks =>
    have := decidableWithinWindow (max h k) ks
    inferInstanceAs (Decidable (_ ∧ _ ∧ _))

instance : ∀ ks, Decidable (InWindow ks)
  | [] => isTrue trivial
  | _ :: _ => inferInstanceAs (Decidable (_ ∧ _))

/-- The IV of an index under the base IV of a strategy. -/
def ivOf (s : AESEncryptionStrategy) (index : ℕ) : List UInt8 :=
  s.baseIv.take 8 ++ storeLE 8 (loadLE (s.baseIv.drop 8) ^^^ index)

/-- The client computes the server's initialisation vector. -/
theorem currentIv_eq_ivOf (s : AESEncryptionStrategy) (index : ℕ) :
    currentIv s.baseIv index = some (ivOf s index) := by
  have hsize : s.baseIv.length = 16 := s.baseIv_size
  have htail : (s.baseIv.drop 8).take 8 = s.baseIv.drop 8 :=
    List.take_of_length_le (by rw [List.length_drop, hsize])
  have hrest : s.baseIv.drop 16 = [] := List.drop_of_length_le (by rw [hsize])
  simp only [currentIv, htail, hrest, List.length_drop, hsize, ivOf, List.append_nil,
    Nat.reduceSub, if_true]

/-- An initialisation vector is one block. -/
theorem length_ivOf (s : AESEncryptionStrategy) (index : ℕ) : (ivOf s index).length = 16 := by
  have hsize : s.baseIv.length = 16 := s.baseIv_size
  rw [ivOf, List.length_append, List.length_take, length_storeLE, hsize]
  rfl

/-- Both ends shift and mask the SSRC alike. -/
theorem ssrcByte_eq (ssrc shift : UInt32) (h : shift.toNat < 32) :
    ssrcByte ssrc.toNat shift.toNat = Rtp.ssrcByte ssrc shift := by
  apply UInt8.toNat_inj.mp
  rw [Rtp.ssrcByte, ssrcByte, UInt32.toNat_toUInt8, UInt32.toNat_and, UInt32.toNat_shiftRight,
    Nat.mod_eq_of_lt h, UInt8.toNat_ofNat']
  rfl

/-- So they derive the same base IV. -/
theorem deriveBaseIv_eq (salt : List UInt8) (ssrc : UInt32) :
    deriveBaseIv salt ssrc.toNat = deriveIvFromSsrc salt ssrc := by
  have h24 : ssrcByte ssrc.toNat 24 = Rtp.ssrcByte ssrc 24 := ssrcByte_eq ssrc 24 (by decide)
  have h16 : ssrcByte ssrc.toNat 16 = Rtp.ssrcByte ssrc 16 := ssrcByte_eq ssrc 16 (by decide)
  have h8 : ssrcByte ssrc.toNat 8 = Rtp.ssrcByte ssrc 8 := ssrcByte_eq ssrc 8 (by decide)
  have h0 : ssrcByte ssrc.toNat 0 = Rtp.ssrcByte ssrc 0 := ssrcByte_eq ssrc 0 (by decide)
  rcases salt with _ | ⟨a, _ | ⟨b, _ | ⟨c, _ | ⟨d, rest⟩⟩⟩⟩
  case cons.cons.cons.cons => rw [deriveBaseIv, h24, h16, h8, h0, deriveIvFromSsrc]
  all_goals rfl

/-- What the client parses of a datagram of the server. -/
theorem parse_datagram {ency : Option IEncryptionStrategy} {call : RTPPacketizer × Call}
    {bytes : List UInt8} (h : datagram ency call = some bytes) :
    12 ≤ (bytes.take 2048).length ∧
      loadBE (((bytes.take 2048).drop 2).take 2) = call.1.sequenceNum.toNat ∧
      loadBE (((bytes.take 2048).drop 8).take 4) = call.1.ssrc.toNat := by
  rw [datagram_eq h]
  have hseq : loadBE (storeBE 2 call.1.sequenceNum.toNat) = call.1.sequenceNum.toNat := by
    rw [loadBE_storeBE]
    exact Nat.mod_eq_of_lt call.1.sequenceNum.toNat_lt
  have hssrc : loadBE (storeBE 4 call.1.ssrc.toNat) = call.1.ssrc.toNat := by
    rw [loadBE_storeBE]
    exact Nat.mod_eq_of_lt call.1.ssrc.toNat_lt
  refine ⟨?_, ?_, ?_⟩
  · simp [headerBytes, RTPPacketizer.header, storeBE, storeLE]
  · rw [← hseq]
    simp [headerBytes, RTPPacketizer.header, storeBE, storeLE]
  · rw [← hssrc]
    simp [headerBytes, RTPPacketizer.header, storeBE, storeLE]

/-- The state of a client that follows a stream: the counts of the stream are
its first sequence number plus the position, and `h` is the highest received. -/
structure Following (s : AESEncryptionStrategy) (ssrc : UInt32) (base h : ℕ) (st : State) :
    Prop where
  /-- The stream is the active one. -/
  active : st.activeSsrc = some ssrc.toNat
  /-- Its base IV is that of the server. -/
  baseIv : st.baseIv = s.baseIv
  /-- The rollover variables stand at `h`. -/
  tracks : Tracks (2 ^ 15) (2 ^ 32) base h ⟨st.roc, st.maxSeqNum⟩

/-- What the client computes for the packet of count `n`. -/
structure PlacedAt (s : AESEncryptionStrategy) (base n : ℕ) (r : Received) : Prop where
  /-- Its lap, counted from `base`. -/
  vRoc : (r.vRoc : ℤ) = ((n / 2 ^ 16 : ℕ) - base : ℤ) % 2 ^ 32
  /-- Its sequence number. -/
  seqNum : r.seqNum = n % 2 ^ 16
  /-- The IV of the index made of both. -/
  currentIv : r.currentIv = ivOf s (r.vRoc * 2 ^ 16 + r.seqNum)

/-- One round for a datagram within the window, once its stream is active. -/
theorem receive_following {crypto : Cryptography} {masterKey salt : List UInt8} {st st₁ : State}
    {s : AESEncryptionStrategy} {ency : Option IEncryptionStrategy}
    {call : RTPPacketizer × Call} {bytes : List UInt8} {base h n : ℕ}
    (hbytes : datagram ency call = some bytes) (hseq : call.1.sequenceNum.toNat = n % 2 ^ 16)
    (htrack : trackSsrc crypto masterKey salt st call.1.ssrc.toNat (n % 2 ^ 16) = some st₁)
    (hst : Following s call.1.ssrc base h st₁) (hlow : h < n + 2 ^ 15) (hhigh : n < h + 2 ^ 15) :
    ∃ st₂ r, receive crypto masterKey salt st bytes = some (st₂, some r) ∧
      Following s call.1.ssrc base (max h n) st₂ ∧ PlacedAt s base n r := by
  obtain ⟨hlen, hparse, hssrc⟩ := parse_datagram hbytes
  obtain ⟨hlap, htracks⟩ := receive_tracks (by decide) (by decide) hst.tracks hlow hhigh
  have hlapSize : (2 * 2 ^ 15 : ℕ) = 2 ^ 16 := rfl
  rw [hlapSize] at hlap htracks
  have hplace : n % 2 ^ 16 < 2 ^ 16 := Nat.mod_lt n (by decide)
  have hindex : ∀ lap, lap <<< 16 ||| n % 2 ^ 16 = lap * 2 ^ 16 + n % 2 ^ 16 := fun lap => by
    rw [← Nat.shiftLeft_add_eq_or_of_lt hplace, Nat.shiftLeft_eq]
  obtain ⟨t, ht⟩ : ∃ t, Tracker.receive (2 ^ 15) (2 ^ 32) ⟨st₁.roc, st₁.maxSeqNum⟩ (n % 2 ^ 16) = t :=
    ⟨_, rfl⟩
  rw [ht] at hlap htracks
  have hdecrypt : ∃ alaw, decrypt crypto st₁.sessionKey (ivOf s (t.1 * 2 ^ 16 + n % 2 ^ 16))
      ((bytes.take 2048).drop 12) = some alaw := by
    rw [decrypt, if_pos (length_ivOf s _)]
    exact ⟨_, rfl⟩
  obtain ⟨alaw, halaw⟩ := hdecrypt
  refine ⟨{ st₁ with roc := t.2.lap, maxSeqNum := t.2.place },
    ⟨t.1, n % 2 ^ 16, ivOf s (t.1 * 2 ^ 16 + n % 2 ^ 16), alaw⟩, ?_,
    ⟨hst.active, hst.baseIv, htracks⟩, ⟨hlap, rfl, rfl⟩⟩
  have hnot : ¬(bytes.take 2048).length < 12 := by omega
  simp only [receive, hnot, if_false, hparse, hssrc, hseq, htrack, rollover_eq, ht, hst.baseIv,
    hindex, currentIv_eq_ivOf, halaw, Option.bind_eq_bind, Option.bind_some, Option.pure_def]

/-- The rounds for datagrams within the window of the highest count. -/
theorem receiveAll_following {crypto : Cryptography} {masterKey salt : List UInt8}
    {s : AESEncryptionStrategy} {ency : Option IEncryptionStrategy} {ssrc : UInt32} {first base : ℕ}
    {run : List (RTPPacketizer × Call)}
    (hrun : ∀ (k : ℕ) (call : RTPPacketizer × Call), run[k]? = some call →
      call.1.ssrc = ssrc ∧ call.1.sequenceNum.toNat = (first + k) % 2 ^ 16)
    {ks : List ℕ} {datagrams : List (List UInt8)}
    (hsent : List.Forall₂ (fun k bytes => ∃ call, run[k]? = some call ∧
      datagram ency call = some bytes) ks datagrams)
    {h : ℕ} {st : State} (hst : Following s ssrc base (first + h) st) (hwin : WithinWindow h ks) :
    ∃ received, receiveAll crypto masterKey salt st datagrams = some received ∧
      List.Forall₂ (fun k r => PlacedAt s base (first + k) r) ks received := by
  induction hsent generalizing h st with
  | nil => exact ⟨[], rfl, .nil⟩
  | @cons k bytes ks datagrams hfirst hrest ih =>
    obtain ⟨call, hcall, hbytes⟩ := hfirst
    obtain ⟨rfl, hseq⟩ := hrun k call hcall
    obtain ⟨hlow, hhigh, hwin'⟩ := hwin
    have htrack : trackSsrc crypto masterKey salt st call.1.ssrc.toNat ((first + k) % 2 ^ 16) =
        some st := if_pos hst.active
    obtain ⟨st', r, hreceive, hst', hplaced⟩ :=
      receive_following hbytes hseq htrack hst (by omega) (by omega)
    rw [Nat.add_max_add_left] at hst'
    obtain ⟨received, hall, hplaces⟩ := ih hst' hwin'
    refine ⟨r :: received, ?_, .cons hplaced hplaces⟩
    simp only [receiveAll, hreceive, hall, Option.bind_eq_bind, Option.bind_some, Option.pure_def,
      Option.toList_some, List.singleton_append]

/-- All rounds of a client that starts with the first of the datagrams. -/
theorem receiveAll_initial {crypto : Cryptography} {hkdf : Hkdf} {masterKey salt : List UInt8}
    {s : AESEncryptionStrategy} {ency : Option IEncryptionStrategy} {ssrc : UInt32} {first : ℕ}
    {run : List (RTPPacketizer × Call)}
    (hsetup : setupSecurity hkdf masterKey salt ssrc = .ok s)
    (hrun : ∀ (k : ℕ) (call : RTPPacketizer × Call), run[k]? = some call →
      call.1.ssrc = ssrc ∧ call.1.sequenceNum.toNat = (first + k) % 2 ^ 16)
    {k : ℕ} {ks : List ℕ} {datagrams : List (List UInt8)}
    (hsent : List.Forall₂ (fun k bytes => ∃ call, run[k]? = some call ∧
      datagram ency call = some bytes) (k :: ks) datagrams)
    (hwin : WithinWindow k ks) :
    ∃ received, receiveAll crypto masterKey salt initial datagrams = some received ∧
      List.Forall₂ (fun i r => PlacedAt s ((first + k) / 2 ^ 16) (first + i) r) (k :: ks)
        received := by
  cases hsent with
  | @cons _ bytes _ datagrams hfirst hrest =>
    obtain ⟨call, hcall, hbytes⟩ := hfirst
    obtain ⟨rfl, hseq⟩ := hrun k call hcall
    have htrack : trackSsrc crypto masterKey salt initial call.1.ssrc.toNat ((first + k) % 2 ^ 16) =
        some ⟨some call.1.ssrc.toNat,
          (crypto.hkdf masterKey (storeBE 4 call.1.ssrc.toNat)).toList, s.baseIv, 0,
          (first + k) % 2 ^ 16⟩ := by
      rw [trackSsrc, if_neg (by simp [initial]), deriveBaseIv_eq, setupSecurity_ok hsetup,
        Option.map_some]
    obtain ⟨st', r, hreceive, hst', hplaced⟩ := receive_following hbytes hseq htrack
      ⟨rfl, rfl, tracks_first (2 ^ 15) (2 ^ 32) (first + k)⟩ (by omega) (by omega)
    rw [Nat.max_self] at hst'
    obtain ⟨received, hall, hplaces⟩ : ∃ received,
        receiveAll crypto masterKey salt st' datagrams = some received ∧ _ :=
      receiveAll_following hrun hrest hst' hwin
    refine ⟨r :: received, ?_, .cons hplaced hplaces⟩
    simp only [receiveAll, hreceive, hall, Option.bind_eq_bind, Option.bind_some, Option.pure_def,
      Option.toList_some, List.singleton_append]

/-- The client computes the rollover counter, the sequence number and the IV
that the server used for the packet of its `k`-th call: the index is the one that
this call gives to `encrypt`, and its payload takes the blocks from that IV on
(`payload_eq_process_consumed`). -/
def Agrees (s : AESEncryptionStrategy) (run : List (RTPPacketizer × Call)) (k : ℕ)
    (r : Received) : Prop :=
  ∃ call, run[k]? = some call ∧ r.vRoc = call.1.advance.roc.toNat ∧
    r.seqNum = call.1.sequenceNum.toNat ∧ r.currentIv = s.currentIv call.1.packetIndex

/-- They agree on a packet if and only if the laps they count are the same. -/
theorem agrees_iff_lap {s : AESEncryptionStrategy} {run : List (RTPPacketizer × Call)}
    {base n k : ℕ} {r : Received} {call : RTPPacketizer × Call} (hcall : run[k]? = some call)
    (hpos : call.1.position = n % 2 ^ 48) (hr : PlacedAt s base n r) :
    Agrees s run k r ↔
      ((n / 2 ^ 16 : ℕ) - base : ℤ) % 2 ^ 32 = ((n + 1) / 2 ^ 16 % 2 ^ 32 : ℕ) := by
  have hroc : call.1.advance.roc.toNat = (n + 1) / 2 ^ 16 % 2 ^ 32 := by
    rw [RTPPacketizer.advance_roc_toNat, hpos]
    omega
  have hseq : call.1.sequenceNum.toNat = n % 2 ^ 16 := by
    rw [RTPPacketizer.sequenceNum_toNat, hpos]
    omega
  rw [← hr.vRoc, ← hroc, Nat.cast_inj]
  constructor
  · rintro ⟨other, hother, hlap, -⟩
    obtain rfl : call = other := Option.some.inj (hcall.symm.trans hother)
    exact hlap
  · intro hlap
    have hindex : r.vRoc * 2 ^ 16 + r.seqNum = call.1.packetIndex.toNat := by
      rw [RTPPacketizer.packetIndex_toNat, RTPPacketizer.index, hlap, hr.seqNum, hseq]
    refine ⟨call, hcall, hlap, hr.seqNum.trans hseq.symm, ?_⟩
    rw [hr.currentIv, hindex, AESEncryptionStrategy.loadLE_currentIv]
    rfl

/-- Every left member of a pairing is paired. -/
theorem exists_of_forall₂ {α β : Type*} {R : α → β → Prop} {as : List α} {bs : List β}
    (h : List.Forall₂ R as bs) : ∀ a ∈ as, ∃ b, R a b := by
  induction h with
  | nil => simp
  | cons hab hrest ih => exact List.forall_mem_cons.mpr ⟨⟨_, hab⟩, ih⟩

/-- A pairing whose relation depends on the left members alone. -/
theorem forall₂_iff_forall_mem {α β : Type*} {R Q : α → β → Prop} {C : α → Prop} {as : List α}
    {bs : List β} (h : List.Forall₂ R as bs) (hQ : ∀ a ∈ as, ∀ b, R a b → (Q a b ↔ C a)) :
    List.Forall₂ Q as bs ↔ ∀ a ∈ as, C a := by
  induction h with
  | nil => simp
  | @cons a b as bs hab hrest ih =>
    rw [List.forall₂_cons, List.forall_mem_cons, hQ a List.mem_cons_self b hab,
      ih fun c hc => hQ c (List.mem_cons_of_mem a hc)]

/-- HKDF-SHA256 at a zero master key and SSRC 1. -/
def exampleHkdf : Hkdf := fun _ _ => exampleKey

/-- For every delivery within the window, the client agrees with the server on
all packets received if and only if the first one is in the first lap of
sequence numbers and none has the last number of a lap. The IVs are those of the
`encrypt` calls (`payload_eq_process_consumed`). -/
theorem iv_agreement_iff (cryptopp : CryptoPP) (crypto : Cryptography) {hkdf : Hkdf}
    {masterKey salt : List UInt8} {ssrc : UInt32} {s : AESEncryptionStrategy}
    (hsetup : setupSecurity hkdf masterKey salt ssrc = .ok s)
    (payloadType : UInt8) (timestampIncrement timestamp : UInt32) (sequenceNum : UInt16)
    (calls : List Call) {ks : List ℕ} {datagrams : List (List UInt8)}
    (hsent : List.Forall₂ (fun k bytes => ∃ call, (runCalls (some (s.strategy cryptopp))
      (create payloadType ssrc timestampIncrement sequenceNum timestamp) calls)[k]? = some call ∧
        datagram (some (s.strategy cryptopp)) call = some bytes) ks datagrams)
    (hwin : InWindow ks) :
    ∃ received, receiveAll crypto masterKey salt initial datagrams = some received ∧
      (List.Forall₂ (Agrees s (runCalls (some (s.strategy cryptopp))
        (create payloadType ssrc timestampIncrement sequenceNum timestamp) calls)) ks received ↔
          (∀ k ∈ ks.head?, sequenceNum.toNat + k < 2 ^ 16) ∧
            ∀ k ∈ ks, (sequenceNum.toNat + k) % 2 ^ 16 ≠ 2 ^ 16 - 1) := by
  have hfirst := sequenceNum.toNat_lt
  have hpos : ∀ (k : ℕ) (call : RTPPacketizer × Call), (runCalls (some (s.strategy cryptopp))
      (create payloadType ssrc timestampIncrement sequenceNum timestamp) calls)[k]? = some call →
        call.1.position = (sequenceNum.toNat + k) % 2 ^ 48 := by
    intro k call hcall
    rw [(runCalls_position hcall).1]
    simp [create, RTPPacketizer.position]
  have hrun : ∀ (k : ℕ) (call : RTPPacketizer × Call), (runCalls (some (s.strategy cryptopp))
      (create payloadType ssrc timestampIncrement sequenceNum timestamp) calls)[k]? = some call →
        call.1.ssrc = ssrc ∧ call.1.sequenceNum.toNat = (sequenceNum.toNat + k) % 2 ^ 16 := by
    intro k call hcall
    refine ⟨runCalls_ssrc (List.mem_of_getElem? hcall), ?_⟩
    rw [RTPPacketizer.sequenceNum_toNat, hpos k call hcall]
    omega
  cases ks with
  | nil =>
    cases hsent
    exact ⟨[], rfl, by simp⟩
  | cons k ks =>
    obtain ⟨hk, hwin⟩ := hwin
    obtain ⟨received, hall, hplaced⟩ := receiveAll_initial hsetup hrun hsent hwin
    refine ⟨received, hall, ?_⟩
    have hlap : ∀ i ∈ k :: ks, ∀ r,
        PlacedAt s ((sequenceNum.toNat + k) / 2 ^ 16) (sequenceNum.toNat + i) r →
          (Agrees s (runCalls (some (s.strategy cryptopp))
            (create payloadType ssrc timestampIncrement sequenceNum timestamp) calls) i r ↔
              (((sequenceNum.toNat + i) / 2 ^ 16 : ℕ) - ((sequenceNum.toNat + k) / 2 ^ 16 : ℕ) : ℤ) %
                2 ^ 32 = ((sequenceNum.toNat + i + 1) / 2 ^ 16 % 2 ^ 32 : ℕ)) := by
      intro i hi r hr
      obtain ⟨-, call, hcall, -⟩ := exists_of_forall₂ hsent i hi
      exact agrees_iff_lap hcall (hpos i call hcall) hr
    rw [forall₂_iff_forall_mem hplaced hlap]
    simp only [List.head?_cons, Option.mem_def, Option.some.injEq, forall_eq']
    constructor
    · intro hlaps
      have hstart := hlaps k List.mem_cons_self
      have hlow : sequenceNum.toNat + k < 2 ^ 16 := by omega
      refine ⟨hlow, fun i hi hlast => ?_⟩
      have hlap := hlaps i hi
      omega
    · rintro ⟨hlow, hlast⟩ i hi
      have hi' := hlast i hi
      omega

/-- Two packets of one lap, received in the other order. -/
theorem iv_agreement_iff_reordered :
    ∃ received, receiveAll ⟨exampleHkdf, exampleAes⟩ (List.replicate 16 0) (List.replicate 16 0)
      initial [[128, 8, 0, 11, 0, 0, 0, 160, 0, 0, 0, 1, 153],
        [128, 8, 0, 10, 0, 0, 0, 0, 0, 0, 0, 1, 15]] = some received ∧
      List.Forall₂ (Agrees exampleStrategy (runCalls
        (some (exampleStrategy.strategy ⟨exampleAes, fun _ _ => none⟩)) (create 8 1 160 10 0)
          [⟨[213], List.replicate 13 0⟩, ⟨[213], List.replicate 13 0⟩])) [1, 0] received := by
  obtain ⟨received, hall, hiff⟩ := @iv_agreement_iff ⟨exampleAes, fun _ _ => none⟩
    ⟨exampleHkdf, exampleAes⟩ exampleHkdf (List.replicate 16 0) (List.replicate 16 0) 1
    exampleStrategy rfl 8 160 0 10
    [⟨[213], List.replicate 13 0⟩, ⟨[213], List.replicate 13 0⟩] [1, 0]
    [[128, 8, 0, 11, 0, 0, 0, 160, 0, 0, 0, 1, 153], [128, 8, 0, 10, 0, 0, 0, 0, 0, 0, 0, 1, 15]]
    (.cons ⟨_, rfl, by decide⟩ (.cons ⟨_, rfl, by decide⟩ .nil)) (by decide)
  exact ⟨received, hall, hiff.mpr (by decide)⟩

/-- A stream that starts with sequence number 65535: its first packet is
encrypted under rollover counter 1 and decrypted under 0. -/
theorem iv_mismatch_last_number :
    ¬∀ (cryptopp : CryptoPP) (crypto : Cryptography) (hkdf : Hkdf) (masterKey salt : List UInt8)
      (ssrc : UInt32) (s : AESEncryptionStrategy), setupSecurity hkdf masterKey salt ssrc = .ok s →
      ∀ (payloadType : UInt8) (timestampIncrement timestamp : UInt32) (sequenceNum : UInt16)
        (calls : List Call) (ks : List ℕ) (datagrams : List (List UInt8)),
        List.Forall₂ (fun k bytes => ∃ call, (runCalls (some (s.strategy cryptopp))
          (create payloadType ssrc timestampIncrement sequenceNum timestamp) calls)[k]? = some call ∧
            datagram (some (s.strategy cryptopp)) call = some bytes) ks datagrams →
        InWindow ks → ∀ received, receiveAll crypto masterKey salt initial datagrams =
          some received → List.Forall₂ (Agrees s (runCalls (some (s.strategy cryptopp))
            (create payloadType ssrc timestampIncrement sequenceNum timestamp) calls))
              ks received := by
  intro h
  have hagree := h ⟨exampleAes, fun _ _ => none⟩ ⟨exampleHkdf, exampleAes⟩ exampleHkdf
    (List.replicate 16 0) (List.replicate 16 0) 1 exampleStrategy rfl 8 160 0 65535
    [⟨[213], List.replicate 13 0⟩] [0] [[128, 8, 255, 255, 0, 0, 0, 0, 0, 0, 0, 1, 112]]
    (.cons ⟨_, rfl, by decide⟩ .nil) (by decide) _ rfl
  obtain ⟨call, hcall, hlap, -⟩ := (List.forall₂_cons.mp hagree).1
  cases hcall
  revert hlap
  decide

end HermesFlow.ReceiverClient
