import HermesFlow.Json
import HermesFlow.Numeral
import HermesFlow.RTPStreamer

/-!
# The configuration

`load_config` reads the file of the server. The parser of TOML files with the
conversions of its nodes is a parameter, and so are the environment variables. A
file that is not there gives the defaults, with an empty key and an empty salt.
-/

namespace HermesFlow.Config

open Infra (Failure)

/-- A text of the file, as its bytes. -/
abbrev Text := List UInt8

/-- The nodes of toml++. A view of a node may be empty. -/
structure TomlPP (Node : Type) where
  /-- `node[key]`. -/
  index : Option Node → String → Option Node
  /-- `value<std::string>()`. -/
  value : Node → Option Text
  /-- `value_or` with a literal, a `const char*`, as the `std::string` that it is assigned to. -/
  valueOr : Option Node → Text → Text
  /-- `value<uint16_t>()`. -/
  uint16 : Node → Option UInt16
  /-- `value<unsigned int>()`. -/
  uint32 : Node → Option UInt32

/-- What `load_config` finds outside. -/
structure Environment (Node : Type) where
  /-- If the file exists, its table or the description of the error of the parser. -/
  file : Option (Except String Node)
  /-- `std::getenv`. -/
  getenv : String → Option Text

/-- The bytes of a literal. -/
def literal (s : String) : Text := s.toUTF8.toList

/-- `ServerConfig`. -/
structure ServerConfig where
  /-- The address it listens at. -/
  address : Text := literal "127.0.0.1"
  /-- The port it listens at. -/
  port : UInt16 := 8080
  /-- The number of its threads. -/
  threads : UInt32 := 1

/-- `S3Config`. -/
structure S3Config where
  /-- The access key. -/
  accessKey : Text := []
  /-- The secret key. -/
  secretKey : Text := []
  /-- The region to sign for. -/
  region : Text := []
  /-- The host of the store. -/
  host : Text := []
  /-- The port of the store. -/
  port : Text := []
  /-- The service to sign for. -/
  service : Text := []
  /-- The bucket of the files. -/
  bucket : Text := []

/-- `JnausConfig`; the ports have no value before they are set. -/
structure JnausConfig where
  /-- The address of the gateway. -/
  address : Text := []
  /-- The first port, once it is set. -/
  portStart : Option UInt16 := none
  /-- The last port, once it is set. -/
  portEnd : Option UInt16 := none

/-- `CryptoConfig`. -/
structure CryptoConfig where
  /-- The master key's bytes. -/
  masterKey : List UInt8 := []
  /-- The salt's bytes. -/
  salt : List UInt8 := []

/-- `AppConfig`. -/
structure AppConfig where
  /-- The server's own part. -/
  server : ServerConfig := {}
  /-- The store's part. -/
  s3 : S3Config := {}
  /-- The gateway's part. -/
  janus : JnausConfig := {}
  /-- The keys' part. -/
  crypto : CryptoConfig := {}

/-- The port of a server that sets none. -/
def DEFAULT_SERVER_PORT : UInt16 := 8080
/-- The first port of a gateway that sets none. -/
def DEFAULT_JANUS_PORT_START : UInt16 := 10000
/-- The last port of a gateway that sets none. -/
def DEFAULT_JANUS_PORT_END : UInt16 := 10200

/-- The byte of a slice; `c_str` ends it at a zero. -/
def sliceByte (slice : Text) : UInt8 :=
  UInt8.ofInt (Numeral.strtol 16 ((slice.takeWhile (· ≠ 0)).map fun b => Char.ofNat b.toNat))

/-- The loop of `hex_to_bytes` over the slices of two characters. -/
def sliceBytes : Text → List UInt8
  | a :: b :: rest => sliceByte [a, b] :: sliceBytes rest
  | _ => []

/-- `hex_to_bytes`. -/
def hexToBytes (hex : Text) : Except Failure (List UInt8) :=
  if hex.length % 2 ≠ 0 then .error (.threw "Hex string must have an even length")
  else .ok (sliceBytes hex)

section Load

variable {Node : Type} (toml : TomlPP Node) (env : Environment Node)

/-- `require_key` for a string; a node of another type has no value to take. -/
def requireKey (node : Option Node) (key : String) : Except Failure (Except String Text) :=
  match toml.index node key with
  | none => .ok (.error ("Missing required config key: " ++ key))
  | some val =>
    match toml.value val with
    | some text => .ok (.ok text)
    | none => .error (.threw "bad optional access")

/-- The server settings of `load_config`. -/
def loadServer (server : Option Node) : ServerConfig :=
  if server.isSome then
    { address := toml.valueOr (toml.index server "address") (literal "0.0.0.0")
      port := ((toml.index server "port").bind toml.uint16).getD DEFAULT_SERVER_PORT
      threads := ((toml.index server "threads").bind toml.uint32).getD 1 }
  else {}

/-- A key of the S3 settings: the variable, or else the entry of the file. -/
def loadS3Key (s3 : Option Node) (variableName key message : String) : Except Failure Text :=
  match env.getenv variableName with
  | some text => .ok text
  | none => do
    match ← requireKey toml s3 key with
    | .ok text => .ok text
    | .error _ => .error (.error ⟨.configError, message⟩)

/-- The S3 settings. -/
def loadS3 (s3 : Option Node) : Except Failure S3Config :=
  if s3.isSome then do
    let host := toml.valueOr (toml.index s3 "host") (literal "localhost")
    let port := toml.valueOr (toml.index s3 "port") (literal "9000")
    let bucket := toml.valueOr (toml.index s3 "bucket") (literal "audio-files")
    let region := toml.valueOr (toml.index s3 "region") (literal "us-east-1")
    let service := toml.valueOr (toml.index s3 "service") (literal "s3")
    let accessKey ← loadS3Key toml env s3 "S3_ACCESS_KEY" "access_key" "Missing S3 access_key"
    let secretKey ← loadS3Key toml env s3 "S3_SECRET_KEY" "secret_key" "Missing S3 secret_key"
    return { accessKey, secretKey, host, port, bucket, region, service }
  else .ok {}

/-- The Janus settings. -/
def loadJanus (janus : Option Node) : JnausConfig :=
  if janus.isSome then
    { address := toml.valueOr (toml.index janus "address") (literal "127.0.0.1")
      portStart :=
        some (((toml.index janus "port_start").bind toml.uint16).getD DEFAULT_JANUS_PORT_START)
      portEnd := some (((toml.index janus "port_end").bind toml.uint16).getD DEFAULT_JANUS_PORT_END) }
  else {}

/-- The key and the salt. -/
def loadCrypto (crypto : Option Node) : Except Failure CryptoConfig :=
  if crypto.isSome then do
    let keyHex := toml.valueOr (toml.index crypto "master_key") []
    let saltHex := toml.valueOr (toml.index crypto "salt") []
    if keyHex = [] ∨ saltHex = [] then
      .error (.threw "Crypto master_key and salt must be provided in config.toml")
    else
      let masterKey ← hexToBytes keyHex
      let salt ← hexToBytes saltHex
      return { masterKey, salt }
  else .error (.threw "Missing [crypto] section in config.toml")

/-- `load_config`. -/
def loadConfig : Except Failure AppConfig :=
  match env.file with
  | none => .ok {}
  | some (.error description) => .error (.error ⟨.configError, description⟩)
  | some (.ok tbl) => do
    let server := loadServer toml (toml.index (some tbl) "server")
    let s3 ← loadS3 toml env (toml.index (some tbl) "s3")
    let janus := loadJanus toml (toml.index (some tbl) "janus")
    let crypto ← loadCrypto toml (toml.index (some tbl) "crypto")
    return { server, s3, janus, crypto }

/-- A text of the crypto settings of the file, as `value_or` gives it. -/
def configuredText (key : String) : Option Text :=
  match env.file with
  | some (.ok tbl) => some (toml.valueOr (toml.index (toml.index (some tbl) "crypto") key) [])
  | _ => none

/-- The text of the master key in the file. -/
def configuredMasterKey : Option Text := configuredText toml env "master_key"

/-- The text of the salt in the file. -/
def configuredSalt : Option Text := configuredText toml env "salt"

end Load

/-- The constructor of `Session`: the encryptor of its stream. -/
def constructSession (hkdf : Rtp.Hkdf) (crypto : CryptoConfig) (isEncrypted : Bool)
    (ssrc : UInt32) : Except Rtp.SetupFault (Option Crypto.AESEncryptionStrategy) :=
  if isEncrypted then (Rtp.setupSecurity hkdf crypto.masterKey crypto.salt ssrc).map some
  else .ok none

/-- Two characters make a byte. -/
theorem length_sliceBytes (hex : Text) : (sliceBytes hex).length = hex.length / 2 := by
  induction hex using sliceBytes.induct with
  | case1 a b rest ih =>
    rw [sliceBytes, List.length_cons, ih, List.length_cons, List.length_cons]
    omega
  | case2 hex hshort =>
    match hex with
    | [] => rfl
    | [_] =>
      rw [sliceBytes, List.length_nil, List.length_singleton]
      exact hshort
    | a :: b :: rest => exact (hshort a b rest rfl).elim

/-- Two characters are read for each byte. -/
theorem hexToBytes_length {hex : Text} {bytes : List UInt8} (h : hexToBytes hex = .ok bytes) :
    hex.length = 2 * bytes.length := by
  unfold hexToBytes at h
  split_ifs at h with heven
  obtain rfl := Except.ok.inj h
  rw [length_sliceBytes]
  omega

section Load

variable {Node : Type} {toml : TomlPP Node} {env : Environment Node}

/-- The settings are the bytes of the texts of the file. -/
theorem loadCrypto_ok {crypto : Option Node} {config : CryptoConfig}
    (h : loadCrypto toml crypto = .ok config) :
    hexToBytes (toml.valueOr (toml.index crypto "master_key") []) = .ok config.masterKey ∧
      hexToBytes (toml.valueOr (toml.index crypto "salt") []) = .ok config.salt := by
  unfold loadCrypto at h
  split_ifs at h
  dsimp only at h
  split_ifs at h
  obtain ⟨masterKey, hmasterKey, h⟩ := Infra.bind_ok h
  obtain ⟨salt, hsalt, h⟩ := Infra.bind_ok h
  obtain rfl := Except.ok.inj h
  exact ⟨hmasterKey, hsalt⟩

/-- A configuration is that of a missing file or has the key and the salt of the file. -/
theorem loadConfig_ok {cfg : AppConfig} (h : loadConfig toml env = .ok cfg) :
    env.file = none ∧ cfg = {} ∨
      ∃ keyHex saltHex, configuredMasterKey toml env = some keyHex ∧
        hexToBytes keyHex = .ok cfg.crypto.masterKey ∧ configuredSalt toml env = some saltHex ∧
        hexToBytes saltHex = .ok cfg.crypto.salt := by
  unfold loadConfig at h
  split at h
  · rename_i hfile
    exact .inl ⟨hfile, (Except.ok.inj h).symm⟩
  · cases h
  · rename_i tbl hfile
    obtain ⟨s3, -, h⟩ := Infra.bind_ok h
    obtain ⟨crypto, hcrypto, h⟩ := Infra.bind_ok h
    obtain rfl := Except.ok.inj h
    obtain ⟨hkey, hsalt⟩ := loadCrypto_ok hcrypto
    refine .inr ⟨_, _, ?_, hkey, ?_, hsalt⟩
    · rw [configuredMasterKey, configuredText, hfile]
    · rw [configuredSalt, configuredText, hfile]

end Load

/-- The set-up needs four bytes of the salt for the IV and sixteen for the cipher. -/
theorem setupSecurity_ok_iff (hkdf : Rtp.Hkdf) (masterKey salt : List UInt8) (ssrc : UInt32) :
    (∃ s, Rtp.setupSecurity hkdf masterKey salt ssrc = .ok s) ↔ salt.length = 16 := by
  have hkey : (Rtp.deriveSessionKey hkdf masterKey ssrc).length = Crypto.AES_BLOCK_SIZE :=
    Vector.length_toList
  constructor
  · rintro ⟨s, hs⟩
    rw [← Rtp.length_deriveIvFromSsrc (Rtp.setupSecurity_ok hs), s.baseIv_size]
    rfl
  · intro hlength
    obtain ⟨iv, hiv⟩ := Rtp.deriveIvFromSsrc_isSome ssrc (hlength ▸ by decide : 4 ≤ salt.length)
    have hivLength : iv.length = Crypto.AES_BLOCK_SIZE :=
      (Rtp.length_deriveIvFromSsrc hiv).trans hlength
    rw [Rtp.setupSecurity, hiv]
    dsimp only
    rw [Crypto.createAesEncryptionStrategy, dif_pos ⟨hkey, hivLength⟩]
    exact ⟨_, rfl⟩

/-- An encrypted session can be opened with a configuration exactly when the file has a
salt of 32 characters. -/
theorem constructSession_ok_iff (hkdf : Rtp.Hkdf) {Node : Type} {toml : TomlPP Node}
    {env : Environment Node} {cfg : AppConfig} (h : loadConfig toml env = .ok cfg)
    (ssrc : UInt32) :
    (∃ encryptor, constructSession hkdf cfg.crypto true ssrc = .ok encryptor) ↔
      ∃ salt, configuredSalt toml env = some salt ∧ salt.length = 32 := by
  have hsetup : (∃ encryptor, constructSession hkdf cfg.crypto true ssrc = .ok encryptor) ↔
      cfg.crypto.salt.length = 16 := by
    rw [← setupSecurity_ok_iff hkdf cfg.crypto.masterKey cfg.crypto.salt ssrc]
    unfold constructSession
    cases Rtp.setupSecurity hkdf cfg.crypto.masterKey cfg.crypto.salt ssrc with
    | error fault =>
      constructor <;>
      · rintro ⟨_, h⟩
        cases h
    | ok s => exact ⟨fun _ => ⟨s, rfl⟩, fun _ => ⟨some s, rfl⟩⟩
  rw [hsetup]
  rcases loadConfig_ok h with ⟨hfile, rfl⟩ | ⟨keyHex, salt, -, -, hsalt, hbytes⟩
  · constructor
    · nofun
    · rintro ⟨salt, hsalt, -⟩
      rw [configuredSalt, configuredText, hfile] at hsalt
      cases hsalt
  · have hlength := hexToBytes_length hbytes
    constructor
    · exact fun h16 => ⟨salt, hsalt, by omega⟩
    · rintro ⟨salt', hsalt', h32⟩
      obtain rfl := Option.some.inj (hsalt.symm.trans hsalt')
      omega

/-- A value of a TOML file. -/
inductive Toml where
  | string (text : Text)
  | integer (n : ℤ)
  | table (fields : List (String × Toml))

/-- toml++ on such values; as a C string a text ends at its first zero. -/
def exampleTomlPP : TomlPP Toml where
  index
    | some (.table fields), key => fields.lookup key
    | _, _ => none
  value
    | .string text => some text
    | _ => none
  valueOr
    | some (.string text), _ => text.takeWhile (· ≠ 0)
    | _, text => text
  uint16
    | .integer n => if 0 ≤ n ∧ n < 2 ^ 16 then some (UInt16.ofInt n) else none
    | _ => none
  uint32
    | .integer n => if 0 ≤ n ∧ n < 2 ^ 32 then some (UInt32.ofInt n) else none
    | _ => none

/-- A file with a master key of sixteen zero bytes and a salt. -/
def cryptoFile (salt : Text) : Environment Toml where
  file := some (.ok (.table [("crypto", .table [("master_key", .string (List.replicate 32 48)),
    ("salt", .string salt)])]))
  getenv _ := none

/-- HKDF-SHA256 of sixteen zero bytes with the SSRC 7. -/
def zeroKey : Vector UInt8 16 :=
  #v[15, 22, 185, 245, 173, 169, 166, 154, 219, 21, 101, 219, 139, 180, 103, 194]

/-- A salt of sixteen bytes. -/
theorem constructSession_ok_sixteen :
    ∃ cfg, loadConfig exampleTomlPP (cryptoFile (List.replicate 32 48)) = .ok cfg ∧
      ∃ encryptor, constructSession (fun _ _ => zeroKey) cfg.crypto true 7 = .ok encryptor := by
  have hload : ∃ cfg, loadConfig exampleTomlPP (cryptoFile (List.replicate 32 48)) = .ok cfg :=
    ⟨_, rfl⟩
  obtain ⟨cfg, hcfg⟩ := hload
  exact ⟨cfg, hcfg, (constructSession_ok_iff _ hcfg 7).mpr ⟨_, rfl, rfl⟩⟩

/-- The salt `abcd` is accepted, and the IV of a session is written behind its end. -/
theorem short_salt_outOfBounds :
    ¬ ∀ (hkdf : Rtp.Hkdf) (Node : Type) (toml : TomlPP Node) (env : Environment Node)
      (cfg : AppConfig), loadConfig toml env = .ok cfg →
        ∀ ssrc, ∃ encryptor, constructSession hkdf cfg.crypto true ssrc = .ok encryptor := by
  intro h
  obtain ⟨_, hrun⟩ := h (fun _ _ => zeroKey) Toml exampleTomlPP (cryptoFile [97, 98, 99, 100]) _ rfl 7
  cases hrun

end HermesFlow.Config
