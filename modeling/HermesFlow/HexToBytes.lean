import HermesFlow.Config
import HermesFlow.Hex

/-!
# The hexadecimal texts of the configuration

`hex_to_bytes` takes the texts of even length. Its slices are read by `strtol`, which
takes more than pairs of digits and gives 0 for what it does not take; so only on pairs
of digits is the result the bytes that the text writes.
-/

namespace HermesFlow.Config

/-- A text of pairs of digits gives the bytes that it writes, and every other text an
exception. No configuration has other bytes for it, as its key or its salt. -/
structure DecodedExactly (hex : Text) : Prop where
  /-- The texts that are taken. -/
  returns_iff : (∃ bytes, hexToBytes hex = .ok bytes) ↔
    hex.length % 2 = 0 ∧ ∀ c ∈ hex, Hex.IsDigit c
  /-- The bytes write the text. -/
  encode_eq : ∀ bytes, hexToBytes hex = .ok bytes → Hex.encode bytes = hex.map Hex.lower
  /-- The others are rejected. -/
  throws : ¬ (hex.length % 2 = 0 ∧ ∀ c ∈ hex, Hex.IsDigit c) →
    ∃ what, hexToBytes hex = .error (.threw what)
  /-- A key of a configuration is what its text writes. -/
  masterKey : ∀ (Node : Type) (toml : TomlPP Node) env cfg, loadConfig toml env = .ok cfg →
    configuredMasterKey toml env = some hex →
      Hex.encode cfg.crypto.masterKey = hex.map Hex.lower
  /-- So is a salt. -/
  salt : ∀ (Node : Type) (toml : TomlPP Node) env cfg, loadConfig toml env = .ok cfg →
    configuredSalt toml env = some hex → Hex.encode cfg.crypto.salt = hex.map Hex.lower

/-- The digits of `strtol` are those of pairs. -/
theorem digitValue_nibble : ∀ k : Fin 256, Hex.nibble (UInt8.ofNat k) = none ∨
    Hex.nibble (UInt8.ofNat k) = some (Numeral.digitValue (Char.ofNat k)) := by
  decide +kernel

/-- A hexadecimal character has its nibble's value. -/
theorem digitValue_of_nibble {c : UInt8} {n : ℕ} (h : Hex.nibble c = some n) :
    Numeral.digitValue (Char.ofNat c.toNat) = n := by
  have hvalue := digitValue_nibble ⟨c.toNat, c.toNat_lt⟩
  rw [UInt8.ofNat_toNat, h] at hvalue
  exact (Option.some.inj (hvalue.resolve_left nofun)).symm

/-- A pair of digits is read as its byte. -/
theorem sliceByte_of_nibbles {a b : UInt8} {high low : ℕ} (ha : Hex.nibble a = some high)
    (hb : Hex.nibble b = some low) : sliceByte [a, b] = UInt8.ofNat (16 * high + low) := by
  have hne {c : UInt8} {n : ℕ} (h : Hex.nibble c = some n) : c ≠ 0 := by
    rintro rfl
    cases h
  have hslice : [a, b].takeWhile (· ≠ 0) = [a, b] := by
    simp [hne ha, hne hb]
  obtain ⟨hhigh, -⟩ := Hex.nibble_eq_some_iff.mp ha
  obtain ⟨hlow, -⟩ := Hex.nibble_eq_some_iff.mp hb
  have hvalues : ([a, b].map fun c => Char.ofNat c.toNat).map Numeral.digitValue = [high, low] := by
    simp only [List.map_cons, List.map_nil, digitValue_of_nibble ha, digitValue_of_nibble hb]
  have hnumber : Numeral.value 16 [high, low] = 16 * high + low := by
    simp only [Numeral.value, List.foldl_cons, List.foldl_nil]
    omega
  have hdigits : ∀ c ∈ [a, b].map fun c => Char.ofNat c.toNat, Numeral.digitValue c < 16 := by
    intro c hc
    have hmem := List.mem_map_of_mem (f := Numeral.digitValue) hc
    rw [hvalues] at hmem
    rcases List.mem_pair.mp hmem with h | h
    · exact h ▸ hhigh
    · exact h ▸ hlow
  have hread := Numeral.strtol_of_digits (by decide)
    (mt List.map_eq_nil_iff.mp (List.cons_ne_nil a [b])) hdigits (by rw [hvalues, hnumber]; omega)
  rw [hvalues, hnumber] at hread
  have hsmall : (((16 * high + low : ℕ) : ℤ) % 2 ^ 8).toNat = 16 * high + low := by omega
  rw [sliceByte, hslice, hread, UInt8.ofInt, hsmall]

/-- What the pairs of digits write is what the loop collects. -/
theorem sliceBytes_of_decode {hex : Text} {bytes : List UInt8} (h : Hex.decode hex = some bytes) :
    sliceBytes hex = bytes := by
  induction hex using Hex.decode.induct generalizing bytes with
  | case1 => exact Option.some.inj h
  | case2 c => cases h
  | case3 a b hex ih =>
    rw [Hex.decode] at h
    obtain ⟨high, hhigh, h⟩ := Option.bind_eq_some_iff.mp h
    obtain ⟨low, hlow, h⟩ := Option.bind_eq_some_iff.mp h
    obtain ⟨rest, hrest, h⟩ := Option.bind_eq_some_iff.mp h
    rw [sliceBytes, sliceByte_of_nibbles hhigh hlow, ih hrest]
    exact Option.some.inj h

/-- The bytes of a text of digits are what it writes. -/
theorem encode_of_hexToBytes {hex : Text} {bytes : List UInt8} (h : hexToBytes hex = .ok bytes)
    (hdigits : ∀ c ∈ hex, Hex.IsDigit c) : Hex.encode bytes = hex.map Hex.lower := by
  have heven : hex.length % 2 = 0 := by
    have hlength := hexToBytes_length h
    omega
  have hsome := Hex.decode_isSome_iff.mpr ⟨heven, hdigits⟩
  obtain ⟨written, hdecode⟩ := Option.isSome_iff_exists.mp hsome
  have hbytes : hexToBytes hex = .ok written := by
    rw [hexToBytes, if_neg (not_not.mpr heven), sliceBytes_of_decode hdecode]
  obtain rfl := Except.ok.inj (h.symm.trans hbytes)
  exact Hex.decode_eq_some_iff.mp hdecode

section Load

variable {Node : Type} {toml : TomlPP Node} {env : Environment Node} {cfg : AppConfig}

/-- The key of a configuration is decoded from the text of the file. -/
theorem hexToBytes_masterKey (h : loadConfig toml env = .ok cfg) {hex : Text}
    (hhex : configuredMasterKey toml env = some hex) :
    hexToBytes hex = .ok cfg.crypto.masterKey := by
  rcases loadConfig_ok h with ⟨hfile, -⟩ | ⟨keyHex, saltHex, hkeyHex, hkey, -, -⟩
  · rw [configuredMasterKey, configuredText, hfile] at hhex
    cases hhex
  · obtain rfl := Option.some.inj (hkeyHex.symm.trans hhex)
    exact hkey

/-- So is its salt. -/
theorem hexToBytes_salt (h : loadConfig toml env = .ok cfg) {hex : Text}
    (hhex : configuredSalt toml env = some hex) : hexToBytes hex = .ok cfg.crypto.salt := by
  rcases loadConfig_ok h with ⟨hfile, -⟩ | ⟨keyHex, saltHex, -, -, hsaltHex, hsalt⟩
  · rw [configuredSalt, configuredText, hfile] at hhex
    cases hhex
  · obtain rfl := Option.some.inj (hsaltHex.symm.trans hhex)
    exact hsalt

end Load

/-- A text is decoded exactly when it is of odd length or has digits only. -/
theorem decodedExactly_iff (hex : Text) :
    DecodedExactly hex ↔ (hex.length % 2 = 0 → ∀ c ∈ hex, Hex.IsDigit c) := by
  by_cases heven : hex.length % 2 = 0
  · have hbytes : hexToBytes hex = .ok (sliceBytes hex) := if_neg (not_not.mpr heven)
    constructor
    · exact fun h _ => (h.returns_iff.mp ⟨_, hbytes⟩).2
    · intro h
      have hencode (bytes : List UInt8) (hrun : hexToBytes hex = .ok bytes) :
          Hex.encode bytes = hex.map Hex.lower := encode_of_hexToBytes hrun (h heven)
      exact
        { returns_iff := iff_of_true ⟨_, hbytes⟩ ⟨heven, h heven⟩
          encode_eq := hencode
          throws := fun hbad => absurd ⟨heven, h heven⟩ hbad
          masterKey := fun _ _ _ _ hload hhex => hencode _ (hexToBytes_masterKey hload hhex)
          salt := fun _ _ _ _ hload hhex => hencode _ (hexToBytes_salt hload hhex) }
  · have hthrows : hexToBytes hex = .error (.threw "Hex string must have an even length") :=
      if_pos heven
    have hnot (bytes : List UInt8) : hexToBytes hex ≠ .ok bytes := by
      rw [hthrows]
      nofun
    refine iff_of_true ?_ fun h => absurd h heven
    exact
      { returns_iff := by
          refine iff_of_false ?_ fun h => heven h.1
          rintro ⟨bytes, h⟩
          exact hnot bytes h
        encode_eq := fun bytes h => absurd h (hnot bytes)
        throws := fun _ => ⟨_, hthrows⟩
        masterKey := fun _ _ _ _ hload hhex => absurd (hexToBytes_masterKey hload hhex) (hnot _)
        salt := fun _ _ _ _ hload hhex => absurd (hexToBytes_salt hload hhex) (hnot _) }

/-- The text `zz` is taken, as a byte 0. -/
theorem letters_taken : hexToBytes [122, 122] = .ok [0] ∧ ¬ ∀ hex, DecodedExactly hex := by
  have hbytes : hexToBytes [122, 122] = .ok [0] := rfl
  refine ⟨hbytes, fun h => ?_⟩
  have hencode := (h [122, 122]).encode_eq [0] hbytes
  exact absurd hencode (by decide)

end HermesFlow.Config
