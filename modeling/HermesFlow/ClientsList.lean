import HermesFlow.FromChars
import HermesFlow.NodeRegistry
import Mathlib.Data.List.TakeWhile

/-!
# The clients of a node

Which lists of clients `create_clients` takes, against those that are well
formed. A port is an integer of 16 bits or the digits of one; a loss ratio is a
number from 0 to 1 or a text that writes one as a whole. The parsers look at the
front of a text only, narrow an integer port, and take a loss ratio that is not
a number; `as_object` throws.
-/

namespace HermesFlow.Infra

open BinaryFloat Numeral

/-- A library that rounds to doubles and reads them from texts as the standard says. -/
structure StandardDoubles (lib : Library) : Prop where
  /-- Numbers are rounded to the nearest double. -/
  toDouble_eq : lib.toDouble = binary64.round
  /-- Texts are read as the standard says. -/
  fromChars_eq : lib.fromChars = fromChars

/-- The port that a well-formed value is. -/
def portOf : Json → Option ℕ
  | .int64 n => if 0 ≤ n ∧ n ≤ 65535 then some n.toNat else none
  | .uint64 n => if n ≤ 65535 then some n else none
  | .string s =>
    if s.toList ≠ [] ∧ s.toList.all Char.isDigit ∧ decimalValue s.toList ≤ 65535 then
      some (decimalValue s.toList)
    else none
  | _ => none

/-- The loss ratio that a well-formed value is. -/
def lossOf : Json → Option ℚ
  | .double x => if 0 ≤ x ∧ x ≤ 1 then some x else none
  | .int64 n => if 0 ≤ n ∧ n ≤ 1 then some n else none
  | .uint64 n => if n ≤ 1 then some n else none
  | .string s =>
    match wholeDecimal s.toList with
    | some q => if 0 ≤ q ∧ q ≤ 1 then some (binary64.round q) else none
    | none => none
  | _ => none

/-- The client that a well-formed element describes. -/
def clientOf (v : Json) : Option ClientConfig := do
  let client ← v.asObject
  let ip ← (client.lookup "ip").bind Json.asString
  let port ← (client.lookup "port").bind portOf
  let loss ← (client.lookup "lossRatio").elim (some 0) lossOf
  return ⟨ip, UInt16.ofNat port, some loss⟩

/-- The clients that a well-formed `data` object lists. -/
def clientsOf (data : JsonObject) : Option (List ClientConfig) :=
  match data.lookup "clients" with
  | none => some []
  | some (.array elements) => elements.mapM clientOf
  | some _ => none

/-- The clients are parsed exactly: a well-formed list gives its clients and any
other an error value. -/
def ParsedExactly (lib : Library) (data : JsonObject) : Prop :=
  match clientsOf data with
  | some clients => createClients lib data = .ok (.clients clients)
  | none => ∃ e, createClients lib data = .error (.error e)

/-- A port is read: an integer, whatever its size, or digits of 16 bits at the front
of a text. -/
def PortRead : Json → Prop
  | .int64 _ => True
  | .string s =>
    s.toList.takeWhile Char.isDigit ≠ [] ∧
      decimalValue (s.toList.takeWhile Char.isDigit) ≤ 65535
  | _ => False

/-- A loss ratio is read: a number from 0 to 1, or a text with such a double at its
front, or one that begins with `nan`. -/
def LossRead : Json → Prop
  | .double x => 0 ≤ x ∧ x ≤ 1
  | .int64 n => 0 ≤ n ∧ n ≤ 1
  | .uint64 n => n ≤ 1
  | .string s =>
    match readDecimal s.toList with
    | some (q, _) => ∃ r, toBinary64 q = some r ∧ 0 ≤ r ∧ r ≤ 1
    | none => beginsWith ['n', 'a', 'n'] (readMinus s.toList).2
  | _ => False

/-- Nothing in the object is refused. -/
structure ClientRead (client : JsonObject) : Prop where
  /-- It has an address, which is a string. -/
  ip : ∃ s, client.lookup "ip" = some (.string s)
  /-- It has a port, which is read. -/
  port : ∃ json, client.lookup "port" = some json ∧ PortRead json
  /-- A loss ratio, if it has one, is read. -/
  loss : ∀ json, client.lookup "lossRatio" = some json → LossRead json

/-- An object with a field that is refused. -/
def Refused (v : Json) : Prop := ∃ client, v = .object client ∧ ¬ ClientRead client

/-- Either all elements are well formed and none is refused, or some element is not
and one is refused that has only objects before it. -/
def ReadExactly (elements : List Json) : Prop :=
  (∀ v ∈ elements, (clientOf v).isSome ∧ ¬ Refused v) ∨
    (∃ v ∈ elements, clientOf v = none) ∧
      ∃ before v after, elements = before ++ v :: after ∧ Refused v ∧
        ∀ u ∈ before, ∃ client, u = .object client

/-- A parser succeeds when its input is read and returns an error value otherwise. -/
def Decides {α : Type} (read : Prop) (result : Except Failure α) : Prop :=
  (read ∧ ∃ a, result = .ok a) ∨ (¬ read ∧ ∃ e, result = .error (.error e))

/-- What `from_chars` reads as a port is its leading digits, if they fit. -/
theorem fromCharsPort_eq (s : String) :
    fromCharsPort s =
      if s.toList.takeWhile Char.isDigit = [] ∨
          decimalValue (s.toList.takeWhile Char.isDigit) ≥ 2 ^ 16 then none
      else some (UInt16.ofNat (decimalValue (s.toList.takeWhile Char.isDigit))) := rfl

/-- The port is read or refused as the condition says. -/
theorem parsePort_decides (json : Json) : Decides (PortRead json) (parsePort json) := by
  cases json with
  | int64 n => exact .inl ⟨trivial, _, rfl⟩
  | string s =>
    rw [parsePort, fromCharsPort_eq]
    by_cases h : s.toList.takeWhile Char.isDigit = [] ∨
        decimalValue (s.toList.takeWhile Char.isDigit) ≥ 2 ^ 16
    · rw [if_pos h]
      refine .inr ⟨?_, _, rfl⟩
      rintro ⟨hne, hle⟩
      rcases h with h | h
      · exact hne h
      · omega
    · rw [if_neg h]
      obtain ⟨hne, hle⟩ := not_or.mp h
      exact .inl ⟨⟨hne, by omega⟩, _, rfl⟩
  | _ => exact .inr ⟨id, _, rfl⟩

/-- A well-formed port that is read is read as it is. -/
theorem parsePort_of_portOf {json : Json} {n : ℕ} (h : portOf json = some n)
    (hread : PortRead json) : parsePort json = .ok (UInt16.ofNat n) := by
  cases json with
  | int64 k =>
    rw [portOf] at h
    split at h
    · rename_i hk
      obtain rfl := Option.some.inj h
      have hmod : k % 2 ^ 16 = k := Int.emod_eq_of_lt hk.1 (by omega)
      rw [parsePort, hmod]
    · cases h
  | string s =>
    rw [portOf] at h
    split at h
    · rename_i hs
      obtain ⟨hne, hdigits, hle⟩ := hs
      obtain rfl := Option.some.inj h
      have htake : s.toList.takeWhile Char.isDigit = s.toList :=
        List.takeWhile_eq_self_iff.mpr (List.all_eq_true.mp hdigits)
      rw [parsePort, fromCharsPort_eq, htake, if_neg (not_or.mpr ⟨hne, by omega⟩)]
    · cases h
  | _ => cases hread

/-- Of the integers only 0 and 1 round to a double from 0 to 1. -/
theorem binary64_unit_iff (k : ℤ) :
    (0 ≤ binary64.round (k : ℚ) ∧ binary64.round (k : ℚ) ≤ 1) ↔ 0 ≤ k ∧ k ≤ 1 := by
  have hzero : binary64.round ((0 : ℤ) : ℚ) = (0 : ℤ) := binary64_round_intCast (by decide)
  have hone : binary64.round ((1 : ℤ) : ℚ) = (1 : ℤ) := binary64_round_intCast (by decide)
  have htwo : binary64.round ((2 : ℤ) : ℚ) = (2 : ℤ) := binary64_round_intCast (by decide)
  have hneg : binary64.round ((-1 : ℤ) : ℚ) = (-1 : ℤ) := binary64_round_intCast (by decide)
  constructor
  · rintro ⟨h0, h1⟩
    constructor
    · by_contra hk
      have hle : (k : ℚ) ≤ ((-1 : ℤ) : ℚ) := by exact_mod_cast (by omega : k ≤ -1)
      have hround := round_mono binary64 hle
      rw [hneg] at hround
      norm_num at hround
      linarith
    · by_contra hk
      have hle : ((2 : ℤ) : ℚ) ≤ (k : ℚ) := by exact_mod_cast (by omega : 2 ≤ k)
      have hround := round_mono binary64 hle
      rw [htwo] at hround
      norm_num at hround
      linarith
  · rintro ⟨h0, h1⟩
    obtain rfl | rfl : k = 0 ∨ k = 1 := by omega
    · rw [hzero]
      norm_num
    · rw [hone]
      norm_num

/-- What `parse_loss_ratio` makes of a number. -/
theorem parseLossRatio_eq {lib : Library} {json : Json} {r : ℚ}
    (h : lossRatio lib json = .ok (some r)) :
    parseLossRatio lib json =
      if r < 0 ∨ r > 1 then
        .error (parseError "lossRatio must be strictly between 0.0 and 1.0")
      else .ok (some r) := by
  rw [parseLossRatio, h]
  rfl

/-- A ratio within the unit interval is kept. -/
theorem parseLossRatio_of_unit {lib : Library} {json : Json} {r : ℚ}
    (h : lossRatio lib json = .ok (some r)) (hr : 0 ≤ r ∧ r ≤ 1) :
    parseLossRatio lib json = .ok (some r) := by
  rw [parseLossRatio_eq h, if_neg (not_or.mpr ⟨not_lt.mpr hr.1, not_lt.mpr hr.2⟩)]

/-- A ratio that is a number is kept exactly within the unit interval. -/
theorem parseLossRatio_number {lib : Library} {json : Json} {r : ℚ}
    (h : lossRatio lib json = .ok (some r)) :
    Decides (0 ≤ r ∧ r ≤ 1) (parseLossRatio lib json) := by
  by_cases hr : 0 ≤ r ∧ r ≤ 1
  · exact .inl ⟨hr, _, parseLossRatio_of_unit h hr⟩
  · refine .inr ⟨hr, ⟨.parseError, "lossRatio must be strictly between 0.0 and 1.0"⟩, ?_⟩
    have hout : r < 0 ∨ r > 1 := by
      by_contra hin
      obtain ⟨h0, h1⟩ := not_or.mp hin
      exact hr ⟨not_lt.mp h0, not_lt.mp h1⟩
    rw [parseLossRatio_eq h, if_pos hout]
    rfl

/-- What it makes of a failure to find a number. -/
theorem parseLossRatio_error {lib : Library} {json : Json} {e : ErrorInfo}
    (h : lossRatio lib json = .error (.error e)) :
    parseLossRatio lib json = .error (.error e) := by
  rw [parseLossRatio, h]
  rfl

section Doubles

variable {lib : Library} (hlib : StandardDoubles lib)

/-- The number of a text. -/
theorem lossRatio_string (hlib : StandardDoubles lib) (s : String) :
    lossRatio lib (.string s) =
      match fromChars s with
      | some value => .ok value
      | none => .error (parseError ("Invalid lossRatio format: " ++ s)) := by
  rw [← hlib.fromChars_eq]
  rfl

/-- An infinity is no loss ratio. -/
theorem not_unit_infinity (minus : Bool) :
    ¬ (0 ≤ (if minus then -2 ^ 1024 else 2 ^ 1024 : ℚ) ∧
      (if minus then -2 ^ 1024 else 2 ^ 1024 : ℚ) ≤ 1) := by
  have hone : (1 : ℚ) < 2 ^ 1024 := one_lt_pow₀ one_lt_two (by decide)
  rintro ⟨h0, h1⟩
  cases minus with
  | true => exact absurd (neg_nonneg.mp h0) (not_le.mpr (one_pos.trans hone))
  | false => exact absurd h1 (not_le.mpr hone)

/-- A text that starts with a decimal gives its nearest double. -/
theorem fromChars_of_decimal {s : String} {q : ℚ} {rest : List Char}
    (h : readDecimal s.toList = some (q, rest)) : fromChars s = (toBinary64 q).map some := by
  rw [fromChars, h]

/-- A text is read when its front is a number in range or not a number. -/
theorem parseLossRatio_string_decides (hlib : StandardDoubles lib) (s : String) :
    Decides (LossRead (.string s)) (parseLossRatio lib (.string s)) := by
  have hnumber := lossRatio_string hlib s
  cases hd : readDecimal s.toList with
  | some front =>
    obtain ⟨q, rest⟩ := front
    have hread : LossRead (.string s) ↔ ∃ r, toBinary64 q = some r ∧ 0 ≤ r ∧ r ≤ 1 := by
      rw [LossRead, hd]
    rw [fromChars_of_decimal hd] at hnumber
    rw [hread]
    cases hr : toBinary64 q with
    | some r =>
      rw [hr] at hnumber
      simp only [Option.some.injEq, exists_eq_left']
      exact parseLossRatio_number hnumber
    | none =>
      rw [hr] at hnumber
      refine .inr ⟨?_, _, parseLossRatio_error hnumber⟩
      rintro ⟨r, hr', -⟩
      cases hr'
  | none =>
    have hread : LossRead (.string s) ↔
        beginsWith ['n', 'a', 'n'] (readMinus s.toList).2 = true := by rw [LossRead, hd]
    rw [fromChars, hd] at hnumber
    rw [hread]
    dsimp only at hnumber
    by_cases hnan : beginsWith ['n', 'a', 'n'] (readMinus s.toList).2 = true
    · rw [if_pos hnan] at hnumber
      exact .inl ⟨hnan, none, by rw [parseLossRatio, hnumber]; rfl⟩
    · rw [if_neg hnan] at hnumber
      by_cases hinf : beginsWith ['i', 'n', 'f'] (readMinus s.toList).2 = true
      · rw [if_pos hinf] at hnumber
        rcases parseLossRatio_number hnumber with ⟨hunit, -⟩ | ⟨-, he⟩
        · exact absurd hunit (not_unit_infinity _)
        · exact .inr ⟨hnan, he⟩
      · rw [if_neg hinf] at hnumber
        exact .inr ⟨hnan, _, parseLossRatio_error hnumber⟩

/-- The loss ratio is read or refused as the condition says. -/
theorem parseLossRatio_decides (hlib : StandardDoubles lib) (json : Json) :
    Decides (LossRead json) (parseLossRatio lib json) := by
  cases json with
  | double x => exact parseLossRatio_number rfl
  | int64 n =>
    have hdecides := parseLossRatio_number (show lossRatio lib (.int64 n) = _ from rfl)
    rw [hlib.toDouble_eq, binary64_unit_iff] at hdecides
    exact hdecides
  | uint64 n =>
    have hdecides := parseLossRatio_number (show lossRatio lib (.uint64 n) = _ from rfl)
    have hcast := binary64_unit_iff n
    rw [Int.cast_natCast] at hcast
    rw [hlib.toDouble_eq, hcast] at hdecides
    have hiff : (0 ≤ (n : ℤ) ∧ (n : ℤ) ≤ 1) ↔ n ≤ 1 := by omega
    rw [hiff] at hdecides
    exact hdecides
  | string s => exact parseLossRatio_string_decides hlib s
  | _ => exact .inr ⟨id, _, rfl⟩

/-- A well-formed text is a number as a whole. -/
theorem lossOf_string {s : String} {r : ℚ} (h : lossOf (.string s) = some r) :
    ∃ q, readDecimal s.toList = some (q, []) ∧ r = binary64.round q := by
  rw [lossOf, wholeDecimal] at h
  split at h
  · rename_i q hwhole
    split at hwhole
    · rename_i q' hd
      obtain rfl := Option.some.inj hwhole
      split at h
      · exact ⟨q', hd, (Option.some.inj h).symm⟩
      · cases h
    · cases hwhole
  · cases h

/-- A well-formed loss ratio that is read is read as it is. -/
theorem parseLossRatio_of_lossOf (hlib : StandardDoubles lib) {json : Json} {r : ℚ}
    (h : lossOf json = some r) (hread : LossRead json) :
    parseLossRatio lib json = .ok (some r) := by
  have hsmall {k : ℤ} (hk : 0 ≤ k ∧ k ≤ 1) : lib.toDouble k = k := by
    rw [hlib.toDouble_eq]
    exact binary64_round_intCast (by omega)
  cases json with
  | double x =>
    have hx : 0 ≤ x ∧ x ≤ 1 := hread
    rw [lossOf, if_pos hx] at h
    obtain rfl := Option.some.inj h
    exact parseLossRatio_of_unit rfl hx
  | int64 n =>
    have hn : 0 ≤ n ∧ n ≤ 1 := hread
    rw [lossOf, if_pos hn] at h
    obtain rfl := Option.some.inj h
    refine parseLossRatio_of_unit ?_ ⟨by exact_mod_cast hread.1, by exact_mod_cast hread.2⟩
    rw [lossRatio, hsmall hread]
  | uint64 n =>
    have hn : n ≤ 1 := hread
    rw [lossOf, if_pos hn] at h
    obtain rfl := Option.some.inj h
    refine parseLossRatio_of_unit ?_ ⟨by positivity, by exact_mod_cast hn⟩
    have hcast := hsmall (k := n) (by omega)
    rw [Int.cast_natCast] at hcast
    rw [lossRatio, hcast]
  | string s =>
    obtain ⟨q, hd, rfl⟩ := lossOf_string h
    rw [LossRead, hd] at hread
    obtain ⟨r, hr, hunit⟩ := hread
    have hround : r = binary64.round q := by
      rw [toBinary64] at hr
      split at hr
      · cases hr
      · exact (Option.some.inj hr).symm
    subst hround
    refine parseLossRatio_of_unit ?_ hunit
    rw [lossRatio_string hlib, fromChars_of_decimal hd, hr]
    rfl
  | _ => cases hread

/-- Parts that decide are decided one after the other. -/
theorem Decides.bind {α β : Type} {p q : Prop} {x : Except Failure α} {f : α → Except Failure β}
    (hx : Decides p x) (hf : ∀ a, x = .ok a → Decides q (f a)) : Decides (p ∧ q) (x >>= f) := by
  rcases hx with ⟨hp, a, rfl⟩ | ⟨hp, e, rfl⟩
  · rcases hf a rfl with ⟨hq, b, hb⟩ | ⟨hq, e, he⟩
    · exact .inl ⟨⟨hp, hq⟩, b, hb⟩
    · exact .inr ⟨fun h => hq h.2, e, he⟩
  · exact .inr ⟨fun h => hp h.1, e, rfl⟩

/-- What is made of a result that is there has no error of its own. -/
theorem bind_ok_error_iff {α β : Type} {x : Except Failure α} (g : α → β) :
    (∃ e, (x >>= fun a => Except.ok (g a)) = .error (.error e)) ↔ ∃ e, x = .error (.error e) := by
  cases x with
  | ok a => exact ⟨fun ⟨_, he⟩ => (nomatch he), fun ⟨_, he⟩ => (nomatch he)⟩
  | error failure =>
    exact ⟨fun ⟨e, he⟩ => ⟨e, congrArg _ (Except.error.inj he)⟩,
      fun ⟨e, he⟩ => ⟨e, congrArg _ (Except.error.inj he)⟩⟩

/-- A required string is read exactly when it is there. -/
theorem requireString_decides (obj : JsonObject) (key : String) :
    Decides (∃ s, obj.lookup key = some (.string s)) (requireString lib obj key) := by
  unfold requireString requireJson
  cases hlookup : obj.lookup key with
  | none => exact .inr ⟨nofun, _, rfl⟩
  | some value =>
    cases value with
    | string s => exact .inl ⟨⟨s, rfl⟩, _, rfl⟩
    | _ => exact .inr ⟨nofun, _, rfl⟩

/-- The port of a client. -/
def portField (client : JsonObject) (ip : String) : Except Failure UInt16 :=
  match client.lookup "port" with
  | some json => parsePort json
  | none => .error (parseError ("Missing port for client " ++ ip))

/-- The loss ratio of a client, 0 when it is not given. -/
def lossField (lib : Library) (client : JsonObject) : Except Failure (Option ℚ) :=
  match client.lookup "lossRatio" with
  | some json => parseLossRatio lib json
  | none => .ok (some 0)

/-- A client's object is read field by field, in this order. -/
theorem parseClient_object (client : JsonObject) :
    parseClient lib (.object client) =
      requireString lib client "ip" >>= fun ip => portField client ip >>= fun port =>
        lossField lib client >>= fun loss => .ok ⟨ip, port, loss⟩ := by
  change (requireString lib client "ip" >>= fun ip =>
    match client.lookup "port" with
    | some json => parsePort json >>= fun port =>
      match client.lookup "lossRatio" with
      | some json => parseLossRatio lib json >>= fun loss => .ok (ClientConfig.mk ip port loss)
      | none => .ok (ClientConfig.mk ip port (some 0))
    | none => .error (parseError ("Missing port for client " ++ ip))) = _
  unfold portField lossField
  cases client.lookup "port" <;> cases client.lookup "lossRatio" <;> rfl

/-- Whether an object of the list is read. -/
theorem parseClient_decides (hlib : StandardDoubles lib) (client : JsonObject) :
    Decides (ClientRead client) (parseClient lib (.object client)) := by
  have hiff : ClientRead client ↔ (∃ s, client.lookup "ip" = some (.string s)) ∧
      (∃ json, client.lookup "port" = some json ∧ PortRead json) ∧
        (∀ json, client.lookup "lossRatio" = some json → LossRead json) ∧ True :=
    ⟨fun h => ⟨h.ip, h.port, h.loss, trivial⟩, fun h => ⟨h.1, h.2.1, h.2.2.1⟩⟩
  rw [hiff, parseClient_object]
  refine (requireString_decides client "ip").bind fun ip _ => ?_
  refine Decides.bind ?_ fun port _ => Decides.bind ?_ fun loss _ => .inl ⟨trivial, _, rfl⟩
  · unfold portField
    cases client.lookup "port" with
    | none => exact .inr ⟨nofun, _, rfl⟩
    | some json =>
      simp only [Option.some.injEq, exists_eq_left']
      exact parsePort_decides json
  · unfold lossField
    cases client.lookup "lossRatio" with
    | none => exact .inl ⟨nofun, _, rfl⟩
    | some json =>
      simp only [Option.some.injEq, forall_eq']
      exact parseLossRatio_decides hlib json

/-- A well-formed client that is read is read as it is. -/
theorem parseClient_of_clientOf (hlib : StandardDoubles lib) {v : Json} {c : ClientConfig}
    (h : clientOf v = some c) (hread : ¬ Refused v) : parseClient lib v = .ok c := by
  unfold clientOf at h
  obtain ⟨client, hclient, h⟩ := Option.bind_eq_some_iff.mp h
  obtain ⟨ip, hip, h⟩ := Option.bind_eq_some_iff.mp h
  obtain ⟨port, hport, h⟩ := Option.bind_eq_some_iff.mp h
  obtain ⟨loss, hloss, h⟩ := Option.bind_eq_some_iff.mp h
  obtain rfl := Option.some.inj h
  obtain ⟨jsonPort, hlookup, hportOf⟩ := Option.bind_eq_some_iff.mp hport
  cases v with
  | object fields =>
    obtain rfl := Option.some.inj hclient
    have hfields : ClientRead fields := not_not.mp fun hn => hread ⟨fields, rfl, hn⟩
    obtain ⟨json, hjson, hportRead⟩ := hfields.port
    obtain rfl := Option.some.inj (hlookup.symm.trans hjson)
    have hipField : requireString lib fields "ip" = .ok ip := by
      obtain ⟨jsonIp, hjsonIp, hip⟩ := Option.bind_eq_some_iff.mp hip
      rw [requireString, requireJson, hjsonIp]
      simp only [hip]
    have hportField : portField fields ip = .ok (UInt16.ofNat port) := by
      rw [portField, hlookup]
      exact parsePort_of_portOf hportOf hportRead
    have hlossField : lossField lib fields = .ok (some loss) := by
      rw [lossField]
      cases hl : fields.lookup "lossRatio" with
      | none =>
        rw [hl] at hloss
        obtain rfl := Option.some.inj hloss
        rfl
      | some jsonLoss =>
        rw [hl] at hloss
        exact parseLossRatio_of_lossOf hlib hloss (hfields.loss jsonLoss hl)
    rw [parseClient_object, hipField]
    change (portField fields ip >>= fun port => lossField lib fields >>= fun loss =>
      .ok (ClientConfig.mk ip port loss)) = _
    rw [hportField]
    change (lossField lib fields >>= fun loss =>
      .ok (ClientConfig.mk ip (UInt16.ofNat port) loss)) = _
    rw [hlossField]
    rfl
  | _ => cases hclient

/-- An element that is no object throws. -/
theorem parseClient_notObject {v : Json} (h : ¬ ∃ client, v = .object client) :
    parseClient lib v = .error (.threw (lib.whatObject v)) := by
  cases v with
  | object client => exact absurd ⟨client, rfl⟩ h
  | _ => rfl

/-- A list of well-formed clients of which none is refused is read as it is. -/
theorem mapM_of_clientOf (hlib : StandardDoubles lib) {elements : List Json} :
    ∀ {clients : List ClientConfig}, elements.mapM clientOf = some clients →
      (∀ v ∈ elements, ¬ Refused v) → elements.mapM (parseClient lib) = .ok clients := by
  induction elements with
  | nil =>
    intro clients h _
    obtain rfl := Option.some.inj h
    rfl
  | cons v elements ih =>
    intro clients h hread
    rw [List.mapM_cons] at h ⊢
    obtain ⟨c, hc, h⟩ := Option.bind_eq_some_iff.mp h
    obtain ⟨cs, hcs, h⟩ := Option.bind_eq_some_iff.mp h
    obtain rfl := Option.some.inj h
    rw [parseClient_of_clientOf hlib hc (hread v List.mem_cons_self)]
    change (elements.mapM (parseClient lib) >>= fun cs => .ok (c :: cs)) = _
    rw [ih hcs fun u hu => hread u (List.mem_cons_of_mem v hu)]
    rfl

/-- A list is well formed when its elements are. -/
theorem mapM_isSome_iff (elements : List Json) :
    (elements.mapM clientOf).isSome ↔ ∀ v ∈ elements, (clientOf v).isSome := by
  induction elements with
  | nil => exact ⟨fun _ => nofun, fun _ => rfl⟩
  | cons v elements ih =>
    rw [List.mapM_cons, List.forall_mem_cons, ← ih]
    cases clientOf v with
    | none => exact ⟨fun h => (nomatch h), fun h => (nomatch h.1)⟩
    | some c =>
      cases elements.mapM clientOf with
      | none => exact ⟨fun h => (nomatch h), fun h => (nomatch h.2)⟩
      | some cs => exact ⟨fun _ => ⟨rfl, rfl⟩, fun _ => rfl⟩

/-- An object is refused exactly when a field is. -/
theorem refused_object_iff {client : JsonObject} :
    Refused (.object client) ↔ ¬ ClientRead client := by
  constructor
  · rintro ⟨client', hclient', hrefused⟩
    obtain rfl := Json.object.inj hclient'
    exact hrefused
  · exact fun hrefused => ⟨client, rfl, hrefused⟩

/-- A list is read as a whole only when no element is refused. -/
theorem not_refused_of_mapM (hlib : StandardDoubles lib) {elements : List Json} :
    ∀ {clients : List ClientConfig}, elements.mapM (parseClient lib) = .ok clients →
      ∀ v ∈ elements, ¬ Refused v := by
  induction elements with
  | nil => exact fun _ => nofun
  | cons u elements ih =>
    intro clients h v hv
    rw [List.mapM_cons] at h
    obtain ⟨c, hc, h⟩ := bind_ok h
    obtain ⟨cs, hcs, -⟩ := bind_ok h
    rcases List.mem_cons.mp hv with rfl | hv
    · rintro ⟨client, rfl, hclient⟩
      rcases parseClient_decides hlib client with ⟨hread, -⟩ | ⟨-, e, he⟩
      · exact hclient hread
      · rw [he] at hc
        cases hc
    · exact ih hcs v hv

/-- Where the first element with a property stands. -/
theorem exists_append_cons_iff {α : Type} {P R : α → Prop} {a : α} {l : List α} :
    (∃ before v after, a :: l = before ++ v :: after ∧ R v ∧ ∀ u ∈ before, P u) ↔
      R a ∨ P a ∧ ∃ before v after, l = before ++ v :: after ∧ R v ∧ ∀ u ∈ before, P u := by
  constructor
  · rintro ⟨before, v, after, heq, hv, hbefore⟩
    cases before with
    | nil =>
      obtain ⟨rfl, -⟩ := List.cons.inj heq
      exact .inl hv
    | cons u before =>
      obtain ⟨rfl, rfl⟩ := List.cons.inj heq
      obtain ⟨hu, hrest⟩ := List.forall_mem_cons.mp hbefore
      exact .inr ⟨hu, before, v, after, rfl, hv, hrest⟩
  · rintro (ha | ⟨ha, before, v, after, rfl, hv, hbefore⟩)
    · exact ⟨[], a, l, rfl, ha, nofun⟩
    · exact ⟨a :: before, v, after, rfl, hv, List.forall_mem_cons.mpr ⟨ha, hbefore⟩⟩

/-- A list gives an error value when an element is refused and all before it are objects. -/
theorem mapM_eq_error_iff (hlib : StandardDoubles lib) (elements : List Json) :
    (∃ e, elements.mapM (parseClient lib) = .error (.error e)) ↔
      ∃ before v after, elements = before ++ v :: after ∧ Refused v ∧
        ∀ u ∈ before, ∃ client, u = .object client := by
  induction elements with
  | nil =>
    constructor
    · rintro ⟨e, he⟩
      cases he
    · rintro ⟨before, v, after, heq, -⟩
      simp at heq
  | cons v elements ih =>
    rw [List.mapM_cons, exists_append_cons_iff, ← ih]
    by_cases hobj : ∃ client, v = .object client
    · obtain ⟨client, rfl⟩ := hobj
      rw [refused_object_iff]
      rcases parseClient_decides hlib client with ⟨hread, c, hc⟩ | ⟨hrefused, e, he⟩
      · rw [hc]
        refine (bind_ok_error_iff (x := elements.mapM (parseClient lib)) (c :: ·)).trans ?_
        exact ⟨fun h => .inr ⟨⟨client, rfl⟩, h⟩, fun h => (h.resolve_left (not_not_intro hread)).2⟩
      · rw [he]
        exact ⟨fun _ => .inl hrefused, fun _ => ⟨e, rfl⟩⟩
    · rw [parseClient_notObject hobj]
      constructor
      · rintro ⟨e, he⟩
        cases he
      · rintro (⟨client, rfl, -⟩ | ⟨hv, -⟩)
        · exact absurd ⟨client, rfl⟩ hobj
        · exact absurd hv hobj

/-- What `create_clients` makes of a list. -/
theorem createClients_array {data : JsonObject} {elements : List Json}
    (h : data.lookup "clients" = some (.array elements)) :
    createClients lib data =
      (elements.mapM (parseClient lib) >>= fun clients => .ok (.clients clients)) := by
  rw [createClients, h]
  change (requireArray lib data "clients" >>= fun elements => elements.mapM (parseClient lib) >>=
    fun clients => .ok (NodeData.clients clients)) = _
  have harray : requireArray lib data "clients" = .ok elements := by
    rw [requireArray, requireJson, h]
    rfl
  rw [harray]
  rfl

/-- When a list of elements is parsed exactly. -/
theorem listExactly_iff (hlib : StandardDoubles lib) (elements : List Json) :
    (match elements.mapM clientOf with
      | some clients => (elements.mapM (parseClient lib) >>= fun clients =>
          Except.ok (NodeData.clients clients)) = .ok (.clients clients)
      | none => ∃ e, (elements.mapM (parseClient lib) >>= fun clients =>
          Except.ok (NodeData.clients clients)) = .error (.error e)) ↔
      ReadExactly elements := by
  have hsome : (elements.mapM clientOf).isSome ↔ ∀ v ∈ elements, (clientOf v).isSome :=
    mapM_isSome_iff elements
  cases hclients : elements.mapM clientOf with
  | some clients =>
    rw [hclients] at hsome
    have hall : ∀ v ∈ elements, (clientOf v).isSome := hsome.mp rfl
    constructor
    · intro h
      obtain ⟨cs, hcs, -⟩ := bind_ok h
      exact .inl fun v hv => ⟨hall v hv, not_refused_of_mapM hlib hcs v hv⟩
    · rintro (h | ⟨⟨v, hv, hnone⟩, -⟩)
      · rw [mapM_of_clientOf hlib hclients fun v hv => (h v hv).2]
        rfl
      · have hv := hall v hv
        rw [hnone] at hv
        cases hv
  | none =>
    rw [hclients] at hsome
    have hbad : ∃ v ∈ elements, clientOf v = none := by
      by_contra hgood
      have hnone := hsome.mpr fun v hv => Option.ne_none_iff_isSome.mp fun hv' => hgood ⟨v, hv, hv'⟩
      cases hnone
    dsimp only
    rw [bind_ok_error_iff, mapM_eq_error_iff hlib]
    constructor
    · exact fun h => .inr ⟨hbad, h⟩
    · rintro (h | ⟨-, h⟩)
      · obtain ⟨v, hv, hnone⟩ := hbad
        have hv := (h v hv).1
        rw [hnone] at hv
        cases hv
      · exact h

/-- The clients are parsed exactly when there is no list, when the list is no array, and
when all elements are well formed and read, or some element is not well formed and
the parser meets a refused element before any that is no object. -/
theorem parsedExactly_iff (hlib : StandardDoubles lib) (data : JsonObject) :
    ParsedExactly lib data ↔
      ∀ elements, data.lookup "clients" = some (.array elements) → ReadExactly elements := by
  unfold ParsedExactly clientsOf
  cases hlookup : data.lookup "clients" with
  | none =>
    have hnone : createClients lib data = .ok (.clients []) := by rw [createClients, hlookup]
    exact ⟨fun _ => nofun, fun _ => hnone⟩
  | some json =>
    cases json with
    | array elements =>
      simp only [Option.some.injEq, Json.array.injEq, forall_eq', createClients_array hlookup]
      exact listExactly_iff hlib elements
    | _ =>
      refine ⟨fun _ => nofun, fun _ => ?_⟩
      rw [createClients, hlookup]
      change ∃ e, (requireArray lib data "clients" >>= fun elements =>
        elements.mapM (parseClient lib) >>= fun clients => .ok (NodeData.clients clients)) =
          .error (.error e)
      rw [requireArray, requireJson, hlookup]
      exact ⟨_, rfl⟩

end Doubles

/-- A library with the roundings and the conversion of the standard. -/
def standardLibrary : Library where
  what _ _ := "not a value of the type"
  whatObject _ := "value is not an object"
  toFloat := binary32.round
  toDouble := binary64.round
  fromChars := fromChars

/-- The `data` object of a clients node with one client. -/
def oneClient (port : Json) : JsonObject :=
  [("clients", .array [.object [("ip", .string "10.0.0.7"), ("port", port)]])]

/-- A client with a port of 16 bits. -/
theorem parsedExactly_oneClient : ParsedExactly standardLibrary (oneClient (.int64 5004)) := by
  refine (parsedExactly_iff ⟨rfl, rfl⟩ (oneClient (.int64 5004))).mpr fun elements h => ?_
  obtain rfl := Json.array.inj (Option.some.inj h)
  refine .inl fun v hv => ?_
  obtain rfl := List.mem_singleton.mp hv
  refine ⟨rfl, fun ⟨client, hclient, hrefused⟩ => ?_⟩
  obtain rfl := Json.object.inj hclient
  exact hrefused ⟨⟨_, rfl⟩, ⟨_, rfl, trivial⟩, nofun⟩

/-- A client with the port 70000: it is taken with the port 4464. -/
theorem wide_port_taken :
    createClients standardLibrary (oneClient (.int64 70000)) =
        .ok (.clients [⟨"10.0.0.7", 4464, some 0⟩]) ∧
      ¬ ParsedExactly standardLibrary (oneClient (.int64 70000)) := by
  refine ⟨rfl, ?_⟩
  rintro ⟨e, he⟩
  cases he

end HermesFlow.Infra
