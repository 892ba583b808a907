import HermesFlow.Types
import Mathlib.Algebra.Order.Ring.Int
import Mathlib.Data.Rat.Init

/-!
# JSON values

The values of Boost.JSON that the parsers look at, and `require_json`. The
texts of Boost's exceptions and the roundings of floating-point conversions
are parameters.
-/

namespace HermesFlow.Infra

/-- `boost::json::value`; a `double` read from a text is finite. -/
inductive Json where
  | null
  | bool (b : Bool)
  | int64 (n : ℤ)
  | uint64 (n : ℕ)
  | double (x : ℚ)
  | string (s : String)
  | array (elements : List Json)
  | object (fields : List (String × Json))

/-- `boost::json::object`. -/
abbrev JsonObject := List (String × Json)

/-- The types at which `value_to` is used. -/
inductive JsonType where
  | string | object | array | float | double

/-- What the parsers take from Boost.JSON and the C++ library. -/
structure Library where
  /-- `what()` of the exception that `value_to` raises. -/
  what : JsonType → Json → String
  /-- `what()` of the exception that `as_object` raises. -/
  whatObject : Json → String
  /-- The nearest `float`. -/
  toFloat : ℚ → ℚ
  /-- The nearest `double`. -/
  toDouble : ℚ → ℚ
  /-- `std::from_chars` for a `double`: nothing on an error, else the number,
  unless it is not a number. -/
  fromChars : String → Option (Option ℚ)

/-- How a parser fails: with an error value or with an exception. -/
inductive Failure where
  | error (error : ErrorInfo)
  | threw (what : String)

/-- `ErrorInfo::From(AppError::ParseError, message)`. -/
def parseError (message : String) : Failure := .error ⟨.parseError, message⟩

/-- `require_json`, with the conversion to its type. -/
def requireJson {α : Type} (lib : Library) (type : JsonType) (valueTo : Json → Option α)
    (obj : JsonObject) (key : String) : Except Failure α :=
  match obj.lookup key with
  | none => .error (parseError ("Missing required key: " ++ key))
  | some value =>
    match valueTo value with
    | some a => .ok a
    | none =>
      .error (parseError ("Invalid type for key '" ++ key ++ "': " ++ lib.what type value))

namespace Json

/-- `value_to<std::string>`. -/
def asString : Json → Option String
  | .string s => some s
  | _ => none

/-- `value_to<json::object>`. -/
def asObject : Json → Option JsonObject
  | .object fields => some fields
  | _ => none

/-- `value_to<json::array>`. -/
def asArray : Json → Option (List Json)
  | .array elements => some elements
  | _ => none

/-- `value_to<double>`. -/
def asDouble (lib : Library) : Json → Option ℚ
  | .int64 n => some (lib.toDouble n)
  | .uint64 n => some (lib.toDouble n)
  | .double x => some x
  | _ => none

/-- `value_to<float>`. -/
def asFloat (lib : Library) : Json → Option ℚ
  | .int64 n => some (lib.toFloat n)
  | .uint64 n => some (lib.toFloat n)
  | .double x => some (lib.toFloat x)
  | _ => none

end Json

/-- A text in quotes. -/
def quoted (s : String) : String := "\"" ++ s ++ "\""

namespace Json

/-- A character in the text of a string. -/
def escaped (c : Char) : List Char :=
  match c.toNat with
  | 34 | 92 => [Char.ofNat 92, c]
  | 8 => [Char.ofNat 92, 'b']
  | 9 => [Char.ofNat 92, 't']
  | 10 => [Char.ofNat 92, 'n']
  | 12 => [Char.ofNat 92, 'f']
  | 13 => [Char.ofNat 92, 'r']
  | n =>
    if n < 32 then [Char.ofNat 92, 'u', '0', '0', Nat.digitChar (n / 16), Nat.digitChar (n % 16)]
    else [c]

/-- The text of a string. -/
def stringText (s : String) : String := quoted (String.ofList (s.toList.flatMap escaped))

mutual

/-- `boost::json::serialize`, given the texts of doubles. -/
def serialize (ofDouble : ℚ → String) : Json → String
  | .null => "null"
  | .bool b => if b = true then "true" else "false"
  | .int64 n => toString n
  | .uint64 n => toString n
  | .double x => ofDouble x
  | .string s => stringText s
  | .array elements => "[" ++ ",".intercalate (serializeElements ofDouble elements) ++ "]"
  | .object fields => "\x7b" ++ ",".intercalate (serializeFields ofDouble fields) ++ "\x7d"

/-- The texts of the elements of an array. -/
def serializeElements (ofDouble : ℚ → String) : List Json → List String
  | [] => []
  | element :: elements => serialize ofDouble element :: serializeElements ofDouble elements

/-- The texts of the fields of an object. -/
def serializeFields (ofDouble : ℚ → String) : List (String × Json) → List String
  | [] => []
  | (key, value) :: fields =>
    (stringText key ++ ":" ++ serialize ofDouble value) :: serializeFields ofDouble fields

end

end Json

/-- The test of `is_object` before `as_object`, with its message. -/
def objectOr (v : Json) (message : String) : Except Failure JsonObject :=
  match v.asObject with
  | some obj => .ok obj
  | none => .error (parseError message)

/-- `require_json<std::string>`. -/
def requireString (lib : Library) : JsonObject → String → Except Failure String :=
  requireJson lib .string Json.asString

/-- `require_json<json::object>`. -/
def requireObject (lib : Library) : JsonObject → String → Except Failure JsonObject :=
  requireJson lib .object Json.asObject

/-- `require_json<json::array>`. -/
def requireArray (lib : Library) : JsonObject → String → Except Failure (List Json) :=
  requireJson lib .array Json.asArray

/-- `require_json<double>`. -/
def requireDouble (lib : Library) : JsonObject → String → Except Failure ℚ :=
  requireJson lib .double (Json.asDouble lib)

/-- `require_json<float>`. -/
def requireFloat (lib : Library) : JsonObject → String → Except Failure ℚ :=
  requireJson lib .float (Json.asFloat lib)

/-- What is required is there, with the type. -/
theorem requireJson_ok {α : Type} {lib : Library} {type : JsonType} {valueTo : Json → Option α}
    {obj : JsonObject} {key : String} {a : α} (h : requireJson lib type valueTo obj key = .ok a) :
    (obj.lookup key).bind valueTo = some a := by
  unfold requireJson at h
  split at h
  · cases h
  · rename_i value hlookup
    split at h
    · rename_i b hb
      cases h
      rw [hlookup, Option.bind_some, hb]
    · cases h

/-- A computation that succeeds has succeeded in both its parts. -/
theorem bind_ok {ε α β : Type} {x : Except ε α} {f : α → Except ε β} {b : β}
    (h : x >>= f = .ok b) : ∃ a, x = .ok a ∧ f a = .ok b := by
  cases x with
  | error e => cases h
  | ok a => exact ⟨a, rfl, h⟩

/-- What each turn of a loop keeps holds after the loop. -/
theorem foldlM_ok {ε α β : Type} {f : β → α → Except ε β} {I : List α → β → Prop}
    (hstep : ∀ done b a b', I done b → f b a = .ok b' → I (done ++ [a]) b') {done l : List α}
    {b b' : β} (hb : I done b) (h : l.foldlM f b = .ok b') : I (done ++ l) b' := by
  induction l generalizing done b with
  | nil =>
    cases h
    rw [List.append_nil]
    exact hb
  | cons a l ih =>
    rw [List.foldlM_cons] at h
    obtain ⟨c, hc, hrest⟩ := bind_ok h
    rw [List.append_cons]
    exact ih (hstep done b a c hb hc) hrest

/-- What is accepted as an object is one. -/
theorem objectOr_ok {v : Json} {message : String} {obj : JsonObject}
    (h : objectOr v message = .ok obj) : v.asObject = some obj := by
  unfold objectOr at h
  split at h
  · rename_i fields hv
    cases h
    exact hv
  · cases h

/-- A string of an object, if there is one under the key. -/
def stringAt (obj : JsonObject) (key : String) : Option String :=
  (obj.lookup key).bind Json.asString

/-- A required string that is found is the string there. -/
theorem requireString_ok {lib : Library} {obj : JsonObject} {key s : String}
    (h : requireString lib obj key = .ok s) : stringAt obj key = some s := requireJson_ok h

end HermesFlow.Infra
