import HermesFlow.Json
import HermesFlow.Truncation
import Mathlib.Data.Rat.Floor

/-!
# Creators of graph nodes

The creators that `register_builtin_nodes` registers, each from a node's `data`
object. A node of a graph points to other nodes by their positions in the list
that owns them.
-/

namespace HermesFlow.Infra

open Truncation

/-- `NodeKind`. -/
inductive NodeKind where
  | fileInput | mixer | delay | clients | fileOptions
  deriving DecidableEq

/-- `ClientConfig`. -/
structure ClientConfig where
  /-- The address. -/
  ip : String
  /-- The port. -/
  port : UInt16
  /-- `packet_loss_ratio`; nothing when it is not a number. -/
  packetLossRatio : Option ℚ

/-- What a node has besides the fields of `Node`. -/
inductive NodeData where
  /-- `file_name_`, `file_path_` and `options_`. -/
  | fileInput (fileName filePath : String) (options : Option ℕ)
  /-- `inputs_`. -/
  | mixer (inputs : List ℕ)
  /-- `total_frames_`. -/
  | delay (totalFrames : ℤ)
  | clients (clients : List ClientConfig)
  | fileOptions (gain pitchShift : ℚ)

/-- `kind_`. -/
def NodeData.kind : NodeData → NodeKind
  | .fileInput _ _ _ => .fileInput
  | .mixer _ => .mixer
  | .delay _ => .delay
  | .clients _ => .clients
  | .fileOptions _ _ => .fileOptions

/-- The directory of the files. -/
def DOWNLOADS_DIR : String := "downloads/"
/-- The milliseconds of a frame. -/
def FRAME_DURATION : ℕ := 20

/-- `std::from_chars` for a `uint16_t`: the digits at the front. -/
def fromCharsPort (s : String) : Option UInt16 :=
  let digits := s.toList.takeWhile Char.isDigit
  let value := digits.foldl (fun value digit => value * 10 + (digit.toNat - 48)) 0
  if digits = [] ∨ value ≥ 2 ^ 16 then none else some (UInt16.ofNat value)

/-- `parse_port`. -/
def parsePort : Json → Except Failure UInt16
  | .int64 n => .ok (UInt16.ofNat (n % 2 ^ 16).toNat)
  | .string s =>
    match fromCharsPort s with
    | some port => .ok port
    | none => .error (parseError ("Invalid port format: " ++ s))
  | _ => .error (parseError "Port must be int or string")

/-- The number that `parse_loss_ratio` reads. -/
def lossRatio (lib : Library) : Json → Except Failure (Option ℚ)
  | .double x => .ok (some x)
  | .int64 n => .ok (some (lib.toDouble n))
  | .uint64 n => .ok (some (lib.toDouble n))
  | .string s =>
    match lib.fromChars s with
    | some value => .ok value
    | none => .error (parseError ("Invalid lossRatio format: " ++ s))
  | _ => .error (parseError "lossRatio must be a number or string")

/-- `parse_loss_ratio`; the comparisons with what is not a number are false. -/
def parseLossRatio (lib : Library) (json : Json) : Except Failure (Option ℚ) := do
  let lossVal ← lossRatio lib json
  match lossVal with
  | some value =>
    if value < 0 ∨ value > 1 then
      .error (parseError "lossRatio must be strictly between 0.0 and 1.0")
    else .ok (some value)
  | none => .ok none

/-- `create_file_input`. -/
def createFileInput (lib : Library) (data : JsonObject) : Except Failure NodeData := do
  let name ← requireString lib data "fileName"
  return .fileInput name (DOWNLOADS_DIR ++ name) none

/-- `create_mixer`. -/
def createMixer : Except Failure NodeData := .ok (.mixer [])

/-- The constructor `DelayNode(size_t)`, whose argument is a `float`: the argument is
converted to `size_t`, and the number of frames to `int`. -/
def delayFrames (lib : Library) (delaySec : ℚ) : ℤ :=
  let delayMs := lib.toFloat (toUnsigned 64 delaySec)
  toSigned 31 (lib.toFloat (delayMs / FRAME_DURATION))

/-- `create_delay`. -/
def createDelay (lib : Library) (data : JsonObject) : Except Failure NodeData := do
  let delaySec ← requireFloat lib data "delay"
  if delaySec < 0 then .error (parseError "Delay cannot be negative")
  else .ok (.delay (delayFrames lib delaySec))

/-- `create_file_options`. -/
def createFileOptions (lib : Library) (data : JsonObject) : Except Failure NodeData := do
  let gain ← requireDouble lib data "gain"
  let pitchShift ← requireDouble lib data "pitch_shift"
  return .fileOptions gain pitchShift

/-- One turn of the loop of `create_clients`; `as_object` throws. -/
def parseClient (lib : Library) (v : Json) : Except Failure ClientConfig := do
  let client ← match v.asObject with
    | some client => .ok client
    | none => .error (.threw (lib.whatObject v))
  let ip ← requireString lib client "ip"
  let port ← match client.lookup "port" with
    | some json => parsePort json
    | none => .error (parseError ("Missing port for client " ++ ip))
  let lossRatio ← match client.lookup "lossRatio" with
    | some json => parseLossRatio lib json
    | none => .ok (some 0)
  return ⟨ip, port, lossRatio⟩

/-- `create_clients`. -/
def createClients (lib : Library) (data : JsonObject) : Except Failure NodeData :=
  match data.lookup "clients" with
  | none => .ok (.clients [])
  | some _ => do
    let elements ← requireArray lib data "clients"
    let clients ← elements.mapM (parseClient lib)
    return .clients clients

/-- `NodeFactory::create`, with the creators registered. -/
def createNode (lib : Library) (type : String) (data : JsonObject) : Except Failure NodeData :=
  if type = "fileInput" then createFileInput lib data
  else if type = "mixer" then createMixer
  else if type = "delay" then createDelay lib data
  else if type = "clients" then createClients lib data
  else if type = "fileOptions" then createFileOptions lib data
  else .error (parseError ("Unknown node type: " ++ type))

/-- A node that has just been created points nowhere. -/
def NodeData.Unconnected : NodeData → Prop
  | .fileInput _ _ options => options = none
  | .mixer inputs => inputs = []
  | .delay _ | .clients _ | .fileOptions _ _ => True

/-- What each creator makes. -/
inductive Creates (lib : Library) (data : JsonObject) : String → NodeData → Prop where
  | fileInput {name : String} (h : requireString lib data "fileName" = .ok name) :
      Creates lib data "fileInput" (.fileInput name (DOWNLOADS_DIR ++ name) none)
  | mixer : Creates lib data "mixer" (.mixer [])
  | delay (totalFrames : ℤ) : Creates lib data "delay" (.delay totalFrames)
  | clients (clients : List ClientConfig) : Creates lib data "clients" (.clients clients)
  | fileOptions {gain pitchShift : ℚ}
      (h : createFileOptions lib data = .ok (.fileOptions gain pitchShift)) :
      Creates lib data "fileOptions" (.fileOptions gain pitchShift)

/-- What is made has the kind and the data that its type says. -/
theorem createNode_creates {lib : Library} {type : String} {data : JsonObject} {node : NodeData}
    (h : createNode lib type data = .ok node) : Creates lib data type node := by
  unfold createNode at h
  split_ifs at h with hfile hmixer hdelay hclients hoptions
  · obtain ⟨name, hname, hnode⟩ := bind_ok h
    cases hnode
    exact hfile ▸ .fileInput hname
  · cases h
    exact hmixer ▸ .mixer
  · obtain ⟨delaySec, -, hnode⟩ := bind_ok h
    split at hnode
    · cases hnode
    · cases hnode
      exact hdelay ▸ .delay _
  · unfold createClients at h
    split at h
    · cases h
      exact hclients ▸ .clients []
    · obtain ⟨elements, -, hlist⟩ := bind_ok h
      obtain ⟨clients, -, hnode⟩ := bind_ok hlist
      cases hnode
      exact hclients ▸ .clients clients
  · have hcreate := h
    obtain ⟨gain, -, hshift⟩ := bind_ok h
    obtain ⟨pitchShift, -, hnode⟩ := bind_ok hshift
    cases hnode
    exact hoptions ▸ .fileOptions hcreate

/-- A node just made has no pointers and no inputs. -/
theorem createNode_unconnected {lib : Library} {type : String} {data : JsonObject} {node : NodeData}
    (h : createNode lib type data = .ok node) : node.Unconnected := by
  cases createNode_creates h with
  | fileInput hname => rfl
  | mixer => rfl
  | _ => trivial

end HermesFlow.Infra
