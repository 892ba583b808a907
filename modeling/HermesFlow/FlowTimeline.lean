import HermesFlow.ApplyEffects
import HermesFlow.FlowText
import HermesFlow.LiveTimeline

/-!
# What a flow plays

The text of a flow describes frames by the ids of its nodes, without a graph or an executor: a
delay is silent, a file has the frames of its audio bytes with its options, and a mixer the
clipped sums of its inputs. A session of the flow plays them in the order in which the edges lead
from the start.
-/

namespace HermesFlow.Audio.FlowTimeline

open ByteOrder Infra
open Timeline (startReads)
open CleanEpoch (passFrame shifterAt)

variable {Shifter : Type}

section Meaning

variable (lib : Library) (disk : String → Option (List UInt8)) (fx : FloatOps Shifter)
  (shifter : Shifter) (flow : Flow)

/-- The bytes of the file that a node names. -/
def fileOf (id : String) : Option (List UInt8) :=
  match flow.node id with
  | some (.fileInput fileName) => disk (DOWNLOADS_DIR ++ fileName)
  | _ => none

/-- The options that a file has. -/
def optionsOf (id : String) : Option FileOptionsNode :=
  (flow.options id).bind fun options =>
    match flow.node options with
    | some (.fileOptions gain pitchShift) =>
      some ⟨⟨options, none, 0, 0, 0, false⟩, gain, pitchShift⟩
    | _ => none

/-- The frames that a file has. -/
def fileTotal (id : String) : ℤ := (fileOf disk flow id).elim 0 totalFramesOf

/-- The frames that a node has; a mixer lasts as long as its longest input. -/
def total (id : String) : ℤ :=
  match flow.node id with
  | some (.fileInput _) => fileTotal disk flow id
  | some .mixer =>
    (flow.inputs id).foldl (fun max input => Max.max max (fileTotal disk flow input)) 0
  | some (.delay milliseconds) => delayFrames lib milliseconds
  | _ => 0

/-- Frame `k` of a file. -/
def fileFrame (id : String) (k : ℕ) : List UInt8 :=
  passFrame fx.toEffects (optionsOf flow id) shifter (audioOf ((fileOf disk flow id).getD [])) k

/-- A sample that a file gives to frame `k` of a mixer: nothing once it is over. -/
def sample (id : String) (k i : ℕ) : ℤ :=
  if 0 < fileTotal disk flow id ∧ fileTotal disk flow id ≤ k then 0
  else (asSamples (fileFrame disk fx shifter flow id k)).getD i 0

/-- Frame `k` of a node. -/
def frame (id : String) (k : ℕ) : List UInt8 :=
  match flow.node id with
  | some (.fileInput _) => fileFrame disk fx shifter flow id k
  | some .mixer =>
    AudioMath.compressAndExport fx.compress
      ((List.range SAMPLES_PER_FRAME).map fun i =>
        ((flow.inputs id).map fun input => sample disk fx shifter flow input k i).sum)
      (List.replicate FRAME_SIZE_BYTES 0)
  | some (.delay _) => List.replicate FRAME_SIZE_BYTES 0
  | _ => []

/-- The frames of the nodes of a walk. -/
def timeline (walk : List String) : List (List UInt8) :=
  walk.flatMap fun id =>
    (List.range (total lib disk flow id).toNat).map (frame disk fx shifter flow id)

/-- The edges lead from an id through a walk to its end. -/
def Walks : Option String → List String → Prop
  | none, [] => True
  | some id, first :: walk => first = id ∧ Walks (flow.next id) walk
  | _, _ => False

instance decidableWalks : ∀ curr walk, Decidable (Walks flow curr walk)
  | none, [] => .isTrue trivial
  | some id, first :: walk =>
    have := decidableWalks (flow.next id) walk
    inferInstanceAs (Decidable (first = id ∧ Walks flow (flow.next id) walk))
  | none, _ :: _ | some _, [] => .isFalse id

/-- The nodes that play in one: itself, and the inputs of a mixer. -/
def players (id : String) : List String := id :: flow.inputs id

/-- What a flow needs to be played to its end: its walk ends, its nodes play something, each file
once, and the files are on the disk. -/
structure Playable (walk : List String) : Prop where
  /-- The walk starts at the flow's start and follows it to its end. -/
  walks : Walks flow flow.start walk
  /-- Every node of the walk has a frame to play. -/
  audio : ∀ id ∈ walk, 1 ≤ total lib disk flow id
  /-- No input is listed twice. -/
  distinct : ∀ id ∈ walk, (flow.inputs id).Nodup
  /-- No file is played by two nodes of the walk. -/
  apart : walk.Pairwise fun id id' => ∀ player ∈ players flow id, player ∉ players flow id'
  /-- The files that are played are on the disk. -/
  onDisk : ∀ id ∈ walk, ∀ player ∈ players flow id, flow.kind player = some .fileInput →
    (fileOf disk flow player).isSome

end Meaning

section Nodes

variable {lib : Library} {flow : Flow} {graph : Graph} {id : String} {p : ℕ}

end Nodes

section File

variable {lib : Library} {flow : Flow} {graph : Graph} {id : String} {p : ℕ}
  {disk : String → Option (List UInt8)} {shifter : Shifter} {stats : SessionStats}
  {pcmBuffer : List UInt8}

end File

section Session

variable {lib : Library} {o : JsonObject} {graph : Graph} {disk : String → Option (List UInt8)}
  {shifter : Shifter} {stats : SessionStats} {pcmBuffer : List UInt8} {walk : List String}

end Session

end HermesFlow.Audio.FlowTimeline

namespace HermesFlow.Live

open Audio Audio.Timeline EventRun

variable {Shifter : Type} {fx : FloatOps Shifter}

end HermesFlow.Live
