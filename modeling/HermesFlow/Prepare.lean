import HermesFlow.BufferOwnership
import HermesFlow.FrameDispatch
import HermesFlow.GraphInvariant

/-!
# The executor of a parsed graph

The nodes of a graph are those that the executor plays, a node of a kind at the
position that the graph has it at. `prepare` fills their buffers, sets the totals
of the mixers and flags the nodes of a loop.
-/

namespace HermesFlow.Audio

variable {Shifter : Type}

/-- The node of a kind at a position. -/
def nodeRef (p : ℕ) : Infra.NodeKind → NodeRef
  | .fileInput => .fileInput p
  | .mixer => .mixer p
  | .delay => .delay p
  | .clients => .clients p
  | .fileOptions => .fileOptions p

/-- What a pointer leads to. -/
def pointer (graph : Infra.Graph) (p : ℕ) : Option NodeRef :=
  (Infra.kindAt graph.nodes p).map (nodeRef p)

/-- The part common to all nodes, as created and connected. -/
def createBase (graph : Infra.Graph) (node : Infra.Node) : NodeBase where
  id := node.id
  target := node.target.bind (pointer graph)
  processedFrames := 0
  totalFrames :=
    match node.data with
    | .delay totalFrames => totalFrames
    | _ => 0
  inBufferProcessedFrames := 0
  isInLoop := false

/-- The node at a position; a position without a node has one that is in no graph. -/
def nodeAt (graph : Infra.Graph) (p : ℕ) : Infra.Node :=
  graph.nodes[p]?.getD ⟨"", none, .clients []⟩

/-- The options at a position. -/
def createFileOptions (graph : Infra.Graph) (p : ℕ) : FileOptionsNode :=
  match (nodeAt graph p).data with
  | .fileOptions gain pitchShift => ⟨createBase graph (nodeAt graph p), gain, pitchShift⟩
  | _ => ⟨createBase graph (nodeAt graph p), 1, 1⟩

/-- The file input at a position, with the bytes that the disk has at its path. -/
def createFileInput (graph : Infra.Graph) (disk : String → Option (List UInt8)) (shifter : Shifter)
    (p : ℕ) : FileInputNode Shifter :=
  let base := createBase graph (nodeAt graph p)
  match (nodeAt graph p).data with
  | .fileInput name path options =>
    ⟨base, name, path, disk path, none, options.map (createFileOptions graph), shifter,
      ⟨.create, [], []⟩⟩
  | _ => ⟨base, "", "", none, none, none, shifter, ⟨.create, [], []⟩⟩

/-- The nodes of a graph before they are prepared. -/
def createNodes (graph : Infra.Graph) (disk : String → Option (List UInt8)) (shifter : Shifter) :
    Nodes Shifter where
  files := createFileInput graph disk shifter
  mixers := fun p =>
    ⟨createBase graph (nodeAt graph p), (nodeAt graph p).inputs, List.replicate FRAME_SIZE_BYTES 0⟩
  delays := fun p => ⟨createBase graph (nodeAt graph p)⟩
  clients := fun p => createBase graph (nodeAt graph p)
  fileOptions := createFileOptions graph

/-- `Node::set_in_loop`. -/
def NodeBase.setInLoop (n : NodeBase) (value : Bool) : NodeBase := { n with isInLoop := value }

/-- Every node has its own flag. -/
theorem NodeBase.setInLoop_self (n : NodeBase) : n = n.setInLoop n.isInLoop := rfl

namespace FileInputNode

/-- The steps of an `initialize_buffers` that nothing interrupts; its reads may fail. -/
def initTasks (k : ℕ) (reads : Bool × Bool) : List Task :=
  [.initializeBuffers, .initStart k, .initFirst k reads.1, .initSecond k reads.2]

/-- `initialize_buffers`. -/
def initializeBuffers (n : FileInputNode Shifter) (reads : Bool × Bool) : FileInputNode Shifter :=
  ((initTasks n.buffer.inits.length reads).foldlM runTask n).getD n

/-- `set_in_loop`. -/
def setInLoop (n : FileInputNode Shifter) (value : Bool) : FileInputNode Shifter :=
  { n with base := n.base.setInLoop value }

end FileInputNode

namespace Nodes

/-- `initialize_nodes`; the other kinds have no buffers. -/
def initializeNodes (g : Nodes Shifter) (reads : ℕ → Bool × Bool) : Nodes Shifter :=
  { g with files := fun p => (g.files p).initializeBuffers (reads p) }

/-- `update_mixers`. -/
def updateMixers (g : Nodes Shifter) (mixerNodes : List ℕ) : Nodes Shifter :=
  let setMaxFrames := fun mixers p => Function.update mixers p ((mixers p).setMaxFrames g.files)
  { g with mixers := mixerNodes.foldl setMaxFrames g.mixers }

/-- `set_in_loop` of a node; that of a mixer goes on to its inputs. -/
def setInLoop (g : Nodes Shifter) (r : NodeRef) (value : Bool) : Nodes Shifter :=
  match r with
  | .fileInput i => { g with files := Function.update g.files i ((g.files i).setInLoop value) }
  | .mixer i =>
    let m := g.mixers i
    { g with
      mixers := Function.update g.mixers i { m with base := m.base.setInLoop value }
      files := fun j => if j ∈ m.inputs then (g.files j).setInLoop value else g.files j }
  | .delay i =>
    { g with delays := Function.update g.delays i ⟨(g.delays i).base.setInLoop value⟩ }
  | .clients i =>
    { g with clients := Function.update g.clients i ((g.clients i).setInLoop value) }
  | .fileOptions i =>
    let options := g.fileOptions i
    { g with fileOptions :=
        Function.update g.fileOptions i { options with base := options.base.setInLoop value } }

/-- The first loop of `detect_and_flag_loops`: the first node that is met again.
The number bounds the turns of the loop. -/
def findCycle (g : Nodes Shifter) : ℕ → Option NodeRef → List NodeRef → Option NodeRef
  | _, none, _ => none
  | 0, some _, _ => none
  | turns + 1, some curr, visited =>
    if curr ∈ visited then some curr else findCycle g turns (g.base curr).target (curr :: visited)

/-- The second loop: every node from the start of the cycle back to it is flagged. -/
def flagLoop (g : Nodes Shifter) (cycleStart : NodeRef) : ℕ → NodeRef → Nodes Shifter
  | turns, loopNode =>
    let g := g.setInLoop loopNode true
    match turns, (g.base loopNode).target with
    | turns + 1, some next => if next = cycleStart then g else flagLoop g cycleStart turns next
    | _, _ => g

/-- `detect_and_flag_loops` on a graph of so many nodes. -/
def detectAndFlagLoops (g : Nodes Shifter) (size : ℕ) (startNode : Option NodeRef) :
    Nodes Shifter :=
  match g.findCycle (size + 1) startNode [] with
  | some cycleStart => g.flagLoop cycleStart size cycleStart
  | none => g

end Nodes

namespace AudioExecutor

/-- The constructor. -/
def create (graph : Infra.Graph) (disk : String → Option (List UInt8)) (shifter : Shifter)
    (stats : SessionStats) : AudioExecutor Shifter :=
  ⟨createNodes graph disk shifter, graph.startNode.bind (pointer graph), stats⟩

/-- `prepare` of an executor that has a start node, once the assets exist. -/
def prepare (e : AudioExecutor Shifter) (graph : Infra.Graph) (reads : ℕ → Bool × Bool) :
    AudioExecutor Shifter :=
  let startNode := graph.startNode.bind (pointer graph)
  let nodes := ((e.nodes.initializeNodes reads).updateMixers graph.mixerNodes).detectAndFlagLoops
    graph.nodes.length startNode
  { nodes := nodes
    currentNode := startNode
    stats := { e.stats with
      currentNodeId := (startNode.elim e.stats.currentNodeId fun r => (nodes.base r).id)
      totalBytesSent := 0 } }

end AudioExecutor

namespace Nodes

/-- The second has the nodes of the first, with other flags. -/
structure Flagged (a b : Nodes Shifter) : Prop where
  /-- A node is the same but for its flag. -/
  base : ∀ r, ∃ flag, b.base r = (a.base r).setInLoop flag
  /-- A file input is the same but for its flag. -/
  files : ∀ j, ∃ flag, b.files j = (a.files j).setInLoop flag
  /-- The inputs of a mixer are the same. -/
  inputs : ∀ i, (b.mixers i).inputs = (a.mixers i).inputs

/-- No flag need be changed. -/
theorem Flagged.refl (g : Nodes Shifter) : Flagged g g :=
  ⟨fun _ => ⟨_, NodeBase.setInLoop_self _⟩, fun j => ⟨(g.files j).base.isInLoop, rfl⟩, fun _ => rfl⟩

/-- Changes of flags compose. -/
theorem Flagged.trans {a b c : Nodes Shifter} (h : Flagged a b) (h' : Flagged b c) :
    Flagged a c where
  base := fun r => by
    obtain ⟨flag, hflag⟩ := h.base r
    obtain ⟨flag', hflag'⟩ := h'.base r
    exact ⟨flag', by rw [hflag', hflag]; rfl⟩
  files := fun j => by
    obtain ⟨flag, hflag⟩ := h.files j
    obtain ⟨flag', hflag'⟩ := h'.files j
    exact ⟨flag', by rw [hflag', hflag]; rfl⟩
  inputs := fun i => (h'.inputs i).trans (h.inputs i)

/-- Replacing a value by one with another flag. -/
theorem flagged_update {ι α : Type} [DecidableEq ι] {f : ι → α} {i : ι} {a : α}
    {setInLoop : α → Bool → α} (hself : ∀ a, ∃ flag, a = setInLoop a flag)
    (h : ∃ flag, a = setInLoop (f i) flag) (j : ι) :
    ∃ flag, Function.update f i a j = setInLoop (f j) flag := by
  rcases eq_or_ne j i with rfl | hj
  · rw [Function.update_self]
    exact h
  · rw [Function.update_of_ne hj]
    exact hself (f j)

/-- Setting a node's flag changes flags alone. -/
theorem flagged_setInLoop (g : Nodes Shifter) (r : NodeRef) (value : Bool) :
    Flagged g (g.setInLoop r value) := by
  have hsame := Flagged.refl g
  have hself : ∀ n : NodeBase, ∃ flag, n = n.setInLoop flag :=
    fun n => ⟨n.isInLoop, n.setInLoop_self⟩
  have hbase : ∀ r' base, (∃ flag, base = (g.base r').setInLoop flag) →
      ∀ r, ∃ flag, Function.update g.base r' base r = (g.base r).setInLoop flag :=
    fun _ _ h => flagged_update hself h
  cases r with
  | fileInput i =>
    refine ⟨?_, ?_, hsame.inputs⟩
    · simp only [setInLoop, base_file]
      exact hbase _ _ ⟨value, rfl⟩
    · exact flagged_update (fun n => ⟨n.base.isInLoop, rfl⟩) ⟨value, rfl⟩
  | mixer i =>
    have hfile : ∀ j, ∃ flag, (if j ∈ (g.mixers i).inputs then (g.files j).setInLoop value
        else g.files j) = (g.files j).setInLoop flag := by
      intro j
      split
      · exact ⟨value, rfl⟩
      · exact hsame.files j
    refine ⟨fun r => ?_, hfile, fun j => ?_⟩
    · cases r with
      | fileInput j =>
        obtain ⟨flag, hflag⟩ := hfile j
        exact ⟨flag, congrArg FileInputNode.base hflag⟩
      | mixer j =>
        have hmixer : ∀ m : MixerNode, ∃ flag, m = { m with base := m.base.setInLoop flag } :=
          fun m => ⟨m.base.isInLoop, rfl⟩
        obtain ⟨flag, hflag⟩ := flagged_update hmixer (f := g.mixers) (i := i) ⟨value, rfl⟩ j
        exact ⟨flag, congrArg MixerNode.base hflag⟩
      | _ => exact ⟨_, NodeBase.setInLoop_self _⟩
    · exact update_component MixerNode.inputs (by rfl) j
  | delay i =>
    refine ⟨?_, hsame.files, hsame.inputs⟩
    simp only [setInLoop, base_delay]
    exact hbase _ _ ⟨value, rfl⟩
  | clients i =>
    refine ⟨fun r => ?_, hsame.files, hsame.inputs⟩
    cases r with
    | clients j => exact flagged_update hself ⟨value, rfl⟩ j
    | _ => exact ⟨_, NodeBase.setInLoop_self _⟩
  | fileOptions i =>
    refine ⟨fun r => ?_, hsame.files, hsame.inputs⟩
    cases r with
    | fileOptions j =>
      have hoptions : ∀ n : FileOptionsNode, ∃ flag, n = { n with base := n.base.setInLoop flag } :=
        fun n => ⟨n.base.isInLoop, rfl⟩
      obtain ⟨flag, hflag⟩ := flagged_update hoptions (f := g.fileOptions) (i := i) ⟨value, rfl⟩ j
      exact ⟨flag, congrArg FileOptionsNode.base hflag⟩
    | _ => exact ⟨_, NodeBase.setInLoop_self _⟩

/-- Flagging a loop changes flags alone. -/
theorem flagged_flagLoop (g : Nodes Shifter) (cycleStart : NodeRef) (turns : ℕ)
    (loopNode : NodeRef) : Flagged g (g.flagLoop cycleStart turns loopNode) := by
  induction turns generalizing g loopNode with
  | zero => exact flagged_setInLoop g loopNode true
  | succ turns ih =>
    have hfirst := flagged_setInLoop g loopNode true
    unfold flagLoop
    dsimp only
    cases ((g.setInLoop loopNode true).base loopNode).target with
    | none => exact hfirst
    | some next =>
      dsimp only
      split
      · exact hfirst
      · exact hfirst.trans (ih _ _)

/-- Flagging a loop changes nothing else. -/
theorem flagged_detectAndFlagLoops (g : Nodes Shifter) (size : ℕ) (startNode : Option NodeRef) :
    Flagged g (g.detectAndFlagLoops size startNode) := by
  unfold detectAndFlagLoops
  split
  · exact flagged_flagLoop g _ _ _
  · exact Flagged.refl g

end Nodes

/-- A node whose buffers have never been filled. -/
structure FileInputNode.Unopened (n : FileInputNode Shifter) : Prop where
  /-- The file is not open. -/
  handle : n.handle = none
  /-- The buffers are not initialised. -/
  buffer : n.buffer = ⟨.create, [], []⟩

/-- The first `initialize_buffers` of a node opens its file and fills both blocks. -/
theorem FileInputNode.Unopened.initializeBuffers {n : FileInputNode Shifter} (h : n.Unopened)
    (reads : Bool × Bool) :
    (n.initializeBuffers reads).file = n.file ∧
      (n.initializeBuffers reads).base = { n.base with totalFrames := n.openedFrames } ∧
      ∃ first second, (n.initializeBuffers reads).buffer = Buffering.initialized first second := by
  obtain ⟨base, fileName, filePath, file, _, options, shifter, _⟩ := n
  obtain ⟨rfl, rfl⟩ := h
  obtain ⟨first, second⟩ := reads
  cases file <;> cases first <;> cases second <;> exact ⟨rfl, rfl, _, _, rfl⟩

/-- What `update_mixers` does to a mixer. -/
theorem Nodes.updateMixers_mixers (g : Nodes Shifter) (mixerNodes : List ℕ) (p : ℕ) :
    (g.updateMixers mixerNodes).mixers p =
      if p ∈ mixerNodes then (g.mixers p).setMaxFrames g.files else g.mixers p := by
  have hfold : ∀ (mixers : ℕ → MixerNode), (mixerNodes.foldl (fun mixers p =>
      Function.update mixers p ((mixers p).setMaxFrames g.files)) mixers) p =
        if p ∈ mixerNodes then (mixers p).setMaxFrames g.files else mixers p := by
    induction mixerNodes with
    | nil => exact fun _ => rfl
    | cons q mixerNodes ih =>
      intro mixers
      rw [List.foldl_cons, ih]
      by_cases hp : p = q
      · subst hp
        rw [Function.update_self, if_pos List.mem_cons_self]
        split <;> rfl
      · rw [Function.update_of_ne hp]
        simp only [List.mem_cons, hp, false_or]
  exact hfold g.mixers

/-- The start of playback. -/
def startSession (graph : Infra.Graph) (disk : String → Option (List UInt8)) (shifter : Shifter)
    (stats : SessionStats) (reads : ℕ → Bool × Bool) (pcmBuffer : List UInt8) :
    Dispatch.State Shifter :=
  ⟨(AudioExecutor.create graph disk shifter stats).prepare graph reads, pcmBuffer, true, [], []⟩

section Start

variable (graph : Infra.Graph) (disk : String → Option (List UInt8)) (shifter : Shifter)
  (stats : SessionStats) (reads : ℕ → Bool × Bool) (pcmBuffer : List UInt8)

/-- A file input just created has never been opened. -/
theorem unopened_createFileInput (p : ℕ) : (createFileInput graph disk shifter p).Unopened := by
  unfold createFileInput
  dsimp only
  split <;> exact ⟨rfl, rfl⟩

/-- The nodes before their loops are flagged. -/
def preparedNodes : Nodes Shifter :=
  ((createNodes graph disk shifter).initializeNodes reads).updateMixers graph.mixerNodes

/-- The nodes of a started session are the prepared ones, but for their flags. -/
theorem flagged_startSession :
    Nodes.Flagged (preparedNodes graph disk shifter reads)
      (startSession graph disk shifter stats reads pcmBuffer).executor.nodes :=
  Nodes.flagged_detectAndFlagLoops _ _ _

/-- No node has played a frame. -/
theorem startSession_processedFrames (r : NodeRef) :
    ((startSession graph disk shifter stats reads pcmBuffer).executor.nodes.base r).processedFrames =
      0 := by
  obtain ⟨flag, hflag⟩ := (flagged_startSession graph disk shifter stats reads pcmBuffer).base r
  rw [hflag]
  cases r with
  | fileInput p =>
    have hbase := ((unopened_createFileInput graph disk shifter p).initializeBuffers (reads p)).2.1
    change ((createFileInput graph disk shifter p).initializeBuffers (reads p)).base.processedFrames = 0
    rw [hbase]
    unfold createFileInput
    dsimp only
    split <;> rfl
  | mixer p =>
    change ((preparedNodes graph disk shifter reads).mixers p).base.processedFrames = 0
    rw [preparedNodes, Nodes.updateMixers_mixers]
    split <;> rfl
  | delay p => rfl
  | clients p => rfl
  | fileOptions p =>
    change (createFileOptions graph p).base.processedFrames = 0
    unfold createFileOptions
    split <;> rfl

/-- The files have been opened. -/
theorem startSession_opened (i : ℕ) :
    ((startSession graph disk shifter stats reads pcmBuffer).executor.nodes.files i).base.totalFrames =
      ((startSession graph disk shifter stats reads pcmBuffer).executor.nodes.files i).openedFrames := by
  obtain ⟨flag, hflag⟩ := (flagged_startSession graph disk shifter stats reads pcmBuffer).files i
  obtain ⟨hfile, hbase, -⟩ :=
    (unopened_createFileInput graph disk shifter i).initializeBuffers (reads i)
  rw [hflag]
  change ((createFileInput graph disk shifter i).initializeBuffers (reads i)).base.totalFrames =
    ((createFileInput graph disk shifter i).initializeBuffers (reads i)).openedFrames
  rw [hbase, FileInputNode.openedFrames, FileInputNode.openedFrames, hfile]

end Start

end HermesFlow.Audio
