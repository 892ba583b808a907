import HermesFlow.MixerNode

/-!
# The audio executor

The executor pulls frames from the current node and moves along the `next`
pointers when the node is complete. The nodes of a graph are kept by kind, and
what a call on one of them does to the others is stated once, for any node.
-/

namespace HermesFlow.Audio

variable {Shifter : Type}

/-- The nodes of a graph, by kind. -/
structure Nodes (Shifter : Type) where
  /-- The file inputs. -/
  files : FileNodes Shifter
  /-- The mixers. -/
  mixers : ℕ → MixerNode
  /-- The delays. -/
  delays : ℕ → DelayNode
  /-- The client nodes. -/
  clients : ℕ → NodeBase
  /-- The option nodes. -/
  fileOptions : ℕ → FileOptionsNode

/-- `kind_` is one of those that override `process_frame`. -/
def NodeRef.IsAudio : NodeRef → Prop
  | .fileInput _ | .mixer _ | .delay _ => True
  | .clients _ | .fileOptions _ => False

namespace Nodes

/-- The common part of a node. -/
def base (g : Nodes Shifter) : NodeRef → NodeBase
  | .fileInput i => (g.files i).base
  | .mixer i => (g.mixers i).base
  | .delay i => (g.delays i).base
  | .clients i => g.clients i
  | .fileOptions i => (g.fileOptions i).base

/-- `process_frame` of a node. -/
def processFrame (fx : FloatOps Shifter) (g : Nodes Shifter) (r : NodeRef)
    (frameBuffer : List UInt8) : Processed (Nodes Shifter) :=
  match r with
  | .fileInput i =>
    let p := (g.files i).processFrame fx.toEffects frameBuffer
    ⟨{ g with files := Function.update g.files i p.node }, p.result, p.frameBuffer⟩
  | .mixer i =>
    let p := (g.mixers i).processFrame fx g.files frameBuffer
    ⟨{ g with mixers := Function.update g.mixers i p.node.1, files := p.node.2 }, p.result,
      p.frameBuffer⟩
  | .delay i =>
    let p := (g.delays i).processFrame frameBuffer
    ⟨{ g with delays := Function.update g.delays i p.node }, p.result, p.frameBuffer⟩
  | .clients _ | .fileOptions _ =>
    let p := (g.base r).processFrame frameBuffer
    ⟨g, p.result, p.frameBuffer⟩

/-- `close` of a node. -/
def close (fx : FloatOps Shifter) (g : Nodes Shifter) (r : NodeRef)
    (faults : ℕ → Option String) : Nodes Shifter × Except NodeError Unit :=
  match r with
  | .fileInput i =>
    let c := (g.files i).close fx.toEffects (faults i)
    ({ g with files := Function.update g.files i c.1 }, c.2)
  | .mixer i =>
    let c := (g.mixers i).close fx g.files faults
    ({ g with mixers := Function.update g.mixers i c.1.1, files := c.1.2 }, c.2)
  | .delay i => ({ g with delays := Function.update g.delays i (g.delays i).close }, .ok ())
  | .clients _ | .fileOptions _ => (g, .ok ())

/-- The two have the same pointers, totals and files. -/
structure SameGraph (a b : Nodes Shifter) : Prop where
  /-- The same pointers. -/
  target : ∀ r, (b.base r).target = (a.base r).target
  /-- The same totals. -/
  totalFrames : ∀ r, (b.base r).totalFrames = (a.base r).totalFrames
  /-- The same mixer inputs. -/
  inputs : ∀ i, (b.mixers i).inputs = (a.mixers i).inputs
  /-- The same files. -/
  file : ∀ i, (b.files i).file = (a.files i).file

/-- Every graph has its own pointers, totals and files. -/
theorem SameGraph.refl (g : Nodes Shifter) : SameGraph g g :=
  ⟨fun _ => rfl, fun _ => rfl, fun _ => rfl, fun _ => rfl⟩

/-- Sameness of graphs composes. -/
theorem SameGraph.trans {a b c : Nodes Shifter} (h : SameGraph a b) (h' : SameGraph b c) :
    SameGraph a c where
  target := fun r => (h'.target r).trans (h.target r)
  totalFrames := fun r => (h'.totalFrames r).trans (h.totalFrames r)
  inputs := fun i => (h'.inputs i).trans (h.inputs i)
  file := fun i => (h'.file i).trans (h.file i)

/-- New file input nodes with the same sources. -/
theorem sameGraph_files {g : Nodes Shifter} {files : FileNodes Shifter}
    (h : ∀ j, SameSource (g.files j) (files j)) : SameGraph g { g with files := files } where
  target := fun r => by
    cases r with
    | fileInput j => exact (h j).target
    | _ => rfl
  totalFrames := fun r => by
    cases r with
    | fileInput j => exact (h j).totalFrames
    | _ => rfl
  inputs := fun _ => rfl
  file := fun j => (h j).file

/-- Replacing a value by one with the same component. -/
theorem update_component {ι α β : Type*} [DecidableEq ι] (component : α → β) {f : ι → α} {i : ι}
    {a : α} (h : component a = component (f i)) (j : ι) :
    component (Function.update f i a j) = component (f j) := by
  rcases eq_or_ne j i with rfl | hj
  · rw [Function.update_self, h]
  · rw [Function.update_of_ne hj]

/-- Replacing a file input replaces its base alone. -/
theorem base_file (g : Nodes Shifter) (i : ℕ) (n : FileInputNode Shifter) :
    ({ g with files := Function.update g.files i n } : Nodes Shifter).base =
      Function.update g.base (.fileInput i) n.base := by
  funext r
  cases r with
  | fileInput j =>
    simp only [base, Function.update_apply, NodeRef.fileInput.injEq]
    split <;> rfl
  | _ => simp only [base, Function.update_apply, reduceCtorEq, if_false]

/-- Replacing a mixer replaces its base alone. -/
theorem base_mixer (g : Nodes Shifter) (i : ℕ) (m : MixerNode) :
    ({ g with mixers := Function.update g.mixers i m } : Nodes Shifter).base =
      Function.update g.base (.mixer i) m.base := by
  funext r
  cases r with
  | mixer j =>
    simp only [base, Function.update_apply, NodeRef.mixer.injEq]
    split <;> rfl
  | _ => simp only [base, Function.update_apply, reduceCtorEq, if_false]

/-- Replacing a delay replaces its base alone. -/
theorem base_delay (g : Nodes Shifter) (i : ℕ) (d : DelayNode) :
    ({ g with delays := Function.update g.delays i d } : Nodes Shifter).base =
      Function.update g.base (.delay i) d.base := by
  funext r
  cases r with
  | delay j =>
    simp only [base, Function.update_apply, NodeRef.delay.injEq]
    split <;> rfl
  | _ => simp only [base, Function.update_apply, reduceCtorEq, if_false]

/-- One new mixer with the same pointers and total. -/
theorem sameGraph_mixer {g : Nodes Shifter} {i : ℕ} {m : MixerNode}
    (htarget : m.base.target = (g.mixers i).base.target)
    (htotal : m.base.totalFrames = (g.mixers i).base.totalFrames)
    (hinputs : m.inputs = (g.mixers i).inputs) :
    SameGraph g { g with mixers := Function.update g.mixers i m } where
  target := fun r => by
    rw [base_mixer]
    exact @update_component _ _ _ _ NodeBase.target g.base (.mixer i) _ htarget r
  totalFrames := fun r => by
    rw [base_mixer]
    exact @update_component _ _ _ _ NodeBase.totalFrames g.base (.mixer i) _ htotal r
  inputs := update_component MixerNode.inputs hinputs
  file := fun _ => rfl

/-- One new delay with the same pointer and total. -/
theorem sameGraph_delay {g : Nodes Shifter} {i : ℕ} {d : DelayNode}
    (htarget : d.base.target = (g.delays i).base.target)
    (htotal : d.base.totalFrames = (g.delays i).base.totalFrames) :
    SameGraph g { g with delays := Function.update g.delays i d } where
  target := fun r => by
    rw [base_delay]
    exact @update_component _ _ _ _ NodeBase.target g.base (.delay i) _ htarget r
  totalFrames := fun r => by
    rw [base_delay]
    exact @update_component _ _ _ _ NodeBase.totalFrames g.base (.delay i) _ htotal r
  inputs := fun _ => rfl
  file := fun _ => rfl

/-- The nodes whose counters a call on a node may change: itself, and the inputs
of a mixer. -/
def Uses (g : Nodes Shifter) (r s : NodeRef) : Prop :=
  s = r ∨ ∃ i j, r = .mixer i ∧ j ∈ (g.mixers i).inputs ∧ s = .fileInput j

/-- The same graph has the same uses. -/
theorem SameGraph.uses_iff {a b : Nodes Shifter} (h : SameGraph a b) {r s : NodeRef} :
    Uses b r s ↔ Uses a r s := by
  simp only [Uses, h.inputs]

/-- The graph has a new node at a reference, with this common part, and of the
others only nodes that it uses have changed. -/
structure Replaced (g g' : Nodes Shifter) (r : NodeRef) (b : NodeBase) : Prop where
  /-- The graph stays the same. -/
  graph : SameGraph g g'
  /-- The node has the new base. -/
  self : g'.base r = b
  /-- Nodes that it does not use keep theirs. -/
  others : ∀ s, ¬Uses g r s → g'.base s = g.base s

/-- A file input put back with the same source replaces itself. -/
theorem replaced_file {g : Nodes Shifter} {i : ℕ} {n : FileInputNode Shifter}
    (h : SameSource (g.files i) n) :
    Replaced g { g with files := Function.update g.files i n } (.fileInput i) n.base where
  graph := sameGraph_files (sameSource_update h)
  self := by rw [base_file, Function.update_self]
  others := fun s hs => by
    have hs' : s ≠ .fileInput i := fun h => hs (.inl h)
    rw [base_file, Function.update_of_ne hs']

/-- A delay put back with the same pointer and total replaces itself. -/
theorem replaced_delay {g : Nodes Shifter} {i : ℕ} {d : DelayNode}
    (htarget : d.base.target = (g.delays i).base.target)
    (htotal : d.base.totalFrames = (g.delays i).base.totalFrames) :
    Replaced g { g with delays := Function.update g.delays i d } (.delay i) d.base where
  graph := sameGraph_delay htarget htotal
  self := by rw [base_delay, Function.update_self]
  others := fun s hs => by
    have hs' : s ≠ .delay i := fun h => hs (.inl h)
    rw [base_delay, Function.update_of_ne hs']

/-- A mixer put back with its inputs' files replaces itself and these. -/
theorem replaced_mixer {g : Nodes Shifter} {i : ℕ} {m : MixerNode} {files : FileNodes Shifter}
    (htarget : m.base.target = (g.mixers i).base.target)
    (htotal : m.base.totalFrames = (g.mixers i).base.totalFrames)
    (hinputs : m.inputs = (g.mixers i).inputs)
    (hfiles : ∀ j, SameSource (g.files j) (files j) ∧
      (j ∉ (g.mixers i).inputs → files j = g.files j)) :
    Replaced g { g with mixers := Function.update g.mixers i m, files := files } (.mixer i)
      m.base := by
  have hbase := base_mixer { g with files := files } i m
  refine ⟨(sameGraph_files fun j => (hfiles j).1).trans (sameGraph_mixer htarget htotal hinputs),
    ?_, fun s hs => ?_⟩
  · exact (congrFun hbase _).trans (Function.update_self _ _ _)
  · have hs' : s ≠ .mixer i := fun h => hs (.inl h)
    refine (congrFun hbase s).trans ((Function.update_of_ne hs' _ _).trans ?_)
    cases s with
    | fileInput j =>
      have hj : j ∉ (g.mixers i).inputs := fun h => hs (.inr ⟨i, j, rfl, h, rfl⟩)
      simp only [base, (hfiles j).2 hj]
    | _ => rfl

/-- What `process_frame` of a node does to the counters. -/
structure ProcessSpec (g : Nodes Shifter) (r : NodeRef) (p : Processed (Nodes Shifter)) : Prop where
  /-- The graph stays the same. -/
  graph : SameGraph g p.node
  /-- Nodes that it does not use count nothing. -/
  others : ∀ s, ¬Uses g r s → (p.node.base s).processedFrames = (g.base s).processedFrames
  /-- A frame that succeeds is counted once. -/
  ok : p.result = .ok () → (p.node.base r).processedFrames = (g.base r).processedFrames + 1
  /-- A frame that fails is not counted. -/
  error : ∀ error, p.result = .error error →
    (p.node.base r).processedFrames = (g.base r).processedFrames

/-- A call that counts its frame, or returns an error and counts none. -/
theorem Replaced.processSpec {g : Nodes Shifter} {r : NodeRef} {b : NodeBase}
    {p : Processed (Nodes Shifter)} (h : Replaced g p.node r b)
    (hcount : p.result = .ok () ∧ b.processedFrames = (g.base r).processedFrames + 1 ∨
      (∃ error, p.result = .error error) ∧ b.processedFrames = (g.base r).processedFrames) :
    ProcessSpec g r p where
  graph := h.graph
  others := fun s hs => by rw [h.others s hs]
  ok := fun hok => by
    rcases hcount with ⟨-, hcount⟩ | ⟨⟨error, herror⟩, -⟩
    · rw [h.self, hcount]
    · cases hok.symm.trans herror
  error := fun error herror => by
    rcases hcount with ⟨hok, -⟩ | ⟨-, hcount⟩
    · cases hok.symm.trans herror
    · rw [h.self, hcount]

/-- One frame of any node does what the specification says. -/
theorem processFrame_spec (fx : FloatOps Shifter) (g : Nodes Shifter) (r : NodeRef)
    (frameBuffer : List UInt8) : ProcessSpec g r (g.processFrame fx r frameBuffer) := by
  cases r with
  | fileInput i =>
    have hsame := sameSource_processFrame fx.toEffects (g.files i) frameBuffer
    refine Replaced.processSpec (replaced_file hsame) ?_
    exact ((g.files i).processFrame_base fx.toEffects frameBuffer).2.imp
      (And.imp_right fun hbase => by rw [hbase]; rfl)
      (And.imp_right fun hbase => by rw [hbase]; rfl)
  | mixer i =>
    obtain ⟨hinputs, hnode⟩ := (g.mixers i).processFrame_base fx g.files frameBuffer
    have hfiles := (g.mixers i).processFrame_files fx g.files frameBuffer
    refine Replaced.processSpec (replaced_mixer ?_ ?_ hinputs hfiles) ?_
    · rcases hnode with ⟨-, hbase⟩ | ⟨-, hbase⟩ <;> rw [hbase]
    · rcases hnode with ⟨-, hbase⟩ | ⟨-, hbase⟩ <;> rw [hbase]
    · exact hnode.imp (And.imp_right fun hbase => by rw [hbase]; rfl)
        (And.imp_right fun hbase => by rw [hbase]; rfl)
  | delay i => exact Replaced.processSpec (replaced_delay rfl rfl) (.inl ⟨rfl, rfl⟩)
  | clients i | fileOptions i =>
    refine ⟨SameGraph.refl g, fun _ _ => rfl, fun hok => ?_, fun _ _ => rfl⟩
    cases hok

/-- What `close` of a node does to the counters. -/
structure CloseSpec (g : Nodes Shifter) (r : NodeRef)
    (c : Nodes Shifter × Except NodeError Unit) : Prop where
  /-- The graph stays the same. -/
  graph : SameGraph g c.1
  /-- Nodes that it does not use keep their counters. -/
  others : ∀ s, ¬Uses g r s → (c.1.base s).processedFrames = (g.base s).processedFrames
  /-- A closed audio node and its inputs start from zero. -/
  ok : r.IsAudio → c.2 = .ok () → ∀ s, Uses g r s → (c.1.base s).processedFrames = 0

/-- A call that resets the counters of the nodes used, unless it returns an error. -/
theorem Replaced.closeSpec {g : Nodes Shifter} {r : NodeRef} {b : NodeBase}
    {c : Nodes Shifter × Except NodeError Unit} (h : Replaced g c.1 r b)
    (hreset : c.2 = .ok () → b.processedFrames = 0)
    (hinputs : c.2 = .ok () → ∀ i j, r = .mixer i → j ∈ (g.mixers i).inputs →
      (c.1.base (.fileInput j)).processedFrames = 0) : CloseSpec g r c where
  graph := h.graph
  others := fun s hs => by rw [h.others s hs]
  ok := fun _ hok s hs => by
    obtain rfl | ⟨i, j, hr, hj, rfl⟩ := hs
    · rw [h.self, hreset hok]
    · exact hinputs hok i j hr hj

/-- Closing any node does what the specification says. -/
theorem close_spec (fx : FloatOps Shifter) (g : Nodes Shifter) (r : NodeRef)
    (faults : ℕ → Option String) : CloseSpec g r (g.close fx r faults) := by
  cases r with
  | fileInput i =>
    have hsame := sameSource_close fx.toEffects (g.files i) (faults i)
    refine Replaced.closeSpec (replaced_file hsame) (fun hok => ?_) nofun
    obtain ⟨-, ⟨-, hbase⟩ | ⟨⟨error, herror⟩, -⟩⟩ :=
      (g.files i).close_base fx.toEffects (faults i)
    · rw [hbase]
    · cases hok.symm.trans herror
  | mixer i =>
    obtain ⟨hinputs, hnode⟩ := (g.mixers i).close_base fx g.files faults
    have hfiles := closeInputs_files fx faults (g.mixers i).inputs g.files
    simp only [← (g.mixers i).close_files fx g.files faults] at hfiles
    refine Replaced.closeSpec (replaced_mixer ?_ ?_ hinputs hfiles) (fun hok => ?_)
      fun hok k j hk hj => ?_
    · rcases hnode with ⟨-, hbase, -⟩ | ⟨-, hbase⟩ <;> rw [hbase]
    · rcases hnode with ⟨-, hbase, -⟩ | ⟨-, hbase⟩ <;> rw [hbase]
    · rcases hnode with ⟨-, hbase, -⟩ | ⟨⟨error, herror⟩, -⟩
      · rw [hbase]
      · cases hok.symm.trans herror
    · rcases hnode with ⟨-, -, hclosed⟩ | ⟨⟨error, herror⟩, -⟩
      · cases hk
        have hreset := closeInputs_processedFrames fx faults hclosed (.inl hj)
        rw [← (g.mixers i).close_files fx g.files faults] at hreset
        exact hreset
      · cases hok.symm.trans herror
  | delay i => exact Replaced.closeSpec (replaced_delay rfl rfl) (fun _ => rfl) nofun
  | clients i | fileOptions i => exact ⟨SameGraph.refl g, fun _ _ => rfl, nofun⟩

/-- A close that fails reports a file error. -/
theorem close_error {fx : FloatOps Shifter} {g : Nodes Shifter} {r : NodeRef}
    {faults : ℕ → Option String} {error : NodeError} (h : (g.close fx r faults).2 = .error error) :
    error.code = .fileIOError := by
  cases r with
  | fileInput i => exact FileInputNode.close_error h
  | mixer i => exact MixerNode.close_error h
  | delay i | clients i | fileOptions i => cases h

/-- No call on a node renames one. -/
theorem processFrame_id (fx : FloatOps Shifter) (g : Nodes Shifter) (r : NodeRef)
    (frameBuffer : List UInt8) (s : NodeRef) :
    ((g.processFrame fx r frameBuffer).node.base s).id = (g.base s).id := by
  have hfile : ∀ (n : FileInputNode Shifter) (frameBuffer : List UInt8),
      (n.processFrame fx.toEffects frameBuffer).node.base.id = n.base.id := by
    intro n frameBuffer
    rcases (n.processFrame_base fx.toEffects frameBuffer).2 with ⟨-, hbase⟩ | ⟨-, hbase⟩ <;>
      rw [hbase]
  cases r with
  | fileInput i =>
    simp only [processFrame, base_file]
    exact @update_component _ _ _ _ NodeBase.id g.base (.fileInput i) _ (hfile _ _) s
  | mixer i =>
    have hfiles : ∀ j, (((g.mixers i).processFrame fx g.files frameBuffer).node.2 j).base.id =
        (g.files j).base.id := by
      intro j
      have hloop := mixInputs_component (·.base.id) hfile (g.mixers i).inputs
        ⟨g.files, (g.mixers i).tempInputBuffer, List.replicate SAMPLES_PER_FRAME 0, false⟩ j
      unfold MixerNode.processFrame
      dsimp only
      split
      · exact hloop
      · split <;> exact hloop
    have hmixer : ((g.mixers i).processFrame fx g.files frameBuffer).node.1.base.id =
        (g.mixers i).base.id := by
      rcases ((g.mixers i).processFrame_base fx g.files frameBuffer).2 with ⟨-, hbase⟩ | ⟨-, hbase⟩ <;>
        rw [hbase]
    cases s with
    | fileInput j => exact hfiles j
    | mixer j => exact update_component (fun m : MixerNode => m.base.id) hmixer j
    | _ => rfl
  | delay i =>
    have hdelay : ((g.delays i).processFrame frameBuffer).node.base.id = (g.base (.delay i)).id := rfl
    simp only [processFrame, base_delay]
    exact update_component NodeBase.id hdelay s
  | clients i | fileOptions i => rfl

/-- Closing renames no node. -/
theorem close_id (fx : FloatOps Shifter) (g : Nodes Shifter) (r : NodeRef)
    (faults : ℕ → Option String) (s : NodeRef) :
    ((g.close fx r faults).1.base s).id = (g.base s).id := by
  have hfile : ∀ (n : FileInputNode Shifter) (fault : Option String),
      (n.close fx.toEffects fault).1.base.id = n.base.id := by
    intro n fault
    rcases (n.close_base fx.toEffects fault).2 with ⟨-, hbase⟩ | ⟨-, hbase⟩ <;> rw [hbase]
  cases r with
  | fileInput i =>
    simp only [close, base_file]
    exact @update_component _ _ _ _ NodeBase.id g.base (.fileInput i) _ (hfile _ _) s
  | mixer i =>
    have hfiles : ∀ j, (((g.mixers i).close fx g.files faults).1.2 j).base.id =
        (g.files j).base.id := by
      intro j
      rw [MixerNode.close_files]
      exact closeInputs_component (·.base.id) hfile faults (g.mixers i).inputs g.files j
    have hmixer : ((g.mixers i).close fx g.files faults).1.1.base.id = (g.mixers i).base.id := by
      rcases ((g.mixers i).close_base fx g.files faults).2 with ⟨-, hbase, -⟩ | ⟨-, hbase⟩ <;>
        rw [hbase]
    cases s with
    | fileInput j => exact hfiles j
    | mixer j => exact update_component (fun m : MixerNode => m.base.id) hmixer j
    | _ => rfl
  | delay i =>
    have hdelay : (g.delays i).close.base.id = (g.base (.delay i)).id := rfl
    simp only [close, base_delay]
    exact update_component NodeBase.id hdelay s
  | clients i | fileOptions i => rfl

end Nodes

/-- `SessionStats`. -/
structure SessionStats where
  /-- `session_id`. -/
  sessionId : String
  /-- `current_node_id`. -/
  currentNodeId : String
  /-- `total_bytes_sent`. -/
  totalBytesSent : ℕ
  /-- `packets_sent`. -/
  packetsSent : ℕ
  /-- `underruns`. -/
  underruns : ℕ

/-- `AudioExecutor`. -/
structure AudioExecutor (Shifter : Type) where
  /-- The nodes of `graph_`. -/
  nodes : Nodes Shifter
  /-- `current_node_`. -/
  currentNode : Option NodeRef
  /-- `stats_`. -/
  stats : SessionStats

/-- What `get_next_frame` leaves and returns. -/
structure NextFrame (Shifter : Type) where
  /-- The executor after the call. -/
  executor : AudioExecutor Shifter
  /-- The flag returned: whether to continue. -/
  wantsContinue : Bool
  /-- The status returned. -/
  status : NodeError
  /-- The output buffer after the call. -/
  outputBuffer : List UInt8

/-- The status of a frame that had no error. -/
def successStatus : NodeError := ⟨.success, "", ""⟩

namespace AudioExecutor

/-- `advance_to_next_node` from a node. -/
def advanceToNextNode (fx : FloatOps Shifter) (e : AudioExecutor Shifter) (current : NodeRef)
    (faults : ℕ → Option String) : AudioExecutor Shifter × Except NodeError Unit :=
  let c := e.nodes.close fx current faults
  match c.2 with
  | .error error => ({ e with nodes := c.1 }, .error error)
  | .ok () =>
    match (c.1.base current).target with
    | some next =>
      ({ nodes := c.1
         currentNode := some next
         stats := { e.stats with currentNodeId := (c.1.base next).id } }, .ok ())
    | none => ({ e with nodes := c.1, currentNode := none }, .ok ())

/-- `get_next_frame`; `faults` are the errors of the file system if nodes are closed. -/
def getNextFrame (fx : FloatOps Shifter) (e : AudioExecutor Shifter) (outputBuffer : List UInt8)
    (faults : ℕ → Option String) : NextFrame Shifter :=
  match e.currentNode with
  | none => ⟨e, false, ⟨.formatError, "Invalid state or buffer", ""⟩, outputBuffer⟩
  | some current =>
    if outputBuffer = [] then
      ⟨e, false, ⟨.formatError, "Invalid state or buffer", ""⟩, outputBuffer⟩
    else
      let p := e.nodes.processFrame fx current (List.replicate outputBuffer.length 0)
      let e := { e with nodes := p.node }
      match p.result with
      | .error error =>
        if error.code = .notSupported then ⟨e, false, successStatus, p.frameBuffer⟩
        else if error.code ≠ .endOfStream then
          ⟨e, error.code = .underrun, error, p.frameBuffer⟩
        else finishFrame e current p.frameBuffer true
      | .ok () => finishFrame e current p.frameBuffer false
where
  /-- The rest of the call after a frame or the end of a stream. -/
  finishFrame (e : AudioExecutor Shifter) (current : NodeRef) (outputBuffer : List UInt8)
      (isEos : Bool) : NextFrame Shifter :=
    if isEos = true ∨ (e.nodes.base current).isComplete = true then
      let r := e.advanceToNextNode fx current faults
      match r.2 with
      | .error error => ⟨r.1, false, error, outputBuffer⟩
      | .ok () => countFrame r.1 outputBuffer
    else countFrame e outputBuffer
  /-- The count of the frame, and the values returned. -/
  countFrame (e : AudioExecutor Shifter) (outputBuffer : List UInt8) : NextFrame Shifter :=
    ⟨{ e with stats :=
        { e.stats with totalBytesSent := e.stats.totalBytesSent + FRAME_SIZE_BYTES } },
      e.currentNode.isSome, successStatus, outputBuffer⟩

/-- What a call leaves and returns that reports no error, by what it did. -/
inductive Outcome (fx : FloatOps Shifter) (current : NodeRef) (p : Processed (Nodes Shifter))
    (faults : ℕ → Option String) (r : NextFrame Shifter) : Prop where
  /-- The node has more frames. -/
  | stays (hok : p.result = .ok ()) (hmore : (p.node.base current).isComplete = false)
      (hnodes : r.executor.nodes = p.node) (hcurrent : r.executor.currentNode = some current)
      (hcontinue : r.wantsContinue = true)
  /-- The node is over and the next one is current. -/
  | advances (hclosed : (p.node.close fx current faults).2 = .ok ())
      (hnodes : r.executor.nodes = (p.node.close fx current faults).1)
      (hcurrent : r.executor.currentNode = (r.executor.nodes.base current).target)
      (hcontinue : r.wantsContinue = r.executor.currentNode.isSome)
  /-- The node is no audio processor. -/
  | stops {error : NodeError} (herror : p.result = .error error)
      (hnodes : r.executor.nodes = p.node) (hcurrent : r.executor.currentNode = some current)
      (hcontinue : r.wantsContinue = false)

/-- A transition closes the node and follows its pointer. -/
theorem advanceToNextNode_ok {fx : FloatOps Shifter} {e : AudioExecutor Shifter}
    {current : NodeRef} {faults : ℕ → Option String}
    (hclosed : (e.nodes.close fx current faults).2 = .ok ()) :
    (e.advanceToNextNode fx current faults).2 = .ok () ∧
      (e.advanceToNextNode fx current faults).1.nodes = (e.nodes.close fx current faults).1 ∧
      (e.advanceToNextNode fx current faults).1.currentNode =
        ((e.nodes.close fx current faults).1.base current).target := by
  unfold advanceToNextNode
  simp only [hclosed]
  split
  · rename_i next htarget
    exact ⟨rfl, rfl, htarget.symm⟩
  · rename_i htarget
    exact ⟨rfl, rfl, htarget.symm⟩

/-- A failed close is what advancing returns. -/
theorem advanceToNextNode_error {fx : FloatOps Shifter} {e : AudioExecutor Shifter}
    {current : NodeRef} {faults : ℕ → Option String} {error : NodeError}
    (hfailed : (e.nodes.close fx current faults).2 = .error error) :
    (e.advanceToNextNode fx current faults).2 = .error error := by
  unfold advanceToNextNode
  simp only [hfailed]

/-- How a frame ends: at its node, at the next one or at the end. -/
theorem finishFrame_cases {fx : FloatOps Shifter} {e : AudioExecutor Shifter} {current : NodeRef}
    {faults : ℕ → Option String} {outputBuffer : List UInt8} {isEos : Bool}
    {p : Processed (Nodes Shifter)} (hnode : e.nodes = p.node)
    (hcurrent : e.currentNode = some current)
    (hresult : isEos = false → p.result = .ok ())
    (hsuccess : (getNextFrame.finishFrame fx faults e current outputBuffer isEos).status.code =
      .success) :
    (getNextFrame.finishFrame fx faults e current outputBuffer isEos).outputBuffer = outputBuffer ∧
      Outcome fx current p faults
        (getNextFrame.finishFrame fx faults e current outputBuffer isEos) := by
  unfold getNextFrame.finishFrame at hsuccess ⊢
  by_cases hover : isEos = true ∨ (e.nodes.base current).isComplete = true
  · simp only [if_pos hover] at hsuccess ⊢
    cases hclosed : (e.nodes.close fx current faults).2 with
    | error error =>
      simp only [advanceToNextNode_error hclosed] at hsuccess
      rw [Nodes.close_error hclosed] at hsuccess
      cases hsuccess
    | ok =>
      obtain ⟨hok, hnodes, htarget⟩ := advanceToNextNode_ok hclosed
      rw [hnode] at hclosed hnodes htarget
      simp only [hok]
      refine ⟨rfl, .advances hclosed hnodes ?_ rfl⟩
      rw [← hnodes] at htarget
      exact htarget
  · rw [if_neg hover] at hsuccess ⊢
    obtain ⟨hmore, hincomplete⟩ := not_or.mp hover
    rw [hnode] at hincomplete
    refine ⟨rfl, .stays (hresult (Bool.not_eq_true _ ▸ hmore)) (by simpa using hincomplete) hnode
      hcurrent ?_⟩
    simp only [getNextFrame.countFrame, hcurrent, Option.isSome_some]

/-- A call that reports no error. -/
theorem getNextFrame_cases {fx : FloatOps Shifter} {e : AudioExecutor Shifter} {current : NodeRef}
    {outputBuffer : List UInt8} {faults : ℕ → Option String}
    (hcurrent : e.currentNode = some current)
    (hsuccess : (e.getNextFrame fx outputBuffer faults).status.code = .success) :
    (e.getNextFrame fx outputBuffer faults).outputBuffer =
        (e.nodes.processFrame fx current (List.replicate outputBuffer.length 0)).frameBuffer ∧
      Outcome fx current (e.nodes.processFrame fx current (List.replicate outputBuffer.length 0))
        faults (e.getNextFrame fx outputBuffer faults) := by
  unfold getNextFrame at hsuccess ⊢
  simp only [hcurrent] at hsuccess ⊢
  by_cases hempty : outputBuffer = []
  · rw [if_pos hempty] at hsuccess
    cases hsuccess
  · rw [if_neg hempty] at hsuccess ⊢
    generalize e.nodes.processFrame fx current (List.replicate outputBuffer.length 0) = p
      at hsuccess ⊢
    cases hresult : p.result with
    | ok =>
      simp only [hresult] at hsuccess ⊢
      exact finishFrame_cases rfl rfl (fun _ => hresult) hsuccess
    | error error =>
      simp only [hresult] at hsuccess ⊢
      split at hsuccess
      · rename_i hcode
        rw [if_pos hcode]
        exact ⟨rfl, .stops hresult rfl rfl rfl⟩
      · rename_i hcode
        rw [if_neg hcode]
        split at hsuccess
        · rename_i hother
          rw [if_pos hother]
          refine ⟨rfl, .stops hresult rfl rfl ?_⟩
          simp only at hsuccess
          simp only [hsuccess]
          rfl
        · rename_i heos
          rw [if_neg heos]
          exact finishFrame_cases rfl rfl nofun hsuccess

end AudioExecutor

end HermesFlow.Audio
