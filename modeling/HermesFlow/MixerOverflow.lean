import HermesFlow.AudioChain
import HermesFlow.GraphFaithful
import HermesFlow.HttpSession
import HermesFlow.MixerSum

/-!
# The range of the accumulator

Every edge from a file input to a mixer adds an entry to the mixer's inputs, and
every entry can add a sample of -32768 to a sum. So the accumulator is safe with
65536 entries, and a flow can have more: an edge may be repeated, and a file that
has been loaded gives a frame for each of its entries.
-/

namespace HermesFlow.Audio

open ByteOrder EventRun

variable {Shifter : Type}

/-- So many samples of -32768. -/
def floorBytes : ℕ → List UInt8
  | 0 => []
  | samples + 1 => 0 :: 0x80 :: floorBytes samples

/-- Two bytes are written for each sample. -/
theorem length_floorBytes (samples : ℕ) : (floorBytes samples).length = 2 * samples := by
  induction samples with
  | zero => rfl
  | succ samples ih =>
    rw [floorBytes, List.length_cons, List.length_cons, ih]
    omega

/-- Dropping samples leaves that many fewer. -/
theorem drop_floorBytes (k samples : ℕ) :
    (floorBytes samples).drop (2 * k) = floorBytes (samples - k) := by
  induction k generalizing samples with
  | zero => rfl
  | succ k ih =>
    cases samples with
    | zero => simp [floorBytes]
    | succ samples =>
      rw [floorBytes, Nat.mul_succ, Nat.add_sub_add_right, ← ih]
      rfl

/-- Taking samples gives as many. -/
theorem take_floorBytes {k samples : ℕ} (h : k ≤ samples) :
    (floorBytes samples).take (2 * k) = floorBytes k := by
  induction k generalizing samples with
  | zero => rfl
  | succ k ih =>
    obtain ⟨samples, rfl⟩ := Nat.exists_eq_add_of_lt h
    have hrest := @ih (k + samples) (Nat.le_add_right _ _)
    rw [floorBytes, floorBytes, Nat.mul_succ, ← hrest]
    rfl

/-- The first sample is the lowest one. -/
theorem asSamples_floorBytes (samples : ℕ) (rest : List UInt8) :
    (asSamples (floorBytes (samples + 1) ++ rest)).getD 0 0 = -2 ^ 15 := by
  have hsample : Int.bmod (loadLE [0, 0x80]) (2 ^ 16) = -2 ^ 15 := by decide
  rw [floorBytes, List.cons_append, List.cons_append, asSamples, hsample]
  rfl

/-- A node that gives so many frames, all of such samples, whatever is refilled. -/
structure Floored (n : FileInputNode Shifter) (frames : ℕ) : Prop where
  /-- The node has no options. -/
  options : n.options = none
  /-- Its back buffer is ready. -/
  ready : n.buffer.controller.bf.backBufferReady = true
  /-- Both blocks hold the lowest samples. -/
  blocks : ∀ i, n.buffer.controller.bf.blocks i = floorBytes (BUFFER_SIZE / 2)
  /-- It has so many frames left. -/
  more : n.base.totalFrames ≤ 0 ∨ n.base.processedFrames + frames ≤ n.base.totalFrames

/-- A frame of such a block. -/
theorem copyFrame_floorBytes {position : ℕ}
    (hfits : position * FRAME_SIZE_BYTES + FRAME_SIZE_BYTES ≤ BUFFER_SIZE)
    (frameBuffer : List UInt8) :
    copyFrame (floorBytes (BUFFER_SIZE / 2)) (position * FRAME_SIZE_BYTES) frameBuffer =
      floorBytes SAMPLES_PER_FRAME ++ frameBuffer.drop FRAME_SIZE_BYTES := by
  have hframe : FRAME_SIZE_BYTES = 2 * SAMPLES_PER_FRAME := rfl
  have hposition : position * FRAME_SIZE_BYTES = 2 * (position * SAMPLES_PER_FRAME) := by
    rw [hframe]
    ring
  have hroom : SAMPLES_PER_FRAME ≤ BUFFER_SIZE / 2 - position * SAMPLES_PER_FRAME := by omega
  rw [copyFrame, hposition, drop_floorBytes]
  nth_rewrite 1 [hframe]
  rw [take_floorBytes hroom]

/-- It gives one of them, from the block that it reads or from the other one. -/
theorem Floored.processFrame (fx : Effects Shifter) {n : FileInputNode Shifter} {frames : ℕ}
    (h : Floored n (frames + 1)) (frameBuffer : List UInt8) :
    (n.processFrame fx frameBuffer).result = .ok () ∧
      (asSamples (n.processFrame fx frameBuffer).frameBuffer).getD 0 0 = -2 ^ 15 ∧
      Floored (n.processFrame fx frameBuffer).node frames := by
  have hmore : ¬(n.base.processedFrames ≥ n.base.totalFrames ∧ n.base.totalFrames > 0) := by
    rcases h.more with hzero | hleft
    · exact fun hdone => hdone.2.not_ge hzero
    · push_cast at hleft
      omega
  have hmore' : n.base.totalFrames ≤ 0 ∨
      n.base.processedFrames + 1 + frames ≤ n.base.totalFrames := by
    refine h.more.imp_right fun hleft => ?_
    push_cast at hleft
    omega
  have hsample := asSamples_floorBytes (SAMPLES_PER_FRAME - 1) (frameBuffer.drop FRAME_SIZE_BYTES)
  unfold FileInputNode.processFrame Buffering.getFrame
  rw [if_neg hmore, h.options]
  by_cases hswap : n.buffer.controller.needsSwap 0
  · have hcopy := @copyFrame_floorBytes 0 (by decide) frameBuffer
    rw [AsyncBufferController.getFrame_of_swap hswap h.ready]
    refine ⟨rfl, ?_, rfl, h.ready, h.blocks, hmore'⟩
    change (asSamples (copyFrame (n.buffer.controller.bf.blocks (1 - _)) 0 frameBuffer)).getD 0 0 = _
    rw [h.blocks, ← Nat.zero_mul FRAME_SIZE_BYTES, hcopy]
    exact hsample
  · have hfits : n.buffer.controller.inBufferProcessedFrames * FRAME_SIZE_BYTES + FRAME_SIZE_BYTES ≤
        BUFFER_SIZE := by
      rw [AsyncBufferController.needsSwap_iff] at hswap
      omega
    rw [AsyncBufferController.getFrame_of_fits hswap]
    refine ⟨rfl, ?_, rfl, h.ready, h.blocks, hmore'⟩
    change (asSamples (copyFrame (n.buffer.controller.bf.blocks _)
      (n.buffer.controller.bufferOffset 0) frameBuffer)).getD 0 0 = _
    rw [h.blocks, AsyncBufferController.bufferOffset, Nat.add_zero, copyFrame_floorBytes hfits]
    exact hsample

/-- Every entry of such nodes takes as much from the first sum. -/
theorem loop_floored (fx : FloatOps Shifter) (inputs : List ℕ) {m : Mixing Shifter}
    (hfiles : ∀ j ∈ inputs, Floored (m.files j) (inputs.count j)) {sum : ℤ}
    (hsum : m.accumulator[0]? = some sum) :
    (inputs.foldl (Mixing.add fx) m).accumulator[0]? = some (sum - 2 ^ 15 * inputs.length) := by
  induction inputs generalizing m sum with
  | nil => simpa using hsum
  | cons source inputs ih =>
    have hsource := hfiles source List.mem_cons_self
    rw [List.count_cons_self] at hsource
    obtain ⟨hok, hsample, hnode⟩ := hsource.processFrame fx.toEffects m.tempInputBuffer
    have hadd : m.add fx source = { m with
        files := Function.update m.files source
          ((m.files source).processFrame fx.toEffects m.tempInputBuffer).node
        tempInputBuffer :=
          ((m.files source).processFrame fx.toEffects m.tempInputBuffer).frameBuffer
        hasActiveInputs := true
        accumulator := AudioMath.sumBuffers m.accumulator (asSamples
          ((m.files source).processFrame fx.toEffects m.tempInputBuffer).frameBuffer) } := by
      unfold Mixing.add
      dsimp only
      rw [hok]
    have hsum' : (m.add fx source).accumulator[0]? = some (sum - 2 ^ 15) := by
      rw [hadd, getElem?_sumBuffers, hsum, hsample]
      rfl
    have hfiles' : ∀ j ∈ inputs, Floored ((m.add fx source).files j) (inputs.count j) := by
      intro j hj
      rw [hadd]
      dsimp only
      rcases eq_or_ne j source with rfl | hne
      · rw [Function.update_self]
        exact hnode
      · rw [Function.update_of_ne hne, ← List.count_cons_of_ne hne.symm]
        exact hfiles j (List.mem_cons_of_mem _ hj)
    rw [List.foldl_cons, ih hfiles' hsum', List.length_cons]
    push_cast
    ring_nf

/-- So the accumulator of a mixer of such nodes has room for 65536 entries. -/
theorem length_le_of_sumsFit {fx : FloatOps Shifter} {m : MixerNode} {files : FileNodes Shifter}
    (hfiles : ∀ j ∈ m.inputs, Floored (files j) (m.inputs.count j)) (hfit : m.SumsFit fx files) :
    m.inputs.length ≤ 2 ^ 16 := by
  have hloop := loop_floored fx m.inputs (m := m.startMix files) hfiles rfl
  have hmix := mixInputs_eq fx m.inputs (m.startMix files)
  have hmem : 0 - 2 ^ 15 * (m.inputs.length : ℤ) ∈ m.accumulated fx files m.inputs.length := by
    rw [MixerNode.accumulated, List.take_length, hmix]
    exact List.mem_of_getElem? hloop
  have hlow := (hfit m.inputs.length _ hmem).1
  omega

/-- No mixer has more than 65536 edges from file inputs. -/
def FewEntries (o : Infra.JsonObject) (graph : Infra.Graph) : Prop :=
  ∀ p, (Infra.inputSources (Infra.kindAt graph.nodes) (Infra.flowEdges graph o) p).length ≤ 2 ^ 16

/-- No sum of a mixer of the graph overflows, whatever its file inputs hold. -/
def AccumulatorFits (fx : FloatOps Shifter) (graph : Infra.Graph) : Prop :=
  ∀ g : Nodes Shifter, (∀ p, (g.mixers p).inputs = (nodeAt graph p).inputs) →
    ∀ p, (g.mixers p).SumsFit fx g.files

/-- In no run from a start does the sum of a mixer overflow that the next tick calls. -/
def AccumulatorFitsFrom (fx : FloatOps Shifter) (start : Dispatch.State Shifter) : Prop :=
  ∀ (es : List Dispatch.Event) (t : Dispatch.State Shifter) (p : ℕ),
    runEvents (Dispatch.step fx) start es = some t → t.executor.currentNode = some (.mixer p) →
      (t.executor.nodes.mixers p).SumsFit fx t.executor.nodes.files

/-- The inputs of a mixer are the sources of its edges. -/
theorem nodeAt_inputs {o : Infra.JsonObject} {graph : Infra.Graph} (h : Infra.Parsed o graph)
    (p : ℕ) : (nodeAt graph p).inputs =
      Infra.inputSources (Infra.kindAt graph.nodes) (Infra.flowEdges graph o) p := by
  unfold nodeAt
  cases hnode : graph.nodes[p]? with
  | some node => exact h.inputs p node hnode
  | none =>
    -- no edge leads to a position without a node
    have hkind : Infra.kindAt graph.nodes p = none := by rw [Infra.kindAt, hnode, Option.map_none]
    have hnone : ∀ edge ∈ Infra.flowEdges graph o,
        ¬decide (Infra.IsInput (Infra.kindAt graph.nodes) edge ∧ p = edge.2) = true := by
      intro edge _ hedge
      obtain ⟨hinput, rfl⟩ := of_decide_eq_true hedge
      cases hkind.symm.trans hinput.2
    rw [Infra.inputSources, List.filter_eq_nil_iff.mpr hnone]
    rfl

/-- The mixers of a run have the inputs of the graph. -/
theorem inputs_of_run {fx : FloatOps Shifter} {graph : Infra.Graph}
    {disk : String → Option (List UInt8)} {shifter : Shifter} {stats : SessionStats}
    {reads : ℕ → Bool × Bool} {pcmBuffer : List UInt8} {es : List Dispatch.Event}
    {t : Dispatch.State Shifter}
    (hrun : runEvents (Dispatch.step fx)
      (startSession graph disk shifter stats reads pcmBuffer) es = some t) (p : ℕ) :
    (t.executor.nodes.mixers p).inputs = (nodeAt graph p).inputs := by
  have hstart : ∀ p, ((startSession graph disk shifter stats reads
      pcmBuffer).executor.nodes.mixers p).inputs = (nodeAt graph p).inputs := by
    intro p
    rw [(flagged_startSession graph disk shifter stats reads pcmBuffer).inputs p, preparedNodes,
      Nodes.updateMixers_mixers]
    split <;> rfl
  refine run_invariant_of_step (I := fun s : Dispatch.State Shifter =>
    ∀ p, (s.executor.nodes.mixers p).inputs = (nodeAt graph p).inputs) ?_ hstart hrun p
  exact fun s e s' hs he p => ((Dispatch.moves_step he).inputs p).trans (hs p)

/-- Two blocks full of samples of -32768. -/
def floorBuffer : DoubleBuffer :=
  { DoubleBuffer.create with
    blocks := fun _ => floorBytes (BUFFER_SIZE / 2)
    backBufferReady := true
    blocks_size := fun _ => length_floorBytes _ }

/-- A file input with these blocks. -/
def floorNode (shifter : Shifter) : FileInputNode Shifter :=
  ⟨⟨"", none, 0, 0, 0, false⟩, "", "", none, none, none, shifter,
    ⟨⟨floorBuffer, 0, .ready⟩, [], []⟩⟩

/-- The example's node gives so many such frames. -/
theorem floored_floorNode (shifter : Shifter) (frames : ℕ) : Floored (floorNode shifter) frames where
  options := rfl
  ready := rfl
  blocks := fun _ => rfl
  more := .inl le_rfl

/-- The accumulator of a flow is safe exactly if its mixers have few entries, and
then no run overflows it. -/
theorem accumulatorFits_iff {lib : Infra.Library} {o : Infra.JsonObject} {graph : Infra.Graph}
    (h : Infra.parseGraph lib o = .ok graph) (fx : FloatOps Shifter) (shifter : Shifter) :
    (AccumulatorFits fx graph ↔ FewEntries o graph) ∧
      (FewEntries o graph → ∀ disk stats reads pcmBuffer,
        AccumulatorFitsFrom fx (startSession graph disk shifter stats reads pcmBuffer)) := by
  have hparsed := Infra.parseGraph_ok h
  have hfits : FewEntries o graph → AccumulatorFits fx graph := by
    intro hfew g hinputs p
    refine MixerNode.sumsFit_of_length fx g.files ?_
    rw [hinputs, nodeAt_inputs hparsed]
    exact hfew p
  refine ⟨⟨fun hsafe p => ?_, hfits⟩, fun hfew disk stats reads pcmBuffer es t p hrun _ => ?_⟩
  · have hsums := hsafe { createNodes graph (fun _ => none) shifter with
      files := fun _ => floorNode shifter } (fun _ => rfl) p
    have hlength := length_le_of_sumsFit (fun j _ => floored_floorNode shifter _) hsums
    rw [← nodeAt_inputs hparsed]
    exact hlength
  · exact hfits hfew t.executor.nodes (fun q => inputs_of_run hrun q) p

/-- One edge is few. -/
theorem accumulatorFits_iff_filePlays :
    ∃ graph, Infra.parseGraph Infra.plainLibrary Infra.filePlays = .ok graph ∧
      AccumulatorFits MixerNode.plainOps graph := by
  have hfew : ∀ graph, FewEntries Infra.filePlays graph := by
    intro graph p
    have hedges : (Infra.flowEdges graph Infra.filePlays).length ≤ 1 := List.length_filterMap_le _ _
    have hinputs := List.length_filter_le (fun edge : ℕ × ℕ =>
      decide (Infra.IsInput (Infra.kindAt graph.nodes) edge ∧ p = edge.2))
      (Infra.flowEdges graph Infra.filePlays)
    rw [Infra.inputSources, List.length_map]
    omega
  refine ⟨_, rfl, ?_⟩
  exact (@accumulatorFits_iff _ Infra.plainLibrary Infra.filePlays _ rfl MixerNode.plainOps
    ()).1.mpr (hfew _)

end HermesFlow.Audio

namespace HermesFlow.Infra

/-- A text that JSON does not escape: no control characters, quotes and backslashes. -/
def Unescaped (s : String) : Prop :=
  s.toList.all (fun c => 32 ≤ c.toNat && c.toNat != 34 && c.toNat != 92) = true

mutual

/-- A text of a value, by the grammar of JSON without white space. -/
inductive Written : Json → String → Prop
  | string {s : String} (hs : Unescaped s) : Written (.string s) (quoted s)
  | array {elements : List Json} {text : String} (h : WrittenElements elements text) :
      Written (.array elements) ("[" ++ text ++ "]")
  | object {fields : List (String × Json)} {text : String} (h : WrittenFields fields text) :
      Written (.object fields) ("\x7b" ++ text ++ "\x7d")

/-- The elements of an array. -/
inductive WrittenElements : List Json → String → Prop
  | nil : WrittenElements [] ""
  | single {v : Json} {text : String} (hv : Written v text) : WrittenElements [v] text
  | cons {v w : Json} {elements : List Json} {text rest : String} (hv : Written v text)
      (hrest : WrittenElements (w :: elements) rest) :
      WrittenElements (v :: w :: elements) (text ++ "," ++ rest)

/-- The fields of an object. -/
inductive WrittenFields : List (String × Json) → String → Prop
  | nil : WrittenFields [] ""
  | single {key : String} {v : Json} {text : String} (hkey : Unescaped key) (hv : Written v text) :
      WrittenFields [(key, v)] (quoted key ++ ":" ++ text)
  | cons {key : String} {v : Json} {field : String × Json} {fields : List (String × Json)}
      {text rest : String} (hkey : Unescaped key) (hv : Written v text)
      (hrest : WrittenFields (field :: fields) rest) :
      WrittenFields ((key, v) :: field :: fields) (quoted key ++ ":" ++ text ++ "," ++ rest)

end

/-- A flow that plays a mixer with the same edge so many times. -/
def repeatedEdges (edges : ℕ) : JsonObject :=
  flowOf [nodeJson "a" "fileInput" [("fileName", .string "a.wav")], nodeJson "m" "mixer" []]
    (List.replicate edges (edgeJson "a" "m")) "m"

/-- Its graph. -/
def repeatedGraph (edges : ℕ) : Graph where
  nodes :=
    [⟨"a", if edges = 0 then none else some 1, .fileInput "a.wav" "downloads/a.wav" none⟩,
      ⟨"m", none, .mixer (List.replicate edges 0)⟩]
  nodeMap := Function.update (Function.update (fun _ => none) "a" (some 0)) "m" (some 1)
  startNode := some 1
  fileNodes := [0]
  mixerNodes := [1]
  clientsNode := none

/-- The edge once more. -/
theorem parseEdge_repeated (edges : ℕ) :
    parseEdge plainLibrary (repeatedGraph edges) (edgeJson "a" "m") =
      .ok (repeatedGraph (edges + 1)) := by
  have hids : edgeIds plainLibrary (edgeJson "a" "m") = .ok ("a", "m") := rfl
  have hends : edgeNodes (repeatedGraph edges) ("a", "m") = .ok (0, 1) := rfl
  have hinputs : List.replicate (edges + 1) 0 = List.replicate edges 0 ++ [0] :=
    List.replicate_succ'
  have happly : applyEdge (repeatedGraph edges).nodes (0, 1) =
      .ok (repeatedGraph (edges + 1)).nodes := by
    simp only [repeatedGraph, hinputs, Nat.add_one_ne_zero, if_false]
    rfl
  have hturn : parseEdge plainLibrary (repeatedGraph edges) (edgeJson "a" "m") =
      (applyEdge (repeatedGraph edges).nodes (0, 1)).bind fun nodes =>
        .ok { repeatedGraph edges with nodes := nodes } := rfl
  rw [hturn, happly]
  rfl

/-- A repeated edge is accepted as often as it stands there. -/
theorem parseGraph_repeated (edges : ℕ) :
    parseGraph plainLibrary (repeatedEdges edges) = .ok (repeatedGraph edges) := by
  have hedges : ∀ (more done : ℕ), parseEdges plainLibrary (repeatedGraph done)
      (List.replicate more (edgeJson "a" "m")) = .ok (repeatedGraph (done + more)) := by
    intro more
    induction more with
    | zero => exact fun _ => rfl
    | succ more ih =>
      intro done
      have hrest := ih (done + 1)
      rw [Nat.add_right_comm, Nat.add_assoc] at hrest
      rw [← hrest, parseEdges, List.replicate_succ, List.foldlM_cons, parseEdge_repeated]
      rfl
  have hnodes : parseGraph plainLibrary (repeatedEdges edges) =
      parseEdges plainLibrary (repeatedGraph 0) (List.replicate edges (edgeJson "a" "m")) := rfl
  rw [hnodes, hedges, Nat.zero_add]

/-- Its text is short. -/
theorem written_repeatedEdges (edges : ℕ) :
    ∃ text, Written (.object (repeatedEdges edges)) text ∧
      text.utf8ByteSize ≤ 28 * edges + 200 := by
  have hplain : Unescaped "a" ∧ Unescaped "m" ∧ Unescaped "source" ∧ Unescaped "target" :=
    ⟨rfl, rfl, rfl, rfl⟩
  obtain ⟨ha, hm, hsource, htarget⟩ := hplain
  have hedge : ∃ text, Written (edgeJson "a" "m") text ∧ text.utf8ByteSize = 27 :=
    ⟨_, .object (.cons hsource (.string ha) (.single htarget (.string hm))), by decide⟩
  obtain ⟨edgeText, hedge, hsize⟩ := hedge
  have hedges : ∀ n, ∃ text, WrittenElements (List.replicate n (edgeJson "a" "m")) text ∧
      text.utf8ByteSize ≤ 28 * n := by
    intro n
    induction n with
    | zero => exact ⟨_, .nil, by decide⟩
    | succ n ih =>
      obtain ⟨rest, hrest, hlength⟩ := ih
      cases n with
      | zero => exact ⟨_, .single hedge, by omega⟩
      | succ n =>
        refine ⟨_, .cons hedge hrest, ?_⟩
        have hcomma : ",".utf8ByteSize = 1 := by decide
        rw [String.utf8ByteSize_append, String.utf8ByteSize_append, hsize, hcomma]
        omega
  have hkeys : Unescaped "flow" ∧ Unescaped "nodes" ∧ Unescaped "start_node" ∧ Unescaped "edges" ∧
      Unescaped "id" ∧ Unescaped "type" ∧ Unescaped "data" ∧ Unescaped "fileName" ∧
      Unescaped "a.wav" ∧ Unescaped "fileInput" ∧ Unescaped "mixer" :=
    ⟨rfl, rfl, rfl, rfl, rfl, rfl, rfl, rfl, rfl, rfl, rfl⟩
  obtain ⟨hflow, hnodes, hstart, hkey, hid, htype, hdata, hfile, hname, hinput, hmixer⟩ := hkeys
  have hnode : ∃ text, WrittenElements [nodeJson "a" "fileInput" [("fileName", .string "a.wav")],
      nodeJson "m" "mixer" []] text ∧ text.utf8ByteSize ≤ 100 :=
    ⟨_, .cons (.object (.cons hid (.string ha) (.cons htype (.string hinput)
        (.single hdata (.object (.single hfile (.string hname)))))))
      (.single (.object (.cons hid (.string hm) (.cons htype (.string hmixer)
        (.single hdata (.object .nil)))))), by decide⟩
  obtain ⟨nodesText, hnode, hnodesSize⟩ := hnode
  obtain ⟨edgesText, hedges, hedgesSize⟩ := hedges edges
  refine ⟨_, .object (.single hflow (.object (.cons hnodes (.array hnode)
    (.cons hstart (.object (.single hid (.string hm))) (.single hkey (.array hedges)))))), ?_⟩
  have hsizes : "\x7b".utf8ByteSize = 1 ∧ "\x7d".utf8ByteSize = 1 ∧ "[".utf8ByteSize = 1 ∧
      "]".utf8ByteSize = 1 ∧ ",".utf8ByteSize = 1 ∧ ":".utf8ByteSize = 1 ∧
      (quoted "flow").utf8ByteSize = 6 ∧ (quoted "nodes").utf8ByteSize = 7 ∧
      (quoted "start_node").utf8ByteSize = 12 ∧ (quoted "edges").utf8ByteSize = 7 ∧
      (quoted "id").utf8ByteSize = 4 ∧ (quoted "m").utf8ByteSize = 3 := by decide
  simp only [String.utf8ByteSize_append, hsizes]
  omega

end HermesFlow.Infra

namespace HermesFlow.Audio

variable {Shifter : Type}

/-- The first `initialize_buffers` of a node whose reads succeed, with the bytes
that they give. -/
theorem FileInputNode.Unopened.initializeBuffers_reads {n : FileInputNode Shifter}
    (h : n.Unopened) {file : List UInt8} (hfile : n.file = some file) :
    let first := (file.drop (audioOffset file)).take BUFFER_SIZE
    (n.initializeBuffers (true, true)).options = n.options ∧
      (n.initializeBuffers (true, true)).buffer = Buffering.initialized first
        ((file.drop (audioOffset file + first.length)).take BUFFER_SIZE) := by
  obtain ⟨base, fileName, filePath, file', _, options, shifter, _⟩ := n
  obtain ⟨rfl, rfl⟩ := h
  obtain rfl : file' = some file := hfile
  exact ⟨rfl, rfl⟩

/-- The samples have no header. -/
theorem audioOffset_floorBytes {samples : ℕ} (h : 128 ≤ samples) :
    audioOffset (floorBytes samples) = 0 := by
  have htake : (floorBytes samples).take 256 = floorBytes 128 := @take_floorBytes 128 samples h
  have hlength := length_floorBytes samples
  have hwav : getAudioDataOffset (floorBytes 128) = 0 := by
    unfold getAudioDataOffset
    rw [length_floorBytes]
    decide
  rw [audioOffset, if_neg (by omega), htake, hwav]

/-- A block of samples needs no padding. -/
theorem padded_floorBytes : padded (floorBytes (BUFFER_SIZE / 2)) = floorBytes (BUFFER_SIZE / 2) := by
  have hlength : (floorBytes (BUFFER_SIZE / 2)).length = BUFFER_SIZE := length_floorBytes _
  rw [padded, List.take_of_length_le hlength.le, hlength, Nat.sub_self, List.replicate_zero,
    List.append_nil]

/-- Both blocks are filled. -/
theorem blocks_initialized (first second : List UInt8) (i : Fin 2) :
    (Buffering.initialized first second).controller.bf.blocks i =
      if i = 0 then padded second else padded first := by
  have hindex : i = 0 ∨ i = 1 := by omega
  rcases hindex with rfl | rfl <;>
    simp [Buffering.initialized, AsyncBufferController.initializeBuffers,
      AsyncBufferController.finishFirst, AsyncBufferController.finishSecond, DoubleBuffer.fill,
      DoubleBuffer.swap, DoubleBuffer.setReady, DoubleBuffer.writeIndex,
      AsyncBufferController.create, DoubleBuffer.create]

/-- A file of such samples that has been loaded. -/
theorem floored_loaded {n : FileInputNode Shifter} (h : n.Unopened) {samples frames : ℕ}
    (hfile : n.file = some (floorBytes samples)) (hoptions : n.options = none)
    (hprocessed : n.base.processedFrames = 0) (hsamples : BUFFER_SIZE ≤ samples)
    (hframes : frames ≤ totalFramesOf (floorBytes samples)) :
    Floored (n.initializeBuffers (true, true)) frames := by
  obtain ⟨hkept, hbuffer⟩ := h.initializeBuffers_reads hfile
  obtain ⟨-, hbase, -⟩ := h.initializeBuffers (true, true)
  have hoffset : audioOffset (floorBytes samples) = 0 :=
    audioOffset_floorBytes (le_trans (by decide) hsamples)
  have hblock : ∀ k, k + BUFFER_SIZE / 2 ≤ samples →
      ((floorBytes samples).drop (2 * k)).take BUFFER_SIZE = floorBytes (BUFFER_SIZE / 2) := by
    intro k hk
    rw [drop_floorBytes]
    exact take_floorBytes (Nat.le_sub_of_add_le' hk)
  have hfirst := hblock 0 (le_trans (by decide) hsamples)
  have hsecond := hblock (BUFFER_SIZE / 2) (le_trans (by decide) hsamples)
  rw [hoffset, Nat.zero_add, ← Nat.mul_zero 2, hfirst, length_floorBytes, hsecond] at hbuffer
  refine ⟨hkept.trans hoptions, by rw [hbuffer]; rfl, fun i => ?_, .inr ?_⟩
  · rw [hbuffer, blocks_initialized, padded_floorBytes, ite_self]
  · have hopened : n.openedFrames = totalFramesOf (floorBytes samples) := by
      rw [FileInputNode.openedFrames, hfile]
    rw [hbase]
    dsimp only
    rw [hopened, hprocessed, zero_add]
    exact hframes

/-- A flag is nothing to the frames. -/
theorem Floored.setInLoop {n : FileInputNode Shifter} {frames : ℕ} (h : Floored n frames)
    (value : Bool) : Floored (n.setInLoop value) frames :=
  ⟨h.options, h.ready, h.blocks, h.more⟩

/-- The file has so many frames. -/
theorem totalFramesOf_floorBytes {frames : ℕ} (h : 1 ≤ frames) (hint : frames < 2 ^ 31) :
    totalFramesOf (floorBytes (frames * SAMPLES_PER_FRAME)) = frames := by
  have hsamples : 128 ≤ frames * SAMPLES_PER_FRAME := by
    unfold SAMPLES_PER_FRAME
    omega
  have hframe : FRAME_SIZE_BYTES = 2 * SAMPLES_PER_FRAME := rfl
  have hlength : 2 * (frames * SAMPLES_PER_FRAME) / FRAME_SIZE_BYTES = frames := by
    rw [hframe, Nat.mul_div_mul_left _ _ (by decide), Nat.mul_div_cancel _ (by decide)]
  have haudio : (audioOf (floorBytes (frames * SAMPLES_PER_FRAME))).length =
      2 * (frames * SAMPLES_PER_FRAME) := by
    rw [audioOf, audioOffset_floorBytes hsamples, List.drop_zero, length_floorBytes]
  unfold totalFramesOf
  rw [haudio, hlength]
  apply Int.bmod_eq_of_le <;> omega

/-- So many edges overflow the sum of the mixer in its first call. -/
theorem repeatedEdges_overflow {edges : ℕ} (hmany : 2 ^ 16 < edges) (hint : edges < 2 ^ 31)
    (stats : SessionStats) (pcmBuffer : List UInt8) :
    ¬AccumulatorFitsFrom MixerNode.plainOps (startSession (Infra.repeatedGraph edges)
      (fun _ => some (floorBytes (edges * SAMPLES_PER_FRAME))) () stats (fun _ => (true, true))
      pcmBuffer) := by
  intro hfits
  have hfit := hfits [] _ 1 rfl rfl
  have hinputs : ((startSession (Infra.repeatedGraph edges)
      (fun _ => some (floorBytes (edges * SAMPLES_PER_FRAME))) () stats (fun _ => (true, true))
      pcmBuffer).executor.nodes.mixers 1).inputs = List.replicate edges 0 :=
    @inputs_of_run _ MixerNode.plainOps _ _ _ _ _ _ [] _ rfl 1
  have hloaded : Floored ((createFileInput (Infra.repeatedGraph edges)
      (fun _ => some (floorBytes (edges * SAMPLES_PER_FRAME))) () 0).initializeBuffers
        (true, true)) edges := by
    refine floored_loaded (unopened_createFileInput _ _ _ _) rfl rfl rfl ?_ ?_
    · unfold BUFFER_SIZE SAMPLES_PER_FRAME
      omega
    · exact (totalFramesOf_floorBytes (by omega) hint).ge
  have hprepared : (preparedNodes (Infra.repeatedGraph edges)
      (fun _ => some (floorBytes (edges * SAMPLES_PER_FRAME))) () fun _ => (true, true)).files 0 =
        (createFileInput (Infra.repeatedGraph edges)
          (fun _ => some (floorBytes (edges * SAMPLES_PER_FRAME))) () 0).initializeBuffers
            (true, true) := rfl
  obtain ⟨flag, hflag⟩ := (flagged_startSession (Infra.repeatedGraph edges)
    (fun _ => some (floorBytes (edges * SAMPLES_PER_FRAME))) () stats (fun _ => (true, true))
    pcmBuffer).files 0
  rw [hprepared] at hflag
  have hlength := length_le_of_sumsFit ?_ hfit
  · rw [hinputs, List.length_replicate] at hlength
    omega
  · intro j hj
    rw [hinputs] at hj ⊢
    obtain rfl := List.eq_of_mem_replicate hj
    rw [List.count_replicate_self, hflag]
    exact hloaded.setInLoop flag

/-- A request of 65537 edges is not too long. -/
theorem accumulator_overflows : ¬∀ (lib : Infra.Library) (o : Infra.JsonObject)
    (graph : Infra.Graph) (text : String), Infra.Written (.object o) text →
      text.utf8ByteSize ≤ Http.MAX_BODY_LIMIT → Infra.parseGraph lib o = .ok graph →
        ∀ disk stats reads pcmBuffer, AccumulatorFitsFrom MixerNode.plainOps
          (startSession graph disk () stats reads pcmBuffer) := by
  intro h
  obtain ⟨text, hwritten, hsize⟩ := Infra.written_repeatedEdges 65537
  have hlimit : text.utf8ByteSize ≤ Http.MAX_BODY_LIMIT := hsize.trans (by decide)
  have hfits := h _ _ _ text hwritten hlimit (Infra.parseGraph_repeated 65537)
    (fun _ => some (floorBytes (65537 * SAMPLES_PER_FRAME))) ⟨"", "", 0, 0, 0⟩
    (fun _ => (true, true)) []
  exact repeatedEdges_overflow (by norm_num) (by norm_num) _ _ hfits

end HermesFlow.Audio
