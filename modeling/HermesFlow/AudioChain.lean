import HermesFlow.Prepare

/-!
# What the pointers of a parsed graph lead to

`connect_input` of each kind decides which edges are accepted and which wire a
node. Over all of them a `next` pointer leads to a node that plays audio, that
of a mixer to a delay, and the inputs of a mixer are file inputs. So once the
executor has moved on, its node plays audio, in every run.
-/

namespace HermesFlow.Infra

/-- The kinds that override `process_frame`. -/
def NodeKind.IsAudio : NodeKind → Prop
  | .fileInput | .mixer | .delay => True
  | .clients | .fileOptions => False

/-- What the pointers of nodes lead to. -/
structure AudioChain (nodes : List Node) : Prop where
  /-- Every `next` pointer leads to a node that plays audio. -/
  target : ∀ (p : ℕ) (node : Node) (q : ℕ), nodes[p]? = some node → node.target = some q →
    ∃ kind, kindAt nodes q = some kind ∧ kind.IsAudio
  /-- That of a mixer leads to a delay. -/
  mixer : ∀ (p : ℕ) (node : Node) (q : ℕ), nodes[p]? = some node → node.kind = .mixer →
    node.target = some q → kindAt nodes q = some .delay
  /-- The inputs of a mixer are file inputs. -/
  inputs : ∀ (p : ℕ) (node : Node) (q : ℕ), nodes[p]? = some node → q ∈ node.inputs →
    kindAt nodes q = some .fileInput

/-- A mixer that an accepted edge wires is wired to a delay. -/
theorem applyEdge_mixer {nodes nodes' : List Node} {edge : ℕ × ℕ}
    (h : applyEdge nodes edge = .ok nodes') (hsource : kindAt nodes edge.1 = some .mixer)
    (hwire : IsWire (kindAt nodes) edge) : kindAt nodes edge.2 = some .delay := by
  unfold kindAt at hsource
  obtain ⟨source, hnode, hkind⟩ := Option.map_eq_some_iff.mp hsource
  unfold applyEdge at h
  rw [hnode] at h
  cases htarget : nodes[edge.2]? with
  | none => simp [IsWire, kindAt, htarget] at hwire
  | some target =>
    simp only [htarget, hkind, connectInput] at h
    unfold kindAt
    rw [htarget, Option.map_some]
    cases htargetKind : target.kind with
    | delay => rfl
    | fileInput | mixer =>
      rw [htargetKind] at h
      cases h
    | clients | fileOptions => simp [IsWire, kindAt, htarget, htargetKind] at hwire

/-- An edge with an end that is no node changes nothing. -/
theorem applyEdge_of_missing {nodes nodes' : List Node} {edge : ℕ × ℕ}
    (h : applyEdge nodes edge = .ok nodes')
    (hmissing : ¬(edge.1 < nodes.length ∧ edge.2 < nodes.length)) : nodes' = nodes := by
  unfold applyEdge at h
  split at h
  · rename_i hsource htarget
    exact absurd ⟨(List.getElem?_eq_some_iff.mp hsource).1, (List.getElem?_eq_some_iff.mp htarget).1⟩
      hmissing
  · cases h
    rfl

/-- An accepted edge keeps what the pointers lead to. -/
theorem AudioChain.applyEdge {nodes nodes' : List Node} {edge : ℕ × ℕ} (h : AudioChain nodes)
    (happly : applyEdge nodes edge = .ok nodes') : AudioChain nodes' := by
  by_cases hends : edge.1 < nodes.length ∧ edge.2 < nodes.length
  · have hnodes := applyEdge_connect happly hends.1 hends.2
    have hkinds : kindAt nodes' = kindAt nodes := by
      funext p
      rw [kindAt, kindAt, hnodes, Option.map_map]
      refine congrArg (Option.map · nodes[p]?) (funext fun node => ?_)
      exact congrArg Prod.snd label_connect
    have hbefore : ∀ {p : ℕ} {node' : Node}, nodes'[p]? = some node' →
        ∃ node, nodes[p]? = some node ∧ node' = node.connect (kindAt nodes) edge p ∧
          node.kind = node'.kind := by
      intro p node' hnode'
      rw [hnodes] at hnode'
      obtain ⟨node, hnode, rfl⟩ := Option.map_eq_some_iff.mp hnode'
      exact ⟨node, hnode, rfl, (congrArg Prod.snd label_connect).symm⟩
    refine ⟨fun p node' q hnode' htarget => ?_, fun p node' q hnode' hkind htarget => ?_,
      fun p node' q hnode' hinput => ?_⟩
    · obtain ⟨node, hnode, rfl, -⟩ := hbefore hnode'
      rw [hkinds]
      rw [target_connect] at htarget
      split at htarget
      · rename_i hwire
        cases htarget
        rcases hwire.1.1 with hkind | hkind | hkind <;> exact ⟨_, hkind, trivial⟩
      · exact h.target p node q hnode htarget
    · obtain ⟨node, hnode, rfl, hsame⟩ := hbefore hnode'
      rw [hkinds]
      rw [target_connect] at htarget
      split at htarget
      · rename_i hwire
        cases htarget
        refine applyEdge_mixer happly ?_ hwire.1
        rw [← hwire.2, kindAt, hnode, Option.map_some, hsame, hkind]
      · exact h.mixer p node q hnode (hsame.trans hkind) htarget
    · obtain ⟨node, hnode, rfl, -⟩ := hbefore hnode'
      have hkind : kindAt nodes p = some node.kind := by rw [kindAt, hnode, Option.map_some]
      rw [hkinds]
      rw [inputs_connect hkind] at hinput
      split at hinput
      · rename_i hwired
        rcases List.mem_append.mp hinput with hold | hnew
        · exact h.inputs p node q hnode hold
        · rw [List.mem_singleton.mp hnew]
          exact hwired.1.1
      · exact h.inputs p node q hnode hinput
  · rw [applyEdge_of_missing happly hends]
    exact h

/-- The pointers of every graph that is accepted. -/
theorem audioChain_of_parseGraph {lib : Library} {o : JsonObject} {graph : Graph}
    (h : parseGraph lib o = .ok graph) : AudioChain graph.nodes := by
  unfold parseGraph at h
  obtain ⟨flow, -, h⟩ := bind_ok h
  obtain ⟨nodesArr, -, h⟩ := bind_ok h
  obtain ⟨parsed, hparsed, h⟩ := bind_ok h
  obtain ⟨started, hstarted, h⟩ := bind_ok h
  obtain ⟨edgesArr, -, h⟩ := bind_ok h
  obtain ⟨startId, start, -, rfl⟩ := setStartNode_ok hstarted
  have hunconnected := (parseNodes_ok hparsed).unconnected
  have hstart : AudioChain ({ parsed with startNode := some start } : Graph).nodes := by
    refine ⟨fun p node q hnode htarget => ?_, fun p node q hnode _ htarget => ?_,
      fun p node q hnode hinput => ?_⟩
    · rw [(hunconnected node (List.mem_of_getElem? hnode)).1] at htarget
      cases htarget
    · rw [(hunconnected node (List.mem_of_getElem? hnode)).1] at htarget
      cases htarget
    · have hdata := (hunconnected node (List.mem_of_getElem? hnode)).2
      rw [(Node.options_inputs_unconnected hdata).2] at hinput
      cases hinput
  have hstep : ∀ (done : List Json) (b : Graph) (v : Json) (b' : Graph), AudioChain b.nodes →
      parseEdge lib b v = .ok b' → AudioChain b'.nodes := by
    intro done b v b' hchain hparse
    obtain ⟨edge, nodes, -, happly, rfl⟩ := parseEdge_ok hparse
    exact hchain.applyEdge happly
  exact @foldlM_ok _ _ _ (parseEdge lib) (fun _ b => AudioChain b.nodes) hstep [] _ _ _ hstart h

/-- The nodes on which `process_frame`, `close` and `set_in_loop` of a node call
the same method. -/
def calls (nodes : List Node) (p : ℕ) : List ℕ := nodes[p]?.elim [] Node.inputs

/-- The depth of those calls, up to the number given. -/
def callDepth (nodes : List Node) : ℕ → ℕ → ℕ
  | 0, _ => 0
  | limit + 1, p => (calls nodes p).foldr (fun q depth => max (callDepth nodes limit q + 1) depth) 0

/-- The nodes that a node calls do not call any. -/
theorem AudioChain.calls_calls {nodes : List Node} (h : AudioChain nodes) {p q : ℕ}
    (hq : q ∈ calls nodes p) : calls nodes q = [] := by
  unfold calls at hq ⊢
  cases hnode : nodes[p]? with
  | none =>
    rw [hnode] at hq
    cases hq
  | some node =>
    rw [hnode] at hq
    have hkind := h.inputs p node q hnode hq
    unfold kindAt at hkind
    obtain ⟨input, hinput, hfile⟩ := Option.map_eq_some_iff.mp hkind
    rw [hinput]
    obtain ⟨id, target, data⟩ := input
    cases data with
    | mixer inputs => cases hfile
    | _ => rfl

/-- The calls of a mixer into its inputs go one level deep. -/
theorem AudioChain.callDepth_le {nodes : List Node} (h : AudioChain nodes) (limit p : ℕ) :
    callDepth nodes limit p ≤ 1 := by
  cases limit with
  | zero => exact Nat.zero_le 1
  | succ limit =>
    have hinputs : ∀ q ∈ calls nodes p, callDepth nodes limit q = 0 := by
      intro q hq
      cases limit with
      | zero => rfl
      | succ limit =>
        rw [callDepth, h.calls_calls hq]
        rfl
    rw [callDepth]
    generalize calls nodes p = inputs at hinputs ⊢
    induction inputs with
    | nil => exact Nat.zero_le 1
    | cons q inputs ih =>
      rw [List.forall_mem_cons] at hinputs
      rw [List.foldr_cons, hinputs.1]
      exact Nat.max_le.mpr ⟨Nat.le_refl 1, ih hinputs.2⟩

end HermesFlow.Infra

namespace HermesFlow.Audio

open EventRun

variable {Shifter : Type}

/-- What `process_frame` of a node that plays audio returns. -/
theorem Nodes.processFrame_supported {fx : FloatOps Shifter} {g : Nodes Shifter} {r : NodeRef}
    (hr : r.IsAudio) {frameBuffer : List UInt8} {error : NodeError}
    (h : (g.processFrame fx r frameBuffer).result = .error error) : error.code ≠ .notSupported := by
  cases r with
  | fileInput i =>
    rcases FileInputNode.processFrame_error h with hcode | hcode <;> simp [hcode]
  | mixer i => simp [MixerNode.processFrame_error h]
  | delay i => cases h
  | clients i | fileOptions i => exact hr.elim

/-- Every `next` pointer leads to a node that plays audio. -/
def Nodes.LeadsToAudio (g : Nodes Shifter) : Prop :=
  ∀ r next, (g.base r).target = some next → next.IsAudio

/-- Chains are decided by the pointers alone. -/
theorem Nodes.LeadsToAudio.congr {g g' : Nodes Shifter} (h : g.LeadsToAudio)
    (hsame : ∀ r, (g'.base r).target = (g.base r).target) : g'.LeadsToAudio := by
  intro r next hnext
  rw [hsame] at hnext
  exact h r next hnext

section Start

variable {graph : Infra.Graph} {disk : String → Option (List UInt8)} {shifter : Shifter}
  {stats : SessionStats} {reads : ℕ → Bool × Bool} {pcmBuffer : List UInt8}

/-- A node of an audio kind is referred to as an audio node. -/
theorem isAudio_nodeRef {kind : Infra.NodeKind} (h : kind.IsAudio) (p : ℕ) :
    (nodeRef p kind).IsAudio := by
  cases kind with
  | clients | fileOptions => exact h.elim
  | _ => trivial

/-- The nodes as created point where those of the graph do. -/
theorem leadsToAudio_createNodes (hchain : Infra.AudioChain graph.nodes) :
    (createNodes graph disk shifter).LeadsToAudio := by
  have hbase : ∀ p next, (createBase graph (nodeAt graph p)).target = some next →
      next.IsAudio := by
    intro p next hnext
    obtain ⟨q, hq, hpointer⟩ := Option.bind_eq_some_iff.mp hnext
    unfold nodeAt at hq
    cases hnode : graph.nodes[p]? with
    | none =>
      rw [hnode] at hq
      cases hq
    | some node =>
      rw [hnode] at hq
      obtain ⟨kind, hkind, haudio⟩ := hchain.target p node q hnode hq
      rw [pointer, hkind, Option.map_some] at hpointer
      cases hpointer
      exact isAudio_nodeRef haudio q
  intro r next hnext
  cases r with
  | fileInput p =>
    refine hbase p next (Eq.trans ?_ hnext)
    change _ = (createFileInput graph disk shifter p).base.target
    unfold createFileInput
    dsimp only
    split <;> rfl
  | fileOptions p =>
    refine hbase p next (Eq.trans ?_ hnext)
    change _ = (createFileOptions graph p).base.target
    unfold createFileOptions
    split <;> rfl
  | mixer p | delay p | clients p => exact hbase p next hnext

/-- Preparing the nodes moves no pointer. -/
theorem leadsToAudio_startSession (hchain : Infra.AudioChain graph.nodes) :
    (startSession graph disk shifter stats reads pcmBuffer).executor.nodes.LeadsToAudio := by
  refine (@leadsToAudio_createNodes _ graph disk shifter hchain).congr fun r => ?_
  obtain ⟨flag, hflag⟩ := (flagged_startSession graph disk shifter stats reads pcmBuffer).base r
  rw [hflag]
  cases r with
  | fileInput p =>
    have hbase := ((unopened_createFileInput graph disk shifter p).initializeBuffers (reads p)).2.1
    change ((createFileInput graph disk shifter p).initializeBuffers (reads p)).base.target = _
    rw [hbase]
    rfl
  | mixer p =>
    change ((preparedNodes graph disk shifter reads).mixers p).base.target = _
    rw [preparedNodes, Nodes.updateMixers_mixers]
    split <;> rfl
  | delay p | clients p | fileOptions p => rfl

end Start

namespace Dispatch

variable {fx : FloatOps Shifter} {s s' : State Shifter}

/-- The tick moves the executor on: its node has ended or is complete, and it is
closed without an error. -/
def Transits (fx : FloatOps Shifter) (s : State Shifter) : Event → Prop
  | .frame faults => ∃ current, s.executor.currentNode = some current ∧ s.pcmBuffer ≠ [] ∧
      let p := s.executor.nodes.processFrame fx current (List.replicate s.pcmBuffer.length 0)
      ((∃ error, p.result = .error error ∧ error.code = .endOfStream) ∨
        p.result = .ok () ∧ (p.node.base current).isComplete = true) ∧
      (p.node.close fx current faults).2 = .ok ()
  | .task _ _ => False

/-- The executor keeps its pointers, and its current node or the one that it
points to is current. -/
structure Moves (e e' : AudioExecutor Shifter) : Prop where
  /-- The pointers stay. -/
  target : ∀ r, (e'.nodes.base r).target = (e.nodes.base r).target
  /-- The mixers' inputs stay. -/
  inputs : ∀ i, (e'.nodes.mixers i).inputs = (e.nodes.mixers i).inputs
  /-- The current node stays or is its successor. -/
  current : e'.currentNode = e.currentNode ∨
    ∃ current, e.currentNode = some current ∧ e'.currentNode = (e.nodes.base current).target

/-- Playing on the same graph at the same node is such a move. -/
theorem Moves.of_sameGraph {e e' : AudioExecutor Shifter}
    (hgraph : Nodes.SameGraph e.nodes e'.nodes) (hcurrent : e'.currentNode = e.currentNode) :
    Moves e e' :=
  ⟨hgraph.target, hgraph.inputs, .inl hcurrent⟩

/-- The count of a frame moves nothing. -/
theorem Moves.countFrame {e e' : AudioExecutor Shifter} (h : Moves e e') (frame : List UInt8) :
    Moves e (AudioExecutor.getNextFrame.countFrame e' frame).executor :=
  ⟨h.target, h.inputs, h.current⟩

/-- The move to the next node. -/
theorem moves_advanceToNextNode {e : AudioExecutor Shifter} {current : NodeRef}
    (hcurrent : e.currentNode = some current) (faults : ℕ → Option String) :
    Moves e (e.advanceToNextNode fx current faults).1 := by
  have hgraph := (e.nodes.close_spec fx current faults).graph
  cases hclosed : (e.nodes.close fx current faults).2 with
  | error error =>
    unfold AudioExecutor.advanceToNextNode
    simp only [hclosed]
    exact Moves.of_sameGraph hgraph rfl
  | ok =>
    obtain ⟨-, hnodes, htarget⟩ := AudioExecutor.advanceToNextNode_ok hclosed
    refine ⟨fun r => ?_, fun i => ?_, .inr ⟨current, hcurrent, ?_⟩⟩
    · rw [hnodes, hgraph.target]
    · rw [hnodes, hgraph.inputs]
    · rw [htarget, hgraph.target]

/-- A call of `get_next_frame`. -/
theorem moves_getNextFrame (e : AudioExecutor Shifter) (outputBuffer : List UInt8)
    (faults : ℕ → Option String) : Moves e (e.getNextFrame fx outputBuffer faults).executor := by
  unfold AudioExecutor.getNextFrame
  split
  · exact Moves.of_sameGraph (Nodes.SameGraph.refl _) rfl
  · rename_i current hcurrent
    split
    · exact Moves.of_sameGraph (Nodes.SameGraph.refl _) rfl
    · have hgraph :=
        (e.nodes.processFrame_spec fx current (List.replicate outputBuffer.length 0)).graph
      generalize e.nodes.processFrame fx current (List.replicate outputBuffer.length 0) = p
        at hgraph ⊢
      have hprocessed : Moves e { e with nodes := p.node } := Moves.of_sameGraph hgraph rfl
      have hfinish : ∀ isEos, Moves e (AudioExecutor.getNextFrame.finishFrame fx faults
          { e with nodes := p.node } current p.frameBuffer isEos).executor := by
        intro isEos
        unfold AudioExecutor.getNextFrame.finishFrame
        split
        · obtain ⟨htarget, hinputs, hmoved⟩ := @moves_advanceToNextNode _ fx
            { e with nodes := p.node } current hcurrent faults
          have hadvanced : Moves e (AudioExecutor.advanceToNextNode fx { e with nodes := p.node }
              current faults).1 := by
            refine ⟨fun r => (htarget r).trans (hgraph.target r),
              fun i => (hinputs i).trans (hgraph.inputs i), hmoved.imp_right ?_⟩
            rintro ⟨next, hnext, hcurrent'⟩
            exact ⟨next, hnext, hcurrent'.trans (hgraph.target next)⟩
          dsimp only
          split
          · exact hadvanced
          · exact hadvanced.countFrame _
        · exact hprocessed.countFrame _
      dsimp only
      split
      · split
        · exact hprocessed
        · split
          · exact hprocessed
          · exact hfinish true
      · exact hfinish false

/-- A tick that transits. -/
theorem current_of_transits {faults : ℕ → Option String} (h : Transits fx s (.frame faults)) :
    ∃ current, s.executor.currentNode = some current ∧
      (nextFrame fx s faults).executor.currentNode =
        (s.executor.nodes.base current).target := by
  obtain ⟨current, hcurrent, hbuffer, hover, hclosed⟩ := h
  have hgraph := (s.executor.nodes.processFrame_spec fx current
    (List.replicate s.pcmBuffer.length 0)).graph
  unfold nextFrame AudioExecutor.getNextFrame
  simp only [hcurrent, if_neg hbuffer]
  generalize s.executor.nodes.processFrame fx current (List.replicate s.pcmBuffer.length 0) = p
    at hover hclosed hgraph ⊢
  obtain ⟨hok, -, htarget⟩ := @AudioExecutor.advanceToNextNode_ok _ fx
    ⟨p.node, some current, s.executor.stats⟩ current faults hclosed
  have hnext : ((p.node.close fx current faults).1.base current).target =
      (s.executor.nodes.base current).target :=
    ((p.node.close_spec fx current faults).graph.target current).trans (hgraph.target current)
  have hfinish : ∀ isEos, isEos = true ∨ (p.node.base current).isComplete = true →
      (AudioExecutor.getNextFrame.finishFrame fx faults ⟨p.node, some current, s.executor.stats⟩
        current p.frameBuffer isEos).executor.currentNode =
          (s.executor.nodes.base current).target := by
    intro isEos hends
    unfold AudioExecutor.getNextFrame.finishFrame
    rw [if_pos hends]
    simp only [hok]
    exact htarget.trans hnext
  refine ⟨current, rfl, ?_⟩
  rcases hover with ⟨error, hresult, hcode⟩ | ⟨hresult, hcomplete⟩
  · simp only [hresult, hcode, reduceCtorEq, if_false, ne_eq, not_true_eq_false]
    exact hfinish true (.inl rfl)
  · simp only [hresult]
    exact hfinish false (.inr hcomplete)

/-- A step of the session. -/
theorem moves_step {e : Event} (h : step fx s e = some s') : Moves s.executor s'.executor := by
  cases e with
  | frame faults =>
    obtain ⟨-, hs'⟩ := Option.ite_none_right_eq_some.mp h
    obtain rfl := Option.some.inj hs'
    obtain ⟨hnodes, hcurrent⟩ := @processAndStreamSingleFrame_executor _ fx s faults
    obtain ⟨htarget, hinputs, hmoved⟩ := @moves_getNextFrame _ fx s.executor s.pcmBuffer faults
    refine ⟨fun r => ?_, fun i => ?_, ?_⟩
    · rw [hnodes]
      exact htarget r
    · rw [hnodes]
      exact hinputs i
    · rw [hcurrent]
      exact hmoved
  | task i t =>
    obtain ⟨n, hrun, rfl⟩ := Option.map_eq_some_iff.mp h
    obtain ⟨handle, totalFrames, buffer, -, rfl⟩ := FileInputNode.exists_runTask hrun
    refine ⟨fun r => ?_, fun _ => rfl, .inl rfl⟩
    rw [Nodes.base_file]
    exact @Nodes.update_component _ _ _ _ NodeBase.target s.executor.nodes.base (.fileInput i) _
      (by rfl) r

/-- In every run, once the executor has moved on, its node plays audio and never
returns `NotSupported`. -/
def StaysOnAudio (fx : FloatOps Shifter) (start : State Shifter) : Prop :=
  ∀ (es : List Event) (s : State Shifter) (e : Event) (s' : State Shifter) (es' : List Event)
    (t : State Shifter) (current : NodeRef), runEvents (step fx) start es = some s →
      Transits fx s e → step fx s e = some s' → runEvents (step fx) s' es' = some t →
      t.executor.currentNode = some current →
        current.IsAudio ∧ ∀ frameBuffer error,
          (t.executor.nodes.processFrame fx current frameBuffer).result = .error error →
            error.code ≠ .notSupported

/-- Pointers to audio keep the executor on audio. -/
theorem staysOnAudio_of_leadsToAudio {start : State Shifter}
    (hstart : start.executor.nodes.LeadsToAudio) : StaysOnAudio fx start := by
  intro es s e s' es' t current hbefore htransits hstep hafter hcurrent
  have hkeeps : ∀ (s : State Shifter) (e : Event) (s' : State Shifter),
      s.executor.nodes.LeadsToAudio → step fx s e = some s' →
        s'.executor.nodes.LeadsToAudio :=
    fun s e s' hs he => hs.congr (moves_step he).target
  have hs : s.executor.nodes.LeadsToAudio := run_invariant_of_step hkeeps hstart hbefore
  have hs' : s'.executor.nodes.LeadsToAudio := hkeeps s e s' hs hstep
  -- the transition leads to audio, and no later step leads away from it
  have hmoved : ∀ r, s'.executor.currentNode = some r → r.IsAudio := by
    intro r hr
    cases e with
    | frame faults =>
      obtain ⟨-, hnext⟩ := Option.ite_none_right_eq_some.mp hstep
      obtain rfl := Option.some.inj hnext
      obtain ⟨previous, -, htarget⟩ := current_of_transits htransits
      rw [(processAndStreamSingleFrame_executor).2, htarget] at hr
      exact hs previous r hr
    | task i task => exact htransits.elim
  have hlater : t.executor.nodes.LeadsToAudio ∧
      ∀ r, t.executor.currentNode = some r → r.IsAudio := by
    refine @run_invariant_of_step _ _ (step fx) (fun s => s.executor.nodes.LeadsToAudio ∧
      ∀ r, s.executor.currentNode = some r → r.IsAudio) ?_ s' t es' ⟨hs', hmoved⟩ hafter
    rintro s e s' ⟨hleads, haudio⟩ he
    refine ⟨hkeeps s e s' hleads he, fun r hr => ?_⟩
    rcases (moves_step he).current with hsame | ⟨previous, -, htarget⟩
    · exact haudio r (hsame ▸ hr)
    · exact hleads previous r (htarget ▸ hr)
  have haudio := hlater.2 current hcurrent
  exact ⟨haudio, fun frameBuffer error => Nodes.processFrame_supported haudio⟩

/-- In every graph that is accepted the pointers lead to audio, a mixer's to a
delay, and mixers call into file inputs only; and every run stays on audio once
it has moved on. -/
theorem chain_leads_to_audio {lib : Infra.Library} {o : Infra.JsonObject} {graph : Infra.Graph}
    (h : Infra.parseGraph lib o = .ok graph) (fx : FloatOps Shifter)
    (disk : String → Option (List UInt8)) (shifter : Shifter) (stats : SessionStats)
    (reads : ℕ → Bool × Bool) (pcmBuffer : List UInt8) :
    Infra.AudioChain graph.nodes ∧
      (∀ limit p, Infra.callDepth graph.nodes limit p ≤ 1) ∧
      StaysOnAudio fx (startSession graph disk shifter stats reads pcmBuffer) := by
  have hchain := Infra.audioChain_of_parseGraph h
  exact ⟨hchain, hchain.callDepth_le,
    staysOnAudio_of_leadsToAudio (leadsToAudio_startSession hchain)⟩

/-- A file input that plays into a mixer. -/
theorem chain_leads_to_audio_filePlays :
    ∃ graph, Infra.parseGraph Infra.plainLibrary Infra.filePlays = .ok graph ∧
      Infra.AudioChain graph.nodes ∧
      (∀ limit p, Infra.callDepth graph.nodes limit p ≤ 1) ∧
      StaysOnAudio idleOps (startSession graph (fun _ => none) () ⟨"s", "", 0, 0, 0⟩
        (fun _ => (true, true)) (List.replicate FRAME_SIZE_BYTES 0)) := by
  refine ⟨_, rfl, ?_⟩
  exact @chain_leads_to_audio _ Infra.plainLibrary Infra.filePlays _ rfl idleOps (fun _ => none) ()
    ⟨"s", "", 0, 0, 0⟩ (fun _ => (true, true)) (List.replicate FRAME_SIZE_BYTES 0)

end Dispatch

end HermesFlow.Audio
