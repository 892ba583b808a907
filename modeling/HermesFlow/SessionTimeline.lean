import HermesFlow.Prepare
import HermesFlow.Timeline

/-!
# The timeline of a session

The session of an accepted flow starts with its files opened, its buffers filled and its
mixers as long as their longest input, so it plays the timeline of its graph.
-/

namespace HermesFlow.Audio.Timeline

open Dispatch EventRun FileInputNode
open CleanEpoch (InPass bare run_prepare)

variable {Shifter : Type} {fx : FloatOps Shifter}

section Prepared

variable {n : FileInputNode Shifter} {file : List UInt8}

/-- The coroutine that fills the buffers of a node. -/
theorem run_initializeBuffers (h : n.Unopened) :
    runEvents (FileInputNode.step fx.toEffects) n prepareEvents =
      some (n.initializeBuffers (true, true)) := by
  obtain ⟨base, fileName, filePath, file, _, options, shifter, _⟩ := n
  obtain ⟨rfl, rfl⟩ := h
  cases file <;> rfl

/-- Initialising the buffers keeps the pitch shifter. -/
theorem pitchShifter_initializeBuffers (h : n.Unopened) :
    (n.initializeBuffers (true, true)).pitchShifter = n.pitchShifter := by
  obtain ⟨base, fileName, filePath, file, _, options, shifter, _⟩ := n
  obtain ⟨rfl, rfl⟩ := h
  cases file <;> rfl

/-- After it the node is at its first frame. -/
theorem fileAt_initializeBuffers (h : n.Unopened) (hprocessed : n.base.processedFrames = 0)
    (hfile : n.file = some file) (flag : Bool) :
    FileAt fx ((n.initializeBuffers (true, true)).setInLoop flag) 0
      ((n.initializeBuffers (true, true)).setInLoop flag) := by
  have hfresh : Fresh (bare n) file := ⟨hfile, h.handle, rfl, hprocessed, h.buffer⟩
  obtain ⟨hbare, -, hsame, -, -⟩ := run_prepare (@run_initializeBuffers _ fx _ h)
  have hprepared := Option.some.inj (hfresh.run_prepare.symm.trans hbare)
  have hplaying := hfresh.playing
  rw [hprepared] at hplaying
  refine ⟨rfl, rfl, file, hsame.trans hfile, rfl, 0, 0, rfl, ?_⟩
  exact ⟨rfl, hplaying.owned, hplaying.totalFrames, hplaying.processed, hplaying.count,
    hplaying.bound, hplaying.reading, hplaying.back⟩

end Prepared

/-- A maximum that is not the first value is attained. -/
theorem foldl_max_attained (f : ℕ → ℤ) (inputs : List ℕ) (first : ℤ) :
    inputs.foldl (fun max j => Max.max max (f j)) first = first ∨
      ∃ j ∈ inputs, f j = inputs.foldl (fun max j => Max.max max (f j)) first := by
  induction inputs generalizing first with
  | nil => exact .inl rfl
  | cons i inputs ih =>
    rw [List.foldl_cons]
    rcases ih (max first (f i)) with hfirst | ⟨j, hj, hmax⟩
    · rw [hfirst]
      rcases max_choice first (f i) with hmax | hmax
      · exact .inl hmax
      · exact .inr ⟨i, List.mem_cons_self, hmax.symm⟩
    · exact .inr ⟨j, List.mem_cons_of_mem _ hj, hmax⟩

section Start

variable (graph : Infra.Graph) (disk : String → Option (List UInt8)) (shifter : Shifter)
  (stats : SessionStats) (pcmBuffer : List UInt8)

/-- The start of playback where every read succeeds. -/
def startReads : State Shifter :=
  startSession graph disk shifter stats (fun _ => (true, true)) pcmBuffer

/-- Its pointers are those of the graph. -/
theorem startReads_target (r : NodeRef) :
    ((startReads graph disk shifter stats pcmBuffer).executor.nodes.base r).target =
      ((createNodes graph disk shifter).base r).target := by
  obtain ⟨flag, hflag⟩ :=
    (flagged_startSession graph disk shifter stats (fun _ => (true, true)) pcmBuffer).base r
  rw [startReads, hflag]
  cases r with
  | fileInput p =>
    have hbase :=
      ((unopened_createFileInput graph disk shifter p).initializeBuffers (true, true)).2.1
    change ((createFileInput graph disk shifter p).initializeBuffers (true, true)).base.target = _
    rw [hbase]
    rfl
  | mixer p =>
    change ((preparedNodes graph disk shifter _).mixers p).base.target = _
    rw [preparedNodes, Nodes.updateMixers_mixers]
    split <;> rfl
  | delay p | clients p | fileOptions p => rfl

/-- A pointer of the graph leads to one of its nodes. -/
theorem createNodes_target {r next : NodeRef}
    (h : ((createNodes graph disk shifter).base r).target = some next) :
    ∃ p, pointer graph p = some next := by
  have hbase : ∀ {p : ℕ}, (createBase graph (nodeAt graph p)).target = some next →
      ∃ p, pointer graph p = some next := by
    intro p hnext
    obtain ⟨q, -, hpointer⟩ := Option.bind_eq_some_iff.mp hnext
    exact ⟨q, hpointer⟩
  cases r with
  | fileInput p =>
    refine @hbase p (Eq.trans ?_ h)
    change _ = (createFileInput graph disk shifter p).base.target
    unfold createFileInput
    dsimp only
    split <;> rfl
  | fileOptions p =>
    refine @hbase p (Eq.trans ?_ h)
    change _ = (createFileOptions graph p).base.target
    unfold createFileOptions
    split <;> rfl
  | mixer p | delay p | clients p => exact @hbase p h

variable {graph disk shifter stats pcmBuffer}

/-- The pointers of a chain that starts with one of the graph are all of the graph. -/
theorem pointer_of_mem {curr : Option NodeRef} {chain : List NodeRef}
    (h : NextChain (startReads graph disk shifter stats pcmBuffer).executor.nodes curr chain)
    (hcurr : ∀ r ∈ curr, ∃ p, pointer graph p = some r) :
    ∀ r ∈ chain, ∃ p, pointer graph p = some r := by
  induction chain generalizing curr with
  | nil => exact fun _ hr => absurd hr List.not_mem_nil
  | cons r chain ih =>
    cases curr with
    | none => exact h.elim
    | some curr =>
      obtain ⟨rfl, hrest⟩ := h
      refine List.forall_mem_cons.mpr ⟨hcurr r rfl, ih hrest fun next hnext => ?_⟩
      rw [startReads_target] at hnext
      exact createNodes_target graph disk shifter hnext

/-- A mixer that a pointer leads to is one of the graph. -/
theorem mem_mixerNodes {o : Infra.JsonObject} (hparsed : Infra.Parsed o graph) {p i : ℕ}
    (hpointer : pointer graph p = some (.mixer i)) : i ∈ graph.mixerNodes := by
  obtain ⟨kind, hkind, href⟩ := Option.map_eq_some_iff.mp hpointer
  rw [hparsed.mixerNodes, Infra.mem_positions]
  cases kind with
  | mixer =>
    cases href
    rw [Infra.Graph.kinds, List.getElem?_map]
    exact hkind
  | fileInput | delay | clients | fileOptions => cases href

/-- A mixer lasts as long as its longest input. -/
theorem mixer_lasts {i : ℕ} (hi : i ∈ graph.mixerNodes)
    (htotal : 1 ≤ ((startReads graph disk shifter stats pcmBuffer).executor.nodes.base
      (.mixer i)).totalFrames) :
    ∃ j ∈ ((startReads graph disk shifter stats pcmBuffer).executor.nodes.mixers i).inputs,
      ((startReads graph disk shifter stats pcmBuffer).executor.nodes.files j).base.totalFrames =
        ((startReads graph disk shifter stats pcmBuffer).executor.nodes.base
          (.mixer i)).totalFrames := by
  have hflagged := flagged_startSession graph disk shifter stats (fun _ => (true, true)) pcmBuffer
  obtain ⟨flag, hbase⟩ := hflagged.base (.mixer i)
  have hinputs := hflagged.inputs i
  have hfiles : ∀ j, ((startReads graph disk shifter stats pcmBuffer).executor.nodes.files
      j).base.totalFrames = ((preparedNodes graph disk shifter fun _ => (true, true)).files
        j).base.totalFrames := by
    intro j
    obtain ⟨flag, hfile⟩ := hflagged.files j
    rw [startReads, hfile]
    rfl
  simp only [hfiles]
  rw [startReads] at htotal ⊢
  rw [hbase] at htotal ⊢
  rw [hinputs]
  have hmixer : (preparedNodes graph disk shifter fun _ => (true, true)).mixers i =
      ((createNodes graph disk shifter).mixers i).setMaxFrames
        (preparedNodes graph disk shifter fun _ => (true, true)).files := by
    rw [preparedNodes, Nodes.updateMixers_mixers, if_pos hi]
    rfl
  simp only [NodeBase.setInLoop, Nodes.base, hmixer] at htotal ⊢
  rcases foldl_max_attained (fun j => ((preparedNodes graph disk shifter fun _ =>
      (true, true)).files j).base.totalFrames) ((createNodes graph disk shifter).mixers i).inputs 0
    with hzero | hattained
  · exact absurd (htotal.trans hzero.le) (by decide)
  · exact hattained

/-- Flagging a loop leaves the buffers of the mixers alone. -/
theorem tempInputBuffer_setInLoop (g : Nodes Shifter) (r : NodeRef) (value : Bool) (i : ℕ) :
    ((g.setInLoop r value).mixers i).tempInputBuffer = (g.mixers i).tempInputBuffer := by
  cases r with
  | mixer p => exact Nodes.update_component MixerNode.tempInputBuffer (by rfl) i
  | _ => rfl

/-- Flagging a loop keeps the buffers of the mixers. -/
theorem tempInputBuffer_flagLoop (g : Nodes Shifter) (cycleStart : NodeRef) (turns : ℕ)
    (loopNode : NodeRef) (i : ℕ) :
    ((g.flagLoop cycleStart turns loopNode).mixers i).tempInputBuffer =
      (g.mixers i).tempInputBuffer := by
  induction turns generalizing g loopNode with
  | zero => exact tempInputBuffer_setInLoop g loopNode true i
  | succ turns ih =>
    have hfirst := tempInputBuffer_setInLoop g loopNode true i
    unfold Nodes.flagLoop
    dsimp only
    cases ((g.setInLoop loopNode true).base loopNode).target with
    | none => exact hfirst
    | some next =>
      dsimp only
      split
      · exact hfirst
      · exact (ih _ _).trans hfirst

/-- A prepared mixer's buffer has the size of a frame. -/
theorem startReads_tempInputBuffer (i : ℕ) :
    ((startReads graph disk shifter stats pcmBuffer).executor.nodes.mixers
      i).tempInputBuffer.length = FRAME_SIZE_BYTES := by
  have hprepared : ((preparedNodes graph disk shifter fun _ => (true, true)).mixers
      i).tempInputBuffer = List.replicate FRAME_SIZE_BYTES 0 := by
    rw [preparedNodes, Nodes.updateMixers_mixers]
    split <;> rfl
  have hflagged : ((startReads graph disk shifter stats pcmBuffer).executor.nodes.mixers
      i).tempInputBuffer = ((preparedNodes graph disk shifter fun _ => (true, true)).mixers
        i).tempInputBuffer := by
    change (((preparedNodes graph disk shifter _).detectAndFlagLoops _ _).mixers i).tempInputBuffer
      = _
    unfold Nodes.detectAndFlagLoops
    split
    · exact tempInputBuffer_flagLoop _ _ _ _ i
    · rfl
  rw [hflagged, hprepared, List.length_replicate]

/-- A file that is on the disk is at its first frame. -/
theorem fileAt_startReads {j : ℕ}
    (hfile : ((startReads graph disk shifter stats pcmBuffer).executor.nodes.files j).file.isSome) :
    FileAt fx ((startReads graph disk shifter stats pcmBuffer).executor.nodes.files j) 0
      ((startReads graph disk shifter stats pcmBuffer).executor.nodes.files j) := by
  obtain ⟨flag, hflag⟩ :=
    (flagged_startSession graph disk shifter stats (fun _ => (true, true)) pcmBuffer).files j
  have hunopened := unopened_createFileInput graph disk shifter j
  have hnode : (startReads graph disk shifter stats pcmBuffer).executor.nodes.files j =
      ((createFileInput graph disk shifter j).initializeBuffers (true, true)).setInLoop flag := hflag
  have hprocessed : (createFileInput graph disk shifter j).base.processedFrames = 0 := by
    unfold createFileInput
    dsimp only
    split <;> rfl
  rw [hnode] at hfile ⊢
  change ((createFileInput graph disk shifter j).initializeBuffers (true, true)).file.isSome at hfile
  rw [(hunopened.initializeBuffers (true, true)).1] at hfile
  obtain ⟨file, hfile⟩ := Option.isSome_iff_exists.mp hfile
  exact fileAt_initializeBuffers hunopened hprocessed hfile flag

/-- Its pitch shifter is the one that it has been created with. -/
theorem startReads_pitchShifter (j : ℕ) :
    ((startReads graph disk shifter stats pcmBuffer).executor.nodes.files j).pitchShifter =
      shifter := by
  obtain ⟨flag, hflag⟩ :=
    (flagged_startSession graph disk shifter stats (fun _ => (true, true)) pcmBuffer).files j
  rw [startReads, hflag]
  change ((createFileInput graph disk shifter j).initializeBuffers (true, true)).pitchShifter = _
  rw [pitchShifter_initializeBuffers (unopened_createFileInput graph disk shifter j)]
  unfold createFileInput
  dsimp only
  split <;> rfl

end Start

/-- What a chain of nodes needs to be played: the nodes play something, each file of its own, and
the files are on the disk. -/
structure Equipped (s : State Shifter) (chain : List NodeRef) : Prop where
  /-- Every node of the chain has frames to play. -/
  audio : ∀ r ∈ chain, r.IsAudio ∧ 1 ≤ (s.executor.nodes.base r).totalFrames
  /-- No input is listed twice. -/
  distinct : ∀ i, .mixer i ∈ chain → (s.executor.nodes.mixers i).inputs.Nodup
  /-- No file is played by two nodes of the chain. -/
  apart : chain.Pairwise fun r r' =>
    ∀ q, Nodes.Uses s.executor.nodes r q → ¬Nodes.Uses s.executor.nodes r' q
  /-- The files that are played are on the disk. -/
  onDisk : ∀ r ∈ chain, ∀ j, Nodes.Uses s.executor.nodes r (.fileInput j) →
    (s.executor.nodes.files j).file.isSome

/-- What the graph of a flow needs to be played to its end: its chain ends. -/
structure Plays (s : State Shifter) (chain : List NodeRef) : Prop extends Equipped s chain where
  /-- The chain starts at the current node and ends. -/
  leads : NextChain s.executor.nodes s.executor.currentNode chain

section Equipped

variable {o : Infra.JsonObject} {graph : Infra.Graph} {disk : String → Option (List UInt8)}
  {shifter : Shifter} {stats : SessionStats} {pcmBuffer : List UInt8} {chain : List NodeRef}

/-- An equipped chain can be played. -/
theorem Equipped.playable (hparsed : Infra.Parsed o graph)
    (h : Equipped (startReads graph disk shifter stats pcmBuffer) chain)
    (hpointers : ∀ r ∈ chain, ∃ p, pointer graph p = some r) :
    Playable (startReads graph disk shifter stats pcmBuffer).executor.nodes chain := by
  refine ⟨h.audio, fun i hi => ⟨h.distinct i hi, ?_⟩, h.apart,
    startSession_opened graph disk shifter stats _ pcmBuffer⟩
  obtain ⟨p, hpointer⟩ := hpointers _ hi
  obtain ⟨j, hj, htotal⟩ := mixer_lasts (mem_mixerNodes hparsed hpointer) (h.audio _ hi).2
  exact ⟨j, hj, fun hshort => absurd hshort.2 (htotal ▸ lt_irrefl _)⟩

/-- Its nodes are at their first frames. -/
theorem Equipped.nodeAt (h : Equipped (startReads graph disk shifter stats pcmBuffer) chain) :
    ∀ r ∈ chain, NodeAt fx (startReads graph disk shifter stats pcmBuffer).executor.nodes
      (startReads graph disk shifter stats pcmBuffer).executor.nodes r 0 := by
  refine fun r hr => ⟨?_, fun j hj => ?_, fun i _ => startReads_tempInputBuffer i⟩
  · exact startSession_processedFrames graph disk shifter stats _ pcmBuffer r
  · rw [filePlayed_zero]
    exact fileAt_startReads (h.onDisk r hr j hj)

/-- Playback starts at a node of the graph. -/
theorem exists_currentNode (hparsed : Infra.Parsed o graph) :
    ∃ r p, (startReads graph disk shifter stats pcmBuffer).executor.currentNode = some r ∧
      pointer graph p = some r := by
  obtain ⟨id, p, hp, hstart⟩ := hparsed.start
  have howned := hparsed.owned (.inr (.inr (.inl ⟨id, hp⟩)))
  have hpointer : pointer graph p = some (nodeRef p graph.nodes[p].kind) := by
    rw [pointer, Infra.kindAt, List.getElem?_eq_getElem howned]
    rfl
  refine ⟨_, p, ?_, hpointer⟩
  change graph.startNode.bind (pointer graph) = _
  rw [hstart, Option.bind_some, hpointer]

end Equipped

/-- The session of an accepted text is at the start of its score. -/
theorem scored_startReads {lib : Infra.Library} {o : Infra.JsonObject} {graph : Infra.Graph}
    (hparse : Infra.parseGraph lib o = .ok graph) {disk : String → Option (List UInt8)}
    {shifter : Shifter} {stats : SessionStats} {pcmBuffer : List UInt8}
    (hbuffer : pcmBuffer.length = FRAME_SIZE_BYTES) {chain : List NodeRef}
    (hplays : Plays (startReads graph disk shifter stats pcmBuffer) chain) :
    Scored fx chain (startReads graph disk shifter stats pcmBuffer) := by
  have hparsed := Infra.parseGraph_ok hparse
  obtain ⟨first, p, hcurrent, hpointer⟩ :=
    @exists_currentNode _ _ graph disk shifter stats pcmBuffer hparsed
  have hleads := hplays.leads
  have hpointers := pointer_of_mem hleads fun r hr => by
    obtain rfl := Option.some.inj (hcurrent.symm.trans hr)
    exact ⟨p, hpointer⟩
  refine ⟨rfl, hleads, ?_, hplays.playable hparsed hpointers, hplays.nodeAt, hbuffer, rfl⟩
  rintro rfl
  rw [hcurrent] at hleads
  exact hleads.elim

/-- The session of an accepted flow plays its timeline: after `n` ticks it has sent the first
`n` frames, but for the very last one, and it is over with the timeline. -/
theorem session_plays_timeline {lib : Infra.Library} {o : Infra.JsonObject} {graph : Infra.Graph}
    (hparse : Infra.parseGraph lib o = .ok graph) (hfx : fx.toEffects.InPlace)
    {disk : String → Option (List UInt8)} {shifter : Shifter} {stats : SessionStats}
    {pcmBuffer : List UInt8} (hbuffer : pcmBuffer.length = FRAME_SIZE_BYTES)
    {chain : List NodeRef} (hplays : Plays (startReads graph disk shifter stats pcmBuffer) chain)
    {es : List Dispatch.Event} {t : State Shifter}
    (hserved : Meets (step fx) Served (startReads graph disk shifter stats pcmBuffer) es)
    (hrun : runEvents (step fx) (startReads graph disk shifter stats pcmBuffer) es = some t) :
    t.sent = (timeline fx (startReads graph disk shifter stats pcmBuffer).executor.nodes
        chain).dropLast.take (es.countP Dispatch.Event.isFrame) ∧
      (t.isRunning = true ↔ es.countP Dispatch.Event.isFrame <
        (timeline fx (startReads graph disk shifter stats pcmBuffer).executor.nodes
          chain).length) :=
  plays_timeline hfx (scored_startReads hparse hbuffer hplays) hserved hrun

/-- A mixer of one file, and then a delay. -/
def mixedThenDelay : Infra.JsonObject :=
  Infra.flowOf [Infra.nodeJson "m" "mixer" [],
      Infra.nodeJson "a" "fileInput" [("fileName", .string "a.wav")],
      Infra.nodeJson "d" "delay" [("delay", .int64 20)]]
    [Infra.edgeJson "a" "m", Infra.edgeJson "m" "d"] "m"

/-- Its graph. -/
def mixedThenDelayGraph : Infra.Graph where
  nodes := [⟨"m", some 2, .mixer [1]⟩, ⟨"a", some 0, .fileInput "a.wav" "downloads/a.wav" none⟩,
    ⟨"d", none, .delay (Infra.delayFrames Infra.plainLibrary 20)⟩]
  nodeMap := Function.update (Function.update (Function.update (fun _ => none) "m" (some 0)) "a"
    (some 1)) "d" (some 2)
  startNode := some 0
  fileNodes := [1]
  mixerNodes := [0]
  clientsNode := none

/-- The example's text is accepted. -/
theorem parse_mixedThenDelay :
    Infra.parseGraph Infra.plainLibrary mixedThenDelay = .ok mixedThenDelayGraph := rfl

/-- A file of two frames of rising samples. -/
def rampFile : List UInt8 := (List.range (2 * FRAME_SIZE_BYTES)).map fun i => UInt8.ofNat (i % 100)

/-- Its session, with that file. -/
def mixedThenDelaySession : State Unit :=
  startReads mixedThenDelayGraph (fun _ => some rampFile) () ⟨"s", "", 0, 0, 0⟩
    (List.replicate FRAME_SIZE_BYTES 0)

/-- The example's mixer uses itself and its file. -/
theorem uses_mixedThenDelay {q : NodeRef}
    (h : Nodes.Uses mixedThenDelaySession.executor.nodes (.mixer 0) q) :
    q = .mixer 0 ∨ q = .fileInput 1 := by
  obtain hself | ⟨i, j, hmixer, hj, hfile⟩ := h
  · exact .inl hself
  · cases hmixer
    obtain rfl := List.mem_singleton.mp (show j ∈ [1] from hj)
    exact .inr hfile

/-- The example can be played. -/
theorem plays_mixedThenDelay : Plays mixedThenDelaySession [.mixer 0, .delay 2] where
  leads := ⟨rfl, rfl, trivial⟩
  audio := by
    intro r hr
    rcases List.mem_pair.mp hr with rfl | rfl
    · exact ⟨trivial, by decide +kernel⟩
    · exact ⟨trivial, by decide +kernel⟩
  distinct := by
    intro i hi
    rcases List.mem_pair.mp hi with h | h
    · cases h
      exact List.nodup_singleton 1
    · cases h
  apart := by
    refine List.pairwise_pair.mpr fun q hq hdelay => ?_
    obtain hself | ⟨_, _, hmixer, -⟩ := hdelay
    · subst hself
      rcases uses_mixedThenDelay hq with h | h <;> cases h
    · cases hmixer
  onDisk := by
    intro r hr j hj
    rcases List.mem_pair.mp hr with rfl | rfl
    · rcases uses_mixedThenDelay hj with h | h <;> cases h
      rfl
    · obtain hself | ⟨_, _, hmixer, -⟩ := hj
      · cases hself
      · cases hmixer

/-- The current node, the inputs of the mixer and the refills of its file. -/
def mixerProgress (s : State Shifter) : Option NodeRef × List ℕ × List RefillPc :=
  (s.executor.currentNode, (s.executor.nodes.mixers 0).inputs,
    (s.executor.nodes.files 1).buffer.refills)

/-- A mixer of a file that has no refill under way is served. -/
theorem served_mixerProgress {s : State Shifter}
    (h : mixerProgress s = (some (.mixer 0), [1], [])) : Served s (.frame fun _ => none) := by
  obtain ⟨hcurrent, hrest⟩ := Prod.mk.inj h
  obtain ⟨hinputs, hrefills⟩ := Prod.mk.inj hrest
  intro current hmem
  obtain rfl := Option.some.inj (hcurrent.symm.trans hmem)
  refine ⟨fun j hj => ?_, fun _ _ => rfl⟩
  obtain hself | ⟨i, k, hmixer, hk, hfile⟩ := hj
  · cases hself
  · cases hmixer
    cases hfile
    rw [hinputs] at hk
    obtain rfl := List.mem_singleton.mp hk
    intro _ _ pc hpc
    rw [hrefills] at hpc
    cases hpc

/-- A delay needs no file. -/
theorem served_delay {s : State Shifter} {i : ℕ}
    (hcurrent : s.executor.currentNode = some (.delay i)) (faults : ℕ → Option String) :
    Served s (.frame faults) := by
  intro current hmem
  obtain rfl := Option.some.inj (hcurrent.symm.trans hmem)
  refine ⟨fun j hj => ?_, fun j hj => ?_⟩ <;>
    · obtain hself | ⟨_, _, hmixer, -⟩ := hj
      · cases hself
      · cases hmixer

/-- Three ticks. -/
def threeTicks : List Dispatch.Event := List.replicate 3 (.frame fun _ => none)

/-- Two of them are the mixer's, and the third is the delay's. -/
theorem ticks_mixedThenDelay :
    mixerProgress mixedThenDelaySession = (some (.mixer 0), [1], []) ∧
      (runEvents (step idleOps) mixedThenDelaySession (threeTicks.take 1)).map mixerProgress =
        some (some (.mixer 0), [1], []) ∧
      (runEvents (step idleOps) mixedThenDelaySession (threeTicks.take 2)).map
        (fun s => s.executor.currentNode) = some (some (.delay 2)) ∧
      (runEvents (step idleOps) mixedThenDelaySession threeTicks).isSome = true := by
  decide +kernel

/-- The example is served. -/
theorem served_mixedThenDelay : Meets (step idleOps) Served mixedThenDelaySession threeTicks := by
  obtain ⟨hfirst, hsecond, hthird, -⟩ := ticks_mixedThenDelay
  refine ⟨served_mixerProgress hfirst, fun s hs => ⟨?_, fun m hm => ⟨?_, fun _ _ => trivial⟩⟩⟩
  · have hrun : runEvents (step idleOps) mixedThenDelaySession (threeTicks.take 1) = some s :=
      runEvents_cons_iff.mpr ⟨s, hs, runEvents_nil s⟩
    rw [hrun] at hsecond
    exact served_mixerProgress (Option.some.inj hsecond)
  · have hrun : runEvents (step idleOps) mixedThenDelaySession (threeTicks.take 2) = some m :=
      runEvents_cons_iff.mpr ⟨s, hs, runEvents_cons_iff.mpr ⟨m, hm, runEvents_nil m⟩⟩
    rw [hrun] at hthird
    exact served_delay (Option.some.inj hthird) _

/-- Its timeline: the frames of the file, and the silence of the delay. -/
theorem timeline_mixedThenDelay :
    timeline idleOps mixedThenDelaySession.executor.nodes [.mixer 0, .delay 2] =
      [rampFile.take FRAME_SIZE_BYTES, rampFile.drop FRAME_SIZE_BYTES,
        List.replicate FRAME_SIZE_BYTES 0] := by
  decide +kernel

/-- The frames of the file are sent, and the one of the delay ends the loop. -/
theorem session_plays_timeline_mixed :
    ∃ graph t, Infra.parseGraph Infra.plainLibrary mixedThenDelay = .ok graph ∧
      runEvents (step idleOps) mixedThenDelaySession threeTicks = some t ∧
      t.sent = [rampFile.take FRAME_SIZE_BYTES, rampFile.drop FRAME_SIZE_BYTES] ∧
      t.isRunning = false := by
  obtain ⟨t, ht⟩ := Option.isSome_iff_exists.mp ticks_mixedThenDelay.2.2.2
  obtain ⟨hsent, hrunning⟩ := session_plays_timeline parse_mixedThenDelay (fun _ _ _ => rfl)
    List.length_replicate plays_mixedThenDelay served_mixedThenDelay ht
  refine ⟨_, t, parse_mixedThenDelay, ht, ?_, ?_⟩
  · refine hsent.trans ?_
    change (timeline idleOps mixedThenDelaySession.executor.nodes _).dropLast.take _ = _
    rw [timeline_mixedThenDelay]
    rfl
  · rw [← Bool.not_eq_true, hrunning]
    change ¬3 < (timeline idleOps mixedThenDelaySession.executor.nodes _).length
    rw [timeline_mixedThenDelay]
    exact lt_irrefl 3

end HermesFlow.Audio.Timeline
