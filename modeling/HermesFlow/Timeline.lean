import HermesFlow.CleanEpoch
import HermesFlow.MixerSum
import HermesFlow.PlaybackEnd

/-!
# The timeline of a graph

What a graph plays, without an executor: each node has its frames, a delay silence, a file
those of its audio bytes, a mixer the clipped sums of its inputs, and the timeline has the
frames of the nodes in the order of the chain. The executor with its buffers and coroutines
plays the timeline, where nodes, refills and the file system keep up with it.
-/

namespace HermesFlow.Audio.Timeline

open ByteOrder Dispatch EventRun FileInputNode
open CleanEpoch (InPass Reads passFrame)

variable {Shifter : Type} {fx : FloatOps Shifter}

/-- Frame `k` of a file, with its effects. -/
def fileFrame (fx : FloatOps Shifter) (n : FileInputNode Shifter) (k : ℕ) : List UInt8 :=
  passFrame fx.toEffects n.options n.pitchShifter (audioOf (n.file.getD [])) k

/-- The frames of a file among the first `k` of a mixer. -/
def filePlayed (n : FileInputNode Shifter) (k : ℕ) : ℕ :=
  if 0 < n.base.totalFrames then min k n.base.totalFrames.toNat else k

/-- No file has played a frame at first. -/
theorem filePlayed_zero (n : FileInputNode Shifter) : filePlayed n 0 = 0 := by
  unfold filePlayed
  split
  · exact Nat.zero_min _
  · rfl

/-- A sample of a file in frame `k` of a mixer: nothing once the file is over. -/
def fileSample (fx : FloatOps Shifter) (n : FileInputNode Shifter) (k i : ℕ) : ℤ :=
  if 0 < n.base.totalFrames ∧ n.base.totalFrames ≤ k then 0
  else (asSamples (fileFrame fx n k)).getD i 0

/-- Frame `k` of a mixer: the sums of its inputs, clipped. -/
def mixedFrame (fx : FloatOps Shifter) (g : Nodes Shifter) (i k : ℕ) : List UInt8 :=
  AudioMath.compressAndExport fx.compress
    ((List.range SAMPLES_PER_FRAME).map fun sample =>
      ((g.mixers i).inputs.map fun j => fileSample fx (g.files j) k sample).sum)
    (List.replicate FRAME_SIZE_BYTES 0)

/-- Frame `k` of a node. -/
def nodeFrame (fx : FloatOps Shifter) (g : Nodes Shifter) : NodeRef → ℕ → List UInt8
  | .fileInput i, k => fileFrame fx (g.files i) k
  | .mixer i, k => mixedFrame fx g i k
  | .delay _, _ => List.replicate FRAME_SIZE_BYTES 0
  | .clients _, _ | .fileOptions _, _ => []

/-- The frames of a node. -/
def nodeFrames (fx : FloatOps Shifter) (g : Nodes Shifter) (r : NodeRef) : List (List UInt8) :=
  (List.range (g.base r).totalFrames.toNat).map (nodeFrame fx g r)

/-- The frames of the nodes of a chain. -/
def timeline (fx : FloatOps Shifter) (g : Nodes Shifter) (chain : List NodeRef) :
    List (List UInt8) :=
  chain.flatMap (nodeFrames fx g)

/-- The node of a reference is the same in both. -/
def SameNode (a b : Nodes Shifter) : NodeRef → Prop
  | .fileInput i => b.files i = a.files i
  | .mixer i => b.mixers i = a.mixers i
  | .delay i => b.delays i = a.delays i
  | .clients i => b.clients i = a.clients i
  | .fileOptions i => b.fileOptions i = a.fileOptions i

/-- The same node has the same base. -/
theorem SameNode.base {a b : Nodes Shifter} {r : NodeRef} (h : SameNode a b r) :
    b.base r = a.base r := by
  cases r with
  | fileInput i => exact congrArg FileInputNode.base h
  | mixer i => exact congrArg MixerNode.base h
  | delay i => exact congrArg DelayNode.base h
  | clients i => exact h
  | fileOptions i => exact congrArg FileOptionsNode.base h

section Others

variable {g : Nodes Shifter} {r s : NodeRef}

/-- A call on a node leaves the nodes that it does not use as they are. -/
theorem sameNode_processFrame (frameBuffer : List UInt8) (h : ¬Nodes.Uses g r s) :
    SameNode g (g.processFrame fx r frameBuffer).node s := by
  have hne : s ≠ r := fun hs => h (.inl hs)
  cases r with
  | fileInput i =>
    cases s with
    | fileInput j => exact Function.update_of_ne (fun hj => hne (congrArg _ hj)) _ _
    | _ => rfl
  | mixer i =>
    cases s with
    | fileInput j =>
      have hj : j ∉ (g.mixers i).inputs := fun hj => h (.inr ⟨i, j, rfl, hj, rfl⟩)
      exact ((g.mixers i).processFrame_files fx g.files frameBuffer j).2 hj
    | mixer j => exact Function.update_of_ne (fun hj => hne (congrArg _ hj)) _ _
    | _ => rfl
  | delay i =>
    cases s with
    | delay j => exact Function.update_of_ne (fun hj => hne (congrArg _ hj)) _ _
    | _ => rfl
  | clients i | fileOptions i => cases s <;> rfl

/-- A close touches no node that is not used. -/
theorem sameNode_close (faults : ℕ → Option String) (h : ¬Nodes.Uses g r s) :
    SameNode g (g.close fx r faults).1 s := by
  have hne : s ≠ r := fun hs => h (.inl hs)
  cases r with
  | fileInput i =>
    cases s with
    | fileInput j => exact Function.update_of_ne (fun hj => hne (congrArg _ hj)) _ _
    | _ => rfl
  | mixer i =>
    cases s with
    | fileInput j =>
      have hj : j ∉ (g.mixers i).inputs := fun hj => h (.inr ⟨i, j, rfl, hj, rfl⟩)
      change ((g.mixers i).close fx g.files faults).1.2 j = g.files j
      rw [MixerNode.close_files]
      exact (closeInputs_files fx faults (g.mixers i).inputs g.files j).2 hj
    | mixer j => exact Function.update_of_ne (fun hj => hne (congrArg _ hj)) _ _
    | _ => rfl
  | delay i =>
    cases s with
    | delay j => exact Function.update_of_ne (fun hj => hne (congrArg _ hj)) _ _
    | _ => rfl
  | clients i | fileOptions i => cases s <;> rfl

/-- Closing inputs that the file system can close. -/
theorem closeInputs_ok {faults : ℕ → Option String} {inputs : List ℕ}
    (hfaults : ∀ j ∈ inputs, faults j = none) (files : FileNodes Shifter) :
    (closeInputs fx faults inputs files).2 = .ok () := by
  induction inputs generalizing files with
  | nil => rfl
  | cons source inputs ih =>
    obtain ⟨hsource, hfaults⟩ := List.forall_mem_cons.mp hfaults
    rw [closeInputs, hsource]
    exact ih hfaults _

/-- So does a node close. -/
theorem close_ok {faults : ℕ → Option String}
    (hfaults : ∀ j, Nodes.Uses g r (.fileInput j) → faults j = none) :
    (g.close fx r faults).2 = .ok () := by
  cases r with
  | fileInput i =>
    change ((g.files i).close fx.toEffects (faults i)).2 = .ok ()
    rw [hfaults i (.inl rfl)]
    rfl
  | mixer i =>
    have hclosed : (closeInputs fx faults (g.mixers i).inputs g.files).2 = .ok () :=
      closeInputs_ok (fun j hj => hfaults j (.inr ⟨i, j, rfl, hj, rfl⟩)) g.files
    change ((g.mixers i).close fx g.files faults).2 = .ok ()
    simp only [MixerNode.close, hclosed]
  | delay i | clients i | fileOptions i => rfl

end Others

/-- A file of the graph has played `k` frames. -/
structure FileAt (fx : FloatOps Shifter) (start : FileInputNode Shifter) (k : ℕ)
    (n : FileInputNode Shifter) : Prop where
  /-- The options are the same. -/
  options : n.options = start.options
  /-- The total is the same. -/
  total : n.base.totalFrames = start.base.totalFrames
  /-- The file is in its pass, at this frame. -/
  pass : ∃ file, start.file = some file ∧
    InPass fx.toEffects start.options start.pitchShifter file k n

section File

variable {start n n' : FileInputNode Shifter} {k : ℕ}

/-- The counter is the number of frames played. -/
theorem FileAt.processed (h : FileAt fx start k n) : n.base.processedFrames = k := by
  obtain ⟨file, -, hpass⟩ := h.pass
  exact hpass.processedFrames

/-- The file has ended exactly when its total is played. -/
theorem FileAt.ended_iff (h : FileAt fx start k n) :
    Ended n ↔ 0 < start.base.totalFrames ∧ start.base.totalFrames ≤ k := by
  rw [Ended, h.processed, h.total, ge_iff_le, gt_iff_lt, and_comm]

/-- A call gives the next frame, if there is one. -/
theorem FileAt.call (h : FileAt fx start k n) (hended : ¬Ended n) {frameBuffer : List UInt8}
    (hlen : frameBuffer.length = FRAME_SIZE_BYTES)
    (htimely : Timely n (.processFrame frameBuffer)) :
    (n.processFrame fx.toEffects frameBuffer).result = .ok () ∧
      (n.processFrame fx.toEffects frameBuffer).frameBuffer = fileFrame fx start k ∧
      FileAt fx start (k + 1) (n.processFrame fx.toEffects frameBuffer).node := by
  obtain ⟨file, hfile, hpass⟩ := h.pass
  obtain ⟨hok, hframe, hnext⟩ := hpass.call h.options hended hlen htimely
  have hoptions := (n.processFrame_frame fx.toEffects frameBuffer).2.1
  have htotal := (sameSource_processFrame fx.toEffects n frameBuffer).totalFrames
  refine ⟨hok, ?_, hoptions.trans h.options, htotal.trans h.total, file, hfile, hnext⟩
  rw [hframe, fileFrame, hfile, Option.getD_some]

/-- A coroutine plays nothing. -/
theorem FileAt.task (h : FileAt fx start k n) {t : Task} (hreads : Reads t)
    (hopened : n.base.totalFrames = n.openedFrames) (hrun : n.runTask t = some n') :
    FileAt fx start k n' := by
  obtain ⟨file, hfile, hpass⟩ := h.pass
  refine ⟨(runTask_frame hrun).2.2.1.trans h.options, ?_, file, hfile, hpass.task hreads hrun⟩
  rw [(runTask_base hopened hrun).2, h.total]

/-- Before its end a file plays one frame more. -/
theorem filePlayed_succ (h : FileAt fx start (filePlayed start k) n) (hended : ¬Ended n) :
    filePlayed start k = k ∧ filePlayed start (k + 1) = k + 1 := by
  rw [h.ended_iff] at hended
  unfold filePlayed at hended ⊢
  split <;> rename_i hpos
  · rw [if_pos hpos] at hended
    omega
  · exact ⟨rfl, rfl⟩

/-- After its end a file plays no more. -/
theorem filePlayed_ended (h : FileAt fx start (filePlayed start k) n) (hended : Ended n) :
    0 < start.base.totalFrames ∧ start.base.totalFrames ≤ k ∧
      filePlayed start (k + 1) = filePlayed start k := by
  obtain ⟨hpos, hall⟩ := h.ended_iff.mp hended
  unfold filePlayed at hall ⊢
  rw [if_pos hpos] at hall ⊢
  rw [if_pos hpos]
  omega

/-- What an input of a mixer gives to frame `k`, and where it is then. -/
theorem FileAt.input (h : FileAt fx start (filePlayed start k) n)
    (htimely : Timely n (.processFrame [])) :
    (∀ i, sampleAt (n.frameOf fx.toEffects) i = fileSample fx start k i) ∧
      ((n.frameOf fx.toEffects).isSome = true ↔
        ¬(0 < start.base.totalFrames ∧ start.base.totalFrames ≤ k)) ∧
      FileAt fx start (filePlayed start (k + 1)) (n.called fx.toEffects) := by
  by_cases hended : Ended n
  · obtain ⟨hpos, hall, hsame⟩ := filePlayed_ended h hended
    have hcall := @processFrame_of_ended _ fx.toEffects n hended
      (List.replicate FRAME_SIZE_BYTES 0)
    have hnone : n.frameOf fx.toEffects = none := by rw [frameOf, hcall]
    refine ⟨fun i => ?_, ?_, ?_⟩
    · rw [hnone, fileSample, if_pos ⟨hpos, hall⟩]
      rfl
    · rw [hnone]
      exact iff_of_false nofun (not_not.mpr ⟨hpos, hall⟩)
    · rw [hsame, called, hcall]
      exact h
  · obtain ⟨hk, hnext⟩ := filePlayed_succ h hended
    have hmore := mt h.ended_iff.mpr hended
    rw [hk] at h hmore
    obtain ⟨hok, hframe, hplayed⟩ := h.call hended List.length_replicate htimely
    have hsome : n.frameOf fx.toEffects = some (asSamples (fileFrame fx start k)) := by
      rw [frameOf, hok, hframe]
    refine ⟨fun i => ?_, ?_, ?_⟩
    · rw [hsome, fileSample, if_neg hmore]
      rfl
    · rw [hsome]
      exact iff_of_true rfl hmore
    · rw [hnext]
      exact hplayed

end File

/-- A node of the graph has played `k` frames. -/
structure NodeAt (fx : FloatOps Shifter) (g now : Nodes Shifter) (r : NodeRef) (k : ℕ) : Prop where
  /-- The node has counted so many frames. -/
  processed : (now.base r).processedFrames = k
  /-- Its files have played so many, or all of theirs. -/
  files : ∀ j, Nodes.Uses g r (.fileInput j) →
    FileAt fx (g.files j) (filePlayed (g.files j) k) (now.files j)
  /-- A mixer's buffer has the size of a frame. -/
  temp : ∀ i, r = .mixer i → (now.mixers i).tempInputBuffer.length = FRAME_SIZE_BYTES

/-- The inputs of a mixer are distinct, and one of them lasts as long as the mixer. -/
structure Sounding (g : Nodes Shifter) (i : ℕ) : Prop where
  /-- No input is listed twice. -/
  nodup : (g.mixers i).inputs.Nodup
  /-- An input lasts as long as the mixer. -/
  lasts : ∃ j ∈ (g.mixers i).inputs, ¬(0 < (g.files j).base.totalFrames ∧
    (g.files j).base.totalFrames < (g.mixers i).base.totalFrames)

/-- The temporary buffer of a mixer keeps its size. -/
theorem length_tempInputBuffer (hfx : fx.toEffects.InPlace) {m : MixerNode}
    {files : FileNodes Shifter} (hnodup : m.inputs.Nodup)
    (htemp : m.tempInputBuffer.length = FRAME_SIZE_BYTES) (frameBuffer : List UInt8) :
    (m.processFrame fx files frameBuffer).node.1.tempInputBuffer.length = FRAME_SIZE_BYTES := by
  have hloop := (@loop_spec _ _ hfx _ hnodup (m.startMix files) htemp).temp
  unfold MixerNode.processFrame
  dsimp only
  rw [← MixerNode.startMix, mixInputs_eq]
  dsimp only
  split <;> exact hloop

/-- The files that a node uses have the frame that it asks for. -/
def Supplied (g now : Nodes Shifter) (r : NodeRef) : Prop :=
  ∀ j, Nodes.Uses g r (.fileInput j) → Timely (now.files j) (.processFrame [])

section Node

variable {g now : Nodes Shifter} {r : NodeRef} {k : ℕ}

/-- A node that is not touched stays where it is. -/
theorem NodeAt.congr {now' : Nodes Shifter} (h : NodeAt fx g now r k)
    (hsame : ∀ s, Nodes.Uses g r s → SameNode now now' s) : NodeAt fx g now' r k where
  processed := by rw [(hsame r (.inl rfl)).base, h.processed]
  files := fun j hj => by
    have hfile : now'.files j = now.files j := hsame _ hj
    rw [hfile]
    exact h.files j hj
  temp := fun i hi => by
    subst hi
    have hmixer : now'.mixers i = now.mixers i := hsame _ (.inl rfl)
    rw [hmixer]
    exact h.temp i rfl

/-- The sums of a mixer. -/
theorem sums_eq {i : ℕ} (hgraph : Nodes.SameGraph g now) (h : NodeAt fx g now (.mixer i) k)
    (hsupplied : Supplied g now (.mixer i)) :
    (now.mixers i).sums fx now.files = (List.range SAMPLES_PER_FRAME).map fun sample =>
      ((g.mixers i).inputs.map fun j => fileSample fx (g.files j) k sample).sum := by
  unfold MixerNode.sums
  refine List.map_congr_left fun sample _ => ?_
  rw [MixerNode.sum_frames, hgraph.inputs]
  refine congrArg List.sum (List.map_congr_left fun j hj => ?_)
  have huses : Nodes.Uses g (.mixer i) (.fileInput j) := .inr ⟨i, j, rfl, hj, rfl⟩
  exact ((h.files j huses).input (hsupplied j huses)).1 sample

/-- A node that has a frame left plays it. -/
theorem NodeAt.processFrame (hfx : fx.toEffects.InPlace) (hgraph : Nodes.SameGraph g now)
    (haudio : r.IsAudio) (h : NodeAt fx g now r k) (hmore : k < (g.base r).totalFrames)
    (hsounding : ∀ i, r = .mixer i → Sounding g i) (hsupplied : Supplied g now r) :
    (now.processFrame fx r (List.replicate FRAME_SIZE_BYTES 0)).result = .ok () ∧
      (now.processFrame fx r (List.replicate FRAME_SIZE_BYTES 0)).frameBuffer =
        nodeFrame fx g r k ∧
      NodeAt fx g (now.processFrame fx r (List.replicate FRAME_SIZE_BYTES 0)).node r (k + 1) := by
  have hspec := now.processFrame_spec fx r (List.replicate FRAME_SIZE_BYTES 0)
  have hcount : (now.processFrame fx r (List.replicate FRAME_SIZE_BYTES 0)).result = .ok () →
      ((now.processFrame fx r (List.replicate FRAME_SIZE_BYTES 0)).node.base r).processedFrames =
        (k + 1 : ℕ) := fun hok => by rw [hspec.ok hok, h.processed, Nat.cast_succ]
  cases r with
  | fileInput i =>
    have hfile := h.files i (.inl rfl)
    have hended : ¬Ended (now.files i) := by
      rw [hfile.ended_iff, filePlayed]
      change (k : ℤ) < (g.files i).base.totalFrames at hmore
      split <;> omega
    obtain ⟨hk, hnext⟩ := filePlayed_succ hfile hended
    rw [hk] at hfile
    obtain ⟨hok, hframe, hplayed⟩ :=
      hfile.call hended List.length_replicate (hsupplied i (.inl rfl))
    refine ⟨hok, hframe, hcount hok, fun j hj => ?_, nofun⟩
    obtain hself | ⟨_, _, hmixer, -⟩ := hj
    · cases hself
      have hnode : (now.processFrame fx (.fileInput i) (List.replicate FRAME_SIZE_BYTES 0)).node.files
          i = _ := Function.update_self i _ now.files
      rw [hnext, hnode]
      exact hplayed
    · cases hmixer
  | mixer i =>
    have hsound := hsounding i rfl
    have hnodup : (now.mixers i).inputs.Nodup := by rw [hgraph.inputs]; exact hsound.nodup
    have hinput := fun j (hj : j ∈ (g.mixers i).inputs) =>
      (h.files j (.inr ⟨i, j, rfl, hj, rfl⟩)).input (hsupplied j (.inr ⟨i, j, rfl, hj, rfl⟩))
    have hactive : (now.mixers i).frames fx now.files ≠ [] := by
      obtain ⟨j, hj, hlasts⟩ := hsound.lasts
      obtain ⟨frame, hframe⟩ := Option.isSome_iff_exists.mp ((hinput j hj).2.1.mpr
        fun hover => hlasts ⟨hover.1, hover.2.trans_lt hmore⟩)
      refine List.ne_nil_of_mem (List.mem_filterMap.mpr ⟨j, ?_, hframe⟩)
      rw [hgraph.inputs]
      exact hj
    have hmix := MixerNode.processFrame_spec hfx (List.replicate FRAME_SIZE_BYTES 0) hnodup
      (h.temp i rfl) hactive
    refine ⟨hmix.ok, ?_, hcount hmix.ok, fun j hj => ?_, fun j hj => ?_⟩
    · exact hmix.clipped.trans (congrArg (fun sums => AudioMath.compressAndExport fx.compress sums _)
        (sums_eq hgraph h hsupplied))
    · obtain hself | ⟨_, _, hmixer, hinputs, hfile⟩ := hj
      · cases hself
      · cases hmixer
        cases hfile
        change FileAt fx _ _ (((now.mixers i).processFrame fx now.files _).node.2 j)
        rw [hmix.called]
        dsimp only
        rw [if_pos (by rw [hgraph.inputs]; exact hinputs)]
        exact (hinput j hinputs).2.2
    · cases hj
      have hnode : (now.processFrame fx (.mixer i) (List.replicate FRAME_SIZE_BYTES 0)).node.mixers
          i = _ := Function.update_self i _ now.mixers
      rw [hnode]
      exact length_tempInputBuffer hfx hnodup (h.temp i rfl) _
  | delay i =>
    refine ⟨rfl, ?_, hcount rfl, fun j hj => ?_, nofun⟩
    · simp only [Nodes.processFrame, DelayNode.processFrame, List.length_replicate, nodeFrame]
    · obtain hself | ⟨_, _, hmixer, -⟩ := hj
      · cases hself
      · cases hmixer
  | clients i | fileOptions i => exact haudio.elim

end Node

/-- A chain of nodes of which each has frames of its own. -/
structure Playable (g : Nodes Shifter) (chain : List NodeRef) : Prop where
  /-- Every node has frames to play. -/
  audio : ∀ r ∈ chain, r.IsAudio ∧ 1 ≤ (g.base r).totalFrames
  /-- Every mixer has an input for each of its frames. -/
  sounding : ∀ i, .mixer i ∈ chain → Sounding g i
  /-- No two nodes use one file. -/
  apart : chain.Pairwise fun r r' => ∀ s, Nodes.Uses g r s → ¬Nodes.Uses g r' s
  /-- The files have been opened. -/
  opened : ∀ i, (g.files i).base.totalFrames = (g.files i).openedFrames

/-- A session at the start of its loop, with the files that it needs. -/
structure Scored (fx : FloatOps Shifter) (chain : List NodeRef) (s : State Shifter) : Prop where
  /-- The session runs. -/
  running : s.isRunning = true
  /-- The chain starts at the current node. -/
  leads : NextChain s.executor.nodes s.executor.currentNode chain
  /-- There is a node to play. -/
  nonempty : chain ≠ []
  /-- The chain can be played. -/
  playable : Playable s.executor.nodes chain
  /-- Its nodes have played nothing. -/
  nodes : ∀ r ∈ chain, NodeAt fx s.executor.nodes s.executor.nodes r 0
  /-- The buffer has the size of a frame. -/
  buffer : s.pcmBuffer.length = FRAME_SIZE_BYTES
  /-- Nothing has been sent. -/
  sent : s.sent = []

/-- The guard of runs whose nodes are served: the refills are in time, and the file system
reads and closes. -/
def Served (s : State Shifter) : Dispatch.Event → Prop
  | .frame faults => ∀ current ∈ s.executor.currentNode,
      Supplied s.executor.nodes s.executor.nodes current ∧
        ∀ j, Nodes.Uses s.executor.nodes current (.fileInput j) → faults j = none
  | .task _ t => Reads t

/-- The session has played the first nodes and `k` frames of the current one. -/
structure Performing (fx : FloatOps Shifter) (g : Nodes Shifter) (played : List NodeRef)
    (current : NodeRef) (rest : List NodeRef) (k : ℕ) (s : State Shifter) : Prop where
  /-- The session runs. -/
  running : s.isRunning = true
  /-- The graph is the one it started with. -/
  graph : Nodes.SameGraph g s.executor.nodes
  /-- This node is current. -/
  currentNode : s.executor.currentNode = some current
  /-- The nodes left follow it. -/
  leads : NextChain g (g.base current).target rest
  /-- The node has frames left. -/
  more : k < (g.base current).totalFrames
  /-- It has played so many. -/
  playing : NodeAt fx g s.executor.nodes current k
  /-- The others have played nothing. -/
  waiting : ∀ r ∈ rest, NodeAt fx g s.executor.nodes r 0
  /-- The buffer has the size of a frame. -/
  buffer : s.pcmBuffer.length = FRAME_SIZE_BYTES
  /-- What has been sent is the timeline of the nodes played. -/
  sent : s.sent = timeline fx g played ++ (List.range k).map (nodeFrame fx g current)

section Tick

variable {s s' : State Shifter} {faults : ℕ → Option String} {g : Nodes Shifter}
  {played rest : List NodeRef} {current : NodeRef} {k : ℕ}

/-- The buffer after a tick is its frame. -/
theorem pcmBuffer_tick :
    (processAndStreamSingleFrame fx s faults).pcmBuffer = (nextFrame fx s faults).outputBuffer := by
  unfold processAndStreamSingleFrame
  dsimp only
  split <;> rfl

/-- Sameness of a node composes. -/
theorem SameNode.trans {a b c : Nodes Shifter} {r : NodeRef} (h : SameNode a b r)
    (h' : SameNode b c r) : SameNode a c r := by
  cases r <;> exact Eq.trans h' h

/-- Clipping keeps the length of the frame. -/
theorem length_compressAndExport (compress : ℤ → ℤ) {accumulator : List ℤ}
    {outputBytes : List UInt8} (h : outputBytes.length = 2 * accumulator.length) :
    (AudioMath.compressAndExport compress accumulator outputBytes).length =
      outputBytes.length := by
  have hcount : outputBytes.length / 2 = accumulator.length := by omega
  unfold AudioMath.compressAndExport
  dsimp only
  rw [hcount, List.take_length, List.length_append, List.length_flatMap, List.length_drop]
  simp only [length_storeLE, List.map_const', List.sum_replicate_nat]
  omega

/-- Every frame has the size of one. -/
theorem length_nodeFrame (hfx : fx.toEffects.InPlace) (haudio : current.IsAudio) (k : ℕ) :
    (nodeFrame fx g current k).length = FRAME_SIZE_BYTES := by
  cases current with
  | fileInput i =>
    rw [nodeFrame, fileFrame, passFrame]
    unfold CleanEpoch.applyEffects
    split
    · exact length_frameAt _ _
    · exact (hfx _ _ _).trans (length_frameAt _ _)
  | mixer i =>
    rw [nodeFrame, mixedFrame, length_compressAndExport, List.length_replicate]
    rw [List.length_replicate, List.length_map, List.length_range]
    rfl
  | delay i => rw [nodeFrame, List.length_replicate]
  | clients i | fileOptions i => exact haudio.elim

/-- What the call of `process_frame` at a tick gives. -/
structure Called (fx : FloatOps Shifter) (g : Nodes Shifter) (current : NodeRef) (k : ℕ)
    (s : State Shifter) (p : Processed (Nodes Shifter)) : Prop where
  /-- The call is the one of the current node. -/
  call : s.executor.nodes.processFrame fx current (List.replicate s.pcmBuffer.length 0) = p
  /-- It succeeds. -/
  ok : p.result = .ok ()
  /-- Its frame is the timeline's. -/
  frame : p.frameBuffer = nodeFrame fx g current k
  /-- The node has played one frame more. -/
  playing : NodeAt fx g p.node current (k + 1)
  /-- The graph is the one it started with. -/
  graph : Nodes.SameGraph g p.node
  /-- Nodes that are not used stay as they are. -/
  others : ∀ r, ¬Nodes.Uses g current r → SameNode s.executor.nodes p.node r

/-- The call on a node that has a frame left. -/
theorem exists_called (hfx : fx.toEffects.InPlace) {chain : List NodeRef}
    (hplayable : Playable g chain) (hcurrent : current ∈ chain)
    (hgraph : Nodes.SameGraph g s.executor.nodes) (hplaying : NodeAt fx g s.executor.nodes current k)
    (hmore : k < (g.base current).totalFrames) (hbuffer : s.pcmBuffer.length = FRAME_SIZE_BYTES)
    (hsupplied : Supplied g s.executor.nodes current) : ∃ p, Called fx g current k s p := by
  obtain ⟨hok, hframe, hnext⟩ := hplaying.processFrame hfx hgraph
    (hplayable.audio current hcurrent).1 hmore (fun i hi => hplayable.sounding i (hi ▸ hcurrent))
    hsupplied
  have hspec := s.executor.nodes.processFrame_spec fx current (List.replicate FRAME_SIZE_BYTES 0)
  exact ⟨_, by rw [hbuffer], hok, hframe, hnext, hgraph.trans hspec.graph, fun r hr =>
    sameNode_processFrame _ (mt hgraph.uses_iff.mp hr)⟩

/-- A tick within a node. -/
theorem Called.stays {p : Processed (Nodes Shifter)} (hp : Called fx g current k s p)
    (hbuffer : s.pcmBuffer ≠ []) (hcurrent : s.executor.currentNode = some current)
    (hrunning : s.isRunning = true) (hmore : (k + 1 : ℕ) < (g.base current).totalFrames) :
    (processAndStreamSingleFrame fx s faults).executor.nodes = p.node ∧
      (processAndStreamSingleFrame fx s faults).executor.currentNode = some current ∧
      (processAndStreamSingleFrame fx s faults).isRunning = true ∧
      (processAndStreamSingleFrame fx s faults).sent = s.sent ++ [nodeFrame fx g current k] ∧
      (processAndStreamSingleFrame fx s faults).pcmBuffer = nodeFrame fx g current k := by
  have hincomplete : (p.node.base current).isComplete = false := by
    rw [NodeBase.isComplete, hp.playing.processed, hp.graph.totalFrames, Bool.and_eq_false_iff]
    exact .inr (by simpa using hmore)
  have hnext := @nextFrame_of_incomplete _ fx s faults current hbuffer hcurrent p
    hp.call hp.ok hincomplete
  obtain ⟨hnodes, hcurrent'⟩ := @processAndStreamSingleFrame_executor _ fx s faults
  have hrunning' := @isRunning_tick _ fx s faults hrunning
  have hsent := @processAndStreamSingleFrame_sent _ fx s faults
  have hpcm := @pcmBuffer_tick _ fx s faults
  rw [hnext] at hnodes hcurrent' hrunning' hsent hpcm
  dsimp only at hnodes hcurrent' hrunning' hsent hpcm
  rw [hp.frame] at hsent hpcm
  exact ⟨hnodes, hcurrent', hrunning', hsent.trans (if_pos rfl), hpcm⟩

/-- After its last frame a node is complete. -/
theorem Called.isComplete {p : Processed (Nodes Shifter)} (hp : Called fx g current k s p)
    (hlast : (g.base current).totalFrames = (k + 1 : ℕ)) :
    (p.node.base current).isComplete = true := by
  rw [NodeBase.isComplete, hp.playing.processed, hp.graph.totalFrames, hlast, Bool.and_eq_true,
    decide_eq_true_iff, decide_eq_true_iff]
  exact ⟨by omega, le_rfl⟩

/-- The tick at the end of a node, which is closed. -/
theorem Called.closes {p : Processed (Nodes Shifter)} (hp : Called fx g current k s p)
    (hbuffer : s.pcmBuffer ≠ []) (hcurrent : s.executor.currentNode = some current)
    (hrunning : s.isRunning = true) (hlast : (g.base current).totalFrames = (k + 1 : ℕ))
    (hclosed : (p.node.close fx current faults).2 = .ok ()) :
    (processAndStreamSingleFrame fx s faults).executor.nodes = (p.node.close fx current faults).1 ∧
      (processAndStreamSingleFrame fx s faults).executor.currentNode = (g.base current).target ∧
      (processAndStreamSingleFrame fx s faults).isRunning = (g.base current).target.isSome ∧
      (processAndStreamSingleFrame fx s faults).sent =
        (if (g.base current).target.isSome = true then s.sent ++ [nodeFrame fx g current k]
          else s.sent) ∧
      (processAndStreamSingleFrame fx s faults).pcmBuffer = nodeFrame fx g current k := by
  obtain ⟨hnodes₁, hcurrent₁, hcontinue, -, houtput⟩ :=
    nextFrame_of_closed hbuffer hcurrent hp.call hp.ok (hp.isComplete hlast) hclosed
  obtain ⟨hnodes, hcurrent'⟩ := @processAndStreamSingleFrame_executor _ fx s faults
  have hrunning' := @isRunning_tick _ fx s faults hrunning
  have hsent := @processAndStreamSingleFrame_sent _ fx s faults
  have hpcm := @pcmBuffer_tick _ fx s faults
  have hgraph := hp.graph.trans (p.node.close_spec fx current faults).graph
  rw [hcurrent₁, hgraph.target] at hcurrent' hcontinue
  rw [hcontinue] at hrunning' hsent
  rw [houtput, hp.frame] at hsent hpcm
  exact ⟨hnodes.trans hnodes₁, hcurrent', hrunning', hsent, hpcm⟩

/-- A served tick calls its node as the timeline says. -/
theorem Performing.called (hfx : fx.toEffects.InPlace) {chain : List NodeRef}
    (hplayable : Playable g chain) (hcurrent : current ∈ chain)
    (h : Performing fx g played current rest k s) (hserved : Served s (.frame faults)) :
    ∃ p, Called fx g current k s p :=
  exists_called hfx hplayable hcurrent h.graph h.playing h.more h.buffer fun j hj =>
    (hserved current h.currentNode).1 j (h.graph.uses_iff.mpr hj)

/-- The buffer is not empty. -/
theorem buffer_ne_nil (h : s.pcmBuffer.length = FRAME_SIZE_BYTES) : s.pcmBuffer ≠ [] := by
  rintro hempty
  rw [hempty] at h
  cases h

/-- The nodes that wait do not use what the current one does. -/
theorem not_uses_of_waiting (hplayable : Playable g (played ++ current :: rest)) {r q : NodeRef}
    (hr : r ∈ rest) (hq : Nodes.Uses g r q) : ¬Nodes.Uses g current q := by
  have hapart := (List.pairwise_append.mp hplayable.apart).2.1
  exact fun huses => (List.pairwise_cons.mp hapart).1 r hr q huses hq

/-- A tick within a node. -/
theorem Performing.stays (hfx : fx.toEffects.InPlace)
    (hplayable : Playable g (played ++ current :: rest))
    (h : Performing fx g played current rest k s) (hserved : Served s (.frame faults))
    (hmore : (k + 1 : ℕ) < (g.base current).totalFrames) :
    Performing fx g played current rest (k + 1) (processAndStreamSingleFrame fx s faults) := by
  have hmem : current ∈ played ++ current :: rest :=
    List.mem_append_right _ List.mem_cons_self
  obtain ⟨p, hp⟩ := h.called hfx hplayable hmem hserved
  obtain ⟨hnodes, hcurrent, hrunning, hsent, hpcm⟩ :=
    @Called.stays _ _ _ faults _ _ _ p hp (buffer_ne_nil h.buffer) h.currentNode h.running hmore
  refine ⟨hrunning, hnodes ▸ hp.graph, hcurrent, h.leads, hmore, hnodes ▸ hp.playing, ?_, ?_, ?_⟩
  · intro r hr
    rw [hnodes]
    exact (h.waiting r hr).congr fun q hq => hp.others q (not_uses_of_waiting hplayable hr hq)
  · rw [hpcm, length_nodeFrame hfx (hplayable.audio current hmem).1]
  · rw [hsent, h.sent, List.range_succ, List.map_append, List.append_assoc]
    rfl

/-- The frames of a node, at its last one. -/
theorem nodeFrames_succ {r : NodeRef} {k : ℕ} (hlast : (g.base r).totalFrames = (k + 1 : ℕ)) :
    nodeFrames fx g r = (List.range k).map (nodeFrame fx g r) ++ [nodeFrame fx g r k] := by
  rw [nodeFrames, hlast, Int.toNat_natCast, List.range_succ, List.map_append, List.map_singleton]

/-- The timeline of two chains is those of each. -/
theorem timeline_append (chain chain' : List NodeRef) :
    timeline fx g (chain ++ chain') = timeline fx g chain ++ timeline fx g chain' :=
  List.flatMap_append

/-- The last node's frames end the timeline. -/
theorem timeline_snoc (played : List NodeRef) (r : NodeRef) :
    timeline fx g (played ++ [r]) = timeline fx g played ++ nodeFrames fx g r := by
  rw [timeline_append, timeline, timeline, List.flatMap_singleton]

/-- The tick at the end of a node. -/
theorem Performing.closes (hfx : fx.toEffects.InPlace)
    (hplayable : Playable g (played ++ current :: rest))
    (h : Performing fx g played current rest k s) (hserved : Served s (.frame faults))
    (hlast : (g.base current).totalFrames = (k + 1 : ℕ)) :
    (rest = [] ∧ (processAndStreamSingleFrame fx s faults).isRunning = false ∧
        (processAndStreamSingleFrame fx s faults).sent = s.sent) ∨
      ∃ next after, rest = next :: after ∧
        Performing fx g (played ++ [current]) next after 0
          (processAndStreamSingleFrame fx s faults) := by
  have hmem : current ∈ played ++ current :: rest :=
    List.mem_append_right _ List.mem_cons_self
  obtain ⟨p, hp⟩ := h.called hfx hplayable hmem hserved
  have hclosed : (p.node.close fx current faults).2 = .ok () := close_ok fun j hj =>
    (hserved current h.currentNode).2 j (h.graph.uses_iff.mpr (hp.graph.uses_iff.mp hj))
  obtain ⟨hnodes, hcurrent, hrunning, hsent, hpcm⟩ :=
    hp.closes (buffer_ne_nil h.buffer) h.currentNode h.running hlast hclosed
  have hgraph := hp.graph.trans (p.node.close_spec fx current faults).graph
  have hleads := h.leads
  cases htarget : (g.base current).target with
  | none =>
    rw [htarget] at hleads hrunning hsent
    refine .inl ⟨?_, hrunning, hsent.trans (if_neg Bool.false_ne_true)⟩
    cases rest with
    | nil => rfl
    | cons => exact hleads.elim
  | some next =>
    rw [htarget] at hleads hrunning hsent hcurrent
    obtain ⟨after, rfl, hafter⟩ := hleads.of_some
    have hwaiting : ∀ r ∈ next :: after,
        NodeAt fx g (processAndStreamSingleFrame fx s faults).executor.nodes r 0 := by
      intro r hr
      rw [hnodes]
      refine (h.waiting r hr).congr fun q hq => ?_
      have huses := not_uses_of_waiting hplayable hr hq
      exact (hp.others q huses).trans (sameNode_close faults (mt hp.graph.uses_iff.mp huses))
    obtain ⟨hplaying, hwaiting⟩ := List.forall_mem_cons.mp hwaiting
    have htotal := (hplayable.audio next (by simp)).2
    refine .inr ⟨next, after, rfl, hrunning, hnodes ▸ hgraph, hcurrent, hafter, ?_, hplaying,
      hwaiting, ?_, ?_⟩
    · exact Int.lt_of_lt_of_le Int.zero_lt_one htotal
    · rw [hpcm, length_nodeFrame hfx (hplayable.audio current hmem).1]
    · rw [hsent, if_pos Option.isSome_some, h.sent, timeline_snoc, nodeFrames_succ hlast,
        List.append_assoc]
      exact (List.append_nil _).symm

/-- A step of a coroutine. -/
theorem Performing.task (hplayable : Playable g (played ++ current :: rest))
    (h : Performing fx g played current rest k s) {i : ℕ} {t : Task} (hreads : Reads t)
    (hstep : step fx s (.task i t) = some s') : Performing fx g played current rest k s' := by
  obtain ⟨hgraph, hbases, hcurrent, hsent, hrunning⟩ := task_same h.graph hplayable.opened hstep
  obtain ⟨n, hrun, rfl⟩ := Option.map_eq_some_iff.mp hstep
  have hopened : (s.executor.nodes.files i).base.totalFrames =
      (s.executor.nodes.files i).openedFrames := by
    have htotal := h.graph.totalFrames (.fileInput i)
    simp only [Nodes.base] at htotal
    rw [htotal, hplayable.opened, openedFrames, openedFrames, h.graph.file]
  have hnode : ∀ {r : NodeRef} {k : ℕ}, NodeAt fx g s.executor.nodes r k →
      NodeAt fx g { s.executor.nodes with
        files := Function.update s.executor.nodes.files i n } r k := by
    intro r k hr
    refine ⟨by rw [hbases, hr.processed], fun j hj => ?_, hr.temp⟩
    rcases eq_or_ne j i with rfl | hji
    · change FileAt fx _ _ (Function.update s.executor.nodes.files j n j)
      rw [Function.update_self]
      exact (hr.files j hj).task hreads hopened hrun
    · change FileAt fx _ _ (Function.update s.executor.nodes.files i n j)
      rw [Function.update_of_ne hji]
      exact hr.files j hj
  exact ⟨h.running, hgraph, h.currentNode, h.leads, h.more, hnode h.playing,
    fun r hr => hnode (h.waiting r hr), h.buffer, h.sent⟩

end Tick

section Run

variable {g : Nodes Shifter} {chain : List NodeRef} {s s' t : State Shifter}

/-- What the session has done after so many ticks. -/
def PlayedTo (fx : FloatOps Shifter) (g : Nodes Shifter) (chain : List NodeRef) (ticks : ℕ)
    (s : State Shifter) : Prop :=
  (∃ played current rest k, chain = played ++ current :: rest ∧
      ticks = (timeline fx g played).length + k ∧ Performing fx g played current rest k s) ∨
    ticks = (timeline fx g chain).length ∧ s.isRunning = false ∧
      s.sent = (timeline fx g chain).dropLast

/-- A tick plays one more frame. -/
theorem PlayedTo.tick (hfx : fx.toEffects.InPlace) (hplayable : Playable g chain) {ticks : ℕ}
    (h : PlayedTo fx g chain ticks s) {faults : ℕ → Option String}
    (hserved : Served s (.frame faults)) (hstep : step fx s (.frame faults) = some s') :
    PlayedTo fx g chain (ticks + 1) s' := by
  simp only [Dispatch.step] at hstep
  split at hstep
  · rename_i hrunning
    cases hstep
    rcases h with ⟨played, current, rest, k, rfl, rfl, hperforming⟩ | ⟨-, hstopped, -⟩
    · have hmore := hperforming.more
      by_cases hlast : (k + 1 : ℕ) < (g.base current).totalFrames
      · exact .inl ⟨played, current, rest, k + 1, rfl, rfl,
          hperforming.stays hfx hplayable hserved hlast⟩
      · have htotal : (g.base current).totalFrames = (k + 1 : ℕ) := by omega
        have hframes := @nodeFrames_succ _ fx g current k htotal
        rcases hperforming.closes hfx hplayable hserved htotal with
          ⟨rfl, hstopped, hsent⟩ | ⟨next, after, rfl, hnext⟩
        · -- the last frame of the chain is not sent
          refine .inr ⟨?_, hstopped, ?_⟩
          · rw [timeline_snoc, hframes]
            simp only [List.length_append, List.length_map, List.length_range,
              List.length_singleton]
            omega
          · rw [hsent, hperforming.sent, timeline_snoc, hframes, ← List.append_assoc,
              List.dropLast_concat]
        · refine .inl ⟨played ++ [current], next, after, 0, ?_, ?_, hnext⟩
          · rw [List.append_assoc, List.singleton_append]
          · rw [timeline_snoc, hframes]
            simp only [List.length_append, List.length_map, List.length_range,
              List.length_singleton]
            omega
    · cases hrunning.symm.trans hstopped
  · cases hstep

/-- A step of a coroutine plays none. -/
theorem PlayedTo.task (hplayable : Playable g chain) {ticks : ℕ}
    (h : PlayedTo fx g chain ticks s) {i : ℕ} {task : Task} (hreads : Reads task)
    (hstep : step fx s (.task i task) = some s') : PlayedTo fx g chain ticks s' := by
  rcases h with ⟨played, current, rest, k, rfl, rfl, hperforming⟩ | ⟨hall, hstopped, hsent⟩
  · exact .inl ⟨played, current, rest, k, rfl, rfl, hperforming.task hplayable hreads hstep⟩
  · obtain ⟨n, -, rfl⟩ := Option.map_eq_some_iff.mp hstep
    exact .inr ⟨hall, hstopped, hsent⟩

/-- A run plays as many frames as it has ticks. -/
theorem PlayedTo.run (hfx : fx.toEffects.InPlace) (hplayable : Playable g chain) {ticks : ℕ}
    (h : PlayedTo fx g chain ticks s) {es : List Dispatch.Event}
    (hserved : Meets (step fx) Served s es) (hrun : runEvents (step fx) s es = some t) :
    PlayedTo fx g chain (ticks + es.countP Dispatch.Event.isFrame) t := by
  induction es generalizing s ticks with
  | nil =>
    cases hrun
    exact h
  | cons e es ih =>
    obtain ⟨s', hstep, hrest⟩ := runEvents_cons_iff.mp hrun
    cases e with
    | frame faults =>
      have hnext := ih (h.tick hfx hplayable hserved.1 hstep) (hserved.2 s' hstep) hrest
      rw [List.countP_cons_of_pos rfl, ← Nat.add_assoc, Nat.add_right_comm]
      exact hnext
    | task i task =>
      rw [List.countP_cons_of_neg (by simp [Dispatch.Event.isFrame])]
      exact ih (h.task hplayable hserved.1 hstep) (hserved.2 s' hstep) hrest

/-- The timeline goes on where the current node has a frame left. -/
theorem exists_timeline_eq {played rest : List NodeRef} {current : NodeRef} {k : ℕ}
    (hmore : k < (g.base current).totalFrames)
    (hsent : s.sent = timeline fx g played ++ (List.range k).map (nodeFrame fx g current)) :
    ∃ frame more, timeline fx g (played ++ current :: rest) = s.sent ++ frame :: more := by
  obtain ⟨m, hm⟩ : ∃ m, (g.base current).totalFrames.toNat = k + (m + 1) :=
    ⟨(g.base current).totalFrames.toNat - k - 1, by omega⟩
  refine ⟨nodeFrame fx g current k, (List.range m).map (fun i => nodeFrame fx g current (k + (i + 1)))
    ++ timeline fx g rest, ?_⟩
  rw [hsent, timeline, List.flatMap_append, List.flatMap_cons, nodeFrames, hm, List.range_add,
    List.map_append, List.map_map, List.range_succ_eq_map, List.map_cons, List.map_map]
  simp [timeline, Function.comp_def]

/-- The session starts before its first frame. -/
theorem playedTo_start {start : State Shifter} (hscored : Scored fx chain start) :
    PlayedTo fx start.executor.nodes chain 0 start := by
  have hleads := hscored.leads
  have hnodes := hscored.nodes
  cases hcurrent : start.executor.currentNode with
  | none =>
    rw [hcurrent] at hleads
    cases chain with
    | nil => exact absurd rfl hscored.nonempty
    | cons => exact hleads.elim
  | some current =>
    rw [hcurrent] at hleads
    obtain ⟨rest, rfl, hafter⟩ := hleads.of_some
    obtain ⟨hplaying, hwaiting⟩ := List.forall_mem_cons.mp hnodes
    have htotal := (hscored.playable.audio current List.mem_cons_self).2
    exact .inl ⟨[], current, rest, 0, rfl, rfl, hscored.running, .refl _, hcurrent, hafter,
      Int.lt_of_lt_of_le Int.zero_lt_one htotal, hplaying, hwaiting, hscored.buffer, hscored.sent⟩

/-- What has been sent then, and whether the loop has returned. -/
theorem PlayedTo.sent {ticks : ℕ} (h : PlayedTo fx g chain ticks s) :
    s.sent = (timeline fx g chain).dropLast.take ticks ∧
      (s.isRunning = true ↔ ticks < (timeline fx g chain).length) := by
  rcases h with ⟨played, current, rest, k, rfl, hticks, hperforming⟩ | ⟨hall, hstopped, hsent⟩
  · obtain ⟨frame, more, htimeline⟩ :=
      @exists_timeline_eq _ fx g s played rest current k hperforming.more hperforming.sent
    have hlength := congrArg List.length hperforming.sent
    rw [List.length_append, List.length_map, List.length_range, ← hticks] at hlength
    rw [htimeline, List.dropLast_append_of_ne_nil (List.cons_ne_nil _ _), List.length_append, hlength]
    refine ⟨(List.take_left' hlength).symm, iff_of_true hperforming.running ?_⟩
    rw [List.length_cons]
    omega
  · rw [hsent, hall, List.take_of_length_le (by rw [List.length_dropLast]; omega), hstopped]
    exact ⟨rfl, iff_of_false Bool.false_ne_true (lt_irrefl _)⟩

/-- A session whose nodes are served plays the timeline of its graph: after `n` ticks it has
sent the first `n` frames, but for the very last one, and its loop has returned if and only
if the timeline is over. -/
theorem plays_timeline (hfx : fx.toEffects.InPlace) {start : State Shifter}
    (hscored : Scored fx chain start) {es : List Dispatch.Event}
    (hserved : Meets (step fx) Served start es) (hrun : runEvents (step fx) start es = some t) :
    t.sent = (timeline fx start.executor.nodes chain).dropLast.take
        (es.countP Dispatch.Event.isFrame) ∧
      (t.isRunning = true ↔
        es.countP Dispatch.Event.isFrame < (timeline fx start.executor.nodes chain).length) := by
  have hplayed := (playedTo_start hscored).run hfx hscored.playable hserved hrun
  rw [Nat.zero_add] at hplayed
  exact hplayed.sent

/-- The call at a tick of a session that performs reports no error. -/
theorem PlayedTo.status (hfx : fx.toEffects.InPlace) (hplayable : Playable g chain) {ticks : ℕ}
    (h : PlayedTo fx g chain ticks s) (hrunning : s.isRunning = true)
    {faults : ℕ → Option String} (hserved : Served s (.frame faults)) :
    (nextFrame fx s faults).status = successStatus := by
  rcases h with ⟨played, current, rest, k, rfl, -, h⟩ | ⟨-, hstopped, -⟩
  · have hmem : current ∈ played ++ current :: rest :=
      List.mem_append_right _ List.mem_cons_self
    obtain ⟨p, hp⟩ := h.called hfx hplayable hmem hserved
    cases hcomplete : (p.node.base current).isComplete with
    | false =>
      rw [nextFrame_of_incomplete (buffer_ne_nil h.buffer) h.currentNode hp.call hp.ok hcomplete]
    | true =>
      have hclosed : (p.node.close fx current faults).2 = .ok () := close_ok fun j hj =>
        (hserved current h.currentNode).2 j (h.graph.uses_iff.mpr (hp.graph.uses_iff.mp hj))
      exact (nextFrame_of_closed (buffer_ne_nil h.buffer) h.currentNode hp.call hp.ok hcomplete
        hclosed).2.2.2.1
  · cases hrunning.symm.trans hstopped

end Run

end HermesFlow.Audio.Timeline
