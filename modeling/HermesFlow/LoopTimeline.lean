import HermesFlow.LoopFlags
import HermesFlow.SessionStats
import HermesFlow.SessionTimeline

/-!
# The timeline of a loop

A chain that comes back to one of its nodes never ends. A node of the loop is closed at the end
of its frames and opened again, so where its refills are over by then, and its buffer is filled
before it is played again, the session plays the frames of the nodes before the loop, then those
of the loop over and over.
-/

namespace HermesFlow.Audio.LoopTimeline

open Dispatch EventRun FileInputNode
open CleanEpoch (Filled InPass Reads Refilled Reopening bare reopening_close)
open FunctionalGraph (Lasso)
open Timeline

variable {Shifter : Type} {fx : FloatOps Shifter}

/-- A file of a loop that has been closed, and is opened again for its next pass. -/
structure Reopened (start n : FileInputNode Shifter) : Prop where
  /-- The options are the same. -/
  options : n.options = start.options
  /-- The total is the same. -/
  total : n.base.totalFrames = start.base.totalFrames
  /-- The pitch shifter is as it was. -/
  shifter : n.pitchShifter = start.pitchShifter
  /-- The file is opened again from its start. -/
  pass : ∃ file, start.file = some file ∧ Reopening file (bare n)

/-- A file of the graph has played `k` frames of a pass, or is opened again for one. -/
def FileNow (fx : FloatOps Shifter) (start : FileInputNode Shifter) (k : ℕ)
    (n : FileInputNode Shifter) : Prop :=
  FileAt fx start k n ∨ k = 0 ∧ Reopened start n

section File

variable {start n n' : FileInputNode Shifter} {k : ℕ}

/-- A pass goes on only when the buffer has been filled. -/
theorem FileNow.fileAt (h : FileNow fx start k n) (hfilled : Filled n) : FileAt fx start k n := by
  rcases h with hat | ⟨-, hreopened⟩
  · exact hat
  · obtain ⟨file, -, hreopening⟩ := hreopened.pass
    exact absurd hfilled hreopening.not_filled

/-- It is the file of the graph. -/
theorem FileNow.source (h : FileNow fx start k n) :
    n.options = start.options ∧ n.base.totalFrames = start.base.totalFrames ∧
      ∃ file, start.file = some file := by
  rcases h with hat | ⟨-, hreopened⟩
  · obtain ⟨file, hfile, -⟩ := hat.pass
    exact ⟨hat.options, hat.total, file, hfile⟩
  · obtain ⟨file, hfile, -⟩ := hreopened.pass
    exact ⟨hreopened.options, hreopened.total, file, hfile⟩

/-- A coroutine plays nothing. -/
theorem FileNow.task (h : FileNow fx start k n) {t : Task} (hreads : Reads t)
    (hopened : n.base.totalFrames = n.openedFrames) (hrun : n.runTask t = some n') :
    FileNow fx start k n' := by
  rcases h with hat | ⟨hk, hreopened⟩
  · exact .inl (hat.task hreads hopened hrun)
  · obtain ⟨file, hfile, hreopening⟩ := hreopened.pass
    obtain ⟨-, -, hoptions, hshifter⟩ := runTask_frame hrun
    have htotal : n'.base.totalFrames = start.base.totalFrames := by
      rw [(runTask_base hopened hrun).2, hreopened.total]
    have hnext : InPass fx.toEffects start.options start.pitchShifter file 0 n' ∨
        Reopening file (bare n') := hreopening.task hreopened.shifter hreads hrun
    rcases hnext with hpass | hstill
    · refine .inl ⟨hoptions.trans hreopened.options, htotal, file, hfile, ?_⟩
      rw [hk]
      exact hpass
    · exact .inr ⟨hk, hoptions.trans hreopened.options, htotal,
        hshifter.trans hreopened.shifter, file, hfile, hstill⟩

/-- The close of a file in a loop whose coroutines are over. -/
theorem FileNow.close (h : FileNow fx start k n)
    (hreset : ∀ shifter, fx.reset shifter = start.pitchShifter) (hfile : n.file = start.file)
    (hloop : n.base.isInLoop = true) (hfilled : Filled n) (hrefilled : Refilled n) :
    FileNow fx start 0 (n.close fx.toEffects none).1 := by
  obtain ⟨hoptions, htotal, file, hstart⟩ := h.source
  refine .inr ⟨rfl, hoptions, htotal, hreset _, file, hstart, ?_⟩
  exact @reopening_close file (bare n) rfl (hfile.trans hstart) hloop hfilled hrefilled

end File

/-- A node has played `k` frames of a pass, or its files are opened again for one. -/
structure NodeNow (fx : FloatOps Shifter) (g now : Nodes Shifter) (r : NodeRef) (k : ℕ) : Prop where
  /-- The node has counted the frames of this pass. -/
  processed : (now.base r).processedFrames = k
  /-- Its files have played them, or are opened again. -/
  files : ∀ j, Nodes.Uses g r (.fileInput j) →
    FileNow fx (g.files j) (filePlayed (g.files j) k) (now.files j)
  /-- A mixer's buffer has the size of a frame. -/
  temp : ∀ i, r = .mixer i → (now.mixers i).tempInputBuffer.length = FRAME_SIZE_BYTES

section Node

variable {g now : Nodes Shifter} {r : NodeRef} {k : ℕ}

/-- A node in its first pass is one that plays now. -/
theorem NodeNow.of_nodeAt (h : NodeAt fx g now r k) : NodeNow fx g now r k :=
  ⟨h.processed, fun j hj => .inl (h.files j hj), h.temp⟩

/-- A node can be played once its buffers have been filled. -/
theorem NodeNow.nodeAt (h : NodeNow fx g now r k)
    (hfilled : ∀ j, Nodes.Uses g r (.fileInput j) → Filled (now.files j)) :
    NodeAt fx g now r k :=
  ⟨h.processed, fun j hj => (h.files j hj).fileAt (hfilled j hj), h.temp⟩

/-- A node that is not touched stays where it is. -/
theorem NodeNow.congr {now' : Nodes Shifter} (h : NodeNow fx g now r k)
    (hsame : ∀ s, Nodes.Uses g r s → SameNode now now' s) : NodeNow fx g now' r k where
  processed := by rw [(hsame r (.inl rfl)).base, h.processed]
  files := fun j hj => by
    have hfile : now'.files j = now.files j := hsame _ hj
    rw [hfile]
    exact h.files j hj
  temp := fun i hi => by
    subst hi
    have hmixer : now'.mixers i = now.mixers i := hsame _ (.inl rfl)
    rw [hmixer]
    exact h.temp i rfl

/-- Inputs that the file system closes are each closed once. -/
theorem closeInputs_closed {faults : ℕ → Option String} {inputs : List ℕ} (hnodup : inputs.Nodup)
    (hfaults : ∀ j ∈ inputs, faults j = none) (files : FileNodes Shifter) {j : ℕ}
    (hj : j ∈ inputs) :
    (closeInputs fx faults inputs files).1 j = ((files j).close fx.toEffects none).1 := by
  induction inputs generalizing files with
  | nil => cases hj
  | cons source inputs ih =>
    obtain ⟨hsource, hrest⟩ := List.forall_mem_cons.mp hfaults
    obtain ⟨hnot, hnodup⟩ := List.nodup_cons.mp hnodup
    rw [closeInputs, hsource]
    have hok : ((files source).close fx.toEffects none).2 = .ok () := rfl
    simp only [hok]
    rcases List.mem_cons.mp hj with rfl | hmem
    · rw [(closeInputs_files fx faults inputs _ j).2 hnot, Function.update_self]
    · rw [ih hnodup hrest _ hmem, Function.update_of_ne (ne_of_mem_of_not_mem hmem hnot)]

/-- Closing a node closes the files that it uses. -/
theorem close_files {faults : ℕ → Option String}
    (hnodup : ∀ i, r = .mixer i → (now.mixers i).inputs.Nodup)
    (hfaults : ∀ j, Nodes.Uses now r (.fileInput j) → faults j = none) {j : ℕ}
    (hj : Nodes.Uses now r (.fileInput j)) :
    (now.close fx r faults).1.files j = ((now.files j).close fx.toEffects none).1 := by
  obtain hself | ⟨i, _, rfl, hinput, hfile⟩ := hj
  · subst hself
    have hnode : (now.close fx (.fileInput j) faults).1.files j =
        ((now.files j).close fx.toEffects (faults j)).1 := Function.update_self j _ now.files
    rw [hnode, hfaults j (.inl rfl)]
  · cases hfile
    change ((now.mixers i).close fx now.files faults).1.2 j = _
    rw [MixerNode.close_files]
    exact closeInputs_closed (hnodup i rfl)
      (fun k hk => hfaults k (.inr ⟨i, k, rfl, hk, rfl⟩)) now.files hinput

/-- Closing keeps the buffers of the mixers. -/
theorem close_temp (faults : ℕ → Option String) (i : ℕ) :
    ((now.close fx r faults).1.mixers i).tempInputBuffer = (now.mixers i).tempInputBuffer := by
  cases r with
  | mixer p =>
    refine Nodes.update_component MixerNode.tempInputBuffer ?_ i
    unfold MixerNode.close
    dsimp only
    split <;> rfl
  | fileInput p | delay p | clients p | fileOptions p => rfl

/-- A node of a loop that is closed with its coroutines over is ready for its next pass. -/
theorem NodeNow.close (h : NodeNow fx g now r k) (hgraph : Nodes.SameGraph g now)
    (haudio : r.IsAudio) (hsounding : ∀ i, r = .mixer i → Sounding g i)
    {faults : ℕ → Option String}
    (hclosed : (now.close fx r faults).2 = .ok ())
    (hfiles : ∀ j, Nodes.Uses g r (.fileInput j) → faults j = none ∧
      (∀ shifter, fx.reset shifter = (g.files j).pitchShifter) ∧
      (now.files j).base.isInLoop = true ∧ Filled (now.files j) ∧ Refilled (now.files j)) :
    NodeNow fx g (now.close fx r faults).1 r 0 where
  processed := (now.close_spec fx r faults).ok haudio hclosed r (.inl rfl)
  files := fun j hj => by
    obtain ⟨-, hreset, hloop, hfilled, hrefilled⟩ := hfiles j hj
    rw [close_files (fun i hi => by rw [hgraph.inputs]; exact (hsounding i hi).nodup)
      (fun k hk => (hfiles k (hgraph.uses_iff.mp hk)).1) (hgraph.uses_iff.mpr hj), filePlayed_zero]
    exact (h.files j hj).close hreset (hgraph.file j) hloop hfilled hrefilled
  temp := fun i hi => by rw [close_temp, h.temp i hi]

/-- A coroutine plays nothing. -/
theorem NodeNow.task (h : NodeNow fx g now r k) {i : ℕ} {t : Task} {n : FileInputNode Shifter}
    (hreads : Reads t) (hopened : (now.files i).base.totalFrames = (now.files i).openedFrames)
    (hrun : (now.files i).runTask t = some n)
    (hbases : ({ now with files := Function.update now.files i n } : Nodes Shifter).base = now.base) :
    NodeNow fx g { now with files := Function.update now.files i n } r k := by
  refine ⟨by rw [hbases, h.processed], fun j hj => ?_, h.temp⟩
  change FileNow fx _ _ (Function.update now.files i n j)
  rcases eq_or_ne j i with rfl | hji
  · rw [Function.update_self]
    exact (h.files j hj).task hreads hopened hrun
  · rw [Function.update_of_ne hji]
    exact h.files j hj

end Node

section Component

variable {β : Type*} (component : FileInputNode Shifter → β) {g : Nodes Shifter} {r : NodeRef}

/-- What no `process_frame` of a file changes is not changed by that of a node. -/
theorem processFrame_component
    (hframe : ∀ n frameBuffer,
      component (FileInputNode.processFrame fx.toEffects n frameBuffer).node = component n)
    (frameBuffer : List UInt8) (j : ℕ) :
    component ((g.processFrame fx r frameBuffer).node.files j) = component (g.files j) := by
  cases r with
  | fileInput i => exact Nodes.update_component component (hframe _ _) j
  | mixer i =>
    have hloop := mixInputs_component component hframe (g.mixers i).inputs
      ⟨g.files, (g.mixers i).tempInputBuffer, List.replicate SAMPLES_PER_FRAME 0, false⟩ j
    simp only [Nodes.processFrame, MixerNode.processFrame]
    split
    · exact hloop
    · split <;> exact hloop
  | delay i | clients i | fileOptions i => rfl

/-- Nor is what no `close` of a file changes changed by that of a node. -/
theorem close_component
    (hclose : ∀ n fault, component (FileInputNode.close fx.toEffects n fault).1 = component n)
    (faults : ℕ → Option String) (j : ℕ) :
    component ((g.close fx r faults).1.files j) = component (g.files j) := by
  cases r with
  | fileInput i => exact Nodes.update_component component (hclose _ _) j
  | mixer i =>
    change component (((g.mixers i).close fx g.files faults).1.2 j) = _
    rw [MixerNode.close_files]
    exact closeInputs_component component hclose faults (g.mixers i).inputs g.files j
  | delay i | clients i | fileOptions i => rfl

end Component

/-- A chain that comes back to a loop: the nodes before it, and its own. -/
structure Tour (fx : FloatOps Shifter) (g : Nodes Shifter) (lead cycle : List NodeRef) : Prop where
  /-- The chain comes back to its cycle. -/
  lasso : Lasso g.next lead cycle
  /-- All its nodes can be played. -/
  playable : Playable g (lead ++ cycle)
  /-- The files of the loop are flagged. -/
  isInLoop : ∀ r ∈ cycle, ∀ j, Nodes.Uses g r (.fileInput j) → (g.files j).base.isInLoop = true
  /-- Their pitch shifters are new. -/
  fresh : ∀ r ∈ cycle, ∀ j, Nodes.Uses g r (.fileInput j) →
    ∀ shifter, fx.reset shifter = (g.files j).pitchShifter

/-- The guard of runs in which a loop is kept up with: the files of the current node have been
filled, their refills are in time, and over at the last frame of the node; the file system reads
and closes. -/
def KeptUp (fx : FloatOps Shifter) (s : State Shifter) : Dispatch.Event → Prop
  | .frame faults => ∀ current ∈ s.executor.currentNode, ∀ j,
      Nodes.Uses s.executor.nodes current (.fileInput j) →
        faults j = none ∧ Filled (s.executor.nodes.files j) ∧
          Timely (s.executor.nodes.files j) (.processFrame []) ∧
          (let played := (s.executor.nodes.processFrame fx current
            (List.replicate s.pcmBuffer.length 0)).node
          (played.base current).isComplete = true → Refilled (played.files j))
  | .task _ t => Reads t

/-- The session has played the first nodes and `k` frames of the current one; the nodes after it
in this round, and those of the next one, are ready. -/
structure Touring (fx : FloatOps Shifter) (g : Nodes Shifter) (lead cycle played : List NodeRef)
    (current : NodeRef) (rest : List NodeRef) (k : ℕ) (s : State Shifter) : Prop where
  /-- The session runs. -/
  running : s.isRunning = true
  /-- The graph is the one it started with. -/
  graph : Nodes.SameGraph g s.executor.nodes
  /-- The flags of the loop are the same. -/
  flags : ∀ j, (s.executor.nodes.files j).base.isInLoop = (g.files j).base.isInLoop
  /-- This node is current. -/
  currentNode : s.executor.currentNode = some current
  /-- The nodes left of this round follow it. -/
  position : ∃ before, lead ++ cycle = before ++ current :: rest
  /-- The node has frames left. -/
  more : k < (g.base current).totalFrames
  /-- It has played so many. -/
  playing : NodeNow fx g s.executor.nodes current k
  /-- The others wait for their pass. -/
  waiting : ∀ r ∈ rest ++ cycle, r ≠ current → NodeNow fx g s.executor.nodes r 0
  /-- The buffer has the size of a frame. -/
  buffer : s.pcmBuffer.length = FRAME_SIZE_BYTES
  /-- What has been sent is the timeline of the nodes played. -/
  sent : s.sent = timeline fx g played ++ (List.range k).map (nodeFrame fx g current)

section Tick

variable {s s' : State Shifter} {faults : ℕ → Option String} {g : Nodes Shifter}
  {lead cycle played rest : List NodeRef} {current : NodeRef} {k : ℕ}

/-- The current node is one of the tour. -/
theorem Touring.mem (h : Touring fx g lead cycle played current rest k s) :
    current ∈ lead ++ cycle := by
  obtain ⟨before, hposition⟩ := h.position
  rw [hposition]
  exact List.mem_append_right _ List.mem_cons_self

/-- What is played after the current node is of the chain. -/
theorem Touring.rest_subset (h : Touring fx g lead cycle played current rest k s) :
    rest ++ cycle ⊆ lead ++ cycle := by
  obtain ⟨before, hposition⟩ := h.position
  refine List.append_subset.mpr ⟨?_, List.subset_append_right _ _⟩
  rw [hposition]
  exact fun r hr => List.mem_append_right _ (List.mem_cons_of_mem _ hr)

/-- Two nodes of the chain share no file. -/
theorem apart_of_ne (hplayable : Playable g (lead ++ cycle)) {r q : NodeRef}
    (hr : r ∈ lead ++ cycle) (hq : q ∈ lead ++ cycle) (hne : r ≠ q) {s : NodeRef}
    (huses : Nodes.Uses g r s) : ¬Nodes.Uses g q s := by
  have hsymm : Std.Symm fun r r' : NodeRef => ∀ s, Nodes.Uses g r s → ¬Nodes.Uses g r' s :=
    ⟨fun _ _ hrs s hs' hs => hrs s hs hs'⟩
  exact hplayable.apart.forall hr hq hne s huses

/-- A frame of a touring session calls its current node. -/
theorem Touring.called (hfx : fx.toEffects.InPlace) (htour : Tour fx g lead cycle)
    (h : Touring fx g lead cycle played current rest k s) (hkept : KeptUp fx s (.frame faults)) :
    ∃ p, Called fx g current k s p := by
  have hfiles := fun j (hj : Nodes.Uses g current (.fileInput j)) =>
    hkept current h.currentNode j (h.graph.uses_iff.mpr hj)
  exact exists_called hfx htour.playable h.mem h.graph
    (h.playing.nodeAt fun j hj => (hfiles j hj).2.1) h.more h.buffer
    fun j hj => (hfiles j hj).2.2.1

/-- A call keeps the flags of the files. -/
theorem Called.flags {p : Processed (Nodes Shifter)} (hp : Called fx g current k s p)
    (hflags : ∀ j, (s.executor.nodes.files j).base.isInLoop = (g.files j).base.isInLoop) (j : ℕ) :
    (p.node.files j).base.isInLoop = (g.files j).base.isInLoop := by
  rw [← hp.call, processFrame_component (·.base.isInLoop)
    (fun n buffer => (n.processFrame_frame fx.toEffects buffer).1), hflags]

/-- A tick within a node. -/
theorem Touring.stays (hfx : fx.toEffects.InPlace) (htour : Tour fx g lead cycle)
    (h : Touring fx g lead cycle played current rest k s) (hkept : KeptUp fx s (.frame faults))
    (hmore : (k + 1 : ℕ) < (g.base current).totalFrames) :
    Touring fx g lead cycle played current rest (k + 1)
      (processAndStreamSingleFrame fx s faults) := by
  obtain ⟨p, hp⟩ := h.called hfx htour hkept
  obtain ⟨hnodes, hcurrent, hrunning, hsent, hpcm⟩ := @Timeline.Called.stays _ _ _ faults _ _ _ p hp
    (buffer_ne_nil h.buffer) h.currentNode h.running hmore
  refine ⟨hrunning, hnodes ▸ hp.graph, hnodes ▸ Called.flags hp h.flags, hcurrent, h.position, hmore,
    hnodes ▸ .of_nodeAt hp.playing, fun r hr hne => ?_, ?_, ?_⟩
  · rw [hnodes]
    exact (h.waiting r hr hne).congr fun q hq => hp.others q
      (apart_of_ne htour.playable (h.rest_subset hr) h.mem hne hq)
  · rw [hpcm, length_nodeFrame hfx (htour.playable.audio current h.mem).1]
  · rw [hsent, h.sent, List.range_succ, List.map_append, List.append_assoc]
    rfl

/-- Where a tour goes on after a node: to the next one, or back to the loop. -/
theorem Tour.next (htour : Tour fx g lead cycle) {before : List NodeRef}
    (hposition : lead ++ cycle = before ++ current :: rest) :
    ∃ next after, (g.base current).target = some next ∧ next ∈ rest ++ cycle ∧
      (rest = next :: after ∨ rest = [] ∧ cycle = next :: after) := by
  have htarget : (g.base current).target = _ := htour.lasso.leads before current rest hposition
  cases rest with
  | cons next after => exact ⟨next, after, htarget, by simp, .inl rfl⟩
  | nil =>
    obtain ⟨next, after, hcycle⟩ := List.exists_cons_of_ne_nil htour.lasso.nonempty
    rw [hcycle] at htarget ⊢
    exact ⟨next, after, htarget, by simp, .inr ⟨rfl, rfl⟩⟩

/-- A node that is played again is one of the loop. -/
theorem Tour.mem_cycle (htour : Tour fx g lead cycle) {before : List NodeRef}
    (hposition : lead ++ cycle = before ++ current :: rest) (hmem : current ∈ rest ++ cycle) :
    current ∈ cycle := by
  refine (List.mem_append.mp hmem).resolve_left fun hrest => ?_
  have hapart := htour.playable.apart
  rw [hposition] at hapart
  have hlater := (List.pairwise_cons.mp (List.pairwise_append.mp hapart).2.1).1 current hrest
  exact hlater current (.inl rfl) (.inl rfl)

/-- The tick at the end of a node, which is made ready for the next round if it is in the loop. -/
theorem Touring.closes (hfx : fx.toEffects.InPlace) (htour : Tour fx g lead cycle)
    (h : Touring fx g lead cycle played current rest k s) (hkept : KeptUp fx s (.frame faults))
    (hlast : (g.base current).totalFrames = (k + 1 : ℕ)) :
    ∃ next after, (rest = next :: after ∨ rest = [] ∧ cycle = next :: after) ∧
      Touring fx g lead cycle (played ++ [current]) next after 0
        (processAndStreamSingleFrame fx s faults) := by
  obtain ⟨p, hp⟩ := h.called hfx htour hkept
  have hfiles := fun j (hj : Nodes.Uses g current (.fileInput j)) =>
    hkept current h.currentNode j (h.graph.uses_iff.mpr hj)
  have hclosed : (p.node.close fx current faults).2 = .ok () := close_ok fun j hj =>
    (hfiles j (hp.graph.uses_iff.mp hj)).1
  obtain ⟨hnodes, hcurrent, hrunning, hsent, hpcm⟩ := Timeline.Called.closes hp
    (buffer_ne_nil h.buffer) h.currentNode h.running hlast hclosed
  have hgraph := hp.graph.trans (p.node.close_spec fx current faults).graph
  have hcomplete := hp.isComplete hlast
  obtain ⟨before, hposition⟩ := h.position
  -- the current node is ready for its next pass if there is one, and the others still are
  have hready : ∀ r ∈ rest ++ cycle, NodeNow fx g (p.node.close fx current faults).1 r 0 := by
    intro r hr
    by_cases hcurrent : r = current
    · subst hcurrent
      have hcycle := htour.mem_cycle hposition hr
      refine (NodeNow.of_nodeAt hp.playing).close hp.graph (htour.playable.audio r h.mem).1
        (fun i hi => htour.playable.sounding i (hi ▸ h.mem)) hclosed fun j hj => ?_
      obtain ⟨hfault, hfilled, -, hrefilled⟩ := hfiles j hj
      dsimp only at hrefilled
      rw [hp.call] at hrefilled
      have hinits : (p.node.files j).buffer.inits = (s.executor.nodes.files j).buffer.inits := by
        rw [← hp.call, processFrame_component (·.buffer.inits)
          fun n buffer => (n.processFrame_frame fx.toEffects buffer).2.2]
      refine ⟨hfault, htour.fresh r hcycle j hj, ?_, ?_, hrefilled hcomplete⟩
      · rw [Called.flags hp h.flags, htour.isInLoop r hcycle j hj]
      · rw [Filled, hinits]
        exact hfilled
    · refine (h.waiting r hr hcurrent).congr fun q hq => ?_
      have huses := apart_of_ne htour.playable (h.rest_subset hr) h.mem hcurrent hq
      exact (hp.others q huses).trans (sameNode_close faults (mt hp.graph.uses_iff.mp huses))
  obtain ⟨next, after, htarget, hnext, hrest⟩ := htour.next hposition
  rw [htarget] at hcurrent hrunning hsent
  refine ⟨next, after, hrest, hrunning, hnodes ▸ hgraph, ?_, hcurrent, ?_, ?_, ?_, ?_, ?_, ?_⟩
  · intro j
    rw [hnodes, close_component (·.base.isInLoop) (fun n fault => by cases fault <;> rfl),
      Called.flags hp h.flags]
  · rcases hrest with hrest | ⟨-, hcycle⟩
    · exact ⟨before ++ [current], by rw [hposition, hrest, List.append_assoc]; rfl⟩
    · exact ⟨lead, by rw [hcycle]⟩
  · exact Int.lt_of_lt_of_le Int.zero_lt_one (htour.playable.audio next (h.rest_subset hnext)).2
  · rw [hnodes]
    exact hready next hnext
  · intro r hr _
    rw [hnodes]
    refine hready r ?_
    rcases hrest with rfl | ⟨-, rfl⟩
    · exact List.mem_cons_of_mem _ hr
    · refine List.mem_append_right _ ?_
      rcases List.mem_append.mp hr with hafter | hcycle
      · exact List.mem_cons_of_mem _ hafter
      · exact hcycle
  · rw [hpcm, length_nodeFrame hfx (htour.playable.audio current h.mem).1]
  · rw [hsent, if_pos Option.isSome_some, h.sent, timeline_snoc, nodeFrames_succ hlast,
      List.append_assoc]
    exact (List.append_nil _).symm

/-- A step of a coroutine. -/
theorem Touring.task (htour : Tour fx g lead cycle)
    (h : Touring fx g lead cycle played current rest k s) {i : ℕ} {t : Task} (hreads : Reads t)
    (hstep : step fx s (.task i t) = some s') :
    Touring fx g lead cycle played current rest k s' := by
  obtain ⟨hgraph, hbases, hcurrent, hsent, hrunning⟩ :=
    task_same h.graph htour.playable.opened hstep
  obtain ⟨n, hrun, rfl⟩ := Option.map_eq_some_iff.mp hstep
  have hopened : (s.executor.nodes.files i).base.totalFrames =
      (s.executor.nodes.files i).openedFrames := by
    have htotal := h.graph.totalFrames (.fileInput i)
    simp only [Nodes.base] at htotal
    rw [htotal, htour.playable.opened, openedFrames, openedFrames, h.graph.file]
  refine ⟨h.running, hgraph, fun j => ?_, h.currentNode, h.position, h.more,
    h.playing.task hreads hopened hrun hbases,
    fun r hr hne => (h.waiting r hr hne).task hreads hopened hrun hbases, h.buffer, h.sent⟩
  change (Function.update s.executor.nodes.files i n j).base.isInLoop = _
  rcases eq_or_ne j i with rfl | hji
  · rw [Function.update_self, (runTask_frame hrun).1, h.flags]
  · rw [Function.update_of_ne hji, h.flags]

end Tick

section Run

variable {g : Nodes Shifter} {lead cycle : List NodeRef} {s s' t : State Shifter}

/-- What the session has done after so many ticks. -/
def TouredTo (fx : FloatOps Shifter) (g : Nodes Shifter) (lead cycle : List NodeRef) (ticks : ℕ)
    (s : State Shifter) : Prop :=
  ∃ played current rest k rounds, Touring fx g lead cycle played current rest k s ∧
    played ++ current :: rest = lead ++ (List.replicate (rounds + 1) cycle).flatten ∧
    rounds ≤ (timeline fx g played).length ∧ ticks = (timeline fx g played).length + k

/-- A tick plays one more frame. -/
theorem TouredTo.tick (hfx : fx.toEffects.InPlace) (htour : Tour fx g lead cycle) {ticks : ℕ}
    (h : TouredTo fx g lead cycle ticks s) {faults : ℕ → Option String}
    (hkept : KeptUp fx s (.frame faults)) (hstep : step fx s (.frame faults) = some s') :
    TouredTo fx g lead cycle (ticks + 1) s' := by
  simp only [Dispatch.step, Option.ite_none_right_eq_some, Option.some.injEq] at hstep
  obtain ⟨-, rfl⟩ := hstep
  obtain ⟨played, current, rest, k, rounds, htouring, hround, hrounds, rfl⟩ := h
  have hmore := htouring.more
  by_cases hlast : (k + 1 : ℕ) < (g.base current).totalFrames
  · exact ⟨played, current, rest, k + 1, rounds, htouring.stays hfx htour hkept hlast, hround,
      hrounds, rfl⟩
  · have htotal : (g.base current).totalFrames = (k + 1 : ℕ) := by omega
    obtain ⟨next, after, hrest, hnext⟩ := htouring.closes hfx htour hkept htotal
    have hlength : (timeline fx g (played ++ [current])).length =
        (timeline fx g played).length + (k + 1) := by
      rw [timeline_snoc, nodeFrames_succ htotal]
      simp only [List.length_append, List.length_map, List.length_range, List.length_singleton]
    rcases hrest with rfl | ⟨rfl, hcycle⟩
    · refine ⟨played ++ [current], next, after, 0, rounds, hnext, ?_, ?_, ?_⟩
      · rw [← hround, List.append_assoc, List.singleton_append]
      · omega
      · omega
    · -- the next round starts
      refine ⟨played ++ [current], next, after, 0, rounds + 1, hnext, ?_, ?_, ?_⟩
      · rw [hround, ← hcycle, @List.replicate_succ' (rounds + 1), List.flatten_concat,
          List.append_assoc]
      · omega
      · omega

/-- A step of a coroutine plays none. -/
theorem TouredTo.task (htour : Tour fx g lead cycle) {ticks : ℕ}
    (h : TouredTo fx g lead cycle ticks s) {i : ℕ} {task : Task} (hreads : Reads task)
    (hstep : step fx s (.task i task) = some s') : TouredTo fx g lead cycle ticks s' := by
  obtain ⟨played, current, rest, k, rounds, htouring, hrest⟩ := h
  exact ⟨played, current, rest, k, rounds, htouring.task htour hreads hstep, hrest⟩

/-- The timeline of a chain that goes round its loop. -/
theorem timeline_rounds (n : ℕ) :
    timeline fx g (lead ++ (List.replicate n cycle).flatten) =
      timeline fx g lead ++ (List.replicate n (timeline fx g cycle)).flatten := by
  rw [timeline_append]
  congr 1
  induction n with
  | zero => rfl
  | succ n ih =>
    rw [List.replicate_succ, List.flatten_cons, timeline_append, ih, List.replicate_succ,
      List.flatten_cons]

/-- What has been sent then: so many frames of the timeline that goes round its loop. -/
theorem TouredTo.sent {ticks : ℕ} (h : TouredTo fx g lead cycle ticks s) :
    s.isRunning = true ∧
      s.sent = (timeline fx g lead ++
        (List.replicate (ticks + 1) (timeline fx g cycle)).flatten).take ticks := by
  obtain ⟨played, current, rest, k, rounds, htouring, hround, hrounds, rfl⟩ := h
  obtain ⟨frame, more, htimeline⟩ :=
    @exists_timeline_eq _ fx g s played rest current k htouring.more htouring.sent
  have hlength := congrArg List.length htouring.sent
  rw [List.length_append, List.length_map, List.length_range] at hlength
  obtain ⟨later, hlater⟩ : ∃ later, (timeline fx g played).length + k + 1 = rounds + 1 + later :=
    ⟨(timeline fx g played).length + k - rounds, by omega⟩
  refine ⟨htouring.running, ?_⟩
  rw [← timeline_rounds, hlater, List.replicate_add, List.flatten_append, ← List.append_assoc,
    ← hround, timeline_append, htimeline, List.append_assoc]
  exact (List.take_left' hlength).symm

/-- A run makes as many turns of the tour as it has frames. -/
theorem TouredTo.run (hfx : fx.toEffects.InPlace) (htour : Tour fx g lead cycle) {ticks : ℕ}
    (h : TouredTo fx g lead cycle ticks s) {es : List Dispatch.Event}
    (hkept : Meets (step fx) (KeptUp fx) s es) (hrun : runEvents (step fx) s es = some t) :
    TouredTo fx g lead cycle (ticks + es.countP Dispatch.Event.isFrame) t := by
  induction es generalizing s ticks with
  | nil =>
    cases hrun
    exact h
  | cons e es ih =>
    obtain ⟨s', hstep, hrest⟩ := runEvents_cons_iff.mp hrun
    cases e with
    | frame faults =>
      have hnext := ih (h.tick hfx htour hkept.1 hstep) (hkept.2 s' hstep) hrest
      rw [List.countP_cons_of_pos rfl, ← Nat.add_assoc, Nat.add_right_comm]
      exact hnext
    | task i task =>
      rw [List.countP_cons_of_neg (by simp [Dispatch.Event.isFrame])]
      exact ih (h.task htour hkept.1 hstep) (hkept.2 s' hstep) hrest

end Run

/-- What the graph of a flow needs to be played for ever: its chain comes back to a loop. -/
structure Loops (s : State Shifter) (lead cycle : List NodeRef) : Prop
    extends Equipped s (lead ++ cycle) where
  /-- The chain comes back to its cycle. -/
  lasso : Lasso s.executor.nodes.next lead cycle
  /-- It starts at the current node. -/
  starts : s.executor.currentNode = (lead ++ cycle).head?

section Start

variable {o : Infra.JsonObject} {graph : Infra.Graph} {disk : String → Option (List UInt8)}
  {shifter : Shifter} {stats : SessionStats} {pcmBuffer : List UInt8} {lead cycle : List NodeRef}

/-- The nodes of the chain are those of the graph. -/
theorem Loops.pointers (hparsed : Infra.Parsed o graph)
    (h : Loops (startReads graph disk shifter stats pcmBuffer) lead cycle) :
    ∀ r ∈ lead ++ cycle, ∃ p, pointer graph p = some r := by
  intro r hr
  obtain ⟨before, after, hsplit⟩ := List.append_of_mem hr
  rcases List.eq_nil_or_concat before with rfl | ⟨before, last, rfl⟩
  · obtain ⟨first, p, hcurrent, hpointer⟩ :=
      @exists_currentNode _ _ graph disk shifter stats pcmBuffer hparsed
    rw [h.starts, hsplit] at hcurrent
    cases hcurrent
    exact ⟨p, hpointer⟩
  · rw [List.concat_append] at hsplit
    have htarget := h.lasso.leads before last (r :: after) hsplit
    rw [Nodes.next, startReads_target] at htarget
    exact createNodes_target graph disk shifter htarget

/-- There are no more of them than the graph has nodes. -/
theorem Loops.length_le (hparsed : Infra.Parsed o graph)
    (h : Loops (startReads graph disk shifter stats pcmBuffer) lead cycle) :
    (lead ++ cycle).length ≤ graph.nodes.length := by
  have hnodup : (lead ++ cycle).Nodup := h.apart.imp fun {r r'} hapart => by
    rintro rfl
    exact hapart r (.inl rfl) (.inl rfl)
  have hsubset : lead ++ cycle ⊆ (List.range graph.nodes.length).filterMap (pointer graph) := by
    intro r hr
    obtain ⟨p, hpointer⟩ := h.pointers hparsed r hr
    refine List.mem_filterMap.mpr ⟨p, List.mem_range.mpr ?_, hpointer⟩
    obtain ⟨kind, hkind, -⟩ := Option.map_eq_some_iff.mp hpointer
    obtain ⟨node, hnode, -⟩ := Option.map_eq_some_iff.mp hkind
    exact (List.getElem?_eq_some_iff.mp hnode).1
  refine (List.subperm_of_subset hnodup hsubset).length_le.trans ?_
  exact (List.length_filterMap_le _ _).trans_eq List.length_range

/-- `prepare` flags the files of the loop. -/
theorem Loops.isInLoop (hparsed : Infra.Parsed o graph)
    (h : Loops (startReads graph disk shifter stats pcmBuffer) lead cycle) {r : NodeRef}
    (hr : r ∈ cycle) {j : ℕ}
    (hj : Nodes.Uses (startReads graph disk shifter stats pcmBuffer).executor.nodes r
      (.fileInput j)) :
    ((startReads graph disk shifter stats pcmBuffer).executor.nodes.files j).base.isInLoop =
      true := by
  have hflagged := flagged_startSession graph disk shifter stats (fun _ => (true, true)) pcmBuffer
  have hlasso : Lasso (preparedNodes graph disk shifter fun _ => (true, true)).next lead cycle := by
    have hnext : (preparedNodes graph disk shifter fun _ => (true, true)).next =
        (startReads graph disk shifter stats pcmBuffer).executor.nodes.next := by
      funext q
      obtain ⟨flag, hbase⟩ := hflagged.base q
      rw [Nodes.next, Nodes.next, startReads, hbase]
      rfl
    rw [hnext]
    exact h.lasso
  obtain ⟨first, p, hcurrent, hpointer⟩ :=
    @exists_currentNode _ _ graph disk shifter stats pcmBuffer hparsed
  have hhead := h.starts.symm.trans hcurrent
  have hmem : r ∈ lead ++ cycle := List.mem_append_right _ hr
  obtain ⟨flagged, -, hloops, hiff, -⟩ := Nodes.detectAndFlagWithin_spec hlasso.closed
    (List.mem_of_head? hhead) (h.length_le hparsed)
  have hnodes : (startReads graph disk shifter stats pcmBuffer).executor.nodes =
      (preparedNodes graph disk shifter fun _ => (true, true)).detectAndFlagLoops
        graph.nodes.length (some first) := by
    rw [← hcurrent]
    rfl
  rw [hnodes, hloops]
  refine (hiff (.fileInput j)).mpr (.inr ⟨r, hlasso.reaches hhead hmem, hlasso.onCycle hr, ?_⟩)
  obtain hself | ⟨i, k, rfl, hinput, hfile⟩ := hj
  · exact .inl hself
  · cases hfile
    refine .inr ⟨i, j, rfl, rfl, ?_⟩
    rw [← hflagged.inputs i]
    exact hinput

/-- The session starts on its tour. -/
theorem Loops.tour (hparsed : Infra.Parsed o graph)
    (hreset : ∀ used, fx.reset used = shifter)
    (h : Loops (startReads graph disk shifter stats pcmBuffer) lead cycle) :
    Tour fx (startReads graph disk shifter stats pcmBuffer).executor.nodes lead cycle where
  lasso := h.lasso
  playable := h.playable hparsed (h.pointers hparsed)
  isInLoop := fun _ hr _ hj => h.isInLoop hparsed hr hj
  fresh := fun _ _ j _ used => by rw [hreset, startReads_pitchShifter]

/-- A prepared loop is toured from its first frame. -/
theorem Loops.touredTo (hbuffer : pcmBuffer.length = FRAME_SIZE_BYTES)
    (h : Loops (startReads graph disk shifter stats pcmBuffer) lead cycle) :
    TouredTo fx (startReads graph disk shifter stats pcmBuffer).executor.nodes lead cycle 0
      (startReads graph disk shifter stats pcmBuffer) := by
  have hready : ∀ r ∈ lead ++ cycle,
      NodeNow fx (startReads graph disk shifter stats pcmBuffer).executor.nodes
        (startReads graph disk shifter stats pcmBuffer).executor.nodes r 0 :=
    fun r hr => .of_nodeAt (h.nodeAt r hr)
  obtain ⟨first, rest, hchain⟩ :=
    List.exists_cons_of_ne_nil (List.append_ne_nil_of_right_ne_nil lead h.lasso.nonempty)
  have hfirst : first ∈ lead ++ cycle := hchain ▸ List.mem_cons_self
  have hrest : rest ++ cycle ⊆ lead ++ cycle := List.append_subset.mpr
    ⟨hchain ▸ List.subset_cons_self first rest, List.subset_append_right lead cycle⟩
  refine ⟨[], first, rest, 0, 0, ?_, ?_, Nat.zero_le _, rfl⟩
  · refine ⟨rfl, .refl _, fun _ => rfl, ?_, ⟨[], hchain⟩, ?_, hready first hfirst,
      fun r hr _ => hready r (hrest hr), hbuffer, rfl⟩
    · rw [h.starts, hchain]
      rfl
    · exact Int.lt_of_lt_of_le Int.zero_lt_one (h.audio first hfirst).2
  · rw [List.replicate_one, List.flatten_singleton, hchain]
    rfl

end Start

/-- The session of an accepted flow with a loop plays for ever: after any number of ticks its
loop still runs, and it has sent so many frames of the nodes before the loop and then of the
loop, over and over. -/
theorem session_plays_loop {lib : Infra.Library} {o : Infra.JsonObject} {graph : Infra.Graph}
    (hparse : Infra.parseGraph lib o = .ok graph) (hfx : fx.toEffects.InPlace)
    {disk : String → Option (List UInt8)} {shifter : Shifter}
    (hreset : ∀ used, fx.reset used = shifter) {stats : SessionStats} {pcmBuffer : List UInt8}
    (hbuffer : pcmBuffer.length = FRAME_SIZE_BYTES) {lead cycle : List NodeRef}
    (hloops : Loops (startReads graph disk shifter stats pcmBuffer) lead cycle)
    {es : List Dispatch.Event} {t : State Shifter}
    (hkept : Meets (step fx) (KeptUp fx) (startReads graph disk shifter stats pcmBuffer) es)
    (hrun : runEvents (step fx) (startReads graph disk shifter stats pcmBuffer) es = some t) :
    t.isRunning = true ∧
      t.sent = (timeline fx (startReads graph disk shifter stats pcmBuffer).executor.nodes lead ++
        (List.replicate (es.countP Dispatch.Event.isFrame + 1) (timeline fx
          (startReads graph disk shifter stats pcmBuffer).executor.nodes cycle)).flatten).take
            (es.countP Dispatch.Event.isFrame) := by
  have htoured := (hloops.touredTo hbuffer).run hfx (hloops.tour (Infra.parseGraph_ok hparse) hreset)
    hkept hrun
  rw [Nat.zero_add] at htoured
  exact htoured.sent

section Kept

variable {s : State Shifter} {i : ℕ}

/-- A file whose coroutines are over is kept up with. -/
theorem keptUp_file (hcurrent : s.executor.currentNode = some (.fileInput i))
    (hfilled : Filled (s.executor.nodes.files i)) (hrefilled : Refilled (s.executor.nodes.files i))
    (hplayed : Refilled ((s.executor.nodes.processFrame fx (.fileInput i)
      (List.replicate s.pcmBuffer.length 0)).node.files i)) :
    KeptUp fx s (.frame fun _ => none) := by
  intro current hmem j hj
  obtain rfl := Option.some.inj (hcurrent.symm.trans hmem)
  obtain hself | ⟨_, _, hmixer, -⟩ := hj
  · cases hself
    exact ⟨rfl, hfilled, fun _ _ pc hpc => hrefilled pc (List.mem_of_getLast? hpc),
      fun _ => hplayed⟩
  · cases hmixer

/-- A delay has nothing to be kept up with. -/
theorem keptUp_delay (hcurrent : s.executor.currentNode = some (.delay i))
    (faults : ℕ → Option String) : KeptUp fx s (.frame faults) := by
  intro current hmem j hj
  obtain rfl := Option.some.inj (hcurrent.symm.trans hmem)
  obtain hself | ⟨_, _, hmixer, -⟩ := hj
  · cases hself
  · cases hmixer

end Kept

/-- A file of one frame in a loop with a delay. -/
def fileLoopStart : State Unit :=
  startReads Infra.fileLoopGraph (fun _ => some (List.replicate FRAME_SIZE_BYTES 7)) ()
    ⟨"s", "", 0, 0, 0⟩ (List.replicate FRAME_SIZE_BYTES 0)

/-- The example's loop plays its one file. -/
theorem uses_fileLoop {j : ℕ} {r : NodeRef} (hr : r = .fileInput 0 ∨ r = .delay 1)
    (hj : Nodes.Uses fileLoopStart.executor.nodes r (.fileInput j)) : j = 0 := by
  obtain hself | ⟨_, _, hmixer, -⟩ := hj
  · subst hself
    rcases hr with h | h <;> cases h
    rfl
  · subst hmixer
    rcases hr with h | h <;> cases h

/-- The example's loop can be played. -/
theorem loops_fileLoop : Loops fileLoopStart [] [.fileInput 0, .delay 1] where
  audio := by
    intro r hr
    rcases List.mem_pair.mp hr with rfl | rfl
    · exact ⟨trivial, by decide +kernel⟩
    · exact ⟨trivial, by decide +kernel⟩
  distinct := by
    intro i hi
    rcases List.mem_pair.mp hi with h | h <;> cases h
  apart := by
    refine List.pairwise_pair.mpr fun q hfile hdelay => ?_
    obtain hself | ⟨_, _, hmixer, -⟩ := hdelay
    · subst hself
      obtain hother | ⟨_, _, hmixer, -⟩ := hfile
      · cases hother
      · cases hmixer
    · cases hmixer
  onDisk := by
    intro r hr j hj
    obtain rfl := uses_fileLoop (List.mem_pair.mp hr) hj
    decide +kernel
  lasso := by
    refine ⟨List.cons_ne_nil _ _, fun before v after hsplit => ?_⟩
    rcases before with _ | ⟨first, _ | ⟨second, before⟩⟩
    · cases hsplit
      decide +kernel
    · cases hsplit
      decide +kernel
    · have hlength := congrArg List.length hsplit
      simp only [List.nil_append, List.cons_append, List.length_cons, List.length_append,
        List.length_nil] at hlength
      omega
  starts := rfl

/-- The file, the coroutine that fills its buffer again, and the delay. -/
def fileLoopRound : List Dispatch.Event :=
  [.frame fun _ => none, .task 0 (.initStart 1), .task 0 (.initFirst 1 true),
    .task 0 (.initSecond 1 true), .frame fun _ => none]

/-- The current node and the coroutines of the file, and its refills after a frame. -/
def fileProgress (s : State Unit) :
    Option NodeRef × List InitPc × List RefillPc × List RefillPc :=
  (s.executor.currentNode, (s.executor.nodes.files 0).buffer.inits,
    (s.executor.nodes.files 0).buffer.refills,
    ((s.executor.nodes.processFrame idleOps (.fileInput 0)
      (List.replicate s.pcmBuffer.length 0)).node.files 0).buffer.refills)

/-- A round of the example refills its file once more. -/
theorem fileProgress_fileLoop :
    fileProgress fileLoopStart = (some (.fileInput 0), [.done], [], []) ∧
      (runEvents (step idleOps) fileLoopStart fileLoopRound).map fileProgress =
        some (some (.fileInput 0), [.done, .done], [], []) := by
  decide +kernel

/-- In the middle of a round the example plays its delay. -/
theorem currentNode_fileLoop :
    (runEvents (step idleOps) fileLoopStart (fileLoopRound.take 4)).map
        (fun s => s.executor.currentNode) = some (some (.delay 1)) ∧
      (runEvents (step idleOps) fileLoopStart (fileLoopRound ++ [.frame fun _ => none])).isSome =
        true := by
  decide +kernel

/-- A file whose coroutines are known to be over. -/
theorem keptUp_fileProgress {s : State Unit} {inits : List InitPc}
    (hprogress : fileProgress s = (some (.fileInput 0), inits, [], []))
    (hinits : ∀ pc ∈ inits, pc = .done) : KeptUp idleOps s (.frame fun _ => none) := by
  obtain ⟨hcurrent, hrest⟩ := Prod.mk.inj hprogress
  obtain ⟨hfilled, hrest⟩ := Prod.mk.inj hrest
  obtain ⟨hrefilled, hplayed⟩ := Prod.mk.inj hrest
  refine keptUp_file hcurrent ?_ ?_ ?_
  · rw [Filled, hfilled]
    exact hinits
  · rw [Refilled, hrefilled]
    exact fun _ hpc => absurd hpc List.not_mem_nil
  · rw [Refilled, hplayed]
    exact fun _ hpc => absurd hpc List.not_mem_nil

/-- The example keeps up with its frames. -/
theorem keptUp_fileLoop :
    Meets (step idleOps) (KeptUp idleOps) fileLoopStart
      (fileLoopRound ++ [.frame fun _ => none]) := by
  have hfirst := keptUp_fileProgress fileProgress_fileLoop.1 (by decide)
  refine meets_append_iff.mpr ⟨⟨hfirst, fun s₁ h₁ => ⟨trivial, fun s₂ h₂ => ⟨rfl, fun s₃ h₃ =>
    ⟨rfl, fun s₄ h₄ => ⟨?_, fun _ _ => trivial⟩⟩⟩⟩⟩, fun s hs => ⟨?_, fun _ _ => trivial⟩⟩
  · have hrun : runEvents (step idleOps) fileLoopStart (fileLoopRound.take 4) = some s₄ :=
      runEvents_cons_iff.mpr ⟨s₁, h₁, runEvents_cons_iff.mpr ⟨s₂, h₂, runEvents_cons_iff.mpr
        ⟨s₃, h₃, runEvents_cons_iff.mpr ⟨s₄, h₄, runEvents_nil _⟩⟩⟩⟩
    have hcurrent := currentNode_fileLoop.1
    rw [hrun] at hcurrent
    exact keptUp_delay (Option.some.inj hcurrent) _
  · have hprogress := fileProgress_fileLoop.2
    rw [hs] at hprogress
    exact keptUp_fileProgress (Option.some.inj hprogress) (by decide)

/-- The frame of the file, the silence of the delay, and the frame of the file again. -/
theorem session_plays_loop_file :
    ∃ graph t, Infra.parseGraph Infra.plainLibrary Infra.fileLoop = .ok graph ∧
      runEvents (step idleOps) fileLoopStart (fileLoopRound ++ [.frame fun _ => none]) = some t ∧
      t.isRunning = true ∧
      t.sent = [fileFrame idleOps (fileLoopStart.executor.nodes.files 0) 0,
        List.replicate FRAME_SIZE_BYTES 0,
        fileFrame idleOps (fileLoopStart.executor.nodes.files 0) 0] := by
  obtain ⟨t, ht⟩ := Option.isSome_iff_exists.mp currentNode_fileLoop.2
  obtain ⟨hrunning, hsent⟩ := session_plays_loop Infra.parse_fileLoop (fun _ _ _ => rfl)
    (fun _ => rfl) List.length_replicate loops_fileLoop keptUp_fileLoop ht
  have htotals : (fileLoopStart.executor.nodes.base (.fileInput 0)).totalFrames = 1 ∧
      (fileLoopStart.executor.nodes.base (.delay 1)).totalFrames = 1 := by decide +kernel
  have hround : timeline idleOps fileLoopStart.executor.nodes [.fileInput 0, .delay 1] =
      [fileFrame idleOps (fileLoopStart.executor.nodes.files 0) 0,
        List.replicate FRAME_SIZE_BYTES 0] := by
    simp only [timeline, List.flatMap_cons, List.flatMap_nil, nodeFrames, htotals.1, htotals.2]
    rfl
  refine ⟨_, t, Infra.parse_fileLoop, ht, hrunning, hsent.trans ?_⟩
  change (([] : List (List UInt8)) ++ (List.replicate _ (timeline idleOps
    fileLoopStart.executor.nodes _)).flatten).take _ = _
  rw [hround]
  rfl

end HermesFlow.Audio.LoopTimeline
