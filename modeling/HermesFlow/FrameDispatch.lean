import HermesFlow.AudioExecutor
import Mathlib.Algebra.Order.BigOperators.Group.List

/-!
# Dispatch of the frames

The loop of a session that is neither paused nor stopped hands each frame to
the streamer, unless the executor has nothing to play after it: the last frame
of the last node is produced and not sent. So in no run has the whole chain
been dispatched, and without an early end of a node only that frame is missing.
-/

namespace HermesFlow.Audio.Dispatch

open EventRun

variable {Shifter : Type} {fx : FloatOps Shifter}

/-- A session in `run_main_audio_loop`. -/
structure State (Shifter : Type) where
  /-- `audio_executor_`. -/
  executor : AudioExecutor Shifter
  /-- `pcm_buffer`. -/
  pcmBuffer : List UInt8
  /-- The loop has not returned. -/
  isRunning : Bool
  /-- The frames that `send_frame` was called with. -/
  sent : List (List UInt8)
  /-- The frames that nodes have produced, with the node. -/
  produced : List (NodeRef × List UInt8)

/-- A tick of the loop or a step of a coroutine of a file input node. -/
inductive Event where
  /-- A tick; with the errors of the file system if nodes are closed. -/
  | frame (faults : ℕ → Option String)
  /-- A coroutine. -/
  | task (i : ℕ) (t : FileInputNode.Task)

/-- The call of `get_next_frame` at a tick. -/
def nextFrame (fx : FloatOps Shifter) (s : State Shifter) (faults : ℕ → Option String) :
    NextFrame Shifter :=
  s.executor.getNextFrame fx s.pcmBuffer faults

/-- The frame that the current node produces at a tick. -/
def produce (fx : FloatOps Shifter) (s : State Shifter) : List (NodeRef × List UInt8) :=
  match s.executor.currentNode with
  | none => []
  | some current =>
    let p := s.executor.nodes.processFrame fx current (List.replicate s.pcmBuffer.length 0)
    match p.result with
    | .ok () => [(current, p.frameBuffer)]
    | .error _ => []

/-- `process_and_stream_single_frame`; an error it returns ends the loop. -/
def processAndStreamSingleFrame (fx : FloatOps Shifter) (s : State Shifter)
    (faults : ℕ → Option String) : State Shifter :=
  let r := nextFrame fx s faults
  let s := { s with
    executor := r.executor
    pcmBuffer := r.outputBuffer
    produced := s.produced ++ produce fx s }
  if r.wantsContinue = false then { s with isRunning := false }
  else
    { s with
      sent := s.sent ++ [r.outputBuffer]
      executor := { s.executor with stats :=
        { s.executor.stats with packetsSent := s.executor.stats.packetsSent + 1 } } }

/-- The step of one event. -/
def step (fx : FloatOps Shifter) (s : State Shifter) : Event → Option (State Shifter)
  | .frame faults =>
    if s.isRunning = true then some (processAndStreamSingleFrame fx s faults) else none
  | .task i t =>
    ((s.executor.nodes.files i).runTask t).map fun n =>
      { s with executor := { s.executor with nodes := { s.executor.nodes with
        files := Function.update s.executor.nodes.files i n } } }

/-- The `next` pointers from a node on lead along the list and end. -/
def NextChain (g : Nodes Shifter) : Option NodeRef → List NodeRef → Prop
  | none, [] => True
  | some current, r :: chain => r = current ∧ NextChain g (g.base r).target chain
  | _, _ => False

/-- A session at the start of its loop, with a graph that has been prepared and
whose chain is finite. -/
structure Ready (chain : List NodeRef) (s : State Shifter) : Prop where
  /-- The session runs. -/
  running : s.isRunning = true
  /-- The chain starts at the current node. -/
  leads : NextChain s.executor.nodes s.executor.currentNode chain
  /-- There is a node to play. -/
  nonempty : chain ≠ []
  /-- The nodes play something. -/
  audio : ∀ r ∈ chain, r.IsAudio ∧ 1 ≤ (s.executor.nodes.base r).totalFrames
  /-- No node has started. -/
  processed : ∀ r, (s.executor.nodes.base r).processedFrames = 0
  /-- The files have been opened. -/
  opened : ∀ i, (s.executor.nodes.files i).base.totalFrames =
    (s.executor.nodes.files i).openedFrames
  /-- Nothing has been sent. -/
  sent : s.sent = []
  /-- Nothing has been produced. -/
  produced : s.produced = []

/-- The guard of runs with no underrun and no node error. -/
def Undisturbed (fx : FloatOps Shifter) (s : State Shifter) : Event → Prop
  | .frame faults => (nextFrame fx s faults).status.code = .success
  | .task _ _ => True

/-- The frames of a node. -/
def framesOf (r : NodeRef) (log : List (NodeRef × List UInt8)) : List (List UInt8) :=
  (log.filter (·.1 = r)).map (·.2)

/-- Each node of the chain has produced its frames, and they have been sent in
the order of the chain. -/
structure Dispatched (chain : List NodeRef) (start s : State Shifter) : Prop where
  /-- Each node has produced all its frames. -/
  complete : ∀ r ∈ chain,
    ((framesOf r s.produced).length : ℤ) = (start.executor.nodes.base r).totalFrames
  /-- The frames sent are those produced, node by node. -/
  sent : s.sent = chain.flatMap fun r => framesOf r s.produced

/-- The frames the nodes are to play. -/
def chainTotal (g : Nodes Shifter) (chain : List NodeRef) : ℤ :=
  (chain.map fun r => (g.base r).totalFrames).sum

/-- What has been sent is at least one frame short of what is to be played up
to now: of the nodes that are over and the current one, of which at most the
frames it has processed. -/
def Short (g : Nodes Shifter) (chain rest : List NodeRef) (s : State Shifter) : Prop :=
  match s.executor.currentNode with
  | some current =>
    s.sent.length + chainTotal g rest ≤
        chainTotal g chain + (s.executor.nodes.base current).processedFrames ∧
      (s.executor.nodes.base current).processedFrames < (g.base current).totalFrames
  | none => s.sent.length < chainTotal g chain

/-- The invariant of a run on a graph, with the nodes left to play. -/
structure Playing (g : Nodes Shifter) (chain rest : List NodeRef) (s : State Shifter) : Prop where
  /-- The graph is the one it started with. -/
  graph : Nodes.SameGraph g s.executor.nodes
  /-- These nodes are left to play. -/
  left : NextChain g s.executor.currentNode rest
  /-- They are the end of the chain. -/
  suffix : rest <:+ chain
  /-- A node not in use has played nothing. -/
  idle : ∀ r, (∀ current ∈ s.executor.currentNode, ¬Nodes.Uses g current r) →
    (s.executor.nodes.base r).processedFrames = 0
  /-- What has been sent is complete but for the nodes left. -/
  short : Short g chain rest s

section Step

variable {s s' : State Shifter} {faults : ℕ → Option String}

/-- The executor of a tick is the one after its frame. -/
theorem processAndStreamSingleFrame_executor :
    (processAndStreamSingleFrame fx s faults).executor.nodes =
        (nextFrame fx s faults).executor.nodes ∧
      (processAndStreamSingleFrame fx s faults).executor.currentNode =
        (nextFrame fx s faults).executor.currentNode := by
  unfold processAndStreamSingleFrame
  dsimp only
  split <;> exact ⟨rfl, rfl⟩

/-- A tick sends its frame exactly when it is to go on. -/
theorem processAndStreamSingleFrame_sent :
    (processAndStreamSingleFrame fx s faults).sent =
      if (nextFrame fx s faults).wantsContinue = true then
        s.sent ++ [(nextFrame fx s faults).outputBuffer] else s.sent := by
  unfold processAndStreamSingleFrame
  dsimp only
  split <;> rename_i h
  · rw [if_neg (by simp [h])]
  · rw [if_pos (by simpa using h)]

/-- A tick on a node that has more frames. -/
theorem nextFrame_of_incomplete {current : NodeRef} (hbuffer : s.pcmBuffer ≠ [])
    (hcurrent : s.executor.currentNode = some current) {p : Processed (Nodes Shifter)}
    (hp : s.executor.nodes.processFrame fx current (List.replicate s.pcmBuffer.length 0) = p)
    (hresult : p.result = .ok ()) (hmore : (p.node.base current).isComplete = false) :
    nextFrame fx s faults =
      ⟨{ nodes := p.node
         currentNode := some current
         stats := { s.executor.stats with
           totalBytesSent := s.executor.stats.totalBytesSent + FRAME_SIZE_BYTES } },
        true, successStatus, p.frameBuffer⟩ := by
  unfold nextFrame AudioExecutor.getNextFrame
  simp only [hcurrent]
  rw [if_neg hbuffer]
  simp only [hp, hresult, AudioExecutor.getNextFrame.finishFrame, hmore, Bool.false_eq_true,
    or_false, if_false, AudioExecutor.getNextFrame.countFrame, Option.isSome_some]

/-- A tick on a node that is complete closes it and goes on to the next one. -/
theorem nextFrame_of_closed {current : NodeRef} (hbuffer : s.pcmBuffer ≠ [])
    (hcurrent : s.executor.currentNode = some current) {p : Processed (Nodes Shifter)}
    (hp : s.executor.nodes.processFrame fx current (List.replicate s.pcmBuffer.length 0) = p)
    (hresult : p.result = .ok ()) (hcomplete : (p.node.base current).isComplete = true)
    (hclosed : (p.node.close fx current faults).2 = .ok ()) :
    (nextFrame fx s faults).executor.nodes = (p.node.close fx current faults).1 ∧
      (nextFrame fx s faults).executor.currentNode =
        ((p.node.close fx current faults).1.base current).target ∧
      (nextFrame fx s faults).wantsContinue =
        (nextFrame fx s faults).executor.currentNode.isSome ∧
      (nextFrame fx s faults).status = successStatus ∧
      (nextFrame fx s faults).outputBuffer = p.frameBuffer := by
  obtain ⟨hok, hnodes, htarget⟩ := @AudioExecutor.advanceToNextNode_ok _ fx
    ⟨p.node, some current, s.executor.stats⟩ current faults hclosed
  unfold nextFrame AudioExecutor.getNextFrame
  simp only [hcurrent, if_neg hbuffer, hp, hresult]
  unfold AudioExecutor.getNextFrame.finishFrame
  rw [if_pos (.inr hcomplete)]
  simp only [hok]
  exact ⟨hnodes, htarget, rfl, rfl, rfl⟩

/-- A tick on a node that has no frame in time. -/
theorem nextFrame_of_underrun {current : NodeRef} (hbuffer : s.pcmBuffer ≠ [])
    (hcurrent : s.executor.currentNode = some current) {p : Processed (Nodes Shifter)}
    (hp : s.executor.nodes.processFrame fx current (List.replicate s.pcmBuffer.length 0) = p)
    (hresult : p.result = .error bufferUnderrun) :
    nextFrame fx s faults =
      ⟨{ s.executor with nodes := p.node }, true, bufferUnderrun, p.frameBuffer⟩ := by
  unfold nextFrame AudioExecutor.getNextFrame
  simp only [hcurrent]
  rw [if_neg hbuffer]
  simp only [hp, hresult, bufferUnderrun]
  rfl

/-- The chain's total is the first node's and the rest's. -/
theorem chainTotal_cons (g : Nodes Shifter) (r : NodeRef) (chain : List NodeRef) :
    chainTotal g (r :: chain) = (g.base r).totalFrames + chainTotal g chain := by
  rw [chainTotal, List.map_cons, List.sum_cons, chainTotal]

/-- A node that is current leads the nodes left. -/
theorem NextChain.of_some {g : Nodes Shifter} {current : NodeRef} {chain : List NodeRef}
    (h : NextChain g (some current) chain) :
    ∃ rest, chain = current :: rest ∧ NextChain g (g.base current).target rest := by
  cases chain with
  | nil => exact h.elim
  | cons r rest =>
    obtain ⟨rfl, hrest⟩ := h
    exact ⟨rest, rfl, hrest⟩

/-- The loop does not start again. -/
theorem not_running_of_run {t : State Shifter} {es : List Event} (hs : s.isRunning = false)
    (hrun : runEvents (step fx) s es = some t) : t.isRunning = false := by
  refine run_invariant_of_step (I := fun s => s.isRunning = false) (fun s e s' hs he => ?_) hs hrun
  cases e with
  | frame faults =>
    simp only [step, hs] at he
    cases he
  | task i task =>
    obtain ⟨n, -, rfl⟩ := Option.map_eq_some_iff.mp he
    exact hs

/-- A running session runs on exactly when its frame wants it. -/
theorem isRunning_tick (hrunning : s.isRunning = true) :
    (processAndStreamSingleFrame fx s faults).isRunning =
      (nextFrame fx s faults).wantsContinue := by
  unfold processAndStreamSingleFrame
  dsimp only
  split
  · rename_i hstops
    exact hstops.symm
  · rename_i hcontinue
    rw [Bool.not_eq_false] at hcontinue
    rw [hcontinue]
    exact hrunning

variable {g : Nodes Shifter} {chain rest : List NodeRef}

/-- The nodes that the current one does not use have played nothing. -/
def Idle (g : Nodes Shifter) (s : State Shifter) : Prop :=
  ∀ r, (∀ current ∈ s.executor.currentNode, ¬Nodes.Uses g current r) →
    (s.executor.nodes.base r).processedFrames = 0

/-- What a tick that reports no error does, seen from the graph. -/
inductive Ticked (fx : FloatOps Shifter) (g : Nodes Shifter) (s : State Shifter)
    (faults : ℕ → Option String) (current : NodeRef) (s' : State Shifter) : Prop where
  /-- The node has produced a frame and has more. -/
  | stays (hresult : (s.executor.nodes.processFrame fx current
        (List.replicate s.pcmBuffer.length 0)).result = .ok ())
      (hcurrent : s'.executor.currentNode = some current)
      (hcount : (s'.executor.nodes.base current).processedFrames =
        (s.executor.nodes.base current).processedFrames + 1)
      (hmore : (s'.executor.nodes.base current).isComplete = false)
      (hcontinue : (nextFrame fx s faults).wantsContinue = true)
  /-- The node is over, and every counter starts anew. -/
  | advances (hcurrent : s'.executor.currentNode = (g.base current).target)
      (hreset : ∀ r, (s'.executor.nodes.base r).processedFrames = 0)
      (hcontinue : (nextFrame fx s faults).wantsContinue = s'.executor.currentNode.isSome)
  /-- The node is no audio processor. -/
  | stops (hcurrent : s'.executor.currentNode = some current)
      (hcount : (s'.executor.nodes.base current).processedFrames =
        (s.executor.nodes.base current).processedFrames)
      (hcontinue : (nextFrame fx s faults).wantsContinue = false)

/-- A tick on a node keeps the graph, and the other nodes idle. -/
theorem ticked {current : NodeRef} (hgraph : Nodes.SameGraph g s.executor.nodes) (hidle : Idle g s)
    (hcurrent : s.executor.currentNode = some current) (haudio : current.IsAudio)
    (hok : (nextFrame fx s faults).status.code = .success) :
    Nodes.SameGraph g (processAndStreamSingleFrame fx s faults).executor.nodes ∧
      Idle g (processAndStreamSingleFrame fx s faults) ∧
      Ticked fx g s faults current (processAndStreamSingleFrame fx s faults) := by
  have hspec := s.executor.nodes.processFrame_spec fx current
    (List.replicate s.pcmBuffer.length 0)
  obtain ⟨-, hcases⟩ := AudioExecutor.getNextFrame_cases hcurrent hok
  obtain ⟨hnodes, hcurrent'⟩ := @processAndStreamSingleFrame_executor _ fx s faults
  generalize hp : s.executor.nodes.processFrame fx current (List.replicate s.pcmBuffer.length 0) = p
    at hspec hcases
  change AudioExecutor.Outcome fx current p faults (nextFrame fx s faults) at hcases
  have hgraph' := hgraph.trans hspec.graph
  have hothers : ∀ r, ¬Nodes.Uses g current r → (p.node.base r).processedFrames = 0 := by
    intro r hr
    rw [hspec.others r (mt hgraph.uses_iff.mp hr)]
    refine hidle r fun other hother => ?_
    rw [hcurrent] at hother
    cases hother
    exact hr
  have hstay : (nextFrame fx s faults).executor.nodes = p.node →
      (nextFrame fx s faults).executor.currentNode = some current →
      Nodes.SameGraph g (processAndStreamSingleFrame fx s faults).executor.nodes ∧
        Idle g (processAndStreamSingleFrame fx s faults) := by
    intro hnodes₁ hcurrent₁
    rw [Idle, hnodes, hcurrent', hnodes₁, hcurrent₁]
    exact ⟨hgraph', fun r hr => hothers r (hr current rfl)⟩
  cases hcases with
  | stays hresult hmore hnodes₁ hcurrent₁ hcontinue =>
    obtain ⟨hgraph₁, hidle₁⟩ := hstay hnodes₁ hcurrent₁
    refine ⟨hgraph₁, hidle₁, .stays (by rw [hp, hresult]) (hcurrent'.trans hcurrent₁) ?_ ?_ hcontinue⟩
    · rw [hnodes, hnodes₁, hspec.ok hresult]
    · rw [hnodes, hnodes₁, hmore]
  | advances hclosed hnodes₁ hcurrent₁ hcontinue =>
    have hclose := p.node.close_spec fx current faults
    have hgraph₁ := hgraph'.trans hclose.graph
    have hreset : ∀ r, ((p.node.close fx current faults).1.base r).processedFrames = 0 := by
      intro r
      by_cases hr : Nodes.Uses p.node current r
      · exact hclose.ok haudio hclosed r hr
      · rw [hclose.others r hr]
        exact hothers r (mt hgraph'.uses_iff.mpr hr)
    rw [hnodes₁] at hnodes
    rw [← hnodes] at hgraph₁ hreset
    refine ⟨hgraph₁, fun r _ => hreset r, .advances ?_ hreset ?_⟩
    · rw [hcurrent', hcurrent₁, hnodes₁, ← hnodes, hgraph₁.target]
    · rw [hcontinue, hcurrent']
  | stops herror hnodes₁ hcurrent₁ hcontinue =>
    obtain ⟨hgraph₁, hidle₁⟩ := hstay hnodes₁ hcurrent₁
    refine ⟨hgraph₁, hidle₁, .stops (hcurrent'.trans hcurrent₁) ?_ hcontinue⟩
    rw [hnodes, hnodes₁, hspec.error _ herror]

/-- A tick that reports no error has a current node. -/
theorem exists_current (hok : (nextFrame fx s faults).status.code = .success) :
    ∃ current, s.executor.currentNode = some current := by
  cases hnone : s.executor.currentNode with
  | some current => exact ⟨current, rfl⟩
  | none =>
    simp only [nextFrame, AudioExecutor.getNextFrame, hnone] at hok
    cases hok

/-- A tick keeps the invariant. -/
theorem Playing.frame (h : Playing g chain rest s)
    (haudio : ∀ r ∈ chain, r.IsAudio ∧ 1 ≤ (g.base r).totalFrames)
    (hok : (nextFrame fx s faults).status.code = .success) :
    ∃ rest', Playing g chain rest' (processAndStreamSingleFrame fx s faults) := by
  obtain ⟨current, hcurrent⟩ := exists_current hok
  have hleft := h.left
  rw [hcurrent] at hleft
  obtain ⟨rest, rfl, hnext⟩ := hleft.of_some
  have hshort := h.short
  simp only [Short, hcurrent, chainTotal_cons] at hshort
  obtain ⟨hsent, hprocessed⟩ := hshort
  obtain ⟨haudioCurrent, htotal⟩ := haudio current (h.suffix.subset List.mem_cons_self)
  obtain ⟨hgraph, hidle, hticked⟩ := ticked h.graph h.idle hcurrent haudioCurrent hok
  have hsent' := @processAndStreamSingleFrame_sent _ fx s faults
  generalize processAndStreamSingleFrame fx s faults = s' at hgraph hidle hticked hsent' ⊢
  cases hticked with
  | stays hresult hcurrent' hcount hmore hcontinue =>
    -- the frame is sent and the node counts it
    rw [if_pos hcontinue] at hsent'
    have hlength := congrArg List.length hsent'
    rw [List.length_append, List.length_singleton] at hlength
    rw [NodeBase.isComplete, hgraph.totalFrames, Bool.and_eq_false_iff] at hmore
    simp only [decide_eq_false_iff_not] at hmore
    refine ⟨current :: rest, hgraph, ?_, h.suffix, hidle, ?_⟩
    · rw [hcurrent']
      exact ⟨rfl, hnext⟩
    · simp only [Short, hcurrent', chainTotal_cons]
      omega
  | advances hcurrent' hreset hcontinue =>
    have hsuffix : rest <:+ chain := (List.suffix_cons current rest).trans h.suffix
    rw [hcurrent'] at hcontinue
    refine ⟨rest, hgraph, ?_, hsuffix, hidle, ?_⟩
    · rw [hcurrent']
      exact hnext
    · cases htarget : (g.base current).target with
      | none =>
        -- the chain is over, and the frame is not sent
        rw [htarget] at hcurrent' hcontinue hnext
        rw [if_neg (by rw [hcontinue]; nofun)] at hsent'
        obtain rfl : rest = [] := by
          cases rest with
          | nil => rfl
          | cons => exact hnext.elim
        simp only [Short, hcurrent', hsent']
        rw [chainTotal, List.map_nil, List.sum_nil] at hsent
        omega
      | some next =>
        rw [htarget] at hcurrent' hcontinue hnext
        rw [if_pos (by rw [hcontinue]; rfl)] at hsent'
        obtain ⟨after, rfl, -⟩ := hnext.of_some
        have htotalNext := (haudio next (hsuffix.subset List.mem_cons_self)).2
        simp only [Short, hcurrent', hreset next, hsent', List.length_append, List.length_singleton]
        push_cast
        omega
  | stops hcurrent' hcount hcontinue =>
    rw [if_neg (by rw [hcontinue]; nofun)] at hsent'
    refine ⟨current :: rest, hgraph, ?_, h.suffix, hidle, ?_⟩
    · rw [hcurrent']
      exact ⟨rfl, hnext⟩
    · simp only [Short, hcurrent', chainTotal_cons, hsent', hcount]
      exact ⟨hsent, hprocessed⟩

/-- A step of a coroutine changes neither the counters nor what is current. -/
theorem task_same (hgraph : Nodes.SameGraph g s.executor.nodes)
    (hopened : ∀ i, (g.files i).base.totalFrames = (g.files i).openedFrames) {i : ℕ}
    {t : FileInputNode.Task} (hstep : step fx s (.task i t) = some s') :
    Nodes.SameGraph g s'.executor.nodes ∧ s'.executor.nodes.base = s.executor.nodes.base ∧
      s'.executor.currentNode = s.executor.currentNode ∧ s'.sent = s.sent ∧
        s'.isRunning = s.isRunning := by
  obtain ⟨n, hrun, rfl⟩ := Option.map_eq_some_iff.mp hstep
  have hnow : (s.executor.nodes.files i).base.totalFrames =
      (s.executor.nodes.files i).openedFrames := by
    have htotal := hgraph.totalFrames (.fileInput i)
    simp only [Nodes.base] at htotal
    rw [htotal, hopened, FileInputNode.openedFrames, FileInputNode.openedFrames, hgraph.file]
  obtain ⟨hfile, hbase⟩ := FileInputNode.runTask_base hnow hrun
  have hsame : SameSource (s.executor.nodes.files i) n :=
    ⟨hfile, congrArg NodeBase.target hbase, congrArg NodeBase.totalFrames hbase⟩
  refine ⟨hgraph.trans (Nodes.sameGraph_files (sameSource_update hsame)), ?_, rfl, rfl, rfl⟩
  rw [Nodes.base_file, hbase]
  exact Function.update_eq_self (NodeRef.fileInput i) s.executor.nodes.base

/-- A step of a coroutine keeps the invariant. -/
theorem Playing.task (h : Playing g chain rest s)
    (hopened : ∀ i, (g.files i).base.totalFrames = (g.files i).openedFrames) {i : ℕ}
    {t : FileInputNode.Task} (hstep : step fx s (.task i t) = some s') :
    Playing g chain rest s' := by
  obtain ⟨hgraph, hbases, hcurrent, hsent, -⟩ := task_same h.graph hopened hstep
  refine ⟨hgraph, hcurrent ▸ h.left, h.suffix, fun r hr => ?_, ?_⟩
  · rw [hbases]
    rw [hcurrent] at hr
    exact h.idle r hr
  · have hshort := h.short
    unfold Short at hshort ⊢
    rw [hbases, hcurrent, hsent]
    exact hshort

end Step

/-- A run without underruns and errors keeps the invariant. -/
theorem playing_of_run {chain : List NodeRef} {start t : State Shifter} {es : List Event}
    (hready : Ready chain start) (hclean : Meets (step fx) (Undisturbed fx) start es)
    (hrun : runEvents (step fx) start es = some t) :
    ∃ rest, Playing start.executor.nodes chain rest t := by
  have hstart : Playing start.executor.nodes chain chain start := by
    refine ⟨Nodes.SameGraph.refl _, hready.leads, List.suffix_rfl, fun r _ => hready.processed r, ?_⟩
    have hleads := hready.leads
    unfold Short
    cases hcurrent : start.executor.currentNode with
    | none =>
      rw [hcurrent] at hleads
      obtain rfl : chain = [] := by
        cases chain with
        | nil => rfl
        | cons => exact hleads.elim
      exact absurd rfl hready.nonempty
    | some current =>
      rw [hcurrent] at hleads
      obtain ⟨rest, rfl, -⟩ := hleads.of_some
      have htotal := (hready.audio current List.mem_cons_self).2
      simp only [hready.sent, List.length_nil, hready.processed current]
      omega
  refine run_invariant (I := fun s => ∃ rest, Playing start.executor.nodes chain rest s)
    (fun s e s' hs hok he => ?_) ⟨chain, hstart⟩ hclean hrun
  obtain ⟨rest, hplaying⟩ := hs
  cases e with
  | frame faults =>
    simp only [step] at he
    split at he
    · cases he
      exact hplaying.frame hready.audio hok
    · cases he
  | task i task => exact ⟨rest, hplaying.task hready.opened he⟩

/-- Fewer frames have been sent than the chain has. -/
theorem sent_length_lt {chain : List NodeRef} {start t : State Shifter} {es : List Event}
    (hready : Ready chain start) (hclean : Meets (step fx) (Undisturbed fx) start es)
    (hrun : runEvents (step fx) start es = some t) :
    (t.sent.length : ℤ) < chainTotal start.executor.nodes chain := by
  obtain ⟨rest, hplaying⟩ := playing_of_run hready hclean hrun
  have hshort := hplaying.short
  have hleft := hplaying.left
  unfold Short at hshort
  cases hcurrent : t.executor.currentNode with
  | none => simpa only [hcurrent] using hshort
  | some current =>
    rw [hcurrent] at hshort hleft
    obtain ⟨after, rfl, -⟩ := hleft.of_some
    have hafter : 0 ≤ chainTotal start.executor.nodes after := by
      refine List.sum_nonneg fun total htotal => ?_
      obtain ⟨r, hr, rfl⟩ := List.mem_map.mp htotal
      have hmem := hplaying.suffix.subset (List.mem_cons_of_mem current hr)
      exact (Int.zero_lt_one.trans_le (hready.audio r hmem).2).le
    rw [chainTotal_cons] at hshort
    omega

/-- The frames of nodes that have produced their totals, in number. -/
theorem Dispatched.length {chain : List NodeRef} {start t : State Shifter}
    (h : Dispatched chain start t) :
    (t.sent.length : ℤ) = chainTotal start.executor.nodes chain := by
  have hsum : ∀ rs : List NodeRef, (∀ r ∈ rs, r ∈ chain) →
      ((rs.flatMap fun r => framesOf r t.produced).length : ℤ) =
        chainTotal start.executor.nodes rs := by
    intro rs hrs
    induction rs with
    | nil => rfl
    | cons r rs ih =>
      have hr := h.complete r (hrs r List.mem_cons_self)
      have hrest := ih fun q hq => hrs q (List.mem_cons_of_mem r hq)
      rw [List.flatMap_cons, List.length_append, chainTotal_cons, ← hr, ← hrest]
      exact Nat.cast_add _ _
  rw [h.sent]
  exact hsum chain fun _ hr => hr

/-- In no run without underruns and errors is every frame of the chain sent. -/
theorem not_dispatched {chain : List NodeRef} {start t : State Shifter} {es : List Event}
    (hready : Ready chain start) (hclean : Meets (step fx) (Undisturbed fx) start es)
    (hrun : runEvents (step fx) start es = some t) : ¬Dispatched chain start t := by
  intro h
  have hlt := sent_length_lt hready hclean hrun
  rw [h.length] at hlt
  exact lt_irrefl _ hlt

/-- A floating-point unit that does nothing. -/
def idleOps : FloatOps Unit := ⟨⟨fun _ shifter frame => (frame, shifter), id⟩, id⟩

/-- A session with one delay of one frame. -/
def oneDelay : State Unit where
  executor :=
    { nodes :=
        { files := fun _ =>
            ⟨⟨"f", none, 0, 0, 0, false⟩, "", "", none, none, none, (), ⟨.create, [], []⟩⟩
          mixers := fun _ => ⟨⟨"m", none, 0, 0, 0, false⟩, [], List.replicate FRAME_SIZE_BYTES 0⟩
          delays := fun _ => ⟨⟨"d", none, 0, 1, 0, false⟩⟩
          clients := fun _ => ⟨"c", none, 0, 0, 0, false⟩
          fileOptions := fun _ => ⟨⟨"o", none, 0, 0, 0, false⟩, 1, 1⟩ }
      currentNode := some (.delay 0)
      stats := ⟨"s", "d", 0, 0, 0⟩ }
  pcmBuffer := List.replicate FRAME_SIZE_BYTES 0
  isRunning := true
  sent := []
  produced := []

/-- A session on one delay is ready. -/
theorem ready_oneDelay : Ready [.delay 0] oneDelay where
  running := rfl
  leads := ⟨rfl, trivial⟩
  nonempty := nofun
  audio := fun r hr => by
    obtain rfl := List.mem_singleton.mp hr
    exact ⟨trivial, le_rfl⟩
  processed := fun r => by cases r <;> rfl
  opened := fun _ => rfl
  sent := rfl
  produced := rfl

/-- Its one frame ends the loop and is not sent. -/
theorem not_dispatched_one_delay :
    ∃ t, runEvents (step idleOps) oneDelay [.frame fun _ => none] = some t ∧
      t.isRunning = false ∧ t.produced.length = 1 ∧ t.sent = [] ∧
        ¬Dispatched [.delay 0] oneDelay t := by
  have hclean : Meets (step idleOps) (Undisturbed idleOps) oneDelay [.frame fun _ => none] :=
    ⟨rfl, fun _ _ => trivial⟩
  exact ⟨_, rfl, rfl, rfl, rfl, not_dispatched ready_oneDelay hclean rfl⟩

/-- So not every run to the end of the loop has sent every frame. -/
theorem last_frame_not_sent :
    ¬∀ (chain : List NodeRef) (start t : State Unit) (es : List Event), Ready chain start →
      Meets (step idleOps) (Undisturbed idleOps) start es →
        runEvents (step idleOps) start es = some t → t.isRunning = false →
          Dispatched chain start t := by
  intro h
  have hdispatched := h [.delay 0] oneDelay _ [.frame fun _ => none] ready_oneDelay
    ⟨rfl, fun _ _ => trivial⟩ rfl rfl
  have hlength := hdispatched.length
  exact absurd hlength (by decide)

/-- As many frames have been sent as were produced while the loop runs, and all
but the last when it has returned. -/
def AllButLast (s : State Shifter) : Prop :=
  if s.isRunning = true then s.produced.map (·.2) = s.sent
  else ∃ frame, s.produced.map (·.2) = s.sent ++ [frame]

/-- The guard of runs in which every tick produces a frame. -/
def Produces (fx : FloatOps Shifter) (s : State Shifter) : Event → Prop
  | .frame _ => produce fx s ≠ []
  | .task _ _ => True

/-- The frame produced at a tick is what the call leaves in the buffer. -/
theorem produce_eq {s : State Shifter} {faults : ℕ → Option String}
    (hsuccess : (nextFrame fx s faults).status.code = .success) (hframe : produce fx s ≠ []) :
    ∃ current, produce fx s = [(current, (nextFrame fx s faults).outputBuffer)] := by
  unfold produce at hframe ⊢
  split at hframe
  · exact absurd rfl hframe
  · rename_i current hcurrent
    have hbuffer := (AudioExecutor.getNextFrame_cases hcurrent hsuccess).1
    dsimp only at hframe ⊢
    split at hframe
    · refine ⟨current, ?_⟩
      rw [nextFrame, hbuffer]
    · exact absurd rfl hframe

/-- Where no node ends early the last frame is the only one that is not sent. -/
theorem sent_all_but_last {chain : List NodeRef} {start t : State Shifter} {es : List Event}
    (hready : Ready chain start) (hclean : Meets (step fx) (Undisturbed fx) start es)
    (hproduces : Meets (step fx) (Produces fx) start es)
    (hrun : runEvents (step fx) start es = some t) : AllButLast t := by
  have hstart : AllButLast start := by
    rw [AllButLast, if_pos hready.running, hready.produced, hready.sent]
    rfl
  refine run_invariant (fun s e s' hs hok he => ?_) hstart (hclean.and hproduces) hrun
  obtain ⟨hsuccess, hframe⟩ := hok
  cases e with
  | task i task =>
    obtain ⟨n, -, rfl⟩ := Option.map_eq_some_iff.mp he
    exact hs
  | frame faults =>
    simp only [step] at he
    split at he
    · rename_i hrunning
      cases he
      rw [AllButLast, if_pos hrunning] at hs
      obtain ⟨current, hproduced⟩ := produce_eq hsuccess hframe
      have hmap : (s.produced ++ produce fx s).map (·.2) =
          s.sent ++ [(nextFrame fx s faults).outputBuffer] := by
        rw [hproduced, List.map_append, hs, List.map_singleton]
      unfold processAndStreamSingleFrame AllButLast
      dsimp only
      split
      · rw [if_neg nofun]
        exact ⟨_, hmap⟩
      · exact hmap
    · cases he

end HermesFlow.Audio.Dispatch
