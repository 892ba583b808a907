import HermesFlow.OptionRange
import HermesFlow.Prepare

/-!
# The end of playback

A node is over when it has played its total, which must not be zero, or when it
reports the end of its stream. So a flow ends after at most the totals of its
nodes where each node has a frame to play or is a mixer without inputs; a node
without frames that is no such mixer plays on. A delay has no frame when it is
shorter than one, and when its frames are no `int`.
-/

namespace HermesFlow.Audio.Dispatch

open EventRun

variable {Shifter : Type} {fx : FloatOps Shifter}

/-- The node ends: it has a frame to play, or it is a mixer without inputs. -/
def Ends (g : Nodes Shifter) (r : NodeRef) : Prop :=
  1 ≤ (g.base r).totalFrames ∨ ∃ i, r = .mixer i ∧ (g.mixers i).inputs = []

/-- Every node of the list ends, up to one that is no audio processor. -/
def AllEnd (g : Nodes Shifter) : List NodeRef → Prop
  | [] => True
  | r :: rest => r.IsAudio → Ends g r ∧ AllEnd g rest

/-- The calls that a node may take. -/
def calls (g : Nodes Shifter) (r : NodeRef) : ℤ := max (g.base r).totalFrames 1

/-- The calls that a list of nodes may take. -/
def chainCalls (g : Nodes Shifter) (chain : List NodeRef) : ℤ := (chain.map (calls g)).sum

/-- The guard of runs in which no underrun is reported. -/
def NoUnderrun (fx : FloatOps Shifter) (s : State Shifter) : Event → Prop
  | .frame faults => (nextFrame fx s faults).status.code ≠ .underrun
  | .task _ _ => True

/-- The calls of `get_next_frame`. -/
def Event.isFrame : Event → Bool
  | .frame _ => true
  | .task _ _ => false

/-- A chain takes the calls of its first node and of the rest. -/
theorem chainCalls_cons (g : Nodes Shifter) (r : NodeRef) (chain : List NodeRef) :
    chainCalls g (r :: chain) = calls g r + chainCalls g chain := by
  rw [chainCalls, List.map_cons, List.sum_cons, chainCalls]

/-- No chain takes a negative number of calls. -/
theorem chainCalls_nonneg (g : Nodes Shifter) (chain : List NodeRef) : 0 ≤ chainCalls g chain := by
  refine List.sum_nonneg fun total htotal => ?_
  obtain ⟨r, -, rfl⟩ := List.mem_map.mp htotal
  exact (by decide : (0 : ℤ) ≤ 1).trans (le_max_right _ _)

/-- The calls that are left. -/
def callsLeft (g : Nodes Shifter) (rest : List NodeRef) (s : State Shifter) : ℤ :=
  chainCalls g rest -
    s.executor.currentNode.elim 0 fun current => (s.executor.nodes.base current).processedFrames

/-- The invariant of a run, with the nodes left to play. -/
structure Nearing (g : Nodes Shifter) (rest : List NodeRef) (s : State Shifter) : Prop where
  /-- The graph is the one it started with. -/
  graph : Nodes.SameGraph g s.executor.nodes
  /-- A node is current. -/
  current : s.executor.currentNode ≠ none
  /-- These nodes are left to play. -/
  left : NextChain g s.executor.currentNode rest
  /-- Each of them ends. -/
  ends : AllEnd g rest
  /-- A node not in use has played nothing. -/
  idle : Idle g s
  /-- The current node has a call left. -/
  more : ∀ current ∈ s.executor.currentNode,
    (s.executor.nodes.base current).processedFrames < calls g current

section Step

variable {s : State Shifter} {faults : ℕ → Option String}

/-- A frame that wants to go on has succeeded. -/
theorem finishFrame_success {e : AudioExecutor Shifter} {current : NodeRef}
    {outputBuffer : List UInt8} {isEos : Bool}
    (hcontinue : (AudioExecutor.getNextFrame.finishFrame fx faults e current outputBuffer
      isEos).wantsContinue = true) :
    (AudioExecutor.getNextFrame.finishFrame fx faults e current outputBuffer isEos).status.code =
      .success := by
  unfold AudioExecutor.getNextFrame.finishFrame at hcontinue ⊢
  dsimp only at hcontinue ⊢
  split at hcontinue
  · rename_i hover
    rw [if_pos hover]
    split at hcontinue
    · cases hcontinue
    · rfl
  · rename_i hmore
    rw [if_neg hmore]
    rfl

/-- A call that returns `true` reports no error but an underrun. -/
theorem success_of_continue (hcontinue : (nextFrame fx s faults).wantsContinue = true)
    (hquiet : (nextFrame fx s faults).status.code ≠ .underrun) :
    (nextFrame fx s faults).status.code = .success := by
  unfold nextFrame AudioExecutor.getNextFrame at hcontinue hquiet ⊢
  cases hcurrent : s.executor.currentNode with
  | none =>
    simp only [hcurrent] at hcontinue
    cases hcontinue
  | some current =>
    simp only [hcurrent] at hcontinue hquiet ⊢
    by_cases hempty : s.pcmBuffer = []
    · rw [if_pos hempty] at hcontinue
      cases hcontinue
    · rw [if_neg hempty] at hcontinue hquiet ⊢
      generalize s.executor.nodes.processFrame fx current
        (List.replicate s.pcmBuffer.length 0) = p at hcontinue hquiet ⊢
      cases hresult : p.result with
      | ok =>
        simp only [hresult] at hcontinue ⊢
        exact finishFrame_success hcontinue
      | error error =>
        simp only [hresult] at hcontinue hquiet ⊢
        by_cases hstops : error.code = .notSupported
        · rw [if_pos hstops] at hcontinue
          cases hcontinue
        · rw [if_neg hstops] at hcontinue hquiet ⊢
          by_cases heos : error.code ≠ .endOfStream
          · rw [if_pos heos] at hcontinue hquiet
            exact absurd (of_decide_eq_true hcontinue) hquiet
          · rw [if_neg heos] at hcontinue ⊢
            exact finishFrame_success hcontinue

/-- A node that is no audio processor ends playback. -/
theorem not_continue_of_not_audio {current : NodeRef}
    (hcurrent : s.executor.currentNode = some current) (haudio : ¬current.IsAudio) :
    (nextFrame fx s faults).wantsContinue = false := by
  unfold nextFrame AudioExecutor.getNextFrame
  simp only [hcurrent]
  split
  · rfl
  · cases current with
    | clients i | fileOptions i => rfl
    | fileInput i | mixer i | delay i => exact absurd trivial haudio

/-- A mixer without inputs produces no frame. -/
theorem mixer_without_inputs {g : Nodes Shifter} {i : ℕ} (hinputs : (g.mixers i).inputs = [])
    (frameBuffer : List UInt8) : (g.processFrame fx (.mixer i) frameBuffer).result ≠ .ok () := by
  intro hok
  simp only [Nodes.processFrame, MixerNode.processFrame, hinputs, mixInputs, if_true] at hok
  cases hok

variable {g : Nodes Shifter} {rest : List NodeRef}

/-- The calls left while a node plays. -/
theorem callsLeft_of_current {current : NodeRef} (h : s.executor.currentNode = some current) :
    callsLeft g (current :: rest) s = calls g current + chainCalls g rest -
      (s.executor.nodes.base current).processedFrames := by
  rw [callsLeft, h, chainCalls_cons]
  rfl

/-- A node that has not been called has all its calls left. -/
theorem callsLeft_of_reset (h : ∀ r, (s.executor.nodes.base r).processedFrames = 0) :
    callsLeft g rest s = chainCalls g rest := by
  rw [callsLeft]
  cases s.executor.currentNode with
  | none => exact Int.sub_zero _
  | some next =>
    simp only [Option.elim_some, h next]
    exact Int.sub_zero _

/-- A tick that returns `true` without an underrun takes one of the calls left. -/
theorem Nearing.frame (h : Nearing g rest s)
    (hquiet : (nextFrame fx s faults).status.code ≠ .underrun)
    (hcontinue : (nextFrame fx s faults).wantsContinue = true) :
    ∃ rest', Nearing g rest' (processAndStreamSingleFrame fx s faults) ∧
      callsLeft g rest' (processAndStreamSingleFrame fx s faults) + 1 ≤ callsLeft g rest s := by
  have hok := success_of_continue hcontinue hquiet
  obtain ⟨current, hcurrent⟩ := exists_current hok
  have haudio : current.IsAudio := by
    by_contra hstops
    have hfalse := @not_continue_of_not_audio _ fx s faults current hcurrent hstops
    rw [hcontinue] at hfalse
    cases hfalse
  have hleft := h.left
  rw [hcurrent] at hleft
  obtain ⟨rest, rfl, hnext⟩ := hleft.of_some
  obtain ⟨hends, hrestEnds⟩ := h.ends haudio
  have hmore := h.more current hcurrent
  obtain ⟨hgraph, hidle, hticked⟩ := ticked h.graph h.idle hcurrent haudio hok
  have hbefore := @callsLeft_of_current _ s g rest current hcurrent
  have hcalls : calls g current = max (g.base current).totalFrames 1 := rfl
  generalize processAndStreamSingleFrame fx s faults = s' at hgraph hidle hticked ⊢
  cases hticked with
  | stays hresult hcurrent' hcount hincomplete _ =>
    have htotal : 1 ≤ (g.base current).totalFrames := by
      rcases hends with htotal | ⟨i, rfl, hinputs⟩
      · exact htotal
      · rw [← h.graph.inputs] at hinputs
        exact absurd hresult (mixer_without_inputs hinputs _)
    rw [NodeBase.isComplete, hgraph.totalFrames, Bool.and_eq_false_iff] at hincomplete
    simp only [decide_eq_false_iff_not] at hincomplete
    refine ⟨current :: rest, ⟨hgraph, ?_, ?_, fun _ => ⟨hends, hrestEnds⟩, hidle, ?_⟩, ?_⟩
    · rw [hcurrent']
      exact Option.some_ne_none current
    · rw [hcurrent']
      exact ⟨rfl, hnext⟩
    · intro other hother
      rw [hcurrent'] at hother
      cases hother
      omega
    · rw [hbefore, callsLeft_of_current hcurrent']
      omega
  | advances hcurrent' hreset hcontinue' =>
    refine ⟨rest, ⟨hgraph, ?_, ?_, hrestEnds, hidle, ?_⟩, ?_⟩
    · rw [hcontinue] at hcontinue'
      exact Option.isSome_iff_ne_none.mp hcontinue'.symm
    · rw [hcurrent']
      exact hnext
    · intro other _
      rw [hreset other]
      exact Int.lt_of_lt_of_le Int.zero_lt_one (le_max_right _ _)
    · rw [callsLeft_of_reset hreset, hbefore]
      omega
  | stops _ _ hstops =>
    rw [hcontinue] at hstops
    cases hstops

/-- A step of a coroutine takes no call. -/
theorem Nearing.task {s' : State Shifter} (h : Nearing g rest s)
    (hopened : ∀ i, (g.files i).base.totalFrames = (g.files i).openedFrames) {i : ℕ}
    {t : FileInputNode.Task} (hstep : step fx s (.task i t) = some s') :
    Nearing g rest s' ∧ callsLeft g rest s' = callsLeft g rest s := by
  obtain ⟨hgraph, hbases, hcurrent, -⟩ := task_same h.graph hopened hstep
  refine ⟨⟨hgraph, hcurrent ▸ h.current, hcurrent ▸ h.left, h.ends, fun r hr => ?_, ?_⟩, ?_⟩
  · rw [hbases]
    rw [hcurrent] at hr
    exact h.idle r hr
  · rw [hbases, hcurrent]
    exact h.more
  · rw [callsLeft, callsLeft, hbases, hcurrent]

/-- While the loop runs a call is left. -/
theorem Nearing.callsLeft_pos (h : Nearing g rest s) : 0 < callsLeft g rest s := by
  obtain ⟨current, hsome⟩ := Option.ne_none_iff_exists'.mp h.current
  have hleft := h.left
  rw [hsome] at hleft
  obtain ⟨after, rfl, -⟩ := hleft.of_some
  have hmore := h.more current hsome
  have hafter := chainCalls_nonneg g after
  rw [callsLeft_of_current hsome]
  omega

/-- In a run without underruns the calls are taken from those left. -/
theorem Nearing.run {t : State Shifter} {es : List Event} (h : Nearing g rest s)
    (hopened : ∀ i, (g.files i).base.totalFrames = (g.files i).openedFrames)
    (hrunning : s.isRunning = true) (hquiet : Meets (step fx) (NoUnderrun fx) s es)
    (hrun : runEvents (step fx) s es = some t) (hstill : t.isRunning = true) :
    ∃ rest', Nearing g rest' t ∧
      callsLeft g rest' t + es.countP Event.isFrame ≤ callsLeft g rest s := by
  induction es generalizing s rest with
  | nil =>
    cases hrun
    exact ⟨rest, h, by rw [List.countP_nil]; omega⟩
  | cons e es ih =>
    obtain ⟨s', hstep, ht⟩ := runEvents_cons_iff.mp hrun
    have hquiet' := hquiet.2 s' hstep
    have hrunning' : s'.isRunning = true := by
      by_contra hstopped
      have hnot := not_running_of_run (Bool.eq_false_of_not_eq_true hstopped) ht
      rw [hstill] at hnot
      cases hnot
    cases e with
    | frame faults =>
      simp only [step, if_pos hrunning] at hstep
      obtain rfl := Option.some.inj hstep
      rw [isRunning_tick hrunning] at hrunning'
      obtain ⟨rest', hnext, hless⟩ := h.frame hquiet.1 hrunning'
      rw [← isRunning_tick hrunning] at hrunning'
      obtain ⟨last, hlast, hcount⟩ := ih hnext hrunning' hquiet' ht
      refine ⟨last, hlast, ?_⟩
      rw [List.countP_cons_of_pos rfl]
      push_cast
      omega
    | task i task =>
      obtain ⟨hnext, hsame⟩ := h.task hopened hstep
      obtain ⟨last, hlast, hcount⟩ := ih hnext hrunning' hquiet' ht
      refine ⟨last, hlast, ?_⟩
      rw [List.countP_cons_of_neg (by simp [Event.isFrame]), ← hsame]
      exact hcount

end Step

/-- In every run without underruns, `get_next_frame` returns `false` after at
most the calls of the chain. -/
def EndsInTime (fx : FloatOps Shifter) (chain : List NodeRef) (start : State Shifter) : Prop :=
  ∀ (es : List Event) (t : State Shifter), Meets (step fx) (NoUnderrun fx) start es →
    runEvents (step fx) start es = some t → t.isRunning = true →
      (es.countP Event.isFrame : ℤ) < chainCalls start.executor.nodes chain

/-- The playback of an accepted flow ends in time where every node of its chain
ends, up to one that is no audio processor. -/
theorem playback_ends {lib : Infra.Library} {o : Infra.JsonObject} {graph : Infra.Graph}
    (hparse : Infra.parseGraph lib o = .ok graph) (disk : String → Option (List UInt8))
    (shifter : Shifter) (stats : SessionStats) (reads : ℕ → Bool × Bool) (pcmBuffer : List UInt8)
    {chain : List NodeRef}
    (hchain : NextChain (startSession graph disk shifter stats reads pcmBuffer).executor.nodes
      (startSession graph disk shifter stats reads pcmBuffer).executor.currentNode chain)
    (hends : AllEnd (startSession graph disk shifter stats reads pcmBuffer).executor.nodes chain) :
    EndsInTime fx chain (startSession graph disk shifter stats reads pcmBuffer) := by
  intro es t hquiet hrun hstill
  have hcurrent : (startSession graph disk shifter stats reads pcmBuffer).executor.currentNode ≠
      none := by
    have hparsed := Infra.parseGraph_ok hparse
    obtain ⟨id, p, hp, hstart⟩ := hparsed.start
    have howned := hparsed.owned (.inr (.inr (.inl ⟨id, hp⟩)))
    change graph.startNode.bind (pointer graph) ≠ none
    rw [hstart, Option.bind_some, pointer, Infra.kindAt, List.getElem?_eq_getElem howned]
    exact Option.some_ne_none _
  have hprocessed := startSession_processedFrames graph disk shifter stats reads pcmBuffer
  have hstart : Nearing (startSession graph disk shifter stats reads pcmBuffer).executor.nodes chain
      (startSession graph disk shifter stats reads pcmBuffer) := by
    refine ⟨Nodes.SameGraph.refl _, hcurrent, hchain, hends, fun r _ => hprocessed r, ?_⟩
    intro current _
    rw [hprocessed current]
    exact Int.lt_of_lt_of_le Int.zero_lt_one (le_max_right _ _)
  have hall := @callsLeft_of_reset _ (startSession graph disk shifter stats reads pcmBuffer)
    (startSession graph disk shifter stats reads pcmBuffer).executor.nodes chain hprocessed
  obtain ⟨rest, hnearing, hcount⟩ := hstart.run
    (startSession_opened graph disk shifter stats reads pcmBuffer) rfl hquiet hrun hstill
  have hpos := hnearing.callsLeft_pos
  omega

/-- A flow that starts with a delay of so many milliseconds. -/
def startDelay (milliseconds : ℕ) : Infra.JsonObject :=
  Infra.flowOf [Infra.nodeJson "d" "delay" [("delay", .int64 milliseconds)]] [] "d"

/-- Its graph. -/
def delayGraph (milliseconds : ℕ) : Infra.Graph :=
  let delay : Infra.NodeData := .delay (Infra.delayFrames Infra.plainLibrary milliseconds)
  { Infra.Graph.empty.addNode ⟨"d", none, delay⟩ with startNode := some 0 }

/-- Its session, on a disk without files. -/
def delaySession (graph : Infra.Graph) : State Unit :=
  startSession graph (fun _ => none) () ⟨"s", "", 0, 0, 0⟩ (fun _ => (true, true))
    (List.replicate FRAME_SIZE_BYTES 0)

/-- A delay ends when it is as long as a frame and its frames are an `int`. -/
theorem ends_delay_iff (milliseconds : ℕ) :
    Ends (delaySession (delayGraph milliseconds)).executor.nodes (.delay 0) ↔
      20 ≤ milliseconds ∧ milliseconds < 20 * 2 ^ 31 := by
  have hframes : 1 ≤ Infra.delayFrames Infra.plainLibrary milliseconds ↔
      20 ≤ milliseconds ∧ milliseconds < 20 * 2 ^ 31 := by
    rw [Infra.one_le_delayFrames_iff rfl milliseconds.cast_nonneg]
    norm_cast
  rw [← hframes]
  constructor
  · rintro (hone | ⟨i, hmixer, -⟩)
    · exact hone
    · cases hmixer
  · exact .inl

/-- A delay of 60 ends with its third call. -/
theorem playback_ends_delay :
    EndsInTime idleOps [.delay 0] (delaySession (delayGraph 60)) := by
  have hparse : Infra.parseGraph Infra.plainLibrary (startDelay 60) = .ok (delayGraph 60) := rfl
  refine @playback_ends _ idleOps _ _ _ hparse _ _ _ _ _ _ ?_ ?_
  · exact ⟨rfl, trivial⟩
  · exact fun _ => ⟨(ends_delay_iff 60).mpr (by norm_num), trivial⟩

/-- A delay without frames is never complete. -/
theorem delay_tick {s : State Shifter} {i : ℕ} (hbuffer : s.pcmBuffer ≠ [])
    (hcurrent : s.executor.currentNode = some (.delay i))
    (htotal : (s.executor.nodes.delays i).base.totalFrames ≤ 0) (faults : ℕ → Option String) :
    nextFrame fx s faults =
      ⟨{ nodes := (s.executor.nodes.processFrame fx (.delay i)
            (List.replicate s.pcmBuffer.length 0)).node
         currentNode := some (.delay i)
         stats := { s.executor.stats with
           totalBytesSent := s.executor.stats.totalBytesSent + FRAME_SIZE_BYTES } },
        true, successStatus, List.replicate s.pcmBuffer.length 0⟩ := by
  have hincomplete : ((s.executor.nodes.processFrame fx (.delay i)
      (List.replicate s.pcmBuffer.length 0)).node.base (.delay i)).isComplete = false := by
    simp only [Nodes.processFrame, Nodes.base, Function.update_self, DelayNode.processFrame,
      NodeBase.isComplete]
    rw [decide_eq_false (by omega), Bool.false_and]
  rw [nextFrame_of_incomplete hbuffer hcurrent rfl rfl hincomplete]
  simp only [Nodes.processFrame, DelayNode.processFrame, List.length_replicate]

/-- It plays on: every call returns `true`, with no error. -/
theorem delay_plays_on {s : State Shifter} {i : ℕ} (hrunning : s.isRunning = true)
    (hbuffer : s.pcmBuffer ≠ []) (hcurrent : s.executor.currentNode = some (.delay i))
    (htotal : (s.executor.nodes.delays i).base.totalFrames ≤ 0) (faults : ℕ → Option String)
    (n : ℕ) :
    Meets (step fx) (NoUnderrun fx) s (List.replicate n (.frame faults)) ∧
      ∃ t, runEvents (step fx) s (List.replicate n (.frame faults)) = some t ∧
        t.isRunning = true := by
  induction n generalizing s with
  | zero => exact ⟨trivial, s, rfl, hrunning⟩
  | succ n ih =>
    have hnext := @delay_tick _ fx s i hbuffer hcurrent htotal faults
    have hrest := @ih (processAndStreamSingleFrame fx s faults) ?_ ?_ ?_ ?_
    · have hstep : step fx s (.frame faults) = some (processAndStreamSingleFrame fx s faults) :=
        if_pos hrunning
      refine ⟨⟨?_, fun s' hs' => ?_⟩, ?_⟩
      · rw [NoUnderrun, hnext]
        nofun
      · obtain rfl := Option.some.inj (hstep.symm.trans hs')
        exact hrest.1
      · obtain ⟨t, ht, hstill⟩ := hrest.2
        exact ⟨t, runEvents_cons_iff.mpr ⟨_, hstep, ht⟩, hstill⟩
    all_goals simp only [processAndStreamSingleFrame, hnext]
    · exact hrunning
    · exact fun hempty => hbuffer (by simpa using hempty)
    · rfl
    · simpa [Nodes.processFrame, DelayNode.processFrame] using htotal

/-- A delay of 10 has no frame, and does not end. -/
theorem playback_does_not_end :
    ¬∀ (lib : Infra.Library) (o : Infra.JsonObject) (graph : Infra.Graph),
      Infra.parseGraph lib o = .ok graph → ∀ chain : List NodeRef,
        NextChain (delaySession graph).executor.nodes (delaySession graph).executor.currentNode
          chain → EndsInTime idleOps chain (delaySession graph) := by
  intro h
  have hparse : Infra.parseGraph Infra.plainLibrary (startDelay 10) = .ok (delayGraph 10) := rfl
  have hends := h _ _ _ hparse [.delay 0] ⟨rfl, trivial⟩
  obtain ⟨hquiet, t, hrun, hstill⟩ := @delay_plays_on _ idleOps (delaySession (delayGraph 10)) 0 rfl
    (List.cons_ne_nil _ _) rfl (by decide +kernel) (fun _ => none) 1
  exact absurd (hends _ t hquiet hrun hstill) (by decide +kernel)

end HermesFlow.Audio.Dispatch
