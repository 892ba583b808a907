import HermesFlow.FilePlayback
import HermesFlow.Prepare

/-!
# Reads of a closed source

`close` resets the buffers of a file input and, in a loop, spawns an
`initialize_buffers` that fills them again. Nothing keeps the node from being
played before: its frames are then zeros. So no closed source is read in the runs
that play a node when no `initialize_buffers` of it is under way, and play it
again after a close in a loop only.
-/

namespace HermesFlow.Audio.ClosedSource

open EventRun

variable {Shifter : Type} {fx : FloatOps Shifter}

/-- A session, with what has happened to each of its file inputs. -/
structure State (Shifter : Type) where
  /-- The session as it is. -/
  session : Dispatch.State Shifter
  /-- `close` has been called. -/
  closed : ℕ → Bool
  /-- An `initialize_buffers` has completed after the most recent `close`. -/
  initialised : ℕ → Bool

/-- The inputs that `MixerNode::close` closes: up to one that fails. -/
def closedInputs (faults : ℕ → Option String) : List ℕ → List ℕ
  | [] => []
  | source :: inputs =>
    source :: if (faults source).isSome then [] else closedInputs faults inputs

/-- The file inputs that `close` of a node closes. -/
def closedFiles (g : Nodes Shifter) (r : NodeRef) (faults : ℕ → Option String) : List ℕ :=
  match r with
  | .fileInput i => [i]
  | .mixer i => closedInputs faults (g.mixers i).inputs
  | .delay _ | .clients _ | .fileOptions _ => []

/-- The call is over with its node. -/
def leaves (p : Processed (Nodes Shifter)) (current : NodeRef) : Bool :=
  match p.result with
  | .ok () => (p.node.base current).isComplete
  | .error error => error.code = .endOfStream

/-- The file inputs that a tick closes. -/
def closedAt (fx : FloatOps Shifter) (s : Dispatch.State Shifter) (faults : ℕ → Option String) :
    List ℕ :=
  match s.executor.currentNode with
  | none => []
  | some current =>
    let p := s.executor.nodes.processFrame fx current (List.replicate s.pcmBuffer.length 0)
    if s.pcmBuffer ≠ [] ∧ leaves p current = true then closedFiles p.node current faults else []

/-- The inputs of a mixer whose `process_frame` returns success, along the loop. -/
def servedInputs (fx : FloatOps Shifter) : List ℕ → Mixing Shifter → List ℕ
  | [], _ => []
  | source :: inputs, m =>
    let p := (m.files source).processFrame fx.toEffects m.tempInputBuffer
    let m := { m with
      files := Function.update m.files source p.node
      tempInputBuffer := p.frameBuffer }
    match p.result with
    | .error error => if error.code = .critical then [] else servedInputs fx inputs m
    | .ok () => source :: servedInputs fx inputs { m with
        hasActiveInputs := true
        accumulator := AudioMath.sumBuffers m.accumulator (asSamples m.tempInputBuffer) }

/-- The file inputs whose `process_frame` returns success at a tick. -/
def servedAt (fx : FloatOps Shifter) (s : Dispatch.State Shifter) : List ℕ :=
  match s.executor.currentNode with
  | some (.fileInput i) =>
    match ((s.executor.nodes.files i).processFrame fx.toEffects
      (List.replicate s.pcmBuffer.length 0)).result with
    | .ok () => [i]
    | .error _ => []
  | some (.mixer i) =>
    let m := s.executor.nodes.mixers i
    servedInputs fx m.inputs
      ⟨s.executor.nodes.files, m.tempInputBuffer, List.replicate SAMPLES_PER_FRAME 0, false⟩
  | _ => []

/-- A coroutine completes an `initialize_buffers`. -/
def completes : FileInputNode.Task → Bool
  | .initSecond _ _ => true
  | _ => false

/-- The step of one event. -/
def step (fx : FloatOps Shifter) (s : State Shifter) : Dispatch.Event → Option (State Shifter)
  | .frame faults =>
    (Dispatch.step fx s.session (.frame faults)).map fun session =>
      { session := session
        closed := fun i => s.closed i || decide (i ∈ closedAt fx s.session faults)
        initialised := fun i => s.initialised i && !decide (i ∈ closedAt fx s.session faults) }
  | .task i t =>
    (Dispatch.step fx s.session (.task i t)).map fun session =>
      { s with
        session := session
        initialised := Function.update s.initialised i (s.initialised i || completes t) }

/-- What no run may do: deliver a frame of a source that has been closed and not
been initialised since. -/
def ReadsOpen (fx : FloatOps Shifter) (s : State Shifter) : Dispatch.Event → Prop
  | .frame _ => s.session.isRunning = true → ∀ i ∈ servedAt fx s.session, s.initialised i = true
  | .task _ _ => True

/-- An `initialize_buffers` of the node is not over. -/
def Pending (n : FileInputNode Shifter) : Prop := ∃ pc ∈ n.buffer.inits, pc ≠ .done

/-- The guard: a file input that the current node plays has no
`initialize_buffers` under way and, if it has been closed, is in a loop. -/
def PlaysReopened (s : State Shifter) : Dispatch.Event → Prop
  | .frame _ => s.session.isRunning = true → ∀ current ∈ s.session.executor.currentNode, ∀ i,
      Nodes.Uses s.session.executor.nodes current (.fileInput i) →
        ¬Pending (s.session.executor.nodes.files i) ∧
          (s.closed i = true → (s.session.executor.nodes.files i).base.isInLoop = true)
  | .task _ _ => True

/-- The invariant: while the loop runs, a node that is not initialised has been
closed, and in a loop an `initialize_buffers` is on its way. -/
def Inv (s : State Shifter) : Prop :=
  s.session.isRunning = true → ∀ i, s.initialised i = false →
    s.closed i = true ∧ ((s.session.executor.nodes.files i).base.isInLoop = true →
      Pending (s.session.executor.nodes.files i))

/-- The second node has the flag of the first, and what was pending is. -/
structure Keeps (a b : FileInputNode Shifter) : Prop where
  /-- The flag of the loop is the same. -/
  isInLoop : b.base.isInLoop = a.base.isInLoop
  /-- A pending refill stays pending. -/
  pending : Pending a → Pending b

/-- Every node keeps itself. -/
theorem Keeps.refl (n : FileInputNode Shifter) : Keeps n n := ⟨rfl, id⟩

/-- Keeping composes. -/
theorem Keeps.trans {a b c : FileInputNode Shifter} (h : Keeps a b) (h' : Keeps b c) : Keeps a c :=
  ⟨h'.isInLoop.trans h.isInLoop, fun ha => h'.pending (h.pending ha)⟩

/-- Replacing one file by what it keeps keeps every file. -/
theorem keeps_update {files : FileNodes Shifter} {source : ℕ} {n : FileInputNode Shifter}
    (h : Keeps (files source) n) (j : ℕ) : Keeps (files j) (Function.update files source n j) := by
  rcases eq_or_ne j source with rfl | hj
  · rw [Function.update_self]
    exact h
  · rw [Function.update_of_ne hj]
    exact Keeps.refl (files j)

section Node

variable (fx : Effects Shifter) (n : FileInputNode Shifter)

/-- A frame keeps the node. -/
theorem keeps_processFrame (frameBuffer : List UInt8) :
    Keeps n (n.processFrame fx frameBuffer).node := by
  obtain ⟨hloop, -, hinits⟩ := n.processFrame_frame fx frameBuffer
  refine ⟨hloop, fun h => ?_⟩
  rw [Pending, hinits]
  exact h

/-- A close keeps the node. -/
theorem keeps_close (fault : Option String) : Keeps n (n.close fx fault).1 := by
  cases fault with
  | some message => exact ⟨rfl, id⟩
  | none =>
    refine ⟨rfl, fun ⟨pc, hpc, hdone⟩ => ⟨pc, ?_, hdone⟩⟩
    simp only [FileInputNode.close]
    split
    · exact List.mem_append_left _ hpc
    · exact hpc

/-- A node that is closed in a loop is initialised again. -/
theorem pending_close (hclosed : (n.close fx none).1.base.isInLoop = true) :
    Pending (n.close fx none).1 := by
  have hloop : n.base.isInLoop = true := hclosed
  refine ⟨.spawned, ?_, nofun⟩
  simp only [FileInputNode.close, if_pos hloop]
  exact List.mem_append_right _ List.mem_cons_self

end Node

/-- A node in a loop has an `initialize_buffers` on its way. -/
def Renewed (n : FileInputNode Shifter) : Prop := n.base.isInLoop = true → Pending n

/-- A renewed node stays renewed when it is kept. -/
theorem Keeps.renewed {a b : FileInputNode Shifter} (h : Keeps a b) (ha : Renewed a) : Renewed b :=
  fun hloop => h.pending (ha (h.isInLoop ▸ hloop))

/-- Mixing keeps every file input. -/
theorem keeps_mixInputs (fx : FloatOps Shifter) (inputs : List ℕ) (m : Mixing Shifter) (j : ℕ) :
    Keeps (m.files j) ((mixInputs fx inputs m).1.files j) := by
  induction inputs generalizing m with
  | nil => exact Keeps.refl _
  | cons source inputs ih =>
    have hstep := keeps_update
      (keeps_processFrame fx.toEffects (m.files source) m.tempInputBuffer) j
    have hrest : ∀ buffer accumulator active, Keeps (m.files j)
        ((mixInputs fx inputs ⟨Function.update m.files source ((m.files source).processFrame
          fx.toEffects m.tempInputBuffer).node, buffer, accumulator, active⟩).1.files j) :=
      fun buffer accumulator active =>
        hstep.trans (ih ⟨Function.update m.files source _, buffer, accumulator, active⟩)
    rw [mixInputs]
    dsimp only
    split
    · split
      · exact hstep
      · exact hrest _ _ _
    · exact hrest _ _ _

/-- Closing the inputs of a mixer keeps every file input. -/
theorem keeps_closeInputs (fx : FloatOps Shifter) (faults : ℕ → Option String) (inputs : List ℕ)
    (files : FileNodes Shifter) (j : ℕ) :
    Keeps (files j) ((closeInputs fx faults inputs files).1 j) := by
  induction inputs generalizing files with
  | nil => exact Keeps.refl _
  | cons source inputs ih =>
    have hstep := keeps_update (keeps_close fx.toEffects (files source) (faults source)) j
    rw [closeInputs]
    split
    · exact hstep
    · exact hstep.trans (ih _)

/-- Inputs that have all been closed are initialised again. -/
theorem renewed_closeInputs (fx : FloatOps Shifter) (faults : ℕ → Option String) {inputs : List ℕ}
    {files : FileNodes Shifter} (hok : (closeInputs fx faults inputs files).2 = .ok ()) {j : ℕ}
    (hj : j ∈ closedInputs faults inputs ∨ Renewed (files j)) :
    Renewed ((closeInputs fx faults inputs files).1 j) := by
  induction inputs generalizing files with
  | nil => exact hj.resolve_left List.not_mem_nil
  | cons source inputs ih =>
    have hstep := keeps_update (keeps_close fx.toEffects (files source) (faults source)) j
    rw [closeInputs] at hok ⊢
    cases hfault : faults source with
    | some message =>
      rw [hfault] at hok
      cases hok
    | none =>
      rw [hfault] at hok hstep
      refine ih hok ?_
      rcases hj with hmem | hrenewed
      · rw [closedInputs, hfault] at hmem
        rcases List.mem_cons.mp hmem with rfl | hrest
        · right
          rw [Function.update_self]
          exact pending_close fx.toEffects (files j)
        · exact .inl hrest
      · exact .inr (hstep.renewed hrenewed)

/-- A frame of any node keeps every file input. -/
theorem keeps_processFrame_nodes (fx : FloatOps Shifter) (g : Nodes Shifter) (r : NodeRef)
    (frameBuffer : List UInt8) (j : ℕ) :
    Keeps (g.files j) ((g.processFrame fx r frameBuffer).node.files j) := by
  cases r with
  | fileInput i => exact keeps_update (keeps_processFrame fx.toEffects (g.files i) frameBuffer) j
  | mixer i =>
    have hloop := keeps_mixInputs fx (g.mixers i).inputs
      ⟨g.files, (g.mixers i).tempInputBuffer, List.replicate SAMPLES_PER_FRAME 0, false⟩ j
    simp only [Nodes.processFrame, MixerNode.processFrame]
    split
    · exact hloop
    · split <;> exact hloop
  | delay i | clients i | fileOptions i => exact Keeps.refl _

/-- What `close` of a node does to the file inputs. -/
theorem close_files (fx : FloatOps Shifter) (g : Nodes Shifter) (r : NodeRef)
    (faults : ℕ → Option String) (j : ℕ) :
    Keeps (g.files j) ((g.close fx r faults).1.files j) ∧
      ((g.close fx r faults).2 = .ok () → j ∈ closedFiles g r faults →
        Renewed ((g.close fx r faults).1.files j)) := by
  cases r with
  | fileInput i =>
    refine ⟨keeps_update (keeps_close fx.toEffects (g.files i) (faults i)) j, fun hok hj => ?_⟩
    obtain rfl := List.mem_singleton.mp hj
    simp only [Nodes.close] at hok ⊢
    cases hfault : faults j with
    | some message =>
      rw [hfault] at hok
      cases hok
    | none =>
      rw [Function.update_self]
      exact pending_close fx.toEffects (g.files j)
  | mixer i =>
    have hfiles := (g.mixers i).close_files fx g.files faults
    simp only [Nodes.close, hfiles]
    refine ⟨keeps_closeInputs fx faults _ _ j, fun hok hj => ?_⟩
    obtain ⟨-, ⟨-, -, hclosed⟩ | ⟨⟨error, herror⟩, -⟩⟩ := (g.mixers i).close_base fx g.files faults
    · exact renewed_closeInputs fx faults hclosed (.inl hj)
    · cases hok.symm.trans herror
  | delay i | clients i | fileOptions i =>
    exact ⟨Keeps.refl _, fun _ hj => absurd hj List.not_mem_nil⟩

/-- Advancing closes the node and touches no other. -/
theorem advanceToNextNode_nodes (fx : FloatOps Shifter) (e : AudioExecutor Shifter)
    (current : NodeRef) (faults : ℕ → Option String) :
    (e.advanceToNextNode fx current faults).1.nodes = (e.nodes.close fx current faults).1 := by
  unfold AudioExecutor.advanceToNextNode
  dsimp only
  split
  · rfl
  · split <;> rfl

/-- The end of a frame keeps every file input, and only an end of stream goes on. -/
theorem finishFrame_files (fx : FloatOps Shifter) (faults : ℕ → Option String)
    (e : AudioExecutor Shifter) (current : NodeRef) (outputBuffer : List UInt8) (isEos : Bool)
    (j : ℕ) :
    Keeps (e.nodes.files j) ((AudioExecutor.getNextFrame.finishFrame fx faults e current outputBuffer
        isEos).executor.nodes.files j) ∧
      ((AudioExecutor.getNextFrame.finishFrame fx faults e current outputBuffer
          isEos).wantsContinue = true →
        isEos = true ∨ (e.nodes.base current).isComplete = true →
          j ∈ closedFiles e.nodes current faults →
            Renewed ((AudioExecutor.getNextFrame.finishFrame fx faults e current outputBuffer
              isEos).executor.nodes.files j)) := by
  obtain ⟨hkeeps, hrenewed⟩ := close_files fx e.nodes current faults j
  rw [← advanceToNextNode_nodes] at hkeeps hrenewed
  unfold AudioExecutor.getNextFrame.finishFrame
  by_cases hover : isEos = true ∨ (e.nodes.base current).isComplete = true
  · simp only [if_pos hover]
    cases hclosed : (e.nodes.close fx current faults).2 with
    | error error =>
      simp only [AudioExecutor.advanceToNextNode_error hclosed]
      exact ⟨hkeeps, nofun⟩
    | ok =>
      simp only [(AudioExecutor.advanceToNextNode_ok hclosed).1]
      exact ⟨hkeeps, fun _ _ => hrenewed hclosed⟩
  · rw [if_neg hover]
    exact ⟨Keeps.refl _, fun _ hnow => absurd hnow hover⟩

/-- What a tick does to the file inputs. -/
theorem tick_files (fx : FloatOps Shifter) (s : Dispatch.State Shifter)
    (faults : ℕ → Option String) (j : ℕ) :
    Keeps (s.executor.nodes.files j) ((Dispatch.nextFrame fx s faults).executor.nodes.files j) ∧
      ((Dispatch.nextFrame fx s faults).wantsContinue = true → j ∈ closedAt fx s faults →
        Renewed ((Dispatch.nextFrame fx s faults).executor.nodes.files j)) := by
  unfold Dispatch.nextFrame AudioExecutor.getNextFrame closedAt
  cases hcurrent : s.executor.currentNode with
  | none => exact ⟨Keeps.refl _, nofun⟩
  | some current =>
    by_cases hempty : s.pcmBuffer = []
    · simp only [if_pos hempty]
      exact ⟨Keeps.refl _, nofun⟩
    · simp only [if_neg hempty]
      have hprocess := keeps_processFrame_nodes fx s.executor.nodes current
        (List.replicate s.pcmBuffer.length 0) j
      generalize s.executor.nodes.processFrame fx current
        (List.replicate s.pcmBuffer.length 0) = p at hprocess ⊢
      have hfinish := fun isEos => finishFrame_files fx faults
        ⟨p.node, some current, s.executor.stats⟩ current p.frameBuffer isEos j
      cases hresult : p.result with
      | ok =>
        simp only [leaves, hresult]
        refine ⟨hprocess.trans (hfinish false).1, fun hcontinue hj => ?_⟩
        split at hj
        · rename_i hleaves
          exact (hfinish false).2 hcontinue (.inr hleaves.2) hj
        · exact absurd hj List.not_mem_nil
      | error error =>
        simp only [leaves, hresult]
        by_cases hstops : error.code = .notSupported
        · simp only [if_pos hstops]
          exact ⟨hprocess, nofun⟩
        · simp only [if_neg hstops]
          by_cases heos : error.code = .endOfStream
          · simp only [heos, ne_eq, not_true_eq_false, if_false]
            refine ⟨hprocess.trans (hfinish true).1, fun hcontinue hj => ?_⟩
            split at hj
            · exact (hfinish true).2 hcontinue (.inl rfl) hj
            · exact absurd hj List.not_mem_nil
          · simp only [ne_eq, heos, not_false_eq_true, if_true, decide_false, Bool.false_eq_true,
              and_false, if_false]
            exact ⟨hprocess, fun _ hj => absurd hj List.not_mem_nil⟩

/-- A step of a coroutine that does not complete an `initialize_buffers` leaves
what is pending. -/
theorem pending_runTask {n n' : FileInputNode Shifter} {t : FileInputNode.Task}
    (hrun : n.runTask t = some n') (hnot : completes t = false) (h : Pending n) : Pending n' := by
  have hmoves := FileInputNode.runTask_moves hrun
  obtain ⟨other, hother, hdone⟩ := h
  unfold Pending
  generalize n'.buffer = buffer at hmoves ⊢
  have hset : ∀ {k : ℕ} {old pc : InitPc}, n.buffer.inits[k]? = some old → pc ≠ .done →
      ∃ other ∈ n.buffer.inits.set k pc, other ≠ .done := by
    intro k old pc hk hpc
    have hlt := (List.getElem?_eq_some_iff.mp hk).1
    exact ⟨pc, List.mem_iff_getElem?.mpr ⟨k, List.getElem?_set_self hlt⟩, hpc⟩
  cases t with
  | refillStart k | refillDone k ok =>
    cases hmoves
    exact ⟨other, hother, hdone⟩
  | initializeBuffers =>
    cases hmoves
    exact ⟨other, List.mem_append_left _ hother, hdone⟩
  | initStart k =>
    cases hmoves with
    | initStart hk => exact hset hk nofun
  | initFirst k ok =>
    cases hmoves with
    | initFirst hk => exact hset hk nofun
  | initSecond k ok => cases hnot

/-- Every step keeps the invariant. -/
theorem inv_step {s s' : State Shifter} {e : Dispatch.Event} (hs : Inv s)
    (hstep : step fx s e = some s') : Inv s' := by
  cases e with
  | frame faults =>
    obtain ⟨session, hsession, rfl⟩ := Option.map_eq_some_iff.mp hstep
    simp only [Dispatch.step] at hsession
    split at hsession
    · rename_i hrunning
      cases hsession
      intro hstill i hinitialised
      rw [Dispatch.isRunning_tick hrunning] at hstill
      obtain ⟨hkeeps, hrenewed⟩ := tick_files fx s.session faults i
      rw [← Dispatch.processAndStreamSingleFrame_executor.1] at hkeeps hrenewed
      by_cases hclosed : i ∈ closedAt fx s.session faults
      · exact ⟨by simp [hclosed], hrenewed hstill hclosed⟩
      · simp only [hclosed, decide_false, Bool.not_false, Bool.and_true] at hinitialised
        obtain ⟨hbefore, hpending⟩ := hs hrunning i hinitialised
        exact ⟨by simp [hbefore], hkeeps.renewed hpending⟩
    · cases hsession
  | task j t =>
    obtain ⟨session, hsession, rfl⟩ := Option.map_eq_some_iff.mp hstep
    obtain ⟨n, hrun, rfl⟩ := Option.map_eq_some_iff.mp hsession
    intro hrunning i hinitialised
    have hloop := (FileInputNode.runTask_frame hrun).1
    have hpending := pending_runTask hrun
    rcases eq_or_ne i j with rfl | hij
    · simp only [Function.update_self, Bool.or_eq_false_iff] at hinitialised ⊢
      obtain ⟨hclosed, hbefore⟩ := hs hrunning i hinitialised.1
      exact ⟨hclosed, fun hinLoop => hpending hinitialised.2 (hbefore (hloop ▸ hinLoop))⟩
    · simp only [Function.update_of_ne hij] at hinitialised ⊢
      exact hs hrunning i hinitialised

/-- The inputs that give a frame are inputs. -/
theorem mem_of_mem_servedInputs {inputs : List ℕ} {m : Mixing Shifter} {i : ℕ}
    (h : i ∈ servedInputs fx inputs m) : i ∈ inputs := by
  induction inputs generalizing m with
  | nil => exact h
  | cons source inputs ih =>
    rw [servedInputs] at h
    dsimp only at h
    split at h
    · split at h
      · exact absurd h List.not_mem_nil
      · exact List.mem_cons_of_mem _ (ih h)
    · rcases List.mem_cons.mp h with rfl | hrest
      · exact List.mem_cons_self
      · exact List.mem_cons_of_mem _ (ih hrest)

/-- What is read at a tick is used by the current node. -/
theorem uses_of_mem_servedAt {s : Dispatch.State Shifter} {i : ℕ} (h : i ∈ servedAt fx s) :
    ∃ current ∈ s.executor.currentNode, Nodes.Uses s.executor.nodes current (.fileInput i) := by
  unfold servedAt at h
  split at h
  · rename_i j hcurrent
    split at h
    · obtain rfl := List.mem_singleton.mp h
      exact ⟨_, hcurrent, .inl rfl⟩
    · exact absurd h List.not_mem_nil
  · rename_i j hcurrent
    exact ⟨_, hcurrent, .inr ⟨j, i, rfl, mem_of_mem_servedInputs h, rfl⟩⟩
  · exact absurd h List.not_mem_nil

/-- Under the guard a tick reads initialised nodes only. -/
theorem readsOpen_of_playsReopened {s : State Shifter} {e : Dispatch.Event} (hs : Inv s)
    (hok : PlaysReopened s e) : ReadsOpen fx s e := by
  cases e with
  | task i t => trivial
  | frame faults =>
    intro hrunning i hserved
    obtain ⟨current, hcurrent, huses⟩ := uses_of_mem_servedAt hserved
    obtain ⟨hidle, hloop⟩ := hok hrunning current hcurrent i huses
    by_contra hnot
    obtain ⟨hclosed, hpending⟩ := hs hrunning i (Bool.eq_false_of_not_eq_true hnot)
    exact hidle (hpending (hloop hclosed))

/-- The start of playback: every `initialize_buffers` of `prepare` has completed. -/
def start (session : Dispatch.State Shifter) : State Shifter :=
  ⟨session, fun _ => false, fun _ => true⟩

/-- Nothing has been closed at the start. -/
theorem inv_start (session : Dispatch.State Shifter) : Inv (start session) := fun _ _ => nofun

/-- In the playback of a graph no closed source is read, where every file input
that is played has no `initialize_buffers` under way and, once it has been
closed, is in a loop. -/
theorem reads_open (graph : Infra.Graph) (disk : String → Option (List UInt8)) (shifter : Shifter)
    (stats : SessionStats) (reads : ℕ → Bool × Bool) (pcmBuffer : List UInt8)
    {es : List Dispatch.Event}
    (hguard : Meets (step fx) PlaysReopened
      (start (startSession graph disk shifter stats reads pcmBuffer)) es) :
    Meets (step fx) (ReadsOpen fx) (start (startSession graph disk shifter stats reads pcmBuffer))
      es :=
  hguard.mono (fun _ _ _ hs _ hstep => inv_step hs hstep)
    (fun _ _ hs hok => readsOpen_of_playsReopened hs hok) (inv_start _)

/-- A node that has just been closed delivers a frame of zeros, and counts it. -/
theorem processFrame_close (fx : Effects Shifter) (n : FileInputNode Shifter)
    (frameBuffer : List UInt8) :
    ((n.close fx none).1.processFrame fx frameBuffer).result = .ok () ∧
      ((n.close fx none).1.processFrame fx frameBuffer).node.base.processedFrames = 1 ∧
      ((n.close fx none).1.buffer.controller.getFrame frameBuffer 0).outputBuffer.take
        FRAME_SIZE_BYTES = List.replicate FRAME_SIZE_BYTES 0 := by
  have hfits : ¬(n.close fx none).1.buffer.controller.needsSwap 0 := by
    rw [AsyncBufferController.needsSwap_iff]
    change ¬BUFFER_SIZE < 0 * FRAME_SIZE_BYTES + 0 + FRAME_SIZE_BYTES
    decide
  have hframe := AsyncBufferController.getFrame_of_fits hfits frameBuffer
  have hmore : ¬FileInputNode.Ended (n.close fx none).1 :=
    fun ⟨hover, hpos⟩ => absurd hpos hover.not_gt
  obtain ⟨hresult, hcount⟩ := FileInputNode.processFrame_of_fits fx hmore hfits frameBuffer
  refine ⟨hresult, hcount, ?_⟩
  have hzeros : padded [] = List.replicate BUFFER_SIZE 0 := by
    rw [padded, List.take_nil, List.nil_append, List.length_nil, Nat.sub_zero]
  have hoffset : (n.close fx none).1.buffer.controller.bufferOffset 0 = 0 := by
    change 0 * FRAME_SIZE_BYTES + 0 = 0
    rw [Nat.zero_mul]
  have hread : (n.close fx none).1.buffer.controller.bf.getReadSpan = padded [] := rfl
  rw [hframe]
  dsimp only
  rw [hread, hoffset, FileInputNode.take_copyFrame, hzeros, List.drop_zero, List.take_replicate,
    Nat.min_eq_left (by decide)]
  rw [length_padded]
  decide

/-- A tick on a node that is complete closes it and goes on to the next one. -/
theorem nextFrame_of_complete {s : Dispatch.State Shifter} {current : NodeRef}
    {faults : ℕ → Option String} (hbuffer : s.pcmBuffer ≠ [])
    (hcurrent : s.executor.currentNode = some current)
    {p : Processed (Nodes Shifter)} (hp : s.executor.nodes.processFrame fx current
      (List.replicate s.pcmBuffer.length 0) = p) (hresult : p.result = .ok ())
    (hcomplete : (p.node.base current).isComplete = true)
    (hclosed : (p.node.close fx current faults).2 = .ok ()) :
    (Dispatch.nextFrame fx s faults).executor.nodes = (p.node.close fx current faults).1 ∧
      (Dispatch.nextFrame fx s faults).executor.currentNode =
        ((p.node.close fx current faults).1.base current).target ∧
      (Dispatch.nextFrame fx s faults).wantsContinue =
        (Dispatch.nextFrame fx s faults).executor.currentNode.isSome ∧
      closedAt fx s faults = closedFiles p.node current faults := by
  have hclosedAt : closedAt fx s faults = closedFiles p.node current faults := by
    unfold closedAt
    simp only [hcurrent, hp, leaves, hresult, hcomplete]
    exact if_pos ⟨hbuffer, trivial⟩
  obtain ⟨hnodes, htarget, hcontinue, -, -⟩ :=
    Dispatch.nextFrame_of_closed hbuffer hcurrent hp hresult hcomplete hclosed
  exact ⟨hnodes, htarget, hcontinue, hclosedAt⟩

/-- A file input that plays its last frame and then, outside a loop, into a
mixer is read again after it has been closed. -/
theorem reads_closed {s : Dispatch.State Shifter} {i k : ℕ} {rest : List ℕ}
    (hrunning : s.isRunning = true) (hbuffer : s.pcmBuffer ≠ [])
    (hcurrent : s.executor.currentNode = some (.fileInput i))
    (hok : ((s.executor.nodes.files i).processFrame fx.toEffects
      (List.replicate s.pcmBuffer.length 0)).result = .ok ())
    (hlast : 0 < (s.executor.nodes.files i).base.totalFrames ∧
      (s.executor.nodes.files i).base.totalFrames ≤
        (s.executor.nodes.files i).base.processedFrames + 1)
    (htarget : (s.executor.nodes.files i).base.target = some (.mixer k))
    (hinputs : (s.executor.nodes.mixers k).inputs = i :: rest) :
    ¬Meets (step fx) (ReadsOpen fx) (start s) [.frame fun _ => none, .frame fun _ => none] := by
  rintro ⟨-, hnext⟩
  obtain ⟨-, ⟨-, hbase⟩ | ⟨⟨error, herror⟩, -⟩⟩ := (s.executor.nodes.files i).processFrame_base
    fx.toEffects (List.replicate s.pcmBuffer.length 0)
  · obtain ⟨hnodes, hcurrent', hcontinue, hclosedAt⟩ := @nextFrame_of_complete _ fx s _
      (fun _ => none) hbuffer hcurrent _ rfl hok (by
        simp only [Nodes.processFrame, Nodes.base, Function.update_self, hbase,
          NodeBase.isComplete, Bool.and_eq_true, decide_eq_true_eq]
        exact hlast) rfl
    generalize hn : ((s.executor.nodes.files i).processFrame fx.toEffects
      (List.replicate s.pcmBuffer.length 0)).node = n at hbase
    have hfile : ((Dispatch.nextFrame fx s fun _ => none).executor.nodes.files i) =
        (n.close fx.toEffects none).1 := by
      rw [hnodes, ← hn]
      simp only [Nodes.processFrame, Nodes.close, Function.update_self]
    have hmixer : ((Dispatch.nextFrame fx s fun _ => none).executor.nodes.mixers k).inputs =
        i :: rest := by
      rw [hnodes]
      exact hinputs
    have hmixing : (Dispatch.nextFrame fx s fun _ => none).executor.currentNode =
        some (.mixer k) := by
      rw [hcurrent']
      simp only [Nodes.processFrame, Nodes.close, Nodes.base, Function.update_self, hn]
      have hsame : (n.close fx.toEffects none).1.base = { n.base with processedFrames := 0 } := rfl
      rw [hsame, hbase]
      exact htarget
    have hstep : step fx (start s) (.frame fun _ => none) = some
        ⟨Dispatch.processAndStreamSingleFrame fx s fun _ => none,
          fun j => false || decide (j ∈ closedAt fx s fun _ => none),
          fun j => true && !decide (j ∈ closedAt fx s fun _ => none)⟩ :=
      Option.map_eq_some_iff.mpr ⟨_, if_pos hrunning, rfl⟩
    obtain ⟨hread, -⟩ := hnext _ hstep
    have hstill : (Dispatch.processAndStreamSingleFrame fx s fun _ => none).isRunning = true := by
      rw [Dispatch.isRunning_tick hrunning, hcontinue, hmixing]
      rfl
    obtain ⟨hsame, hsameCurrent⟩ :=
      @Dispatch.processAndStreamSingleFrame_executor _ fx s fun _ => none
    have hserved : i ∈ servedAt fx (Dispatch.processAndStreamSingleFrame fx s fun _ => none) := by
      simp only [servedAt, hsame, hsameCurrent, hmixing, hmixer, servedInputs, hfile,
        (processFrame_close fx.toEffects n _).1]
      exact List.mem_cons_self
    have hinitialised := hread hstill i hserved
    rw [hclosedAt] at hinitialised
    simp [closedFiles] at hinitialised
  · cases hok.symm.trans herror

/-- The graph of a file that plays into a mixer. -/
def filePlaysGraph : Infra.Graph where
  nodes := [⟨"a", some 1, .fileInput "a.wav" "downloads/a.wav" none⟩, ⟨"m", none, .mixer [0]⟩]
  nodeMap := Function.update (Function.update (fun _ => none) "a" (some 0)) "m" (some 1)
  startNode := some 0
  fileNodes := [0]
  mixerNodes := [1]
  clientsNode := none

/-- The text of one played file is the graph with one file. -/
theorem parse_filePlays :
    Infra.parseGraph Infra.plainLibrary Infra.filePlays = .ok filePlaysGraph := rfl

/-- A session that plays a file. -/
def filePlaysSession (disk : String → Option (List UInt8)) (pcmBuffer : List UInt8) :
    Dispatch.State Unit :=
  startSession filePlaysGraph disk () ⟨"s", "", 0, 0, 0⟩ (fun _ => (true, true)) pcmBuffer

/-- The file at the start of its session. -/
theorem filePlaysSession_file {disk : String → Option (List UInt8)} {file : List UInt8}
    (hdisk : disk "downloads/a.wav" = some file) (pcmBuffer : List UInt8) :
    ((filePlaysSession disk pcmBuffer).executor.nodes.files 0).base.totalFrames =
        totalFramesOf file ∧
      ((filePlaysSession disk pcmBuffer).executor.nodes.files 0).base.processedFrames = 0 ∧
      ((filePlaysSession disk pcmBuffer).executor.nodes.files 0).base.target = some (.mixer 1) ∧
      ∃ first second, ((filePlaysSession disk pcmBuffer).executor.nodes.files 0).buffer =
        Buffering.initialized first second := by
  obtain ⟨flag, hflag⟩ := (flagged_startSession filePlaysGraph disk () ⟨"s", "", 0, 0, 0⟩
    (fun _ => (true, true)) pcmBuffer).files 0
  obtain ⟨-, hbase, hbuffer⟩ :=
    (unopened_createFileInput filePlaysGraph disk () 0).initializeBuffers (true, true)
  have hframes : (createFileInput filePlaysGraph disk () 0).openedFrames = totalFramesOf file := by
    have hfile : (createFileInput filePlaysGraph disk () 0).file = some file := hdisk
    simp only [FileInputNode.openedFrames, hfile]
  rw [filePlaysSession, hflag]
  refine ⟨?_, ?_, ?_, hbuffer⟩
  · exact (congrArg NodeBase.totalFrames hbase).trans hframes
  · exact congrArg NodeBase.processedFrames hbase
  · exact congrArg NodeBase.target hbase

/-- A file of one frame. -/
theorem totalFramesOf_frame : totalFramesOf (List.replicate FRAME_SIZE_BYTES 7) = 1 := by
  have hframe := @FileInputNode.totalFramesOf_replicate 1 (by decide) (by decide)
  rw [Nat.one_mul] at hframe
  exact hframe

section Reopened

variable {s : State Shifter} {i : ℕ}

/-- A file whose coroutines are over is played while it is open, or in a loop. -/
theorem playsReopened_file (hcurrent : s.session.executor.currentNode = some (.fileInput i))
    (hdone : ∀ pc ∈ (s.session.executor.nodes.files i).buffer.inits, pc = .done)
    (hloop : (s.session.executor.nodes.files i).base.isInLoop = true)
    (faults : ℕ → Option String) : PlaysReopened s (.frame faults) := by
  intro _ current hmem j huses
  obtain rfl := Option.some.inj (hcurrent.symm.trans hmem)
  obtain hself | ⟨_, _, hmixer, -⟩ := huses
  · obtain rfl : j = i := NodeRef.fileInput.inj hself
    refine ⟨?_, fun _ => hloop⟩
    rintro ⟨pc, hpc, hpending⟩
    exact hpending (hdone pc hpc)
  · cases hmixer

/-- A delay plays no file. -/
theorem playsReopened_delay (hcurrent : s.session.executor.currentNode = some (.delay i))
    (faults : ℕ → Option String) : PlaysReopened s (.frame faults) := by
  intro _ current hmem j huses
  obtain rfl := Option.some.inj (hcurrent.symm.trans hmem)
  obtain hself | ⟨_, _, hmixer, -⟩ := huses
  · cases hself
  · cases hmixer

end Reopened

/-- A session with a file of two frames and a delay in a loop. -/
def fileLoopSession : State Unit :=
  start (startSession Infra.fileLoopGraph (fun _ => some (FileInputNode.numberedFile 2)) ()
    ⟨"s", "", 0, 0, 0⟩ (fun _ => (true, true)) (List.replicate FRAME_SIZE_BYTES 0))

/-- A round of it, the two frames of the file, the coroutine that fills its buffers again and the
delay, and a frame of the file that has been opened again. -/
def fileLoopRun : List Dispatch.Event :=
  [.frame fun _ => none, .frame fun _ => none, .task 0 (.initStart 1), .task 0 (.initFirst 1 true),
    .task 0 (.initSecond 1 true), .frame fun _ => none, .frame fun _ => none]

/-- The guard as a test, where the current node is a file in a loop or a delay. -/
def playsFilled (s : State Shifter) : Dispatch.Event → Bool
  | .frame _ =>
    match s.session.executor.currentNode with
    | some (.fileInput i) => (s.session.executor.nodes.files i).base.isInLoop &&
        (s.session.executor.nodes.files i).buffer.inits.all (· == .done)
    | some (.delay _) => true
    | _ => false
  | .task _ _ => true

/-- An event that finds its refill done plays what was reopened. -/
theorem playsReopened_of_filled {s : State Shifter} {e : Dispatch.Event}
    (h : playsFilled s e = true) : PlaysReopened s e := by
  cases e with
  | task i t => trivial
  | frame faults =>
    unfold playsFilled at h
    dsimp only at h
    split at h
    · rename_i i hcurrent
      obtain ⟨hloop, hdone⟩ := Bool.and_eq_true_iff.mp h
      exact playsReopened_file hcurrent
        (fun pc hpc => beq_iff_eq.mp (List.all_eq_true.mp hdone pc hpc)) hloop faults
    · rename_i i hcurrent
      exact playsReopened_delay hcurrent faults
    · cases h

/-- A file in a loop is closed, opened again and played again. -/
theorem reads_open_loop :
    (runEvents (step Dispatch.idleOps) fileLoopSession fileLoopRun).map
        (fun s => (s.closed 0, s.initialised 0)) = some (true, true) ∧
      Meets (step Dispatch.idleOps) (ReadsOpen Dispatch.idleOps) fileLoopSession fileLoopRun := by
  have hseen : (runEvents (step Dispatch.idleOps) fileLoopSession fileLoopRun).map
      (fun s => (s.closed 0, s.initialised 0)) = some (true, true) ∧
        Meets (step Dispatch.idleOps) (fun s e => playsFilled s e = true) fileLoopSession
          fileLoopRun := by decide +kernel
  refine ⟨hseen.1, reads_open Infra.fileLoopGraph (fun _ => some (FileInputNode.numberedFile 2)) ()
    ⟨"s", "", 0, 0, 0⟩ (fun _ => (true, true)) (List.replicate FRAME_SIZE_BYTES 0) ?_⟩
  exact hseen.2.mono (I := fun _ => True) (fun _ _ _ _ _ _ => trivial)
    (fun _ _ _ hfilled => playsReopened_of_filled hfilled) trivial

/-- The mixer plays the file after it has been closed. -/
theorem closed_source_read :
    ¬∀ (graph : Infra.Graph) (lib : Infra.Library) (o : Infra.JsonObject),
      Infra.parseGraph lib o = .ok graph → ∀ es : List Dispatch.Event,
        Meets (step Dispatch.idleOps) (ReadsOpen Dispatch.idleOps)
          (start (startSession graph (fun _ => some (List.replicate FRAME_SIZE_BYTES 7)) ()
            ⟨"s", "", 0, 0, 0⟩ (fun _ => (true, true)) (List.replicate FRAME_SIZE_BYTES 0))) es := by
  intro h
  obtain ⟨htotal, hprocessed, htarget, first, second, hbuffer⟩ := @filePlaysSession_file
    (fun _ => some (List.replicate FRAME_SIZE_BYTES 7)) _ rfl (List.replicate FRAME_SIZE_BYTES 0)
  rw [totalFramesOf_frame] at htotal
  have hclosed : ¬Meets (step Dispatch.idleOps) (ReadsOpen Dispatch.idleOps)
      (start (filePlaysSession (fun _ => some (List.replicate FRAME_SIZE_BYTES 7))
        (List.replicate FRAME_SIZE_BYTES 0))) [.frame fun _ => none, .frame fun _ => none] := by
    refine @reads_closed _ Dispatch.idleOps _ 0 1 [] rfl (List.cons_ne_nil _ _) rfl ?_
      (by omega) htarget rfl
    refine (FileInputNode.processFrame_of_fits _ ?_ ?_ _).1
    · rintro ⟨hover, -⟩
      omega
    · rw [hbuffer, AsyncBufferController.needsSwap_iff]
      change ¬BUFFER_SIZE < 0 * FRAME_SIZE_BYTES + 0 + FRAME_SIZE_BYTES
      decide
  exact hclosed (h _ _ _ parse_filePlays _)

end HermesFlow.Audio.ClosedSource
