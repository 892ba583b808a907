import HermesFlow.FilePlayback

/-!
# Passes of a looping file

`close` resets the buffer of a file input in a loop and fills it again for the
next pass. A refill that is under way meanwhile keeps its block and the handle
of the node: it writes into the buffers of the new pass and reads bytes of the
file that has been opened again. In runs that close the node after its refills
have completed, and play it after the buffer has been filled, every pass returns
the frames of the first one.
-/

namespace HermesFlow.Audio.CleanEpoch

open EventRun FileInputNode

variable {Shifter : Type} {fx : Effects Shifter}

/-- The node without its effects. -/
def bare (n : FileInputNode Shifter) : FileInputNode Unit :=
  ⟨n.base, n.fileName, n.filePath, n.file, n.handle, none, (), n.buffer⟩

/-- `apply_effects`. -/
def applyEffects (fx : Effects Shifter) (options : Option FileOptionsNode) (shifter : Shifter)
    (frame : List UInt8) : List UInt8 × Shifter :=
  match options with
  | none => (frame, shifter)
  | some options => fx.apply options shifter frame

section Bare

variable (n : FileInputNode Shifter)

/-- Forgetting the effects commutes with the start of a fetch. -/
theorem bare_beginFetch : bare n.beginFetch = (bare n).beginFetch := by
  obtain ⟨base, fileName, filePath, file, handle, options, shifter, buffer⟩ := n
  cases handle with
  | some position => rfl
  | none => cases file <;> rfl

/-- Forgetting the effects commutes with the end of a fetch. -/
theorem bare_finishFetch (ok : Bool) (event : List UInt8 → Buffering.Event) :
    (bare n).finishFetch ok event = (n.finishFetch ok event).map bare := by
  simp only [finishFetch, Option.map_map]
  cases ok <;> rfl

/-- A step of a coroutine does not touch the effects. -/
theorem bare_runTask (t : Task) : (bare n).runTask t = (n.runTask t).map bare := by
  cases t with
  | refillStart k | initStart k =>
    simp only [runTask, Option.map_map, ← bare_beginFetch]
    rfl
  | refillDone k ok | initSecond k ok => exact bare_finishFetch n ok _
  | initializeBuffers => rfl
  | initFirst k ok =>
    simp only [runTask, bare_finishFetch, Option.map_map]
    congr 1
    funext m
    exact (bare_beginFetch m).symm

/-- A call takes its frame without effects and then applies them. -/
theorem bare_processFrame (fx : Effects Shifter) (frameBuffer : List UInt8) :
    ((bare n).processFrame noEffects frameBuffer).node =
        bare (n.processFrame fx frameBuffer).node ∧
      ((bare n).processFrame noEffects frameBuffer).result =
        (n.processFrame fx frameBuffer).result ∧
      ((n.processFrame fx frameBuffer).result = .ok () →
        ((n.processFrame fx frameBuffer).frameBuffer,
            (n.processFrame fx frameBuffer).node.pitchShifter) =
          applyEffects fx n.options n.pitchShifter
            ((bare n).processFrame noEffects frameBuffer).frameBuffer) := by
  by_cases hended : Ended n
  · rw [processFrame_of_ended hended, processFrame_of_ended (show Ended (bare n) from hended)]
    exact ⟨rfl, rfl, nofun⟩
  · unfold FileInputNode.processFrame
    rw [if_neg (show ¬((bare n).base.processedFrames ≥ (bare n).base.totalFrames ∧
      (bare n).base.totalFrames > 0) from hended), if_neg (show ¬(n.base.processedFrames ≥
      n.base.totalFrames ∧ n.base.totalFrames > 0) from hended)]
    have hbuffer : (bare n).buffer = n.buffer := rfl
    simp only [hbuffer]
    cases (n.buffer.controller.getFrame frameBuffer 0).result with
    | error error => exact ⟨rfl, rfl, nofun⟩
    | ok => exact ⟨rfl, rfl, fun _ => rfl⟩

end Bare

/-- A node with the history of its passes. -/
structure State (Shifter : Type) where
  /-- The node as it is. -/
  node : FileInputNode Shifter
  /-- The refills spawned before the last `close`. -/
  old : ℕ
  /-- `close` has been called. -/
  closed : Bool
  /-- The frames returned before the first `close`. -/
  firstPass : List (List UInt8)

/-- The frame that a call returns, if any. -/
def returned (fx : Effects Shifter) (n : FileInputNode Shifter) (frameBuffer : List UInt8) :
    List (List UInt8) :=
  match (n.processFrame fx frameBuffer).result with
  | .ok () => [(n.processFrame fx frameBuffer).frameBuffer]
  | .error _ => []

/-- The step of one event. -/
def step (fx : Effects Shifter) (s : State Shifter) (e : Event) : Option (State Shifter) :=
  (FileInputNode.step fx s.node e).map fun node =>
    match e with
    | .processFrame frameBuffer =>
      { s with
        node := node
        firstPass :=
          if s.closed then s.firstPass else s.firstPass ++ returned fx s.node frameBuffer }
    | .close _ => { s with node := node, old := s.node.buffer.refills.length, closed := true }
    | .task _ => { s with node := node }

/-- The refill that takes a step. -/
def refill : Task → Option ℕ
  | .refillStart k | .refillDone k _ => some k
  | _ => none

/-- What a reset promises: a refill from before it changes neither the buffer nor
the position in the file, and a frame of a new pass is the one that the first
pass returned in its place. -/
def EpochClean (fx : Effects Shifter) (s : State Shifter) : Event → Prop
  | .processFrame frameBuffer =>
    s.closed = true → (s.node.processFrame fx frameBuffer).result = .ok () →
      ∀ frame ∈ s.firstPass[s.node.base.processedFrames.toNat]?,
        (s.node.processFrame fx frameBuffer).frameBuffer = frame
  | .close _ => True
  | .task t => ∀ k ∈ refill t, k < s.old → ∀ node ∈ s.node.runTask t,
      node.buffer.controller = s.node.buffer.controller ∧ node.handle = s.node.handle

/-- No `initialize_buffers` is under way. -/
def Filled (n : FileInputNode Shifter) : Prop := ∀ pc ∈ n.buffer.inits, pc = .done

/-- No refill is under way. -/
def Refilled (n : FileInputNode Shifter) : Prop := ∀ pc ∈ n.buffer.refills, pc = .done

/-- A step of a coroutine of the buffer, whose read succeeds. -/
def Reads : Task → Prop
  | .initializeBuffers => False
  | .refillDone _ ok | .initFirst _ ok | .initSecond _ ok => ok = true
  | .refillStart _ | .initStart _ => True

/-- The guard: `close` finds the buffer filled and its refills completed, a call
finds it filled and its swap in time, and the file can be read and closed. -/
def Undisturbed (s : State Shifter) : Event → Prop
  | .processFrame frameBuffer => frameBuffer.length = FRAME_SIZE_BYTES ∧ Filled s.node ∧
      Timely s.node (.processFrame frameBuffer)
  | .close fault => fault = none ∧ Filled s.node ∧ Refilled s.node
  | .task t => Reads t

section Old

/-- The refills from before the last `close` have completed. -/
def OldCompleted (s : State Shifter) : Prop :=
  ∀ k < s.old, s.node.buffer.refills[k]? = some .done

/-- A completed refill stays so. -/
theorem runTask_refills {n n' : FileInputNode Shifter} {t : Task} (hrun : n.runTask t = some n')
    {k : ℕ} (hk : n.buffer.refills[k]? = some .done) :
    n'.buffer.refills[k]? = some .done ∧ k ∉ refill t := by
  have hmoves := runTask_moves hrun
  generalize n'.buffer = buffer at hmoves ⊢
  have hset : ∀ {i : ℕ} {old pc : RefillPc}, n.buffer.refills[i]? = some old → old ≠ .done →
      (n.buffer.refills.set i pc)[k]? = some .done ∧ k ∉ some i := by
    intro i old pc hi hold
    have hne : i ≠ k := by
      rintro rfl
      exact hold (Option.some.inj (hi.symm.trans hk))
    rw [List.getElem?_set_ne hne]
    exact ⟨hk, fun hmem => hne (Option.some.inj hmem)⟩
  cases t with
  | refillStart i =>
    cases hmoves with
    | refillStart hi => exact hset hi nofun
  | refillDone i ok =>
    cases hmoves with
    | refillDone hi => exact hset hi nofun
  | initializeBuffers | initStart i | initFirst i ok | initSecond i ok =>
    cases hmoves
    exact ⟨hk, nofun⟩

/-- A call adds a refill at most. -/
theorem processFrame_refills (fx : Effects Shifter) (n : FileInputNode Shifter)
    (frameBuffer : List UInt8) :
    n.buffer.refills <+: (n.processFrame fx frameBuffer).node.buffer.refills := by
  by_cases hended : Ended n
  · rw [processFrame_of_ended hended]
  · rw [processFrame_buffer hended]
    unfold Buffering.getFrame
    dsimp only
    split
    · exact List.prefix_append _ _
    · exact List.prefix_rfl

/-- One that does not swap adds none. -/
theorem processFrame_refills_of_fits (fx : Effects Shifter) {n : FileInputNode Shifter}
    (hfits : ¬n.buffer.controller.needsSwap 0) (frameBuffer : List UInt8) :
    (n.processFrame fx frameBuffer).node.buffer.refills = n.buffer.refills := by
  by_cases hended : Ended n
  · rw [processFrame_of_ended hended]
  · rw [processFrame_buffer hended, Buffering.getFrame, AsyncBufferController.getFrame_of_fits hfits]
    rfl

/-- One undisturbed step keeps the completed passes as they are. -/
theorem oldCompleted_step {s s' : State Shifter} {e : Event} (hs : OldCompleted s)
    (hok : Undisturbed s e) (hstep : step fx s e = some s') : OldCompleted s' := by
  obtain ⟨node, hnode, rfl⟩ := Option.map_eq_some_iff.mp hstep
  cases e with
  | processFrame frameBuffer =>
    obtain rfl := Option.some.inj hnode
    intro k hk
    have hbefore := hs k hk
    have hlt := (List.getElem?_eq_some_iff.mp hbefore).1
    obtain ⟨more, hmore⟩ := processFrame_refills fx s.node frameBuffer
    change (s.node.processFrame fx frameBuffer).node.buffer.refills[k]? = some .done
    rw [← hmore, List.getElem?_append_left hlt]
    exact hbefore
  | close fault =>
    obtain rfl := Option.some.inj hnode
    obtain ⟨rfl, -, hrefilled⟩ := hok
    intro k hk
    have hlt : k < s.node.buffer.refills.length := hk
    have hdone := hrefilled _ (List.getElem_mem hlt)
    rw [← hdone]
    exact List.getElem?_eq_getElem hlt
  | task t => exact fun k hk => (runTask_refills hnode (hs k hk)).1

/-- Where the refills from before a `close` have completed, none of them takes a step. -/
theorem OldCompleted.silent {s : State Shifter} (hs : OldCompleted s) (t : Task) :
    EpochClean fx s (.task t) :=
  fun k hk hold _ hrun => absurd hk (runTask_refills hrun (hs k hold)).2

end Old

section Reopening

/-- A node that has been closed and whose next `initialize_buffers` is not over. -/
structure Reopening (file : List UInt8) (n : FileInputNode Unit) : Prop where
  /-- Frames are returned as they are. -/
  options : n.options = none
  /-- The file is still there. -/
  hasFile : n.file = some file
  /-- No refill is under way. -/
  refilled : Refilled n
  /-- No frame of the pass has been returned. -/
  processed : n.base.processedFrames = 0
  /-- None has been taken from the read block. -/
  count : n.buffer.controller.inBufferProcessedFrames = 0
  /-- How far the last coroutine has come; the earlier ones have completed. -/
  stage : ∃ before, (∀ pc ∈ before, pc = .done) ∧
    ((n.buffer.inits = before ++ [.spawned] ∧ n.handle = none ∧
        n.buffer.controller.bf.readIndex = 0) ∨
      (n.buffer.inits = before ++ [.first 1] ∧ AtChunk n (audioOf file) 0 ∧
        n.base.totalFrames = totalFramesOf file ∧ n.buffer.controller.bf.readIndex = 0) ∨
      (n.buffer.inits = before ++ [.second 0] ∧ AtChunk n (audioOf file) 1 ∧
        n.base.totalFrames = totalFramesOf file ∧ n.buffer.controller.bf.readIndex = 1 ∧
          n.buffer.controller.bf.getReadSpan = chunk (audioOf file) 0))

/-- The buffer is not filled before it is over. -/
theorem Reopening.not_filled {file : List UInt8} {n : FileInputNode Unit} (h : Reopening file n) :
    ¬Filled n := by
  intro hfilled
  obtain ⟨before, -, ⟨hinits, -⟩ | ⟨hinits, -⟩ | ⟨hinits, -⟩⟩ := h.stage
  all_goals
    have hlast := hfilled _ (hinits ▸ List.mem_concat_self)
    cases hlast

/-- The coroutine that has not completed is the last one. -/
theorem eq_last_of_not_done {before : List InitPc} (hbefore : ∀ pc ∈ before, pc = .done)
    {last pc : InitPc} {k : ℕ} (hk : (before ++ [last])[k]? = some pc) (hpc : pc ≠ .done) :
    pc = last ∧ ∀ next, (before ++ [last]).set k next = before ++ [next] := by
  rw [List.getElem?_append] at hk
  split at hk
  · exact absurd (hbefore pc (List.mem_of_getElem? hk)) hpc
  · rename_i hlt
    obtain ⟨hone, hlast⟩ := List.getElem?_eq_some_iff.mp hk
    have hindex : k - before.length = 0 := by
      rw [List.length_singleton] at hone
      omega
    refine ⟨?_, fun next => ?_⟩
    · simp only [hindex, List.getElem_cons_zero] at hlast
      exact hlast.symm
    · rw [List.set_append_right _ _ (Nat.le_of_not_lt hlt), hindex, List.set_cons_zero]

/-- The `initialize_buffers` that takes a step is the last one; it moves on. -/
theorem Reopening.last {file : List UInt8} {n : FileInputNode Unit} (h : Reopening file n) {k : ℕ}
    {pc : InitPc} (hk : n.buffer.inits[k]? = some pc) (hpc : pc ≠ .done) :
    (∃ before, (∀ pc ∈ before, pc = .done) ∧
        ∀ next, n.buffer.inits.set k next = before ++ [next]) ∧
      ((pc = .spawned ∧ n.handle = none ∧ n.buffer.controller.bf.readIndex = 0) ∨
        (pc = .first 1 ∧ AtChunk n (audioOf file) 0 ∧ n.base.totalFrames = totalFramesOf file ∧
          n.buffer.controller.bf.readIndex = 0) ∨
        (pc = .second 0 ∧ AtChunk n (audioOf file) 1 ∧ n.base.totalFrames = totalFramesOf file ∧
          n.buffer.controller.bf.readIndex = 1 ∧
            n.buffer.controller.bf.getReadSpan = chunk (audioOf file) 0)) := by
  obtain ⟨before, hbefore, ⟨hinits, hstage⟩ | ⟨hinits, hstage⟩ | ⟨hinits, hstage⟩⟩ := h.stage
  all_goals
    rw [hinits] at hk ⊢
    obtain ⟨rfl, hset⟩ := eq_last_of_not_done hbefore hk hpc
    refine ⟨⟨before, hbefore, hset⟩, ?_⟩
  · exact .inl ⟨rfl, hstage⟩
  · exact .inr (.inl ⟨rfl, hstage⟩)
  · exact .inr (.inr ⟨rfl, hstage⟩)

/-- A node that is closed in a loop with no coroutine under way. -/
theorem reopening_close {file : List UInt8} {n : FileInputNode Unit} (hoptions : n.options = none)
    (hfile : n.file = some file) (hloop : n.base.isInLoop = true) (hfilled : Filled n)
    (hrefilled : Refilled n) : Reopening file (n.close noEffects none).1 where
  options := hoptions
  hasFile := hfile
  refilled := hrefilled
  processed := rfl
  count := rfl
  stage := ⟨n.buffer.inits, hfilled, .inl ⟨if_pos hloop, rfl, rfl⟩⟩

/-- The fetch that opens the file. -/
theorem beginFetch_of_closed {n : FileInputNode Shifter} {file : List UInt8}
    (hhandle : n.handle = none) (hfile : n.file = some file) :
    n.beginFetch = { n with
      handle := some (audioOffset file)
      base := { n.base with totalFrames := totalFramesOf file } } := by
  obtain ⟨base, fileName, filePath, _, _, options, shifter, buffer⟩ := n
  obtain rfl := hhandle
  obtain rfl := hfile
  rfl

/-- The open file is at its first chunk. -/
theorem atChunk_zero {n : FileInputNode Shifter} {file : List UInt8} (hfile : n.file = some file)
    (hhandle : n.handle = some (audioOffset file)) : AtChunk n (audioOf file) 0 := by
  refine ⟨file, audioOffset file, hfile, hhandle, ?_⟩
  rw [Nat.zero_mul, List.drop_zero, audioOf]

/-- The write buffer is the other one. -/
theorem writeIndex_of_readIndex {bf : DoubleBuffer} {i : Fin 2} (h : bf.readIndex = i) :
    bf.writeIndex = 1 - i := by rw [DoubleBuffer.writeIndex, h]

/-- Its first step opens the file again. -/
theorem Reopening.initStart {file : List UInt8} {n n' : FileInputNode Unit} (h : Reopening file n)
    {k : ℕ} (hrun : n.runTask (.initStart k) = some n') : Reopening file n' := by
  obtain ⟨buffer, hstep, rfl⟩ := Option.map_eq_some_iff.mp hrun
  cases Buffering.step_moves hstep with
  | initStart hk =>
    obtain ⟨⟨before, hbefore, hset⟩, ⟨-, hhandle, hindex⟩ | ⟨⟨⟩, -⟩ | ⟨⟨⟩, -⟩⟩ := h.last hk nofun
    have hblock := writeIndex_of_readIndex hindex
    have hopen := beginFetch_of_closed hhandle h.hasFile
    have htotal : n.beginFetch.base.totalFrames = totalFramesOf file := by simp only [hopen]
    have hprocessed : n.beginFetch.base.processedFrames = 0 := by simp only [hopen, h.processed]
    have hfile : n.beginFetch.file = some file := by simp only [hopen, h.hasFile]
    have hoptions : n.beginFetch.options = none := by simp only [hopen, h.options]
    have hat : AtChunk n.beginFetch (audioOf file) 0 :=
      @atChunk_zero _ _ file hfile (by simp only [hopen])
    refine ⟨hoptions, hfile, h.refilled, hprocessed, h.count, before, hbefore,
      .inr (.inl ⟨?_, hat, htotal, hindex⟩)⟩
    change n.buffer.inits.set k (.first n.buffer.controller.bf.writeIndex) = _
    rw [hset, hblock]
    rfl

/-- Its first fetch reads the first block. -/
theorem Reopening.initFirst {file : List UInt8} {n n' : FileInputNode Unit} (h : Reopening file n)
    {k : ℕ} (hrun : n.runTask (.initFirst k true) = some n') : Reopening file n' := by
  obtain ⟨m, hm, rfl⟩ := Option.map_eq_some_iff.mp hrun
  obtain ⟨buffer, hstep, rfl⟩ := Option.map_eq_some_iff.mp hm
  cases Buffering.step_moves hstep with
  | @initFirst _ block hk =>
    obtain ⟨⟨before, hbefore, hset⟩, ⟨⟨⟩, -⟩ | ⟨⟨⟩, hat, htotal, hindex⟩ | ⟨⟨⟩, -⟩⟩ :=
      h.last hk nofun
    have hread : (n.buffer.controller.finishFirst 1 n.readBlock).bf.readIndex = 1 - 0 :=
      congrArg (1 - ·) hindex
    have hblock := writeIndex_of_readIndex hread
    have hnext := hat.advanceHandle
    have hopen : ∀ buffer, ({ n.advanceHandle with buffer := buffer } : FileInputNode Unit).beginFetch =
        { n.advanceHandle with buffer := buffer } :=
      fun buffer => @AtChunk.beginFetch _ { n.advanceHandle with buffer := buffer } _ _ hnext
    simp only [if_true, hopen]
    refine ⟨h.options, h.hasFile, h.refilled, h.processed, h.count, before, hbefore,
      .inr (.inr ⟨?_, hnext, htotal, hread, ?_⟩)⟩
    · change n.buffer.inits.set k
        (.second (n.buffer.controller.finishFirst 1 n.readBlock).bf.writeIndex) = _
      rw [hset, hblock]
      rfl
    · refine Eq.trans ?_ hat.padded_readBlock
      change (n.buffer.controller.finishFirst 1 n.readBlock).bf.blocks
        (n.buffer.controller.finishFirst 1 n.readBlock).bf.readIndex = padded n.readBlock
      rw [hread]
      exact Function.update_self (1 : Fin 2) (padded n.readBlock) n.buffer.controller.bf.blocks

/-- Its second fetch reads the second block, and the pass can start. -/
theorem Reopening.initSecond {file : List UInt8} {n n' : FileInputNode Unit}
    (h : Reopening file n) {k : ℕ} (hrun : n.runTask (.initSecond k true) = some n') :
    Playing (audioOf file) (totalFramesOf file) 0 0 n' := by
  obtain ⟨buffer, hstep, rfl⟩ := Option.map_eq_some_iff.mp hrun
  cases Buffering.step_moves hstep with
  | @initSecond _ block hk =>
    obtain ⟨⟨before, hbefore, hset⟩, ⟨⟨⟩, -⟩ | ⟨⟨⟩, -⟩ | ⟨⟨⟩, hat, htotal, hindex, hspan⟩⟩ :=
      h.last hk nofun
    have hblock := writeIndex_of_readIndex hindex
    have hother : n.buffer.controller.bf.readIndex ≠ 0 := by
      rw [hindex]
      decide
    refine ⟨h.options, ⟨rfl, ?_, ?_, ?_⟩, htotal, ?_, h.count, Nat.zero_le _, ?_,
      .inl ⟨?_, ?_, hat.advanceHandle⟩⟩
    · intro i hi
      cases h.refilled _ hi
    · intro i pc hi hdone
      exact absurd (h.refilled pc (List.mem_of_getElem? hi)) hdone
    · intro pc hpc
      change pc ∈ n.buffer.inits.set k .done at hpc
      rw [hset] at hpc
      rcases List.mem_append.mp hpc with hearlier | hlast
      · exact hbefore pc hearlier
      · exact List.mem_singleton.mp hlast
    · rw [Nat.zero_mul]
      exact h.processed
    · exact (Function.update_of_ne hother _ _).trans hspan
    · intro pc hpc
      exact h.refilled pc (List.mem_of_getLast? hpc)
    · refine Eq.trans ?_ hat.padded_readBlock
      change (n.buffer.controller.finishSecond 0 n.readBlock).bf.blocks
        n.buffer.controller.bf.writeIndex = padded n.readBlock
      rw [hblock]
      exact Function.update_self (0 : Fin 2) (padded n.readBlock) n.buffer.controller.bf.blocks

end Reopening

section Passes

/-- The pitch shifter after the first frames of a pass. -/
def shifterAt (fx : Effects Shifter) (options : Option FileOptionsNode) (fresh : Shifter)
    (audio : List UInt8) : ℕ → Shifter
  | 0 => fresh
  | k + 1 =>
    (applyEffects fx options (shifterAt fx options fresh audio k) (frameAt audio k)).2

/-- Frame `k` of a pass. -/
def passFrame (fx : Effects Shifter) (options : Option FileOptionsNode) (fresh : Shifter)
    (audio : List UInt8) (k : ℕ) : List UInt8 :=
  (applyEffects fx options (shifterAt fx options fresh audio k) (frameAt audio k)).1

/-- The node has returned `k` frames of a pass. -/
def InPass (fx : Effects Shifter) (options : Option FileOptionsNode) (fresh : Shifter)
    (file : List UInt8) (k : ℕ) (n : FileInputNode Shifter) : Prop :=
  n.pitchShifter = shifterAt fx options fresh (audioOf file) k ∧
    ∃ w j, w * FRAMES_PER_BLOCK + j = k ∧
      Playing (audioOf file) (totalFramesOf file) w j (bare n)

/-- The node is in a pass, or opens its file for the next one; the first pass
returned the frames of the file. -/
structure Inv (fx : Effects Shifter) (options : Option FileOptionsNode) (fresh : Shifter)
    (file : List UInt8) (s : State Shifter) : Prop where
  /-- The node is in a loop. -/
  isInLoop : s.node.base.isInLoop = true
  /-- The file is there. -/
  hasFile : s.node.file = some file
  /-- The options do not change. -/
  hasOptions : s.node.options = options
  /-- The earlier refills have completed. -/
  old : OldCompleted s
  /-- The pass. -/
  pass : (∃ k, InPass fx options fresh file k s.node) ∨
    s.closed = true ∧ s.node.pitchShifter = fresh ∧ Reopening file (bare s.node)
  /-- The first one. -/
  firstPass : ∃ m : ℕ, (s.closed = false → s.node.base.processedFrames = m) ∧
    s.firstPass = (List.range m).map (passFrame fx options fresh (audioOf file))

variable {options : Option FileOptionsNode} {fresh : Shifter} {file : List UInt8}

/-- A call returns the next frame of the pass. -/
theorem InPass.call {k : ℕ} {n : FileInputNode Shifter}
    (h : InPass fx options fresh file k n) (hoptions : n.options = options) (hended : ¬Ended n)
    {frameBuffer : List UInt8} (hlen : frameBuffer.length = FRAME_SIZE_BYTES)
    (htimely : Timely n (.processFrame frameBuffer)) :
    (n.processFrame fx frameBuffer).result = .ok () ∧
      (n.processFrame fx frameBuffer).frameBuffer =
        passFrame fx options fresh (audioOf file) k ∧
      InPass fx options fresh file (k + 1) (n.processFrame fx frameBuffer).node := by
  obtain ⟨hshifter, w, j, rfl, hplaying⟩ := h
  obtain ⟨hnode, hresult, hframe⟩ := bare_processFrame n fx frameBuffer
  obtain ⟨hok, htake, w', j', hindex, hnext⟩ :=
    @Playing.processFrame _ noEffects _ _ _ _ _ hplaying hended (htimely hended) frameBuffer
  have hlength := @FileInputNode.length_processFrame _ noEffects (bare n) rfl _ hlen
  rw [List.take_of_length_le hlength.le] at htake
  have happlied := hframe (hresult ▸ hok)
  rw [htake, hoptions, hshifter] at happlied
  refine ⟨hresult ▸ hok, congrArg Prod.fst happlied, congrArg Prod.snd happlied, w', j', hindex, ?_⟩
  rw [← hnode]
  exact hnext

/-- Within a pass the counter is the number of frames played. -/
theorem InPass.processedFrames {k : ℕ} {n : FileInputNode Shifter}
    (h : InPass fx options fresh file k n) : n.base.processedFrames = k := by
  obtain ⟨-, w, j, rfl, hplaying⟩ := h
  exact hplaying.processed

/-- The frames of a pass so far, with the one that a call returns. -/
theorem InPass.returned {k : ℕ} {n : FileInputNode Shifter}
    (h : InPass fx options fresh file k n) (hoptions : n.options = options)
    {frameBuffer : List UInt8} (hlen : frameBuffer.length = FRAME_SIZE_BYTES)
    (htimely : Timely n (.processFrame frameBuffer)) :
    ∃ next, InPass fx options fresh file next (n.processFrame fx frameBuffer).node ∧
      (List.range k).map (passFrame fx options fresh (audioOf file)) ++ returned fx n frameBuffer =
        (List.range next).map (passFrame fx options fresh (audioOf file)) := by
  by_cases hended : Ended n
  · have hsame := @processFrame_of_ended _ fx n hended frameBuffer
    refine ⟨k, ?_, ?_⟩
    · rw [hsame]
      exact h
    · rw [CleanEpoch.returned, hsame, List.append_nil]
  · obtain ⟨hresult, hframe, hnext⟩ := h.call hoptions hended hlen htimely
    refine ⟨k + 1, hnext, ?_⟩
    rw [CleanEpoch.returned, hresult, hframe, List.range_succ, List.map_append, List.map_singleton]

/-- A call keeps the invariant. -/
theorem Inv.call {s s' : State Shifter} (h : Inv fx options fresh file s)
    {frameBuffer : List UInt8} (hok : Undisturbed s (.processFrame frameBuffer))
    (hstep : step fx s (.processFrame frameBuffer) = some s') : Inv fx options fresh file s' := by
  have hold := oldCompleted_step h.old hok hstep
  obtain ⟨hlen, hfilled, htimely⟩ := hok
  obtain rfl := Option.some.inj hstep
  obtain ⟨hloop, hoptions, -⟩ := s.node.processFrame_frame fx frameBuffer
  have hfile := (s.node.processFrame_base fx frameBuffer).1
  rcases h.pass with ⟨k, hpass⟩ | ⟨-, -, hreopening⟩
  · obtain ⟨m, hcount, hframes⟩ := h.firstPass
    obtain ⟨next, hnext, hreturned⟩ := hpass.returned h.hasOptions hlen htimely
    refine ⟨hloop.trans h.isInLoop, hfile.trans h.hasFile, hoptions.trans h.hasOptions, hold,
      .inl ⟨next, hnext⟩, ?_⟩
    cases hclosed : s.closed with
    | true => exact ⟨m, nofun, hframes⟩
    | false =>
      obtain rfl : k = m := Int.ofNat_inj.mp (hpass.processedFrames.symm.trans (hcount hclosed))
      refine ⟨next, fun _ => hnext.processedFrames, ?_⟩
      rw [← hreturned, ← hframes]
      rfl
  · exact absurd hfilled hreopening.not_filled

/-- A `close` with no coroutine under way ends the pass. -/
theorem Inv.close (hreset : ∀ shifter, fx.reset shifter = fresh) {s s' : State Shifter}
    (h : Inv fx options fresh file s) {fault : Option String} (hok : Undisturbed s (.close fault))
    (hstep : step fx s (.close fault) = some s') : Inv fx options fresh file s' := by
  have hold := oldCompleted_step h.old hok hstep
  obtain ⟨rfl, hfilled, hrefilled⟩ := hok
  obtain ⟨m, -, hframes⟩ := h.firstPass
  obtain rfl := Option.some.inj hstep
  have hreopening := @reopening_close file (bare s.node) rfl h.hasFile h.isInLoop hfilled hrefilled
  exact ⟨h.isInLoop, h.hasFile, h.hasOptions, hold, .inr ⟨rfl, hreset _, hreopening⟩, m, nofun,
    hframes⟩

/-- A pass goes on when a coroutine takes a step. -/
theorem InPass.task {k : ℕ} {n n' : FileInputNode Shifter}
    (h : InPass fx options fresh file k n) {t : Task} (hreads : Reads t)
    (hrun : n.runTask t = some n') : InPass fx options fresh file k n' := by
  obtain ⟨hshifter, w, j, hindex, hplaying⟩ := h
  have hbare : (bare n).runTask t = some (bare n') := by rw [bare_runTask, hrun, Option.map_some]
  have hfilled : ∀ {i : ℕ} {pc : InitPc}, n.buffer.inits[i]? = some pc → pc = .done :=
    fun hi => hplaying.owned.inits _ (List.mem_of_getElem? hi)
  have hmoves := runTask_moves hrun
  generalize n'.buffer = buffer at hmoves
  have hplay : (Event.task t).IsPlayback := by
    cases t with
    | refillStart i => trivial
    | refillDone i ok =>
      obtain rfl := hreads
      trivial
    | initializeBuffers => exact hreads
    | initStart i =>
      cases hmoves with
      | initStart hi => cases hfilled hi
    | initFirst i ok =>
      cases hmoves with
      | initFirst hi => cases hfilled hi
    | initSecond i ok =>
      cases hmoves with
      | initSecond hi => cases hfilled hi
  exact ⟨(runTask_frame hrun).2.2.2.trans hshifter, w, j, hindex, hplaying.runTask hplay hbare⟩

/-- A node that opens its file goes on with it. -/
theorem Reopening.task {n n' : FileInputNode Shifter} (h : Reopening file (bare n))
    (hshifter : n.pitchShifter = fresh) {t : Task} (hreads : Reads t)
    (hrun : n.runTask t = some n') :
    InPass fx options fresh file 0 n' ∨ Reopening file (bare n') := by
  have hbare : (bare n).runTask t = some (bare n') := by rw [bare_runTask, hrun, Option.map_some]
  have hrefilled : ∀ {i : ℕ} {pc : RefillPc}, n.buffer.refills[i]? = some pc → pc = .done :=
    fun hi => h.refilled _ (List.mem_of_getElem? hi)
  have hmoves := runTask_moves hrun
  generalize n'.buffer = buffer at hmoves
  cases t with
  | refillStart i =>
    cases hmoves with
    | refillStart hi => cases hrefilled hi
  | refillDone i ok =>
    cases hmoves with
    | refillDone hi => cases hrefilled hi
  | initializeBuffers => exact hreads.elim
  | initStart i => exact .inr (h.initStart hbare)
  | initFirst i ok =>
    obtain rfl := hreads
    exact .inr (h.initFirst hbare)
  | initSecond i ok =>
    obtain rfl := hreads
    exact .inl ⟨(runTask_frame hrun).2.2.2.trans hshifter, 0, 0, rfl, h.initSecond hbare⟩

/-- A step of a coroutine keeps the invariant. -/
theorem Inv.task {s s' : State Shifter} (h : Inv fx options fresh file s) {t : Task}
    (hok : Undisturbed s (.task t)) (hstep : step fx s (.task t) = some s') :
    Inv fx options fresh file s' := by
  have hold := oldCompleted_step h.old hok hstep
  obtain ⟨m, hcount, hframes⟩ := h.firstPass
  obtain ⟨node, hrun, rfl⟩ := Option.map_eq_some_iff.mp hstep
  obtain ⟨hloop, hfile, hoptions, hshifter⟩ := runTask_frame hrun
  rcases h.pass with ⟨k, hpass⟩ | ⟨hclosed, hfresh, hreopening⟩
  · have hnext := hpass.task hok hrun
    refine ⟨hloop.trans h.isInLoop, hfile.trans h.hasFile, hoptions.trans h.hasOptions, hold,
      .inl ⟨k, hnext⟩, m, fun hclosed => ?_, hframes⟩
    exact hnext.processedFrames.trans (hpass.processedFrames.symm.trans (hcount hclosed))
  · refine ⟨hloop.trans h.isInLoop, hfile.trans h.hasFile, hoptions.trans h.hasOptions, hold, ?_, m,
      fun hopen => absurd (hclosed.symm.trans hopen) nofun, hframes⟩
    rcases hreopening.task hfresh hok hrun with hpass | hstill
    · exact .inl ⟨0, hpass⟩
    · exact .inr ⟨hclosed, hshifter.trans hfresh, hstill⟩

/-- In a new pass a call returns the frame of the first pass. -/
theorem Inv.clean {s : State Shifter} (h : Inv fx options fresh file s) {e : Event}
    (hok : Undisturbed s e) : EpochClean fx s e := by
  cases e with
  | close fault => trivial
  | task t => exact h.old.silent t
  | processFrame frameBuffer =>
    obtain ⟨hlen, hfilled, htimely⟩ := hok
    intro _ hresult frame hframe
    rcases h.pass with ⟨k, hpass⟩ | ⟨-, -, hreopening⟩
    · obtain ⟨m, -, hframes⟩ := h.firstPass
      have hended : ¬Ended s.node := by
        intro hended
        rw [processFrame_of_ended hended] at hresult
        cases hresult
      rw [(hpass.call h.hasOptions hended hlen htimely).2.1]
      rw [hframes, hpass.processedFrames, Int.toNat_natCast, List.getElem?_map] at hframe
      obtain ⟨i, hi, rfl⟩ := Option.map_eq_some_iff.mp hframe
      obtain ⟨hlt, rfl⟩ := List.getElem?_eq_some_iff.mp hi
      rw [List.getElem_range]
    · exact absurd hfilled hreopening.not_filled

/-- A node at the start of its first pass. -/
def start (n : FileInputNode Shifter) : State Shifter := ⟨n, 0, false, []⟩

/-- A run of coroutines does not touch the effects. -/
theorem run_tasks {ts : List Task} {n p : FileInputNode Shifter}
    (hrun : runEvents (FileInputNode.step fx) n (ts.map .task) = some p) :
    runEvents (FileInputNode.step noEffects) (bare n) (ts.map .task) = some (bare p) ∧
      p.base.isInLoop = n.base.isInLoop ∧ p.file = n.file ∧ p.options = n.options ∧
      p.pitchShifter = n.pitchShifter := by
  induction ts generalizing n with
  | nil =>
    cases hrun
    exact ⟨rfl, rfl, rfl, rfl, rfl⟩
  | cons t ts ih =>
    obtain ⟨m, hstep, hrest⟩ := runEvents_cons_iff.mp hrun
    obtain ⟨hloop, hfile, hoptions, hshifter⟩ := runTask_frame hstep
    obtain ⟨hbare, hloop', hfile', hoptions', hshifter'⟩ := ih hrest
    refine ⟨runEvents_cons_iff.mpr ⟨bare m, ?_, hbare⟩, hloop'.trans hloop, hfile'.trans hfile,
      hoptions'.trans hoptions, hshifter'.trans hshifter⟩
    change (bare n).runTask t = some (bare m)
    have hnode : n.runTask t = some m := hstep
    rw [bare_runTask, hnode, Option.map_some]

/-- Nor does `prepare`. -/
theorem run_prepare {n p : FileInputNode Shifter}
    (hprepare : runEvents (FileInputNode.step fx) n prepareEvents = some p) :
    runEvents (FileInputNode.step noEffects) (bare n) prepareEvents = some (bare p) ∧
      p.base.isInLoop = n.base.isInLoop ∧ p.file = n.file ∧ p.options = n.options ∧
      p.pitchShifter = n.pitchShifter :=
  @run_tasks _ fx [.initializeBuffers, .initStart 0, .initFirst 0 true, .initSecond 0 true] n p
    hprepare

/-- After it the first pass can start. -/
theorem inv_start {n p : FileInputNode Shifter} (hfresh : Fresh (bare n) file)
    (hloop : n.base.isInLoop = true)
    (hprepare : runEvents (FileInputNode.step fx) n prepareEvents = some p) :
    Inv fx n.options n.pitchShifter file (start p) := by
  obtain ⟨hbare, hloop', hfile, hoptions, hshifter⟩ := run_prepare hprepare
  have hsame : prepared (bare n) = bare p := Option.some.inj (hfresh.run_prepare.symm.trans hbare)
  have hplaying := hfresh.playing
  rw [hsame] at hplaying
  exact ⟨hloop'.trans hloop, hfile.trans hfresh.file, hoptions, fun _ => nofun,
    .inl ⟨0, hshifter, 0, 0, rfl, hplaying⟩, 0, fun _ => hplaying.processed, rfl⟩

end Passes

/-- In a run that closes the node after its refills have completed, and plays it
after its buffer has been filled, a refill from before a reset does nothing and
each pass of a looping file returns the frames of the first one. -/
theorem epochs_clean (fx : Effects Shifter) {n p : FileInputNode Shifter} {file : List UInt8}
    {es : List Event} (hreset : ∀ shifter, fx.reset shifter = n.pitchShifter)
    (hfresh : Fresh (bare n) file) (hloop : n.base.isInLoop = true)
    (hprepare : runEvents (FileInputNode.step fx) n prepareEvents = some p)
    (hguard : Meets (step fx) Undisturbed (start p) es) :
    Meets (step fx) (EpochClean fx) (start p) es := by
  refine hguard.mono (fun s e s' hs hok hstep => ?_) (fun _ _ hs hok => hs.clean hok)
    (inv_start hfresh hloop hprepare)
  cases e with
  | processFrame frameBuffer => exact hs.call hok hstep
  | close fault => exact hs.close hreset hok hstep
  | task t => exact hs.task hok hstep

section SecondPass

/-- A node in a loop. -/
def looping (file : List UInt8) : FileInputNode Unit :=
  { create file () with base := { (create file ()).base with isInLoop := true } }

/-- A looping node is fresh at its file. -/
theorem fresh_looping (file : List UInt8) : Fresh (looping file) file := ⟨rfl, rfl, rfl, rfl, rfl⟩

/-- A run of the node is one of its history. -/
theorem run_history {n m : FileInputNode Shifter} {es : List Event} {s : State Shifter}
    (hs : s.node = n) (hrun : runEvents (FileInputNode.step fx) n es = some m) :
    ∃ t, runEvents (step fx) s es = some t ∧ t.node = m := by
  induction es generalizing n s with
  | nil => exact ⟨s, rfl, hs.trans (Option.some.inj hrun)⟩
  | cons e es ih =>
    subst hs
    obtain ⟨n', hstep, hrest⟩ := runEvents_cons_iff.mp hrun
    have hmoves : ∃ s', step fx s e = some s' ∧ s'.node = n' := by
      refine ⟨_, Option.map_eq_some_iff.mpr ⟨n', hstep, rfl⟩, ?_⟩
      cases e <;> rfl
    obtain ⟨s', hs', hnode⟩ := hmoves
    obtain ⟨t, ht, hm⟩ := ih hnode hrest
    exact ⟨t, runEvents_cons_iff.mpr ⟨s', hs', ht⟩, hm⟩

/-- Calls before the end of the stream are calls of the buffer. -/
theorem run_calls {n : FileInputNode Shifter} {calls : ℕ} {b : Buffering.State}
    (hmore : n.base.processedFrames + calls ≤ n.base.totalFrames)
    (hbuffer : runEvents Buffering.step n.buffer (List.replicate calls Buffering.frameEvent) =
      some b) :
    ∃ m, runEvents (FileInputNode.step fx) n (List.replicate calls call) = some m ∧
      m.buffer = b := by
  induction calls generalizing n with
  | zero => exact ⟨n, rfl, Option.some.inj hbuffer⟩
  | succ calls ih =>
    have hended : ¬Ended n := by
      rintro ⟨hover, -⟩
      omega
    obtain ⟨b', hfirst, hrest⟩ := runEvents_cons_iff.mp hbuffer
    have hnode := @processFrame_buffer _ fx n hended (List.replicate FRAME_SIZE_BYTES 0)
    obtain rfl := Option.some.inj hfirst
    obtain ⟨-, hbase⟩ := n.processFrame_base fx (List.replicate FRAME_SIZE_BYTES 0)
    have hcount : (n.processFrame fx (List.replicate FRAME_SIZE_BYTES 0)).node.base.processedFrames +
        calls ≤ (n.processFrame fx (List.replicate FRAME_SIZE_BYTES 0)).node.base.totalFrames := by
      rcases hbase with ⟨-, hbase⟩ | ⟨-, hbase⟩
      · rw [hbase]
        dsimp only
        omega
      · rw [hbase]
        omega
    obtain ⟨m, hm, hsame⟩ := ih hcount (hnode ▸ hrest)
    exact ⟨m, runEvents_cons_iff.mpr ⟨_, rfl, hm⟩, hsame⟩

/-- The 410th call swaps the blocks and spawns a refill. -/
theorem exists_first_swap (first second : List UInt8) :
    ∃ b, runEvents Buffering.step (Buffering.initialized first second)
        (List.replicate 410 Buffering.frameEvent) = some b ∧ b.refills = [.spawned] ∧
      b.inits = [.done] ∧ b.controller.inBufferProcessedFrames = 1 := by
  have hfit : ((Buffering.initialized first second).controller.inBufferProcessedFrames + 409) *
      FRAME_SIZE_BYTES ≤ BUFFER_SIZE := by
    change (0 + 409) * FRAME_SIZE_BYTES ≤ BUFFER_SIZE
    decide
  have hused := (Buffering.run_frames hfit).1
  have hneeds : ((Buffering.initialized first second).withController
      { (Buffering.initialized first second).controller with
        inBufferProcessedFrames := 0 + 409 }).controller.needsSwap 0 := by
    rw [AsyncBufferController.needsSwap_iff]
    change BUFFER_SIZE < (0 + 409) * FRAME_SIZE_BYTES + 0 + FRAME_SIZE_BYTES
    decide
  have hrun := runEvents_snoc hused (Buffering.step_swap hneeds rfl)
  rw [← List.replicate_succ'] at hrun
  exact ⟨_, hrun, rfl, rfl, rfl⟩

/-- The refill of a node with a file of 411 frames before its last call. -/
theorem exists_refilling {file : List UInt8} (htotal : totalFramesOf file = 411) :
    ∃ m, runEvents (FileInputNode.step noEffects) (prepared (looping file))
        (List.replicate 410 call ++ [.task (.refillStart 0)]) = some m ∧
      m.buffer.inits = [.done] ∧ m.buffer.controller.inBufferProcessedFrames = 1 ∧
      ∃ block, m.buffer.refills = [.fetching block] := by
  have hplaying := (fresh_looping file).playing
  have hmore : (prepared (looping file)).base.processedFrames + (410 : ℕ) ≤
      (prepared (looping file)).base.totalFrames := by
    rw [hplaying.processed, hplaying.totalFrames, htotal]
    decide
  obtain ⟨b, hbuffer, hrefills, hinits, hcount⟩ := exists_first_swap (looping file).openFile.1.readBlock
    (looping file).openFile.1.advanceHandle.readBlock
  obtain ⟨m, hrun, rfl⟩ := @run_calls _ noEffects _ _ _ hmore hbuffer
  have hstart : Buffering.step m.buffer (.refillStart 0) = some (m.buffer.setRefill 0
      (.fetching m.buffer.controller.bf.writeIndex)) := by
    simp only [Buffering.step, hrefills, List.getElem?_cons_zero]
  refine ⟨_, runEvents_snoc hrun (Option.map_eq_some_iff.mpr ⟨_, hstart, rfl⟩),
    hinits, hcount, m.buffer.controller.bf.writeIndex, ?_⟩
  change m.buffer.refills.set 0 (.fetching m.buffer.controller.bf.writeIndex) = _
  rw [hrefills]
  rfl

/-- The guard looks at the node only. -/
def Calm (n : FileInputNode Shifter) (e : Event) : Prop := Undisturbed (start n) e

/-- A calm run of the node is one of its history. -/
theorem undisturbed_of_calm {n : FileInputNode Shifter} {es : List Event} {s : State Shifter}
    (hs : s.node = n) (h : Meets (FileInputNode.step fx) Calm n es) :
    Meets (step fx) Undisturbed s es := by
  induction es generalizing n s with
  | nil => trivial
  | cons e es ih =>
    subst hs
    have hguard : Undisturbed s e := by
      have hcalm := h.1
      cases e <;> exact hcalm
    refine ⟨hguard, fun s' hs' => ?_⟩
    obtain ⟨node, hstep, rfl⟩ := Option.map_eq_some_iff.mp hs'
    refine ih ?_ (h.2 node hstep)
    cases e <;> rfl

/-- The calls of a block and the first swap are calm where no refill is under way. -/
theorem calm_calls {n : FileInputNode Shifter} (hfilled : Filled n) (hrefilled : Refilled n)
    {calls : ℕ}
    (hcalls : n.buffer.controller.inBufferProcessedFrames + calls ≤ FRAMES_PER_BLOCK + 1) :
    Meets (FileInputNode.step fx) Calm n (List.replicate calls call) := by
  induction calls generalizing n with
  | zero => trivial
  | succ calls ih =>
    refine ⟨⟨List.length_replicate, hfilled, fun _ _ pc hpc =>
      hrefilled pc (List.mem_of_getLast? hpc)⟩, fun n' hn' => ?_⟩
    obtain rfl := Option.some.inj hn'
    have hinits := (n.processFrame_frame fx (List.replicate FRAME_SIZE_BYTES 0)).2.2
    have hfilled' : Filled (n.processFrame fx (List.replicate FRAME_SIZE_BYTES 0)).node := by
      rw [Filled, hinits]
      exact hfilled
    by_cases hswap : n.buffer.controller.needsSwap 0
    · -- it is the last call
      have hused := needsSwap_iff_frames.mp hswap
      obtain rfl : calls = 0 := by omega
      trivial
    · have hrefills := processFrame_refills_of_fits fx hswap (List.replicate FRAME_SIZE_BYTES 0)
      refine ih hfilled' ?_ ?_
      · rw [Refilled, hrefills]
        exact hrefilled
      · by_cases hended : Ended n
        · rw [processFrame_of_ended hended]
          dsimp only
          omega
        · have hframe := AsyncBufferController.getFrame_of_fits hswap
            (List.replicate FRAME_SIZE_BYTES 0)
          rw [processFrame_buffer hended]
          simp only [Buffering.getFrame, hframe]
          omega

/-- The calls of the first pass up to the last one, with the refill. -/
def firstPassEvents : List Event :=
  List.replicate 410 call ++ [.task (.refillStart 0)]

/-- The end of the refill, the last call, the reset, the coroutine that fills the buffer
again, and as many calls once more. -/
def secondPassEvents : List Event :=
  [.task (.refillDone 0 true), call, .close none, .task (.initStart 1), .task (.initFirst 1 true),
    .task (.initSecond 1 true)] ++ List.replicate 410 call

/-- A node at the last call of the first pass: its refill is in its fetch. -/
structure Refilling (n : FileInputNode Shifter) : Prop where
  /-- The buffer has been filled once. -/
  inits : n.buffer.inits = [.done]
  /-- The swap has taken a frame. -/
  count : n.buffer.controller.inBufferProcessedFrames = 1
  /-- The only refill. -/
  refills : ∃ block, n.buffer.refills = [.fetching block]

/-- The refill ends. -/
theorem Refilling.refillDone {n n' : FileInputNode Shifter} (h : Refilling n)
    (hrun : n.runTask (.refillDone 0 true) = some n') :
    n'.buffer.inits = [.done] ∧ n'.buffer.refills = [.done] ∧
      n'.buffer.controller.inBufferProcessedFrames = 1 := by
  obtain ⟨block, hrefills⟩ := h.refills
  have hmoves := runTask_moves hrun
  generalize n'.buffer = buffer at hmoves ⊢
  cases hmoves with
  | refillDone hk =>
    refine ⟨h.inits, ?_, h.count⟩
    change n.buffer.refills.set 0 .done = [.done]
    rw [hrefills]
    rfl

/-- The last coroutine of a reset leaves the refills as they are. -/
theorem Refilled.initSecond {n n' : FileInputNode Shifter} (h : Refilled n) {k : ℕ} {ok : Bool}
    (hrun : n.runTask (.initSecond k ok) = some n') : Refilled n' := by
  have hmoves := runTask_moves hrun
  rw [Refilled]
  generalize n'.buffer = buffer at hmoves ⊢
  cases hmoves with
  | initSecond hk => exact h

/-- From there on the second pass is calm. -/
theorem Refilling.calm {file : List UInt8} {n : FileInputNode Unit} (h : Refilling n)
    (hloop : n.base.isInLoop = true) (hfile : n.file = some file) (hoptions : n.options = none) :
    Meets (FileInputNode.step noEffects) Calm n secondPassEvents := by
  refine ⟨rfl, fun n₁ hdone => ?_⟩
  have hrun₁ : n.runTask (.refillDone 0 true) = some n₁ := hdone
  obtain ⟨hinits₁, hrefills₁, hcount₁⟩ := h.refillDone hrun₁
  obtain ⟨hloop₁, hfile₁, hoptions₁, -⟩ := runTask_frame hrun₁
  have hfilled₁ : Filled n₁ := by
    rw [Filled, hinits₁]
    exact fun pc hpc => List.mem_singleton.mp hpc
  -- the last call does not swap, so the reset finds the refill completed
  have hfits : ¬n₁.buffer.controller.needsSwap 0 := by
    rw [needsSwap_iff_frames, hcount₁]
    decide
  refine ⟨⟨List.length_replicate, hfilled₁, fun _ hneeds => absurd hneeds hfits⟩, fun n₂ hcall => ?_⟩
  obtain ⟨hloop₂, hoptions₂, hinits₂⟩ := n₁.processFrame_frame noEffects
    (List.replicate FRAME_SIZE_BYTES 0)
  have hfile₂ := (n₁.processFrame_base noEffects (List.replicate FRAME_SIZE_BYTES 0)).1
  have hrefills₂ := processFrame_refills_of_fits noEffects hfits
    (List.replicate FRAME_SIZE_BYTES 0)
  have hnode₂ : (n₁.processFrame noEffects (List.replicate FRAME_SIZE_BYTES 0)).node = n₂ :=
    Option.some.inj hcall
  rw [hnode₂] at hloop₂ hoptions₂ hinits₂ hfile₂ hrefills₂
  have hfilled₂ : Filled n₂ := by
    rw [Filled, hinits₂]
    exact hfilled₁
  have hrefilled₂ : Refilled n₂ := by
    rw [Refilled, hrefills₂, hrefills₁]
    exact fun pc hpc => List.mem_singleton.mp hpc
  refine ⟨⟨rfl, hfilled₂, hrefilled₂⟩, fun n₃ hclose => ?_⟩
  have hreopening : Reopening file n₃ := by
    obtain rfl := Option.some.inj hclose
    exact @reopening_close file n₂ (hoptions₂.trans (hoptions₁.trans hoptions))
      (hfile₂.trans (hfile₁.trans hfile)) (hloop₂.trans (hloop₁.trans hloop)) hfilled₂ hrefilled₂
  refine ⟨trivial, fun n₄ hstart => ⟨rfl, fun n₅ hfirst => ⟨rfl, fun n₆ hsecond => ?_⟩⟩⟩
  have hlast := (hreopening.initStart hstart).initFirst hfirst
  have hagain := hlast.initSecond hsecond
  refine calm_calls hagain.owned.inits (hlast.refilled.initSecond hsecond) ?_
  rw [hagain.count]
  decide

/-- A reset that has been spawned fills the buffer. -/
theorem exists_reopened {n : FileInputNode Shifter} (h : n.buffer.inits = [.done, .spawned]) :
    ∃ m, runEvents (FileInputNode.step fx) n
      [.task (.initStart 1), .task (.initFirst 1 true), .task (.initSecond 1 true)] = some m := by
  obtain ⟨n₁, hstart⟩ : ∃ n₁, n.runTask (.initStart 1) = some n₁ := by
    simp [runTask, Buffering.step, h]
  have hinits₁ : ∃ block, n₁.buffer.inits = [.done, .first block] := by
    have hmoves := runTask_moves hstart
    generalize n₁.buffer = buffer at hmoves ⊢
    cases hmoves with
    | initStart hk =>
      refine ⟨n.buffer.controller.bf.writeIndex, ?_⟩
      change n.buffer.inits.set 1 _ = _
      rw [h]
      rfl
  obtain ⟨first, hinits₁⟩ := hinits₁
  obtain ⟨n₂, hfirst⟩ : ∃ n₂, n₁.runTask (.initFirst 1 true) = some n₂ := by
    simp [runTask, finishFetch, Buffering.step, hinits₁]
  have hinits₂ : ∃ block, n₂.buffer.inits = [.done, .second block] := by
    have hmoves := runTask_moves hfirst
    generalize n₂.buffer = buffer at hmoves ⊢
    cases hmoves with
    | @initFirst _ block hk =>
      refine ⟨(n₁.buffer.controller.finishFirst block n₁.readBlock).bf.writeIndex, ?_⟩
      change n₁.buffer.inits.set 1 _ = _
      rw [hinits₁]
      rfl
  obtain ⟨second, hinits₂⟩ := hinits₂
  obtain ⟨n₃, hsecond⟩ : ∃ n₃, n₂.runTask (.initSecond 1 true) = some n₃ := by
    simp [runTask, finishFetch, Buffering.step, hinits₂]
  exact ⟨n₃, runEvents_cons_iff.mpr ⟨n₁, hstart, runEvents_cons_iff.mpr ⟨n₂, hfirst,
    runEvents_cons_iff.mpr ⟨n₃, hsecond, rfl⟩⟩⟩⟩

/-- The second pass goes to its last call. -/
theorem Refilling.exists_run {n : FileInputNode Shifter} (h : Refilling n)
    (hloop : n.base.isInLoop = true) :
    ∃ m, runEvents (FileInputNode.step fx) n secondPassEvents = some m := by
  obtain ⟨block, hrefills⟩ := h.refills
  have hdone : ∃ n₁, n.runTask (.refillDone 0 true) = some n₁ := by
    simp [runTask, finishFetch, Buffering.step, hrefills]
  obtain ⟨n₁, hdone⟩ := hdone
  obtain ⟨hinits₁, -⟩ := h.refillDone hdone
  have hloop₁ := (runTask_frame hdone).1
  obtain ⟨hloop₂, -, hinits₂⟩ := n₁.processFrame_frame fx (List.replicate FRAME_SIZE_BYTES 0)
  have hspawned : (((n₁.processFrame fx (List.replicate FRAME_SIZE_BYTES 0)).node.close fx
      none).1).buffer.inits = [.done, .spawned] := by
    change (if (n₁.processFrame fx (List.replicate FRAME_SIZE_BYTES 0)).node.base.isInLoop then
      _ else _) = _
    rw [if_pos (hloop₂.trans (hloop₁.trans hloop)), hinits₂, hinits₁]
    rfl
  obtain ⟨n₆, hreopened⟩ := @exists_reopened _ fx _ hspawned
  obtain ⟨m, hcalls⟩ := @runEvents_calls _ fx n₆ (List.replicate FRAME_SIZE_BYTES 0) 410
  refine ⟨m, runEvents_append_iff.mpr ⟨n₆, ?_, hcalls⟩⟩
  exact runEvents_cons_iff.mpr ⟨n₁, hdone, hreopened⟩

/-- No event changes the file, the options or the loop of a node. -/
theorem step_frame {n n' : FileInputNode Shifter} {e : Event}
    (hstep : FileInputNode.step fx n e = some n') :
    n'.base.isInLoop = n.base.isInLoop ∧ n'.file = n.file ∧ n'.options = n.options := by
  cases e with
  | processFrame frameBuffer =>
    obtain rfl := Option.some.inj hstep
    obtain ⟨hloop, hoptions, -⟩ := n.processFrame_frame fx frameBuffer
    exact ⟨hloop, (n.processFrame_base fx frameBuffer).1, hoptions⟩
  | close fault =>
    obtain rfl := Option.some.inj hstep
    cases fault <;> exact ⟨rfl, rfl, rfl⟩
  | task t =>
    obtain ⟨hloop, hfile, hoptions, -⟩ := runTask_frame hstep
    exact ⟨hloop, hfile, hoptions⟩

/-- Both passes of a file of 411 frames. -/
theorem undisturbed_twoPasses {file : List UInt8} (htotal : totalFramesOf file = 411) :
    Meets (step noEffects) Undisturbed (start (prepared (looping file)))
        (firstPassEvents ++ secondPassEvents) ∧
      ∃ t, runEvents (step noEffects) (start (prepared (looping file)))
        (firstPassEvents ++ secondPassEvents) = some t := by
  have hplaying := (fresh_looping file).playing
  obtain ⟨m, hrun, hinits, hcount, hrefills⟩ := exists_refilling htotal
  have hrefilling : Refilling m := ⟨hinits, hcount, hrefills⟩
  have hframe : m.base.isInLoop = true ∧ m.file = some file ∧ m.options = none := by
    refine run_invariant_of_step (I := fun n : FileInputNode Unit =>
      n.base.isInLoop = true ∧ n.file = some file ∧ n.options = none) ?_ ?_ hrun
    · intro n e n' hn hstep
      obtain ⟨hloop, hfile, hoptions⟩ := step_frame hstep
      exact ⟨hloop.trans hn.1, hfile.trans hn.2.1, hoptions.trans hn.2.2⟩
    · exact ⟨rfl, rfl, rfl⟩
  obtain ⟨t, hlast⟩ := @Refilling.exists_run _ noEffects _ hrefilling hframe.1
  have hall : runEvents (FileInputNode.step noEffects) (prepared (looping file))
      (firstPassEvents ++ secondPassEvents) = some t := runEvents_append_iff.mpr ⟨m, hrun, hlast⟩
  obtain ⟨t', ht', -⟩ := @run_history _ noEffects _ _ _ (start (prepared (looping file))) rfl hall
  refine ⟨undisturbed_of_calm rfl (meets_append_iff.mpr ⟨?_, fun m' hm' => ?_⟩), t', ht'⟩
  · refine meets_append_iff.mpr ⟨calm_calls hplaying.owned.inits (fun _ => nofun) ?_,
      fun _ _ => ⟨trivial, fun _ _ => trivial⟩⟩
    rw [hplaying.count]
    decide
  · obtain rfl : m = m' := Option.some.inj (hrun.symm.trans hm')
    exact hrefilling.calm hframe.1 hframe.2.1 hframe.2.2

/-- Two passes of a file of 411 different frames, with a refill in the first one. -/
theorem epochs_clean_twoPasses :
    (∃ t, runEvents (step noEffects) (start (prepared (looping (numberedFile 411))))
        (firstPassEvents ++ secondPassEvents) = some t) ∧
      Meets (step noEffects) (EpochClean noEffects)
        (start (prepared (looping (numberedFile 411)))) (firstPassEvents ++ secondPassEvents) := by
  have htotal := @totalFramesOf_of_length (numberedFile 411) 411 (by omega) (by omega)
    (length_numberedFile 411) (take_numberedFile (by omega))
  obtain ⟨hguard, hrun⟩ := undisturbed_twoPasses htotal
  exact ⟨hrun, @epochs_clean _ noEffects (looping (numberedFile 411)) _ (numberedFile 411) _
    (fun _ => rfl) (fresh_looping (numberedFile 411)) rfl
    (fresh_looping (numberedFile 411)).run_prepare hguard⟩

end SecondPass

section Counterexample

/-- The fetch of a refill that `close` interrupts ends in the new pass, where it
sets the flag and the block. -/
theorem not_clean_of_close {s : State Shifter} {k : ℕ} {block : Fin 2}
    (hk : s.node.buffer.refills[k]? = some (.fetching block)) (ok : Bool) :
    ¬Meets (step fx) (EpochClean fx) s [.close none, .task (.refillDone k ok)] := by
  rintro ⟨-, hnext⟩
  have hold : k < s.node.buffer.refills.length := (List.getElem?_eq_some_iff.mp hk).1
  obtain ⟨hclean, -⟩ := hnext _ rfl
  have hrun : ∃ node, (s.node.close fx none).1.runTask (.refillDone k ok) = some node ∧
      node.buffer.controller.bf.backBufferReady = true := by
    have hstep : ∀ data, Buffering.step (s.node.close fx none).1.buffer (.refillDone k data) =
        some (((s.node.close fx none).1.buffer.withController
          ((s.node.close fx none).1.buffer.controller.finishRefill block data)).setRefill k
            .done) := by
      intro data
      have hsame : (s.node.close fx none).1.buffer.refills[k]? = some (.fetching block) := hk
      simp only [Buffering.step, hsame]
    refine ⟨_, Option.map_eq_some_iff.mpr ⟨_, hstep _, rfl⟩, rfl⟩
  obtain ⟨node, hnode, hready⟩ := hrun
  obtain ⟨hsame, -⟩ := hclean k rfl hold node hnode
  rw [hsame] at hready
  cases hready

/-- A refill that `close` interrupts at the end of a file of 411 frames is not
kept out of the new pass. -/
theorem epoch_not_clean :
    ¬∀ (n p : FileInputNode Unit) (file : List UInt8) (es : List Event), Fresh (bare n) file →
      n.base.isInLoop = true →
        runEvents (FileInputNode.step noEffects) n prepareEvents = some p →
          Meets (step noEffects) (EpochClean noEffects) (start p) es := by
  intro h
  have htotal := @totalFramesOf_replicate 411 (by decide) (by decide)
  generalize List.replicate (411 * FRAME_SIZE_BYTES) (7 : UInt8) = file at htotal
  obtain ⟨m, hrun, -, -, block, hrefills⟩ := exists_refilling htotal
  have hlast : FileInputNode.step noEffects m call =
      some (m.processFrame noEffects (List.replicate FRAME_SIZE_BYTES 0)).node := rfl
  obtain ⟨s, hs, hnode⟩ := @run_history _ noEffects _ _ _ (start (prepared (looping file))) rfl
    (runEvents_snoc hrun hlast)
  -- the last call leaves the refill in its fetch
  obtain ⟨more, hmore⟩ := processFrame_refills noEffects m (List.replicate FRAME_SIZE_BYTES 0)
  have hfetching : s.node.buffer.refills[0]? = some (.fetching block) := by
    rw [hnode, ← hmore, hrefills]
    rfl
  have hmeets := h (looping file) (prepared (looping file)) file
    ((List.replicate 410 call ++ [.task (.refillStart 0)] ++ [call]) ++
      [.close none, .task (.refillDone 0 true)]) (fresh_looping file) rfl
    (fresh_looping file).run_prepare
  exact not_clean_of_close hfetching true ((meets_append_iff.mp hmeets).2 s hs)

end Counterexample

end HermesFlow.Audio.CleanEpoch
