import HermesFlow.MixerSum

/-!
# When a mixer ends

A mixer counts the calls in which some input gives a frame, and reports the end
of its stream when none does. Between two calls the buffers of its inputs may
be in any state, so a call may have any pattern of results. What one input gives
over a pass is an account of its own, from its counter and its total.
-/

namespace HermesFlow.Audio.MixerEnd

/-- A result of `process_frame` of an input. -/
inductive Outcome where
  | frame | underrun | endOfStream
  deriving DecidableEq

/-- The results of an input with a total, from one count of frames to another:
it reports its end when it has given its frames, and not before. -/
inductive Delivers (total : ℤ) : ℤ → List Outcome → ℤ → Prop
  | nil {count : ℤ} : Delivers total count [] count
  | frame {count count' : ℤ} {results : List Outcome} (hmore : ¬(total ≤ count ∧ 0 < total))
      (hrest : Delivers total (count + 1) results count') :
      Delivers total count (.frame :: results) count'
  | underrun {count count' : ℤ} {results : List Outcome} (hmore : ¬(total ≤ count ∧ 0 < total))
      (hrest : Delivers total count results count') :
      Delivers total count (.underrun :: results) count'
  | endOfStream {count count' : ℤ} {results : List Outcome} (hdone : total ≤ count ∧ 0 < total)
      (hrest : Delivers total count results count') :
      Delivers total count (.endOfStream :: results) count'

namespace Delivers

variable {total count count' : ℤ} {results : List Outcome}

/-- Deliveries follow one another. -/
theorem append {count'' : ℤ} {results' : List Outcome} (h : Delivers total count results count')
    (h' : Delivers total count' results' count'') :
    Delivers total count (results ++ results') count'' := by
  induction h with
  | nil => exact h'
  | frame hmore _ ih => exact .frame hmore (ih h')
  | underrun hmore _ ih => exact .underrun hmore (ih h')
  | endOfStream hdone _ ih => exact .endOfStream hdone (ih h')

/-- The count counts the frames. -/
theorem count_eq (h : Delivers total count results count') :
    count' = count + results.count .frame := by
  induction h with
  | nil => simp
  | frame _ _ ih =>
    rw [ih, List.count_cons_self]
    push_cast
    omega
  | underrun _ _ ih => rw [ih, List.count_cons_of_ne (by decide)]
  | endOfStream _ _ ih => rw [ih, List.count_cons_of_ne (by decide)]

/-- An input that has reported its end has given its frames. -/
theorem done (h : Delivers total count results count') (hend : .endOfStream ∈ results) :
    total ≤ count' := by
  induction h with
  | nil => cases hend
  | frame _ _ ih => exact ih ((List.mem_cons.mp hend).resolve_left (by decide))
  | underrun _ _ ih => exact ih ((List.mem_cons.mp hend).resolve_left (by decide))
  | endOfStream hdone hrest _ =>
    have hcount := hrest.count_eq
    omega

/-- One that underran in these results, without a frame, has not. -/
theorem not_done (h : Delivers total count results count') (hunderrun : .underrun ∈ results)
    (hnone : .frame ∉ results) : ¬(total ≤ count' ∧ 0 < total) := by
  have hcount := h.count_eq
  rw [List.count_eq_zero_of_not_mem hnone] at hcount
  induction h with
  | nil => cases hunderrun
  | frame _ _ _ => exact absurd List.mem_cons_self hnone
  | underrun hmore _ _ => rwa [hcount, Nat.cast_zero, add_zero]
  | endOfStream _ _ ih =>
    exact ih ((List.mem_cons.mp hunderrun).resolve_left (by decide))
      (fun h => hnone (List.mem_cons_of_mem _ h)) hcount

/-- A result is a frame, an underrun or an end. -/
theorem length_eq (h : Delivers total count results count') :
    results.length =
      results.count .frame + results.count .underrun + results.count .endOfStream := by
  induction h with
  | nil => rfl
  | frame _ _ ih | underrun _ _ ih | endOfStream _ _ ih =>
    simp only [List.length_cons, List.count_cons, ih]
    simp
    omega

/-- An input has given its frames exactly if its underruns leave enough results for them. -/
theorem done_iff (h : Delivers total 0 results count') :
    total ≤ count' ↔ results.count .underrun + total ≤ results.length := by
  have hcount := h.count_eq
  have hlength := h.length_eq
  constructor
  · intro hdone
    omega
  · intro hroom
    by_cases hend : .endOfStream ∈ results
    · exact h.done hend
    · rw [List.count_eq_zero_of_not_mem hend] at hlength
      omega

end Delivers

variable {Shifter : Type}

/-- The result of a call as an outcome; its only errors are these two. -/
def outcomeOf : Except NodeError Unit → Outcome
  | .ok () => .frame
  | .error error => if error.code = .endOfStream then .endOfStream else .underrun

/-- A call delivers, by the counters of the node. -/
theorem processFrame_delivers (fx : Effects Shifter) (n : FileInputNode Shifter)
    (frameBuffer : List UInt8) :
    Delivers n.base.totalFrames n.base.processedFrames
      [outcomeOf (n.processFrame fx frameBuffer).result]
      (n.processFrame fx frameBuffer).node.base.processedFrames := by
  unfold FileInputNode.processFrame
  split
  · rename_i hdone
    exact .endOfStream hdone .nil
  · rename_i hmore
    dsimp only
    split
    · rename_i error herror
      -- the only error of the buffer
      have hcode : error.code ≠ .endOfStream := by
        unfold AsyncBufferController.getFrame at herror
        split at herror
        · split at herror
          · cases herror
            decide
          · cases herror
        · cases herror
      rw [outcomeOf, if_neg hcode]
      exact .underrun hmore .nil
    · exact .frame hmore .nil

/-- While an input has frames left its result is that of its buffer. -/
theorem processFrame_result (fx : Effects Shifter) {n : FileInputNode Shifter}
    (hmore : ¬(n.base.processedFrames ≥ n.base.totalFrames ∧ n.base.totalFrames > 0))
    (frameBuffer : List UInt8) :
    (n.processFrame fx frameBuffer).result =
      (n.buffer.controller.getFrame frameBuffer 0).result := by
  unfold FileInputNode.processFrame
  rw [if_neg hmore]
  dsimp only
  split
  · rename_i error herror
    exact herror.symm
  · rename_i hok
    exact hok.symm

/-- The results of the inputs, along the loop of a call. -/
def results (fx : FloatOps Shifter) : List ℕ → Mixing Shifter → List (ℕ × Outcome)
  | [], _ => []
  | source :: inputs, m =>
    (source,
        outcomeOf ((m.files source).processFrame fx.toEffects m.tempInputBuffer).result) ::
      results fx inputs (m.add fx source)

/-- Those of one input. -/
def resultsOf (j : ℕ) (log : List (ℕ × Outcome)) : List Outcome :=
  (log.filter fun entry => entry.1 = j).map Prod.snd

/-- The results of two logs are those of each. -/
theorem resultsOf_append (j : ℕ) (log log' : List (ℕ × Outcome)) :
    resultsOf j (log ++ log') = resultsOf j log ++ resultsOf j log' := by
  rw [resultsOf, List.filter_append, List.map_append]
  rfl

/-- A result of an input is one in the log. -/
theorem mem_resultsOf {j : ℕ} {log : List (ℕ × Outcome)} {outcome : Outcome} :
    outcome ∈ resultsOf j log ↔ (j, outcome) ∈ log := by
  simp [resultsOf]

/-- An input has a result for each of its entries. -/
theorem length_resultsOf (fx : FloatOps Shifter) (inputs : List ℕ) (m : Mixing Shifter) (j : ℕ) :
    (resultsOf j (results fx inputs m)).length = inputs.count j := by
  induction inputs generalizing m with
  | nil => rfl
  | cons source inputs ih =>
    have hrest := ih (m.add fx source)
    rw [resultsOf, List.length_map] at hrest ⊢
    rw [results, List.filter_cons, List.count_cons]
    rcases eq_or_ne source j with rfl | hj
    · rw [if_pos (by simp), List.length_cons, hrest, if_pos (by simp)]
    · rw [if_neg (by simpa using hj), hrest, if_neg (by simpa using hj), Nat.add_zero]

/-- One input of the loop calls its file. -/
theorem add_files (fx : FloatOps Shifter) (m : Mixing Shifter) (source : ℕ) :
    (m.add fx source).files = Function.update m.files source
      ((m.files source).processFrame fx.toEffects m.tempInputBuffer).node := by
  unfold Mixing.add
  dsimp only
  split <;> rfl

/-- The loop is active once an input gives a frame. -/
theorem add_active (fx : FloatOps Shifter) (m : Mixing Shifter) (source : ℕ) :
    (m.add fx source).hasActiveInputs = true ↔ m.hasActiveInputs = true ∨
      outcomeOf ((m.files source).processFrame fx.toEffects m.tempInputBuffer).result = .frame := by
  unfold Mixing.add
  dsimp only
  split
  · rename_i error herror
    rw [herror, outcomeOf]
    split <;> simp
  · rename_i hok
    rw [hok]
    simp [outcomeOf]

/-- A call delivers to each input what its entries give. -/
theorem loop_delivers (fx : FloatOps Shifter) (inputs : List ℕ) (m : Mixing Shifter) (j : ℕ) :
    Delivers (m.files j).base.totalFrames (m.files j).base.processedFrames
      (resultsOf j (results fx inputs m))
      ((inputs.foldl (Mixing.add fx) m).files j).base.processedFrames := by
  induction inputs generalizing m with
  | nil => exact .nil
  | cons source inputs ih =>
    have hrest := ih (m.add fx source)
    have hcall := processFrame_delivers fx.toEffects (m.files source) m.tempInputBuffer
    have htotal := (sameSource_processFrame fx.toEffects (m.files source)
      m.tempInputBuffer).totalFrames
    rw [add_files] at hrest
    rw [List.foldl_cons, results, resultsOf, List.filter_cons]
    rcases eq_or_ne source j with rfl | hj
    · rw [Function.update_self, htotal] at hrest
      rw [if_pos (by simp), List.map_cons]
      exact hcall.append hrest
    · rw [Function.update_of_ne hj.symm] at hrest
      rw [if_neg (by simpa using hj)]
      exact hrest

/-- The loop is active exactly when some input gives a frame. -/
theorem loop_active (fx : FloatOps Shifter) (inputs : List ℕ) (m : Mixing Shifter) :
    (inputs.foldl (Mixing.add fx) m).hasActiveInputs = true ↔
      m.hasActiveInputs = true ∨ ∃ j, (j, Outcome.frame) ∈ results fx inputs m := by
  induction inputs generalizing m with
  | nil => simp [results]
  | cons source inputs ih =>
    rw [List.foldl_cons, ih, add_active, results, or_assoc]
    refine or_congr_right ⟨?_, ?_⟩
    · rintro (hframe | ⟨j, hj⟩)
      · exact ⟨source, by rw [hframe]; exact List.mem_cons_self⟩
      · exact ⟨j, List.mem_cons_of_mem _ hj⟩
    · rintro ⟨j, hj⟩
      rcases List.mem_cons.mp hj with hj | hj
      · exact .inl (Prod.ext_iff.mp hj).2.symm
      · exact .inr ⟨j, hj⟩

/-- A call of the mixer: what its inputs hold then, and the frame buffer. -/
structure Call where
  /-- The positions of the files. -/
  handles : ℕ → Option ℕ
  /-- The double buffers and their coroutines. -/
  buffers : ℕ → Buffering.State
  /-- The buffer of the caller. -/
  frameBuffer : List UInt8

/-- The inputs at a call. -/
def Call.arrive (c : Call) (files : FileNodes Shifter) : FileNodes Shifter := fun j =>
  { files j with handle := c.handles j, buffer := c.buffers j }

/-- A mixer and the file input nodes. -/
abbrev State (Shifter : Type) := MixerNode × FileNodes Shifter

/-- A call. -/
def call (fx : FloatOps Shifter) (s : State Shifter) (c : Call) : Processed (State Shifter) :=
  s.1.processFrame fx (c.arrive s.2) c.frameBuffer

/-- The results of the inputs in a call. -/
def callResults (fx : FloatOps Shifter) (s : State Shifter) (c : Call) : List (ℕ × Outcome) :=
  results fx s.1.inputs (s.1.startMix (c.arrive s.2))

/-- The state after some calls. -/
def play (fx : FloatOps Shifter) : State Shifter → List Call → State Shifter
  | s, [] => s
  | s, c :: calls => play fx (call fx s c).node calls

/-- The results of the inputs in them. -/
def log (fx : FloatOps Shifter) : State Shifter → List Call → List (ℕ × Outcome)
  | _, [] => []
  | s, c :: calls => callResults fx s c ++ log fx (call fx s c).node calls

/-- The mixer reports its end in a call, or is complete after it. -/
def Ends (fx : FloatOps Shifter) (s : State Shifter) (c : Call) : Prop :=
  (∃ error, (call fx s c).result = .error error ∧ error.code = .endOfStream) ∨
    (call fx s c).node.1.base.isComplete = true

/-- A pass: the last call ends the mixer, and no call before it. -/
def Pass (fx : FloatOps Shifter) : State Shifter → List Call → Call → Prop
  | s, [], last => Ends fx s last
  | s, c :: calls, last => ¬Ends fx s c ∧ Pass fx (call fx s c).node calls last

/-- The start of a pass, with an input of at least one frame. -/
structure Fresh (s : State Shifter) : Prop where
  /-- The mixer has counted nothing. -/
  mixer : s.1.base.processedFrames = 0
  /-- Its total is the longest of its inputs'. -/
  total : s.1.base.totalFrames = (s.1.setMaxFrames s.2).base.totalFrames
  /-- The inputs have counted nothing. -/
  inputs : ∀ j ∈ s.1.inputs, (s.2 j).base.processedFrames = 0
  /-- An input has a frame. -/
  nonempty : ∃ j ∈ s.1.inputs, 1 ≤ (s.2 j).base.totalFrames

/-- Every input has delivered all its frames. -/
def Delivered (s : State Shifter) : Prop :=
  ∀ j ∈ s.1.inputs, (s.2 j).base.totalFrames ≤ (s.2 j).base.processedFrames

/-- What the loop of a call leaves. -/
theorem processFrame_loop (fx : FloatOps Shifter) (m : MixerNode) (files : FileNodes Shifter)
    (frameBuffer : List UInt8) :
    let r := m.inputs.foldl (Mixing.add fx) (m.startMix files)
    let p := m.processFrame fx files frameBuffer
    p.node.2 = r.files ∧ (r.hasActiveInputs = true → p.result = .ok ()) ∧
      (r.hasActiveInputs = false →
        ∃ error, p.result = .error error ∧ error.code = .endOfStream) := by
  intro r p
  have hmix := mixInputs_eq fx m.inputs (m.startMix files)
  have hp : p = m.processFrame fx files frameBuffer := rfl
  unfold MixerNode.processFrame at hp
  dsimp only at hp
  rw [← MixerNode.startMix, hmix] at hp
  dsimp only at hp
  split at hp
  · rename_i hnone
    rw [hp]
    exact ⟨rfl, fun h => absurd (hnone.symm.trans h) Bool.false_ne_true, fun _ => ⟨_, rfl, rfl⟩⟩
  · rename_i hsome
    rw [hp]
    exact ⟨rfl, fun _ => rfl, fun h => absurd h hsome⟩

/-- What a call does. -/
structure CallSpec (fx : FloatOps Shifter) (s : State Shifter) (c : Call)
    (p : Processed (State Shifter)) : Prop where
  /-- The inputs stay. -/
  inputs : p.node.1.inputs = s.1.inputs
  /-- The mixer's total stays. -/
  total : p.node.1.base.totalFrames = s.1.base.totalFrames
  /-- The inputs' totals stay. -/
  totals : ∀ j, (p.node.2 j).base.totalFrames = (s.2 j).base.totalFrames
  /-- Every input delivers what it was called for. -/
  delivers : ∀ j, Delivers (s.2 j).base.totalFrames (s.2 j).base.processedFrames
    (resultsOf j (callResults fx s c)) (p.node.2 j).base.processedFrames
  /-- A call with a frame counts one. -/
  counted : (∃ j, (j, Outcome.frame) ∈ callResults fx s c) → p.result = .ok () ∧
    p.node.1.base.processedFrames = s.1.base.processedFrames + 1
  /-- A call without one is the end of the stream. -/
  silent : (¬∃ j, (j, Outcome.frame) ∈ callResults fx s c) →
    ∃ error, p.result = .error error ∧ error.code = .endOfStream

/-- A call does what the specification says. -/
theorem call_spec (fx : FloatOps Shifter) (s : State Shifter) (c : Call) :
    CallSpec fx s c (call fx s c) := by
  obtain ⟨m, files⟩ := s
  obtain ⟨hinputs, hbase⟩ := m.processFrame_base fx (c.arrive files) c.frameBuffer
  obtain ⟨hnode, hok, hend⟩ := processFrame_loop fx m (c.arrive files) c.frameBuffer
  have hactive : (m.inputs.foldl (Mixing.add fx) (m.startMix (c.arrive files))).hasActiveInputs =
      true ↔ ∃ j, (j, Outcome.frame) ∈ callResults fx (m, files) c :=
    (loop_active fx m.inputs (m.startMix (c.arrive files))).trans (or_iff_right (by nofun))
  refine ⟨hinputs, ?_, fun j => ?_, fun j => ?_, fun hframe => ?_, fun hnone => ?_⟩
  · change (m.processFrame fx (c.arrive files) c.frameBuffer).node.1.base.totalFrames =
      m.base.totalFrames
    rcases hbase with ⟨-, hbase⟩ | ⟨-, hbase⟩ <;> rw [hbase]
  · exact (m.processFrame_files fx (c.arrive files) c.frameBuffer j).1.totalFrames
  · have hloop := loop_delivers fx m.inputs (m.startMix (c.arrive files)) j
    rw [← hnode] at hloop
    exact hloop
  · have hresult := hok (hactive.mpr hframe)
    rcases hbase with ⟨-, hbase⟩ | ⟨⟨error, herror⟩, -⟩
    · exact ⟨hresult, congrArg NodeBase.processedFrames hbase⟩
    · cases hresult.symm.trans herror
  · exact hend (Bool.eq_false_iff.mpr fun h => hnone (hactive.mp h))

/-- What some calls do. -/
structure PlaySpec (fx : FloatOps Shifter) (s : State Shifter) (calls : List Call)
    (t : State Shifter) : Prop where
  /-- The inputs stay. -/
  inputs : t.1.inputs = s.1.inputs
  /-- The mixer's total stays. -/
  total : t.1.base.totalFrames = s.1.base.totalFrames
  /-- The inputs' totals stay. -/
  totals : ∀ j, (t.2 j).base.totalFrames = (s.2 j).base.totalFrames
  /-- Every input delivers what it was called for. -/
  delivers : ∀ j, Delivers (s.2 j).base.totalFrames (s.2 j).base.processedFrames
    (resultsOf j (log fx s calls)) (t.2 j).base.processedFrames
  /-- Every input is called as often as it is listed. -/
  length : ∀ j, (resultsOf j (log fx s calls)).length = calls.length * s.1.inputs.count j

/-- Some calls do what the specification says. -/
theorem play_spec (fx : FloatOps Shifter) (s : State Shifter) (calls : List Call) :
    PlaySpec fx s calls (play fx s calls) := by
  induction calls generalizing s with
  | nil => exact ⟨rfl, rfl, fun _ => rfl, fun _ => .nil, fun j => (Nat.zero_mul _).symm⟩
  | cons c calls ih =>
    have hcall := call_spec fx s c
    have hrest := ih (call fx s c).node
    refine ⟨hrest.inputs.trans hcall.inputs, hrest.total.trans hcall.total,
      fun j => (hrest.totals j).trans (hcall.totals j), fun j => ?_, fun j => ?_⟩
    · have hdelivers := hrest.delivers j
      rw [hcall.totals] at hdelivers
      rw [log, resultsOf_append]
      exact (hcall.delivers j).append hdelivers
    · have hlength := length_resultsOf fx s.1.inputs (s.1.startMix (c.arrive s.2)) j
      rw [log, resultsOf_append, List.length_append, hrest.length, hcall.inputs, callResults,
        hlength, List.length_cons, Nat.add_mul, Nat.one_mul, Nat.add_comm]

/-- The calls of a pass before its last are counted and do not complete the mixer. -/
theorem Pass.counted {fx : FloatOps Shifter} {s : State Shifter} {calls : List Call} {last : Call}
    (h : Pass fx s calls last) (hincomplete : s.1.base.isComplete = false) :
    Ends fx (play fx s calls) last ∧ (play fx s calls).1.base.isComplete = false ∧
      (play fx s calls).1.base.processedFrames = s.1.base.processedFrames + calls.length := by
  induction calls generalizing s with
  | nil => exact ⟨h, hincomplete, (Int.add_zero _).symm⟩
  | cons c calls ih =>
    obtain ⟨hgoes, hrest⟩ := h
    have hcall := call_spec fx s c
    obtain ⟨hsilent, hcomplete⟩ := not_or.mp hgoes
    have hframe : ∃ j, (j, Outcome.frame) ∈ callResults fx s c := by
      by_contra hnone
      exact hsilent (hcall.silent hnone)
    obtain ⟨hends, hincomplete', hcount⟩ := ih hrest (Bool.eq_false_iff.mpr hcomplete)
    refine ⟨hends, hincomplete', ?_⟩
    rw [play, hcount, (hcall.counted hframe).2, List.length_cons]
    push_cast
    omega

/-- The results leave the inputs enough calls: where the pass ends by the count of
the mixer, each input has no more underruns than its entries have results beyond
its total; where it ends by a call without a frame, no input with frames to give
underruns in that call. -/
structure InTime (s : State Shifter) (log last : List (ℕ × Outcome)) : Prop where
  /-- If the last call has a frame, the underruns leave each input calls for its total. -/
  counted : (∃ j, (j, Outcome.frame) ∈ last) → ∀ j ∈ s.1.inputs,
    (resultsOf j (log ++ last)).count .underrun + (s.2 j).base.totalFrames ≤
      s.1.inputs.count j * s.1.base.totalFrames
  /-- If it has none, only inputs without frames underrun in it. -/
  silent : (¬∃ j, (j, Outcome.frame) ∈ last) → ∀ j, (j, Outcome.underrun) ∈ last →
    (s.2 j).base.totalFrames ≤ 0

/-- The last of some calls is a call. -/
theorem play_append (fx : FloatOps Shifter) (s : State Shifter) (calls : List Call) (last : Call) :
    play fx s (calls ++ [last]) = (call fx (play fx s calls) last).node := by
  induction calls generalizing s with
  | nil => rfl
  | cons c calls ih => exact ih _

section Pass

variable {fx : FloatOps Shifter} {s : State Shifter} {calls : List Call} {last : Call}

/-- The account of an input over a whole pass. -/
theorem delivers_pass (hfresh : Fresh s) {j : ℕ} (hj : j ∈ s.1.inputs) :
    Delivers (s.2 j).base.totalFrames 0
      (resultsOf j (log fx s calls ++ callResults fx (play fx s calls) last))
      ((call fx (play fx s calls) last).node.2 j).base.processedFrames := by
  have hplay := play_spec fx s calls
  have hfirst := hplay.delivers j
  have hlast := (call_spec fx (play fx s calls) last).delivers j
  rw [hfresh.inputs j hj] at hfirst
  rw [hplay.totals] at hlast
  rw [resultsOf_append]
  exact hfirst.append hlast

/-- In the last call an input has a result for each of its entries. -/
theorem length_resultsOf_last (j : ℕ) :
    (resultsOf j (callResults fx (play fx s calls) last)).length = s.1.inputs.count j := by
  rw [callResults, length_resultsOf, (play_spec fx s calls).inputs]

/-- All is delivered exactly when the last call has brought every input to its end. -/
theorem delivered_append : Delivered (play fx s (calls ++ [last])) ↔ ∀ j ∈ s.1.inputs,
    (s.2 j).base.totalFrames ≤
      ((call fx (play fx s calls) last).node.2 j).base.processedFrames := by
  have hplay := play_spec fx s calls
  have hcall := call_spec fx (play fx s calls) last
  rw [play_append, Delivered, hcall.inputs, hplay.inputs]
  simp only [hcall.totals, hplay.totals]

/-- A pass whose last call gives a frame ends by the count of the mixer. -/
theorem Pass.totalFrames_eq (hfresh : Fresh s) (hpass : Pass fx s calls last)
    (hframe : ∃ j, (j, Outcome.frame) ∈ callResults fx (play fx s calls) last) :
    s.1.base.totalFrames = calls.length + 1 := by
  have hincomplete : s.1.base.isComplete = false := by
    rw [NodeBase.isComplete, hfresh.mixer]
    simp
  obtain ⟨hends, hbefore, hcount⟩ := hpass.counted hincomplete
  have hplay := play_spec fx s calls
  have hcall := call_spec fx (play fx s calls) last
  obtain ⟨hok, hcounted⟩ := hcall.counted hframe
  have hcomplete : (call fx (play fx s calls) last).node.1.base.isComplete = true := by
    rcases hends with ⟨error, herror, -⟩ | hcomplete
    · cases hok.symm.trans herror
    · exact hcomplete
  rw [NodeBase.isComplete, hplay.total, hcount, hfresh.mixer] at hbefore
  rw [NodeBase.isComplete, hcall.total, hplay.total, hcounted, hcount, hfresh.mixer] at hcomplete
  simp only [Bool.and_eq_true, decide_eq_true_eq, Bool.and_eq_false_iff, decide_eq_false_iff_not]
    at hbefore hcomplete
  omega

/-- There an input has delivered its frames if its underruns leave it enough results. -/
theorem delivered_iff_counted (hfresh : Fresh s) (hpass : Pass fx s calls last)
    (hframe : ∃ j, (j, Outcome.frame) ∈ callResults fx (play fx s calls) last) {j : ℕ}
    (hj : j ∈ s.1.inputs) :
    (s.2 j).base.totalFrames ≤
        ((call fx (play fx s calls) last).node.2 j).base.processedFrames ↔
      (resultsOf j (log fx s calls ++ callResults fx (play fx s calls) last)).count .underrun +
        (s.2 j).base.totalFrames ≤ s.1.inputs.count j * s.1.base.totalFrames := by
  have hroom : ((resultsOf j
      (log fx s calls ++ callResults fx (play fx s calls) last)).length : ℤ) =
        s.1.inputs.count j * s.1.base.totalFrames := by
    rw [resultsOf_append, List.length_append, (play_spec fx s calls).length,
      length_resultsOf_last, hpass.totalFrames_eq hfresh hframe]
    push_cast
    ring
  rw [← hroom]
  exact (delivers_pass hfresh hj).done_iff

/-- After a last call without a frame an input that underran in it has frames
left if it had any to give, and every other input has reported its end. -/
theorem delivered_iff_silent (hfresh : Fresh s)
    (hframe : ¬∃ j, (j, Outcome.frame) ∈ callResults fx (play fx s calls) last) {j : ℕ}
    (hj : j ∈ s.1.inputs) :
    (s.2 j).base.totalFrames ≤
        ((call fx (play fx s calls) last).node.2 j).base.processedFrames ↔
      ((j, Outcome.underrun) ∈ callResults fx (play fx s calls) last →
        (s.2 j).base.totalFrames ≤ 0) := by
  have hnone : Outcome.frame ∉ resultsOf j (callResults fx (play fx s calls) last) :=
    fun h => hframe ⟨j, mem_resultsOf.mp h⟩
  have hlast := (call_spec fx (play fx s calls) last).delivers j
  rw [(play_spec fx s calls).totals] at hlast
  constructor
  · intro hdone hunderrun
    have hleft := hlast.not_done (mem_resultsOf.mpr hunderrun) hnone
    exact not_lt.mp fun hpos => hleft ⟨hdone, hpos⟩
  · intro hsilent
    have hpos : 0 < (resultsOf j (callResults fx (play fx s calls) last)).length := by
      rw [length_resultsOf_last]
      exact List.count_pos_iff.mpr hj
    obtain ⟨outcome, houtcome⟩ := List.exists_mem_of_length_pos hpos
    cases outcome with
    | frame => exact absurd houtcome hnone
    | underrun =>
      have hzero := hsilent (mem_resultsOf.mp houtcome)
      have hnonneg := (@delivers_pass _ fx s calls last hfresh j hj).count_eq
      omega
    | endOfStream => exact hlast.done houtcome

end Pass

/-- A pass ends when every input has delivered its frames exactly if the results
leave them enough calls. -/
theorem delivered_iff_inTime {fx : FloatOps Shifter} {s : State Shifter} {calls : List Call}
    {last : Call} (hfresh : Fresh s) (hpass : Pass fx s calls last) :
    Delivered (play fx s (calls ++ [last])) ↔
      InTime s (log fx s calls) (callResults fx (play fx s calls) last) := by
  rw [delivered_append]
  by_cases hframe : ∃ j, (j, Outcome.frame) ∈ callResults fx (play fx s calls) last
  · constructor
    · intro hall
      exact ⟨fun _ j hj => (delivered_iff_counted hfresh hpass hframe hj).mp (hall j hj),
        fun hnone => absurd hframe hnone⟩
    · intro htime j hj
      exact (delivered_iff_counted hfresh hpass hframe hj).mpr (htime.counted hframe j hj)
  · constructor
    · intro hall
      refine ⟨fun h => absurd h hframe, fun _ j hunderrun => ?_⟩
      have hj : j ∈ s.1.inputs := by
        rw [← List.count_pos_iff, ← @length_resultsOf_last _ fx s calls last]
        exact List.length_pos_of_mem (mem_resultsOf.mpr hunderrun)
      exact (delivered_iff_silent hfresh hframe hj).mp (hall j hj) hunderrun
    · intro htime j hj
      exact (delivered_iff_silent hfresh hframe hj).mpr (htime.silent hframe j)

/-- A mixer of one file of one frame, before its first call. -/
def oneFrame : State Unit :=
  (⟨⟨"m", none, 0, 1, 0, false⟩, [0], List.replicate FRAME_SIZE_BYTES 0⟩, fun _ =>
    ⟨⟨"f", none, 0, 1, 0, false⟩, "", "", none, none, none, (), ⟨.create, [], []⟩⟩)

/-- A mixer of one frame starts fresh. -/
theorem fresh_oneFrame : Fresh oneFrame where
  mixer := rfl
  total := by decide
  inputs := fun _ _ => rfl
  nonempty := ⟨0, List.mem_singleton.mpr rfl, le_rfl⟩

/-- A call after so many frames of a block, while the other block is not ready. -/
def callAfter (frames : ℕ) : Call where
  handles := fun _ => none
  buffers := fun _ => ⟨⟨.create, frames, .ready⟩, [], []⟩
  frameBuffer := List.replicate FRAME_SIZE_BYTES 0

/-- The result of its only input. -/
theorem callResults_oneFrame (frames : ℕ) :
    callResults MixerNode.plainOps oneFrame (callAfter frames) =
      [(0, outcomeOf ((AsyncBufferController.mk .create frames .ready).getFrame
        (List.replicate FRAME_SIZE_BYTES 0) 0).result)] := by
  have hmore : ¬((0 : ℤ) ≥ 1 ∧ (1 : ℤ) > 0) := by decide
  have hresult := @processFrame_result _ MixerNode.plainOps.toEffects
    ((callAfter frames).arrive oneFrame.2 0) hmore (List.replicate FRAME_SIZE_BYTES 0)
  exact congrArg (fun result => [(0, outcomeOf result)]) hresult

/-- The file gives its frame at the start of a block. -/
theorem callResults_start :
    callResults MixerNode.plainOps oneFrame (callAfter 0) = [(0, .frame)] := by
  have hfits : ¬(AsyncBufferController.mk .create 0 .ready).needsSwap 0 := by
    rw [AsyncBufferController.needsSwap_iff]
    decide
  rw [callResults_oneFrame, AsyncBufferController.getFrame_of_fits hfits, outcomeOf]

/-- It has none at the end of a block. -/
theorem callResults_end :
    callResults MixerNode.plainOps oneFrame (callAfter 1024) = [(0, .underrun)] := by
  have hswap : (AsyncBufferController.mk .create 1024 .ready).needsSwap 0 := by
    rw [AsyncBufferController.needsSwap_iff]
    decide
  rw [callResults_oneFrame, AsyncBufferController.getFrame, if_pos hswap]
  rfl

/-- A pass of one call that gives the frame. -/
theorem delivered_iff_inTime_oneFrame :
    Delivered (play MixerNode.plainOps oneFrame ([] ++ [callAfter 0])) := by
  have hcall := call_spec MixerNode.plainOps oneFrame (callAfter 0)
  have hframe : ∃ j, (j, Outcome.frame) ∈ callResults MixerNode.plainOps oneFrame (callAfter 0) :=
    ⟨0, by rw [callResults_start]; exact List.mem_singleton.mpr rfl⟩
  have hends : Ends MixerNode.plainOps oneFrame (callAfter 0) := by
    right
    rw [NodeBase.isComplete, hcall.total, (hcall.counted hframe).2]
    decide
  refine (@delivered_iff_inTime _ MixerNode.plainOps oneFrame [] (callAfter 0) fresh_oneFrame
    hends).mpr ⟨fun _ j hj => ?_, fun h => absurd hframe h⟩
  obtain rfl := List.mem_singleton.mp hj
  rw [play, log, callResults_start]
  decide

/-- A mixer whose one input underruns reports its end before the frame of the input. -/
theorem ends_before_input : ¬∀ (fx : FloatOps Unit) (s : State Unit) (calls : List Call)
    (last : Call), Fresh s → Pass fx s calls last → Delivered (play fx s (calls ++ [last])) := by
  intro h
  have hcall := call_spec MixerNode.plainOps oneFrame (callAfter 1024)
  have hnone : ¬∃ j, (j, Outcome.frame) ∈
      callResults MixerNode.plainOps oneFrame (callAfter 1024) := by
    rintro ⟨j, hj⟩
    rw [callResults_end] at hj
    simp at hj
  have hdelivered := h MixerNode.plainOps oneFrame [] (callAfter 1024) fresh_oneFrame
    (.inl (hcall.silent hnone)) 0
    (by rw [play_append, play, hcall.inputs]; exact List.mem_singleton.mpr rfl)
  have hcount : ((call MixerNode.plainOps oneFrame (callAfter 1024)).node.2 0).base.processedFrames =
      0 + List.count Outcome.frame (resultsOf 0 [(0, .underrun)]) := by
    rw [← callResults_end]
    exact (hcall.delivers 0).count_eq
  rw [play_append, play, hcall.totals, hcount] at hdelivered
  exact absurd hdelivered (by decide)

end HermesFlow.Audio.MixerEnd
