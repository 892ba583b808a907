import HermesFlow.MixerNode
import Mathlib.Algebra.BigOperators.Group.List.Basic

/-!
# The sum of a mixer

A call adds the frames of its inputs, each in the one temporary buffer of the
mixer, and clips the sums. Every input overwrites that buffer as a whole, so the
frame of an input depends on the input alone. A step of the loop is a function
of the loop's state, and the loop is a fold.
-/

namespace HermesFlow.Audio

open ByteOrder

variable {Shifter : Type}

/-- The effects work on a frame in place. -/
def Effects.InPlace (fx : Effects Shifter) : Prop :=
  ∀ options shifter frame, (fx.apply options shifter frame).1.length = frame.length

/-- Every byte of the output buffer of `get_frame` is overwritten. -/
theorem AsyncBufferController.getFrame_congr (c : AsyncBufferController) {a b : List UInt8}
    (ha : a.length = FRAME_SIZE_BYTES) (hb : b.length = FRAME_SIZE_BYTES) (offset : ℕ) :
    c.getFrame a offset = c.getFrame b offset := by
  have hcopy : ∀ block position, copyFrame block position a = copyFrame block position b := by
    intro block position
    rw [copyFrame, copyFrame, List.drop_of_length_le ha.le, List.drop_of_length_le hb.le]
  unfold getFrame
  rw [ha, hb, hcopy, hcopy]

namespace FileInputNode

/-- So is every byte of the frame buffer of `process_frame`. -/
theorem processFrame_congr (fx : Effects Shifter) (n : FileInputNode Shifter) {a b : List UInt8}
    (ha : a.length = FRAME_SIZE_BYTES) (hb : b.length = FRAME_SIZE_BYTES) :
    n.processFrame fx a = n.processFrame fx b := by
  have hframe := n.buffer.controller.getFrame_congr ha hb 0
  unfold processFrame Buffering.getFrame
  rw [ha, hb, hframe]

/-- The frame buffer keeps its size. -/
theorem length_processFrame_of_inPlace {fx : Effects Shifter} (hfx : fx.InPlace)
    (n : FileInputNode Shifter) {frameBuffer : List UInt8}
    (hlen : frameBuffer.length = FRAME_SIZE_BYTES) :
    (n.processFrame fx frameBuffer).frameBuffer.length = FRAME_SIZE_BYTES :=
  length_processFrame_of_effects (fun options _ frame => hfx options n.pitchShifter frame) hlen

/-- The samples of the frame that a node gives when it is called, if it gives one. -/
def frameOf (fx : Effects Shifter) (n : FileInputNode Shifter) : Option (List ℤ) :=
  let p := n.processFrame fx (List.replicate FRAME_SIZE_BYTES 0)
  match p.result with
  | .ok () => some (asSamples p.frameBuffer)
  | .error _ => none

/-- The node after the call. -/
def called (fx : Effects Shifter) (n : FileInputNode Shifter) : FileInputNode Shifter :=
  (n.processFrame fx (List.replicate FRAME_SIZE_BYTES 0)).node

end FileInputNode

/-- A frame that is in the read block, without effects. -/
theorem FileInputNode.frameOf_of_fits (fx : Effects Shifter) {n : FileInputNode Shifter}
    (hmore : ¬(n.base.processedFrames ≥ n.base.totalFrames ∧ n.base.totalFrames > 0))
    (hoptions : n.options = none) (hfits : ¬n.buffer.controller.needsSwap 0) :
    n.frameOf fx = some (asSamples (copyFrame n.buffer.controller.bf.getReadSpan
      (n.buffer.controller.bufferOffset 0) (List.replicate FRAME_SIZE_BYTES 0))) := by
  have hframe := AsyncBufferController.getFrame_of_fits hfits (List.replicate FRAME_SIZE_BYTES 0)
  unfold frameOf processFrame
  rw [if_neg hmore, hframe, hoptions]

/-- A sum has at each place the accumulator's and the input's sample. -/
theorem getElem?_sumBuffers (accumulator input : List ℤ) (i : ℕ) :
    (AudioMath.sumBuffers accumulator input)[i]? =
      accumulator[i]?.map (· + input.getD i 0) := by
  induction accumulator generalizing input i with
  | nil => simp [AudioMath.sumBuffers]
  | cons sum accumulator ih =>
    cases input with
    | nil => simp [AudioMath.sumBuffers]
    | cons sample input =>
      have hcons : AudioMath.sumBuffers (sum :: accumulator) (sample :: input) =
          (sum + sample) :: AudioMath.sumBuffers accumulator input := rfl
      rw [hcons]
      cases i with
      | zero => rfl
      | succ i => simpa using ih input i

/-- One input of the loop; none is critical. -/
def Mixing.add (fx : FloatOps Shifter) (m : Mixing Shifter) (source : ℕ) : Mixing Shifter :=
  let p := (m.files source).processFrame fx.toEffects m.tempInputBuffer
  let m := { m with
    files := Function.update m.files source p.node
    tempInputBuffer := p.frameBuffer }
  match p.result with
  | .error _ => m
  | .ok () => { m with
      hasActiveInputs := true
      accumulator := AudioMath.sumBuffers m.accumulator (asSamples m.tempInputBuffer) }

/-- The loop is a fold. -/
theorem mixInputs_eq (fx : FloatOps Shifter) (inputs : List ℕ) (m : Mixing Shifter) :
    mixInputs fx inputs m = (inputs.foldl (Mixing.add fx) m, .ok ()) := by
  induction inputs generalizing m with
  | nil => rfl
  | cons source inputs ih =>
    rw [mixInputs, List.foldl_cons, ← ih, Mixing.add]
    dsimp only
    cases hresult : ((m.files source).processFrame fx.toEffects m.tempInputBuffer).result with
    | ok _ => rfl
    | error error =>
      have hcode : error.code ≠ .critical := by
        rcases FileInputNode.processFrame_error hresult with h | h <;> simp [h]
      exact if_neg hcode

/-- The sample at a position of a frame, or nothing when there is none. -/
def sampleAt (frame : Option (List ℤ)) (i : ℕ) : ℤ := (frame.getD []).getD i 0

/-- What one input does to the loop's state. -/
structure AddSpec (fx : FloatOps Shifter) (m m' : Mixing Shifter) (source : ℕ) : Prop where
  /-- Only this file has been called. -/
  files : m'.files = Function.update m.files source ((m.files source).called fx.toEffects)
  /-- The buffer keeps its size. -/
  temp : m'.tempInputBuffer.length = FRAME_SIZE_BYTES
  /-- The input's frame has been added. -/
  sum : ∀ i, m'.accumulator[i]? =
    m.accumulator[i]?.map (· + sampleAt ((m.files source).frameOf fx.toEffects) i)
  /-- The loop is active once the input gave a frame. -/
  active : m'.hasActiveInputs =
    (m.hasActiveInputs || ((m.files source).frameOf fx.toEffects).isSome)

/-- One input does what the specification says. -/
theorem Mixing.add_spec {fx : FloatOps Shifter} (hfx : fx.toEffects.InPlace) {m : Mixing Shifter}
    (htemp : m.tempInputBuffer.length = FRAME_SIZE_BYTES) (source : ℕ) :
    AddSpec fx m (m.add fx source) source := by
  have hcall := (m.files source).processFrame_congr fx.toEffects htemp
    (List.length_replicate (n := FRAME_SIZE_BYTES) (a := 0))
  have hlen := (m.files source).length_processFrame_of_inPlace hfx htemp
  have hframe : (m.files source).frameOf fx.toEffects =
      match ((m.files source).processFrame fx.toEffects m.tempInputBuffer).result with
      | .ok () => some (asSamples
          ((m.files source).processFrame fx.toEffects m.tempInputBuffer).frameBuffer)
      | .error _ => none := by
    rw [hcall]
    rfl
  have hcalled : (m.files source).called fx.toEffects =
      ((m.files source).processFrame fx.toEffects m.tempInputBuffer).node := by
    rw [hcall]
    rfl
  unfold add
  dsimp only
  split
  · rename_i error herror
    rw [herror] at hframe
    refine ⟨by rw [hcalled], hlen, fun i => ?_, by simp [hframe]⟩
    rw [hframe]
    simp [sampleAt]
  · rename_i hok
    rw [hok] at hframe
    refine ⟨by rw [hcalled], hlen, fun i => ?_, by simp [hframe]⟩
    rw [hframe]
    exact getElem?_sumBuffers _ _ i

/-- What distinct inputs do to it. -/
structure LoopSpec (fx : FloatOps Shifter) (m m' : Mixing Shifter) (inputs : List ℕ) : Prop where
  /-- Exactly these files have been called. -/
  files : ∀ j, m'.files j =
    if j ∈ inputs then (m.files j).called fx.toEffects else m.files j
  /-- The buffer keeps its size. -/
  temp : m'.tempInputBuffer.length = FRAME_SIZE_BYTES
  /-- The frames of the inputs have been added. -/
  sum : ∀ i, m'.accumulator[i]? = m.accumulator[i]?.map
    (· + (inputs.map fun source => sampleAt ((m.files source).frameOf fx.toEffects) i).sum)
  /-- The loop is active exactly when an input gave a frame. -/
  active : m'.hasActiveInputs = (m.hasActiveInputs ||
    inputs.any fun source => ((m.files source).frameOf fx.toEffects).isSome)

/-- Distinct inputs do what the specification says. -/
theorem loop_spec {fx : FloatOps Shifter} (hfx : fx.toEffects.InPlace) {inputs : List ℕ}
    (hnodup : inputs.Nodup) {m : Mixing Shifter}
    (htemp : m.tempInputBuffer.length = FRAME_SIZE_BYTES) :
    LoopSpec fx m (inputs.foldl (Mixing.add fx) m) inputs := by
  induction inputs generalizing m with
  | nil => exact ⟨fun _ => rfl, htemp, fun i => by simp, by simp⟩
  | cons source inputs ih =>
    obtain ⟨hsource, hnodup⟩ := List.nodup_cons.mp hnodup
    have hadd := Mixing.add_spec hfx htemp source
    have hrest := ih hnodup hadd.temp
    -- the inputs that follow are as they were
    have hsame : ∀ j ∈ inputs, (m.add fx source).files j = m.files j := by
      intro j hj
      rw [hadd.files, Function.update_of_ne (ne_of_mem_of_not_mem hj hsource)]
    refine ⟨fun j => ?_, hrest.temp, fun i => ?_, ?_⟩
    · rw [List.foldl_cons, hrest.files, hadd.files]
      rcases eq_or_ne j source with rfl | hj
      · rw [if_neg hsource, Function.update_self, if_pos List.mem_cons_self]
      · rw [Function.update_of_ne hj]
        simp only [List.mem_cons, hj, false_or]
    · have hsum : (inputs.map fun j =>
            sampleAt (((m.add fx source).files j).frameOf fx.toEffects) i) =
          inputs.map fun j => sampleAt ((m.files j).frameOf fx.toEffects) i :=
        List.map_congr_left fun j hj => by rw [hsame j hj]
      rw [List.foldl_cons, hrest.sum, hadd.sum, hsum, Option.map_map, List.map_cons, List.sum_cons]
      congr 1
      funext sum
      simp only [Function.comp_apply, add_assoc]
    · have hany : (inputs.any fun j => (((m.add fx source).files j).frameOf fx.toEffects).isSome) =
          inputs.any fun j => ((m.files j).frameOf fx.toEffects).isSome := by
        rw [Bool.eq_iff_iff, List.any_eq_true, List.any_eq_true]
        exact exists_congr fun j => and_congr_right fun hj => by rw [hsame j hj]
      rw [List.foldl_cons, hrest.active, hadd.active, hany, List.any_cons, Bool.or_assoc]

/-- A sample read from bytes fits 16 bits. -/
theorem mem_asSamples {bytes : List UInt8} {x : ℤ} (hx : x ∈ asSamples bytes) :
    -2 ^ 15 ≤ x ∧ x < 2 ^ 15 := by
  induction bytes using asSamples.induct with
  | case1 low high bytes ih =>
    rw [asSamples, List.mem_cons] at hx
    rcases hx with hx | hx
    · have hlow := @Int.le_bmod (loadLE [low, high]) (2 ^ 16) (by omega)
      have hhigh := @Int.bmod_lt (loadLE [low, high]) (2 ^ 16) (by omega)
      omega
    · exact ih hx
  | case2 bytes hshort =>
    rw [asSamples] at hx
    · cases hx
    · exact hshort

/-- `int32_t`. -/
def FitsInt32 (x : ℤ) : Prop := -2 ^ 31 ≤ x ∧ x < 2 ^ 31

/-- An input adds a sample to each sum, or nothing. -/
theorem Mixing.add_accumulator (fx : FloatOps Shifter) (m : Mixing Shifter) (source i : ℕ) :
    ∃ sample : ℤ, -2 ^ 15 ≤ sample ∧ sample < 2 ^ 15 ∧
      (m.add fx source).accumulator[i]? = m.accumulator[i]?.map (· + sample) := by
  unfold add
  dsimp only
  split
  · exact ⟨0, by omega, by omega, by simp⟩
  · have hsample : ∀ frame : List ℤ, (∀ x ∈ frame, -2 ^ 15 ≤ x ∧ x < 2 ^ 15) →
        -2 ^ 15 ≤ frame.getD i 0 ∧ frame.getD i 0 < 2 ^ 15 := by
      intro frame hframe
      rw [List.getD_eq_getElem?_getD]
      cases hx : frame[i]? with
      | none => exact ⟨by simp, by simp⟩
      | some x => exact hframe x (List.mem_of_getElem? hx)
    obtain ⟨hlow, hhigh⟩ := hsample _ fun x hx => mem_asSamples hx
    exact ⟨_, hlow, hhigh, getElem?_sumBuffers _ _ i⟩

/-- The sums after some inputs are bounded by their number. -/
theorem loop_bounds (fx : FloatOps Shifter) (inputs : List ℕ) {m : Mixing Shifter} {i : ℕ}
    {sum sum' : ℤ} (hsum : m.accumulator[i]? = some sum)
    (hsum' : (inputs.foldl (Mixing.add fx) m).accumulator[i]? = some sum') :
    sum - 2 ^ 15 * inputs.length ≤ sum' ∧ sum' ≤ sum + (2 ^ 15 - 1) * inputs.length := by
  induction inputs generalizing m sum with
  | nil =>
    have heq : sum = sum' := Option.some.inj (hsum.symm.trans hsum')
    simp [heq]
  | cons source inputs ih =>
    obtain ⟨sample, hlow, hhigh, hadd⟩ := m.add_accumulator fx source i
    rw [hsum, Option.map_some] at hadd
    have hrest := ih hadd hsum'
    rw [List.length_cons]
    push_cast
    omega

/-- The `int16_t` that `soft_clip` returns. -/
def AudioMath.clippedSample (compress : ℤ → ℤ) (sample : ℤ) : ℤ :=
  Int.bmod (AudioMath.softClip compress sample) (2 ^ 16)

/-- Samples that are stored are read back. -/
theorem asSamples_store (f : ℤ → ℤ) (samples : List ℤ) (rest : List UInt8) :
    asSamples (samples.flatMap (fun sample => storeLE 2 (f sample % 2 ^ 16).toNat) ++ rest) =
      samples.map (fun sample => Int.bmod (f sample) (2 ^ 16)) ++ asSamples rest := by
  induction samples with
  | nil => rfl
  | cons sample samples ih =>
    have hload := loadLE_storeLE 2 (f sample % 2 ^ 16).toNat
    have hvalue : ((((f sample % 2 ^ 16).toNat % 256 ^ 2 : ℕ) : ℤ)) = f sample % 2 ^ 16 := by omega
    have hbmod : Int.bmod (f sample % 2 ^ 16) (2 ^ 16) = Int.bmod (f sample) (2 ^ 16) := by
      exact_mod_cast Int.emod_bmod (x := f sample) (n := 2 ^ 16)
    rw [List.flatMap_cons, List.map_cons, List.cons_append, ← ih]
    simp only [storeLE, List.cons_append, List.nil_append, asSamples] at hload ⊢
    rw [hload, hvalue, hbmod]

/-- The samples of the frame that a mixer returns. -/
theorem asSamples_compressAndExport (compress : ℤ → ℤ) (accumulator : List ℤ)
    (outputBytes : List UInt8) :
    asSamples (AudioMath.compressAndExport compress accumulator outputBytes) =
      (accumulator.take (outputBytes.length / 2)).map (AudioMath.clippedSample compress) := by
  have hrest : asSamples (outputBytes.drop (outputBytes.length / 2 * 2)) = [] := by
    rw [← List.length_eq_zero_iff, length_asSamples, List.length_drop]
    omega
  unfold AudioMath.compressAndExport
  dsimp only
  rw [asSamples_store, hrest, List.append_nil]
  rfl

namespace MixerNode

/-- The loop's state at the start of a call. -/
def startMix (m : MixerNode) (files : FileNodes Shifter) : Mixing Shifter :=
  ⟨files, m.tempInputBuffer, List.replicate SAMPLES_PER_FRAME 0, false⟩

/-- `accumulator_` after the first `k` inputs of a call. -/
def accumulated (fx : FloatOps Shifter) (m : MixerNode) (files : FileNodes Shifter) (k : ℕ) :
    List ℤ := (mixInputs fx (m.inputs.take k) (m.startMix files)).1.accumulator

/-- No addition of a call leaves the range of the accumulator. -/
def SumsFit (fx : FloatOps Shifter) (m : MixerNode) (files : FileNodes Shifter) : Prop :=
  ∀ k, ∀ sum ∈ m.accumulated fx files k, FitsInt32 sum

/-- So many inputs cannot overflow it, whether they are distinct or not. -/
theorem sumsFit_of_length (fx : FloatOps Shifter) {m : MixerNode} (files : FileNodes Shifter)
    (hfew : m.inputs.length ≤ 2 ^ 16) : m.SumsFit fx files := by
  intro k sum hsum
  obtain ⟨i, hi⟩ := List.mem_iff_getElem?.mp hsum
  rw [accumulated, mixInputs_eq] at hi
  have hlen : (m.inputs.take k).length ≤ 2 ^ 16 := (List.length_take_le' _ _).trans hfew
  cases hstart : (m.startMix files).accumulator[i]? with
  | none =>
    -- the list of the sums keeps its length
    have hnone : ∀ inputs (r : Mixing Shifter), r.accumulator[i]? = none →
        (List.foldl (Mixing.add fx) r inputs).accumulator[i]? = none := by
      intro inputs
      induction inputs with
      | nil => exact fun _ hr => hr
      | cons source inputs ih =>
        intro r hr
        obtain ⟨sample, -, -, hadd⟩ := r.add_accumulator fx source i
        rw [hr, Option.map_none] at hadd
        exact ih _ hadd
    cases (hnone _ _ hstart).symm.trans hi
  | some zero =>
    have hzero : zero = 0 := List.eq_of_mem_replicate (List.mem_of_getElem? hstart)
    have hbounds := loop_bounds fx _ hstart hi
    unfold FitsInt32
    omega

/-- The inputs that give a frame when the mixer is called, with their frames. -/
def frames (fx : FloatOps Shifter) (m : MixerNode) (files : FileNodes Shifter) :
    List (List ℤ) := m.inputs.filterMap fun source => (files source).frameOf fx.toEffects

/-- The sum of each sample over these frames. -/
def sums (fx : FloatOps Shifter) (m : MixerNode) (files : FileNodes Shifter) : List ℤ :=
  (List.range SAMPLES_PER_FRAME).map fun i =>
    ((m.frames fx files).map fun frame => frame.getD i 0).sum

/-- The frames' sum is the sum over the inputs. -/
theorem sum_frames (fx : FloatOps Shifter) (m : MixerNode) (files : FileNodes Shifter) (i : ℕ) :
    ((m.frames fx files).map fun frame => frame.getD i 0).sum =
      (m.inputs.map fun source => sampleAt ((files source).frameOf fx.toEffects) i).sum := by
  unfold frames
  induction m.inputs with
  | nil => rfl
  | cons source inputs ih =>
    rw [List.map_cons, List.sum_cons, ← ih, List.filterMap_cons]
    cases hframe : (files source).frameOf fx.toEffects with
    | none => exact (zero_add _).symm
    | some frame => rw [List.map_cons, List.sum_cons, sampleAt, Option.getD_some]

/-- A call of a mixer that some of its inputs give a frame. -/
structure MixSpec (fx : FloatOps Shifter) (m : MixerNode) (files : FileNodes Shifter)
    (frameBuffer : List UInt8) (p : Processed (MixerNode × FileNodes Shifter)) : Prop where
  /-- The call succeeds. -/
  ok : p.result = .ok ()
  /-- It is counted. -/
  counted : p.node.1.base = { m.base with
    inBufferProcessedFrames := m.base.inBufferProcessedFrames + 1
    processedFrames := m.base.processedFrames + 1 }
  /-- The inputs have been called. -/
  called : p.node.2 = fun j =>
    if j ∈ m.inputs then (files j).called fx.toEffects else files j
  /-- The frame is the sums, clipped. -/
  clipped : p.frameBuffer =
    AudioMath.compressAndExport fx.compress (m.sums fx files) frameBuffer

/-- A mixer with a frame does what the specification says. -/
theorem processFrame_spec {fx : FloatOps Shifter} (hfx : fx.toEffects.InPlace) {m : MixerNode}
    {files : FileNodes Shifter} (frameBuffer : List UInt8) (hnodup : m.inputs.Nodup)
    (htemp : m.tempInputBuffer.length = FRAME_SIZE_BYTES) (hactive : m.frames fx files ≠ []) :
    MixSpec fx m files frameBuffer (m.processFrame fx files frameBuffer) := by
  have hloop := @loop_spec _ _ hfx _ hnodup (m.startMix files) htemp
  have hmix := mixInputs_eq fx m.inputs (m.startMix files)
  have hflag : (m.inputs.foldl (Mixing.add fx) (m.startMix files)).hasActiveInputs = true := by
    obtain ⟨frame, hframe⟩ := List.exists_mem_of_ne_nil _ hactive
    obtain ⟨source, hsource, hsome⟩ := List.mem_filterMap.mp hframe
    rw [hloop.active, Bool.or_eq_true, List.any_eq_true]
    exact .inr ⟨source, hsource, Option.isSome_iff_exists.mpr ⟨frame, hsome⟩⟩
  have hsums : (m.inputs.foldl (Mixing.add fx) (m.startMix files)).accumulator =
      m.sums fx files := by
    apply List.ext_getElem?
    intro i
    rw [hloop.sum, sums, List.getElem?_map, startMix, List.getElem?_replicate]
    rcases lt_or_ge i SAMPLES_PER_FRAME with hi | hi
    · rw [if_pos hi, List.getElem?_range hi, Option.map_some, Option.map_some, sum_frames, zero_add]
    · rw [if_neg hi.not_gt, List.getElem?_eq_none (by rwa [List.length_range])]
      rfl
  have hfiles := funext hloop.files
  unfold processFrame
  dsimp only
  rw [← startMix, hmix]
  dsimp only
  rw [hflag, if_neg Bool.true_eq_false.mp, hsums]
  exact ⟨rfl, rfl, hfiles, rfl⟩

/-- The order of the inputs, and what the last call left in the temporary buffer,
are nothing to the sums. -/
theorem frames_perm (fx : FloatOps Shifter) {m m' : MixerNode} (files : FileNodes Shifter)
    (hperm : m'.inputs.Perm m.inputs) : (m'.frames fx files).Perm (m.frames fx files) :=
  hperm.filterMap _

/-- The order of the inputs does not change the sums. -/
theorem sums_perm (fx : FloatOps Shifter) {m m' : MixerNode} (files : FileNodes Shifter)
    (hperm : m'.inputs.Perm m.inputs) : m'.sums fx files = m.sums fx files := by
  have hframes := frames_perm fx files hperm
  unfold sums
  exact List.map_congr_left fun i _ => (hframes.map fun frame => frame.getD i 0).sum_eq

/-- A call that some input gives a frame: no sum overflows, the samples are the
clipped sums of the samples of these frames, and the inputs in another order
give the same frame, and the same nodes. -/
theorem mix_is_clipped_sum {fx : FloatOps Shifter} (hfx : fx.toEffects.InPlace) {m : MixerNode}
    {files : FileNodes Shifter} {frameBuffer : List UInt8} (hnodup : m.inputs.Nodup)
    (hfew : m.inputs.length < 65536) (htemp : m.tempInputBuffer.length = FRAME_SIZE_BYTES)
    (hframe : frameBuffer.length = FRAME_SIZE_BYTES) (hactive : m.frames fx files ≠ []) :
    m.SumsFit fx files ∧
      (∀ i < SAMPLES_PER_FRAME,
        (asSamples (m.processFrame fx files frameBuffer).frameBuffer)[i]? =
          some (AudioMath.clippedSample fx.compress
            ((m.frames fx files).map fun frame => frame.getD i 0).sum)) ∧
      ∀ inputs' tempInputBuffer', inputs'.Perm m.inputs →
        tempInputBuffer'.length = FRAME_SIZE_BYTES →
          let m' := { m with inputs := inputs', tempInputBuffer := tempInputBuffer' }
          let p := m.processFrame fx files frameBuffer
          let p' := m'.processFrame fx files frameBuffer
          m'.SumsFit fx files ∧ p'.result = p.result ∧ p'.frameBuffer = p.frameBuffer ∧
            p'.node.1.base = p.node.1.base ∧ p'.node.2 = p.node.2 := by
  have hspec := processFrame_spec hfx frameBuffer hnodup htemp hactive
  refine ⟨sumsFit_of_length fx files hfew.le, fun i hi => ?_, ?_⟩
  · have hcount : frameBuffer.length / 2 = SAMPLES_PER_FRAME := by rw [hframe]; rfl
    have hlen : (m.sums fx files).length = SAMPLES_PER_FRAME := by
      rw [sums, List.length_map, List.length_range]
    rw [hspec.clipped, asSamples_compressAndExport, hcount, List.take_of_length_le hlen.le,
      List.getElem?_map, sums, List.getElem?_map, List.getElem?_range hi]
    rfl
  · intro inputs' tempInputBuffer' hperm htemp' m' p p'
    have hperm' : m'.inputs.Perm m.inputs := hperm
    have hactive' : m'.frames fx files ≠ [] := by
      intro hnil
      have hlength := (frames_perm fx files hperm').length_eq
      rw [hnil, List.length_nil] at hlength
      exact hactive (List.eq_nil_of_length_eq_zero hlength.symm)
    have hspec' : MixSpec fx m' files frameBuffer p' :=
      processFrame_spec hfx frameBuffer (hperm'.nodup_iff.mpr hnodup) htemp' hactive'
    have hfew' : m'.inputs.length < 65536 := by rwa [hperm'.length_eq]
    refine ⟨sumsFit_of_length fx files hfew'.le, hspec'.ok.trans hspec.ok.symm, ?_,
      hspec'.counted.trans hspec.counted.symm, ?_⟩
    · rw [hspec'.clipped, hspec.clipped, sums_perm fx files hperm']
    · rw [hspec'.called, hspec.called]
      funext j
      simp only [hperm'.mem_iff]

/-- Files of which each holds one sample and then silence. -/
def toneFiles : FileNodes Unit := fun i =>
  ⟨⟨"f", none, 0, 0, 0, false⟩, "", "", none, none, none, (),
    ⟨⟨DoubleBuffer.create.fill DoubleBuffer.create.readIndex [UInt8.ofNat (i + 1), 0], 0, .ready⟩,
      [], []⟩⟩

/-- A mixer of two files. -/
def twoTones : MixerNode :=
  ⟨⟨"m", none, 0, 0, 0, false⟩, [0, 1], List.replicate FRAME_SIZE_BYTES 0⟩

/-- The first frame of a file. -/
def toneFrame (i : ℕ) : List ℤ :=
  asSamples (copyFrame (padded [UInt8.ofNat (i + 1), 0]) 0 (List.replicate FRAME_SIZE_BYTES 0))

/-- Floating-point code without effects. -/
def plainOps : FloatOps Unit := ⟨⟨fun _ shifter frame => (frame, shifter), id⟩, id⟩

/-- The example's files give their tones. -/
theorem frameOf_toneFiles (i : ℕ) :
    (toneFiles i).frameOf plainOps.toEffects = some (toneFrame i) := by
  have hfits : ¬(toneFiles i).buffer.controller.needsSwap 0 := by
    rw [AsyncBufferController.needsSwap_iff]
    change ¬BUFFER_SIZE < 0 * FRAME_SIZE_BYTES + 0 + FRAME_SIZE_BYTES
    decide
  have hblock : (toneFiles i).buffer.controller.bf.getReadSpan = padded [UInt8.ofNat (i + 1), 0] := by
    simp only [DoubleBuffer.getReadSpan, toneFiles, DoubleBuffer.fill, DoubleBuffer.create,
      Function.update_self]
  have hoffset : (toneFiles i).buffer.controller.bufferOffset 0 = 0 := by
    simp only [AsyncBufferController.bufferOffset, toneFiles, Nat.zero_mul]
  rw [FileInputNode.frameOf_of_fits _ (fun h => lt_irrefl 0 h.2) rfl hfits, hblock, hoffset,
    toneFrame]

/-- The first samples of the two are 1 and 2. -/
theorem mix_is_clipped_sum_twoTones :
    (asSamples (twoTones.processFrame plainOps toneFiles
      (List.replicate FRAME_SIZE_BYTES 0)).frameBuffer)[0]? = some 3 := by
  have hframes : twoTones.frames plainOps toneFiles = [toneFrame 0, toneFrame 1] := by
    simp only [frames, twoTones, List.filterMap_cons, frameOf_toneFiles, List.filterMap_nil]
  have hactive : twoTones.frames plainOps toneFiles ≠ [] := by
    rw [hframes]
    exact List.cons_ne_nil _ _
  have hsample := (@mix_is_clipped_sum _ plainOps (fun _ _ _ => rfl) twoTones toneFiles
    (List.replicate FRAME_SIZE_BYTES 0) (by decide) (by decide) List.length_replicate
    List.length_replicate hactive).2.1 0 (by decide)
  have hfirst : (toneFrame 0).getD 0 0 = 1 ∧ (toneFrame 1).getD 0 0 = 2 := by decide +kernel
  rw [hsample, hframes, List.map_cons, List.map_cons, List.map_nil, hfirst.1, hfirst.2]
  rfl

end MixerNode

end HermesFlow.Audio
