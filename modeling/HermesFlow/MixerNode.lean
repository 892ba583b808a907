import HermesFlow.CodecStrategy
import HermesFlow.FileInputNode

/-!
# The mixer node

A mixer adds a frame of each of its inputs. The inputs are file input nodes,
the only nodes that `connect_input` puts on the list, and are named by their
position among them. The curve of the soft clipping above its limit is a
floating-point computation and a parameter.
-/

namespace HermesFlow.Audio

open ByteOrder

/-- What the floating-point code computes. -/
structure FloatOps (Shifter : Type) extends Effects Shifter where
  /-- `soft_clip` above its limit. -/
  compress : ℤ → ℤ

namespace AudioMath

/-- `CLIP_LIMIT`. -/
def CLIP_LIMIT : ℤ := 30000

/-- `sum_buffers`: samples are added as far as both buffers go. -/
def sumBuffers (accumulator input : List ℤ) : List ℤ :=
  List.zipWith (· + ·) accumulator input ++ accumulator.drop input.length

/-- `soft_clip`. -/
def softClip (compress : ℤ → ℤ) (sample : ℤ) : ℤ :=
  if sample > CLIP_LIMIT ∨ sample < -CLIP_LIMIT then compress sample else sample

/-- `compress_and_export`, to a buffer with no more samples than the accumulator. -/
def compressAndExport (compress : ℤ → ℤ) (accumulator : List ℤ) (outputBytes : List UInt8) :
    List UInt8 :=
  let count := outputBytes.length / 2
  (accumulator.take count).flatMap (fun sample =>
      storeLE 2 (softClip compress sample % 2 ^ 16).toNat) ++
    outputBytes.drop (count * 2)

end AudioMath

/-- `MixerNode`; the accumulator holds nothing between calls. -/
structure MixerNode where
  /-- What every node has. -/
  base : NodeBase
  /-- `inputs_`. -/
  inputs : List ℕ
  /-- `temp_input_buffer_`. -/
  tempInputBuffer : List UInt8

variable {Shifter : Type}

/-- The file input nodes of a graph. -/
abbrev FileNodes (Shifter : Type) := ℕ → FileInputNode Shifter

/-- The loop of `MixerNode::process_frame` over the inputs. -/
structure Mixing (Shifter : Type) where
  /-- The file inputs as they are after the ones mixed. -/
  files : FileNodes Shifter
  /-- The buffer that an input writes its frame to. -/
  tempInputBuffer : List UInt8
  /-- The sums so far. -/
  accumulator : List ℤ
  /-- Whether an input has given a frame. -/
  hasActiveInputs : Bool

/-- The loop, with the error that ends it early. -/
def mixInputs (fx : FloatOps Shifter) :
    List ℕ → Mixing Shifter → Mixing Shifter × Except NodeError Unit
  | [], m => (m, .ok ())
  | source :: inputs, m =>
    let p := (m.files source).processFrame fx.toEffects m.tempInputBuffer
    let m := { m with
      files := Function.update m.files source p.node
      tempInputBuffer := p.frameBuffer }
    match p.result with
    | .error error =>
      if error.code = .critical then (m, .error error) else mixInputs fx inputs m
    | .ok () =>
      mixInputs fx inputs { m with
        hasActiveInputs := true
        accumulator := AudioMath.sumBuffers m.accumulator (asSamples m.tempInputBuffer) }

/-- The loop of `MixerNode::close` over the inputs; `faults` are the errors of
the file system. -/
def closeInputs (fx : FloatOps Shifter) (faults : ℕ → Option String) :
    List ℕ → FileNodes Shifter → FileNodes Shifter × Except NodeError Unit
  | [], files => (files, .ok ())
  | source :: inputs, files =>
    let r := (files source).close fx.toEffects (faults source)
    let files := Function.update files source r.1
    match r.2 with
    | .error error => (files, .error error)
    | .ok () => closeInputs fx faults inputs files

namespace MixerNode

/-- `set_max_frames`. -/
def setMaxFrames (m : MixerNode) (files : FileNodes Shifter) : MixerNode :=
  { m with base := { m.base with
      totalFrames :=
        m.inputs.foldl (fun max source => Max.max max (files source).base.totalFrames) 0 } }

/-- `process_frame`, on the mixer and the file input nodes. -/
def processFrame (fx : FloatOps Shifter) (m : MixerNode) (files : FileNodes Shifter)
    (frameBuffer : List UInt8) : Processed (MixerNode × FileNodes Shifter) :=
  let r := mixInputs fx m.inputs
    ⟨files, m.tempInputBuffer, List.replicate SAMPLES_PER_FRAME 0, false⟩
  let m := { m with tempInputBuffer := r.1.tempInputBuffer }
  match r.2 with
  | .error error => ⟨(m, r.1.files), .error error, frameBuffer⟩
  | .ok () =>
    if r.1.hasActiveInputs = false then
      ⟨(m, r.1.files), .error (m.base.error .endOfStream "Mixer stream ended (no active inputs)"),
        List.replicate frameBuffer.length 0⟩
    else
      ⟨({ m with base := { m.base with
            inBufferProcessedFrames := m.base.inBufferProcessedFrames + 1
            processedFrames := m.base.processedFrames + 1 } }, r.1.files),
        .ok (), AudioMath.compressAndExport fx.compress r.1.accumulator frameBuffer⟩

/-- `close`, on the mixer and the file input nodes. -/
def close (fx : FloatOps Shifter) (m : MixerNode) (files : FileNodes Shifter)
    (faults : ℕ → Option String) : (MixerNode × FileNodes Shifter) × Except NodeError Unit :=
  let r := closeInputs fx faults m.inputs files
  match r.2 with
  | .error error => ((m, r.1), .error error)
  | .ok () =>
    (({ m with base := { m.base with inBufferProcessedFrames := 0, processedFrames := 0 } }, r.1),
      .ok ())

end MixerNode

/-- The nodes have the same file, target and total. -/
structure SameSource (a b : FileInputNode Shifter) : Prop where
  /-- The same file. -/
  file : b.file = a.file
  /-- The same pointer. -/
  target : b.base.target = a.base.target
  /-- The same total. -/
  totalFrames : b.base.totalFrames = a.base.totalFrames

/-- Every node has its own source. -/
theorem SameSource.refl (n : FileInputNode Shifter) : SameSource n n := ⟨rfl, rfl, rfl⟩

/-- Sameness of sources composes. -/
theorem SameSource.trans {a b c : FileInputNode Shifter} (h : SameSource a b)
    (h' : SameSource b c) : SameSource a c :=
  ⟨h'.file.trans h.file, h'.target.trans h.target, h'.totalFrames.trans h.totalFrames⟩

/-- A frame keeps the source. -/
theorem sameSource_processFrame (fx : Effects Shifter) (n : FileInputNode Shifter)
    (frameBuffer : List UInt8) : SameSource n (n.processFrame fx frameBuffer).node := by
  obtain ⟨hfile, ⟨-, hbase⟩ | ⟨-, hbase⟩⟩ := n.processFrame_base fx frameBuffer <;>
    exact ⟨hfile, by rw [hbase], by rw [hbase]⟩

/-- A close keeps the source. -/
theorem sameSource_close (fx : Effects Shifter) (n : FileInputNode Shifter)
    (fault : Option String) : SameSource n (n.close fx fault).1 := by
  obtain ⟨hfile, ⟨-, hbase⟩ | ⟨-, hbase⟩⟩ := n.close_base fx fault <;>
    exact ⟨hfile, by rw [hbase], by rw [hbase]⟩

/-- Replacing a node by one with the same source. -/
theorem sameSource_update {files : FileNodes Shifter} {source : ℕ} {n : FileInputNode Shifter}
    (h : SameSource (files source) n) (j : ℕ) :
    SameSource (files j) (Function.update files source n j) := by
  by_cases hj : j = source
  · subst hj
    rw [Function.update_self]
    exact h
  · rw [Function.update_of_ne hj]
    exact SameSource.refl (files j)

/-- The mixer's loop changes its inputs only, and no source. -/
theorem mixInputs_files (fx : FloatOps Shifter) (inputs : List ℕ) (m : Mixing Shifter) (j : ℕ) :
    SameSource (m.files j) ((mixInputs fx inputs m).1.files j) ∧
      (j ∉ inputs → (mixInputs fx inputs m).1.files j = m.files j) := by
  induction inputs generalizing m with
  | nil => exact ⟨SameSource.refl _, fun _ => rfl⟩
  | cons source inputs ih =>
    have hstep := sameSource_update
      (sameSource_processFrame fx.toEffects (m.files source) m.tempInputBuffer) j
    have hother : j ∉ source :: inputs → j ≠ source ∧ j ∉ inputs := by
      simp only [List.mem_cons, not_or, imp_self]
    have hframe : j ≠ source → Function.update m.files source
        ((m.files source).processFrame fx.toEffects m.tempInputBuffer).node j = m.files j :=
      fun hj => Function.update_of_ne hj _ _
    rw [mixInputs]
    dsimp only
    split
    · split
      · exact ⟨hstep, fun hj => hframe (hother hj).1⟩
      · obtain ⟨hsame, hrest⟩ := ih _
        exact ⟨hstep.trans hsame, fun hj => (hrest (hother hj).2).trans (hframe (hother hj).1)⟩
    · obtain ⟨hsame, hrest⟩ := ih _
      exact ⟨hstep.trans hsame, fun hj => (hrest (hother hj).2).trans (hframe (hother hj).1)⟩

/-- No input ends the loop early. -/
theorem mixInputs_ok (fx : FloatOps Shifter) (inputs : List ℕ) (m : Mixing Shifter) :
    (mixInputs fx inputs m).2 = .ok () := by
  induction inputs generalizing m with
  | nil => rfl
  | cons source inputs ih =>
    rw [mixInputs]
    dsimp only
    split
    · rename_i error herror
      have hcode := FileInputNode.processFrame_error herror
      rw [if_neg (by rcases hcode with h | h <;> simp [h])]
      exact ih _
    · exact ih _

/-- Closing the inputs changes them only, and no source. -/
theorem closeInputs_files (fx : FloatOps Shifter) (faults : ℕ → Option String) (inputs : List ℕ)
    (files : FileNodes Shifter) (j : ℕ) :
    SameSource (files j) ((closeInputs fx faults inputs files).1 j) ∧
      (j ∉ inputs → (closeInputs fx faults inputs files).1 j = files j) := by
  induction inputs generalizing files with
  | nil => exact ⟨SameSource.refl _, fun _ => rfl⟩
  | cons source inputs ih =>
    have hstep := sameSource_update
      (sameSource_close fx.toEffects (files source) (faults source)) j
    have hframe : j ∉ source :: inputs →
        Function.update files source ((files source).close fx.toEffects (faults source)).1 j =
          files j :=
      fun hj => Function.update_of_ne (List.ne_of_not_mem_cons hj) _ _
    rw [closeInputs]
    split
    · exact ⟨hstep, hframe⟩
    · obtain ⟨hsame, hrest⟩ := ih _
      exact ⟨hstep.trans hsame,
        fun hj => (hrest (List.not_mem_of_not_mem_cons hj)).trans (hframe hj)⟩

section Component

variable {β : Type*} (component : FileInputNode Shifter → β) {fx : FloatOps Shifter}

/-- What no `process_frame` of an input changes is not changed by the mixer's loop. -/
theorem mixInputs_component
    (hframe : ∀ n frameBuffer,
      component (FileInputNode.processFrame fx.toEffects n frameBuffer).node = component n)
    (inputs : List ℕ) (m : Mixing Shifter) (j : ℕ) :
    component ((mixInputs fx inputs m).1.files j) = component (m.files j) := by
  induction inputs generalizing m with
  | nil => rfl
  | cons source inputs ih =>
    have hstep : component (Function.update m.files source
        ((m.files source).processFrame fx.toEffects m.tempInputBuffer).node j) =
          component (m.files j) := by
      by_cases hj : j = source
      · subst hj
        rw [Function.update_self, hframe]
      · rw [Function.update_of_ne hj]
    rw [mixInputs]
    dsimp only
    split
    · split
      · exact hstep
      · exact (ih _).trans hstep
    · exact (ih _).trans hstep

/-- What no `close` of an input changes is not changed by closing the inputs. -/
theorem closeInputs_component
    (hclose : ∀ n fault, component (FileInputNode.close fx.toEffects n fault).1 = component n)
    (faults : ℕ → Option String) (inputs : List ℕ) (files : FileNodes Shifter) (j : ℕ) :
    component ((closeInputs fx faults inputs files).1 j) = component (files j) := by
  induction inputs generalizing files with
  | nil => rfl
  | cons source inputs ih =>
    have hstep : component (Function.update files source
        ((files source).close fx.toEffects (faults source)).1 j) = component (files j) := by
      by_cases hj : j = source
      · subst hj
        rw [Function.update_self, hclose]
      · rw [Function.update_of_ne hj]
    rw [closeInputs]
    split
    · exact hstep
    · exact (ih _).trans hstep

end Component

/-- Inputs that have all been closed start anew. -/
theorem closeInputs_processedFrames (fx : FloatOps Shifter) (faults : ℕ → Option String)
    {inputs : List ℕ} {files : FileNodes Shifter}
    (hok : (closeInputs fx faults inputs files).2 = .ok ()) {j : ℕ}
    (hj : j ∈ inputs ∨ (files j).base.processedFrames = 0) :
    ((closeInputs fx faults inputs files).1 j).base.processedFrames = 0 := by
  induction inputs generalizing files with
  | nil => exact hj.resolve_left List.not_mem_nil
  | cons source inputs ih =>
    rw [closeInputs] at hok ⊢
    split at hok
    · cases hok
    · rename_i hclosed
      refine ih hok ?_
      by_cases hsource : j = source
      · subst hsource
        obtain ⟨-, ⟨-, hbase⟩ | ⟨⟨error, herror⟩, -⟩⟩ :=
          (files j).close_base fx.toEffects (faults j)
        · right
          rw [Function.update_self, hbase]
        · rw [hclosed] at herror
          cases herror
      · rw [Function.update_of_ne hsource]
        exact hj.imp_left fun hmem => (List.mem_cons.mp hmem).resolve_left hsource

/-- A close of inputs that fails reports a file error. -/
theorem closeInputs_error {fx : FloatOps Shifter} {faults : ℕ → Option String} {inputs : List ℕ}
    {files : FileNodes Shifter} {error : NodeError}
    (h : (closeInputs fx faults inputs files).2 = .error error) : error.code = .fileIOError := by
  induction inputs generalizing files with
  | nil => cases h
  | cons source inputs ih =>
    rw [closeInputs] at h
    split at h
    · rename_i hclosed
      cases h
      exact FileInputNode.close_error hclosed
    · exact ih h

namespace MixerNode

/-- What `process_frame` does to the fields that the executor reads. -/
theorem processFrame_base (fx : FloatOps Shifter) (m : MixerNode) (files : FileNodes Shifter)
    (frameBuffer : List UInt8) :
    (m.processFrame fx files frameBuffer).node.1.inputs = m.inputs ∧
      ((m.processFrame fx files frameBuffer).result = .ok () ∧
          (m.processFrame fx files frameBuffer).node.1.base = { m.base with
            inBufferProcessedFrames := m.base.inBufferProcessedFrames + 1
            processedFrames := m.base.processedFrames + 1 } ∨
        (∃ error, (m.processFrame fx files frameBuffer).result = .error error) ∧
          (m.processFrame fx files frameBuffer).node.1.base = m.base) := by
  unfold processFrame
  dsimp only
  split
  · exact ⟨rfl, .inr ⟨⟨_, rfl⟩, rfl⟩⟩
  · split
    · exact ⟨rfl, .inr ⟨⟨_, rfl⟩, rfl⟩⟩
    · exact ⟨rfl, .inl ⟨rfl, rfl⟩⟩

/-- A mixer's frame keeps every source and touches only its inputs. -/
theorem processFrame_files (fx : FloatOps Shifter) (m : MixerNode) (files : FileNodes Shifter)
    (frameBuffer : List UInt8) (j : ℕ) :
    SameSource (files j) ((m.processFrame fx files frameBuffer).node.2 j) ∧
      (j ∉ m.inputs → (m.processFrame fx files frameBuffer).node.2 j = files j) := by
  have hloop := mixInputs_files fx m.inputs
    ⟨files, m.tempInputBuffer, List.replicate SAMPLES_PER_FRAME 0, false⟩ j
  unfold processFrame
  dsimp only
  split
  · exact hloop
  · split <;> exact hloop

/-- The error that it returns. -/
theorem processFrame_error {fx : FloatOps Shifter} {m : MixerNode} {files : FileNodes Shifter}
    {frameBuffer : List UInt8} {error : NodeError}
    (h : (m.processFrame fx files frameBuffer).result = .error error) :
    error.code = .endOfStream := by
  unfold processFrame at h
  dsimp only at h
  rw [mixInputs_ok] at h
  dsimp only at h
  split at h
  · cases h
    rfl
  · cases h

/-- What `close` does to them. -/
theorem close_base (fx : FloatOps Shifter) (m : MixerNode) (files : FileNodes Shifter)
    (faults : ℕ → Option String) :
    (m.close fx files faults).1.1.inputs = m.inputs ∧
      ((m.close fx files faults).2 = .ok () ∧
          (m.close fx files faults).1.1.base =
            { m.base with inBufferProcessedFrames := 0, processedFrames := 0 } ∧
          (closeInputs fx faults m.inputs files).2 = .ok () ∨
        (∃ error, (m.close fx files faults).2 = .error error) ∧
          (m.close fx files faults).1.1.base = m.base) := by
  unfold close
  dsimp only
  split
  · exact ⟨rfl, .inr ⟨⟨_, rfl⟩, rfl⟩⟩
  · rename_i hclosed
    exact ⟨rfl, .inl ⟨rfl, rfl, hclosed⟩⟩

/-- A mixer's close that fails reports a file error. -/
theorem close_error {fx : FloatOps Shifter} {m : MixerNode} {files : FileNodes Shifter}
    {faults : ℕ → Option String} {error : NodeError}
    (h : (m.close fx files faults).2 = .error error) : error.code = .fileIOError := by
  unfold close at h
  dsimp only at h
  split at h
  · rename_i hclosed
    cases h
    exact closeInputs_error hclosed
  · cases h

/-- Closing a mixer closes its inputs. -/
theorem close_files (fx : FloatOps Shifter) (m : MixerNode) (files : FileNodes Shifter)
    (faults : ℕ → Option String) :
    (m.close fx files faults).1.2 = (closeInputs fx faults m.inputs files).1 := by
  unfold close
  dsimp only
  split <;> rfl

end MixerNode

end HermesFlow.Audio
