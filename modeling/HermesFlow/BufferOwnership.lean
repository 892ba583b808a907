import HermesFlow.AsyncBufferController

/-!
# Ownership of the two blocks

The consumer owns the read block and a refill the other one, as long as each
swap finds the last refill completed. The flag that should tell is set once
and never cleared, so a swap is never refused: the contract holds in exactly
the runs whose swaps are all in time.
-/

namespace HermesFlow.Audio.Buffering

open EventRun

/-- A fetch into the block is under way. -/
def InFlight (s : State) (block : Fin 2) : Prop :=
  .fetching block ∈ s.refills ∨ .first block ∈ s.inits ∨ .second block ∈ s.inits

/-- The refill of the back block, the last one spawned, has completed; before
the first swap the back block is the one that was initialised last. -/
def BackRefilled (s : State) : Prop := ∀ pc ∈ s.refills.getLast?, pc = .done

instance (s : State) : Decidable (BackRefilled s) :=
  inferInstanceAs (Decidable (∀ pc ∈ s.refills.getLast?, pc = .done))

/-- The ownership contract of a call: a frame that is returned comes from a
block with no fetch under way, which had been refilled if the call swapped it
in; and where a swap is needed before the refill the call reports an underrun
and moves nothing. -/
structure CallOwned (s : State) (offset : ℕ) (r : FrameResult) : Prop where
  /-- What a returned frame promises. -/
  returned : r.result = .ok () → ¬InFlight s r.controller.bf.readIndex ∧
    (r.controller.bf.readIndex ≠ s.controller.bf.readIndex → BackRefilled s)
  /-- What happens before the refill. -/
  refused : s.controller.needsSwap offset → ¬BackRefilled s →
    r.result = .error bufferUnderrun ∧
      r.controller.bf.readIndex = s.controller.bf.readIndex ∧
      r.controller.inBufferProcessedFrames = s.controller.inBufferProcessedFrames

/-- The contract for the calls of a run. -/
def FrameOwned (s : State) : Event → Prop
  | .getFrame outputBuffer offset =>
    CallOwned s offset (s.controller.getFrame outputBuffer offset)
  | _ => True

/-- The guard of the runs whose swaps are in time. -/
def SwapsRefilled (s : State) : Event → Prop
  | .getFrame _ offset => s.controller.needsSwap offset → BackRefilled s
  | _ => True

/-- The events of a run that neither resets nor initialises the buffer. -/
def Event.IsPlayback : Event → Prop
  | .getFrame _ _ | .refillStart _ | .refillDone _ _ | .refillThrow _ => True
  | _ => False

/-- The invariant of these runs. -/
structure Owned (s : State) : Prop where
  /-- The flag is set and stays so. -/
  ready : s.controller.bf.backBufferReady = true
  /-- A fetch goes into the block that is not read. -/
  fetching : ∀ block, .fetching block ∈ s.refills → block ≠ s.controller.bf.readIndex
  /-- Only the last refill can be under way. -/
  last : ∀ (k : ℕ) (pc : RefillPc), s.refills[k]? = some pc → pc ≠ .done → pc ≠ .faulted →
    k + 1 = s.refills.length
  /-- The buffer has been initialised. -/
  inits : ∀ pc ∈ s.inits, pc = .done

/-- A refill that is not over is the last. -/
theorem Owned.getLast? {s : State} (hs : Owned s) {k : ℕ} {pc : RefillPc}
    (hk : s.refills[k]? = some pc) (hdone : pc ≠ .done) (hfaulted : pc ≠ .faulted) :
    s.refills.getLast? = some pc := by
  have hlast := hs.last k pc hk hdone hfaulted
  rw [List.getLast?_eq_getElem?, ← hlast]
  exact hk

/-- Where the last refill has completed, no fetch is under way. -/
theorem Owned.not_inFlight {s : State} (hs : Owned s) (hback : BackRefilled s) (block : Fin 2) :
    ¬InFlight s block := by
  rintro (hfetch | hfirst | hsecond)
  · obtain ⟨k, hk⟩ := List.mem_iff_getElem?.mp hfetch
    exact absurd (hback _ (hs.getLast? hk nofun nofun)) nofun
  · exact absurd (hs.inits _ hfirst) nofun
  · exact absurd (hs.inits _ hsecond) nofun

/-- In these states the contract of a call is kept exactly when its swap is in time. -/
theorem frameOwned_iff {s : State} {e : Event} (hs : Owned s) :
    FrameOwned s e ↔ SwapsRefilled s e := by
  cases e with
  | getFrame outputBuffer offset =>
    unfold FrameOwned SwapsRefilled
    dsimp only
    by_cases hswap : s.controller.needsSwap offset
    · rw [AsyncBufferController.getFrame_of_swap hswap hs.ready]
      constructor
      · intro h _
        by_contra hback
        exact absurd (h.refused hswap hback).1 nofun
      · intro hback
        have hdone := hback hswap
        exact ⟨fun _ => ⟨hs.not_inFlight hdone _, fun _ => hdone⟩, fun _ hnot => absurd hdone hnot⟩
    · rw [AsyncBufferController.getFrame_of_fits hswap]
      refine ⟨fun _ h => absurd h hswap, fun _ => ⟨fun _ => ⟨?_, fun h => absurd rfl h⟩,
        fun h => absurd h hswap⟩⟩
      rintro (hfetch | hfirst | hsecond)
      · exact hs.fetching _ hfetch rfl
      · exact absurd (hs.inits _ hfirst) nofun
      · exact absurd (hs.inits _ hsecond) nofun
  | _ => exact Iff.rfl

/-- The refills after one of them has moved. -/
theorem getElem?_setRefill {s : State} {k i : ℕ} {pc other : RefillPc}
    (h : (s.setRefill k pc).refills[i]? = some other) :
    i = k ∧ other = pc ∨ i ≠ k ∧ s.refills[i]? = some other :=
  getElem?_set_cases h

/-- A refill moves on; it stays the last if it is not over. -/
theorem Owned.setRefill {s : State} (hs : Owned s) {k : ℕ} {old pc : RefillPc}
    (hk : s.refills[k]? = some old) (hold : old ≠ .done ∧ old ≠ .faulted)
    (hpc : ∀ block, pc = .fetching block → block ≠ s.controller.bf.readIndex) :
    Owned (s.setRefill k pc) where
  ready := hs.ready
  fetching := fun block hmem => by
    obtain ⟨i, hi⟩ := List.mem_iff_getElem?.mp hmem
    rcases getElem?_setRefill hi with ⟨-, hblock⟩ | ⟨-, hbefore⟩
    · exact hpc block hblock.symm
    · exact hs.fetching block (List.mem_of_getElem? hbefore)
  last := fun i other hi hdone hfaulted => by
    simp only [State.setRefill, List.length_set]
    rcases getElem?_setRefill hi with ⟨rfl, -⟩ | ⟨-, hbefore⟩
    · exact hs.last i old hk hold.1 hold.2
    · exact hs.last i other hbefore hdone hfaulted
  inits := hs.inits

/-- Each step of playback keeps the invariant, if its swap is in time. -/
theorem owned_step {s s' : State} {e : Event} (hs : Owned s) (hplay : e.IsPlayback)
    (hok : SwapsRefilled s e) (h : step s e = some s') : Owned s' := by
  cases step_moves h with
  | getFrame outputBuffer offset =>
    by_cases hswap : s.controller.needsSwap offset
    · have hdone := hok hswap
      unfold getFrame
      rw [AsyncBufferController.getFrame_of_swap hswap hs.ready]
      refine ⟨hs.ready, fun block hmem => ?_, fun k pc hk hd hf => ?_, hs.inits⟩
      · rcases List.mem_append.mp hmem with hbefore | hnew
        · exact absurd (.inl hbefore) (hs.not_inFlight hdone block)
        · exact absurd (List.mem_singleton.mp hnew) nofun
      · simp only [if_true, List.length_append, List.length_singleton] at hk ⊢
        rw [List.getElem?_append] at hk
        split at hk
        · -- no earlier refill is left under way
          exact absurd (hdone pc (hs.getLast? hk hd hf)) hd
        · have hlt := (List.getElem?_eq_some_iff.mp hk).1
          simp only [List.length_singleton] at hlt
          omega
    · unfold getFrame
      rw [AsyncBufferController.getFrame_of_fits hswap]
      exact ⟨hs.ready, hs.fetching, hs.last, hs.inits⟩
  | refillStart hk =>
    refine hs.setRefill hk ⟨nofun, nofun⟩ fun block hblock => ?_
    rw [← RefillPc.fetching.inj hblock]
    exact s.controller.bf.writeIndex_ne
  | @refillDone k block hk data =>
    have hstill : Owned (s.withController (s.controller.finishRefill block data)) :=
      ⟨rfl, hs.fetching, hs.last, hs.inits⟩
    exact hstill.setRefill hk ⟨nofun, nofun⟩ nofun
  | @refillThrow k block hk =>
    have hstill : Owned (s.withController { s.controller with state := .faulted }) :=
      ⟨hs.ready, hs.fetching, hs.last, hs.inits⟩
    exact hstill.setRefill hk ⟨nofun, nofun⟩ nofun
  | reset | initializeBuffers | initStart | initFirst | initSecond | initThrow => exact hplay.elim

/-- The buffer after a first `initialize_buffers` that has completed. -/
def initialized (first second : List UInt8) : State where
  controller := AsyncBufferController.create.initializeBuffers first second
  refills := []
  inits := [.done]

/-- It is what the coroutine leaves. -/
theorem initialized_eq_run (first second : List UInt8) :
    runEvents step ⟨.create, [], []⟩ [.initializeBuffers, .initStart 0, .initFirst 0 first,
      .initSecond 0 second] = some (initialized first second) := rfl

/-- A controller just initialised keeps the ownership of its buffers. -/
theorem owned_initialized (first second : List UInt8) : Owned (initialized first second) where
  ready := rfl
  fetching := fun _ h => absurd h List.not_mem_nil
  last := fun _ _ h => absurd h nofun
  inits := fun _ h => List.mem_singleton.mp h

/-- From an initialised buffer, every call keeps the ownership contract if and
only if every swap finds the last refill completed. -/
theorem frames_owned_iff (first second : List UInt8) {es : List Event}
    (hplay : ∀ e ∈ es, e.IsPlayback) :
    Meets step FrameOwned (initialized first second) es ↔
      Meets step SwapsRefilled (initialized first second) es := by
  have hiff : ∀ s e, Owned s → e.IsPlayback → (FrameOwned s e ↔ SwapsRefilled s e) :=
    fun _ _ hs _ => frameOwned_iff hs
  have hinv : ∀ s e s', Owned s → e.IsPlayback → SwapsRefilled s e → step s e = some s' →
      Owned s' := fun _ _ _ => owned_step
  exact meets_iff_meets hiff hinv (owned_initialized first second) hplay

/-- A call of `process_frame` takes its frame at offset 0. -/
def frameEvent : Event := .getFrame (List.replicate FRAME_SIZE_BYTES 0) 0

/-- Calls that find their frames in the read block only count them. -/
theorem run_frames {n : ℕ} {s : State}
    (hfit : (s.controller.inBufferProcessedFrames + n) * FRAME_SIZE_BYTES ≤ BUFFER_SIZE) :
    runEvents step s (List.replicate n frameEvent) =
        some (s.withController { s.controller with
          inBufferProcessedFrames := s.controller.inBufferProcessedFrames + n }) ∧
      Meets step SwapsRefilled s (List.replicate n frameEvent) := by
  induction n generalizing s with
  | zero => exact ⟨rfl, trivial⟩
  | succ n ih =>
    have hfits : ¬s.controller.needsSwap 0 := by
      rw [AsyncBufferController.needsSwap_iff]
      simp only [FRAME_SIZE_BYTES, SAMPLES_PER_FRAME, BYTES_PER_SAMPLE, BUFFER_SIZE] at hfit ⊢
      omega
    have hstep : step s frameEvent = some (s.withController { s.controller with
        inBufferProcessedFrames := s.controller.inBufferProcessedFrames + 1 }) := by
      simp only [step, frameEvent, getFrame, AsyncBufferController.getFrame_of_fits hfits]
      rfl
    obtain ⟨hrun, hmeets⟩ := @ih (s.withController { s.controller with
      inBufferProcessedFrames := s.controller.inBufferProcessedFrames + 1 }) (by
        simp only [State.withController]
        rw [Nat.add_assoc, Nat.add_comm 1 n]
        exact hfit)
    refine ⟨?_, fun h => absurd h hfits, fun s' hs' => ?_⟩
    · rw [List.replicate_succ, runEvents_cons_iff]
      refine ⟨_, hstep, ?_⟩
      rw [hrun]
      simp only [State.withController, Nat.add_assoc, Nat.add_comm 1 n]
    · obtain rfl := Option.some.inj (hstep.symm.trans hs')
      exact hmeets

/-- The call that finds its block used up swaps and spawns a refill. -/
theorem step_swap {s : State} (hswap : s.controller.needsSwap 0)
    (hready : s.controller.bf.backBufferReady = true) :
    step s frameEvent = some { s with
      controller := { s.controller with bf := s.controller.bf.swap, inBufferProcessedFrames := 1 }
      refills := s.refills ++ [.spawned] } := by
  simp only [step, frameEvent, getFrame, AsyncBufferController.getFrame_of_swap hswap hready, if_true]

/-- The buffer after the 409 frames of its first block. -/
def usedUp : State :=
  (initialized [] []).withController
    { (initialized [] []).controller with inBufferProcessedFrames := 409 }

/-- A used up buffer is due for a swap. -/
theorem usedUp_needsSwap : usedUp.controller.needsSwap 0 :=
  AsyncBufferController.needsSwap_iff.mpr (by decide)

/-- The block is used up after 409 calls, all of them in time. -/
theorem run_usedUp :
    runEvents step (initialized [] []) (List.replicate 409 frameEvent) = some usedUp ∧
      Meets step SwapsRefilled (initialized [] []) (List.replicate 409 frameEvent) :=
  run_frames (by decide)

/-- Frames alone are playback. -/
theorem isPlayback_frames (n : ℕ) : ∀ e ∈ List.replicate n frameEvent, e.IsPlayback := by
  intro e he
  rw [List.eq_of_mem_replicate he]
  trivial

/-- One block of frames, the swap, and the refill it spawned in time for the next. -/
theorem frames_owned_iff_in_time :
    Meets step FrameOwned (initialized [] [])
      (List.replicate 409 frameEvent ++ [frameEvent, .refillStart 0, .refillDone 0 [1]]) := by
  have hrest : ∀ e ∈ [frameEvent, .refillStart 0, .refillDone 0 [1]], e.IsPlayback := by
    simp [frameEvent, Event.IsPlayback]
  have hplay := List.forall_mem_append.mpr ⟨isPlayback_frames 409, hrest⟩
  refine (frames_owned_iff [] [] hplay).mpr (meets_append_iff.mpr ⟨run_usedUp.2, fun m hm => ?_⟩)
  obtain rfl := Option.some.inj (run_usedUp.1.symm.trans hm)
  exact ⟨fun _ => by decide, fun _ _ => ⟨trivial, fun _ _ => ⟨trivial, fun _ _ => trivial⟩⟩⟩

/-- The first refill is under way in block 1, and block 0 has given one frame. -/
def refilling : State where
  controller := { usedUp.controller with bf := usedUp.controller.bf.swap, inBufferProcessedFrames := 1 }
  refills := [.fetching usedUp.controller.bf.swap.writeIndex]
  inits := [.done]

/-- The same refill is under way, and block 0 is used up. -/
def refillingUsedUp : State :=
  refilling.withController { refilling.controller with inBufferProcessedFrames := 409 }

/-- A refill that takes longer than the block played meanwhile. -/
def slowRefill : List Event :=
  List.replicate 409 frameEvent ++ ([frameEvent, .refillStart 0] ++ List.replicate 408 frameEvent)

/-- The slow refill ends at a used up buffer, still refilling. -/
theorem run_slowRefill : runEvents step (initialized [] []) slowRefill = some refillingUsedUp := by
  have hswap : step usedUp frameEvent = some { refilling with refills := [.spawned] } :=
    step_swap usedUp_needsSwap rfl
  have hstart : step { refilling with refills := [.spawned] } (.refillStart 0) = some refilling := rfl
  have hframes : runEvents step refilling (List.replicate 408 frameEvent) = some refillingUsedUp :=
    (@run_frames 408 refilling (by decide)).1
  refine runEvents_append_iff.mpr ⟨usedUp, run_usedUp.1, ?_⟩
  exact runEvents_cons_iff.mpr ⟨_, hswap, runEvents_cons_iff.mpr ⟨_, hstart, hframes⟩⟩

/-- The second swap then returns a frame of the block that the refill is
fetching into, where an underrun is due. -/
theorem frames_not_owned_slow_refill :
    ¬∀ (first second : List UInt8) (es : List Event), (∀ e ∈ es, e.IsPlayback) →
      (runEvents step (initialized first second) es).isSome = true →
        Meets step FrameOwned (initialized first second) es := by
  intro h
  have hneeds : refillingUsedUp.controller.needsSwap 0 :=
    AsyncBufferController.needsSwap_iff.mpr (by decide)
  have hrun := runEvents_snoc run_slowRefill (step_swap hneeds rfl)
  have hplay : ∀ e ∈ slowRefill ++ [frameEvent], e.IsPlayback := by
    have hstart : ∀ e ∈ [frameEvent, .refillStart 0], e.IsPlayback := by
      simp [frameEvent, Event.IsPlayback]
    exact List.forall_mem_append.mpr ⟨List.forall_mem_append.mpr ⟨isPlayback_frames 409,
      List.forall_mem_append.mpr ⟨hstart, isPlayback_frames 408⟩⟩, isPlayback_frames 1⟩
  have hmeets := h [] [] (slowRefill ++ [frameEvent]) hplay (by rw [hrun]; rfl)
  have hlast : FrameOwned refillingUsedUp frameEvent :=
    ((meets_append_iff.mp hmeets).2 refillingUsedUp run_slowRefill).1
  have hrefused := (hlast.refused hneeds (by decide)).1
  rw [AsyncBufferController.getFrame_of_swap hneeds rfl] at hrefused
  cases hrefused

end HermesFlow.Audio.Buffering
