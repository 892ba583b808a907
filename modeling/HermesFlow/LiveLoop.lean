import HermesFlow.LiveTimeline
import HermesFlow.LoopTimeline

/-!
# A live session with a loop

A session whose chain comes back to a loop plays it for as long as it is left to play: none of its
frames ends it, so only a stop does.
-/

namespace HermesFlow.Live

open Audio EventRun
open Audio.LoopTimeline (KeptUp Loops Tour TouredTo)
open Audio.Timeline (startReads timeline)

variable {Shifter : Type} {fx : FloatOps Shifter}

/-- A session that keeps up with its loop follows the tour of it. -/
theorem follows_loop (hfx : fx.toEffects.InPlace) {lead cycle : List NodeRef}
    {start : Dispatch.State Shifter} (htour : Tour fx start.executor.nodes lead cycle)
    (hstart : TouredTo fx start.executor.nodes lead cycle 0 start) :
    Follows fx (KeptUp fx) (TouredTo fx start.executor.nodes lead cycle) start where
  starts := hstart
  tick := fun htoured hkept hstep => htoured.tick hfx htour hkept hstep
  task := fun htoured hkept hstep => htoured.task htour hkept hstep
  blind := fun {_ e} _ hkept => by cases e <;> exact hkept

/-- A run of the session of an accepted flow with a loop, whoever pauses, resumes or stops it and
however time passes: what it has sent are the first frames of the nodes before the loop and then of
the loop, over and over, they last no longer than the session has been playing, and a session
that has taken a frame goes on to send it. -/
theorem live_plays_loop {lib : Infra.Library} {o : Infra.JsonObject} {graph : Infra.Graph}
    (hparse : Infra.parseGraph lib o = .ok graph) (hfx : fx.toEffects.InPlace)
    {disk : String → Option (List UInt8)} {shifter : Shifter}
    (hreset : ∀ used, fx.reset used = shifter) {stats : SessionStats} {pcmBuffer : List UInt8}
    (hbuffer : pcmBuffer.length = FRAME_SIZE_BYTES) {lead cycle : List NodeRef}
    (hloops : Loops (startReads graph disk shifter stats pcmBuffer) lead cycle) {isWebrtc : Bool}
    {janusPort : Option UInt16} {hasObserver : Bool} {now : ℕ} {es : List Event} {t : State Shifter}
    (hkept : Meets (step fx) (Serves (KeptUp fx))
      (spawned graph disk shifter stats pcmBuffer isWebrtc janusPort hasObserver now) es)
    (hrun : runEvents (step fx)
      (spawned graph disk shifter stats pcmBuffer isWebrtc janusPort hasObserver now) es = some t) :
    (∃ rounds, t.sent <+: timeline fx (startReads graph disk shifter stats pcmBuffer).executor.nodes
        lead ++ (List.replicate rounds (timeline fx
          (startReads graph disk shifter stats pcmBuffer).executor.nodes cycle)).flatten) ∧
      Session.Timed.AUDIO_TICK_INTERVAL * t.sent.length ≤ playedTime fx
        (spawned graph disk shifter stats pcmBuffer isWebrtc janusPort hasObserver now) es ∧
      ∀ before faults, es = before ++ [.frame faults] → t.timed.session.pc = .sending := by
  have hfollows := follows_loop hfx (hloops.tour (Infra.parseGraph_ok hparse) hreset)
    (hloops.touredTo hbuffer)
  refine ⟨?_, sent_paid hrun, ?_⟩
  · rcases rehearsed_run hfollows hkept hrun with hfresh | ⟨ticks, d, hd, hrenders⟩
    · refine ⟨0, ?_⟩
      rw [hfresh.sent]
      exact List.nil_prefix
    · exact ⟨ticks + 1, hrenders.sent.trans (hd.sent.2 ▸ List.take_prefix _ _)⟩
  · rintro before faults rfl
    obtain ⟨s, d, ticks, hstep, -, -, hnext, produced, rfl⟩ := frame_of_run hfollows hkept hrun
    obtain ⟨-, hpc⟩ := frame_moves (step_eq_some_iff.mp hstep).1
    cases hcontinue : (nextFrame fx s faults).wantsContinue with
    | true => rwa [hcontinue, if_pos rfl] at hpc
    | false =>
      have hends := (@processAndStream_ends _ fx
        ⟨s.executor, s.pcmBuffer, true, s.sent, produced⟩ faults hcontinue).2
      cases hends.symm.trans hnext.sent.1

/-- A file of one frame in a loop with a delay. -/
def loopedFile : State Unit :=
  spawned Infra.fileLoopGraph (fun _ => some (List.replicate FRAME_SIZE_BYTES 7)) ()
    ⟨"s", "", 0, 0, 0⟩ (List.replicate FRAME_SIZE_BYTES 0) false none true 5

/-- Where the audio part is before its two frames. -/
theorem audioPart_loopedFile :
    (runEvents (step Dispatch.idleOps) loopedFile pausedTick).map
          (fun s => Audio.LoopTimeline.fileProgress (audioPart s [])) =
        some (some (.fileInput 0), [.done], [], []) ∧
      (runEvents (step Dispatch.idleOps) loopedFile pausedRun).map
          (fun s => (audioPart s []).executor.currentNode) = some (some (.delay 1)) ∧
      (runEvents (step Dispatch.idleOps) loopedFile
        (pausedRun ++ [.frame fun _ => none])).isSome = true := by
  decide +kernel

/-- The example keeps up with its frames. -/
theorem keptUp_loopedFile :
    Meets (step Dispatch.idleOps) (Serves (KeptUp Dispatch.idleOps)) loopedFile
      (pausedRun ++ [.frame fun _ => none]) := by
  obtain ⟨hfirst, hsecond, -⟩ := audioPart_loopedFile
  refine serves_pausedRun (fun s hs => ?_) fun s hs => ?_
  · rw [hs] at hfirst
    exact Audio.LoopTimeline.keptUp_fileProgress (Option.some.inj hfirst) (by decide)
  · rw [hs] at hsecond
    exact Audio.LoopTimeline.keptUp_delay (Option.some.inj hsecond) _

/-- The frame of the file is sent, and the delay does not end the loop. -/
theorem live_plays_loop_paused :
    ∃ t, runEvents (step Dispatch.idleOps) loopedFile (pausedRun ++ [.frame fun _ => none]) =
        some t ∧
      (∃ rounds, t.sent <+: (List.replicate rounds (timeline Dispatch.idleOps
        Audio.LoopTimeline.fileLoopStart.executor.nodes [.fileInput 0, .delay 1])).flatten) ∧
      t.timed.session.pc = .sending := by
  obtain ⟨t, ht⟩ := Option.isSome_iff_exists.mp audioPart_loopedFile.2.2
  obtain ⟨hsent, -, hpc⟩ := live_plays_loop Infra.parse_fileLoop (fun _ _ _ => rfl)
    (fun _ => rfl) List.length_replicate Audio.LoopTimeline.loops_fileLoop keptUp_loopedFile ht
  exact ⟨t, ht, hsent, hpc _ _ rfl⟩

end HermesFlow.Live
