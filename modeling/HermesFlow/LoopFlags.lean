import HermesFlow.FunctionalGraph
import HermesFlow.Prepare

/-!
# The nodes that `detect_and_flag_loops` flags

The two loops of `detect_and_flag_loops` with bounded turns, where a loop that
has not ended and a null pointer that would be followed have no result. On a
finite graph they end, and flag the cycle that the start node comes to and the
inputs of its mixers.
-/

namespace HermesFlow.Audio

open FunctionalGraph

variable {Shifter : Type}

namespace Nodes

/-- `next()`. -/
def next (g : Nodes Shifter) (r : NodeRef) : Option NodeRef := (g.base r).target

/-- The do-while of `detect_and_flag_loops`; a null `next()` is not followed. -/
def flagRound (g : Nodes Shifter) (cycleStart : NodeRef) : ℕ → NodeRef → Option (Nodes Shifter)
  | 0, _ => none
  | turns + 1, loopNode =>
    let g := g.setInLoop loopNode true
    match g.next loopNode with
    | none => none
    | some next => if next = cycleStart then some g else flagRound g cycleStart turns next

/-- `detect_and_flag_loops` with at most so many turns of its loops. -/
def detectAndFlagWithin (g : Nodes Shifter) (turns : ℕ) (startNode : Option NodeRef) :
    Option (Nodes Shifter) := do
  match ← firstRepeat g.next (turns + 1) startNode [] with
  | some cycleStart => g.flagRound cycleStart turns cycleStart
  | none => return g

/-- The node itself, and the inputs of a mixer. -/
def Covers (g : Nodes Shifter) (q r : NodeRef) : Prop :=
  r = q ∨ ∃ i j, q = .mixer i ∧ r = .fileInput j ∧ j ∈ (g.mixers i).inputs

/-- The nodes to be flagged: those on a cycle that the start node comes to, and
the inputs of the mixers among them. -/
def InLoop (g : Nodes Shifter) (startNode r : NodeRef) : Prop :=
  ∃ q, Reaches g.next startNode q ∧ OnCycle g.next q ∧ g.Covers q r

section Flags

variable {g : Nodes Shifter}

/-- Setting the flags keeps the pointers. -/
theorem next_setInLoop (g : Nodes Shifter) (r : NodeRef) (value : Bool) :
    (g.setInLoop r value).next = g.next := by
  funext q
  obtain ⟨flag, hflag⟩ := (flagged_setInLoop g r value).base q
  rw [next, hflag]
  rfl

/-- Setting the flags keeps what is covered. -/
theorem covers_setInLoop (g : Nodes Shifter) (r : NodeRef) (value : Bool) :
    (g.setInLoop r value).Covers = g.Covers := by
  funext q r'
  simp only [Covers, (flagged_setInLoop g r value).inputs]

/-- `set_in_loop` flags the nodes that it covers, and leaves the others as they
are. -/
theorem isInLoop_setInLoop (g : Nodes Shifter) (q r : NodeRef) :
    ((g.setInLoop q true).base r).isInLoop = true ↔
      (g.base r).isInLoop = true ∨ g.Covers q r := by
  cases q with
  | fileInput i =>
    cases r with
    | fileInput j =>
      rcases eq_or_ne j i with rfl | hne
      · simp [setInLoop, base, FileInputNode.setInLoop, NodeBase.setInLoop, Covers]
      · simp [setInLoop, base, Covers, hne]
    | _ => simp [setInLoop, base, Covers]
  | mixer i =>
    cases r with
    | fileInput j =>
      by_cases hinput : j ∈ (g.mixers i).inputs
      · simp [setInLoop, base, FileInputNode.setInLoop, NodeBase.setInLoop, Covers, hinput]
      · simp [setInLoop, base, Covers, hinput]
    | mixer j =>
      rcases eq_or_ne j i with rfl | hne
      · simp [setInLoop, base, NodeBase.setInLoop, Covers]
      · simp [setInLoop, base, Covers, hne]
    | _ => simp [setInLoop, base, Covers]
  | delay i =>
    cases r with
    | delay j =>
      rcases eq_or_ne j i with rfl | hne
      · simp [setInLoop, base, NodeBase.setInLoop, Covers]
      · simp [setInLoop, base, Covers, hne]
    | _ => simp [setInLoop, base, Covers]
  | clients i =>
    cases r with
    | clients j =>
      rcases eq_or_ne j i with rfl | hne
      · simp [setInLoop, base, NodeBase.setInLoop, Covers]
      · simp [setInLoop, base, Covers, hne]
    | _ => simp [setInLoop, base, Covers]
  | fileOptions i =>
    cases r with
    | fileOptions j =>
      rcases eq_or_ne j i with rfl | hne
      · simp [setInLoop, base, NodeBase.setInLoop, Covers]
      · simp [setInLoop, base, Covers, hne]
    | _ => simp [setInLoop, base, Covers]

/-- One turn of the do-while: it returns at the node it started from, and goes
on at any other. -/
theorem flagRound_eq_some {flagged : Nodes Shifter} {cycleStart : NodeRef} {turns : ℕ}
    {loopNode : NodeRef} :
    g.flagRound cycleStart (turns + 1) loopNode = some flagged ↔
      ∃ next, g.next loopNode = some next ∧
        ((next = cycleStart ∧ g.setInLoop loopNode true = flagged) ∨
          (next ≠ cycleStart ∧
            (g.setInLoop loopNode true).flagRound cycleStart turns next = some flagged)) := by
  rw [flagRound, next_setInLoop]
  cases g.next loopNode with
  | none => simp
  | some next => by_cases hback : next = cycleStart <;> simp [hback]

/-- The do-while flags what the nodes of one round cover. -/
theorem flagRound_of_goRound {cycleStart : NodeRef} {turns : ℕ} {loopNode : NodeRef}
    {round : List NodeRef} (h : goRound g.next cycleStart turns loopNode = some round) :
    ∃ flagged, g.flagRound cycleStart turns loopNode = some flagged ∧
      ∀ r, (flagged.base r).isInLoop = true ↔
        (g.base r).isInLoop = true ∨ ∃ q ∈ round, g.Covers q r := by
  induction turns generalizing g loopNode round with
  | zero => cases h
  | succ turns ih =>
    rw [goRound] at h
    have hnext := next_setInLoop g loopNode true
    have hcovers := covers_setInLoop g loopNode true
    cases hsucc : g.next loopNode with
    | none => rw [hsucc] at h; cases h
    | some next =>
      rw [hsucc] at h
      dsimp only at h
      by_cases hback : next = cycleStart
      · rw [if_pos hback] at h
        cases h
        refine ⟨_, flagRound_eq_some.mpr ⟨next, hsucc, .inl ⟨hback, rfl⟩⟩, fun r => ?_⟩
        rw [isInLoop_setInLoop]
        simp only [List.mem_singleton, exists_eq_left]
      · rw [if_neg hback] at h
        obtain ⟨rest, hrest, rfl⟩ := Option.map_eq_some_iff.mp h
        rw [← hnext] at hrest
        obtain ⟨flagged, hflagged, hiff⟩ := ih hrest
        refine ⟨flagged, flagRound_eq_some.mpr ⟨next, hsucc, .inr ⟨hback, hflagged⟩⟩, fun r => ?_⟩
        rw [hiff, isInLoop_setInLoop, hcovers, or_assoc]
        simp only [List.mem_cons, exists_eq_or_imp]

/-- The search of the executor, with the walk that it makes. -/
theorem findCycle_of_firstRepeat {turns : ℕ} {curr : Option NodeRef} {visited : List NodeRef}
    {result : Option NodeRef} (h : firstRepeat g.next turns curr visited = some result) :
    g.findCycle turns curr visited = result := by
  induction turns generalizing curr visited with
  | zero =>
    cases curr with
    | none => exact Option.some.inj h
    | some r => cases h
  | succ turns ih =>
    cases curr with
    | none => exact Option.some.inj h
    | some r =>
      rw [firstRepeat] at h
      rw [findCycle]
      by_cases hmem : r ∈ visited
      · rw [if_pos hmem] at h ⊢
        exact Option.some.inj h
      · rw [if_neg hmem] at h ⊢
        exact ih h

/-- A round that comes back is the whole loop. -/
theorem flagLoop_of_flagRound {flagged : Nodes Shifter} {cycleStart : NodeRef} {turns : ℕ}
    {loopNode : NodeRef} (h : g.flagRound cycleStart turns loopNode = some flagged) :
    g.flagLoop cycleStart turns loopNode = flagged := by
  induction turns generalizing g loopNode with
  | zero => cases h
  | succ turns ih =>
    obtain ⟨next, hsucc, hturn⟩ := flagRound_eq_some.mp h
    have htarget : ((g.setInLoop loopNode true).base loopNode).target = some next :=
      (congrFun (next_setInLoop g loopNode true) loopNode).trans hsucc
    unfold flagLoop
    dsimp only
    rw [htarget]
    dsimp only
    rcases hturn with ⟨hback, hflagged⟩ | ⟨hback, hrest⟩
    · rw [if_pos hback]
      exact hflagged
    · rw [if_neg hback]
      exact ih hrest

/-- A round that comes back needs no more turns. -/
theorem flagRound_succ {flagged : Nodes Shifter} {cycleStart : NodeRef} {turns : ℕ}
    {loopNode : NodeRef} (h : g.flagRound cycleStart turns loopNode = some flagged) :
    g.flagRound cycleStart (turns + 1) loopNode = some flagged := by
  induction turns generalizing g loopNode with
  | zero => cases h
  | succ turns ih =>
    obtain ⟨next, hsucc, hturn⟩ := flagRound_eq_some.mp h
    refine flagRound_eq_some.mpr ⟨next, hsucc, ?_⟩
    rcases hturn with hback | ⟨hback, hrest⟩
    · exact .inl hback
    · exact .inr ⟨hback, ih hrest⟩

/-- More turns do not change a result. -/
theorem detectAndFlagWithin_succ {flagged : Nodes Shifter} {turns : ℕ}
    {startNode : Option NodeRef} (h : g.detectAndFlagWithin turns startNode = some flagged) :
    g.detectAndFlagWithin (turns + 1) startNode = some flagged := by
  unfold detectAndFlagWithin at h ⊢
  obtain ⟨result, hrepeat, hflag⟩ := Option.bind_eq_some_iff.mp h
  rw [firstRepeat_succ hrepeat, Option.bind_eq_bind, Option.bind_some]
  cases result with
  | none => exact hflag
  | some cycleStart => exact flagRound_succ hflag

/-- With as many turns as there are nodes, both loops end, and the executor's
own is theirs. -/
theorem detectAndFlagWithin_spec {refs : List NodeRef} (hclosed : Closed g.next refs)
    {startNode : NodeRef} (hstart : startNode ∈ refs) {turns : ℕ} (hturns : refs.length ≤ turns) :
    ∃ flagged, g.detectAndFlagWithin turns (some startNode) = some flagged ∧
      g.detectAndFlagLoops turns (some startNode) = flagged ∧
      (∀ r, (flagged.base r).isInLoop = true ↔
        (g.base r).isInLoop = true ∨ g.InLoop startNode r) ∧
      ((∀ q, Reaches g.next startNode q → ¬OnCycle g.next q) → flagged = g) := by
  have hsearch := firstRepeat_spec hclosed hstart (Nat.lt_succ_of_le hturns)
  rcases hsearch with ⟨cycleStart, hrepeat, hreach, hcycle⟩ | ⟨hrepeat, hacyclic⟩
  · have hmem : cycleStart ∈ refs := by
      obtain ⟨n, hn⟩ := hreach
      exact hclosed.iterate_mem hstart hn
    obtain ⟨round, hround, hvertices⟩ := goRound_spec hclosed hmem hcycle hturns
    obtain ⟨flagged, hflagged, hiff⟩ := flagRound_of_goRound hround
    refine ⟨flagged, ?_, ?_, fun r => ?_, fun hacyclic => absurd hcycle (hacyclic _ hreach)⟩
    · simp only [detectAndFlagWithin, hrepeat, hflagged, Option.bind_eq_bind, Option.bind_some]
    · rw [detectAndFlagLoops, findCycle_of_firstRepeat hrepeat]
      exact flagLoop_of_flagRound hflagged
    · rw [hiff, InLoop]
      refine or_congr Iff.rfl (exists_congr fun q => ?_)
      rw [hvertices, ← and_assoc, reaches_onCycle_iff hcycle hreach]
  · refine ⟨g, ?_, ?_, fun r => ?_, fun _ => rfl⟩
    · simp only [detectAndFlagWithin, hrepeat, Option.bind_eq_bind, Option.bind_some]
      rfl
    · rw [detectAndFlagLoops, findCycle_of_firstRepeat hrepeat]
    · refine ⟨.inl, fun h => h.resolve_right ?_⟩
      rintro ⟨q, hreach, hcycle, -⟩
      exact hacyclic q hreach hcycle

end Flags

/-- On every finite graph `detect_and_flag_loops` ends and flags the nodes on
the cycle that the start node comes to and the inputs of the mixers among them.
Every other node keeps its flag, and without a cycle nothing changes. -/
theorem loops_flagged_exactly {g : Nodes Shifter} {refs : List NodeRef}
    (hclosed : Closed g.next refs) {startNode : NodeRef} (hstart : startNode ∈ refs) :
    ∃ flagged, (∀ turns, refs.length ≤ turns →
        g.detectAndFlagWithin turns (some startNode) = some flagged) ∧
      g.detectAndFlagLoops refs.length (some startNode) = flagged ∧
      Flagged g flagged ∧
      (∀ r, (flagged.base r).isInLoop = true ↔
        (g.base r).isInLoop = true ∨ g.InLoop startNode r) ∧
      ((∀ q, Reaches g.next startNode q → ¬OnCycle g.next q) → flagged = g) := by
  obtain ⟨flagged, hwithin, hloops, hiff, hacyclic⟩ :=
    detectAndFlagWithin_spec hclosed hstart (Nat.le_refl refs.length)
  refine ⟨flagged, fun turns hturns => ?_, hloops, ?_, hiff, hacyclic⟩
  · induction turns, hturns using Nat.le_induction with
    | base => exact hwithin
    | succ turns _ ih => exact detectAndFlagWithin_succ ih
  · rw [← hloops]
    exact flagged_detectAndFlagLoops g refs.length (some startNode)

/-- A delay that leads into a loop of a mixer with one input and a delay. -/
def mixerLoop : Nodes Unit where
  files := fun _ =>
    ⟨⟨"f", some (.mixer 0), 0, 0, 0, false⟩, "", "", none, none, none, (), ⟨.create, [], []⟩⟩
  mixers := fun _ => ⟨⟨"m", some (.delay 1), 0, 0, 0, false⟩, [0], List.replicate FRAME_SIZE_BYTES 0⟩
  delays := fun _ => ⟨⟨"d", some (.mixer 0), 0, 1, 0, false⟩⟩
  clients := fun _ => ⟨"c", none, 0, 0, 0, false⟩
  fileOptions := fun _ => ⟨⟨"o", none, 0, 0, 0, false⟩, 1, 1⟩

/-- The mixer's loop is closed. -/
theorem closed_mixerLoop : Closed mixerLoop.next [.delay 0, .mixer 0, .delay 1] := by
  intro r hr next hnext
  simp only [List.mem_cons, List.not_mem_nil, or_false] at hr
  rcases hr with rfl | rfl | rfl <;> cases hnext <;> simp

/-- The loop, and the file input that only the mixer leads to. -/
theorem loops_flagged_exactly_mixerLoop :
    ∃ flagged, (∀ turns, [NodeRef.delay 0, .mixer 0, .delay 1].length ≤ turns →
        mixerLoop.detectAndFlagWithin turns (some (.delay 0)) = some flagged) ∧
      mixerLoop.detectAndFlagLoops [NodeRef.delay 0, .mixer 0, .delay 1].length
        (some (.delay 0)) = flagged ∧
      Flagged mixerLoop flagged ∧
      (∀ r, (flagged.base r).isInLoop = true ↔
        (mixerLoop.base r).isInLoop = true ∨ mixerLoop.InLoop (.delay 0) r) ∧
      ((∀ q, Reaches mixerLoop.next (.delay 0) q → ¬OnCycle mixerLoop.next q) →
        flagged = mixerLoop) :=
  loops_flagged_exactly closed_mixerLoop (by decide)

end Nodes

end HermesFlow.Audio
