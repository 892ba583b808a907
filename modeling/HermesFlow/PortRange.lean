import HermesFlow.ActiveSessions
import HermesFlow.BoundedLoop

/-!
# The port list

The constructor of the registry pushes the ports from `port_start` to `port_end`. The
counter of its loop is as wide as the bound, so it passes every bound but the largest
port: behind that it wraps to 0.
-/

namespace HermesFlow.ActiveSessions

open BoundedLoop

/-- The constructor, with fuel for the tests of its loop. -/
def construct (fuel : ℕ) (portStart portEnd : Port) (pool : IoContextPool) : Option State :=
  (fillWebrtcPorts fuel portStart portEnd).map fun ports => initial ports pool

/-- The ports of the range, ascending and each once. -/
structure FilledExactly (portStart portEnd : Port) (ports : List Port) : Prop where
  /-- A port is in the list exactly when it is in the range. -/
  mem_iff : ∀ p, p ∈ ports ↔ portStart ≤ p ∧ p ≤ portEnd
  /-- The ports ascend. -/
  ascending : ports.Pairwise (· < ·)
  /-- An empty range gives no port. -/
  empty : portEnd < portStart → ports = []

/-- The counter and the ports that have been pushed. -/
structure Filling (portStart portEnd p : Port) (pushed : List Port) : Prop where
  /-- The counter is in the range. -/
  start_le : portStart ≤ p
  /-- The ports pushed are those below the counter. -/
  mem_iff : ∀ q, q ∈ pushed ↔ portStart ≤ q ∧ q < p
  /-- None is behind the end. -/
  le_end : ∀ q ∈ pushed, q ≤ portEnd
  /-- They ascend. -/
  ascending : pushed.Pairwise (· < ·)

/-- The test of the loop. -/
def fillTest (portEnd : Port) (s : Port × List Port) : Bool := s.1 ≤ portEnd

/-- Its body and its increment. -/
def fillTurn (s : Port × List Port) : Port × List Port := (s.1 + 1, s.2 ++ [s.1])

/-- The recursion is the loop. -/
theorem fillWebrtcPorts_eq_whileLoop (fuel : ℕ) (portEnd p : Port) (pushed : List Port) :
    (fillWebrtcPorts fuel p portEnd).map (pushed ++ ·) =
      (whileLoop (fillTest portEnd) fillTurn fuel (p, pushed)).toOption.map Prod.snd := by
  induction fuel generalizing p pushed with
  | zero => rfl
  | succ fuel ih =>
    rw [fillWebrtcPorts, whileLoop, fillTest]
    by_cases hle : p ≤ portEnd
    · rw [if_pos hle, if_pos (decide_eq_true hle), fillTurn, ← ih, Option.map_map]
      congr 1
      funext ports
      exact (List.append_assoc pushed [p] ports).symm
    · rw [if_neg hle, if_neg (by simpa using hle)]
      exact congrArg some (List.append_nil pushed)

section Fill

variable {portStart portEnd p : Port} {pushed : List Port} {fuel : ℕ}

/-- Below the largest port the increment does not wrap. -/
theorem toNat_next (hend : portEnd ≠ 65535) (hle : p ≤ portEnd) : (p + 1).toNat = p.toNat + 1 := by
  have hlt := portEnd.toNat_lt
  have hne : portEnd.toNat ≠ 65535 := fun hmax => hend (UInt16.toNat_inj.mp hmax)
  have hple := UInt16.le_iff_toNat_le.mp hle
  rw [UInt16.toNat_add]
  simp only [UInt16.reduceToNat]
  omega

/-- A turn pushes the counter. -/
theorem Filling.turn (h : Filling portStart portEnd p pushed) (hend : portEnd ≠ 65535)
    (hle : p ≤ portEnd) : Filling portStart portEnd (p + 1) (pushed ++ [p]) := by
  have hnext := toNat_next hend hle
  have hlt {q : Port} : q < p + 1 ↔ q ≤ p := by
    rw [UInt16.lt_iff_toNat_lt, UInt16.le_iff_toNat_le, hnext, Nat.lt_succ_iff]
  refine ⟨?_, fun q => ?_, fun q hq => ?_, ?_⟩
  · exact UInt16.le_of_lt (hlt.mpr h.start_le)
  · rw [List.mem_append, List.mem_singleton, h.mem_iff, hlt]
    constructor
    · rintro (⟨hstart, hq⟩ | rfl)
      · exact ⟨hstart, UInt16.le_of_lt hq⟩
      · exact ⟨h.start_le, UInt16.le_refl q⟩
    · rintro ⟨hstart, hq⟩
      rcases UInt16.lt_or_eq_of_le hq with hq | rfl
      · exact .inl ⟨hstart, hq⟩
      · exact .inr rfl
  · rcases List.mem_append.mp hq with hq | hq
    · exact h.le_end q hq
    · exact List.mem_singleton.mp hq ▸ hle
  · refine List.pairwise_append.mpr ⟨h.ascending, List.pairwise_singleton _ _, fun q hq r hr => ?_⟩
    rw [List.mem_singleton.mp hr]
    exact ((h.mem_iff q).mp hq).2

/-- Behind the end of the range the list is filled. -/
theorem Filling.filledExactly (h : Filling portStart portEnd p pushed) (hp : portEnd < p) :
    FilledExactly portStart portEnd pushed where
  mem_iff q := by
    constructor
    · exact fun hq => ⟨((h.mem_iff q).mp hq).1, h.le_end q hq⟩
    · exact fun hq => (h.mem_iff q).mpr ⟨hq.1, UInt16.lt_of_le_of_lt hq.2 hp⟩
  ascending := h.ascending
  empty hempty := by
    refine List.eq_nil_iff_forall_not_mem.mpr fun q hq => ?_
    have hq' := ((h.mem_iff q).mp hq).1
    exact absurd (UInt16.lt_of_le_of_lt (h.le_end q hq) hempty) (UInt16.not_lt.mpr hq')

/-- Nothing is pushed at the start. -/
theorem filling_start (portStart portEnd : Port) : Filling portStart portEnd portStart [] where
  start_le := UInt16.le_refl _
  mem_iff q := by
    refine iff_of_false List.not_mem_nil ?_
    rintro ⟨hstart, hq⟩
    exact absurd hq (UInt16.not_lt.mpr hstart)
  le_end _ hq := absurd hq List.not_mem_nil
  ascending := .nil

/-- The list is what the loop pushes. -/
theorem fillWebrtcPorts_eq (fuel : ℕ) (portStart portEnd : Port) :
    fillWebrtcPorts fuel portStart portEnd =
      (whileLoop (fillTest portEnd) fillTurn fuel (portStart, [])).toOption.map Prod.snd := by
  rw [← fillWebrtcPorts_eq_whileLoop]
  exact Option.map_id'.symm

/-- Up to a bound below the largest port the loop ends, by at most one turn for each port. -/
theorem runs_fill (hend : portEnd ≠ 65535) :
    Runs (fuel ≤ portEnd.toNat + 1 - portStart.toNat)
      (fun s => FilledExactly portStart portEnd s.2)
      (whileLoop (fillTest portEnd) fillTurn fuel (portStart, [])) := by
  refine (runs_whileLoop (I := fun s : Port × List Port => Filling portStart portEnd s.1 s.2)
    (fun s => portEnd.toNat + 1 - s.1.toNat) (fun s hs htest => ?_) (x := (portStart, []))
    (filling_start portStart portEnd) id).mono fun s hs => ?_
  · have hle : s.1 ≤ portEnd := of_decide_eq_true htest
    refine ⟨hs.turn hend hle, ?_⟩
    have hnext := toNat_next hend hle
    have hple := UInt16.le_iff_toNat_le.mp hle
    change portEnd.toNat + 1 - (s.1 + 1).toNat < _
    omega
  · obtain ⟨hfilling, hstop⟩ := hs
    exact hfilling.filledExactly (UInt16.not_le.mp (of_decide_eq_false hstop))

/-- Up to the largest port it never ends: every counter passes the test. -/
theorem fillWebrtcPorts_max (fuel : ℕ) (p : Port) : fillWebrtcPorts fuel p 65535 = none := by
  rw [fillWebrtcPorts_eq, whileLoop_running (I := fun _ => True) (fun s _ => ⟨?_, trivial⟩) trivial]
  · rfl
  · have hlt := s.1.toNat_lt
    refine decide_eq_true (UInt16.le_iff_toNat_le.mpr ?_)
    simp only [UInt16.reduceToNat]
    omega

/-- A list that is filled is the range. -/
theorem fillWebrtcPorts_exact {ports : List Port}
    (h : fillWebrtcPorts fuel portStart portEnd = some ports) :
    FilledExactly portStart portEnd ports := by
  have hend : portEnd ≠ 65535 := by
    rintro rfl
    rw [fillWebrtcPorts_max] at h
    cases h
  rw [fillWebrtcPorts_eq] at h
  obtain ⟨s, hs, rfl⟩ := Option.map_eq_some_iff.mp h
  cases hrun : whileLoop (fillTest portEnd) fillTurn fuel (portStart, []) with
  | error fault =>
    rw [hrun] at hs
    cases hs
  | ok s' =>
    rw [hrun] at hs
    obtain rfl := Option.some.inj hs
    exact (runs_fill hend).of_ok hrun

/-- It has each port once. -/
theorem fillWebrtcPorts_nodup {ports : List Port}
    (h : fillWebrtcPorts fuel portStart portEnd = some ports) : ports.Nodup :=
  (fillWebrtcPorts_exact h).ascending.imp UInt16.ne_of_lt

end Fill

/-- The constructor ends with the ports of the range exactly when the range does not end
at the largest port. -/
theorem construct_fills_iff (portStart portEnd : Port) (pool : IoContextPool) :
    (∃ bound st, (∀ fuel ≥ bound, construct fuel portStart portEnd pool = some st) ∧
      FilledExactly portStart portEnd st.availableWebrtcPorts) ↔ portEnd ≠ 65535 := by
  constructor
  · rintro ⟨bound, st, hrun, -⟩ rfl
    have hnone : construct bound portStart 65535 pool = none := by
      rw [construct, fillWebrtcPorts_max, Option.map_none]
    rw [hrun bound le_rfl] at hnone
    cases hnone
  · intro hend
    obtain ⟨s, hs, hfilled⟩ := (runs_fill hend).result
      (Nat.not_succ_le_self (portEnd.toNat + 1 - portStart.toNat))
    refine ⟨portEnd.toNat + 1 - portStart.toNat + 1, initial s.2 pool, fun fuel hfuel => ?_, hfilled⟩
    rw [construct, fillWebrtcPorts_eq, whileLoop_of_le hfuel hs]
    rfl

/-- A range up to the largest port: the constructor is still running after any number of
tests. -/
theorem construct_running : (∀ fuel, construct fuel 10000 65535 ⟨1, 0⟩ = none) ∧
    ¬ ∀ (portStart portEnd : Port) (pool : IoContextPool),
      ∃ bound st, (∀ fuel ≥ bound, construct fuel portStart portEnd pool = some st) ∧
        FilledExactly portStart portEnd st.availableWebrtcPorts := by
  have hnone (fuel : ℕ) : construct fuel 10000 65535 ⟨1, 0⟩ = none := by
    rw [construct, fillWebrtcPorts_max, Option.map_none]
  refine ⟨hnone, fun h => ?_⟩
  obtain ⟨bound, st, hrun, -⟩ := h 10000 65535 ⟨1, 0⟩
  have hsome := hrun bound le_rfl
  rw [hnone] at hsome
  cases hsome

end HermesFlow.ActiveSessions
