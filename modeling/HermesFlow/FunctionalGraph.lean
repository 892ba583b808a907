import Mathlib.Data.List.Basic
import Mathlib.Dynamics.PeriodicPts.Defs

/-!
# Graphs with one successor a vertex

A vertex has at most one successor, so the walk from it ends or goes round. The
search for the first vertex met again and the walk once round a cycle are given
bounded turns, and have no result when the turns run out or the walk ends.
-/

namespace HermesFlow.FunctionalGraph

open Function

variable {V : Type*} (next : V → Option V)

/-- One step of a walk; one that has ended stays so. -/
def step (v : Option V) : Option V := v.bind next

/-- The walk from `a` comes to `b`. -/
def Reaches (a b : V) : Prop := ∃ n, (step next)^[n] (some a) = some b

/-- The walk from the vertex comes back to it. -/
def OnCycle (a : V) : Prop := some a ∈ periodicPts (step next)

/-- The first vertex met again on a walk, if it does not end. -/
def firstRepeat [DecidableEq V] : ℕ → Option V → List V → Option (Option V)
  | _, none, _ => some none
  | 0, some _, _ => none
  | turns + 1, some a, visited =>
    if a ∈ visited then some (some a) else firstRepeat turns (next a) (a :: visited)

/-- The vertices from `a` up to the one before `start`. -/
def goRound [DecidableEq V] (start : V) : ℕ → V → Option (List V)
  | 0, _ => none
  | turns + 1, a =>
    match next a with
    | none => none
    | some b => if b = start then some [a] else (goRound start turns b).map (a :: ·)

/-- The vertices are finitely many, and successors are among them. -/
def Closed (vertices : List V) : Prop :=
  ∀ a ∈ vertices, ∀ b, next a = some b → b ∈ vertices

section Walks

variable {next : V → Option V} {a b c : V}

/-- The step from a vertex is to its successor. -/
@[simp] theorem step_some (a : V) : step next (some a) = next a := rfl

/-- There is no step from nowhere. -/
theorem step_none : step next none = none := rfl

/-- There is no walk from nowhere. -/
theorem iterate_none (n : ℕ) : (step next)^[n] none = none := iterate_fixed step_none n

/-- Every vertex reaches itself. -/
theorem Reaches.refl (a : V) : Reaches next a a := ⟨0, rfl⟩

/-- Reaching composes. -/
theorem Reaches.trans (h : Reaches next a b) (h' : Reaches next b c) : Reaches next a c := by
  obtain ⟨m, hm⟩ := h
  obtain ⟨n, hn⟩ := h'
  exact ⟨n + m, by rw [iterate_add_apply, hm, hn]⟩

/-- What the walk from a cycle comes to is on the cycle. -/
theorem OnCycle.of_reaches (h : OnCycle next a) (hreach : Reaches next a b) : OnCycle next b := by
  obtain ⟨p, hp, hperiod⟩ := h
  obtain ⟨n, hn⟩ := hreach
  refine ⟨p, hp, ?_⟩
  rw [← hn]
  exact hperiod.apply_iterate n

/-- A walk that comes to a cycle does not end. -/
theorem OnCycle.iterate_ne_none (h : OnCycle next b) (hreach : Reaches next a b) (n : ℕ) :
    (step next)^[n] (some a) ≠ none := by
  obtain ⟨p, hp, hperiod⟩ := h
  obtain ⟨m, hm⟩ := hreach
  intro hnone
  have hround : (step next)^[n * p + m] (some a) = some b := by
    rw [iterate_add_apply, hm]
    exact hperiod.const_mul n
  have hle : n ≤ n * p + m := by
    have hmul := Nat.le_mul_of_pos_right n hp
    omega
  obtain ⟨k, hk⟩ := Nat.exists_eq_add_of_le' hle
  rw [hk, iterate_add_apply, hnone, iterate_none] at hround
  cases hround

/-- A walk comes to one cycle at most: the vertices of a cycle on it are those
that a vertex of the cycle comes to. -/
theorem reaches_onCycle_iff (hcycle : OnCycle next c) (hreach : Reaches next a c) :
    Reaches next a b ∧ OnCycle next b ↔ Reaches next c b := by
  constructor
  · rintro ⟨⟨m, hm⟩, p, hp, hperiod⟩
    obtain ⟨k, hk⟩ := hreach
    rcases Nat.le_total k m with hle | hle
    · obtain ⟨d, rfl⟩ := Nat.exists_eq_add_of_le' hle
      rw [iterate_add_apply, hk] at hm
      exact ⟨d, hm⟩
    · -- `b` comes first, and then the cycle leads back to it
      obtain ⟨d, rfl⟩ := Nat.exists_eq_add_of_le' hle
      rw [iterate_add_apply, hm] at hk
      have hmul := Nat.le_mul_of_pos_right d hp
      refine ⟨d * p - d, ?_⟩
      rw [← hk, ← iterate_add_apply, Nat.sub_add_cancel hmul]
      exact hperiod.const_mul d
  · intro hb
    exact ⟨hreach.trans hb, hcycle.of_reaches hb⟩

/-- The walk stays among the vertices. -/
theorem Closed.iterate_mem {vertices : List V} (hclosed : Closed next vertices)
    (ha : a ∈ vertices) {n : ℕ} (h : (step next)^[n] (some a) = some b) : b ∈ vertices := by
  induction n generalizing b with
  | zero => exact Option.some.inj h ▸ ha
  | succ n ih =>
    rw [iterate_succ_apply'] at h
    obtain ⟨d, hd, hnext⟩ := Option.bind_eq_some_iff.mp h
    exact hclosed d (ih hd) b hnext

/-- A cycle is no longer than the vertices are many. -/
theorem minimalPeriod_le_length {vertices : List V} (hclosed : Closed next vertices)
    (hc : c ∈ vertices)
    (hcycle : OnCycle next c) : minimalPeriod (step next) (some c) ≤ vertices.length := by
  have hmem : ∀ j, ∃ v ∈ vertices, (step next)^[j] (some c) = some v := by
    intro j
    obtain ⟨v, hv⟩ := Option.ne_none_iff_exists'.mp (hcycle.iterate_ne_none (Reaches.refl c) j)
    exact ⟨v, hclosed.iterate_mem hc hv, hv⟩
  choose vertex hvertex hiterate using hmem
  have hinj : ((List.range (minimalPeriod (step next) (some c))).map vertex).Nodup := by
    rw [List.nodup_map_iff_inj_on List.nodup_range]
    intro i hi j hj hij
    rw [List.mem_range] at hi hj
    refine (iterate_eq_iterate_iff_of_lt_minimalPeriod hi hj).mp ?_
    rw [hiterate, hiterate, hij]
  have hsubset : (List.range (minimalPeriod (step next) (some c))).map vertex ⊆ vertices := by
    intro v hv
    obtain ⟨j, -, rfl⟩ := List.mem_map.mp hv
    exact hvertex j
  have hle := (List.subperm_of_subset hinj hsubset).length_le
  rwa [List.length_map, List.length_range] at hle

/-- The walk along the vertices of `lead`, which goes round `cycle` from then on. -/
structure Lasso (next : V → Option V) (lead cycle : List V) : Prop where
  /-- The cycle has a vertex. -/
  nonempty : cycle ≠ []
  /-- Each vertex leads to the one after it, and the last one back to the cycle. -/
  leads : ∀ before v after, lead ++ cycle = before ++ v :: after →
    next v = (after ++ cycle).head?

namespace Lasso

variable {lead cycle : List V}

/-- What is left of the walk after some of its vertices. -/
theorem drop {skipped : List V} (h : Lasso next (skipped ++ lead) cycle) :
    Lasso next lead cycle where
  nonempty := h.nonempty
  leads := fun before v after hsplit =>
    h.leads (skipped ++ before) v after (by rw [List.append_assoc, hsplit, List.append_assoc])

/-- The vertices of a lasso are closed under the successor. -/
theorem closed (h : Lasso next lead cycle) : Closed next (lead ++ cycle) := by
  intro v hv w hw
  obtain ⟨before, after, hsplit⟩ := List.append_of_mem hv
  rw [h.leads before v after hsplit] at hw
  rcases List.mem_append.mp (List.mem_of_head? hw) with hafter | hcycle
  · rw [hsplit]
    exact List.mem_append_right _ (List.mem_cons_of_mem _ hafter)
  · exact List.mem_append_right _ hcycle

/-- The walk to one of the vertices. -/
theorem iterate (h : Lasso next lead cycle) {before after : List V} {v : V}
    (hsplit : lead ++ cycle = before ++ v :: after) :
    (step next)^[before.length] (lead ++ cycle).head? = some v := by
  induction before using List.reverseRecOn generalizing v after with
  | nil => rw [hsplit]; rfl
  | append_singleton before u ih =>
    rw [List.append_assoc, List.singleton_append] at hsplit
    rw [List.length_append, List.length_singleton, iterate_succ_apply', ih hsplit, step_some,
      h.leads before u (v :: after) hsplit]
    rfl

/-- The walk from the first vertex comes to each of them. -/
theorem reaches (h : Lasso next lead cycle) {start v : V} (hstart : (lead ++ cycle).head? = some start)
    (hv : v ∈ lead ++ cycle) : Reaches next start v := by
  obtain ⟨before, after, hsplit⟩ := List.append_of_mem hv
  exact ⟨before.length, hstart ▸ h.iterate hsplit⟩

/-- The vertices of the cycle are on a cycle. -/
theorem onCycle (h : Lasso next lead cycle) {v : V} (hv : v ∈ cycle) : OnCycle next v := by
  have hround : Lasso next [] cycle := @drop _ _ [] cycle lead (by rwa [List.append_nil])
  obtain ⟨before, last, hlast⟩ := (List.eq_nil_or_concat cycle).resolve_left h.nonempty
  obtain ⟨first, rest, hfirst⟩ := List.exists_cons_of_ne_nil h.nonempty
  have hhead : ([] ++ cycle).head? = some first := by rw [hfirst]; rfl
  have hsplit : [] ++ cycle = before ++ last :: [] := by simpa using hlast
  have hwalk := hround.iterate hsplit
  have hback : IsPeriodicPt (step next) (before.length + 1) (some first) := by
    rw [IsPeriodicPt, IsFixedPt, iterate_succ_apply', ← hhead, hwalk, step_some,
      hround.leads before last [] hsplit]
  exact OnCycle.of_reaches ⟨_, Nat.succ_pos _, hback⟩ (hround.reaches hhead hv)

end Lasso

end Walks

section Search

variable {next : V → Option V} [DecidableEq V] {a c : V} {vertices : List V}

/-- A vertex that is met again is on a cycle, and the walk comes to it. -/
theorem firstRepeat_some {turns n : ℕ} {curr : Option V} {visited : List V}
    (hcurr : (step next)^[n] (some a) = curr)
    (hvisited : ∀ v ∈ visited, ∃ k, 0 < k ∧ (step next)^[k] (some v) = curr)
    (h : firstRepeat next turns curr visited = some (some c)) :
    Reaches next a c ∧ OnCycle next c := by
  induction turns generalizing n curr visited with
  | zero => cases curr <;> cases h
  | succ turns ih =>
    cases curr with
    | none => cases h
    | some v =>
      rw [firstRepeat] at h
      split at h
      · rename_i hmem
        cases h
        obtain ⟨k, hk, hround⟩ := hvisited c hmem
        exact ⟨⟨n, hcurr⟩, k, hk, hround⟩
      · refine ih (n := n + 1) ?_ ?_ h
        · rw [iterate_succ_apply', hcurr, step_some]
        · intro w hw
          rcases List.mem_cons.mp hw with rfl | hbefore
          · exact ⟨1, Nat.one_pos, rfl⟩
          · obtain ⟨k, -, hk⟩ := hvisited w hbefore
            exact ⟨k + 1, Nat.succ_pos k, by rw [iterate_succ_apply', hk, step_some]⟩

/-- A search that finds no vertex has come to the end of the walk. -/
theorem firstRepeat_none {turns n : ℕ} {curr : Option V} {visited : List V}
    (hcurr : (step next)^[n] (some a) = curr)
    (h : firstRepeat next turns curr visited = some none) :
    ∃ n, (step next)^[n] (some a) = none := by
  induction turns generalizing n curr visited with
  | zero =>
    cases curr with
    | none => exact ⟨n, hcurr⟩
    | some v => cases h
  | succ turns ih =>
    cases curr with
    | none => exact ⟨n, hcurr⟩
    | some v =>
      rw [firstRepeat] at h
      split at h
      · cases h
      · exact ih (n := n + 1) (by rw [iterate_succ_apply', hcurr, step_some]) h

/-- More turns do not change a result. -/
theorem firstRepeat_succ {turns : ℕ} {curr : Option V} {visited : List V} {result : Option V}
    (h : firstRepeat next turns curr visited = some result) :
    firstRepeat next (turns + 1) curr visited = some result := by
  induction turns generalizing curr visited with
  | zero =>
    cases curr with
    | none => exact h
    | some v => cases h
  | succ turns ih =>
    cases curr with
    | none => exact h
    | some v =>
      rw [firstRepeat] at h ⊢
      by_cases hmem : v ∈ visited
      · rw [if_pos hmem] at h ⊢
        exact h
      · rw [if_neg hmem] at h ⊢
        exact ih h

/-- With more turns than there are vertices left, the search has a result. -/
theorem firstRepeat_isSome (hclosed : Closed next vertices) {turns : ℕ} {curr : Option V}
    {visited : List V} (hcurr : ∀ v ∈ curr, v ∈ vertices) (hnodup : visited.Nodup)
    (hsubset : visited ⊆ vertices) (hturns : vertices.length < turns + visited.length) :
    (firstRepeat next turns curr visited).isSome := by
  induction turns generalizing curr visited with
  | zero =>
    have hle := (List.subperm_of_subset hnodup hsubset).length_le
    omega
  | succ turns ih =>
    cases curr with
    | none => rfl
    | some v =>
      rw [firstRepeat]
      split
      · rfl
      · rename_i hnew
        have hv := hcurr v rfl
        refine ih (fun w hw => hclosed v hv w hw) (List.nodup_cons.mpr ⟨hnew, hnodup⟩)
          (List.cons_subset.mpr ⟨hv, hsubset⟩) ?_
        rw [List.length_cons]
        omega

/-- The search from a vertex of a finite graph has a result: a vertex on the
cycle that the walk comes to, or the end of a walk that comes to none. -/
theorem firstRepeat_spec (hclosed : Closed next vertices) (ha : a ∈ vertices) {turns : ℕ}
    (hturns : vertices.length < turns) :
    (∃ c, firstRepeat next turns (some a) [] = some (some c) ∧ Reaches next a c ∧
        OnCycle next c) ∨
      (firstRepeat next turns (some a) [] = some none ∧
        ∀ b, Reaches next a b → ¬OnCycle next b) := by
  have hsome : (firstRepeat next turns (some a) []).isSome :=
    firstRepeat_isSome hclosed (fun v hv => Option.some.inj hv ▸ ha) List.nodup_nil
      (List.nil_subset vertices) hturns
  obtain ⟨result, hresult⟩ := Option.isSome_iff_exists.mp hsome
  cases result with
  | none =>
    right
    refine ⟨hresult, fun b hreach hcycle => ?_⟩
    obtain ⟨n, hn⟩ := firstRepeat_none (n := 0) rfl hresult
    exact hcycle.iterate_ne_none hreach n hn
  | some c =>
    left
    have hvisited : ∀ v ∈ ([] : List V), ∃ k, 0 < k ∧ (step next)^[k] (some v) = some a :=
      fun v hv => absurd hv List.not_mem_nil
    exact ⟨c, hresult, firstRepeat_some (n := 0) rfl hvisited hresult⟩

end Search

section Round

variable {next : V → Option V} [DecidableEq V] {c : V} {vertices : List V}

/-- The walk from a place on the cycle to its end. -/
theorem goRound_from (hcycle : OnCycle next c) {turns i : ℕ} {a : V}
    (hi : i < minimalPeriod (step next) (some c)) (ha : (step next)^[i] (some c) = some a)
    (hturns : minimalPeriod (step next) (some c) ≤ turns + i) :
    ∃ round, goRound next c turns a = some round ∧
      ∀ b, b ∈ round ↔ ∃ j, i ≤ j ∧ j < minimalPeriod (step next) (some c) ∧
        (step next)^[j] (some c) = some b := by
  induction turns generalizing i a with
  | zero => omega
  | succ turns ih =>
    have hsucc : (step next)^[i + 1] (some c) = next a := by
      rw [iterate_succ_apply', ha, step_some]
    have hhere : ∀ b, (step next)^[i] (some c) = some b ↔ b = a := by
      intro b
      rw [ha, Option.some_inj, eq_comm]
    rw [goRound]
    cases hnext : next a with
    | none =>
      rw [hnext] at hsucc
      exact absurd hsucc (hcycle.iterate_ne_none (Reaches.refl c) (i + 1))
    | some b =>
      rw [hnext] at hsucc
      dsimp only
      by_cases hback : b = c
      · -- the walk is back, so the period is over
        rw [if_pos hback]
        have hle := IsPeriodicPt.minimalPeriod_le (Nat.succ_pos i)
          (show IsPeriodicPt (step next) (i + 1) (some c) from hback ▸ hsucc)
        refine ⟨[a], rfl, fun v => ?_⟩
        rw [List.mem_singleton, ← hhere]
        constructor
        · intro hv
          exact ⟨i, Nat.le_refl i, hi, hv⟩
        · rintro ⟨j, hij, hj, hv⟩
          have hlast : j = i := by omega
          rwa [hlast] at hv
      · rw [if_neg hback]
        have hnot : i + 1 ≠ minimalPeriod (step next) (some c) := by
          intro hlast
          rw [hlast, iterate_minimalPeriod] at hsucc
          exact hback (Option.some.inj hsucc).symm
        obtain ⟨round, hround, hmem⟩ := ih (i := i + 1) (by omega) hsucc (by omega)
        refine ⟨a :: round, by rw [hround, Option.map_some], fun v => ?_⟩
        rw [List.mem_cons, hmem, ← hhere]
        constructor
        · rintro (hv | ⟨j, hij, hj, hv⟩)
          · exact ⟨i, Nat.le_refl i, hi, hv⟩
          · exact ⟨j, by omega, hj, hv⟩
        · rintro ⟨j, hij, hj, hv⟩
          rcases Nat.eq_or_lt_of_le hij with rfl | hlt
          · exact .inl hv
          · exact .inr ⟨j, hlt, hj, hv⟩

/-- The walk once round a cycle has a result: the vertices of the cycle. -/
theorem goRound_spec (hclosed : Closed next vertices) (hc : c ∈ vertices)
    (hcycle : OnCycle next c) {turns : ℕ} (hturns : vertices.length ≤ turns) :
    ∃ round, goRound next c turns c = some round ∧ ∀ b, b ∈ round ↔ Reaches next c b := by
  have hperiod := minimalPeriod_le_length hclosed hc hcycle
  have hpos := minimalPeriod_pos_of_mem_periodicPts hcycle
  have hturns' : minimalPeriod (step next) (some c) ≤ turns + 0 := by omega
  obtain ⟨round, hround, hmem⟩ := goRound_from hcycle hpos rfl hturns'
  refine ⟨round, hround, fun b => ?_⟩
  rw [hmem]
  constructor
  · rintro ⟨j, -, -, hj⟩
    exact ⟨j, hj⟩
  · rintro ⟨n, hn⟩
    refine ⟨n % minimalPeriod (step next) (some c), Nat.zero_le _, Nat.mod_lt n hpos, ?_⟩
    rw [iterate_mod_minimalPeriod_eq, hn]

end Round

end HermesFlow.FunctionalGraph
