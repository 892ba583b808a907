import Mathlib.Data.List.Basic
import Mathlib.Data.List.Infix

/-!
# Runs of event-driven machines

A machine is a partial step function on states and events; a disabled event
has no result. Nondeterminism, such as the order in which several threads
take their steps, is the choice of the event list. Invariants of guarded
runs, exact guards and event budgets are proved here once, for every machine.
-/

namespace HermesFlow.EventRun

variable {σ ε : Type*}

/-- One party of a list moves: what the list holds afterwards. -/
theorem getElem?_set_cases {ι : Type*} {parties : List ι} {i j : ℕ} {moved other : ι}
    (h : (parties.set i moved)[j]? = some other) :
    j = i ∧ other = moved ∨ j ≠ i ∧ parties[j]? = some other := by
  rw [List.getElem?_set] at h
  split at h
  · rename_i hij
    split at h
    · exact .inl ⟨hij.symm, (Option.some.inj h).symm⟩
    · cases h
  · rename_i hij
    exact .inr ⟨Ne.symm hij, h⟩

/-- Take the events in order; one disabled event leaves no run. -/
def runEvents (step : σ → ε → Option σ) : σ → List ε → Option σ
  | s, [] => some s
  | s, e :: es => (step s e).bind fun s' => runEvents step s' es

/-- Every step taken along the events starts in a state that meets the guard. -/
def Meets (step : σ → ε → Option σ) (ok : σ → ε → Prop) : σ → List ε → Prop
  | _, [] => True
  | s, e :: es => ok s e ∧ ∀ s' ∈ step s e, Meets step ok s' es

instance decidableMeets {step : σ → ε → Option σ} {ok : σ → ε → Prop}
    [∀ s e, Decidable (ok s e)] : ∀ (s : σ) (es : List ε), Decidable (Meets step ok s es)
  | _, [] => isTrue trivial
  | s, e :: es =>
    match h : step s e with
    | none => decidable_of_iff (ok s e) (by simp [Meets, h])
    | some s' =>
      have : Decidable (Meets step ok s' es) := decidableMeets s' es
      decidable_of_iff (ok s e ∧ Meets step ok s' es) (by simp [Meets, h])

/-- What the steps of a run report, in order. -/
def runLog {α : Type*} (step : σ → ε → Option σ) (report : σ → ε → List α) : σ → List ε → List α
  | _, [] => []
  | s, e :: es => report s e ++ ((step s e).map fun s' => runLog step report s' es).getD []

section Runs

variable {step : σ → ε → Option σ} {ok : σ → ε → Prop}

/-- No events leave the state as it is. -/
@[simp] theorem runEvents_nil (s : σ) : runEvents step s [] = some s := rfl

/-- A run starts with a step. -/
theorem runEvents_cons_iff {s t : σ} {e : ε} {es : List ε} :
    runEvents step s (e :: es) = some t ↔
      ∃ s', step s e = some s' ∧ runEvents step s' es = some t := by
  simp only [runEvents, Option.bind_eq_some_iff]

/-- A run over appended events is a run to a middle state and one from there. -/
theorem runEvents_append_iff {s t : σ} {es fs : List ε} :
    runEvents step s (es ++ fs) = some t ↔
      ∃ m, runEvents step s es = some m ∧ runEvents step m fs = some t := by
  induction es generalizing s with
  | nil => simp only [List.nil_append, runEvents_nil, Option.some.injEq, exists_eq_left']
  | cons e es ih =>
    simp only [List.cons_append, runEvents_cons_iff, ih]
    constructor
    · rintro ⟨s', hs, m, hm, ht⟩
      exact ⟨m, ⟨s', hs, hm⟩, ht⟩
    · rintro ⟨m, ⟨s', hs, hm⟩, ht⟩
      exact ⟨s', hs, m, hm, ht⟩

/-- A run can be lengthened by a step. -/
theorem runEvents_snoc {s m t : σ} {es : List ε} {e : ε}
    (hrun : runEvents step s es = some m) (hstep : step m e = some t) :
    runEvents step s (es ++ [e]) = some t :=
  runEvents_append_iff.mpr ⟨m, hrun, runEvents_cons_iff.mpr ⟨t, hstep, rfl⟩⟩

/-- Each guard met along appended events is met along both parts. -/
theorem meets_append_iff {s : σ} {es fs : List ε} :
    Meets step ok s (es ++ fs) ↔
      Meets step ok s es ∧ ∀ m, runEvents step s es = some m → Meets step ok m fs := by
  induction es generalizing s with
  | nil => simp [Meets]
  | cons e es ih =>
    simp only [List.cons_append, Meets, ih, runEvents_cons_iff, Option.mem_def]
    constructor
    · rintro ⟨hok, hrest⟩
      exact ⟨⟨hok, fun s' hs => (hrest s' hs).1⟩, fun m ⟨s', hs, hm⟩ => (hrest s' hs).2 m hm⟩
    · rintro ⟨⟨hok, hfirst⟩, hsecond⟩
      exact ⟨hok, fun s' hs => ⟨hfirst s' hs, fun m hm => hsecond m ⟨s', hs, hm⟩⟩⟩

/-- A condition that always holds is met by every run. -/
theorem meets_of_forall (h : ∀ s e, ok s e) (s : σ) (es : List ε) : Meets step ok s es := by
  induction es generalizing s with
  | nil => trivial
  | cons e es ih => exact ⟨h s e, fun s' _ => ih s'⟩

/-- A guard that an invariant of every step implies is met by every run. -/
theorem meets_of_invariant {I : σ → Prop} (hinv : ∀ s e s', I s → step s e = some s' → I s')
    (hok : ∀ s e, I s → ok s e) {s : σ} (hs : I s) (es : List ε) : Meets step ok s es := by
  induction es generalizing s with
  | nil => trivial
  | cons e es ih => exact ⟨hok s e hs, fun s' hs' => ih (hinv s e s' hs hs')⟩

/-- A guard that a kept invariant turns into another one. -/
theorem Meets.mono {I : σ → Prop} {ok' : σ → ε → Prop}
    (hinv : ∀ s e s', I s → ok s e → step s e = some s' → I s')
    (himp : ∀ s e, I s → ok s e → ok' s e) {s : σ} {es : List ε} (hs : I s)
    (hmeets : Meets step ok s es) : Meets step ok' s es := by
  induction es generalizing s with
  | nil => trivial
  | cons e es ih =>
    refine ⟨himp s e hs hmeets.1, fun s' hs' => ?_⟩
    exact ih (hinv s e s' hs hmeets.1 hs') (hmeets.2 s' hs')

/-- A guard that reads the event alone holds along a run of events that pass it. -/
theorem meets_of_events {p : ε → Prop} {es : List ε} (h : ∀ e ∈ es, p e) (s : σ) :
    Meets step (fun _ e => p e) s es := by
  induction es generalizing s with
  | nil => trivial
  | cons e es ih =>
    exact ⟨h e List.mem_cons_self, fun s' _ => ih (fun d hd => h d (List.mem_cons_of_mem _ hd)) s'⟩

/-- Along a run such a guard is met by all events or not at all. -/
theorem meets_events_iff {p : ε → Prop} {s t : σ} {es : List ε}
    (hrun : runEvents step s es = some t) : Meets step (fun _ e => p e) s es ↔ ∀ e ∈ es, p e := by
  refine ⟨fun h => ?_, fun h => meets_of_events h s⟩
  induction es generalizing s with
  | nil => exact fun _ he => absurd he List.not_mem_nil
  | cons e es ih =>
    obtain ⟨s', hs', ht⟩ := runEvents_cons_iff.mp hrun
    exact List.forall_mem_cons.mpr ⟨h.1, ih ht (h.2 s' hs')⟩

/-- A run that meets two conditions meets both at once. -/
theorem Meets.and {ok' : σ → ε → Prop} {s : σ} {es : List ε} (h : Meets step ok s es)
    (h' : Meets step ok' s es) : Meets step (fun s e => ok s e ∧ ok' s e) s es := by
  induction es generalizing s with
  | nil => trivial
  | cons e es ih => exact ⟨⟨h.1, h'.1⟩, fun s' hs => ih (h.2 s' hs) (h'.2 s' hs)⟩

/-- What every guarded step preserves holds in the state a guarded run reaches. -/
theorem run_invariant {I : σ → Prop}
    (hstep : ∀ s e s', I s → ok s e → step s e = some s' → I s')
    {s t : σ} {es : List ε} (hs : I s) (hmeets : Meets step ok s es)
    (hrun : runEvents step s es = some t) : I t := by
  induction es generalizing s with
  | nil => cases hrun; exact hs
  | cons e es ih =>
    obtain ⟨s', hs', ht⟩ := runEvents_cons_iff.mp hrun
    exact ih (hstep s e s' hs hmeets.1 hs') (hmeets.2 s' hs') ht

/-- The invariant rule for a state and the log of the run that led to it. -/
theorem run_log_invariant {α : Type*} {report : σ → ε → List α} {I : List α → σ → Prop}
    (hstep : ∀ log s e s', I log s → ok s e → step s e = some s' → I (log ++ report s e) s')
    {log : List α} {s t : σ} {es : List ε} (hs : I log s) (hmeets : Meets step ok s es)
    (hrun : runEvents step s es = some t) : I (log ++ runLog step report s es) t := by
  induction es generalizing s log with
  | nil =>
    cases hrun
    rw [runLog, List.append_nil]
    exact hs
  | cons e es ih =>
    obtain ⟨s', hs', ht⟩ := runEvents_cons_iff.mp hrun
    have hrest := ih (hstep log s e s' hs hmeets.1 hs') (hmeets.2 s' hs') ht
    rw [runLog, hs', Option.map_some, Option.getD_some, ← List.append_assoc]
    exact hrest

/-- A run that reports its events reports the list of them. -/
theorem runLog_events {s t : σ} {es : List ε} (hrun : runEvents step s es = some t) :
    runLog step (fun _ e => [e]) s es = es := by
  induction es generalizing s with
  | nil => rfl
  | cons e es ih =>
    obtain ⟨s', hs', ht⟩ := runEvents_cons_iff.mp hrun
    rw [runLog, hs', Option.map_some, Option.getD_some, ih ht, List.singleton_append]

/-- The invariant rule for a machine that needs no guard. -/
theorem run_invariant_of_step {I : σ → Prop}
    (hstep : ∀ s e s', I s → step s e = some s' → I s')
    {s t : σ} {es : List ε} (hs : I s) (hrun : runEvents step s es = some t) : I t := by
  have hfree : Meets step (fun _ _ => True) s es := meets_of_forall (fun _ _ => trivial) s es
  exact run_invariant (fun s e s' hi _ he => hstep s e s' hi he) hs hfree hrun

/-- A guard is exact for a property when, under an invariant and on the events
of a kind, a step keeps the property precisely if it meets the guard. In a run
of such events all states reached then have the property if and only if all
steps meet the guard. -/
theorem prefixes_iff_meets_of_kind {I P : σ → Prop} {kind : σ → ε → Prop}
    (hinv : ∀ s e s', I s → kind s e → step s e = some s' → I s')
    (hexact : ∀ s e s', I s → P s → kind s e → step s e = some s' → (P s' ↔ ok s e))
    {s t : σ} {es : List ε} (hi : I s) (hp : P s) (hkind : Meets step kind s es)
    (hrun : runEvents step s es = some t) :
    (∀ ds m, ds <+: es → runEvents step s ds = some m → P m) ↔ Meets step ok s es := by
  induction es generalizing s with
  | nil =>
    refine ⟨fun _ => trivial, fun _ ds m hd hm => ?_⟩
    rw [List.prefix_nil.mp hd] at hm
    cases hm
    exact hp
  | cons e es ih =>
    obtain ⟨s', hs', ht⟩ := runEvents_cons_iff.mp hrun
    obtain ⟨hk, hrest⟩ := hkind
    have hi' : I s' := hinv s e s' hi hk hs'
    have hstep : P s' ↔ ok s e := hexact s e s' hi hp hk hs'
    constructor
    · intro hall
      have hp' : P s' := hall [e] s' (by simp) (runEvents_cons_iff.mpr ⟨s', hs', rfl⟩)
      refine ⟨hstep.mp hp', fun u hu => ?_⟩
      obtain rfl : s' = u := Option.some.inj (hs'.symm.trans hu)
      refine (ih hi' hp' (hrest s' hs') ht).mp fun ds m hd hm => ?_
      exact hall (e :: ds) m ((List.cons_prefix_cons).mpr ⟨rfl, hd⟩)
        (runEvents_cons_iff.mpr ⟨s', hs', hm⟩)
    · rintro ⟨hok, hmeets⟩ ds m hd hm
      have hp' : P s' := hstep.mpr hok
      cases ds with
      | nil => cases hm; exact hp
      | cons d ds =>
        obtain ⟨rfl, hd'⟩ := List.cons_prefix_cons.mp hd
        obtain ⟨u, hu, hm'⟩ := runEvents_cons_iff.mp hm
        obtain rfl : s' = u := Option.some.inj (hs'.symm.trans hu)
        exact (ih hi' hp' (hrest s' hs') ht).mpr (hmeets s' hs') ds m hd' hm'

/-- The same for a machine whose events are all of the kind. -/
theorem prefixes_iff_meets {I P : σ → Prop}
    (hinv : ∀ s e s', I s → step s e = some s' → I s')
    (hexact : ∀ s e s', I s → P s → step s e = some s' → (P s' ↔ ok s e))
    {s t : σ} {es : List ε} (hi : I s) (hp : P s) (hrun : runEvents step s es = some t) :
    (∀ ds m, ds <+: es → runEvents step s ds = some m → P m) ↔ Meets step ok s es := by
  have hfree : Meets step (fun _ _ => True) s es := meets_of_forall (fun _ _ => trivial) s es
  exact prefixes_iff_meets_of_kind (fun s e s' hi _ he => hinv s e s' hi he)
    (fun s e s' hi hp _ he => hexact s e s' hi hp he) hi hp hfree hrun

/-- Where each step that fails a guard leads to a bad state and no step leaves
the bad states, a run that ends outside them meets the guard. -/
theorem meets_of_not_bad {I B : σ → Prop}
    (hinv : ∀ s e s', I s → step s e = some s' → I s')
    (hbad : ∀ s e s', I s → ¬ ok s e → step s e = some s' → B s')
    (hstay : ∀ s e s', I s → B s → step s e = some s' → B s')
    {s t : σ} {es : List ε} (hi : I s) (hrun : runEvents step s es = some t) (hgood : ¬ B t) :
    Meets step ok s es := by
  induction es generalizing s with
  | nil => trivial
  | cons e es ih =>
    obtain ⟨s', hs', ht⟩ := runEvents_cons_iff.mp hrun
    have hi' : I s' := hinv s e s' hi hs'
    have hok : ok s e := by
      by_contra hok
      have hstep : ∀ m d m', I m ∧ B m → step m d = some m' → I m' ∧ B m' :=
        fun m d m' hm hd => ⟨hinv m d m' hm.1 hd, hstay m d m' hm.1 hm.2 hd⟩
      exact hgood (run_invariant_of_step hstep ⟨hi', hbad s e s' hi hok hs'⟩ ht).2
    refine ⟨hok, fun u hu => ?_⟩
    obtain rfl : s' = u := Option.some.inj (hs'.symm.trans hu)
    exact ih hi' ht

/-- Two guards that agree in the states that an invariant of the second one
allows, on the events of a kind, are met by the same runs of such events. -/
theorem meets_iff_meets {I : σ → Prop} {kind : ε → Prop} {ok' : σ → ε → Prop}
    (hiff : ∀ s e, I s → kind e → (ok s e ↔ ok' s e))
    (hinv : ∀ s e s', I s → kind e → ok' s e → step s e = some s' → I s')
    {s : σ} {es : List ε} (hs : I s) (hkind : ∀ e ∈ es, kind e) :
    Meets step ok s es ↔ Meets step ok' s es := by
  induction es generalizing s with
  | nil => exact Iff.rfl
  | cons e es ih =>
    have hhead : kind e := hkind e List.mem_cons_self
    have htail : ∀ d ∈ es, kind d := fun d hd => hkind d (List.mem_cons_of_mem e hd)
    constructor
    · rintro ⟨hok, hrest⟩
      have hok' := (hiff s e hs hhead).mp hok
      exact ⟨hok', fun s' hs' => (ih (hinv s e s' hs hhead hok' hs') htail).mp (hrest s' hs')⟩
    · rintro ⟨hok', hrest⟩
      exact ⟨(hiff s e hs hhead).mpr hok',
        fun s' hs' => (ih (hinv s e s' hs hhead hok' hs') htail).mpr (hrest s' hs')⟩

/-- Counted events are paid from a budget that no guarded step overdraws. -/
theorem run_count_le_budget {I : σ → Prop} (budget : σ → ℕ) (counted : ε → Bool)
    (hstep : ∀ s e s', I s → ok s e → step s e = some s' →
      I s' ∧ budget s' + (if counted e = true then 1 else 0) ≤ budget s)
    {s t : σ} {es : List ε} (hs : I s) (hmeets : Meets step ok s es)
    (hrun : runEvents step s es = some t) :
    budget t + es.countP counted ≤ budget s := by
  induction es generalizing s with
  | nil => cases hrun; simp
  | cons e es ih =>
    obtain ⟨s', hs', ht⟩ := runEvents_cons_iff.mp hrun
    obtain ⟨hi, hb⟩ := hstep s e s' hs hmeets.1 hs'
    have hrest := ih hi (hmeets.2 s' hs') ht
    rw [List.countP_cons]
    omega

/-- What the steps of a run report, added up. -/
def runTotal (step : σ → ε → Option σ) (report : σ → ε → ℕ) : σ → List ε → ℕ
  | _, [] => 0
  | s, e :: es => report s e + ((step s e).map fun s' => runTotal step report s' es).getD 0

/-- A total is the first step's report and the rest's. -/
theorem runTotal_cons {report : σ → ε → ℕ} {s s' : σ} {e : ε} (hstep : step s e = some s')
    (es : List ε) : runTotal step report s (e :: es) = report s e + runTotal step report s' es := by
  rw [runTotal, hstep, Option.map_some, Option.getD_some]

/-- The total of one event is its report. -/
theorem runTotal_singleton (report : σ → ε → ℕ) (s : σ) (e : ε) :
    runTotal step report s [e] = report s e := by
  rw [runTotal]
  cases step s e with
  | none => exact Nat.add_zero _
  | some s' => exact Nat.add_zero _

/-- A report of one amount for each event of a kind counts these events. -/
theorem runTotal_const (amount : ℕ) (counted : ε → Bool) {s t : σ} {es : List ε}
    (hrun : runEvents step s es = some t) :
    runTotal step (fun _ e => if counted e = true then amount else 0) s es =
      amount * es.countP counted := by
  induction es generalizing s with
  | nil => rfl
  | cons e es ih =>
    obtain ⟨s', hs', ht⟩ := runEvents_cons_iff.mp hrun
    rw [runTotal_cons hs', ih ht, List.countP_cons, Nat.mul_add, Nat.add_comm]
    split
    · rw [Nat.mul_one]
    · rw [Nat.mul_zero]

/-- A report of one amount for each entry of the log counts its entries. -/
theorem runTotal_length {α : Type*} (amount : ℕ) (report : σ → ε → List α) {s t : σ}
    {es : List ε} (hrun : runEvents step s es = some t) :
    runTotal step (fun s e => amount * (report s e).length) s es =
      amount * (runLog step report s es).length := by
  induction es generalizing s with
  | nil => rfl
  | cons e es ih =>
    obtain ⟨s', hs', ht⟩ := runEvents_cons_iff.mp hrun
    rw [runTotal_cons hs', ih ht, runLog, hs', Option.map_some, Option.getD_some,
      List.length_append, Nat.mul_add]

/-- What the guarded steps of a run cost is paid from the credit at its start and what they earn. -/
theorem run_cost_le_earned {I : σ → Prop} (credit : σ → ℕ) (cost earned : σ → ε → ℕ)
    (hstep : ∀ s e s', I s → ok s e → step s e = some s' →
      I s' ∧ credit s' + cost s e ≤ credit s + earned s e)
    {s t : σ} {es : List ε} (hs : I s) (hmeets : Meets step ok s es)
    (hrun : runEvents step s es = some t) :
    credit t + runTotal step cost s es ≤ credit s + runTotal step earned s es := by
  induction es generalizing s with
  | nil =>
    cases hrun
    exact le_rfl
  | cons e es ih =>
    obtain ⟨s', hs', ht⟩ := runEvents_cons_iff.mp hrun
    obtain ⟨hi, hpaid⟩ := hstep s e s' hs hmeets.1 hs'
    have hrest := ih hi (hmeets.2 s' hs') ht
    rw [runTotal_cons hs', runTotal_cons hs']
    omega

/-- A log is the first step's report and the rest's. -/
theorem runLog_cons {α : Type*} {report : σ → ε → List α} {s s' : σ} {e : ε}
    (hstep : step s e = some s') (es : List ε) :
    runLog step report s (e :: es) = report s e ++ runLog step report s' es := by
  rw [runLog, hstep, Option.map_some, Option.getD_some]

/-- The simulation rule: where each guarded step of a machine is a guarded run of another one, on
related states, so is each guarded run. -/
theorem run_simulation {σ' ε' : Type*} {step' : σ' → ε' → Option σ'} {ok' : σ' → ε' → Prop}
    {R : σ → σ' → Prop} {image : σ → ε → List ε'}
    (hstep : ∀ s u e s', R s u → ok s e → step s e = some s' →
      ∃ u', runEvents step' u (image s e) = some u' ∧ Meets step' ok' u (image s e) ∧ R s' u')
    {s t : σ} {u : σ'} {es : List ε} (hR : R s u) (hmeets : Meets step ok s es)
    (hrun : runEvents step s es = some t) :
    ∃ v, runEvents step' u (runLog step image s es) = some v ∧
      Meets step' ok' u (runLog step image s es) ∧ R t v := by
  induction es generalizing s u with
  | nil =>
    cases hrun
    exact ⟨u, rfl, trivial, hR⟩
  | cons e es ih =>
    obtain ⟨s', hs', ht⟩ := runEvents_cons_iff.mp hrun
    obtain ⟨u', hu', hok, hR'⟩ := hstep s u e s' hR hmeets.1 hs'
    obtain ⟨v, hv, hrest, hend⟩ := ih hR' (hmeets.2 s' hs') ht
    rw [runLog_cons hs']
    refine ⟨v, runEvents_append_iff.mpr ⟨u', hu', hv⟩, meets_append_iff.mpr ⟨hok, ?_⟩, hend⟩
    intro m hm
    obtain rfl := Option.some.inj (hu'.symm.trans hm)
    exact hrest

/-- The machine that also keeps the events taken so far, oldest first, so that a
guard can speak about the past. -/
def withHistory (step : σ → ε → Option σ) (s : σ × List ε) (e : ε) : Option (σ × List ε) :=
  (step s.1 e).map fun s' => (s', s.2 ++ [e])

/-- The history records each event that is taken. -/
theorem withHistory_eq_some_iff {s t : σ × List ε} {e : ε} :
    withHistory step s e = some t ↔ step s.1 e = some t.1 ∧ t.2 = s.2 ++ [e] := by
  obtain ⟨t₁, t₂⟩ := t
  simp only [withHistory, Option.map_eq_some_iff, Prod.mk.injEq]
  constructor
  · rintro ⟨s', hs, rfl, rfl⟩
    exact ⟨hs, rfl⟩
  · rintro ⟨hs, rfl⟩
    exact ⟨t₁, hs, rfl, rfl⟩

/-- Its runs are those of the machine, with their events as the history. -/
theorem runEvents_withHistory (s : σ) (hist es : List ε) :
    runEvents (withHistory step) (s, hist) es =
      (runEvents step s es).map fun t => (t, hist ++ es) := by
  induction es generalizing s hist with
  | nil => rw [List.append_nil]; rfl
  | cons e es ih =>
    simp only [runEvents, withHistory]
    cases step s e with
    | none => rfl
    | some s' =>
      have hrest := ih s' (hist ++ [e])
      rw [List.append_assoc] at hrest
      exact hrest

/-- The machine that also keeps what its steps report, added up since the last event of a kind, so
that a guard can bound a stretch of the run. -/
def withTally (step : σ → ε → Option σ) (report : σ → ε → ℕ) (ends : ε → Bool) (s : σ × ℕ)
    (e : ε) : Option (σ × ℕ) :=
  (step s.1 e).map fun s' => (s', if ends e = true then 0 else s.2 + report s.1 e)

/-- The tally grows by each report and starts again where it ends. -/
theorem withTally_eq_some_iff {report : σ → ε → ℕ} {ends : ε → Bool} {s t : σ × ℕ} {e : ε} :
    withTally step report ends s e = some t ↔
      step s.1 e = some t.1 ∧ t.2 = if ends e = true then 0 else s.2 + report s.1 e := by
  obtain ⟨t₁, t₂⟩ := t
  simp only [withTally, Option.map_eq_some_iff, Prod.mk.injEq]
  constructor
  · rintro ⟨s', hs, rfl, rfl⟩
    exact ⟨hs, rfl⟩
  · rintro ⟨hs, rfl⟩
    exact ⟨t₁, hs, rfl, rfl⟩

/-- A run of the machine is a run of it with the tally, and leaves the same log. -/
theorem runEvents_withTally {α : Type*} (report : σ → ε → ℕ) (ends : ε → Bool)
    (log : σ → ε → List α) {s t : σ} {es : List ε} (hrun : runEvents step s es = some t) (n : ℕ) :
    ∃ m, runEvents (withTally step report ends) (s, n) es = some (t, m) ∧
      runLog (withTally step report ends) (fun s e => log s.1 e) (s, n) es =
        runLog step log s es := by
  induction es generalizing s n with
  | nil =>
    cases hrun
    exact ⟨n, rfl, rfl⟩
  | cons e es ih =>
    obtain ⟨s', hs', ht⟩ := runEvents_cons_iff.mp hrun
    have hstep : withTally step report ends (s, n) e =
        some (s', if ends e = true then 0 else n + report s e) :=
      withTally_eq_some_iff.mpr ⟨hs', rfl⟩
    obtain ⟨m, hm, hlog⟩ := ih ht (if ends e = true then 0 else n + report s e)
    refine ⟨m, runEvents_cons_iff.mpr ⟨_, hstep, hm⟩, ?_⟩
    rw [runLog_cons hstep, runLog_cons hs', hlog]

end Runs

end HermesFlow.EventRun
