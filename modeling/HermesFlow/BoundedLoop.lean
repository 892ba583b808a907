import Mathlib.Data.List.Range

/-!
# Computations that may not end

A computation with a supply of fuel for its loops gives a result, reads outside
its memory, or is still running when the fuel is used up. `Runs short P r` says
that `r` is a result with `P`, or that it is still running and the fuel was
short; so no access is out of bounds, whatever the fuel, and with enough fuel
there is a result.
-/

namespace HermesFlow.BoundedLoop

/-- Why there is no result. -/
inductive Fault where
  | outOfBounds
  /-- The fuel is used up. -/
  | running
  deriving DecidableEq

variable {α β F : Type}

/-- `while (cond) body`, with fuel for as many tests. -/
def whileLoop (cond : F → Bool) (body : F → F) : ℕ → F → Except Fault F
  | 0, _ => .error .running
  | fuel + 1, x => if cond x then whileLoop cond body fuel (body x) else .ok x

/-- The element at an index. -/
def readAt (l : List α) (i : ℤ) : Except Fault α :=
  if 0 ≤ i then
    match l[i.toNat]? with
    | some a => .ok a
    | none => .error .outOfBounds
  else .error .outOfBounds

/-- The list with another element at an index. -/
def writeAt (l : List α) (i : ℕ) (a : α) : Except Fault (List α) :=
  if i < l.length then .ok (l.set i a) else .error .outOfBounds

/-- A result with a property, unless the fuel was short. -/
def Runs (short : Prop) (P : α → Prop) (r : Except Fault α) : Prop :=
  (short ∧ r = .error .running) ∨ ∃ a, r = .ok a ∧ P a

variable {short : Prop} {P : α → Prop} {Q : β → Prop}

/-- A result with the property runs. -/
theorem Runs.ok {a : α} (h : P a) : Runs short P (.ok a) := .inr ⟨a, rfl, h⟩

/-- A run keeps what its property implies. -/
theorem Runs.mono {r : Except Fault α} {P' : α → Prop} (h : Runs short P r) (hP : ∀ a, P a → P' a) :
    Runs short P' r := by
  rcases h with h | ⟨a, ha, hp⟩
  · exact .inl h
  · exact .inr ⟨a, ha, hP a hp⟩

/-- Runs compose. -/
theorem Runs.bind {r : Except Fault α} {f : α → Except Fault β} (h : Runs short P r)
    (hf : ∀ a, P a → Runs short Q (f a)) : Runs short Q (r >>= f) := by
  rcases h with ⟨hs, rfl⟩ | ⟨a, rfl, hp⟩
  · exact .inl ⟨hs, rfl⟩
  · exact hf a hp

/-- What has run returned the value that it did. -/
theorem Runs.eq_ok {r : Except Fault α} (h : Runs short P r) :
    Runs short (fun a => P a ∧ r = .ok a) r := by
  rcases h with h | ⟨a, rfl, hp⟩
  · exact .inl h
  · exact .ok ⟨hp, rfl⟩

/-- A result has the property. -/
theorem Runs.of_ok {r : Except Fault α} {a : α} (h : Runs short P r) (hr : r = .ok a) : P a := by
  rcases h with ⟨-, rfl⟩ | ⟨b, rfl, hp⟩
  · cases hr
  · exact Except.ok.inj hr ▸ hp

/-- No access is out of bounds. -/
theorem Runs.ne_outOfBounds {r : Except Fault α} (h : Runs short P r) :
    r ≠ .error .outOfBounds := by
  rcases h with ⟨-, rfl⟩ | ⟨a, rfl, -⟩ <;> nofun

/-- With enough fuel there is a result. -/
theorem Runs.result {r : Except Fault α} (h : Runs short P r) (hs : ¬ short) :
    ∃ a, r = .ok a ∧ P a := h.resolve_left fun h => hs h.1

/-- The rule of a loop: what its body keeps holds after it, and a measure that the body
lowers bounds the fuel. -/
theorem runs_whileLoop {cond : F → Bool} {body : F → F} {I : F → Prop} (measure : F → ℕ)
    (hbody : ∀ x, I x → cond x = true → I (body x) ∧ measure (body x) < measure x) {x : F} (hx : I x)
    {fuel : ℕ} (hshort : fuel ≤ measure x → short) :
    Runs short (fun y => I y ∧ cond y = false) (whileLoop cond body fuel x) := by
  induction fuel generalizing x with
  | zero => exact .inl ⟨hshort (Nat.zero_le _), rfl⟩
  | succ fuel ih =>
    rw [whileLoop]
    by_cases hcond : cond x = true
    · obtain ⟨hI, hlt⟩ := hbody x hx hcond
      rw [if_pos hcond]
      exact ih hI fun hle => hshort (by omega)
    · rw [if_neg hcond]
      exact .ok ⟨hx, Bool.not_eq_true _ ▸ hcond⟩

/-- The rule of a loop that turns at most once. -/
theorem runs_whileLoop_once {cond : F → Bool} {body : F → F} {I : F → Prop} {x : F}
    (hstop : cond x = false → I x) (hturn : cond x = true → I (body x) ∧ cond (body x) = false)
    {fuel : ℕ} (hshort : fuel ≤ 1 → short) :
    Runs short (fun y => I y ∧ cond y = false) (whileLoop cond body fuel x) := by
  refine (runs_whileLoop (I := fun y => (cond y = false → I y) ∧
    (cond y = true → I (body y) ∧ cond (body y) = false)) (fun y => if cond y then 1 else 0)
    (fun y hy hcond => ?_) ⟨hstop, hturn⟩ fun hfuel => hshort (hfuel.trans ?_)).mono
    fun y hy => ⟨hy.1.1 hy.2, hy.2⟩
  · obtain ⟨hI, hlast⟩ := hy.2 hcond
    rw [hcond, hlast]
    exact ⟨⟨fun _ => hI, nofun⟩, Nat.one_pos⟩
  · split_ifs <;> omega

/-- More fuel does not change a result. -/
theorem whileLoop_of_le {cond : F → Bool} {body : F → F} {fuel fuel' : ℕ} (hle : fuel ≤ fuel')
    {x y : F} (h : whileLoop cond body fuel x = .ok y) : whileLoop cond body fuel' x = .ok y := by
  induction fuel generalizing fuel' x with
  | zero => cases h
  | succ fuel ih =>
    obtain ⟨more, rfl⟩ : ∃ more, fuel' = more + 1 := ⟨fuel' - 1, by omega⟩
    rw [whileLoop] at h ⊢
    by_cases hcond : cond x = true
    · rw [if_pos hcond] at h ⊢
      exact ih (Nat.le_of_succ_le_succ hle) h
    · rw [if_neg hcond] at h ⊢
      exact h

/-- A loop whose test always holds has no result. -/
theorem whileLoop_running {cond : F → Bool} {body : F → F} {I : F → Prop}
    (hbody : ∀ x, I x → cond x = true ∧ I (body x)) {x : F} (hx : I x) (fuel : ℕ) :
    whileLoop cond body fuel x = .error .running := by
  induction fuel generalizing x with
  | zero => rfl
  | succ fuel ih =>
    obtain ⟨hcond, hI⟩ := hbody x hx
    rw [whileLoop, if_pos hcond]
    exact ih hI

/-- A read within the list succeeds. -/
theorem runs_readAt {l : List α} {i : ℤ} (h0 : 0 ≤ i) (h1 : i < l.length) :
    Runs short (fun a => a ∈ l) (readAt l i) := by
  have hlt : i.toNat < l.length := by omega
  rw [readAt, if_pos h0, List.getElem?_eq_getElem hlt]
  exact .ok (List.getElem_mem hlt)

/-- A write within the list succeeds. -/
theorem runs_writeAt {l : List α} {i : ℕ} (h : i < l.length) (a : α) :
    Runs short (fun l' => l' = l.set i a) (writeAt l i a) := by
  rw [writeAt, if_pos h]
  exact .ok rfl

/-- A computation that runs and does the same as another one. -/
def Agrees (short : Prop) (P : α → Prop) (r r' : Except Fault α) : Prop := Runs short P r ∧ r = r'

/-- A run agrees with itself. -/
theorem Runs.agrees {r : Except Fault α} (h : Runs short P r) : Agrees short P r r := ⟨h, rfl⟩

/-- Agreement composes. -/
theorem Agrees.bind {r r' : Except Fault α} {f f' : α → Except Fault β} (h : Agrees short P r r')
    (hf : ∀ a, P a → Agrees short Q (f a) (f' a)) : Agrees short Q (r >>= f) (r' >>= f') := by
  obtain ⟨hr, rfl⟩ := h
  refine ⟨hr.bind fun a ha => (hf a ha).1, ?_⟩
  rcases hr with ⟨-, rfl⟩ | ⟨a, rfl, ha⟩
  · rfl
  · exact (hf a ha).2

/-- Agreement keeps what its property implies. -/
theorem Agrees.mono {r r' : Except Fault α} {P' : α → Prop} (h : Agrees short P r r')
    (hP : ∀ a, P a → P' a) : Agrees short P' r r' := ⟨h.1.mono hP, h.2⟩

/-- The rule of a loop over a list. -/
theorem agrees_foldlM {f f' : β → α → Except Fault β} {I : β → Prop} {l : List α}
    (hstep : ∀ b a, a ∈ l → I b → Agrees short I (f b a) (f' b a)) {b : β} (hb : I b) :
    Agrees short I (l.foldlM f b) (l.foldlM f' b) := by
  induction l generalizing b with
  | nil => exact (Runs.ok hb).agrees
  | cons a l ih =>
    rw [List.foldlM_cons, List.foldlM_cons]
    exact Agrees.bind (hstep b a List.mem_cons_self hb) fun b' hb' =>
      ih (fun b a ha => hstep b a (List.mem_cons_of_mem _ ha)) hb'

end HermesFlow.BoundedLoop
