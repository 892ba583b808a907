import Mathlib.Algebra.BigOperators.Group.List.Basic
import Mathlib.Algebra.Order.Group.Multiset
import Mathlib.Data.Multiset.UnionInter

/-!
# Tokens in the custody of owners

Each owner of a list holds a multiset of tokens. Moving an owner to another
state, adding one or dropping one changes the total by what that owner gains
or loses, and a total without repetitions makes the holdings disjoint.
-/

namespace HermesFlow.Custody

variable {ι α : Type*} {hold : ι → Multiset α}

/-- All tokens held by the owners of a list, with multiplicity. -/
def held (hold : ι → Multiset α) (owners : List ι) : Multiset α := (owners.map hold).sum

/-- Nobody holds nothing. -/
@[simp] theorem held_nil : held hold [] = 0 := rfl

/-- What a list of owners holds is what the first holds and what the rest do. -/
@[simp] theorem held_cons (a : ι) (owners : List ι) :
    held hold (a :: owners) = hold a + held hold owners := by
  simp only [held, List.map_cons, List.sum_cons]

/-- What two lists of owners hold is the sum. -/
@[simp] theorem held_append (owners others : List ι) :
    held hold (owners ++ others) = held hold owners + held hold others := by
  simp only [held, List.map_append, List.sum_append]

/-- Only the holdings of the listed owners matter. -/
theorem held_congr {hold' : ι → Multiset α} {owners : List ι}
    (h : ∀ a ∈ owners, hold a = hold' a) : held hold owners = held hold' owners := by
  simp only [held, List.map_congr_left h]

/-- Replacing an owner by one with the same attribute keeps the attributes. -/
theorem map_set_of_eq {β : Type*} {f : ι → β} {owners : List ι} {i : ℕ} {a b : ι}
    (h : owners[i]? = some a) (hab : f b = f a) : (owners.set i b).map f = owners.map f := by
  have hmap : (owners.map f)[i]? = some (f a) := by simp [h]
  obtain ⟨hi, hget⟩ := List.getElem?_eq_some_iff.mp hmap
  rw [List.map_set, hab, ← hget, List.set_getElem_self]

/-- Replacing an owner exchanges its holding for that of the new one. -/
theorem held_set {owners : List ι} {i : ℕ} {a : ι} (h : owners[i]? = some a) (b : ι) :
    held hold (owners.set i b) + hold a = held hold owners + hold b := by
  induction owners generalizing i with
  | nil => simp at h
  | cons c owners ih =>
    cases i with
    | zero =>
      obtain rfl : c = a := by simpa using h
      simp only [List.set_cons_zero, held_cons]
      rw [add_comm (hold b), add_comm (hold c), add_right_comm]
    | succ i =>
      have hrest := ih (by simpa using h)
      simp only [List.set_cons_succ, held_cons]
      rw [add_assoc, hrest, add_assoc]

/-- Dropping an owner drops its holding. -/
theorem held_erase [DecidableEq ι] {owners : List ι} {a : ι} (h : a ∈ owners) :
    hold a + held hold (owners.erase a) = held hold owners := by
  have hperm : (owners.map hold).Perm ((a :: owners.erase a).map hold) :=
    (List.perm_cons_erase h).map hold
  rw [held, held, hperm.sum_eq, List.map_cons, List.sum_cons]

/-- One owner holds no more than all of them. -/
theorem le_held {owners : List ι} {a : ι} (h : a ∈ owners) : hold a ≤ held hold owners := by
  classical
  rw [← held_erase h]
  exact Multiset.le_add_right _ _

/-- If no token occurs twice in the total, two owners never hold the same one. -/
theorem held_exclusive [DecidableEq ι] {owners : List ι} (hnodup : (held hold owners).Nodup)
    {a b : ι} (ha : a ∈ owners) (hb : b ∈ owners) (hab : a ≠ b) {t : α} (hta : t ∈ hold a) :
    t ∉ hold b := by
  intro htb
  rw [← held_erase ha] at hnodup
  have hb' : b ∈ owners.erase a := (List.mem_erase_of_ne (Ne.symm hab)).mpr hb
  have hdisj := (Multiset.nodup_add.mp hnodup).2.2
  exact Multiset.disjoint_left.mp hdisj hta (Multiset.mem_of_le (le_held hb') htb)

end HermesFlow.Custody
