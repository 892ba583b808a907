import Mathlib.Data.List.Basic
import Mathlib.Tactic.Common

/-!
# Accesses to one buffer

Cells of one buffer are loaded and stored at offsets, one at a time and in
order. An access outside the buffer has no result. Whole spans are described
by what lies before and behind them.
-/

namespace HermesFlow.CheckedBuffer

variable {α : Type*}

/-- The `count` cells from `i` on. -/
def load (buf : List α) : ℕ → ℕ → Option (List α)
  | _, 0 => some []
  | i, count + 1 => do
    let cell ← buf[i]?
    let cells ← load buf (i + 1) count
    return cell :: cells

/-- One cell written. -/
def store (buf : List α) (i : ℕ) (cell : α) : Option (List α) :=
  if i < buf.length then some (buf.set i cell) else none

/-- Cells written from `i` on, the first one first. -/
def storeAll : List α → ℕ → List α → Option (List α)
  | buf, _, [] => some buf
  | buf, i, cell :: cells => do
    let buf ← store buf i cell
    storeAll buf (i + 1) cells

/-- Cells copied from `src` to `dst`, the first one first; both spans may lie
in one another. -/
def copy : List α → ℕ → ℕ → ℕ → Option (List α)
  | buf, _, _, 0 => some buf
  | buf, dst, src, count + 1 => do
    let cell ← buf[src]?
    let buf ← store buf dst cell
    copy buf (dst + 1) (src + 1) count

/-- A span inside the buffer is loaded. -/
theorem load_of_le {buf : List α} {i count : ℕ} (h : i + count ≤ buf.length) :
    load buf i count = some ((buf.drop i).take count) := by
  induction count generalizing i with
  | zero => rw [load, List.take_zero]
  | succ count ih =>
    have hi : i < buf.length := by omega
    rw [load, List.getElem?_eq_getElem hi, ih (by omega), List.drop_eq_getElem_cons hi,
      List.take_succ_cons]
    rfl

/-- A store within the buffer succeeds. -/
theorem store_of_lt {buf : List α} {i : ℕ} (h : i < buf.length) (cell : α) :
    store buf i cell = some (buf.set i cell) := if_pos h

/-- One cell stored, by what lies before and behind it. -/
theorem set_eq_append {buf : List α} {i : ℕ} (h : i < buf.length) (cell : α) :
    buf.set i cell = buf.take i ++ cell :: buf.drop (i + 1) :=
  List.set_eq_take_append_cons_drop.trans (if_pos h)

/-- Cells stored inside the buffer, by what lies before and behind them. -/
theorem storeAll_of_le {buf cells : List α} {i : ℕ} (h : i + cells.length ≤ buf.length) :
    storeAll buf i cells = some (buf.take i ++ cells ++ buf.drop (i + cells.length)) := by
  induction cells generalizing buf i with
  | nil => rw [storeAll, List.append_nil, List.length_nil, Nat.add_zero, List.take_append_drop]
  | cons cell cells ih =>
    rw [List.length_cons] at h ⊢
    have hi : i < buf.length := by omega
    have hrest : i + 1 + cells.length ≤ (buf.set i cell).length := by
      rw [List.length_set]
      omega
    have htake : (buf.set i cell).take (i + 1) = buf.take i ++ [cell] := by
      rw [set_eq_append hi, List.take_append, List.length_take, Nat.min_eq_left (Nat.le_of_lt hi),
        List.take_take, Nat.min_eq_right (Nat.le_succ i), Nat.add_sub_cancel_left]
      rfl
    have hdrop : (buf.set i cell).drop (i + 1 + cells.length) =
        buf.drop (i + (cells.length + 1)) := by
      rw [List.drop_set_of_lt (by omega)]
      congr 1
      omega
    rw [storeAll, store_of_lt hi]
    change storeAll (buf.set i cell) (i + 1) cells = _
    rw [ih hrest, htake, hdrop, List.append_assoc, List.append_assoc, List.append_assoc]
    rfl

/-- The cells between two others are loaded. -/
theorem load_middle (before cells behind : List α) :
    load (before ++ (cells ++ behind)) before.length cells.length = some cells := by
  have hle : before.length + cells.length ≤ (before ++ (cells ++ behind)).length := by
    simp only [List.length_append]
    omega
  rw [load_of_le hle, List.drop_left, List.take_left]

/-- Cells stored over as many others leave what lies before and behind them. -/
theorem storeAll_middle {cells cells' : List α} (h : cells'.length = cells.length)
    (before behind : List α) :
    storeAll (before ++ (cells ++ behind)) before.length cells' =
      some (before ++ (cells' ++ behind)) := by
  have hle : before.length + cells'.length ≤ (before ++ (cells ++ behind)).length := by
    simp only [List.length_append]
    omega
  rw [storeAll_of_le hle, List.take_left, h, ← List.drop_drop, List.drop_left, List.drop_left,
    List.append_assoc]

/-- Storing in two pieces. -/
theorem storeAll_append (buf : List α) (i : ℕ) (cells cells' : List α) :
    storeAll buf i (cells ++ cells') = (do
      let buf ← storeAll buf i cells
      storeAll buf (i + cells.length) cells') := by
  induction cells generalizing buf i with
  | nil => rfl
  | cons cell cells ih =>
    rw [List.cons_append, storeAll, storeAll]
    cases store buf i cell with
    | none => rfl
    | some stored =>
      change storeAll stored (i + 1) (cells ++ cells') = _
      rw [ih, List.length_cons, Nat.add_assoc, Nat.add_comm 1]
      rfl

/-- A span copied onto itself stays as it is. -/
theorem copy_self {buf : List α} {i count : ℕ} (h : i + count ≤ buf.length) :
    copy buf i i count = some buf := by
  induction count generalizing i with
  | zero => rw [copy]
  | succ count ih =>
    have hi : i < buf.length := by omega
    rw [copy, List.getElem?_eq_getElem hi]
    change (store buf i buf[i]).bind (fun buf => copy buf (i + 1) (i + 1) count) = _
    rw [store_of_lt hi, List.set_getElem_self]
    exact ih (by omega)

end HermesFlow.CheckedBuffer
