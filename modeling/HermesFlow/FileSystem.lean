import Mathlib.Data.List.Basic
import Mathlib.Logic.Function.Basic

/-!
# A file system

Names lead to files and files hold bytes. A file that is opened for writing is
written through its number, at an offset of the writer's own, whatever becomes
of its name; one that is removed loses its name only.
-/

namespace HermesFlow

/-- Files with their names. -/
structure FileSystem (Path : Type*) where
  /-- The file of a name. -/
  file : Path → Option ℕ
  /-- The bytes of a file. -/
  data : ℕ → List UInt8
  /-- The number of the next file. -/
  next : ℕ
  /-- A file that will be created has no name yet. -/
  fresh : ∀ path f, file path = some f → f < next
  /-- No file has two names. -/
  one_name : ∀ path path' f, file path = some f → file path' = some f → path = path'

namespace FileSystem

variable {Path : Type*}

/-- No file at all. -/
def empty : FileSystem Path where
  file := fun _ => none
  data := fun _ => []
  next := 0
  fresh := fun _ _ h => by cases h
  one_name := fun _ _ _ h => by cases h

/-- The bytes found under a name. -/
def contents (fs : FileSystem Path) (path : Path) : Option (List UInt8) :=
  (fs.file path).map fs.data

/-- Replace the bytes of a file. -/
def setData (fs : FileSystem Path) (f : ℕ) (bytes : List UInt8) : FileSystem Path :=
  { fs with data := Function.update fs.data f bytes }

/-- Bytes written into a file at an offset; a gap before it is filled with zeros. -/
def overwrite (bytes : List UInt8) (offset : ℕ) (chunk : List UInt8) : List UInt8 :=
  bytes.take offset ++ List.replicate (offset - bytes.length) 0 ++ chunk ++
    bytes.drop (offset + chunk.length)

/-- Write a chunk into a file. -/
def writeAt (fs : FileSystem Path) (f offset : ℕ) (chunk : List UInt8) : FileSystem Path :=
  fs.setData f (overwrite (fs.data f) offset chunk)

/-- Writing at the end appends. -/
theorem overwrite_length (bytes chunk : List UInt8) :
    overwrite bytes bytes.length chunk = bytes ++ chunk := by
  have hgap : bytes.length - bytes.length = 0 := Nat.sub_self _
  have hrest : bytes.drop (bytes.length + chunk.length) = [] :=
    List.drop_eq_nil_of_le (Nat.le_add_right _ _)
  rw [overwrite, List.take_length, hgap, List.replicate_zero, hrest, List.append_nil,
    List.append_nil]

/-- Writing leaves the names. -/
@[simp] theorem setData_file (fs : FileSystem Path) (f : ℕ) (bytes : List UInt8) :
    (fs.setData f bytes).file = fs.file := rfl

/-- Writing creates no file. -/
@[simp] theorem setData_next (fs : FileSystem Path) (f : ℕ) (bytes : List UInt8) :
    (fs.setData f bytes).next = fs.next := rfl

/-- Writing leaves the other files. -/
theorem setData_data_of_ne (fs : FileSystem Path) {f g : ℕ} (bytes : List UInt8) (h : g ≠ f) :
    (fs.setData f bytes).data g = fs.data g := Function.update_of_ne h _ _

/-- What is written is what the file holds. -/
theorem setData_data_self (fs : FileSystem Path) (f : ℕ) (bytes : List UInt8) :
    (fs.setData f bytes).data f = bytes := Function.update_self _ _ _

variable [DecidableEq Path]

/-- Give a new, empty file a name. -/
def create (fs : FileSystem Path) (path : Path) : FileSystem Path where
  file := Function.update fs.file path (some fs.next)
  data := Function.update fs.data fs.next []
  next := fs.next + 1
  fresh := by
    intro other f h
    by_cases hsame : other = path
    · rw [hsame, Function.update_self] at h
      cases h
      exact Nat.lt_succ_self _
    · rw [Function.update_of_ne hsame] at h
      exact Nat.lt_succ_of_lt (fs.fresh other f h)
  one_name := by
    intro a b f ha hb
    have hfresh : ∀ other, fs.file other ≠ some fs.next := fun other h =>
      absurd (fs.fresh other _ h) (Nat.lt_irrefl _)
    by_cases hpa : a = path <;> by_cases hpb : b = path
    · rw [hpa, hpb]
    · rw [hpa, Function.update_self] at ha
      rw [Function.update_of_ne hpb, ← ha] at hb
      exact absurd hb (hfresh b)
    · rw [hpb, Function.update_self] at hb
      rw [Function.update_of_ne hpa, ← hb] at ha
      exact absurd ha (hfresh a)
    · rw [Function.update_of_ne hpa] at ha
      rw [Function.update_of_ne hpb] at hb
      exact fs.one_name a b f ha hb

/-- Open a name for writing, creating or truncating its file. -/
def openTruncate (fs : FileSystem Path) (path : Path) : FileSystem Path × ℕ :=
  match fs.file path with
  | some f => (fs.setData f [], f)
  | none => (fs.create path, fs.next)

/-- Remove a name. -/
def remove (fs : FileSystem Path) (path : Path) : FileSystem Path where
  file := Function.update fs.file path none
  data := fs.data
  next := fs.next
  fresh := by
    intro other f h
    by_cases hsame : other = path
    · rw [hsame, Function.update_self] at h
      cases h
    · rw [Function.update_of_ne hsame] at h
      exact fs.fresh other f h
  one_name := by
    intro a b f ha hb
    by_cases hpa : a = path
    · rw [hpa, Function.update_self] at ha
      cases ha
    · by_cases hpb : b = path
      · rw [hpb, Function.update_self] at hb
        cases hb
      · rw [Function.update_of_ne hpa] at ha
        rw [Function.update_of_ne hpb] at hb
        exact fs.one_name a b f ha hb

/-- Opening a missing path creates a file. -/
theorem openTruncate_of_none {fs : FileSystem Path} {path : Path} (h : fs.file path = none) :
    fs.openTruncate path = (fs.create path, fs.next) := by
  rw [openTruncate]
  split
  · rename_i f hf
    rw [h] at hf
    cases hf
  · rfl

/-- The created file is found under its path. -/
theorem create_file_self (fs : FileSystem Path) (path : Path) :
    (fs.create path).file path = some fs.next := Function.update_self _ _ _

/-- A creation leaves the other paths. -/
theorem create_file_of_ne (fs : FileSystem Path) {path other : Path} (h : other ≠ path) :
    (fs.create path).file other = fs.file other := Function.update_of_ne h _ _

/-- A creation leaves the other files. -/
theorem create_data_of_ne (fs : FileSystem Path) (path : Path) {f : ℕ} (h : f ≠ fs.next) :
    (fs.create path).data f = fs.data f := Function.update_of_ne h _ _

/-- A created file is empty. -/
theorem create_data_self (fs : FileSystem Path) (path : Path) :
    (fs.create path).data fs.next = [] := Function.update_self _ _ _

/-- A removed path names no file. -/
theorem remove_file_self (fs : FileSystem Path) (path : Path) :
    (fs.remove path).file path = none := Function.update_self _ _ _

/-- A removal leaves the other paths. -/
theorem remove_file_of_ne (fs : FileSystem Path) {path other : Path} (h : other ≠ path) :
    (fs.remove path).file other = fs.file other := Function.update_of_ne h _ _

end FileSystem

end HermesFlow
