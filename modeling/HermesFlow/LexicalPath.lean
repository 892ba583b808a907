import Mathlib.Data.List.DropRight
import Mathlib.Data.List.Infix

/-!
# Lexical paths

A path is the list of its pieces between slashes. Its normal form keeps names, drops
empty pieces and dots, and lets two dots cancel the name before them. Nothing is
asked of the file system. A walk along the pieces tells whether a path and all the
folders on its way stay in a folder.
-/

namespace HermesFlow.LexicalPath

/-- What stands between two slashes. -/
abbrev Piece := List Char

/-- A path, as its pieces. -/
abbrev Path := List Piece

/-- A piece that means something. -/
inductive Component where
  | up
  | name (text : Piece)
  deriving DecidableEq

/-- The meaning of a piece; that of an empty one and of a dot is nothing. -/
def component (piece : Piece) : Option Component :=
  if piece = [] ∨ piece = ['.'] then none
  else if piece = ['.', '.'] then some .up
  else some (.name piece)

/-- The components of a path, in order. -/
def components (path : Path) : List Component := path.filterMap component

/-- One more component on a stack, whose top is its head. -/
def push (stack : List Component) : Component → List Component
  | .name text => .name text :: stack
  | .up =>
    match stack with
    | .name _ :: rest => rest
    | stack => .up :: stack

/-- The normal form, as a stack. -/
def stackOf (cs : List Component) : List Component := cs.foldl push []

/-- The lexical normal form of a path. -/
def normal (path : Path) : List Component := (stackOf (components path)).reverse

/-- The normal form is a folder or below it. -/
def AtOrBelow (root : Piece) (path : Path) : Prop := ∃ rest, normal path = .name root :: rest

/-- The normal form is below a folder. -/
def StrictlyBelow (root : Piece) (path : Path) : Prop :=
  ∃ rest, rest ≠ [] ∧ normal path = .name root :: rest

/-- The path that the system sees: a string ends at its first zero. -/
def cut : Path → Path
  | [] => []
  | piece :: path =>
    if Char.ofNat 0 ∈ piece then [piece.takeWhile (· ≠ Char.ofNat 0)] else piece :: cut path

/-- The last piece is a name. -/
def endsInName (path : Path) : Bool :=
  match path.getLast?.bind component with
  | some (.name _) => true
  | _ => false

/-- The folders above a path, each with its own path. -/
def directories (path : Path) : List Path := path.dropLast.inits.filter endsInName

/-- Where a walk along the components stands. -/
inductive Place where
  | inside (depth : ℕ)
  /-- In the folder above. -/
  | above
  | outside
  deriving DecidableEq

/-- One component further. -/
def Place.step (root : Piece) : Place → Component → Place
  | .inside depth, .name _ => .inside (depth + 1)
  | .inside (depth + 1), .up => .inside depth
  | .inside 0, .up => .above
  | .above, .name text => if text = root then .inside 0 else .outside
  | .above, .up => .outside
  | .outside, _ => .outside

/-- The walk along components. -/
def walk (root : Piece) (start : Place) (cs : List Component) : Place :=
  cs.foldl (Place.step root) start

section Walk

variable {root : Piece} {cs : List Component} {c : Component}

/-- The stack takes one component after the other. -/
@[simp] theorem stackOf_concat : stackOf (cs ++ [c]) = push (stackOf cs) c := by
  rw [stackOf, List.foldl_append]
  rfl

/-- The walk takes one component after the other. -/
@[simp] theorem walk_concat {start : Place} :
    walk root start (cs ++ [c]) = (walk root start cs).step root c := by
  rw [walk, List.foldl_append]
  rfl

/-- What the place says about the stack. -/
def Place.Stands (root : Piece) (stack : List Component) : Place → Prop
  | .inside depth => ∃ names : List Piece, names.length = depth ∧
      stack = names.map .name ++ [.name root]
  | .above => stack = []
  | .outside => True

/-- A place still stands for its stack after one more component. -/
theorem Place.Stands.step {place : Place} {stack : List Component} (h : place.Stands root stack) :
    (place.step root c).Stands root (push stack c) := by
  cases place with
  | outside => trivial
  | above =>
    obtain rfl := h
    cases c with
    | up => trivial
    | name text =>
      rw [Place.step]
      split_ifs with htext
      · exact ⟨[], rfl, by rw [htext]; rfl⟩
      · trivial
  | inside depth =>
    obtain ⟨names, rfl, rfl⟩ := h
    cases c with
    | name text => exact ⟨text :: names, rfl, rfl⟩
    | up =>
      cases names with
      | nil => rfl
      | cons text names => exact ⟨names, rfl, rfl⟩

/-- The walk and the stack go together. -/
theorem stands_walk (root : Piece) (cs : List Component) :
    (walk root .above cs).Stands root (stackOf cs) := by
  induction cs using List.reverseRecOn with
  | nil => rfl
  | append_singleton cs c ih =>
    rw [walk_concat, stackOf_concat]
    exact ih.step

/-- Outside the root a walk stays there. -/
theorem walk_outside (cs : List Component) : walk root .outside cs = .outside := by
  induction cs with
  | nil => rfl
  | cons c cs ih => exact ih

/-- A walk that ends outside leaves the folder above by its first wrong component. -/
theorem walk_eq_outside (h : walk root .above cs = .outside) :
    ∃ before c after, cs = before ++ c :: after ∧ walk root .above before = .above ∧
      (c = .up ∨ ∃ text, text ≠ root ∧ c = .name text) := by
  induction cs using List.reverseRecOn with
  | nil => cases h
  | append_singleton cs c ih =>
    rw [walk_concat] at h
    cases hplace : walk root .above cs with
    | outside =>
      obtain ⟨before, c', after, rfl, hbefore, hc⟩ := ih hplace
      exact ⟨before, c', after ++ [c], by rw [List.append_assoc]; rfl, hbefore, hc⟩
    | above =>
      refine ⟨cs, c, [], rfl, hplace, ?_⟩
      rw [hplace] at h
      cases c with
      | up => exact .inl rfl
      | name text =>
        rw [Place.step] at h
        split_ifs at h with htext
        exact .inr ⟨text, htext, rfl⟩
    | inside depth =>
      rw [hplace] at h
      cases c with
      | name text => cases h
      | up => cases depth <;> cases h

/-- Two dots at the bottom of a stack stay there. -/
theorem foldl_push_bottom (cs : List Component) (stack : List Component) :
    ∃ stack', cs.foldl push (stack ++ [.up]) = stack' ++ [.up] := by
  induction cs generalizing stack with
  | nil => exact ⟨stack, rfl⟩
  | cons c cs ih =>
    have hpush : ∃ stack', push (stack ++ [.up]) c = stack' ++ [.up] := by
      cases c with
      | name text => exact ⟨.name text :: stack, rfl⟩
      | up =>
        match stack with
        | [] => exact ⟨[.up], rfl⟩
        | .up :: stack => exact ⟨.up :: .up :: stack, rfl⟩
        | .name _ :: stack => exact ⟨stack, rfl⟩
    obtain ⟨stack', hstack'⟩ := hpush
    rw [List.foldl_cons, hstack']
    exact ih stack'

end Walk

section Pieces

variable {path folder rest : Path}

/-- A path is cut behind a folder on its way, or the folder is cut like the path. -/
theorem cut_of_prefix (h : folder <+: path) :
    cut folder = folder ∧ (∃ rest, cut path = folder ++ rest) ∨ cut folder = cut path := by
  induction folder generalizing path with
  | nil => exact .inl ⟨rfl, cut path, rfl⟩
  | cons piece folder ih =>
    obtain ⟨tail, rfl⟩ := h
    rw [List.cons_append, cut, cut]
    split_ifs with hzero
    · exact .inr rfl
    · rcases ih (List.prefix_append folder tail) with ⟨hsame, rest, hrest⟩ | heq
      · exact .inl ⟨by rw [hsame], rest, by rw [hrest]; rfl⟩
      · exact .inr (by rw [heq])

/-- What is behind a folder on the way of a cut path. -/
theorem prefix_of_cut (h : cut path = folder ++ rest) (hrest : rest ≠ []) :
    folder <+: path.dropLast ∧ cut folder = folder := by
  induction path generalizing folder with
  | nil => exact absurd (List.append_eq_nil_iff.mp h.symm).2 hrest
  | cons piece path ih =>
    cases folder with
    | nil => exact ⟨List.nil_prefix, rfl⟩
    | cons piece' folder =>
      rw [cut] at h
      split_ifs at h with hzero
      · obtain ⟨-, htail⟩ := List.cons.inj h
        exact absurd (List.append_eq_nil_iff.mp htail.symm).2 hrest
      · obtain ⟨rfl, htail⟩ := List.cons.inj h
        obtain ⟨hfront, hsame⟩ := ih htail
        have hne : path ≠ [] := by
          rintro rfl
          exact absurd (List.append_eq_nil_iff.mp htail.symm).2 hrest
        rw [List.dropLast_cons_of_ne_nil hne, cut, if_neg hzero, hsame]
        exact ⟨List.cons_prefix_cons.mpr ⟨rfl, hfront⟩, rfl⟩

/-- The components of two texts are those of each. -/
theorem components_append : components (folder ++ rest) = components folder ++ components rest :=
  List.filterMap_append

/-- A name among the components is the last piece of a folder on the way. -/
theorem split_at_name {before after : List Component} {text : Piece}
    (h : components path = before ++ .name text :: after) :
    ∃ folder rest, path = folder ++ rest ∧ components folder = before ++ [.name text] ∧
      endsInName folder = true := by
  obtain ⟨front, tail, rfl, hfront, htail⟩ := List.filterMap_eq_append_iff.mp h
  obtain ⟨quiet, piece, rest, rfl, hquiet, hpiece, -⟩ := List.filterMap_eq_cons_iff.mp htail
  refine ⟨front ++ quiet ++ [piece], rest, by simp, ?_, ?_⟩
  · have hnone : components quiet = [] := List.filterMap_eq_nil_iff.mpr hquiet
    have hone : components [piece] = [.name text] := by
      rw [components, List.filterMap_cons_some hpiece]
      rfl
    have hbefore : components front = before := hfront
    rw [components_append, components_append, hbefore, hnone, hone, List.append_nil]
  · rw [endsInName, List.getLast?_concat, Option.bind_some, hpiece]

/-- The last component of a path that ends in a name. -/
theorem components_of_endsInName (h : endsInName path = true) :
    ∃ before text, components path = before ++ [.name text] := by
  unfold endsInName at h
  split at h
  · rename_i text htext
    obtain ⟨piece, hpiece, hname⟩ := Option.bind_eq_some_iff.mp htext
    obtain ⟨front, rfl⟩ := List.getLast?_eq_some_iff.mp hpiece
    refine ⟨components front, text, ?_⟩
    rw [components_append, components, components, List.filterMap_cons_some hname]
    rfl
  · cases h

end Pieces

section Confined

variable {root : Piece} {path folder : Path}

/-- The normal form of a path whose walk ends inside. -/
theorem normal_of_inside {depth : ℕ} (h : walk root .above (components path) = .inside depth) :
    ∃ rest, rest.length = depth ∧ normal path = .name root :: rest := by
  have hstands := stands_walk root (components path)
  rw [h] at hstands
  obtain ⟨names, hlength, hstack⟩ := hstands
  refine ⟨(names.map .name).reverse, by simpa using hlength, ?_⟩
  rw [normal, hstack, List.reverse_append]
  rfl

/-- The stack of a path with a normal form in the folder. -/
theorem stackOf_of_normal {rest : List Component} (h : normal path = .name root :: rest) :
    stackOf (components path) = rest.reverse ++ [.name root] := by
  rw [← List.reverse_cons, ← h, normal, List.reverse_reverse]

/-- A folder on the way does not end above when its last piece is a name. -/
theorem walk_ne_above (h : endsInName path = true) : walk root .above (components path) ≠ .above := by
  obtain ⟨before, text, hcomponents⟩ := components_of_endsInName h
  rw [hcomponents, walk_concat]
  cases walk root .above before with
  | inside depth => nofun
  | outside => nofun
  | above =>
    rw [Place.step]
    split_ifs <;> nofun

/-- The directories of a path are its prefixes that end in a name. -/
theorem mem_directories : folder ∈ directories path ↔ folder <+: path.dropLast ∧ endsInName folder = true := by
  rw [directories, List.mem_filter, List.mem_inits]

/-- A walk that leaves the folder is that of a path outside, or of one with a folder
outside on its way. -/
theorem not_outside (hbelow : StrictlyBelow root (cut path))
    (hfolders : ∀ folder ∈ directories path, AtOrBelow root (cut folder)) :
    walk root .above (components (cut path)) ≠ .outside := by
  intro hplace
  obtain ⟨rest, hrest, hnormal⟩ := hbelow
  have hstack := stackOf_of_normal hnormal
  obtain ⟨before, c, after, hcomponents, hbefore, hc⟩ := walk_eq_outside hplace
  have hempty : stackOf before = [] := by
    have hstands := stands_walk root before
    rwa [hbefore] at hstands
  rcases hc with rfl | ⟨text, htext, rfl⟩
  · -- two dots above the folder stay at the bottom of the stack
    obtain ⟨stack, hbottom⟩ := foldl_push_bottom after []
    have hsplit : stackOf (before ++ .up :: after) = after.foldl push (push (stackOf before) .up) := by
      rw [stackOf, List.foldl_append]
      rfl
    rw [hcomponents, hsplit, hempty] at hstack
    have hlast := congrArg List.getLast? (hbottom.symm.trans hstack)
    rw [List.getLast?_concat, List.getLast?_concat] at hlast
    cases hlast
  · -- another name above the folder is the path itself or a folder on its way
    obtain ⟨folder, tail, hpath, hfolder, hends⟩ := split_at_name hcomponents
    have hsingle : stackOf (components folder) = [.name text] := by
      rw [hfolder, stackOf_concat, hempty]
      rfl
    by_cases htail : tail = []
    · rw [htail, List.append_nil] at hpath
      rw [hpath, hsingle] at hstack
      cases rest with
      | nil => exact hrest rfl
      | cons c rest =>
        have hlength := congrArg List.length hstack
        simp at hlength
    · obtain ⟨hfront, hsame⟩ := prefix_of_cut hpath htail
      obtain ⟨rest', hnormal'⟩ := hfolders folder (mem_directories.mpr ⟨hfront, hends⟩)
      rw [hsame, normal, hsingle] at hnormal'
      exact htext (Component.name.inj (List.cons.inj hnormal').1)

/-- A path and the folders above it stay in a folder exactly when a walk along what the
system sees of it ends below the folder, and is on its way never above but between two
dots and the folder's own name. -/
theorem confined_iff (root : Piece) (path : Path) :
    (StrictlyBelow root (cut path) ∧ ∀ folder ∈ directories path, AtOrBelow root (cut folder)) ↔
      ∃ depth, walk root .above (components (cut path)) = .inside (depth + 1) := by
  constructor
  · rintro ⟨hbelow, hfolders⟩
    have hplace := not_outside hbelow hfolders
    obtain ⟨rest, hrest, hnormal⟩ := hbelow
    cases h : walk root .above (components (cut path)) with
    | outside => exact absurd h hplace
    | above =>
      have hstands := stands_walk root (components (cut path))
      rw [h] at hstands
      rw [normal, show stackOf (components (cut path)) = [] from hstands] at hnormal
      cases hnormal
    | inside depth =>
      obtain ⟨rest', hlength, hnormal'⟩ := normal_of_inside h
      obtain rfl := (List.cons.inj (hnormal.symm.trans hnormal')).2
      obtain ⟨depth', rfl⟩ := Nat.exists_eq_succ_of_ne_zero
        (hlength ▸ (List.length_pos_iff.mpr hrest).ne')
      exact ⟨depth', rfl⟩
  · rintro ⟨depth, hplace⟩
    obtain ⟨rest, hlength, hnormal⟩ := normal_of_inside hplace
    have hrest : rest ≠ [] := List.length_pos_iff.mp (by omega)
    refine ⟨⟨rest, hrest, hnormal⟩, fun folder hfolder => ?_⟩
    obtain ⟨hfront, hends⟩ := mem_directories.mp hfolder
    rcases cut_of_prefix (hfront.trans (List.dropLast_prefix path)) with ⟨hsame, tail, htail⟩ | heq
    · rw [hsame]
      have hwalk : walk root (walk root .above (components folder)) (components tail) =
          .inside (depth + 1) := by
        rw [← hplace, htail, components_append]
        exact (List.foldl_append ..).symm
      cases h : walk root .above (components folder) with
      | above => exact absurd h (walk_ne_above hends)
      | outside =>
        rw [h, walk_outside] at hwalk
        cases hwalk
      | inside depth' =>
        obtain ⟨rest', -, hnormal'⟩ := normal_of_inside h
        exact ⟨rest', hnormal'⟩
    · rw [heq]
      exact ⟨rest, hnormal⟩

end Confined

end HermesFlow.LexicalPath
