import HermesFlow.AssetCache

/-!
# Complete assets

If no call tests for a file while a download of it is under way, and every
download still finds its path unused when it opens it, then downloads of one
path follow one another, a file found by a test is complete, and a failed
download removes its own file and no other.
-/

namespace HermesFlow.AssetCache

open EventRun FileSystem

/-- A step keeps the promises of `ensure_file_exists`. -/
structure Sound (s s' : State) : Prop where
  /-- A call that returns success leaves a complete object at its path. -/
  success : ∀ (i : ℕ) (call : Call), s'.calls[i]? = some call → call.pc = .done (.ok ()) →
    s.calls[i]? ≠ some call →
      ∃ bytes ∈ s'.delivered call.path, s'.fs.contents call.path = some bytes
  /-- A call that returns an error does not leave the file it has written. -/
  nothingLeft : ∀ (i : ℕ) (call : Call) (file : ℕ) (error : ErrorInfo), s.calls[i]? = some call →
    call.pc.file = some file → s'.calls[i]? = some { call with pc := .done (.error error) } →
      s'.fs.file call.path ≠ some file
  /-- A file that is removed was not completed by any call. -/
  notRemoved : ∀ (path : Path) (file : ℕ), s.fs.file path = some file →
    s'.fs.file path ≠ some file → file ∉ s.completed

/-- A step after which the answers are sound. -/
def SoundStep (s : State) (e : Event) : Prop := ∀ s', step s e = some s' → Sound s s'

/-- A test for a file finds no download of it under way, and a download finds its
path still unused when it opens it. -/
def Undisturbed (s : State) : Event → Prop
  | .test i => ∀ call ∈ s.calls[i]?, ∀ other ∈ s.calls, other.path = call.path →
      other.pc.file = none
  | .prepare i _ => ∀ call ∈ s.calls[i]?, s.fs.file call.path = none
  | _ => True

instance (s : State) : (e : Event) → Decidable (Undisturbed s e)
  | .test i => inferInstanceAs (Decidable (∀ call ∈ s.calls[i]?, ∀ other ∈ s.calls,
      other.path = call.path → other.pc.file = none))
  | .prepare i _ => inferInstanceAs (Decidable (∀ call ∈ s.calls[i]?, s.fs.file call.path = none))
  | .begin _ | .createSession _ _ | .write _ _ | .streamed _ _ | .commit _ | .guardTest _
  | .guardRemove _ => inferInstanceAs (Decidable True)

/-- Downloads of one path follow one another. -/
structure Inv (s : State) : Prop where
  /-- A download's file is the one at its path. -/
  held : ∀ (i : ℕ) (call : Call) (file : ℕ), s.calls[i]? = some call → call.pc.file = some file →
    s.fs.file call.path = some file
  /-- A path has one download at a time. -/
  one : ∀ (i j : ℕ) (a b : Call) (file : ℕ), s.calls[i]? = some a → s.calls[j]? = some b →
    a.pc.file = some file → b.pc.file = some file → i = j
  /-- The file of a download under way is not completed. -/
  pending : ∀ (i : ℕ) (call : Call) (file : ℕ), s.calls[i]? = some call →
    call.pc.file = some file → file ∉ s.completed
  /-- It holds what the download has written. -/
  streaming : ∀ (i : ℕ) (call : Call) (file : ℕ) (written : List UInt8), s.calls[i]? = some call →
    call.pc = .streaming file written → s.fs.data file = written
  /-- A file about to be committed has all that its request delivered. -/
  committing : ∀ (i : ℕ) (call : Call) (file : ℕ) (written : List UInt8), s.calls[i]? = some call →
    call.pc = .committing file written →
      s.fs.data file = written ∧ written ∈ s.delivered call.path
  /-- Every other file is complete. -/
  complete : ∀ (path : Path) (file : ℕ), s.fs.file path = some file →
    (∃ call ∈ s.calls, call.path = path ∧ call.pc.file = some file) ∨
      s.fs.data file ∈ s.delivered path
  /-- A completed file is an old one. -/
  old : ∀ file ∈ s.completed, file < s.fs.next

/-- Nothing is downloaded at first. -/
theorem inv_initial (fs : FileSystem Path) : Inv (initial fs) where
  held := fun _ _ _ h => absurd h (by simp [initial])
  one := fun _ _ _ _ _ h => absurd h (by simp [initial])
  pending := fun _ _ _ h => absurd h (by simp [initial])
  streaming := fun _ _ _ _ h => absurd h (by simp [initial])
  committing := fun _ _ _ _ h => absurd h (by simp [initial])
  complete := fun path file h => .inr (by
    have hcontents : fs.contents path = some (fs.data file) := by
      rw [contents, show fs.file path = some file from h, Option.map_some]
    simp [initial, hcontents])
  old := fun _ h => absurd h List.not_mem_nil

/-- The calls after one of them has moved. -/
theorem getElem?_setCall {s : State} {i : ℕ} {call : Call} {pc : Pc} {j : ℕ} {other : Call}
    (h : (s.setCall i call pc).calls[j]? = some other) :
    j = i ∧ other = { call with pc := pc } ∨ j ≠ i ∧ s.calls[j]? = some other :=
  getElem?_set_cases h

/-- A call that is set is at its new counter. -/
theorem getElem?_setCall_self {s : State} {i : ℕ} {call : Call} (hc : s.calls[i]? = some call)
    (pc : Pc) : (s.setCall i call pc).calls[i]? = some { call with pc := pc } := by
  have hi := (List.getElem?_eq_some_iff.mp hc).1
  simp only [State.setCall, List.getElem?_set_self hi]

/-- The other calls stay as they are. -/
theorem getElem?_setCall_of_ne {s : State} {i j : ℕ} (call : Call) (pc : Pc) (h : j ≠ i) :
    (s.setCall i call pc).calls[j]? = s.calls[j]? := by
  simp only [State.setCall, List.getElem?_set_ne (Ne.symm h)]

/-- A call that does not move is still there. -/
theorem mem_setCall_of_ne {s : State} {i : ℕ} {call other : Call} (hc : s.calls[i]? = some call)
    (hmem : other ∈ s.calls) (hne : other ≠ call) (pc : Pc) :
    other ∈ (s.setCall i call pc).calls := by
  obtain ⟨j, hj⟩ := List.mem_iff_getElem?.mp hmem
  have hji : j ≠ i := by
    rintro rfl
    exact hne (Option.some.inj (hj.symm.trans hc))
  exact List.mem_of_getElem? ((getElem?_setCall_of_ne call pc hji).trans hj)

/-- Calls of other paths stay among the calls. -/
theorem mem_setCall_of_path_ne {s : State} {i : ℕ} {call other : Call}
    (hc : s.calls[i]? = some call) (hmem : other ∈ s.calls) (hpath : other.path ≠ call.path)
    (pc : Pc) : other ∈ (s.setCall i call pc).calls := by
  refine mem_setCall_of_ne hc hmem ?_ pc
  rintro rfl
  exact hpath rfl

/-- Deliveries are only added. -/
theorem delivered_deliver (s : State) (path : Path) (bytes : List UInt8) {other : Path} :
    s.delivered other ⊆ (s.deliver path bytes).delivered other := by
  intro object hobject
  by_cases hsame : other = path
  · subst hsame
    simp only [State.deliver, Function.update_self]
    exact List.mem_append_left _ hobject
  · simpa only [State.deliver, Function.update_of_ne hsame] using hobject

/-- What is delivered is recorded for its path. -/
theorem mem_delivered_deliver (s : State) (path : Path) (bytes : List UInt8) :
    bytes ∈ (s.deliver path bytes).delivered path := by
  simp only [State.deliver, Function.update_self]
  exact List.mem_append_right _ (List.mem_singleton.mpr rfl)

/-- A call that moves on with the file it has, or with none: it may write that
file, and objects may be delivered. -/
theorem Inv.move {s : State} (h : Inv s) (s₁ : State) (hcalls : s₁.calls = s.calls)
    (hnames : s₁.fs.file = s.fs.file) (hnext : s₁.fs.next = s.fs.next)
    (hcompleted : s₁.completed = s.completed)
    (hdelivered : ∀ path, s.delivered path ⊆ s₁.delivered path) {i : ℕ} {call : Call}
    (hc : s.calls[i]? = some call) {pc : Pc} (hfile : pc.file = call.pc.file)
    (hdata : ∀ file, call.pc.file ≠ some file → s₁.fs.data file = s.fs.data file)
    (hstreaming : ∀ file written, pc = .streaming file written → s₁.fs.data file = written)
    (hcommitting : ∀ file written, pc = .committing file written →
      s₁.fs.data file = written ∧ written ∈ s₁.delivered call.path) :
    Inv (s₁.setCall i call pc) := by
  have hc₁ : s₁.calls[i]? = some call := hcalls ▸ hc
  -- the files of the other downloads are other files
  have hother : ∀ {j : ℕ} {other : Call} {file : ℕ}, s.calls[j]? = some other → j ≠ i →
      other.pc.file = some file → s₁.fs.data file = s.fs.data file :=
    fun hj hne hf => hdata _ fun hsame => hne (h.one _ i _ call _ hj hc hf hsame)
  constructor
  · intro j other file hj hf
    simp only [State.setCall, hnames]
    rcases getElem?_setCall hj with ⟨-, rfl⟩ | ⟨-, hold⟩
    · exact h.held i call file hc (hfile ▸ hf)
    · exact h.held j other file (hcalls ▸ hold) hf
  · intro j k a b file hj hk ha hb
    rcases getElem?_setCall hj with ⟨rfl, rfl⟩ | ⟨-, hold⟩ <;>
      rcases getElem?_setCall hk with ⟨rfl, rfl⟩ | ⟨-, hold'⟩
    · rfl
    · exact h.one j k call b file hc (hcalls ▸ hold') (hfile ▸ ha) hb
    · exact h.one j k a call file (hcalls ▸ hold) hc ha (hfile ▸ hb)
    · exact h.one j k a b file (hcalls ▸ hold) (hcalls ▸ hold') ha hb
  · intro j other file hj hf
    simp only [State.setCall, hcompleted]
    rcases getElem?_setCall hj with ⟨-, rfl⟩ | ⟨-, hold⟩
    · exact h.pending i call file hc (hfile ▸ hf)
    · exact h.pending j other file (hcalls ▸ hold) hf
  · intro j other file written hj hp
    rcases getElem?_setCall hj with ⟨-, rfl⟩ | ⟨hne, hold⟩
    · exact hstreaming file written hp
    · rw [hcalls] at hold
      exact (hother hold hne (by rw [hp]; rfl)).trans (h.streaming j other file written hold hp)
  · intro j other file written hj hp
    rcases getElem?_setCall hj with ⟨-, rfl⟩ | ⟨hne, hold⟩
    · exact hcommitting file written hp
    · rw [hcalls] at hold
      obtain ⟨hbytes, hobject⟩ := h.committing j other file written hold hp
      exact ⟨(hother hold hne (by rw [hp]; rfl)).trans hbytes, hdelivered _ hobject⟩
  · intro path file hf
    simp only [State.setCall, hnames] at hf
    by_cases hown : call.pc.file = some file
    · have hpath : path = call.path := s.fs.one_name _ _ file hf (h.held i call file hc hown)
      exact .inl ⟨_, List.mem_of_getElem? (getElem?_setCall_self hc₁ pc), hpath.symm,
        hfile.trans hown⟩
    · rcases h.complete path file hf with ⟨other, hmem, hpath, hopen⟩ | hcomplete
      · have hne : other ≠ call := by
          rintro rfl
          exact hown hopen
        exact .inl ⟨other, mem_setCall_of_ne hc₁ (hcalls ▸ hmem) hne pc, hpath, hopen⟩
      · refine .inr (hdelivered path ?_)
        rw [show (s₁.setCall i call pc).fs.data file = s.fs.data file from hdata file hown]
        exact hcomplete
  · intro file hcomplete
    simp only [State.setCall, hcompleted, hnext] at hcomplete ⊢
    exact h.old file hcomplete

/-- A call without a download moves on. -/
theorem Inv.setCall {s : State} (h : Inv s) {i : ℕ} {call : Call} (hc : s.calls[i]? = some call)
    {pc : Pc} (hfile : pc.file = call.pc.file) (hstreaming : ∀ file written, pc ≠ .streaming file written)
    (hcommitting : ∀ file written, pc ≠ .committing file written) : Inv (s.setCall i call pc) :=
  h.move s rfl rfl rfl rfl (fun _ _ hobject => hobject) hc hfile (fun _ _ => rfl)
    (fun file written hp => absurd hp (hstreaming file written))
    (fun file written hp => absurd hp (hcommitting file written))

/-- A new call keeps the invariant. -/
theorem Inv.begin {s : State} (h : Inv s) (path : Path) :
    Inv { s with calls := s.calls ++ [⟨path, .testing⟩] } := by
  have hold : ∀ {j : ℕ} {other : Call}, (s.calls ++ [⟨path, .testing⟩])[j]? = some other →
      other.pc ≠ .testing → s.calls[j]? = some other := by
    intro j other hj hp
    rw [List.getElem?_append] at hj
    split at hj
    · exact hj
    · rw [List.mem_singleton.mp (List.mem_of_getElem? hj)] at hp
      exact absurd rfl hp
  have hopen : ∀ {other : Call} {file : ℕ}, other.pc.file = some file → other.pc ≠ .testing := by
    intro other file hf hp
    rw [hp] at hf
    cases hf
  constructor
  · exact fun j other file hj hf => h.held j other file (hold hj (hopen hf)) hf
  · exact fun j k a b file hj hk ha hb =>
      h.one j k a b file (hold hj (hopen ha)) (hold hk (hopen hb)) ha hb
  · exact fun j other file hj hf => h.pending j other file (hold hj (hopen hf)) hf
  · exact fun j other file written hj hp =>
      h.streaming j other file written (hold hj (by rw [hp]; exact fun h => by cases h)) hp
  · exact fun j other file written hj hp =>
      h.committing j other file written (hold hj (by rw [hp]; exact fun h => by cases h)) hp
  · intro other file hf
    refine (h.complete other file hf).imp_left ?_
    rintro ⟨call, hcall, hrest⟩
    exact ⟨call, List.mem_append_left _ hcall, hrest⟩
  · exact h.old

/-- A chunk is appended to the file of one download. -/
theorem Inv.write {s : State} (h : Inv s) {i : ℕ} {call : Call} {file : ℕ} {written : List UInt8}
    (hc : s.calls[i]? = some call) (hp : call.pc = .streaming file written) (chunk : List UInt8) :
    Inv ({ s with fs := s.fs.writeAt file written.length chunk }.setCall i call
      (.streaming file (written ++ chunk))) := by
  have hdata : s.fs.data file = written := h.streaming i call file written hc hp
  have happend : s.fs.writeAt file written.length chunk = s.fs.setData file (written ++ chunk) := by
    rw [writeAt, hdata, overwrite_length]
  have hfile : (Pc.streaming file (written ++ chunk)).file = call.pc.file := by
    rw [hp]
    rfl
  rw [happend]
  refine h.move { s with fs := s.fs.setData file (written ++ chunk) } rfl rfl rfl rfl
    (fun _ _ hobject => hobject) hc hfile ?_ ?_ ?_
  · intro other hother
    have hne : other ≠ file := by
      rintro rfl
      exact hother (by rw [hp]; rfl)
    exact setData_data_of_ne s.fs _ hne
  · intro f w hmoved
    cases hmoved
    exact setData_data_self s.fs file _
  · intro f w hmoved
    cases hmoved

/-- A download ends: what it has written is a complete object. -/
theorem Inv.deliver {s : State} (h : Inv s) {i : ℕ} {call : Call} {file : ℕ} {written : List UInt8}
    (hc : s.calls[i]? = some call) (hp : call.pc = .streaming file written) :
    Inv (streamed s i call file written (.ok ())) := by
  have hfile : (Pc.committing file written).file = call.pc.file := by
    rw [hp]
    rfl
  have hwritten := h.streaming i call file written hc hp
  refine h.move (s.deliver call.path written) rfl rfl rfl rfl ?_ hc hfile (fun _ _ => rfl) ?_ ?_
  · exact fun path object hobject => delivered_deliver s call.path written hobject
  · intro f w hmoved
    cases hmoved
  · intro f w hmoved
    cases hmoved
    exact ⟨hwritten, mem_delivered_deliver s call.path written⟩

/-- A download opens a file of its own. -/
theorem Inv.prepare {s : State} (h : Inv s) {i : ℕ} {call : Call} (hc : s.calls[i]? = some call)
    (hunused : s.fs.file call.path = none) : Inv (prepare s i call (.ok ())) := by
  have hfresh : ∀ {j : ℕ} {other : Call} {file : ℕ}, s.calls[j]? = some other →
      other.pc.file = some file → other.path ≠ call.path ∧ file ≠ s.fs.next := by
    intro j other file hj hf
    have hheld := h.held j other file hj hf
    constructor
    · intro hpath
      rw [hpath, hunused] at hheld
      cases hheld
    · rintro rfl
      exact absurd (s.fs.fresh _ _ hheld) (Nat.lt_irrefl _)
  rw [AssetCache.prepare, openTruncate_of_none hunused]
  constructor
  · intro j other file hj hf
    rcases getElem?_setCall hj with ⟨-, rfl⟩ | ⟨-, hold⟩
    · cases hf
      exact create_file_self s.fs call.path
    · exact (create_file_of_ne s.fs (hfresh hold hf).1).trans (h.held j other file hold hf)
  · intro j k a b file hj hk ha hb
    rcases getElem?_setCall hj with ⟨rfl, rfl⟩ | ⟨-, hold⟩ <;>
      rcases getElem?_setCall hk with ⟨rfl, rfl⟩ | ⟨-, hold'⟩
    · rfl
    · cases ha
      exact absurd rfl (hfresh hold' hb).2
    · cases hb
      exact absurd rfl (hfresh hold ha).2
    · exact h.one j k a b file hold hold' ha hb
  · intro j other file hj hf hcompleted
    rcases getElem?_setCall hj with ⟨-, rfl⟩ | ⟨-, hold⟩
    · cases hf
      exact absurd (h.old _ hcompleted) (Nat.lt_irrefl _)
    · exact h.pending j other file hold hf hcompleted
  · intro j other file written hj hp
    rcases getElem?_setCall hj with ⟨-, rfl⟩ | ⟨-, hold⟩
    · cases hp
      exact create_data_self s.fs call.path
    · have hf : other.pc.file = some file := by rw [hp]; rfl
      exact (create_data_of_ne s.fs _ (hfresh hold hf).2).trans
        (h.streaming j other file written hold hp)
  · intro j other file written hj hp
    rcases getElem?_setCall hj with ⟨-, rfl⟩ | ⟨-, hold⟩
    · cases hp
    · have hf : other.pc.file = some file := by rw [hp]; rfl
      obtain ⟨hbytes, hobject⟩ := h.committing j other file written hold hp
      exact ⟨(create_data_of_ne s.fs _ (hfresh hold hf).2).trans hbytes, hobject⟩
  · intro path file hf
    by_cases hpath : path = call.path
    · have hnew : file = s.fs.next := by
        rw [hpath] at hf
        exact (Option.some.inj ((create_file_self s.fs call.path).symm.trans hf)).symm
      subst hnew
      exact .inl ⟨_, List.mem_of_getElem? (getElem?_setCall_self hc _), hpath.symm, rfl⟩
    · have hold : s.fs.file path = some file := (create_file_of_ne s.fs hpath).symm.trans hf
      have hne : file ≠ s.fs.next := by
        rintro rfl
        exact absurd (s.fs.fresh _ _ hold) (Nat.lt_irrefl _)
      rcases h.complete path file hold with ⟨other, hmem, hopath, hopen⟩ | hcomplete
      · have hother : other.path ≠ call.path := hopath ▸ hpath
        exact .inl ⟨other, mem_setCall_of_path_ne hc hmem hother _, hopath, hopen⟩
      · have hsame : (s.fs.create call.path).data file = s.fs.data file :=
          create_data_of_ne s.fs call.path hne
        exact .inr (hsame ▸ hcomplete)
  · exact fun file hcompleted => Nat.lt_succ_of_lt (h.old file hcompleted)

/-- A download that has closed its file is none. -/
theorem file_of_closed {s : State} {i : ℕ} {call : Call} {pc : Pc} (hpc : pc.file = none)
    {j : ℕ} {other : Call} {file : ℕ}
    (hj : (s.setCall i call pc).calls[j]? = some other) (hf : other.pc.file = some file) :
    j ≠ i ∧ s.calls[j]? = some other := by
  rcases getElem?_setCall hj with ⟨-, rfl⟩ | hold
  · rw [show pc.file = some file from hf] at hpc
    cases hpc
  · exact hold

/-- A download that ends leaves its path without a file or with a complete one. -/
theorem Inv.close {s : State} (h : Inv s) {i : ℕ} {call : Call} {file : ℕ}
    (hc : s.calls[i]? = some call) (hfile : call.pc.file = some file) (s₁ : State)
    (hcalls : s₁.calls = s.calls) (hnext : s₁.fs.next = s.fs.next)
    (hnames : ∀ path, path ≠ call.path → s₁.fs.file path = s.fs.file path)
    (hdata : s₁.fs.data = s.fs.data) (hdelivered : s₁.delivered = s.delivered)
    (hcompleted : ∀ f ∈ s₁.completed, f ∈ s.completed ∨ f = file)
    (hleft : ∀ f, s₁.fs.file call.path = some f → s.fs.data f ∈ s.delivered call.path)
    {pc : Pc} (hpc : pc.file = none) : Inv (s₁.setCall i call pc) := by
  have hheld : s.fs.file call.path = some file := h.held i call file hc hfile
  have hopen : ∀ {j : ℕ} {other : Call} {f : ℕ}, (s₁.setCall i call pc).calls[j]? = some other →
      other.pc.file = some f → j ≠ i ∧ s.calls[j]? = some other := by
    intro j other f hj hf
    rw [← hcalls] at hc ⊢
    exact file_of_closed hpc hj hf
  constructor
  · intro j other f hj hf
    obtain ⟨hne, hold⟩ := hopen hj hf
    have hother := h.held j other f hold hf
    have hpath : other.path ≠ call.path := by
      intro hpath
      rw [hpath, hheld] at hother
      cases hother
      exact hne (h.one j i other call file hold hc hf hfile)
    exact (hnames _ hpath).trans hother
  · intro j k a b f hj hk ha hb
    exact h.one j k a b f (hopen hj ha).2 (hopen hk hb).2 ha hb
  · intro j other f hj hf hmem
    obtain ⟨hne, hold⟩ := hopen hj hf
    rcases hcompleted f hmem with hmem | rfl
    · exact h.pending j other f hold hf hmem
    · exact hne (h.one j i other call f hold hc hf hfile)
  · intro j other f w hj hw
    simp only [State.setCall, hdata]
    exact h.streaming j other f w (hopen hj (by rw [hw]; rfl)).2 hw
  · intro j other f w hj hw
    simp only [State.setCall, hdata, hdelivered]
    exact h.committing j other f w (hopen hj (by rw [hw]; rfl)).2 hw
  · intro path f hf
    simp only [State.setCall, hdata, hdelivered] at hf ⊢
    by_cases hpath : path = call.path
    · subst hpath
      exact .inr (hleft f hf)
    · rw [hnames path hpath] at hf
      refine (h.complete path f hf).imp_left ?_
      rintro ⟨other, hmem, hopath, ho⟩
      have hother : other.path ≠ call.path := hopath ▸ hpath
      exact ⟨other, mem_setCall_of_path_ne (hcalls ▸ hc) (hcalls ▸ hmem) hother pc, hopath, ho⟩
  · intro f hf
    simp only [State.setCall, hnext]
    rcases hcompleted f hf with hmem | rfl
    · exact h.old f hmem
    · exact s.fs.fresh _ _ hheld

/-- A commit keeps the invariant: the committed file is complete. -/
theorem Inv.commit {s : State} (h : Inv s) {i : ℕ} {call : Call} {file : ℕ} {written : List UInt8}
    (hc : s.calls[i]? = some call) (hp : call.pc = .committing file written) :
    Inv ({ s with completed := s.completed ++ [file] }.setCall i call (.done (.ok ()))) := by
  have hfile : call.pc.file = some file := by rw [hp]; rfl
  obtain ⟨hbytes, hobject⟩ := h.committing i call file written hc hp
  refine h.close hc hfile { s with completed := s.completed ++ [file] } rfl rfl (fun _ _ => rfl) rfl
    rfl ?_ ?_ rfl
  · intro f hf
    simpa only [List.mem_append, List.mem_singleton] using hf
  · intro f hf
    obtain rfl : file = f := Option.some.inj ((h.held i call file hc hfile).symm.trans hf)
    exact hbytes ▸ hobject

/-- Removing a failed download keeps the invariant. -/
theorem Inv.remove {s : State} (h : Inv s) {i : ℕ} {call : Call} {file : ℕ} {error : ErrorInfo}
    (hc : s.calls[i]? = some call) (hp : call.pc = .removing file error) :
    Inv ({ s with fs := s.fs.remove call.path }.setCall i call (.done (.error error))) := by
  have hfile : call.pc.file = some file := by rw [hp]; rfl
  refine h.close hc hfile { s with fs := s.fs.remove call.path } rfl rfl
    (fun _ hne => remove_file_of_ne s.fs hne) rfl rfl (fun _ hf => .inl hf) ?_ rfl
  intro f hf
  have hnone : (s.fs.remove call.path).file call.path = none := remove_file_self s.fs call.path
  cases hnone.symm.trans hf

/-- A step that meets the condition keeps the invariant. -/
theorem inv_step {s s' : State} {e : Event} (h : Inv s) (hok : Undisturbed s e)
    (hs : step s e = some s') : Inv s' := by
  cases step_moves hs with
  | begin path => exact h.begin path
  | found hc hp hf => exact h.setCall hc (by rw [hp]; rfl) nofun nofun
  | missing hc hp hf => exact h.setCall hc (by rw [hp]; rfl) nofun nofun
  | created hc hp accessKey hpc hdone =>
    refine h.setCall hc (by rw [hp]; exact hpc) ?_ ?_
    · rintro file written rfl
      cases hpc
    · rintro file written rfl
      cases hpc
  | unprepared hc hp what => exact h.setCall hc (by rw [hp]; rfl) nofun nofun
  | @prepared i call hc hp => exact h.prepare hc (hok call hc)
  | write hc hp chunk => exact h.write hc hp chunk
  | delivered hc hp => exact h.deliver hc hp
  | failed hc hp error => exact h.setCall hc (by rw [hp]; rfl) nofun nofun
  | commit hc hp => exact h.commit hc hp
  | guardFound hc hp hf => exact h.setCall hc (by rw [hp]; rfl) nofun nofun
  | @guardMissing i call file error hc hp hf =>
    have hheld := h.held i call file hc (by rw [hp]; rfl)
    rw [hf] at hheld
    cases hheld
  | guardRemove hc hp => exact h.remove hc hp

/-- What a move of one call has to keep of the promises. -/
theorem Sound.setCall {s : State} {i : ℕ} {call : Call} (hc : s.calls[i]? = some call) (s₁ : State)
    (hcalls : s₁.calls = s.calls) {pc : Pc}
    (hsuccess : pc = .done (.ok ()) →
      ∃ bytes ∈ s₁.delivered call.path, s₁.fs.contents call.path = some bytes)
    (hleft : ∀ file error, call.pc.file = some file → pc = .done (.error error) →
      s₁.fs.file call.path ≠ some file)
    (hremoved : ∀ path file, s.fs.file path = some file → s₁.fs.file path ≠ some file →
      file ∉ s.completed) : Sound s (s₁.setCall i call pc) where
  success := fun j other hj hdone hnew => by
    rcases getElem?_setCall hj with ⟨-, rfl⟩ | ⟨-, hold⟩
    · exact hsuccess hdone
    · exact absurd (hcalls ▸ hold) hnew
  nothingLeft := fun j other file error hj hf hdone => by
    rcases getElem?_setCall hdone with ⟨rfl, heq⟩ | ⟨-, hold⟩
    · obtain rfl : call = other := Option.some.inj (hc.symm.trans hj)
      exact hleft file error hf (congrArg Call.pc heq).symm
    · rw [hcalls, hj] at hold
      rw [congrArg Call.pc (Option.some.inj hold)] at hf
      cases hf
  notRemoved := hremoved

/-- A call that begins promises nothing yet. -/
theorem Sound.begin (s : State) (path : Path) :
    Sound s { s with calls := s.calls ++ [⟨path, .testing⟩] } where
  success := fun j other hj hdone hnew => by
    rw [List.getElem?_append] at hj
    split at hj
    · exact absurd hj hnew
    · rw [List.mem_singleton.mp (List.mem_of_getElem? hj)] at hdone
      cases hdone
  nothingLeft := fun j other file error hj hf hdone => by
    have hlt := (List.getElem?_eq_some_iff.mp hj).1
    rw [List.getElem?_append_left hlt, hj] at hdone
    rw [congrArg Call.pc (Option.some.inj hdone)] at hf
    cases hf
  notRemoved := fun _ _ hf hne => absurd hf hne

/-- A download that fails removes its own file, which is not complete. -/
theorem Sound.remove {s : State} (h : Inv s) {i : ℕ} {call : Call} {file : ℕ} {error : ErrorInfo}
    (hc : s.calls[i]? = some call) (hp : call.pc = .removing file error) :
    Sound s ({ s with fs := s.fs.remove call.path }.setCall i call (.done (.error error))) := by
  have hfile : call.pc.file = some file := by rw [hp]; rfl
  have hheld := h.held i call file hc hfile
  refine Sound.setCall hc { s with fs := s.fs.remove call.path } rfl nofun ?_ ?_
  · intro other _ _ _ hleft
    have hnone : (s.fs.remove call.path).file call.path = none := remove_file_self s.fs call.path
    cases hnone.symm.trans hleft
  · intro path other hf hne
    by_cases hpath : path = call.path
    · obtain rfl : file = other := by
        rw [hpath, hheld] at hf
        exact Option.some.inj hf
      exact h.pending i call file hc hfile
    · exact absurd ((remove_file_of_ne s.fs hpath).trans hf) hne

/-- A step that meets the condition keeps the promises. -/
theorem sound_of_undisturbed {s : State} {e : Event} (h : Inv s) (hok : Undisturbed s e) :
    SoundStep s e := by
  intro s' hs
  have hkept : ∀ (path : Path) (file : ℕ), s.fs.file path = some file →
      s.fs.file path ≠ some file → file ∉ s.completed := fun _ _ hf hne => absurd hf hne
  cases step_moves hs with
  | begin path => exact Sound.begin s path
  | @found i call hc hp file hf =>
    refine Sound.setCall hc s rfl (fun _ => ?_) (fun _ _ _ h => by cases h) hkept
    -- nobody has the file open, so it is complete
    rcases h.complete call.path file hf with ⟨other, hmem, hpath, hopen⟩ | hcomplete
    · rw [hok call hc other hmem hpath] at hopen
      cases hopen
    · exact ⟨_, hcomplete, by rw [contents, hf, Option.map_some]⟩
  | missing hc hp hf => exact Sound.setCall hc s rfl nofun nofun hkept
  | created hc hp accessKey hpc hdone =>
    refine Sound.setCall hc s rfl (fun h => absurd h hdone) (fun _ _ hf => ?_) hkept
    rw [hp] at hf
    cases hf
  | unprepared hc hp what =>
    refine Sound.setCall hc s rfl nofun (fun _ _ hf => ?_) hkept
    rw [hp] at hf
    cases hf
  | @prepared i call hc hp =>
    have hunused := hok call hc
    rw [prepare, openTruncate_of_none hunused]
    refine Sound.setCall hc { s with fs := s.fs.create call.path } rfl nofun nofun ?_
    intro path file hf hne
    have hpath : path ≠ call.path := by
      rintro rfl
      rw [hunused] at hf
      cases hf
    exact absurd ((create_file_of_ne s.fs hpath).trans hf) hne
  | @write i call file written hc hp chunk =>
    exact Sound.setCall hc { s with fs := s.fs.writeAt file written.length chunk } rfl nofun nofun
      hkept
  | @delivered i call file written hc hp =>
    exact Sound.setCall hc (s.deliver call.path written) rfl nofun nofun hkept
  | failed hc hp error => exact Sound.setCall hc s rfl nofun nofun hkept
  | @commit i call file written hc hp =>
    obtain ⟨hbytes, hobject⟩ := h.committing i call file written hc hp
    have hheld := h.held i call file hc (by rw [hp]; rfl)
    refine Sound.setCall hc { s with completed := s.completed ++ [file] } rfl (fun _ => ?_)
      (fun _ _ _ h => by cases h) hkept
    exact ⟨written, hobject, by rw [contents, hheld, Option.map_some, hbytes]⟩
  | guardFound hc hp hf => exact Sound.setCall hc s rfl nofun nofun hkept
  | @guardMissing i call file error hc hp hf =>
    have hheld := h.held i call file hc (by rw [hp]; rfl)
    rw [hf] at hheld
    cases hheld
  | guardRemove hc hp => exact Sound.remove h hc hp

/-- In every run whose tests and downloads are undisturbed, each call that
returns success leaves a complete object at its path, and each that returns an
error neither leaves a partial file nor has removed a completed one. -/
theorem cached_complete {fs : FileSystem Path} {es : List Event}
    (hmeets : Meets step Undisturbed (initial fs) es) : Meets step SoundStep (initial fs) es :=
  hmeets.mono (fun _ _ _ h hok hs => inv_step h hok hs) (fun _ _ h hok => sound_of_undisturbed h hok)
    (inv_initial fs)

/-- One call downloads a file in two chunks, and a later one finds it. -/
def oneAfterAnother : List Event :=
  [.begin "a.wav", .test 0, .createSession 0 "key", .prepare 0 (.ok ()), .write 0 [1], .begin "a.wav",
    .write 0 [2], .streamed 0 (.ok ()), .commit 0, .test 1]

/-- Two calls, one after the other, meet the condition, and the second finds the first one's file.
-/
theorem cached_complete_found : Meets step SoundStep (initial .empty) oneAfterAnother :=
  cached_complete (by decide)

/-- A call that finds a partial file returns success. -/
theorem test_unsound {s : State} {i : ℕ} {call : Call} {file : ℕ} (hc : s.calls[i]? = some call)
    (hp : call.pc = .testing) (hf : s.fs.file call.path = some file)
    (hunfinished : s.fs.data file ∉ s.delivered call.path) : ¬ SoundStep s (.test i) := by
  intro hsound
  have hstep : step s (.test i) = some (s.setCall i call (.done (.ok ()))) := by
    simp only [step, State.atCall, hc, Option.bind_some, hp, hf, Option.isSome_some, if_true]
  have hnew : s.calls[i]? ≠ some { call with pc := .done (.ok ()) } := by
    rw [hc]
    intro heq
    rw [congrArg Call.pc (Option.some.inj heq)] at hp
    cases hp
  obtain ⟨bytes, hbytes, hcontents⟩ :=
    (hsound _ hstep).success i _ (getElem?_setCall_self hc _) rfl hnew
  have hdata : s.fs.data file = bytes := by
    simpa [State.setCall, contents, hf] using hcontents
  exact hunfinished (hdata ▸ hbytes)

/-- The second call finds the file of the first while it is being written, and
returns success with half of the object. -/
theorem cached_partial :
    ∃ s, runEvents step (initial .empty) [.begin "a.wav", .test 0, .createSession 0 "key",
        .prepare 0 (.ok ()), .write 0 [1], .begin "a.wav"] = some s ∧ ¬ SoundStep s (.test 1) := by
  refine ⟨_, rfl, ?_⟩
  exact test_unsound rfl rfl rfl (by decide)

/-- A download that is opened over a completed file, and fails, removes it. -/
theorem prepare_unsound {s : State} {i : ℕ} {call : Call} {file : ℕ} (hc : s.calls[i]? = some call)
    (hp : call.pc = .preparing) (hf : s.fs.file call.path = some file)
    (hcompleted : file ∈ s.completed) (error : ErrorInfo) :
    ¬ Meets step SoundStep s
      [.prepare i (.ok ()), .streamed i (.error error), .guardTest i, .guardRemove i] := by
  have hmove : ∀ {u : State} {other : Call} (pc : Pc), u.calls[i]? = some other →
      (u.setCall i other pc).calls[i]? = some { other with pc := pc } :=
    fun pc hu => getElem?_setCall_self hu pc
  let opened : State := { s with fs := s.fs.setData file [] }.setCall i call (.streaming file [])
  let failed : State := opened.setCall i { call with pc := .streaming file [] } (.unwinding file error)
  let tested : State :=
    failed.setCall i { call with pc := .unwinding file error } (.removing file error)
  have hopened : opened.calls[i]? = some { call with pc := .streaming file [] } := hmove _ hc
  have hfailed : failed.calls[i]? = some { call with pc := .unwinding file error } := hmove _ hopened
  have htested : tested.calls[i]? = some { call with pc := .removing file error } := hmove _ hfailed
  have hname : tested.fs.file call.path = some file := hf
  have hstep₁ : step s (.prepare i (.ok ())) = some opened := by
    simp only [step, State.atCall, hc, Option.bind_some, hp, prepare, openTruncate]
    split
    · rename_i other hother
      obtain rfl : file = other := Option.some.inj (hf.symm.trans hother)
      rfl
    · rename_i hnone
      cases hf.symm.trans hnone
  have hstep₂ : step opened (.streamed i (.error error)) = some failed := by
    simp only [step, State.atCall, hopened, Option.bind_some, streamed]
    rfl
  have hstep₃ : step failed (.guardTest i) = some tested := by
    have hfound : (failed.fs.file call.path).isSome = true := Option.isSome_iff_exists.mpr ⟨file, hf⟩
    simp only [step, State.atCall, hfailed, Option.bind_some, hfound, if_true]
    rfl
  have hstep₄ : ∃ removed, step tested (.guardRemove i) = some removed ∧
      removed.fs.file call.path = none := by
    simp only [step, State.atCall, htested, Option.bind_some]
    exact ⟨_, rfl, remove_file_self _ _⟩
  intro hmeets
  obtain ⟨removed, hstep, hremoved⟩ := hstep₄
  have hlast : SoundStep tested (.guardRemove i) :=
    (((hmeets.2 _ hstep₁).2 _ hstep₂).2 _ hstep₃).1
  refine (hlast removed hstep).notRemoved call.path file hname ?_ hcompleted
  rw [hremoved]
  exact fun h => by cases h

end HermesFlow.AssetCache
