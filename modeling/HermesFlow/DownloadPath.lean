import HermesFlow.LexicalPath
import HermesFlow.NodeOrigin

/-!
# Paths of downloaded files

A file input tests, makes, truncates, removes and reads paths that come from one
string of the request. What the file system and S3 answer is a parameter of a run.
The files stay below the folder of downloads, and the folders made for them in it,
for the names that a walk along their pieces accepts.
-/

namespace HermesFlow.DownloadPath

open LexicalPath

/-- A string as `std::filesystem::path` takes it. -/
def pathOf (s : String) : Path := s.toList.splitOn '/'

/-- The folder of `DOWNLOADS_DIR`. -/
def ROOT : Piece := "downloads".toList

/-- An access to the file system. -/
inductive Access where
  /-- `std::filesystem::exists`. -/
  | test (path : Path)
  /-- `create_directory` for an element of a parent path. -/
  | makeDirectory (path : Path)
  /-- `open` with `create` and `truncate`. -/
  | truncate (path : Path)
  | remove (path : Path)
  /-- `open` with `read_only`. -/
  | read (path : Path)

/-- What the calls of `ensure_file_exists` find outside. -/
structure Answers where
  /-- The file exists. -/
  found : Bool
  /-- `S3Session::create`. -/
  session : Except ErrorInfo Unit
  /-- The error of `create_directories`, if any. -/
  directoriesError : Option String
  /-- The error of `file_.open`, if any. -/
  openError : Option String
  /-- `request_file`; an exception ends it like an error. -/
  request : Except ErrorInfo Unit
  /-- The partial file exists when the guard is destroyed. -/
  left : Bool

/-- `FileSink::Prepare`. -/
def prepare (a : Answers) (path : Path) : List Access × Except String Unit :=
  let made := (directories path).map .makeDirectory
  match a.directoriesError with
  | some what => (made, .error ("Dir error: " ++ what))
  | none =>
    match a.openError with
    | some what => (made ++ [.truncate path], .error ("File open error: " ++ what))
    | none => (made ++ [.truncate path], .ok ())

/-- `~PartialFileGuard` of an engaged guard. -/
def removePartial (a : Answers) (path : Path) : List Access :=
  .test path :: if a.left then [.remove path] else []

/-- `download_from_s3`. -/
def downloadFromS3 (a : Answers) (path : Path) : List Access × Except ErrorInfo Unit :=
  match a.session with
  | .error error => ([], .error error)
  | .ok () =>
    match prepare a path with
    | (accesses, .error what) => (accesses, .error ⟨.fileSystemError, "Sink Prep Failed: " ++ what⟩)
    | (accesses, .ok ()) =>
      match a.request with
      | .error error => (accesses ++ removePartial a path, .error error)
      | .ok () => (accesses, .ok ())

/-- `ensure_file_exists`. -/
def ensureFileExists (a : Answers) (path : Path) : List Access × Except ErrorInfo Unit :=
  if a.found then ([.test path], .ok ())
  else
    let (accesses, result) := downloadFromS3 a path
    (.test path :: accesses, result)

/-- The loop of `FileInputNode::open`, with the outcomes of its attempts. -/
def openFile (path : Path) : ℕ → List Bool → List Access
  | 0, _ => []
  | _ + 1, [] => [.read path]
  | attempts + 1, opened :: outcomes =>
    .read path :: if opened then [] else openFile path attempts outcomes

/-- A call of a file input. -/
inductive Call where
  | ensureFileExists (a : Answers)
  | openFile (outcomes : List Bool)

/-- The accesses of calls in order. -/
def accesses (path : Path) (calls : List Call) : List Access :=
  calls.flatMap fun
    | .ensureFileExists a => (ensureFileExists a path).1
    | .openFile outcomes => openFile path 3 outcomes

/-- A folder that is made is the folder of downloads or below it, and every other path
is below it. -/
def Access.Confined : Access → Prop
  | .makeDirectory path => AtOrBelow ROOT (cut path)
  | .test path | .truncate path | .remove path | .read path => StrictlyBelow ROOT (cut path)

/-- A file name that stays below the folder, by a walk along its pieces. -/
def staysBelow (fileName : String) : Bool :=
  match walk ROOT (.inside 0) (components (cut (pathOf fileName))) with
  | .inside (_ + 1) => true
  | _ => false

example : staysBelow "songs/../intro.wav" = true := by decide

example : staysBelow "songs/../../intro.wav" = false := by decide

/-- An access of a file input with a path. -/
def Access.Of (path : Path) : Access → Prop
  | .makeDirectory folder => folder ∈ directories path
  | .test path' | .truncate path' | .remove path' | .read path' => path' = path

section Accesses

variable {a : Answers} {path : Path} {access : Access}

/-- Preparing the sink touches files of the path alone. -/
theorem of_prepare (h : access ∈ (prepare a path).1) : access.Of path := by
  have hmade (h : access ∈ (directories path).map Access.makeDirectory) : access.Of path := by
    obtain ⟨folder, hfolder, rfl⟩ := List.mem_map.mp h
    exact hfolder
  have hopened (h : access ∈ (directories path).map Access.makeDirectory ++ [.truncate path]) :
      access.Of path := by
    rcases List.mem_append.mp h with h | h
    · exact hmade h
    · obtain rfl := List.mem_singleton.mp h
      rfl
  unfold prepare at h
  split at h
  · exact hmade h
  · split at h
    · exact hopened h
    · exact hopened h

/-- The guard touches files of the path alone. -/
theorem of_removePartial (h : access ∈ removePartial a path) : access.Of path := by
  unfold removePartial at h
  rcases List.mem_cons.mp h with rfl | h
  · rfl
  · split_ifs at h
    · obtain rfl := List.mem_singleton.mp h
      rfl
    · cases h

/-- A download touches files of the path alone. -/
theorem of_downloadFromS3 (h : access ∈ (downloadFromS3 a path).1) : access.Of path := by
  have hprepare := @of_prepare a path access
  unfold downloadFromS3 at h
  split at h
  · cases h
  · split at h
    · rename_i heq
      rw [heq] at hprepare
      exact hprepare h
    · rename_i heq
      rw [heq] at hprepare
      split at h
      · exact (List.mem_append.mp h).elim hprepare of_removePartial
      · exact hprepare h

/-- Opening the file touches files of the path alone. -/
theorem of_openFile {attempts : ℕ} {outcomes : List Bool} (h : access ∈ openFile path attempts outcomes) :
    access.Of path := by
  induction attempts generalizing outcomes with
  | zero => cases h
  | succ attempts ih =>
    cases outcomes with
    | nil =>
      obtain rfl := List.mem_singleton.mp h
      rfl
    | cons opened outcomes =>
      rcases List.mem_cons.mp h with rfl | h
      · rfl
      · split_ifs at h
        · cases h
        · exact ih h

/-- Every access of a run is to the path or to a folder above it. -/
theorem of_accesses {calls : List Call} (h : access ∈ accesses path calls) : access.Of path := by
  obtain ⟨call, -, h⟩ := List.mem_flatMap.mp h
  cases call with
  | openFile outcomes => exact of_openFile h
  | ensureFileExists a =>
    change access ∈ (ensureFileExists a path).1 at h
    unfold ensureFileExists at h
    split_ifs at h
    · obtain rfl := List.mem_singleton.mp h
      rfl
    · rcases List.mem_cons.mp h with rfl | h
      · rfl
      · exact of_downloadFromS3 h

/-- A download that fails while the file is written. -/
def failedDownload : Answers where
  found := false
  session := .ok ()
  directoriesError := none
  openError := none
  request := .error ⟨.networkError, "connection reset"⟩
  left := true

/-- It makes every access. -/
theorem mem_failedDownload :
    .test path ∈ accesses path [.ensureFileExists failedDownload] ∧
      ∀ folder ∈ directories path,
        .makeDirectory folder ∈ accesses path [.ensureFileExists failedDownload] := by
  have hrun : accesses path [.ensureFileExists failedDownload] =
      .test path :: ((directories path).map .makeDirectory ++ [.truncate path] ++
        [.test path, .remove path]) := by
    rw [accesses, List.flatMap_singleton]
    rfl
  rw [hrun]
  refine ⟨List.mem_cons_self, fun folder hfolder => List.mem_cons_of_mem _ ?_⟩
  rw [List.append_assoc]
  exact List.mem_append_left _ (List.mem_map_of_mem hfolder)

/-- All runs are confined exactly when the path and the folders above it are. -/
theorem confined_accesses_iff :
    (∀ calls, ∀ access ∈ accesses path calls, access.Confined) ↔
      StrictlyBelow ROOT (cut path) ∧ ∀ folder ∈ directories path, AtOrBelow ROOT (cut folder) := by
  constructor
  · intro h
    obtain ⟨htest, hmake⟩ := @mem_failedDownload path
    exact ⟨h _ _ htest, fun folder hfolder => h _ _ (hmake folder hfolder)⟩
  · rintro ⟨hbelow, hfolders⟩ calls access haccess
    have hof := of_accesses haccess
    cases access with
    | makeDirectory folder => exact hfolders folder hof
    | test path' => exact (show path' = path from hof) ▸ hbelow
    | truncate path' => exact (show path' = path from hof) ▸ hbelow
    | remove path' => exact (show path' = path from hof) ▸ hbelow
    | read path' => exact (show path' = path from hof) ▸ hbelow

end Accesses

/-- The path of a file is its name behind the folder. -/
theorem pathOf_downloads (name : String) :
    pathOf (Infra.DOWNLOADS_DIR ++ name) = ROOT :: pathOf name := by
  have hfolder : Infra.DOWNLOADS_DIR.toList = ROOT ++ ['/'] := by decide
  have hall : ROOT.all (fun c => !(c == '/')) = true := by decide
  have hroot (c : Char) (hc : c ∈ ROOT) : (c == '/') = false := by
    have hne := List.all_eq_true.mp hall c hc
    rwa [Bool.not_eq_true'] at hne
  rw [pathOf, String.toList_append, hfolder, List.append_assoc]
  exact List.splitOnP_append_cons_of_forall_mem hroot '/' rfl name.toList

/-- A name stays below the folder when its path does. -/
theorem staysBelow_iff (name : String) :
    staysBelow name = true ↔ ∃ depth, walk ROOT .above
      (components (cut (pathOf (Infra.DOWNLOADS_DIR ++ name)))) = .inside (depth + 1) := by
  have hstart : walk ROOT .above (components (cut (pathOf (Infra.DOWNLOADS_DIR ++ name)))) =
      walk ROOT (.inside 0) (components (cut (pathOf name))) := by
    rw [pathOf_downloads, cut, if_neg (by decide)]
    rfl
  rw [hstart, staysBelow]
  split
  · rename_i depth hplace
    exact ⟨fun _ => ⟨depth, hplace⟩, fun _ => rfl⟩
  · rename_i hplace
    constructor
    · intro h
      cases h
    · rintro ⟨depth, h⟩
      exact absurd h (hplace depth)

/-- The path of a file node of an accepted flow. -/
theorem filePath_eq {lib : Infra.Library} {o : Infra.JsonObject} {graph : Infra.Graph}
    (h : Infra.parseGraph lib o = .ok graph) {node : Infra.Node} (hnode : node ∈ graph.nodes)
    {name path : String} {options : Option ℕ} (hdata : node.data = .fileInput name path options) :
    path = Infra.DOWNLOADS_DIR ++ name := by
  obtain ⟨p, hp, rfl⟩ := List.getElem_of_mem hnode
  obtain ⟨hlength, hget⟩ := List.forall₂_iff_get.mp (Infra.created_of_parseGraph h)
  obtain ⟨obj, type, data, created, -, -, -, hcreate, heq⟩ := hget p (hlength ▸ hp) hp
  rw [List.get_eq_getElem, hdata] at heq
  cases Infra.createNode_creates hcreate with
  | fileInput hname =>
    obtain ⟨rfl, rfl, -⟩ := Infra.NodeData.fileInput.inj heq
    rfl
  | _ => cases heq

/-- Every access of every run of a file node is confined to the folder of downloads
exactly when the node's file name stays below it. -/
theorem accesses_confined_iff {lib : Infra.Library} {o : Infra.JsonObject} {graph : Infra.Graph}
    (h : Infra.parseGraph lib o = .ok graph) {node : Infra.Node} (hnode : node ∈ graph.nodes)
    {name path : String} {options : Option ℕ} (hdata : node.data = .fileInput name path options) :
    (∀ calls, ∀ access ∈ accesses (pathOf path) calls, access.Confined) ↔ staysBelow name = true := by
  obtain rfl := filePath_eq h hnode hdata
  rw [confined_accesses_iff, confined_iff, staysBelow_iff]

/-- A flow with one file. -/
def fileFlow (name : String) : Infra.JsonObject :=
  Infra.flowOf [Infra.nodeJson "f" "fileInput" [("fileName", .string name)]] [] "f"

/-- A file in a folder of its own. -/
theorem accesses_confined_nested :
    ∃ graph, Infra.parseGraph Infra.plainLibrary (fileFlow "songs/intro.wav") = .ok graph ∧
      ∀ node ∈ graph.nodes, ∀ calls,
        ∀ access ∈ accesses (pathOf "downloads/songs/intro.wav") calls, access.Confined := by
  refine ⟨_, rfl, fun node hnode => ?_⟩
  obtain rfl := List.mem_singleton.mp hnode
  exact (@accesses_confined_iff Infra.plainLibrary (fileFlow "songs/intro.wav") _ rfl _
    (List.mem_singleton_self _) "songs/intro.wav" _ none rfl).mpr (by decide)

/-- The flow with the file `../notes.txt` is accepted; its run tests, writes and removes
a file beside the folder. -/
theorem parent_escapes :
    ∃ graph, Infra.parseGraph Infra.plainLibrary (fileFlow "../notes.txt") = .ok graph ∧
      ∃ node ∈ graph.nodes, ∃ name path options, node.data = .fileInput name path options ∧
        ¬ ∀ calls, ∀ access ∈ accesses (pathOf path) calls, access.Confined := by
  have hparse : ∃ graph, Infra.parseGraph Infra.plainLibrary (fileFlow "../notes.txt") = .ok graph ∧
      ∃ node ∈ graph.nodes, ∃ options,
        node.data = .fileInput "../notes.txt" (Infra.DOWNLOADS_DIR ++ "../notes.txt") options :=
    ⟨_, rfl, _, List.mem_singleton_self _, none, rfl⟩
  obtain ⟨graph, hgraph, node, hnode, options, hdata⟩ := hparse
  refine ⟨graph, hgraph, node, hnode, _, _, options, hdata, fun h => ?_⟩
  have hstays := (staysBelow_iff "../notes.txt").mpr
    ((confined_iff ROOT _).mp (confined_accesses_iff.mp h))
  exact absurd hstays (by decide)

end HermesFlow.DownloadPath
