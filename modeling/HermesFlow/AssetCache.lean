import HermesFlow.EventRun
import HermesFlow.FileSystem
import HermesFlow.Types

/-!
# The asset cache

`ensure_file_exists` takes a file that exists for a complete one, and downloads
a missing one straight to its path. Calls of any number of nodes and sessions
interleave at the accesses to the file system. A download succeeds or fails at
any point; what a successful `stream_to_sink` has written is the complete
object. Removing a name always succeeds.
-/

namespace HermesFlow.AssetCache

open EventRun

/-- `file_path_`. -/
abbrev Path := String

/-- Where a call of `ensure_file_exists` stands. -/
inductive Pc where
  /-- `std::filesystem::exists(file_path_)` next. -/
  | testing
  /-- `S3Session::create` next. -/
  | creating
  /-- `sink.Prepare(file_path_)` next. -/
  | preparing
  /-- Inside `request_file`, with the sink's file open. -/
  | streaming (file : ℕ) (written : List UInt8)
  /-- `request_file` has succeeded: `sink.Commit()` next. -/
  | committing (file : ℕ) (written : List UInt8)
  /-- `request_file` has failed: the test in `~PartialFileGuard` next. -/
  | unwinding (file : ℕ) (error : ErrorInfo)
  /-- `std::filesystem::remove` next. -/
  | removing (file : ℕ) (error : ErrorInfo)
  /-- The call has returned. -/
  | done (result : Except ErrorInfo Unit)

/-- The file that the call's sink has open. -/
def Pc.file : Pc → Option ℕ
  | .streaming file _ | .committing file _ | .unwinding file _ | .removing file _ => some file
  | _ => none

/-- One call of `ensure_file_exists`. -/
structure Call where
  /-- `file_path_` of its node. -/
  path : Path
  /-- How far the call has come. -/
  pc : Pc

/-- The file system and the calls. -/
structure State where
  /-- The files on disk. -/
  fs : FileSystem Path
  /-- The calls by their indices. -/
  calls : List Call
  /-- The complete objects delivered for a path so far. -/
  delivered : Path → List (List UInt8)
  /-- Files of downloads that have committed. -/
  completed : List ℕ

/-- The server starts; files that are there are complete. -/
def initial (fs : FileSystem Path) : State where
  fs := fs
  calls := []
  delivered := fun path => (fs.contents path).toList
  completed := []

/-- A step of a call, with the outcome of what it waits for. -/
inductive Event where
  /-- A node calls `ensure_file_exists`. -/
  | begin (path : Path)
  | test (i : ℕ)
  /-- `S3Session::create` with the access key of the session's configuration. -/
  | createSession (i : ℕ) (accessKey : String)
  /-- `Prepare`, with the error of the file system, if any. -/
  | prepare (i : ℕ) (result : Except String Unit)
  /-- A write to the sink. -/
  | write (i : ℕ) (chunk : List UInt8)
  /-- `request_file` ends. -/
  | streamed (i : ℕ) (result : Except ErrorInfo Unit)
  | commit (i : ℕ)
  /-- `std::filesystem::exists(path_)` in the guard's destructor. -/
  | guardTest (i : ℕ)
  /-- `std::filesystem::remove(path_)` there. -/
  | guardRemove (i : ℕ)

/-- The error of a session without an access key. -/
def missingConfiguration : ErrorInfo := ⟨.configError, "Missing S3 Configuration"⟩

/-- The error of a sink that cannot be prepared. -/
def sinkError (what : String) : ErrorInfo := ⟨.fileSystemError, "Sink Prep Failed: " ++ what⟩

/-- Move a call. -/
def State.setCall (s : State) (i : ℕ) (call : Call) (pc : Pc) : State :=
  { s with calls := s.calls.set i { call with pc := pc } }

/-- Make the next move of a call. -/
def State.atCall (s : State) (i : ℕ) (move : Call → Option State) : Option State :=
  s.calls[i]?.bind move

/-- A complete object has been delivered. -/
def State.deliver (s : State) (path : Path) (bytes : List UInt8) : State :=
  { s with delivered := Function.update s.delivered path (s.delivered path ++ [bytes]) }

/-- `Prepare` opens the file and engages the guard. -/
def prepare (s : State) (i : ℕ) (call : Call) : Except String Unit → State
  | .error what => s.setCall i call (.done (.error (sinkError what)))
  | .ok () =>
    { s with fs := (s.fs.openTruncate call.path).1 }.setCall i call
      (.streaming (s.fs.openTruncate call.path).2 [])

/-- After `request_file`. -/
def streamed (s : State) (i : ℕ) (call : Call) (file : ℕ) (written : List UInt8) :
    Except ErrorInfo Unit → State
  | .error error => s.setCall i call (.unwinding file error)
  | .ok () =>
    (s.deliver call.path written).setCall i call (.committing file written)

/-- The step of one event; `none` when the event cannot happen now. -/
def step (s : State) : Event → Option State
  | .begin path => some { s with calls := s.calls ++ [⟨path, .testing⟩] }
  | .test i => s.atCall i fun call =>
    match call.pc with
    | .testing =>
      some (s.setCall i call (if (s.fs.file call.path).isSome then .done (.ok ()) else .creating))
    | _ => none
  | .createSession i accessKey => s.atCall i fun call =>
    match call.pc with
    | .creating =>
      some (s.setCall i call
        (if accessKey.isEmpty then .done (.error missingConfiguration) else .preparing))
    | _ => none
  | .prepare i result => s.atCall i fun call =>
    match call.pc with
    | .preparing => some (prepare s i call result)
    | _ => none
  | .write i chunk => s.atCall i fun call =>
    match call.pc with
    | .streaming file written =>
      some ({ s with fs := s.fs.writeAt file written.length chunk }.setCall i call
        (.streaming file (written ++ chunk)))
    | _ => none
  | .streamed i result => s.atCall i fun call =>
    match call.pc with
    | .streaming file written => some (streamed s i call file written result)
    | _ => none
  | .commit i => s.atCall i fun call =>
    match call.pc with
    | .committing file _ =>
      some ({ s with completed := s.completed ++ [file] }.setCall i call (.done (.ok ())))
    | _ => none
  | .guardTest i => s.atCall i fun call =>
    match call.pc with
    | .unwinding file error =>
      some (s.setCall i call
        (if (s.fs.file call.path).isSome then .removing file error else .done (.error error)))
    | _ => none
  | .guardRemove i => s.atCall i fun call =>
    match call.pc with
    | .removing _ error =>
      some ({ s with fs := s.fs.remove call.path }.setCall i call (.done (.error error)))
    | _ => none

/-- Every step with the call that takes it. -/
inductive Moves (s : State) : Event → State → Prop where
  | begin (path : Path) : Moves s (.begin path) { s with calls := s.calls ++ [⟨path, .testing⟩] }
  | found {i : ℕ} {call : Call} (hc : s.calls[i]? = some call) (hp : call.pc = .testing) {file : ℕ}
      (hf : s.fs.file call.path = some file) : Moves s (.test i) (s.setCall i call (.done (.ok ())))
  | missing {i : ℕ} {call : Call} (hc : s.calls[i]? = some call) (hp : call.pc = .testing)
      (hf : s.fs.file call.path = none) : Moves s (.test i) (s.setCall i call .creating)
  | created {i : ℕ} {call : Call} (hc : s.calls[i]? = some call) (hp : call.pc = .creating)
      (accessKey : String) {pc : Pc} (hpc : pc.file = none) (hdone : pc ≠ .done (.ok ())) :
      Moves s (.createSession i accessKey) (s.setCall i call pc)
  | unprepared {i : ℕ} {call : Call} (hc : s.calls[i]? = some call) (hp : call.pc = .preparing)
      (what : String) :
      Moves s (.prepare i (.error what)) (s.setCall i call (.done (.error (sinkError what))))
  | prepared {i : ℕ} {call : Call} (hc : s.calls[i]? = some call) (hp : call.pc = .preparing) :
      Moves s (.prepare i (.ok ())) (prepare s i call (.ok ()))
  | write {i : ℕ} {call : Call} {file : ℕ} {written : List UInt8} (hc : s.calls[i]? = some call)
      (hp : call.pc = .streaming file written) (chunk : List UInt8) :
      Moves s (.write i chunk)
        ({ s with fs := s.fs.writeAt file written.length chunk }.setCall i call
          (.streaming file (written ++ chunk)))
  | delivered {i : ℕ} {call : Call} {file : ℕ} {written : List UInt8}
      (hc : s.calls[i]? = some call) (hp : call.pc = .streaming file written) :
      Moves s (.streamed i (.ok ())) (streamed s i call file written (.ok ()))
  | failed {i : ℕ} {call : Call} {file : ℕ} {written : List UInt8} (hc : s.calls[i]? = some call)
      (hp : call.pc = .streaming file written) (error : ErrorInfo) :
      Moves s (.streamed i (.error error)) (s.setCall i call (.unwinding file error))
  | commit {i : ℕ} {call : Call} {file : ℕ} {written : List UInt8} (hc : s.calls[i]? = some call)
      (hp : call.pc = .committing file written) :
      Moves s (.commit i)
        ({ s with completed := s.completed ++ [file] }.setCall i call (.done (.ok ())))
  | guardFound {i : ℕ} {call : Call} {file : ℕ} {error : ErrorInfo} (hc : s.calls[i]? = some call)
      (hp : call.pc = .unwinding file error) {other : ℕ} (hf : s.fs.file call.path = some other) :
      Moves s (.guardTest i) (s.setCall i call (.removing file error))
  | guardMissing {i : ℕ} {call : Call} {file : ℕ} {error : ErrorInfo}
      (hc : s.calls[i]? = some call) (hp : call.pc = .unwinding file error)
      (hf : s.fs.file call.path = none) :
      Moves s (.guardTest i) (s.setCall i call (.done (.error error)))
  | guardRemove {i : ℕ} {call : Call} {file : ℕ} {error : ErrorInfo} (hc : s.calls[i]? = some call)
      (hp : call.pc = .removing file error) :
      Moves s (.guardRemove i)
        ({ s with fs := s.fs.remove call.path }.setCall i call (.done (.error error)))

/-- The test of the path ends the call where the file exists. -/
theorem test_moves {s : State} {i : ℕ} {call : Call} (hc : s.calls[i]? = some call)
    (hp : call.pc = .testing) :
    Moves s (.test i)
      (s.setCall i call (if (s.fs.file call.path).isSome then .done (.ok ()) else .creating)) := by
  split
  · rename_i h
    obtain ⟨file, hf⟩ := Option.isSome_iff_exists.mp h
    exact .found hc hp hf
  · rename_i h
    exact .missing hc hp (Option.not_isSome_iff_eq_none.mp h)

/-- The guard tests whether the failed download left a file. -/
theorem guardTest_moves {s : State} {i : ℕ} {call : Call} {file : ℕ} {error : ErrorInfo}
    (hc : s.calls[i]? = some call) (hp : call.pc = .unwinding file error) :
    Moves s (.guardTest i)
      (s.setCall i call
        (if (s.fs.file call.path).isSome then .removing file error else .done (.error error))) := by
  split
  · rename_i h
    obtain ⟨other, hf⟩ := Option.isSome_iff_exists.mp h
    exact .guardFound hc hp hf
  · rename_i h
    exact .guardMissing hc hp (Option.not_isSome_iff_eq_none.mp h)

/-- Without an access key the call ends with the missing configuration. -/
theorem createSession_moves {s : State} {i : ℕ} {call : Call} (hc : s.calls[i]? = some call)
    (hp : call.pc = .creating) (accessKey : String) :
    Moves s (.createSession i accessKey)
      (s.setCall i call
        (if accessKey.isEmpty then .done (.error missingConfiguration) else .preparing)) := by
  split
  · exact .created hc hp accessKey rfl (by simp)
  · exact .created hc hp accessKey rfl (by simp)

/-- Preparing the sink opens the file or ends the call. -/
theorem prepare_moves {s : State} {i : ℕ} {call : Call} (hc : s.calls[i]? = some call)
    (hp : call.pc = .preparing) (result : Except String Unit) :
    Moves s (.prepare i result) (prepare s i call result) := by
  cases result with
  | error what => exact .unprepared hc hp what
  | ok value => exact .prepared hc hp

/-- The end of the transfer commits the file or leaves it to the guard. -/
theorem streamed_moves {s : State} {i : ℕ} {call : Call} {file : ℕ} {written : List UInt8}
    (hc : s.calls[i]? = some call) (hp : call.pc = .streaming file written)
    (result : Except ErrorInfo Unit) :
    Moves s (.streamed i result) (streamed s i call file written result) := by
  cases result with
  | error error => exact .failed hc hp error
  | ok value => exact .delivered hc hp

/-- A step of the cache is one of the moves. -/
theorem step_moves {s s' : State} {e : Event} (h : step s e = some s') : Moves s e s' := by
  cases e with
  | begin path => cases h; exact .begin path
  | _ =>
    simp only [step, State.atCall, Option.bind_eq_some_iff] at h
    obtain ⟨call, hc, h⟩ := h
    split at h <;> simp only [Option.some.injEq, reduceCtorEq] at h
    subst h
    rename_i hp
    first
    | exact test_moves hc hp
    | exact createSession_moves hc hp _
    | exact .write hc hp _
    | exact .commit hc hp
    | exact guardTest_moves hc hp
    | exact .guardRemove hc hp
    | exact prepare_moves hc hp _
    | exact streamed_moves hc hp _

end HermesFlow.AssetCache
