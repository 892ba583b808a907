import HermesFlow.BoundedChannel
import HermesFlow.EventRun
import HermesFlow.Types
import Mathlib.Data.List.Nodup
import Mathlib.Data.List.Perm.Subperm
import Mathlib.Data.List.Range

/-!
# Joining the asset downloads

`await_all_dynamic` spawns a task for every item and receives as many results
from a channel of that capacity. A task ends in one step, after any others; the
coroutine itself goes on between any two of them. One thread runs the context,
so a send is not interrupted. The channel is a parameter that obeys the laws of
bounded channels.
-/

namespace HermesFlow.Audio

open BoundedChannel EventRun

/-- How `async_func` ends for an item. -/
inductive Outcome where
  | success
  | error (error : ErrorInfo)
  /-- It throws a `std::exception`. -/
  | threw (what : String)

/-- What the task of an item sends. -/
def Outcome.result : Outcome → Except ErrorInfo Unit
  | .success => .ok ()
  | .error e => .error e
  | .threw what => .error ⟨.critical, what⟩

/-- What the task of the item at a position sends. -/
def taskResult (outcomes : List Outcome) (i : ℕ) : Except ErrorInfo Unit :=
  match outcomes[i]? with
  | some outcome => outcome.result
  | none => .ok ()

/-- The task of an item. -/
inductive TaskPhase where
  | unspawned | running | finished

/-- Where the coroutine is. -/
inductive Main where
  /-- About to spawn the task at a position. -/
  | spawning (i : ℕ)
  /-- In `async_receive`, in turn `i` of its loop. -/
  | receiving (i : ℕ) (finalRes : Except ErrorInfo Unit)
  | returned (finalRes : Except ErrorInfo Unit)

/-- A run of `await_all_dynamic`. A result travels with the position of its item,
which the code does not look at. -/
structure JoinState (Ch : Type*) where
  /-- Where the coroutine is. -/
  main : Main
  /-- The tasks, by the positions of their items. -/
  tasks : List TaskPhase
  /-- `ch`. -/
  channel : Ch
  /-- The tasks that have ended, in order. -/
  completed : List ℕ
  /-- What the loop has received, in order. -/
  received : List (ℕ × Except ErrorInfo Unit)

/-- A step of the coroutine up to its next suspension, or the end of a task. -/
inductive JoinEvent where
  | advance
  | complete (i : ℕ)

/-- The task that an event ends. -/
def JoinEvent.task? : JoinEvent → Option ℕ
  | .advance => none
  | .complete i => some i

/-- The body of the receiving loop, behind `async_receive`; no result with an error code. -/
def recordResult (finalRes : Except ErrorInfo Unit) :
    Option (Except ErrorInfo Unit) → Except ErrorInfo Unit
  | none =>
    match finalRes with
    | .ok () => .error ⟨.networkError, "Channel sync error"⟩
    | .error e => .error e
  | some res =>
    match res, finalRes with
    | .error e, .ok () => .error e
    | _, finalRes => finalRes

section Model

variable {Ch : Type*} (ops : ChannelOps Ch (ℕ × Except ErrorInfo Unit))

/-- The call of `await_all_dynamic`. -/
def joinStart (n : ℕ) : JoinState Ch where
  main := if n = 0 then .returned (.ok ()) else .spawning 0
  tasks := List.replicate n .unspawned
  channel := ops.new n
  completed := []
  received := []

/-- The coroutine goes on; no result while it waits or is done. -/
def advanceJoin (n : ℕ) (s : JoinState Ch) : Option (JoinState Ch) :=
  match s.main with
  | .spawning i =>
    if i < n then some { s with main := .spawning (i + 1), tasks := s.tasks.set i .running }
    else some { s with main := .receiving 0 (.ok ()), channel := ops.asyncReceive s.channel }
  | .receiving i finalRes =>
    match ops.resume s.channel with
    | none => none
    | some (message, channel) =>
      let finalRes := recordResult finalRes (message.map Prod.snd)
      let received := s.received ++ message.toList
      if i + 1 < n then
        some { s with main := .receiving (i + 1) finalRes, channel := ops.asyncReceive channel, received }
      else some { s with main := .returned finalRes, channel := ops.close channel, received }
  | .returned _ => none

/-- The task of an item ends with its `try_send`. -/
def completeTask (outcomes : List Outcome) (s : JoinState Ch) (i : ℕ) : Option (JoinState Ch) :=
  match s.tasks[i]? with
  | some .running =>
    some { s with
      tasks := s.tasks.set i .finished
      completed := s.completed ++ [i]
      channel := (ops.trySend s.channel (i, taskResult outcomes i)).getD s.channel }
  | _ => none

/-- One step of the coroutine or of a task. -/
def joinStep (outcomes : List Outcome) (s : JoinState Ch) : JoinEvent → Option (JoinState Ch)
  | .advance => advanceJoin ops outcomes.length s
  | .complete i => completeTask ops outcomes s i

end Model

/-- The outcome of tasks that end in this order: the first error, if any. -/
def joined : List (Except ErrorInfo Unit) → Except ErrorInfo Unit
  | [] => .ok ()
  | .error e :: _ => .error e
  | .ok () :: results => joined results

/-- The loop records the first error. -/
theorem joined_snoc (results : List (Except ErrorInfo Unit)) (res : Except ErrorInfo Unit) :
    joined (results ++ [res]) = recordResult (joined results) (some res) := by
  induction results with
  | nil => cases res <;> rfl
  | cons first results ih =>
    cases first with
    | error e => cases res <;> rfl
    | ok u => exact ih

/-- Success is the success of all tasks. -/
theorem joined_eq_ok_iff (results : List (Except ErrorInfo Unit)) :
    joined results = .ok () ↔ ∀ res ∈ results, res = .ok () := by
  induction results with
  | nil => exact ⟨fun _ => nofun, fun _ => rfl⟩
  | cons first results ih =>
    cases first with
    | error e => simp [joined]
    | ok u => simp [joined, ih]

/-- An error is that of the first task that fails. -/
theorem joined_eq_error_iff (results : List (Except ErrorInfo Unit)) (e : ErrorInfo) :
    joined results = .error e ↔
      ∃ before after, results = before ++ .error e :: after ∧ ∀ res ∈ before, res = .ok () := by
  induction results with
  | nil => simp [joined]
  | cons first results ih =>
    cases first with
    | error e' =>
      constructor
      · intro h
        obtain rfl : e' = e := Except.error.inj h
        exact ⟨[], results, rfl, nofun⟩
      · rintro ⟨before, after, heq, hbefore⟩
        cases before with
        | nil => exact (List.cons.inj heq).1
        | cons res before =>
          have hres := hbefore res List.mem_cons_self
          rw [← (List.cons.inj heq).1] at hres
          cases hres
    | ok u =>
      rw [joined, ih]
      constructor
      · rintro ⟨before, after, rfl, hbefore⟩
        refine ⟨.ok () :: before, after, rfl, ?_⟩
        intro res hres
        rcases List.mem_cons.mp hres with rfl | hres
        · rfl
        · exact hbefore res hres
      · rintro ⟨before, after, heq, hbefore⟩
        cases before with
        | nil => cases (List.cons.inj heq).1
        | cons res before =>
          exact ⟨before, after, (List.cons.inj heq).2,
            fun res hres => hbefore res (List.mem_cons_of_mem _ hres)⟩

/-- The same for the results of a list of tasks. -/
theorem joined_map_eq_error_iff {ι : Type*} (result : ι → Except ErrorInfo Unit) (tasks : List ι)
    (e : ErrorInfo) :
    joined (tasks.map result) = .error e ↔
      ∃ before i after, tasks = before ++ i :: after ∧ result i = .error e ∧
        ∀ j ∈ before, result j = .ok () := by
  rw [joined_eq_error_iff]
  constructor
  · rintro ⟨before, after, heq, hbefore⟩
    obtain ⟨firsts, rest, rfl, rfl, hrest⟩ := List.map_eq_append_iff.mp heq
    obtain ⟨i, lasts, rfl, hi, rfl⟩ := List.map_eq_cons_iff.mp hrest
    exact ⟨firsts, i, lasts, rfl, hi, List.forall_mem_map.mp hbefore⟩
  · rintro ⟨before, i, after, rfl, hi, hbefore⟩
    refine ⟨before.map result, after.map result, ?_, List.forall_mem_map.mpr hbefore⟩
    rw [List.map_append, List.map_cons, hi]

/-- The message of a task. -/
def taskMessage (outcomes : List Outcome) (i : ℕ) : ℕ × Except ErrorInfo Unit :=
  (i, taskResult outcomes i)

section Invariant

variable {Ch : Type*} (ops : ChannelOps Ch (ℕ × Except ErrorInfo Unit))

/-- What holds of the coroutine at each place, with `n` items. -/
def JoinState.MainInv (n : ℕ) (s : JoinState Ch) : Prop :=
  match s.main with
  | .spawning i =>
    i ≤ n ∧ 0 < n ∧ ops.IsOpen s.channel ∧ ¬ops.Receiving s.channel ∧ s.received = [] ∧
      ∀ j : ℕ, s.tasks[j]? = some .unspawned ↔ i ≤ j ∧ j < n
  | .receiving i finalRes =>
    ops.IsOpen s.channel ∧ ops.Receiving s.channel ∧ s.received.length = i ∧ i < n ∧
      finalRes = joined (s.received.map Prod.snd) ∧ ∀ j : ℕ, s.tasks[j]? ≠ some .unspawned
  | .returned finalRes =>
    s.received.length = n ∧ finalRes = joined (s.received.map Prod.snd)

/-- Every message of an ended task is received or in the channel, in the order of the ends. -/
structure JoinInv (outcomes : List Outcome) (s : JoinState Ch) : Prop where
  /-- There is a task for each item. -/
  tasks_length : s.tasks.length = outcomes.length
  /-- The tasks that have ended are finished. -/
  completed_iff : ∀ i, i ∈ s.completed ↔ s.tasks[i]? = some .finished
  /-- A task ends once. -/
  nodup : s.completed.Nodup
  /-- The channel has room for the results of all tasks. -/
  capacity : ops.capacity s.channel = outcomes.length
  /-- The messages are received in the order in which the tasks ended. -/
  fifo : s.received ++ ops.contents s.channel = s.completed.map (taskMessage outcomes)
  /-- The coroutine is where the tasks and the channel let it be. -/
  mainInv : s.MainInv ops outcomes.length

end Invariant

section Join

variable {Ch : Type*} {ops : ChannelOps Ch (ℕ × Except ErrorInfo Unit)} {outcomes : List Outcome}
  {s s' : JoinState Ch} {es : List JoinEvent}

/-- Only tasks of the list are completed. -/
theorem JoinInv.completed_subset (h : JoinInv ops outcomes s) :
    s.completed ⊆ List.range outcomes.length := by
  intro i hi
  obtain ⟨hlt, -⟩ := List.getElem?_eq_some_iff.mp ((h.completed_iff i).mp hi)
  rw [List.mem_range, ← h.tasks_length]
  exact hlt

/-- While a task runs, fewer tasks than items have ended. -/
theorem JoinInv.completed_lt (h : JoinInv ops outcomes s) {i : ℕ} (hi : i < outcomes.length)
    (hmem : i ∉ s.completed) : s.completed.length < outcomes.length := by
  have hnodup : (i :: s.completed).Nodup := List.nodup_cons.mpr ⟨hmem, h.nodup⟩
  have hsubset : i :: s.completed ⊆ List.range outcomes.length :=
    List.cons_subset.mpr ⟨List.mem_range.mpr hi, h.completed_subset⟩
  have hle := (List.subperm_of_subset hnodup hsubset).length_le
  rw [List.length_cons, List.length_range] at hle
  exact hle

/-- A task still running is not completed, so not all are. -/
theorem JoinInv.completed_of_running (h : JoinInv ops outcomes s) {i : ℕ}
    (hi : s.tasks[i]? = some .running) :
    i ∉ s.completed ∧ s.completed.length < outcomes.length := by
  have hmem : i ∉ s.completed := by
    rw [h.completed_iff, hi]
    nofun
  obtain ⟨hlt, -⟩ := List.getElem?_eq_some_iff.mp hi
  exact ⟨hmem, h.completed_lt (h.tasks_length ▸ hlt) hmem⟩

/-- Only a running task ends. -/
theorem completeTask_cases {i : ℕ} (h : completeTask ops outcomes s i = some s') :
    s.tasks[i]? = some .running ∧ s' = { s with
      tasks := s.tasks.set i .finished
      completed := s.completed ++ [i]
      channel := (ops.trySend s.channel (i, taskResult outcomes i)).getD s.channel } := by
  unfold completeTask at h
  split at h
  · rename_i hi
    exact ⟨hi, (Option.some.inj h).symm⟩
  · cases h

/-- When the loop has received a result for every item, all tasks have ended and
nothing is left in the channel. -/
theorem JoinInv.all_received (h : JoinInv ops outcomes s)
    (hreceived : s.received.length = outcomes.length) :
    s.completed.Perm (List.range outcomes.length) ∧ ops.contents s.channel = [] := by
  have hfifo := congrArg List.length h.fifo
  rw [List.length_append, List.length_map] at hfifo
  have hsub := List.subperm_of_subset h.nodup h.completed_subset
  have hle := hsub.length_le
  rw [List.length_range] at hle
  constructor
  · refine hsub.perm_of_length_le ?_
    rw [List.length_range]
    omega
  · exact List.eq_nil_of_length_eq_zero (by omega)

/-- Nothing has completed at the start. -/
theorem joinInv_start (hch : ops.Lawful) (outcomes : List Outcome) :
    JoinInv ops outcomes (joinStart ops outcomes.length) where
  tasks_length := List.length_replicate
  completed_iff i := by
    simp [joinStart, List.getElem?_replicate]
  nodup := List.nodup_nil
  capacity := (hch.new _).2.1
  fifo := (hch.new _).2.2.1
  mainInv := by
    by_cases hn : outcomes.length = 0
    · have hmain : (joinStart ops outcomes.length).main = .returned (.ok ()) := if_pos hn
      unfold JoinState.MainInv
      rw [hmain]
      exact ⟨hn.symm, rfl⟩
    · have hmain : (joinStart ops outcomes.length).main = .spawning 0 := if_neg hn
      unfold JoinState.MainInv
      rw [hmain]
      exact ⟨Nat.zero_le _, Nat.pos_of_ne_zero hn, (hch.new _).1, (hch.new _).2.2.2, rfl,
        fun j => by simp [joinStart, List.getElem?_replicate]⟩

/-- Spawning the next task keeps the invariant. -/
theorem spawn_inv (h : JoinInv ops outcomes s) {i : ℕ} (hm : s.main = .spawning i)
    (hi : i < outcomes.length) :
    JoinInv ops outcomes { s with main := .spawning (i + 1), tasks := s.tasks.set i .running } := by
  have hmain := h.mainInv
  unfold JoinState.MainInv at hmain
  rw [hm] at hmain
  obtain ⟨-, hn, hopen, hidle, hreceived, hunspawned⟩ := hmain
  have hi' : s.tasks[i]? = some .unspawned := (hunspawned i).mpr ⟨le_rfl, hi⟩
  have hlen : i < s.tasks.length := by rw [h.tasks_length]; exact hi
  exact
    { tasks_length := by rw [List.length_set, h.tasks_length]
      completed_iff := by
        intro j
        rw [h.completed_iff]
        by_cases hij : i = j
        · subst hij
          rw [hi', List.getElem?_set_self hlen]
          simp
        · rw [List.getElem?_set_ne hij]
      nodup := h.nodup
      capacity := h.capacity
      fifo := h.fifo
      mainInv := by
        refine ⟨hi, hn, hopen, hidle, hreceived, fun j => ?_⟩
        by_cases hij : i = j
        · subst hij
          simp [hlen]
        · simp only [List.getElem?_set_ne hij, hunspawned]
          omega }

/-- Entering the loop keeps the invariant. -/
theorem enterLoop_inv (hch : ops.Lawful) (h : JoinInv ops outcomes s) {i : ℕ} (hm : s.main = .spawning i)
    (hi : ¬ i < outcomes.length) :
    JoinInv ops outcomes
      { s with main := .receiving 0 (.ok ()), channel := ops.asyncReceive s.channel } := by
  have hmain := h.mainInv
  unfold JoinState.MainInv at hmain
  rw [hm] at hmain
  obtain ⟨-, hn, hopen, hidle, hreceived, hunspawned⟩ := hmain
  obtain ⟨hopen', hcapacity, hcontents, hbusy⟩ := hch.asyncReceive _ hopen hidle
  exact
    { tasks_length := h.tasks_length
      completed_iff := h.completed_iff
      nodup := h.nodup
      capacity := hcapacity.trans h.capacity
      fifo := by
        have hfifo := h.fifo
        rw [← hcontents] at hfifo
        exact hfifo
      mainInv := by
        refine ⟨hopen', hbusy, ?_, hn, ?_, fun j hj => ?_⟩
        · rw [hreceived]
          rfl
        · rw [hreceived]
          rfl
        · have hlt := (hunspawned j).mp hj
          omega }

/-- A turn of the loop keeps the invariant. -/
theorem receive_inv (hch : ops.Lawful) (h : JoinInv ops outcomes s) {i : ℕ} {finalRes : Except ErrorInfo Unit}
    (hm : s.main = .receiving i finalRes) (hstep : advanceJoin ops outcomes.length s = some s') :
    JoinInv ops outcomes s' := by
  have hmain := h.mainInv
  unfold JoinState.MainInv at hmain
  rw [hm] at hmain
  obtain ⟨hopen, hbusy, hlen, hi, hfinal, hspawned⟩ := hmain
  simp only [advanceJoin, hm] at hstep
  cases hresume : ops.resume s.channel with
  | none => simp [hresume] at hstep
  | some next =>
    obtain ⟨message, channel⟩ := next
    obtain ⟨m, rfl, hcontents, hopen', hcapacity, hidle⟩ := hch.resume _ _ _ hopen hresume
    have hfifo : (s.received ++ [m]) ++ ops.contents channel = s.completed.map (taskMessage outcomes) := by
      rw [← h.fifo, hcontents, List.append_assoc, List.singleton_append]
    have hrecord : recordResult finalRes (some m.2) =
        joined ((s.received ++ [m]).map Prod.snd) := by
      rw [hfinal, List.map_append, List.map_singleton, joined_snoc]
    have hlen' : (s.received ++ [m]).length = i + 1 := by
      rw [List.length_append, hlen, List.length_singleton]
    simp only [hresume, Option.map_some, Option.toList_some, hrecord] at hstep
    split at hstep
    · obtain ⟨hopen'', hcapacity', hcontents', hbusy'⟩ := hch.asyncReceive _ hopen' hidle
      obtain rfl := Option.some.inj hstep
      exact
        { tasks_length := h.tasks_length
          completed_iff := h.completed_iff
          nodup := h.nodup
          capacity := hcapacity'.trans (hcapacity.trans h.capacity)
          fifo := by
            rw [← hcontents'] at hfifo
            exact hfifo
          mainInv := ⟨hopen'', hbusy', hlen', ‹_›, rfl, hspawned⟩ }
    · obtain rfl := Option.some.inj hstep
      exact
        { tasks_length := h.tasks_length
          completed_iff := h.completed_iff
          nodup := h.nodup
          capacity := (hch.close channel).1.trans (hcapacity.trans h.capacity)
          fifo := by
            rw [← (hch.close channel).2] at hfifo
            exact hfifo
          mainInv := by
            refine ⟨?_, rfl⟩
            have hle : ¬ i + 1 < outcomes.length := ‹_›
            exact hlen'.trans (by omega) }

/-- The coroutine keeps the invariant. -/
theorem advanceJoin_inv (hch : ops.Lawful) (h : JoinInv ops outcomes s)
    (hstep : advanceJoin ops outcomes.length s = some s') : JoinInv ops outcomes s' := by
  cases hm : s.main with
  | spawning i =>
    simp only [advanceJoin, hm] at hstep
    split at hstep
    · obtain rfl := Option.some.inj hstep
      exact spawn_inv h hm ‹_›
    · obtain rfl := Option.some.inj hstep
      exact enterLoop_inv hch h hm ‹_›
  | receiving i finalRes => exact receive_inv hch h hm hstep
  | returned finalRes => simp [advanceJoin, hm] at hstep

/-- The channel is open as long as a task runs. -/
theorem JoinInv.open_of_running (h : JoinInv ops outcomes s) {i : ℕ}
    (hi : s.tasks[i]? = some .running) : ops.IsOpen s.channel := by
  have hmain := h.mainInv
  unfold JoinState.MainInv at hmain
  split at hmain
  · exact hmain.2.2.1
  · exact hmain.1
  · obtain ⟨hperm, -⟩ := h.all_received hmain.1
    obtain ⟨hlt, -⟩ := List.getElem?_eq_some_iff.mp hi
    rw [h.tasks_length] at hlt
    have hmem := (h.completed_iff i).mp (hperm.mem_iff.mpr (List.mem_range.mpr hlt))
    rw [hi] at hmem
    cases hmem

/-- The tasks and the channel change under the coroutine when a task ends. -/
theorem JoinState.MainInv.completeTask {n i : ℕ} (h : s.MainInv ops n)
    (hi : s.tasks[i]? = some .running) {completed : List ℕ} {channel : Ch}
    (hopen : ops.IsOpen channel) (hreceiver : ops.Receiving channel ↔ ops.Receiving s.channel) :
    ({ s with
        tasks := s.tasks.set i .finished
        completed
        channel } : JoinState Ch).MainInv ops n := by
  obtain ⟨hlt, -⟩ := List.getElem?_eq_some_iff.mp hi
  unfold JoinState.MainInv at h ⊢
  cases hm : s.main with
  | spawning k =>
    rw [hm] at h
    obtain ⟨hk, hn, -, hidle, hreceived, hunspawned⟩ := h
    refine ⟨hk, hn, hopen, fun hbusy => hidle (hreceiver.mp hbusy), hreceived, fun j => ?_⟩
    rw [← hunspawned j]
    by_cases hij : i = j
    · subst hij
      rw [hi, List.getElem?_set_self hlt]
      simp
    · rw [List.getElem?_set_ne hij]
  | receiving k finalRes =>
    rw [hm] at h
    obtain ⟨-, hbusy, hlen, hk, hfinal, hspawned⟩ := h
    refine ⟨hopen, hreceiver.mpr hbusy, hlen, hk, hfinal, fun j hj => ?_⟩
    rcases getElem?_set_cases hj with ⟨-, hj⟩ | ⟨-, hj⟩
    · cases hj
    · exact hspawned j hj
  | returned finalRes =>
    rw [hm] at h
    exact h

/-- The end of a task keeps the invariant: the channel has room for its result. -/
theorem completeTask_inv (hch : ops.Lawful) (h : JoinInv ops outcomes s) {i : ℕ}
    (hstep : completeTask ops outcomes s i = some s') : JoinInv ops outcomes s' := by
  obtain ⟨hi, rfl⟩ := completeTask_cases hstep
  obtain ⟨hlt, -⟩ := List.getElem?_eq_some_iff.mp hi
  obtain ⟨hmem, hcompleted⟩ := h.completed_of_running hi
  have hroom : (ops.contents s.channel).length < ops.capacity s.channel := by
    have hfifo := congrArg List.length h.fifo
    rw [List.length_append, List.length_map] at hfifo
    rw [h.capacity]
    omega
  obtain ⟨channel, hsend, hopen, hcapacity, hcontents, hreceiver⟩ :=
    hch.trySend _ (i, taskResult outcomes i) (h.open_of_running hi) hroom
  rw [hsend, Option.getD_some]
  exact
    { tasks_length := by rw [List.length_set, h.tasks_length]
      completed_iff := by
        intro j
        rw [List.mem_append, h.completed_iff, List.mem_singleton]
        by_cases hij : i = j
        · subst hij
          simp [hlt]
        · simp [List.getElem?_set_ne hij, Ne.symm hij]
      nodup := List.nodup_append.mpr
        ⟨h.nodup, List.nodup_singleton i, fun j hj k hk => by
          rw [List.mem_singleton.mp hk]
          rintro rfl
          exact hmem hj⟩
      capacity := hcapacity.trans h.capacity
      fifo := by
        rw [List.map_append, ← h.fifo, List.append_assoc]
        exact congrArg _ hcontents
      mainInv := h.mainInv.completeTask hi hopen hreceiver }

/-- One step keeps the invariant. -/
theorem joinStep_inv (hch : ops.Lawful) {e : JoinEvent} (h : JoinInv ops outcomes s)
    (hstep : joinStep ops outcomes s e = some s') : JoinInv ops outcomes s' := by
  cases e with
  | advance => exact advanceJoin_inv hch h hstep
  | complete i => exact completeTask_inv hch h hstep

/-- Unless it has returned, the coroutine can go on or some task is running. -/
theorem JoinInv.progress (hch : ops.Lawful) (h : JoinInv ops outcomes s)
    (hmain : ∀ res, s.main ≠ .returned res) :
    ∃ e, (joinStep ops outcomes s e).isSome := by
  have hinv := h.mainInv
  unfold JoinState.MainInv at hinv
  cases hm : s.main with
  | returned res => exact absurd hm (hmain res)
  | spawning i =>
    refine ⟨.advance, ?_⟩
    simp only [joinStep, advanceJoin, hm]
    split <;> rfl
  | receiving i finalRes =>
    rw [hm] at hinv
    obtain ⟨hopen, hbusy, hlen, hi, -, hspawned⟩ := hinv
    by_cases hempty : ops.contents s.channel = []
    · have hfifo := congrArg List.length h.fifo
      rw [hempty, List.append_nil, List.length_map] at hfifo
      have hmissing : ∃ j ∈ List.range outcomes.length, j ∉ s.completed := by
        by_contra hall
        push Not at hall
        have hle := (List.subperm_of_subset List.nodup_range hall).length_le
        rw [List.length_range] at hle
        omega
      obtain ⟨j, hj, hmem⟩ := hmissing
      have hlt : j < s.tasks.length := by
        rw [h.tasks_length]
        exact List.mem_range.mp hj
      have hget := List.getElem?_eq_getElem hlt
      refine ⟨.complete j, ?_⟩
      rw [joinStep, completeTask, hget]
      cases hphase : s.tasks[j] with
      | unspawned => exact absurd (hget.trans (congrArg some hphase)) (hspawned j)
      | running => rfl
      | finished =>
        exact absurd ((h.completed_iff j).mpr (hget.trans (congrArg some hphase))) hmem
    · refine ⟨.advance, ?_⟩
      obtain ⟨next, hnext⟩ := Option.isSome_iff_exists.mp (hch.resume_isSome _ hopen hbusy hempty)
      simp only [joinStep, advanceJoin, hm, hnext]
      split <;> rfl

/-- The steps that are left: each event takes one. -/
def JoinState.budget (n : ℕ) (s : JoinState Ch) : ℕ :=
  (n - s.completed.length) +
    match s.main with
    | .spawning i => (n - i) + 1 + n
    | .receiving i _ => n - i
    | .returned _ => 0

/-- Every step uses up a part of the budget. -/
theorem joinStep_budget {e : JoinEvent} (h : JoinInv ops outcomes s)
    (hstep : joinStep ops outcomes s e = some s') :
    s'.budget outcomes.length + 1 ≤ s.budget outcomes.length := by
  have hinv := h.mainInv
  unfold JoinState.MainInv at hinv
  cases e with
  | advance =>
    rw [joinStep, advanceJoin] at hstep
    cases hm : s.main with
    | returned res =>
      rw [hm] at hstep
      cases hstep
    | spawning i =>
      rw [hm] at hstep hinv
      dsimp only at hstep
      split at hstep
      · obtain rfl := Option.some.inj hstep
        have hlt : i < outcomes.length := ‹_›
        simp only [JoinState.budget, hm]
        omega
      · obtain rfl := Option.some.inj hstep
        simp only [JoinState.budget, hm]
        omega
    | receiving i finalRes =>
      rw [hm] at hstep hinv
      dsimp only at hstep
      have hi : i < outcomes.length := hinv.2.2.2.1
      cases hresume : ops.resume s.channel with
      | none => simp [hresume] at hstep
      | some next =>
        obtain ⟨message, channel⟩ := next
        simp only [hresume] at hstep
        split at hstep
        · obtain rfl := Option.some.inj hstep
          simp only [JoinState.budget, hm]
          omega
        · obtain rfl := Option.some.inj hstep
          simp only [JoinState.budget, hm]
          omega
  | complete i =>
    obtain ⟨hi, rfl⟩ := completeTask_cases hstep
    obtain ⟨-, hcompleted⟩ := h.completed_of_running hi
    simp only [JoinState.budget, List.length_append, List.length_singleton]
    omega

/-- A step adds the task that it ends to those that have ended. -/
theorem joinStep_completed {e : JoinEvent} (hstep : joinStep ops outcomes s e = some s') :
    s'.completed = s.completed ++ e.task?.toList := by
  cases e with
  | advance =>
    rw [joinStep, advanceJoin] at hstep
    rw [JoinEvent.task?, Option.toList_none, List.append_nil]
    split at hstep
    · split at hstep <;> obtain rfl := Option.some.inj hstep <;> rfl
    · split at hstep
      · cases hstep
      · split at hstep <;> obtain rfl := Option.some.inj hstep <;> rfl
    · cases hstep
  | complete i =>
    obtain ⟨-, rfl⟩ := completeTask_cases hstep
    rfl

/-- The tasks that have ended are those that the run has ended, in its order. -/
theorem completed_eq (hrun : runEvents (joinStep ops outcomes) s es = some s') :
    s'.completed = s.completed ++ es.filterMap JoinEvent.task? := by
  induction es generalizing s with
  | nil =>
    cases hrun
    exact (List.append_nil _).symm
  | cons e es ih =>
    obtain ⟨m, hstep, hrest⟩ := runEvents_cons_iff.mp hrun
    rw [ih hrest, joinStep_completed hstep, List.append_assoc]
    cases e <;> rfl

/-- The invariant holds along every run. -/
theorem run_joinInv (hch : ops.Lawful)
    (hrun : runEvents (joinStep ops outcomes) (joinStart ops outcomes.length) es = some s) :
    JoinInv ops outcomes s :=
  run_invariant_of_step (fun _ _ _ => joinStep_inv hch) (joinInv_start hch outcomes) hrun

/-- A run is at most three events for each item and one more. -/
theorem run_length_le (hch : ops.Lawful)
    (hrun : runEvents (joinStep ops outcomes) (joinStart ops outcomes.length) es = some s) :
    es.length ≤ 3 * outcomes.length + 1 := by
  have hmeets : Meets (joinStep ops outcomes) (fun _ _ => True) (joinStart ops outcomes.length) es :=
    meets_of_forall (fun _ _ => trivial) _ es
  have hbudget := run_count_le_budget (I := JoinInv ops outcomes) (JoinState.budget outcomes.length)
    (fun _ => true) (fun s e s' hs _ he => ⟨joinStep_inv hch hs he, joinStep_budget hs he⟩)
    (joinInv_start hch outcomes) hmeets hrun
  have hstart : (joinStart ops outcomes.length).budget outcomes.length ≤ 3 * outcomes.length + 1 := by
    rw [JoinState.budget, joinStart]
    split <;> simp only [List.length_nil] <;> omega
  rw [List.countP_true] at hbudget
  omega

/-- `await_all_dynamic` joins its tasks. The results sent, one from each task that
has ended and in the order of the ends, are those received and those still in the
channel; it returns when all are received, with success or the first error; until
then a step is possible, and no run goes on forever. -/
structure JoinsAll (ops : ChannelOps Ch (ℕ × Except ErrorInfo Unit)) (outcomes : List Outcome)
    (es : List JoinEvent) (s : JoinState Ch) : Prop where
  /-- The tasks end in the order of the run. -/
  completed_eq : s.completed = es.filterMap JoinEvent.task?
  /-- Each of them once. -/
  once : s.completed.Nodup
  /-- Their results are received in that order, or are in the channel. -/
  fifo : s.received ++ ops.contents s.channel = s.completed.map (taskMessage outcomes)
  /-- On return all tasks have ended, and all results have been received. -/
  all_received : ∀ res, s.main = .returned res →
    s.completed.Perm (List.range outcomes.length) ∧
      s.received = s.completed.map (taskMessage outcomes)
  /-- Success is the success of all. -/
  returns_success : ∀ res, s.main = .returned res →
    (res = .ok () ↔ ∀ outcome ∈ outcomes, outcome = .success)
  /-- An error is that of the first task that fails. -/
  returns_error : ∀ res, s.main = .returned res → ∀ e, res = .error e ↔
    ∃ before i after, s.completed = before ++ i :: after ∧ taskResult outcomes i = .error e ∧
      ∀ j ∈ before, taskResult outcomes j = .ok ()
  /-- Until it returns, a step is possible. -/
  progress : (∀ res, s.main ≠ .returned res) → ∃ e, (joinStep ops outcomes s e).isSome
  /-- No run goes on forever. -/
  bounded : es.length ≤ 3 * outcomes.length + 1

/-- The result of a task is success when its item's outcome is. -/
theorem result_eq_ok_iff (outcome : Outcome) : outcome.result = .ok () ↔ outcome = .success := by
  cases outcome <;> simp [Outcome.result]

/-- All tasks succeed when they succeed in whatever order they end. -/
theorem forall_taskResult_iff {completed : List ℕ}
    (hperm : completed.Perm (List.range outcomes.length)) :
    (∀ i ∈ completed, taskResult outcomes i = .ok ()) ↔ ∀ outcome ∈ outcomes, outcome = .success := by
  constructor
  · intro h outcome hmem
    obtain ⟨i, hi, rfl⟩ := List.getElem_of_mem hmem
    have hres := h i (hperm.mem_iff.mpr (List.mem_range.mpr hi))
    rw [taskResult, List.getElem?_eq_getElem hi] at hres
    exact (result_eq_ok_iff _).mp hres
  · intro h i hi
    have hlt := List.mem_range.mp (hperm.mem_iff.mp hi)
    rw [taskResult, List.getElem?_eq_getElem hlt]
    exact (result_eq_ok_iff _).mpr (h _ (List.getElem_mem hlt))

/-- What it returns is the joined outcome of the tasks in the order of their ends. -/
theorem JoinInv.returned (h : JoinInv ops outcomes s) {res : Except ErrorInfo Unit}
    (hmain : s.main = .returned res) :
    s.completed.Perm (List.range outcomes.length) ∧
      s.received = s.completed.map (taskMessage outcomes) ∧
      res = joined (s.completed.map (taskResult outcomes)) := by
  have hinv := h.mainInv
  unfold JoinState.MainInv at hinv
  rw [hmain] at hinv
  obtain ⟨hperm, hempty⟩ := h.all_received hinv.1
  have hreceived := h.fifo
  rw [hempty, List.append_nil] at hreceived
  refine ⟨hperm, hreceived, ?_⟩
  rw [hinv.2, hreceived, List.map_map]
  rfl

/-- Every run of `await_all_dynamic`, whatever the items, their outcomes and the
order of the steps, with any lawful channel. -/
theorem awaitAllDynamic_joins (hch : ops.Lawful)
    (hrun : runEvents (joinStep ops outcomes) (joinStart ops outcomes.length) es = some s) :
    JoinsAll ops outcomes es s where
  completed_eq := completed_eq hrun
  once := (run_joinInv hch hrun).nodup
  fifo := (run_joinInv hch hrun).fifo
  all_received res hmain := by
    obtain ⟨hperm, hreceived, -⟩ := (run_joinInv hch hrun).returned hmain
    exact ⟨hperm, hreceived⟩
  returns_success res hmain := by
    obtain ⟨hperm, -, rfl⟩ := (run_joinInv hch hrun).returned hmain
    rw [joined_eq_ok_iff, List.forall_mem_map]
    exact forall_taskResult_iff hperm
  returns_error res hmain e := by
    obtain ⟨-, -, rfl⟩ := (run_joinInv hch hrun).returned hmain
    exact joined_map_eq_error_iff _ _ e
  progress := (run_joinInv hch hrun).progress hch
  bounded := run_length_le hch hrun

end Join

/-- Two downloads; the second ends first, with an exception, before the first result is received. -/
theorem awaitAllDynamic_joins_two :
    ∃ s, runEvents (joinStep (boundedOps _) [.success, .threw "timeout"]) (joinStart (boundedOps _) 2)
        [.advance, .advance, .complete 1, .advance, .advance, .complete 0, .advance] = some s ∧
      s.main = .returned (.error ⟨.critical, "timeout"⟩) ∧
      JoinsAll (boundedOps _) [.success, .threw "timeout"]
        [.advance, .advance, .complete 1, .advance, .advance, .complete 0, .advance] s :=
  ⟨_, rfl, rfl, awaitAllDynamic_joins (lawful_boundedOps _) rfl⟩

end HermesFlow.Audio
