import HermesFlow.SingleRunner
import Mathlib.Data.List.TakeWhile

/-!
# The context of a session

A session's timer, channel, socket and files belong to the context drawn when
it was created, and its coroutine runs on the one drawn when it is spawned. The
pool deals its contexts in turn to everybody, so the two are the same precisely
when the draws between them, counted modulo the size of the pool, bring the
turn round.
-/

namespace HermesFlow.ActiveSessions

open EventRun Custody

/-- Whether the event calls `get_io_context`. -/
def Event.draws : Event → Bool
  | .beginCreate _ _ | .spawn _ | .accept => true
  | _ => false

/-- The number of calls of `get_io_context`. -/
def drawCount (es : List Event) : ℕ := es.countP Event.draws

/-- The context that the call after so many others returns; the counter is a
`std::size_t`. -/
def contextAfter (size draws : ℕ) : ℕ := draws % UInt64.size % size

/-- Whether the event begins the `create_session` call of a session. -/
def Event.begins (id : SessionId) : Event → Bool
  | .beginCreate other _ => other = id
  | _ => false

/-- The events before the session's `create_session` call. -/
def beforeCreate (id : SessionId) (es : List Event) : List Event :=
  es.takeWhile fun e => !e.begins id

/-- Each coroutine runs on the context that its session's objects belong to. -/
def Confined (st : State) : Prop := ∀ co ∈ st.coroutines, co.io = (st.object co.id).io

/-- The guard of runs in which a coroutine is spawned when the turn is that of
its session: the draws so far and those before its creation lead to the same
context. -/
def SpawnsInTurn (size : ℕ) (s : State × List Event) : Event → Prop
  | .spawn j => ∀ call ∈ s.1.connects[j]?,
      contextAfter size (drawCount s.2) = contextAfter size (drawCount (beforeCreate call.id s.2))
  | _ => True

instance (size : ℕ) (s : State × List Event) (e : Event) : Decidable (SpawnsInTurn size s e) := by
  cases e <;> unfold SpawnsInTurn <;> infer_instance

/-- A registry whose pool has not dealt a context yet. -/
def fresh (ports : List Port) (size : ℕ) : State := initial ports ⟨size, 0⟩

/-- The call works on the session that it has found. -/
def ConnectPc.hasSession : ConnectPc → Bool
  | .testRunning | .attach | .insert | .spawn => true
  | .lookup | .done _ => false

section Parts

variable {st st' : State} {e : Event}

/-- Giving a port back draws no context. -/
@[simp] theorem unwindPort_pool (st : State) (port : Option Port) :
    (unwindPort st port).pool = st.pool := by cases port <;> rfl

/-- Giving a port back moves no call to connect. -/
@[simp] theorem unwindPort_connects (st : State) (port : Option Port) :
    (unwindPort st port).connects = st.connects := by cases port <;> rfl

/-- Giving a port back spawns nothing. -/
@[simp] theorem unwindPort_coroutines (st : State) (port : Option Port) :
    (unwindPort st port).coroutines = st.coroutines := by cases port <;> rfl

/-- Giving a port back keeps the objects. -/
@[simp] theorem unwindPort_object (st : State) (port : Option Port) :
    (unwindPort st port).object = st.object := by cases port <;> rfl

/-- `remove_session` moves no call and no coroutine. -/
theorem removeSession_calls (st : State) (id : SessionId) :
    (removeSession st id).1.pool = st.pool ∧ (removeSession st id).1.connects = st.connects ∧
      (removeSession st id).1.coroutines = st.coroutines := by
  unfold removeSession
  dsimp only
  split
  · split <;> exact ⟨rfl, rfl, rfl⟩
  · exact ⟨rfl, rfl, rfl⟩

/-- Replacing a session object by one of the same context. -/
theorem setObject_io {id : SessionId} {session : Session} (h : session.io = (st.object id).io)
    (other : SessionId) : ((st.setObject id session).object other).io = (st.object other).io := by
  simp only [State.setObject, Function.update_apply]
  split
  · rename_i hid
    rw [h, hid]
  · rfl

/-- The running flag keeps the context. -/
theorem setRunning_io (st : State) (id : SessionId) (value : Bool) (other : SessionId) :
    ((setRunning st id value).object other).io = (st.object other).io :=
  @setObject_io _ _ { st.object id with isRunning := value } rfl other

/-- A removal keeps the contexts. -/
theorem removeSession_io (st : State) (id other : SessionId) :
    ((removeSession st id).1.object other).io = (st.object other).io := by
  by_cases h : id ∈ st.sessions
  · rw [(removeSession_of_mem h).2.2.1]
    exact setRunning_io st id false other
  · rw [removeSession_of_not_mem h]

/-- Every step draws from the pool or leaves it alone. -/
theorem pool_step (h : step st e = some st') :
    st'.pool = if e.draws = true then st.pool.getIoContext.2 else st.pool := by
  cases step_moves h with
  | allocate => unfold allocate; split <;> rfl
  | unwind => exact unwindPort_pool st _
  | removeOwn => exact (removeSession_calls st _).1
  | remove id => exact (removeSession_calls st id).1
  | _ => rfl

/-- The ids of the calls and the contexts they drew. -/
def State.drawn (st : State) : List (SessionId × ℕ) := st.creates.map fun call => (call.id, call.io)

/-- Moving a call draws no context. -/
theorem drawn_setCreate {i : ℕ} {call : CreateCall} (hc : st.creates[i]? = some call)
    (pc : CreatePc) : (st.setCreate i call pc).drawn = st.drawn :=
  map_set_of_eq hc rfl

/-- Every step begins a call or leaves the ids and contexts of the calls alone. -/
theorem drawn_step (h : step st e = some st') :
    (∃ id sessionType, e = .beginCreate id sessionType ∧ id ∉ st.creates.map CreateCall.id ∧
      st'.drawn = st.drawn ++ [(id, st.pool.getIoContext.1)]) ∨
    (∀ id, e.begins id = false) ∧ st'.drawn = st.drawn := by
  cases step_moves h with
  | @beginCreate id hid sessionType =>
    refine .inl ⟨id, sessionType, rfl, hid, ?_⟩
    simp only [State.drawn, beginCreate, List.map_append, List.map_cons, List.map_nil]
  | allocate hc hp =>
    refine .inr ⟨fun _ => rfl, ?_⟩
    unfold allocate
    split
    · exact drawn_setCreate hc _
    · exact @drawn_setCreate { st with availableWebrtcPorts := _ } _ _ hc _
  | parsed hc | sessionCreated hc => exact .inr ⟨fun _ => rfl, drawn_setCreate hc _⟩
  | returnPort hc => exact .inr ⟨fun _ => rfl, @drawn_setCreate (unwindPort st _) _ _ hc _⟩
  | register hc => exact .inr ⟨fun _ => rfl, @drawn_setCreate (register st _ _) _ _ hc _⟩
  | @unwind i call port outcome hc hp =>
    refine .inr ⟨fun _ => rfl, ?_⟩
    have hc' : (unwindPort st port).creates[i]? = some call := by simpa using hc
    rw [drawn_setCreate hc', State.drawn, unwindPort_creates, State.drawn]
  | removeOwn hc hp =>
    refine .inr ⟨fun _ => rfl, ?_⟩
    exact congrArg (List.map fun call => (call.id, call.io)) (removeSession_creates st _)
  | remove id =>
    refine .inr ⟨fun _ => rfl, ?_⟩
    exact congrArg (List.map fun call => (call.id, call.io)) (removeSession_creates st id)
  | _ => exact .inr ⟨fun _ => rfl, rfl⟩

/-- The object of a created session keeps its context. -/
theorem object_io_step (hwf : RegistryWf st) (h : step st e = some st') {id : SessionId}
    (hid : Created st id) : (st'.object id).io = (st.object id).io := by
  cases step_moves h with
  | allocate => unfold allocate; split <;> rfl
  | @register i call port hc hp =>
    have hne : id ≠ call.id := by
      rintro rfl
      exact hwf.not_registered hc hp hid
    simp only [register, State.setCreate, State.setObject, Function.update_of_ne hne]
  | unwind => exact congrArg (fun object => (object id).io) (unwindPort_object st _)
  | attach hc hp =>
    exact @setObject_io _ _ { st.object _ with observer := some _ } rfl id
  | start hc hp => exact setRunning_io st _ true id
  | finish hc hp => exact setRunning_io st _ false id
  | removeOwn => exact removeSession_io st _ id
  | remove other => exact removeSession_io st other id
  | _ => rfl

/-- A state with the same calls has created the same sessions. -/
theorem created_congr {m : State} (hcreates : m.creates = st.creates) {id : SessionId}
    (h : Created m id) : Created st id := by
  unfold Created at h ⊢
  rwa [hcreates] at h

/-- A call that moves to a position that is not registered has created nothing. -/
theorem created_of_setCreate {m : State} {i : ℕ} {call : CreateCall} {pc : CreatePc}
    (hcreates : m.creates = st.creates)
    (hreg : CreateCall.Registered { call with pc := pc } → call.Registered)
    (hc : st.creates[i]? = some call) {id : SessionId} (h : Created (m.setCreate i call pc) id) :
    Created st id := by
  obtain ⟨j, other, ho, hoid, hor⟩ := h
  rw [State.setCreate, hcreates] at ho
  rcases getElem?_set_cases ho with ⟨-, rfl⟩ | ⟨-, hold⟩
  · exact ⟨i, call, hc, hoid, hreg hor⟩
  · exact ⟨j, other, hold, hoid, hor⟩

/-- A session is registered with the context its call drew. -/
theorem registered_io_step (h : step st e = some st') {id : SessionId} (hid : Created st' id) :
    Created st id ∨ ∃ call ∈ st.creates, call.id = id ∧ (st'.object id).io = call.io := by
  cases step_moves h with
  | @beginCreate other hfresh sessionType =>
    obtain ⟨j, call, hcall, hid, hreg⟩ := hid
    rw [beginCreate, List.getElem?_append] at hcall
    split at hcall
    · exact .inl ⟨j, call, hcall, hid, hreg⟩
    · -- the call that begins has registered nothing
      have hlast := List.mem_singleton.mp (List.mem_of_getElem? hcall)
      rw [hlast] at hreg
      simp [CreateCall.Registered] at hreg
  | @parsed i call hc hp result =>
    refine .inl (created_of_setCreate rfl (fun hreg => ?_) hc hid)
    cases result <;> simp [CreateCall.Registered, afterParse] at hreg
    split at hreg <;> simp at hreg
  | allocate hc hp =>
    unfold allocate at hid
    split at hid
    · exact .inl (created_of_setCreate rfl (fun hreg => by simp [CreateCall.Registered] at hreg) hc hid)
    · exact .inl (created_of_setCreate rfl (fun hreg => by simp [CreateCall.Registered] at hreg) hc hid)
  | @sessionCreated i call port hc hp result =>
    refine .inl (created_of_setCreate rfl (fun hreg => ?_) hc hid)
    cases result <;> cases port <;> simp [CreateCall.Registered, afterSessionCreate] at hreg
  | returnPort hc hp =>
    exact .inl (created_of_setCreate rfl (fun hreg => by simp [CreateCall.Registered] at hreg) hc hid)
  | @register i call port hc hp =>
    by_cases hcall : call.id = id
    · refine .inr ⟨call, List.mem_of_getElem? hc, hcall, ?_⟩
      simp only [register, State.setCreate, State.setObject, hcall, Function.update_self]
    · obtain ⟨j, other, ho, hoid, hor⟩ := hid
      have hset : (st.creates.set i { call with pc := .unwinding port .created })[j]? =
          some other := ho
      rcases getElem?_set_cases hset with ⟨-, rfl⟩ | ⟨-, hold⟩
      · exact absurd hoid hcall
      · exact .inl ⟨j, other, hold, hoid, hor⟩
  | @unwind i call port outcome hc hp =>
    refine .inl (created_of_setCreate (unwindPort_creates st port) (fun hreg => ?_) hc hid)
    simp only [CreateCall.Registered, hp] at hreg ⊢
    rcases hreg with ⟨q, hq⟩ | hq
    · cases hq
    · cases hq
      exact .inl ⟨port, rfl⟩
  | removeOwn => exact .inl (created_congr (removeSession_creates st _) hid)
  | remove other => exact .inl (created_congr (removeSession_creates st other) hid)
  | _ => exact .inl (created_congr rfl hid)

/-- A call that works on a session found it while it was registered. -/
theorem hasSession_step (hwf : RegistryWf st)
    (hfound : ∀ call ∈ st.connects, call.pc.hasSession = true → Created st call.id)
    (h : step st e = some st') {call : ConnectCall} (hcall : call ∈ st'.connects)
    (hpc : call.pc.hasSession = true) : Created st call.id := by
  have hsame : st'.connects = st.connects → Created st call.id :=
    fun hconnects => hfound call (hconnects ▸ hcall) hpc
  -- the call that moves has its session, or it has ended
  have hmoved : ∀ {j : ℕ} {old : ConnectCall} {pc : ConnectPc},
      (pc.hasSession = true → Created st old.id) →
      st'.connects = st.connects.set j { old with pc := pc } → Created st call.id := by
    intro j old pc hold hconnects
    rw [hconnects] at hcall
    rcases List.mem_or_eq_of_mem_set hcall with hmem | rfl
    · exact hfound call hmem hpc
    · exact hold hpc
  have hpast : ∀ {j : ℕ} {old : ConnectCall}, st.connects[j]? = some old →
      old.pc.hasSession = true → Created st old.id :=
    fun hc hf => hfound _ (List.mem_of_getElem? hc) hf
  cases step_moves h with
  | allocate => refine hsame ?_; unfold allocate; split <;> rfl
  | unwind => exact hsame (unwindPort_connects st _)
  | removeOwn => exact hsame (removeSession_calls st _).2.1
  | remove id => exact hsame (removeSession_calls st id).2.1
  | beginConnect id =>
    rcases List.mem_append.mp hcall with hmem | hnew
    · exact hfound call hmem hpc
    · rw [List.mem_singleton.mp hnew] at hpc
      cases hpc
  | found hc hp hreg => exact hmoved (fun _ => hwf.registered _ hreg) rfl
  | notFound hc hp hreg => exact @hmoved _ _ (.done (.error sessionNotFound)) nofun rfl
  | refused hc hp | passed hc hp | attach hc hp | insert hc hp | spawn hc hp =>
    exact hmoved (fun _ => hpast hc (by rw [hp]; rfl)) rfl
  | _ => exact hsame rfl

/-- The sessions of the coroutines and the contexts they run on. -/
def State.placed (st : State) : List (SessionId × ℕ) :=
  st.coroutines.map fun co => (co.id, co.io)

/-- Moving a coroutine keeps where they run. -/
theorem placed_setCoroutine {m : State} (hm : m.coroutines = st.coroutines) {k : ℕ}
    {co : Coroutine} (hc : st.coroutines[k]? = some co) (pc : CoroutinePc) :
    (m.setCoroutine k co pc).placed = st.placed := by
  rw [State.placed, State.setCoroutine, hm]
  exact map_set_of_eq hc rfl

/-- Every step spawns a coroutine on the context drawn now, or leaves the
sessions and contexts of the coroutines alone. -/
theorem placed_step (h : step st e = some st') :
    (∃ j, ∃ call ∈ st.connects[j]?, e = .spawn j ∧ call.pc = .spawn ∧
      st'.placed = st.placed ++ [(call.id, st.pool.getIoContext.1)]) ∨
    (∀ j, e ≠ .spawn j) ∧ st'.placed = st.placed := by
  have hsame : st'.coroutines = st.coroutines → st'.placed = st.placed :=
    fun hcoroutines => by rw [State.placed, hcoroutines, State.placed]
  cases step_moves h with
  | allocate => refine .inr ⟨fun _ => Event.noConfusion, hsame ?_⟩; unfold allocate; split <;> rfl
  | unwind => exact .inr ⟨fun _ => Event.noConfusion, hsame (unwindPort_coroutines st _)⟩
  | remove id => exact .inr ⟨fun _ => Event.noConfusion, hsame (removeSession_calls st id).2.2⟩
  | removeOwn hc hp =>
    exact .inr ⟨fun _ => Event.noConfusion, placed_setCoroutine (removeSession_calls st _).2.2 hc _⟩
  | start hc hp => exact .inr ⟨fun _ => Event.noConfusion, placed_setCoroutine (m := setRunning st _ true) rfl hc _⟩
  | finish hc hp => exact .inr ⟨fun _ => Event.noConfusion, placed_setCoroutine (m := setRunning st _ false) rfl hc _⟩
  | @spawn j call hc hp =>
    refine .inl ⟨j, call, hc, rfl, hp, ?_⟩
    simp only [State.placed, State.setConnect, spawnSessionCoroutine, List.map_append,
      List.map_cons, List.map_nil]
  | _ => exact .inr ⟨fun _ => Event.noConfusion, hsame rfl⟩

/-- Coroutines are confined exactly when each runs on its session's context. -/
theorem confined_iff (st : State) : Confined st ↔ ∀ p ∈ st.placed, p.2 = (st.object p.1).io := by
  simp only [Confined, State.placed, List.forall_mem_map]

end Parts

/-- What the history of the events says about the contexts. -/
structure Drawn (size : ℕ) (s : State × List Event) : Prop where
  /-- The registry is well formed. -/
  wf : RegistryWf s.1
  /-- The pool has its size. -/
  poolSize : s.1.pool.size = size
  /-- The next context is the number of draws, round the pool. -/
  next : s.1.pool.next = drawCount s.2 % UInt64.size
  /-- The calls are those that have begun. -/
  begun : ∀ id, (∃ e ∈ s.2, e.begins id = true) ↔ id ∈ s.1.creates.map CreateCall.id
  /-- A call drew the context of its turn. -/
  drawn : ∀ p ∈ s.1.drawn, p.2 = contextAfter size (drawCount (beforeCreate p.1 s.2))
  /-- A session's objects belong to the context that its call drew. -/
  object : ∀ p ∈ s.1.drawn, Created s.1 p.1 → (s.1.object p.1).io = p.2
  /-- A call that holds a session found a created one. -/
  found : ∀ call ∈ s.1.connects, call.pc.hasSession = true → Created s.1 call.id
  /-- What runs belongs to a created session. -/
  spawned : ∀ p ∈ s.1.placed, Created s.1 p.1

/-- Nothing is drawn at first. -/
theorem drawn_fresh (ports : List Port) (size : ℕ) : Drawn size (fresh ports size, []) where
  wf := registryWf_initial ports ⟨size, 0⟩
  poolSize := rfl
  next := rfl
  begun := fun id => by simp [fresh, initial]
  drawn := fun p hp => absurd hp List.not_mem_nil
  object := fun p hp => absurd hp List.not_mem_nil
  found := fun call hcall => absurd hcall List.not_mem_nil
  spawned := fun p hp => absurd hp List.not_mem_nil

/-- The past of a session that has begun is settled. -/
theorem beforeCreate_snoc {id : SessionId} {hist : List Event} (e : Event)
    (h : ∃ d ∈ hist, d.begins id = true) : beforeCreate id (hist ++ [e]) = beforeCreate id hist := by
  obtain ⟨d, hd, hbegins⟩ := h
  induction hist with
  | nil => cases hd
  | cons first hist ih =>
    unfold beforeCreate at ih ⊢
    rw [List.cons_append, List.takeWhile_cons, List.takeWhile_cons]
    cases hfirst : first.begins id with
    | true => rfl
    | false =>
      have hrest : d ∈ hist := by
        rcases List.mem_cons.mp hd with rfl | hmem
        · rw [hfirst] at hbegins
          cases hbegins
        · exact hmem
      exact congrArg (first :: ·) (ih hrest)

/-- When a session begins, everything so far is its past. -/
theorem beforeCreate_begin {id : SessionId} {hist : List Event} {e : Event}
    (h : ¬∃ d ∈ hist, d.begins id = true) (he : e.begins id = true) :
    beforeCreate id (hist ++ [e]) = hist := by
  have hself : hist.takeWhile (fun e => !e.begins id) = hist := by
    refine List.takeWhile_eq_self_iff.mpr fun d hd => ?_
    have hd' := fun hbegins => h ⟨d, hd, hbegins⟩
    simpa using hd'
  rw [beforeCreate, List.takeWhile_append, hself, if_pos rfl, List.takeWhile_cons, he]
  exact List.append_nil hist

/-- The draws of a history are counted event by event. -/
theorem drawCount_snoc (hist : List Event) (e : Event) :
    drawCount (hist ++ [e]) = drawCount hist + if e.draws = true then 1 else 0 := by
  rw [drawCount, List.countP_append, List.countP_singleton, drawCount]

/-- Each call draws once. -/
theorem map_drawn (st : State) : st.drawn.map Prod.fst = st.creates.map CreateCall.id := by
  rw [State.drawn, List.map_map]
  rfl

/-- Calls of one session drew one context. -/
theorem drawn_unique {st : State} (hwf : RegistryWf st) {p q : SessionId × ℕ}
    (hp : p ∈ st.drawn) (hq : q ∈ st.drawn) (hid : p.1 = q.1) : p = q := by
  have hnodup : (st.drawn.map Prod.fst).Nodup := map_drawn st ▸ hwf.calls
  exact List.inj_on_of_nodup_map hnodup hp hq hid

/-- A created session has drawn its context. -/
theorem created_drawn {st : State} {id : SessionId} (h : Created st id) :
    ∃ p ∈ st.drawn, p.1 = id := by
  obtain ⟨i, call, hc, hid, -⟩ := h
  exact ⟨_, List.mem_map_of_mem (List.mem_of_getElem? hc), hid⟩

section History

variable {size : ℕ} {st st' : State} {hist : List Event} {e : Event}

/-- The context drawn now is that of the turn. -/
theorem Drawn.context (h : Drawn size (st, hist)) :
    st.pool.getIoContext.1 = contextAfter size (drawCount hist) := by
  have hsize := h.poolSize
  have hnext := h.next
  dsimp only at hsize hnext
  rw [IoContextPool.getIoContext, contextAfter, hsize, hnext]

/-- One step counts its draw. -/
theorem Drawn.next_step (h : Drawn size (st, hist)) (hstep : step st e = some st') :
    st'.pool.next = drawCount (hist ++ [e]) % UInt64.size := by
  have hnext := h.next
  dsimp only at hnext
  rw [pool_step hstep, drawCount_snoc]
  split
  · rw [IoContextPool.getIoContext, hnext]
    exact Nat.mod_add_mod _ _ _
  · exact hnext

/-- One step records the beginning of its call. -/
theorem Drawn.begun_step (h : Drawn size (st, hist)) (hstep : step st e = some st')
    (id : SessionId) :
    (∃ d ∈ hist ++ [e], d.begins id = true) ↔ id ∈ st'.creates.map CreateCall.id := by
  have hbegun := h.begun id
  have hsnoc : (∃ d ∈ hist ++ [e], d.begins id = true) ↔
      (∃ d ∈ hist, d.begins id = true) ∨ e.begins id = true := by
    simp only [List.mem_append, List.mem_singleton, or_and_right, exists_or, exists_eq_left]
  rw [hsnoc, hbegun, ← map_drawn, ← map_drawn]
  rcases drawn_step hstep with ⟨other, sessionType, rfl, -, hdrawn⟩ | ⟨hnone, hdrawn⟩
  · rw [hdrawn, List.map_append, List.mem_append]
    simp only [Event.begins, List.map_cons, List.map_nil, List.mem_singleton, decide_eq_true_eq,
      eq_comm (a := other)]
  · rw [hdrawn, hnone id]
    simp only [Bool.false_eq_true, or_false]

/-- One step keeps which context each call drew. -/
theorem Drawn.drawn_step (h : Drawn size (st, hist)) (hstep : step st e = some st') :
    ∀ p ∈ st'.drawn, p.2 = contextAfter size (drawCount (beforeCreate p.1 (hist ++ [e]))) := by
  have hold : ∀ p ∈ st.drawn,
      p.2 = contextAfter size (drawCount (beforeCreate p.1 (hist ++ [e]))) := by
    intro p hp
    obtain ⟨call, hcall, rfl⟩ := List.mem_map.mp hp
    rw [beforeCreate_snoc e ((h.begun call.id).mpr (List.mem_map_of_mem hcall))]
    exact h.drawn _ hp
  rcases ActiveSessions.drawn_step hstep with ⟨id, sessionType, rfl, hfresh, hdrawn⟩ | ⟨-, hdrawn⟩
  · intro p hp
    rw [hdrawn] at hp
    rcases List.mem_append.mp hp with hmem | hnew
    · exact hold p hmem
    · rw [List.mem_singleton.mp hnew,
        beforeCreate_begin (mt (h.begun id).mp hfresh) (by simp only [Event.begins, decide_true])]
      exact h.context
  · rw [hdrawn]
    exact hold

/-- One step keeps the context of each session created. -/
theorem Drawn.object_step (h : Drawn size (st, hist)) (hstep : step st e = some st') :
    ∀ p ∈ st'.drawn, Created st' p.1 → (st'.object p.1).io = p.2 := by
  intro p hp hcreated
  have hwf' := registryWf_step h.wf hstep
  have hsubset : ∀ q ∈ st.drawn, q ∈ st'.drawn := by
    intro q hq
    rcases ActiveSessions.drawn_step hstep with ⟨_, _, -, -, hdrawn⟩ | ⟨-, hdrawn⟩ <;> rw [hdrawn]
    · exact List.mem_append_left _ hq
    · exact hq
  rcases registered_io_step hstep hcreated with hbefore | ⟨call, hcall, hid, hio⟩
  · obtain ⟨q, hq, hqid⟩ := created_drawn hbefore
    obtain rfl := drawn_unique hwf' (hsubset q hq) hp hqid
    rw [object_io_step h.wf hstep hbefore]
    exact h.object q hq hbefore
  · have hmem : (call.id, call.io) ∈ st.drawn :=
      List.mem_map_of_mem (f := fun call => (call.id, call.io)) hcall
    rw [hio, ← drawn_unique hwf' (hsubset _ hmem) hp hid]

/-- One step spawns for created sessions alone. -/
theorem Drawn.spawned_step (h : Drawn size (st, hist)) (hstep : step st e = some st') :
    ∀ p ∈ st'.placed, Created st' p.1 := by
  intro p hp
  refine created_step ?_ hstep
  rcases placed_step hstep with ⟨j, call, hcall, rfl, hpc, hplaced⟩ | ⟨-, hplaced⟩
  · rw [hplaced] at hp
    rcases List.mem_append.mp hp with hmem | hnew
    · exact h.spawned p hmem
    · rw [List.mem_singleton.mp hnew]
      exact h.found call (List.mem_of_getElem? hcall) (by rw [hpc]; rfl)
  · exact h.spawned p (hplaced ▸ hp)

end History

/-- One step keeps what the history says. -/
theorem drawn_history_step {size : ℕ} {s s' : State × List Event} {e : Event}
    (h : Drawn size s) (he : withHistory step s e = some s') : Drawn size s' := by
  obtain ⟨st, hist⟩ := s
  obtain ⟨st', hist'⟩ := s'
  obtain ⟨hstep, rfl⟩ := withHistory_eq_some_iff.mp he
  refine ⟨registryWf_step h.wf hstep, ?_, h.next_step hstep, h.begun_step hstep, h.drawn_step hstep,
    h.object_step hstep, fun call hcall hpc => ?_, h.spawned_step hstep⟩
  · have hsize := h.poolSize
    have hpool := pool_step hstep
    dsimp only at hsize hpool ⊢
    rw [hpool]
    split <;> exact hsize
  · exact created_step (hasSession_step h.wf h.found hstep hcall hpc) hstep

/-- A step keeps the sessions confined precisely if a coroutine is spawned in
the turn of its session. -/
theorem confined_step_iff {size : ℕ} {s s' : State × List Event} {e : Event} (h : Drawn size s)
    (hconfined : Confined s.1) (he : withHistory step s e = some s') :
    Confined s'.1 ↔ SpawnsInTurn size s e := by
  obtain ⟨st, hist⟩ := s
  obtain ⟨st', hist'⟩ := s'
  obtain ⟨hstep, rfl⟩ := withHistory_eq_some_iff.mp he
  rw [confined_iff] at hconfined ⊢
  have hold : ∀ p ∈ st.placed, p.2 = (st'.object p.1).io := by
    intro p hp
    rw [object_io_step h.wf hstep (h.spawned p hp)]
    exact hconfined p hp
  rcases placed_step hstep with ⟨j, call, hcall, rfl, hpc, hplaced⟩ | ⟨hnone, hplaced⟩
  · have hcreated : Created st call.id :=
      h.found call (List.mem_of_getElem? hcall) (by rw [hpc]; rfl)
    obtain ⟨q, hq, hqid⟩ := created_drawn hcreated
    have hobject : (st'.object call.id).io =
        contextAfter size (drawCount (beforeCreate call.id hist)) := by
      rw [object_io_step h.wf hstep hcreated, ← hqid, ← h.drawn q hq]
      exact h.object q hq (hqid ▸ hcreated)
    have hcall' : st.connects[j]? = some call := hcall
    simp only [hplaced, List.forall_mem_append, List.forall_mem_singleton, SpawnsInTurn, hcall',
      Option.mem_some_iff, forall_eq', hobject, h.context]
    exact and_iff_right hold
  · have htrivial : SpawnsInTurn size (st, hist) e := by
      cases e with
      | spawn j => exact absurd rfl (hnone j)
      | _ => trivial
    simp only [hplaced, htrivial, iff_true]
    exact hold

/-- In every state of a run each session is confined to its context if and only
if every coroutine is spawned in the turn of its session. -/
theorem confined_iff_spawnsInTurn {ports : List Port} {size : ℕ} {t : State} {es : List Event}
    (hrun : runEvents step (fresh ports size) es = some t) :
    (∀ ds m, ds <+: es → runEvents step (fresh ports size) ds = some m → Confined m) ↔
      Meets (withHistory step) (SpawnsInTurn size) (fresh ports size, []) es := by
  have hrun' := @runEvents_withHistory _ _ step (fresh ports size) [] es
  rw [hrun] at hrun'
  rw [← prefixes_iff_meets (I := Drawn size) (P := fun s => Confined s.1)
    (fun _ _ _ h he => drawn_history_step h he)
    (fun _ _ _ h hp he => confined_step_iff h hp he) (drawn_fresh ports size)
    (fun co hco => absurd hco List.not_mem_nil) hrun']
  constructor
  · intro hall ds s hds hs
    rw [runEvents_withHistory, Option.map_eq_some_iff] at hs
    obtain ⟨m, hm, rfl⟩ := hs
    exact hall ds m hds hm
  · intro hall ds m hds hm
    have hs := @runEvents_withHistory _ _ step (fresh ports size) [] ds
    rw [hm] at hs
    exact hall ds _ hds hs

/-- A session that is created and connected. -/
def createAndConnect : List Event :=
  [.beginCreate 0 .standard, .parsed 0 .ok, .sessionCreated 0 .ok, .register 0, .unwind 0,
    .beginConnect 0, .lookup 0, .testRunning 0, .attach 0, .insert 0, .spawn 0]

/-- Where the connection of the client is accepted between the two, a pool of
two contexts comes round. -/
theorem confined_after_accept :
    ∃ t, runEvents step (fresh [] 2) (.accept :: createAndConnect.insertIdx 5 .accept) = some t ∧
      t.coroutines.map Coroutine.io = [1] ∧ Confined t :=
  ⟨_, rfl, rfl, (@confined_iff_spawnsInTurn [] 2 _ (.accept :: createAndConnect.insertIdx 5 .accept)
    rfl).mpr (by decide) _ _ List.prefix_rfl rfl⟩

/-- Without it the coroutine runs on the other context. -/
theorem not_confined_next_context :
    ∃ t, runEvents step (fresh [] 2) createAndConnect = some t ∧ (t.object 0).io = 0 ∧
      t.coroutines.map Coroutine.io = [1] ∧ ¬Confined t := by
  refine ⟨_, rfl, rfl, rfl, fun hconfined => ?_⟩
  have hio := hconfined _ (List.mem_singleton_self _)
  exact absurd hio (by decide)

end HermesFlow.ActiveSessions
