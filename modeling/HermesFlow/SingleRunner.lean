import HermesFlow.SessionRegistry

/-!
# One runner per session

`create_and_run_websocket_session` tests `is_running_`, which only the spawned
coroutine sets later. If every test that follows a passed one for the same
session finds the coroutine running, one call attaches its observer, one
coroutine runs the session, and every other call is refused.
-/

namespace HermesFlow.ActiveSessions

open EventRun

/-- The call has found its session. -/
def ConnectPc.found : ConnectPc → Bool
  | .lookup => false
  | _ => true

/-- The call has passed the test of `is_running_`. -/
def ConnectPc.passed : ConnectPc → Bool
  | .attach | .insert | .spawn | .done (.ok ()) => true
  | _ => false

/-- The call has attached its observer. -/
def ConnectPc.attached : ConnectPc → Bool
  | .insert | .spawn | .done (.ok ()) => true
  | _ => false

/-- The call has made its entry in `websocket_sessions_`. -/
def ConnectPc.inserted : ConnectPc → Bool
  | .spawn | .done (.ok ()) => true
  | _ => false

/-- The call has returned without an error. -/
def ConnectPc.succeeded : ConnectPc → Bool
  | .done (.ok ()) => true
  | _ => false

/-- A call that succeeds has inserted its entry. -/
theorem ConnectPc.inserted_of_succeeded {pc : ConnectPc} (h : pc.succeeded = true) :
    pc.inserted = true := by
  cases pc with
  | done result => cases result <;> simp_all [succeeded, inserted]
  | _ => simp [succeeded] at h

/-- A call that inserted its entry has attached its observer. -/
theorem ConnectPc.attached_of_inserted {pc : ConnectPc} (h : pc.inserted = true) :
    pc.attached = true := by
  cases pc with
  | done result => cases result <;> simp_all [inserted, attached]
  | _ => simp_all [inserted, attached]

/-- A call that attached its observer has passed the test. -/
theorem ConnectPc.passed_of_attached {pc : ConnectPc} (h : pc.attached = true) :
    pc.passed = true := by
  cases pc with
  | done result => cases result <;> simp_all [attached, passed]
  | _ => simp_all [attached, passed]

/-- A call that passed the test has found its session. -/
theorem ConnectPc.found_of_passed {pc : ConnectPc} (h : pc.passed = true) : pc.found = true := by
  cases pc with
  | lookup => simp [passed] at h
  | _ => rfl

/-- A call that succeeds has passed the test. -/
theorem passed_of_succeeded {pc : ConnectPc} (h : pc.succeeded = true) : pc.passed = true :=
  ConnectPc.passed_of_attached (ConnectPc.attached_of_inserted (ConnectPc.inserted_of_succeeded h))

/-- One runner per session, and one connect call that succeeds. -/
structure SingleRunner (st : State) : Prop where
  /-- At most one coroutine has entered `start` on a session. -/
  runner : ∀ (k l : ℕ) (a b : Coroutine), st.coroutines[k]? = some a →
    st.coroutines[l]? = some b → a.id = b.id → a.pc ≠ .spawned → b.pc ≠ .spawned → k = l
  /-- At most one connect call of a session succeeds. -/
  winner : ∀ (i j : ℕ) (a b : ConnectCall), st.connects[i]? = some a →
    st.connects[j]? = some b → a.id = b.id → a.pc.succeeded = true → b.pc.succeeded = true → i = j
  /-- Every call that fails returns the same error. -/
  loser : ∀ call ∈ st.connects, ∀ e, call.pc = .done (.error e) → e = alreadyConnected
  /-- The observer and the entry of `websocket_sessions_` stay those of the
  call that succeeded, as long as the session is registered. -/
  untouched : ∀ (j : ℕ) (call : ConnectCall), st.connects[j]? = some call →
    call.pc.succeeded = true → (st.object call.id).observer = some j ∧
      (call.id ∈ st.sessions → st.websocketSessions call.id = some j)

/-- Some call for the session has passed the test of `is_running_`. -/
def Passed (st : State) (id : SessionId) : Prop :=
  ∃ call ∈ st.connects, call.id = id ∧ call.pc.passed = true

instance (st : State) (id : SessionId) : Decidable (Passed st id) :=
  inferInstanceAs (Decidable (∃ call ∈ st.connects, call.id = id ∧ call.pc.passed = true))

/-- The guard of runs with a single runner: a session is looked up while it is
registered, and a test that follows a passed one finds the coroutine running. -/
def TestsRunning (st : State) : Event → Prop
  | .lookup j => ∀ call ∈ st.connects[j]?, call.id ∈ st.sessions
  | .testRunning j => ∀ call ∈ st.connects[j]?, Passed st call.id →
      (st.object call.id).isRunning = true
  | _ => True

instance (st : State) : ∀ e, Decidable (TestsRunning st e)
  | .lookup j => inferInstanceAs (Decidable (∀ call ∈ st.connects[j]?, call.id ∈ st.sessions))
  | .testRunning j => inferInstanceAs (Decidable (∀ call ∈ st.connects[j]?,
      Passed st call.id → (st.object call.id).isRunning = true))
  | .beginCreate _ _ | .parsed _ _ | .allocate _ | .sessionCreated _ _ | .returnPort _
  | .register _ | .unwind _ | .beginConnect _ | .attach _ | .insert _
  | .spawn _ | .start _ | .finish _ | .removeOwn _ | .remove _ | .accept =>
    inferInstanceAs (Decidable True)

/-- A call that drew the id has registered the session. -/
def Created (st : State) (id : SessionId) : Prop :=
  ∃ (i : ℕ) (call : CreateCall), st.creates[i]? = some call ∧ call.id = id ∧ call.Registered

/-- What holds of the calls and coroutines of guarded runs. -/
structure ConnectInv (st : State) : Prop where
  /-- The registry is well formed. -/
  wf : RegistryWf st
  /-- A session that was found had been created. -/
  created : ∀ call ∈ st.connects, call.pc.found = true → Created st call.id
  /-- One call of a session passes the test. -/
  one : ∀ (i j : ℕ) (a b : ConnectCall), st.connects[i]? = some a → st.connects[j]? = some b →
    a.id = b.id → a.pc.passed = true → b.pc.passed = true → i = j
  /-- A call that ended with an error was refused by the test. -/
  refused : ∀ call ∈ st.connects, ∀ e, call.pc = .done (.error e) → e = alreadyConnected
  /-- The attached observer is that of the call that attached one. -/
  observer : ∀ (j : ℕ) (call : ConnectCall), st.connects[j]? = some call →
    call.pc.attached = true → (st.object call.id).observer = some j
  /-- So is the entry of `websocket_sessions_`. -/
  entry : ∀ (j : ℕ) (call : ConnectCall), st.connects[j]? = some call →
    call.pc.inserted = true → call.id ∈ st.sessions → st.websocketSessions call.id = some j
  /-- A coroutine was spawned by a call that has returned. -/
  spawned : ∀ co ∈ st.coroutines, ∃ call, st.connects[co.websocket]? = some call ∧
    call.id = co.id ∧ call.pc.succeeded = true
  /-- Each call spawns one coroutine. -/
  spawnedOnce : (st.coroutines.map Coroutine.websocket).Nodup

/-- The invariant holds at the start. -/
theorem ConnectInv.initial (ports : List Port) (pool : IoContextPool) :
    ConnectInv (initial ports pool) where
  wf := registryWf_initial ports pool
  created := fun _ h => absurd h List.not_mem_nil
  one := fun _ _ _ _ h => absurd h (by simp [ActiveSessions.initial])
  refused := fun _ h => absurd h List.not_mem_nil
  observer := fun _ _ h => absurd h (by simp [ActiveSessions.initial])
  entry := fun _ _ h => absurd h (by simp [ActiveSessions.initial])
  spawned := fun _ h => absurd h List.not_mem_nil
  spawnedOnce := List.nodup_nil

/-- Two coroutines of one session were spawned by one call, so they are one. -/
theorem ConnectInv.coroutine_unique {st : State} (h : ConnectInv st) {k l : ℕ} {a b : Coroutine}
    (ha : st.coroutines[k]? = some a) (hb : st.coroutines[l]? = some b) (hid : a.id = b.id) :
    k = l := by
  obtain ⟨call, hcall, hcid, hcs⟩ := h.spawned a (List.mem_of_getElem? ha)
  obtain ⟨other, hother, hoid, hos⟩ := h.spawned b (List.mem_of_getElem? hb)
  have hws : a.websocket = b.websocket :=
    h.one _ _ _ _ hcall hother (by rw [hcid, hoid, hid])
      (passed_of_succeeded hcs) (passed_of_succeeded hos)
  obtain ⟨hk, rfl⟩ := List.getElem?_eq_some_iff.mp ha
  obtain ⟨hl, rfl⟩ := List.getElem?_eq_some_iff.mp hb
  have hinj := List.nodup_iff_injective_getElem.mp h.spawnedOnce
  have hkl : (⟨k, by simpa using hk⟩ : Fin (st.coroutines.map Coroutine.websocket).length) =
      ⟨l, by simpa using hl⟩ := hinj (by simpa using hws)
  exact congrArg Fin.val hkl

/-- The invariant has a single runner in every state. -/
theorem ConnectInv.singleRunner {st : State} (h : ConnectInv st) : SingleRunner st where
  runner := fun _ _ _ _ ha hb hid _ _ => h.coroutine_unique ha hb hid
  winner := fun _ _ _ _ ha hb hid hsa hsb =>
    h.one _ _ _ _ ha hb hid (passed_of_succeeded hsa) (passed_of_succeeded hsb)
  loser := h.refused
  untouched := fun j call hc hs =>
    have hinserted := ConnectPc.inserted_of_succeeded hs
    ⟨h.observer j call hc (ConnectPc.attached_of_inserted hinserted), h.entry j call hc hinserted⟩

/-- A session that was created stays created. -/
theorem Created.setCreate {st : State} {id : SessionId} (h : Created st id) {i : ℕ}
    {call : CreateCall} (hc : st.creates[i]? = some call) {pc : CreatePc}
    (hreg : call.Registered → CreateCall.Registered { call with pc := pc }) :
    Created (st.setCreate i call pc) id := by
  obtain ⟨j, other, ho, hid, hor⟩ := h
  by_cases hij : i = j
  · subst hij
    obtain rfl : call = other := Option.some.inj (hc.symm.trans ho)
    have hi := (List.getElem?_eq_some_iff.mp hc).1
    exact ⟨i, { call with pc := pc }, by simp [State.setCreate, hi], hid, hreg hor⟩
  · exact ⟨j, other, by simp [State.setCreate, List.getElem?_set_ne hij, ho], hid, hor⟩

/-- A removal keeps the calls to create. -/
theorem removeSession_creates (st : State) (id : SessionId) :
    (removeSession st id).1.creates = st.creates := by
  by_cases h : id ∈ st.sessions
  · exact (removeSession_of_mem h).2.2.2
  · rw [removeSession_of_not_mem h]

/-- Every step keeps created sessions created. -/
theorem created_step {st st' : State} {e : Event} {id : SessionId} (h : Created st id)
    (hstep : step st e = some st') : Created st' id := by
  have hframe : ∀ {m : State}, m.creates = st.creates → Created m id := fun hm => by
    unfold Created
    rw [hm]
    exact h
  cases step_moves hstep with
  | beginCreate hid sessionType =>
    obtain ⟨i, call, hc, hrest⟩ := h
    have hlt := (List.getElem?_eq_some_iff.mp hc).1
    exact ⟨i, call, by simp [beginCreate, List.getElem?_append_left hlt, hc], hrest⟩
  | parsed hc hp result => exact h.setCreate hc (by simp [CreateCall.Registered, hp])
  | allocate hc hp =>
    unfold allocate
    split
    · exact h.setCreate hc (by simp [CreateCall.Registered, hp])
    · rename_i port rest _
      have hrest : Created { st with availableWebrtcPorts := rest } id := hframe rfl
      exact hrest.setCreate hc (by simp [CreateCall.Registered, hp])
  | sessionCreated hc hp result => exact h.setCreate hc (by simp [CreateCall.Registered, hp])
  | @returnPort i call port error hc hp =>
    have hport : Created (unwindPort st (some port)) id := hframe rfl
    exact hport.setCreate hc (by simp [CreateCall.Registered, hp])
  | @register i call port hc hp =>
    have hreg : Created (register st call port) id := hframe rfl
    exact hreg.setCreate hc (by simp [CreateCall.Registered, hp])
  | @unwind i call port outcome hc hp =>
    have hport : Created (unwindPort st port) id := hframe (unwindPort_creates st port)
    refine hport.setCreate (by simpa using hc) ?_
    simp only [CreateCall.Registered, hp]
    rintro (⟨q, hq⟩ | hq)
    · cases hq
      exact .inr rfl
    · cases hq
  | removeOwn hc hp => exact hframe (removeSession_creates st _)
  | remove id => exact hframe (removeSession_creates st id)
  | _ => exact hframe rfl

/-- The session of a call that found it. -/
theorem ConnectInv.created_of_getElem? {st : State} (h : ConnectInv st) {j : ℕ}
    {call : ConnectCall} (hc : st.connects[j]? = some call) (hf : call.pc.found = true) :
    Created st call.id := h.created call (List.mem_of_getElem? hc) hf

/-- Steps that leave the connect calls, the coroutines but for their position,
and the observers and entries of created sessions alone keep the invariant. -/
theorem ConnectInv.frame {st st' : State} {e : Event} (h : ConnectInv st)
    (hstep : step st e = some st') (hconnects : st'.connects = st.connects)
    (hcoroutines : st'.coroutines.map (fun co => (co.id, co.websocket)) =
      st.coroutines.map fun co => (co.id, co.websocket))
    (hobserver : ∀ id, Created st id → (st'.object id).observer = (st.object id).observer)
    (hentry : ∀ id, Created st id → id ∈ st'.sessions →
      id ∈ st.sessions ∧ st'.websocketSessions id = st.websocketSessions id) :
    ConnectInv st' where
  wf := registryWf_step h.wf hstep
  created := fun call hc hf => created_step (h.created call (hconnects ▸ hc) hf) hstep
  one := by rw [hconnects]; exact h.one
  refused := by rw [hconnects]; exact h.refused
  observer := fun j call hc ha => by
    rw [hconnects] at hc
    have hcreated := h.created_of_getElem? hc
      (ConnectPc.found_of_passed (ConnectPc.passed_of_attached ha))
    rw [hobserver _ hcreated]
    exact h.observer j call hc ha
  entry := fun j call hc hi hs => by
    rw [hconnects] at hc
    have hcreated := h.created_of_getElem? hc
      (ConnectPc.found_of_passed (ConnectPc.passed_of_attached (ConnectPc.attached_of_inserted hi)))
    obtain ⟨hold, hsame⟩ := hentry _ hcreated hs
    rw [hsame]
    exact h.entry j call hc hi hold
  spawned := fun co hco => by
    have hmem : (co.id, co.websocket) ∈ st.coroutines.map fun co => (co.id, co.websocket) :=
      hcoroutines ▸ List.mem_map_of_mem hco
    obtain ⟨old, hold, heq⟩ := List.mem_map.mp hmem
    obtain ⟨hid, hws⟩ := Prod.mk.injEq .. ▸ heq
    rw [hconnects, ← hid, ← hws]
    exact h.spawned old hold
  spawnedOnce := by
    have hws := congrArg (List.map Prod.snd) hcoroutines
    simp only [List.map_map, Function.comp_def] at hws
    rw [hws]
    exact h.spawnedOnce

/-- The calls after one of them has moved. -/
theorem getElem?_setConnect {st : State} {j : ℕ} {call : ConnectCall} {pc : ConnectPc} {i : ℕ}
    {other : ConnectCall} (h : (st.setConnect j call pc).connects[i]? = some other) :
    i = j ∧ other = { call with pc := pc } ∨ i ≠ j ∧ st.connects[i]? = some other :=
  getElem?_set_cases h

/-- A connect call moves on: what its new position needs. -/
theorem ConnectInv.setConnect {st : State} (h : ConnectInv st) {j : ℕ} {call : ConnectCall}
    (hc : st.connects[j]? = some call) {pc : ConnectPc} (hbegun : call.pc.succeeded = false)
    (hcreated : Created st call.id)
    (hone : pc.passed = true → call.pc.passed = true ∨ ¬Passed st call.id)
    (hrefused : ∀ e, pc = .done (.error e) → e = alreadyConnected)
    (hobserver : pc.attached = true → (st.object call.id).observer = some j)
    (hentry : pc.inserted = true → call.id ∈ st.sessions →
      st.websocketSessions call.id = some j) : ConnectInv (st.setConnect j call pc) where
  wf := h.wf.frame rfl rfl
  created := fun other hother hf => by
    obtain ⟨i, hi⟩ := List.mem_iff_getElem?.mp hother
    rcases getElem?_setConnect hi with ⟨-, rfl⟩ | ⟨-, hold⟩
    · exact hcreated
    · exact h.created other (List.mem_of_getElem? hold) hf
  one := fun i k a b ha hb hid hpa hpb => by
    -- a call that passed before and the one that moves are one
    have hmoved : ∀ {i : ℕ} {a : ConnectCall}, st.connects[i]? = some a → a.id = call.id →
        a.pc.passed = true → pc.passed = true → i = j := by
      intro i a ha hid hpa hp
      rcases hone hp with hcall | hnone
      · exact h.one _ _ _ _ ha hc hid hpa hcall
      · exact absurd ⟨a, List.mem_of_getElem? ha, hid, hpa⟩ hnone
    rcases getElem?_setConnect ha with ⟨rfl, rfl⟩ | ⟨-, hold⟩ <;>
      rcases getElem?_setConnect hb with ⟨rfl, rfl⟩ | ⟨-, hold'⟩
    · rfl
    · exact (hmoved hold' hid.symm hpb hpa).symm
    · exact hmoved hold hid hpa hpb
    · exact h.one _ _ _ _ hold hold' hid hpa hpb
  refused := fun other hother e he => by
    obtain ⟨i, hi⟩ := List.mem_iff_getElem?.mp hother
    rcases getElem?_setConnect hi with ⟨-, rfl⟩ | ⟨-, hold⟩
    · exact hrefused e he
    · exact h.refused other (List.mem_of_getElem? hold) e he
  observer := fun i other hi ha => by
    rcases getElem?_setConnect hi with ⟨rfl, rfl⟩ | ⟨-, hold⟩
    · exact hobserver ha
    · exact h.observer i other hold ha
  entry := fun i other hi hin hs => by
    rcases getElem?_setConnect hi with ⟨rfl, rfl⟩ | ⟨-, hold⟩
    · exact hentry hin hs
    · exact h.entry i other hold hin hs
  spawned := fun co hco => by
    obtain ⟨other, ho, hid, hs⟩ := h.spawned co hco
    have hne : j ≠ co.websocket := by
      rintro rfl
      obtain rfl : call = other := Option.some.inj (hc.symm.trans ho)
      rw [hbegun] at hs
      cases hs
    exact ⟨other, by simp [State.setConnect, List.getElem?_set_ne hne, ho], hid, hs⟩
  spawnedOnce := h.spawnedOnce

/-- Attaching is done by the one call that passed, and no observer of another
call is lost. -/
theorem ConnectInv.attachObserver {st : State} (h : ConnectInv st) {j : ℕ} {call : ConnectCall}
    (hc : st.connects[j]? = some call) (hp : call.pc = .attach) :
    ConnectInv (attachObserver st call.id j) where
  wf := h.wf.frame rfl rfl
  created := h.created
  one := h.one
  refused := h.refused
  observer := fun i other hi ha => by
    by_cases hid : other.id = call.id
    · have hpassed : call.pc.passed = true := by simp [hp, ConnectPc.passed]
      have hij := h.one _ _ _ _ hi hc hid (ConnectPc.passed_of_attached ha) hpassed
      subst hij
      obtain rfl : other = call := Option.some.inj (hi.symm.trans hc)
      simp [hp, ConnectPc.attached] at ha
    · simpa [ActiveSessions.attachObserver, State.setObject, Function.update_of_ne hid] using
        h.observer i other hi ha
  entry := h.entry
  spawned := h.spawned
  spawnedOnce := h.spawnedOnce

/-- The same for the entry of `websocket_sessions_`. -/
theorem ConnectInv.insertWebsocket {st : State} (h : ConnectInv st) {j : ℕ} {call : ConnectCall}
    (hc : st.connects[j]? = some call) (hp : call.pc = .insert) :
    ConnectInv (insertWebsocket st call.id j) where
  wf := h.wf.frame rfl rfl
  created := h.created
  one := h.one
  refused := h.refused
  observer := h.observer
  entry := fun i other hi hin hs => by
    by_cases hid : other.id = call.id
    · have hpassed := ConnectPc.passed_of_attached (ConnectPc.attached_of_inserted hin)
      have hij := h.one _ _ _ _ hi hc hid hpassed (by simp [hp, ConnectPc.passed])
      subst hij
      obtain rfl : other = call := Option.some.inj (hi.symm.trans hc)
      simp [hp, ConnectPc.inserted] at hin
    · simpa [ActiveSessions.insertWebsocket, Function.update_of_ne hid] using
        h.entry i other hi hin hs
  spawned := h.spawned
  spawnedOnce := h.spawnedOnce

/-- A returned call that no coroutine belongs to may get one. -/
theorem ConnectInv.spawnSessionCoroutine {st : State} (h : ConnectInv st) {j : ℕ}
    {call : ConnectCall} (hc : st.connects[j]? = some call) (hs : call.pc.succeeded = true)
    (hnone : ∀ co ∈ st.coroutines, co.websocket ≠ j) :
    ConnectInv (spawnSessionCoroutine st call.id j) where
  wf := h.wf.frame rfl rfl
  created := h.created
  one := h.one
  refused := h.refused
  observer := h.observer
  entry := h.entry
  spawned := fun co hco => by
    rcases List.mem_append.mp hco with hold | hnew
    · exact h.spawned co hold
    · obtain rfl := List.mem_singleton.mp hnew
      exact ⟨call, hc, rfl, hs⟩
  spawnedOnce := by
    simp only [ActiveSessions.spawnSessionCoroutine, List.map_append, List.map_cons, List.map_nil,
      List.nodup_append, List.nodup_cons, List.not_mem_nil, not_false_eq_true, List.nodup_nil,
      and_self, true_and, List.mem_map, List.mem_singleton]
    refine ⟨h.spawnedOnce, ?_⟩
    rintro _ ⟨co, hco, rfl⟩ _ rfl
    exact hnone co hco

/-- A coroutine that moves on runs the same session with the same WebSocket. -/
theorem coroutines_setCoroutine {st : State} {k : ℕ} {co : Coroutine}
    (hc : st.coroutines[k]? = some co) (pc : CoroutinePc) :
    (st.setCoroutine k co pc).coroutines.map (fun co => (co.id, co.websocket)) =
      st.coroutines.map fun co => (co.id, co.websocket) :=
  Custody.map_set_of_eq hc rfl

/-- A session that is left in the registry after `remove_session` keeps its entry. -/
theorem removeSession_entry {st : State} (hnodup : st.sessions.Nodup) (id : SessionId) {a : SessionId}
    (ha : a ∈ (removeSession st id).1.sessions) :
    a ∈ st.sessions ∧ (removeSession st id).1.websocketSessions a = st.websocketSessions a := by
  by_cases h : id ∈ st.sessions
  · rw [(removeSession_of_mem h).2.1] at ha
    obtain ⟨hne, hmem⟩ := hnodup.mem_erase_iff.mp ha
    refine ⟨hmem, ?_⟩
    simp only [removeSession, if_pos h]
    split
    · exact Function.update_of_ne hne _ _
    · rfl
  · rw [removeSession_of_not_mem h] at ha ⊢
    exact ⟨ha, rfl⟩

/-- The running flag keeps the observers. -/
@[simp] theorem setRunning_observer (st : State) (id a : SessionId) (value : Bool) :
    ((setRunning st id value).object a).observer = (st.object a).observer := by
  by_cases h : a = id
  · subst h
    simp [setRunning, State.setObject]
  · simp [setRunning, State.setObject, Function.update_of_ne h]

/-- A removal keeps the observers. -/
@[simp] theorem removeSession_observer (st : State) (id a : SessionId) :
    ((removeSession st id).1.object a).observer = (st.object a).observer := by
  by_cases h : id ∈ st.sessions
  · rw [(removeSession_of_mem h).2.2.1, setRunning_observer]
  · rw [removeSession_of_not_mem h]

/-- A removal keeps the calls to connect. -/
@[simp] theorem removeSession_connects (st : State) (id : SessionId) :
    (removeSession st id).1.connects = st.connects := by
  unfold removeSession
  split
  · dsimp only
    split <;> rfl
  · rfl

/-- A removal keeps the coroutines. -/
@[simp] theorem removeSession_coroutines (st : State) (id : SessionId) :
    (removeSession st id).1.coroutines = st.coroutines := by
  unfold removeSession
  split
  · dsimp only
    split <;> rfl
  · rfl

/-- A new call has passed nothing. -/
theorem ConnectInv.beginConnect {st : State} (h : ConnectInv st) (id : SessionId) :
    ConnectInv { st with connects := st.connects ++ [⟨id, .lookup⟩] } := by
  have hold : ∀ {i : ℕ} {call : ConnectCall}, (st.connects ++ [⟨id, .lookup⟩])[i]? = some call →
      call.pc ≠ .lookup → st.connects[i]? = some call := by
    intro i call hc hp
    rw [List.getElem?_append] at hc
    split at hc
    · exact hc
    · obtain rfl := List.mem_singleton.mp (List.mem_of_getElem? hc)
      exact absurd rfl hp
  have hpassed : ∀ {call : ConnectCall}, call.pc.passed = true → call.pc ≠ .lookup := by
    rintro call hp heq
    simp [heq, ConnectPc.passed] at hp
  refine ⟨h.wf.frame rfl rfl, ?_, ?_, ?_, ?_, ?_, ?_, h.spawnedOnce⟩
  · intro call hc hf
    obtain ⟨i, hi⟩ := List.mem_iff_getElem?.mp hc
    have hne : call.pc ≠ .lookup := fun heq => by simp [heq, ConnectPc.found] at hf
    exact h.created call (List.mem_of_getElem? (hold hi hne)) hf
  · intro i j a b ha hb hid hpa hpb
    exact h.one i j a b (hold ha (hpassed hpa)) (hold hb (hpassed hpb)) hid hpa hpb
  · intro call hc e he
    obtain ⟨i, hi⟩ := List.mem_iff_getElem?.mp hc
    exact h.refused call (List.mem_of_getElem? (hold hi (by simp [he]))) e he
  · intro j call hc ha
    exact h.observer j call (hold hc (hpassed (ConnectPc.passed_of_attached ha))) ha
  · intro j call hc hi hs
    have ha := ConnectPc.attached_of_inserted hi
    exact h.entry j call (hold hc (hpassed (ConnectPc.passed_of_attached ha))) hi hs
  · intro co hco
    obtain ⟨call, hc, hrest⟩ := h.spawned co hco
    have hlt := (List.getElem?_eq_some_iff.mp hc).1
    exact ⟨call, by rw [List.getElem?_append_left hlt, hc], hrest⟩

/-- A call returns with its coroutine spawned. -/
theorem ConnectInv.spawn {st : State} (h : ConnectInv st) {j : ℕ} {call : ConnectCall}
    (hc : st.connects[j]? = some call) (hp : call.pc = .spawn) :
    ConnectInv (ActiveSessions.spawnSessionCoroutine (st.setConnect j call (.done (.ok ())))
      call.id j) := by
  have hcreated := h.created_of_getElem? hc (by simp [hp, ConnectPc.found])
  have hobserver := h.observer j call hc (by simp [hp, ConnectPc.attached])
  have hentry := h.entry j call hc (by simp [hp, ConnectPc.inserted])
  have hmoved : ConnectInv (st.setConnect j call (.done (.ok ()))) :=
    h.setConnect hc (by simp [hp, ConnectPc.succeeded]) hcreated
      (fun _ => .inl (by simp [hp, ConnectPc.passed])) (fun e he => by cases he)
      (fun _ => hobserver) fun _ => hentry
  have hj := (List.getElem?_eq_some_iff.mp hc).1
  have hself : (st.setConnect j call (.done (.ok ()))).connects[j]? =
      some { call with pc := .done (.ok ()) } := by simp [State.setConnect, hj]
  refine @ConnectInv.spawnSessionCoroutine _ hmoved j { call with pc := .done (.ok ()) } hself rfl
    fun co hco hws => ?_
  -- no coroutine belongs to the call yet: the coroutine's call would have returned
  obtain ⟨other, ho, -, hs⟩ := h.spawned co hco
  rw [hws] at ho
  obtain rfl : call = other := Option.some.inj (hc.symm.trans ho)
  simp [hp, ConnectPc.succeeded] at hs

/-- A call that has found its session goes on to the test. -/
theorem ConnectInv.found {st : State} (h : ConnectInv st) {j : ℕ} {call : ConnectCall}
    (hc : st.connects[j]? = some call) (hp : call.pc = .lookup) (hreg : call.id ∈ st.sessions) :
    ConnectInv (st.setConnect j call .testRunning) :=
  h.setConnect hc (by simp [hp, ConnectPc.succeeded]) (h.wf.registered call.id hreg)
    (fun hb => by cases hb) (fun e he => by cases he) (fun hb => by cases hb) fun hb => by cases hb

/-- A call that finds the session running is refused. -/
theorem ConnectInv.refuse {st : State} (h : ConnectInv st) {j : ℕ} {call : ConnectCall}
    (hc : st.connects[j]? = some call) (hp : call.pc = .testRunning) :
    ConnectInv (st.setConnect j call (.done (.error alreadyConnected))) := by
  have hcreated := h.created_of_getElem? hc (by simp [hp, ConnectPc.found])
  refine h.setConnect hc (by simp [hp, ConnectPc.succeeded]) hcreated (fun hb => by cases hb)
    (fun e he => ?_) (fun hb => by cases hb) fun hb => by cases hb
  cases he
  rfl

/-- The first call that finds the session not running passes. -/
theorem ConnectInv.pass {st : State} (h : ConnectInv st) {j : ℕ} {call : ConnectCall}
    (hc : st.connects[j]? = some call) (hp : call.pc = .testRunning)
    (hnone : ¬Passed st call.id) : ConnectInv (st.setConnect j call .attach) :=
  h.setConnect hc (by simp [hp, ConnectPc.succeeded])
    (h.created_of_getElem? hc (by simp [hp, ConnectPc.found])) (fun _ => .inr hnone)
    (fun e he => by cases he) (fun hb => by cases hb) fun hb => by cases hb

/-- The call that passed attaches its observer. -/
theorem ConnectInv.attach {st : State} (h : ConnectInv st) {j : ℕ} {call : ConnectCall}
    (hc : st.connects[j]? = some call) (hp : call.pc = .attach) :
    ConnectInv ((ActiveSessions.attachObserver st call.id j).setConnect j call .insert) := by
  have hcreated := h.created_of_getElem? hc (by simp [hp, ConnectPc.found])
  refine (h.attachObserver hc hp).setConnect hc (by simp [hp, ConnectPc.succeeded]) hcreated
    (fun _ => .inl (by simp [hp, ConnectPc.passed])) (fun e he => by cases he) (fun _ => ?_)
    fun hb => by cases hb
  simp [ActiveSessions.attachObserver, State.setObject]

/-- It makes its entry. -/
theorem ConnectInv.insert {st : State} (h : ConnectInv st) {j : ℕ} {call : ConnectCall}
    (hc : st.connects[j]? = some call) (hp : call.pc = .insert) :
    ConnectInv ((ActiveSessions.insertWebsocket st call.id j).setConnect j call .spawn) := by
  have hcreated := h.created_of_getElem? hc (by simp [hp, ConnectPc.found])
  have hobserver := h.observer j call hc (by simp [hp, ConnectPc.attached])
  refine (h.insertWebsocket hc hp).setConnect hc (by simp [hp, ConnectPc.succeeded]) hcreated
    (fun _ => .inl (by simp [hp, ConnectPc.passed])) (fun e he => by cases he)
    (fun _ => hobserver) fun _ _ => ?_
  simp [ActiveSessions.insertWebsocket]

/-- A registered session is a new one. -/
theorem ConnectInv.register {st : State} (h : ConnectInv st) {i : ℕ} {call : CreateCall}
    {port : Option Port} (hc : st.creates[i]? = some call) (hp : call.pc = .registering port)
    (hstep : step st (.register i) =
      some ((ActiveSessions.register st call port).setCreate i call (.unwinding port .created))) :
    ConnectInv ((ActiveSessions.register st call port).setCreate i call
      (.unwinding port .created)) := by
  have hnew : ∀ id, Created st id → id ≠ call.id := by
    rintro id hcreated rfl
    exact h.wf.not_registered hc hp hcreated
  refine h.frame hstep rfl rfl (fun id hid => ?_) fun id hid hs => ?_
  · simp [ActiveSessions.register, State.setCreate, State.setObject,
      Function.update_of_ne (hnew id hid)]
  · refine ⟨?_, rfl⟩
    simp only [ActiveSessions.register, State.setCreate, if_neg (h.wf.fresh hc hp),
      List.mem_append, List.mem_singleton] at hs
    exact hs.resolve_right (hnew id hid)

/-- A removal, by whatever step, keeps the observers and the entries that are left. -/
theorem ConnectInv.removal {st st' : State} {e : Event} {id : SessionId} (h : ConnectInv st)
    (hstep : step st e = some st') (hconnects : st'.connects = st.connects)
    (hcoroutines : st'.coroutines.map (fun co => (co.id, co.websocket)) =
      st.coroutines.map fun co => (co.id, co.websocket))
    (hobject : st'.object = (removeSession st id).1.object)
    (hsessions : st'.sessions = (removeSession st id).1.sessions)
    (hentries : st'.websocketSessions = (removeSession st id).1.websocketSessions) :
    ConnectInv st' := by
  refine h.frame hstep hconnects hcoroutines (fun a _ => ?_) fun a _ hs => ?_
  · rw [hobject, removeSession_observer]
  · rw [hsessions] at hs
    rw [hentries]
    exact removeSession_entry h.wf.sessions id hs

/-- Every guarded step keeps the invariant. -/
theorem connectInv_step {st st' : State} {e : Event} (h : ConnectInv st)
    (hok : TestsRunning st e) (hstep : step st e = some st') : ConnectInv st' := by
  have hsame : ∀ id, Created st id → id ∈ st.sessions →
      id ∈ st.sessions ∧ st.websocketSessions id = st.websocketSessions id :=
    fun _ _ hs => ⟨hs, rfl⟩
  cases step_moves hstep with
  | beginCreate | parsed | sessionCreated | returnPort | accept =>
    exact h.frame hstep rfl rfl (fun _ _ => rfl) hsame
  | allocate hc hp =>
    unfold allocate at hstep ⊢
    split at hstep <;> exact h.frame hstep rfl rfl (fun _ _ => rfl) hsame
  | register hc hp => exact h.register hc hp hstep
  | @unwind i call port outcome hc hp =>
    cases port <;> exact h.frame hstep rfl rfl (fun _ _ => rfl) hsame
  | beginConnect id => exact h.beginConnect id
  | found hc hp hreg => exact h.found hc hp hreg
  | @notFound j call hc hp hreg => exact absurd (hok call hc) hreg
  | refused hc hp hr => exact h.refuse hc hp
  | @passed j call hc hp hr =>
    refine h.pass hc hp fun hpassed => ?_
    rw [hok call hc hpassed] at hr
    cases hr
  | attach hc hp => exact h.attach hc hp
  | insert hc hp => exact h.insert hc hp
  | spawn hc hp => exact h.spawn hc hp
  | start hc hp | finish hc hp =>
    exact h.frame hstep rfl (coroutines_setCoroutine hc _) (fun id _ => setRunning_observer _ _ _ _)
      hsame
  | @removeOwn k co hc hp =>
    have hc' : (removeSession st co.id).1.coroutines[k]? = some co := by simpa using hc
    exact h.removal hstep (removeSession_connects st co.id)
      (by simpa using coroutines_setCoroutine hc' .finished) rfl rfl rfl
  | remove id => exact h.removal hstep (removeSession_connects st id) (by simp) rfl rfl rfl

/-- One runner per session: in every run in which a session is looked up while
it is registered and a test that follows a passed one finds the coroutine
running, one call succeeds, one coroutine runs the session, and every other
call is refused and leaves the observer and the entry of the first alone. -/
theorem single_runner {ports : List Port} {pool : IoContextPool} {st : State} {es : List Event}
    (hmeets : Meets step TestsRunning (initial ports pool) es)
    (hrun : runEvents step (initial ports pool) es = some st) : SingleRunner st := by
  have hinv : ConnectInv st :=
    run_invariant (fun _ _ _ hi hok hstep => connectInv_step hi hok hstep)
      (ConnectInv.initial ports pool) hmeets hrun
  exact hinv.singleRunner

/-- A session is created and connected, its coroutine starts, and a second
connect call finds it running. -/
def refusedConnect : List Event :=
  [.beginCreate 7 .standard, .parsed 0 .ok, .sessionCreated 0 .ok, .register 0, .unwind 0,
    .beginConnect 7, .beginConnect 7, .lookup 0, .lookup 1, .testRunning 0, .attach 0, .insert 0,
    .spawn 0, .start 0, .testRunning 1]

/-- A refused connection leaves its session to one runner. -/
theorem single_runner_refused :
    ∃ st, runEvents step (initial [] ⟨2, 0⟩) refusedConnect = some st ∧ SingleRunner st := by
  have hmeets : Meets step TestsRunning (initial [] ⟨2, 0⟩) refusedConnect := by decide
  exact ⟨_, rfl, single_runner hmeets rfl⟩

/-- Two calls pass the test before the first coroutine starts: both succeed,
the second observer replaces the first and two coroutines run the session. -/
theorem two_runners_before_start :
    ∃ st, runEvents step (initial [] ⟨2, 0⟩) [.beginCreate 7 .standard, .parsed 0 .ok,
        .sessionCreated 0 .ok, .register 0, .unwind 0, .beginConnect 7, .beginConnect 7,
        .lookup 0, .lookup 1, .testRunning 0, .testRunning 1, .attach 0, .attach 1, .insert 0,
        .insert 1, .spawn 0, .spawn 1, .start 0, .start 1] = some st ∧
      ¬SingleRunner st ∧ (st.object 7).observer = some 1 ∧
      st.coroutines.map Coroutine.pc = [.started, .started] := by
  refine ⟨_, rfl, fun h => ?_, rfl, rfl⟩
  have htwo : (0 : ℕ) = 1 :=
    h.runner 0 1 _ _ rfl rfl rfl (fun h => absurd h (by decide)) fun h => absurd h (by decide)
  cases htwo

end HermesFlow.ActiveSessions
