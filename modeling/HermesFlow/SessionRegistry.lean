import HermesFlow.ActiveSessions
import HermesFlow.Custody

/-!
# Well-formedness of the registry

Session ids come from one generator and each is registered by the call that
drew it. This holds in every reachable state, whatever becomes of the ports
and of the calls that connect to a session.
-/

namespace HermesFlow.ActiveSessions

open EventRun Custody

/-- The call has registered its session. -/
def CreateCall.Registered (call : CreateCall) : Prop :=
  (∃ port, call.pc = .unwinding port .created) ∨ call.pc = .done .created

/-- Session ids are drawn once and registered by the call that drew them. -/
structure RegistryWf (st : State) : Prop where
  /-- No two calls have the same id. -/
  calls : (st.creates.map CreateCall.id).Nodup
  /-- `sessions_` has each key once. -/
  sessions : st.sessions.Nodup
  /-- A key of `sessions_` was inserted by the call that drew it. -/
  registered : ∀ id ∈ st.sessions, ∃ (i : ℕ) (call : CreateCall),
    st.creates[i]? = some call ∧ call.id = id ∧ call.Registered

/-- Calls of one id are one call. -/
theorem RegistryWf.call_unique {st : State} (hwf : RegistryWf st) {i j : ℕ} {a b : CreateCall}
    (ha : st.creates[i]? = some a) (hb : st.creates[j]? = some b) (hid : a.id = b.id) : i = j := by
  obtain ⟨hi, rfl⟩ := List.getElem?_eq_some_iff.mp ha
  obtain ⟨hj, rfl⟩ := List.getElem?_eq_some_iff.mp hb
  have hnodup := List.nodup_iff_injective_getElem.mp hwf.calls
  have hij : (⟨i, by simpa using hi⟩ : Fin (st.creates.map CreateCall.id).length) =
      ⟨j, by simpa using hj⟩ := hnodup (by simpa using hid)
  exact congrArg Fin.val hij

/-- No call has registered the session that is about to be registered. -/
theorem RegistryWf.not_registered {st : State} (hwf : RegistryWf st) {i : ℕ} {call : CreateCall}
    {port : Option Port} (hc : st.creates[i]? = some call) (hp : call.pc = .registering port) :
    ¬∃ (j : ℕ) (other : CreateCall), st.creates[j]? = some other ∧ other.id = call.id ∧
      other.Registered := by
  rintro ⟨j, other, ho, hid, hreg⟩
  obtain rfl := hwf.call_unique ho hc hid
  obtain rfl : other = call := Option.some.inj (ho.symm.trans hc)
  simp [CreateCall.Registered, hp] at hreg

/-- A session about to be registered is not registered yet. -/
theorem RegistryWf.fresh {st : State} (hwf : RegistryWf st) {i : ℕ} {call : CreateCall}
    {port : Option Port} (hc : st.creates[i]? = some call) (hp : call.pc = .registering port) :
    call.id ∉ st.sessions :=
  fun hmem => hwf.not_registered hc hp (hwf.registered _ hmem)

/-- Moving a call on leaves the registry well formed, if a registered one stays so. -/
theorem RegistryWf.setCreate {st : State} (hwf : RegistryWf st) {i : ℕ} {call : CreateCall}
    (hc : st.creates[i]? = some call) {pc : CreatePc}
    (hreg : call.Registered → CreateCall.Registered { call with pc := pc }) :
    RegistryWf (st.setCreate i call pc) := by
  obtain ⟨hi, -⟩ := List.getElem?_eq_some_iff.mp hc
  refine ⟨?_, hwf.sessions, fun id hid => ?_⟩
  · have hids : (st.creates.set i { call with pc := pc }).map CreateCall.id =
        st.creates.map CreateCall.id := map_set_of_eq hc rfl
    simpa only [State.setCreate, hids] using hwf.calls
  · obtain ⟨j, other, ho, hoid, hor⟩ := hwf.registered id hid
    by_cases hij : i = j
    · subst hij
      obtain rfl : call = other := Option.some.inj (hc.symm.trans ho)
      exact ⟨i, { call with pc := pc }, by simp [State.setCreate, hi], hoid, hreg hor⟩
    · exact ⟨j, other, by simp [State.setCreate, List.getElem?_set_ne hij, ho], hoid, hor⟩

/-- Steps that leave calls and keys alone keep the registry well formed. -/
theorem RegistryWf.frame {st st' : State} (hwf : RegistryWf st) (hc : st'.creates = st.creates)
    (hs : st'.sessions = st.sessions) : RegistryWf st' :=
  ⟨hc ▸ hwf.calls, hs ▸ hwf.sessions, by rw [hc, hs]; exact hwf.registered⟩

/-- Giving a port back keeps the calls. -/
@[simp] theorem unwindPort_creates (st : State) (port : Option Port) :
    (unwindPort st port).creates = st.creates := by cases port <;> rfl

/-- Giving a port back keeps the sessions. -/
@[simp] theorem unwindPort_sessions (st : State) (port : Option Port) :
    (unwindPort st port).sessions = st.sessions := by cases port <;> rfl

/-- `remove_session` on a key: what it does to the parts that ports live in. -/
theorem removeSession_of_mem {st : State} {id : SessionId} (h : id ∈ st.sessions) :
    (removeSession st id).1.availableWebrtcPorts =
        st.availableWebrtcPorts ++ (st.object id).janusPort.toList ∧
      (removeSession st id).1.sessions = st.sessions.erase id ∧
      (removeSession st id).1.object = (setRunning st id false).object ∧
      (removeSession st id).1.creates = st.creates := by
  simp only [removeSession, if_pos h]
  split <;> exact ⟨rfl, rfl, rfl, rfl⟩

/-- Removing an unknown session changes nothing. -/
theorem removeSession_of_not_mem {st : State} {id : SessionId} (h : id ∉ st.sessions) :
    (removeSession st id).1 = st := by simp only [removeSession, if_neg h]

/-- A removal keeps the registry well formed. -/
theorem RegistryWf.removeSession {st : State} (hwf : RegistryWf st) (id : SessionId) :
    RegistryWf (removeSession st id).1 := by
  by_cases h : id ∈ st.sessions
  · obtain ⟨-, hs, -, hc⟩ := removeSession_of_mem h
    refine ⟨hc ▸ hwf.calls, hs ▸ hwf.sessions.erase id, fun a ha => ?_⟩
    rw [hc]
    exact hwf.registered a (List.mem_of_mem_erase (hs ▸ ha))
  · rw [removeSession_of_not_mem h]
    exact hwf

/-- Every step keeps the registry well formed, whatever the ports do. -/
theorem registryWf_step {st st' : State} {e : Event} (hwf : RegistryWf st)
    (h : step st e = some st') : RegistryWf st' := by
  cases step_moves h with
  | beginCreate hid sessionType =>
    refine ⟨?_, hwf.sessions, fun id hmem => ?_⟩
    · simpa [beginCreate, List.nodup_append, hwf.calls] using hid
    · obtain ⟨i, call, hc, hrest⟩ := hwf.registered id hmem
      have hlt := (List.getElem?_eq_some_iff.mp hc).1
      exact ⟨i, call, by simp [beginCreate, List.getElem?_append_left hlt, hc], hrest⟩
  | parsed hc hp result => exact hwf.setCreate hc (by simp [CreateCall.Registered, hp])
  | allocate hc hp =>
    unfold allocate
    split
    · exact hwf.setCreate hc (by simp [CreateCall.Registered, hp])
    · rename_i port rest _
      have hwf' : RegistryWf { st with availableWebrtcPorts := rest } := hwf.frame rfl rfl
      exact hwf'.setCreate hc (by simp [CreateCall.Registered, hp])
  | sessionCreated hc hp result => exact hwf.setCreate hc (by simp [CreateCall.Registered, hp])
  | @returnPort i call port error hc hp =>
    have hwf' : RegistryWf (unwindPort st (some port)) := hwf.frame rfl rfl
    exact hwf'.setCreate hc (by simp [CreateCall.Registered, hp])
  | @register i call port hc hp =>
    have hfresh := hwf.fresh hc hp
    have hi := (List.getElem?_eq_some_iff.mp hc).1
    have hmoved : RegistryWf (st.setCreate i call (.unwinding port .created)) :=
      hwf.setCreate hc (by simp [CreateCall.Registered, hp])
    refine ⟨hmoved.calls, ?_, fun id hmem => ?_⟩
    · simpa [register, State.setCreate, hfresh, List.nodup_append] using
        ⟨hwf.sessions, fun a ha => fun hac => hfresh (hac ▸ ha)⟩
    · simp only [register, State.setCreate, if_neg hfresh, List.mem_append,
        List.mem_singleton] at hmem
      rcases hmem with hold | rfl
      · exact hmoved.registered id hold
      · refine ⟨i, { call with pc := .unwinding port .created }, ?_, rfl, .inl ⟨port, rfl⟩⟩
        simp [State.setCreate, register, State.setObject, hi]
  | @unwind i call port outcome hc hp =>
    refine (hwf.frame (unwindPort_creates st port) (unwindPort_sessions st port)).setCreate
      (by simpa using hc) ?_
    simp only [CreateCall.Registered, hp]
    rintro (⟨q, hq⟩ | hq)
    · cases hq
      exact .inr rfl
    · cases hq
  | removeOwn hc hp => exact (hwf.removeSession _).frame rfl rfl
  | remove id => exact hwf.removeSession id
  | _ => exact hwf.frame rfl rfl

/-- A fresh registry is well formed. -/
theorem registryWf_initial (ports : List Port) (pool : IoContextPool) :
    RegistryWf (initial ports pool) :=
  ⟨List.nodup_nil, List.nodup_nil, fun _ h => absurd h List.not_mem_nil⟩

end HermesFlow.ActiveSessions
