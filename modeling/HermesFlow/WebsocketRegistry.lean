import HermesFlow.SingleRunner

/-!
# Entries of the WebSocket registry

A connect call looks its session up in one critical section and makes its entry
of `websocket_sessions_` in another. If the session is removed between the two,
the entry outlives it: `remove_session` returns before it looks for an entry
when there is no session. Entries made while the session is registered leave
with it.
-/

namespace HermesFlow.ActiveSessions

open EventRun

/-- The call has found its session and has not returned. -/
def ConnectPc.entered : ConnectPc → Bool
  | .testRunning | .attach | .insert | .spawn => true
  | _ => false

/-- The call has returned. -/
def ConnectPc.returned : ConnectPc → Bool
  | .done _ => true
  | _ => false

/-- Every key of `websocket_sessions_` is a key of `sessions_`. -/
def KeysRegistered (st : State) : Prop :=
  ∀ id, st.websocketSessions id ≠ none → id ∈ st.sessions

/-- The same, up to connect calls in progress. -/
def KeysConsistent (st : State) : Prop :=
  ∀ id, st.websocketSessions id ≠ none →
    id ∈ st.sessions ∨ ∃ call ∈ st.connects, call.id = id ∧ call.pc.returned = false

/-- A step that removes a session erases its entry and closes the WebSocket. -/
def RemovedClosed (st : State) (e : Event) : Prop :=
  ∀ st', step st e = some st' → ∀ id ∈ st.sessions, id ∉ st'.sessions →
    st'.websocketSessions id = none ∧
      ∀ websocket, st.websocketSessions id = some websocket → websocket ∈ st'.closed

/-- An entry is made while its session is registered. -/
def InsertsRegistered (st : State) : Event → Prop
  | .insert j => ∀ call ∈ st.connects[j]?, call.id ∈ st.sessions
  | _ => True

instance (st : State) : ∀ e, Decidable (InsertsRegistered st e)
  | .insert j => inferInstanceAs (Decidable (∀ call ∈ st.connects[j]?, call.id ∈ st.sessions))
  | .beginCreate _ _ | .parsed _ _ | .allocate _ | .sessionCreated _ _ | .returnPort _
  | .register _ | .unwind _ | .beginConnect _ | .lookup _ | .testRunning _ | .attach _
  | .spawn _ | .start _ | .finish _ | .removeOwn _ | .remove _ | .accept =>
    inferInstanceAs (Decidable True)

/-- What a step does to the two maps. -/
inductive RegistryMoves (st : State) (e : Event) (st' : State) : Prop where
  | same (hs : st'.sessions = st.sessions) (hw : st'.websocketSessions = st.websocketSessions)
  | registered {i : ℕ} {call : CreateCall} {port : Option Port} (hc : st.creates[i]? = some call)
      (hp : call.pc = .registering port)
      (hs : st'.sessions = if call.id ∈ st.sessions then st.sessions else st.sessions ++ [call.id])
      (hw : st'.websocketSessions = st.websocketSessions)
  | inserted {j : ℕ} {call : ConnectCall} (he : e = .insert j) (hc : st.connects[j]? = some call)
      (hp : call.pc = .insert) (hs : st'.sessions = st.sessions)
      (hw : st'.websocketSessions = Function.update st.websocketSessions call.id (some j))
  | removed (id : SessionId) (hs : st'.sessions = (removeSession st id).1.sessions)
      (hw : st'.websocketSessions = (removeSession st id).1.websocketSessions)
      (hcl : st'.closed = (removeSession st id).1.closed)

/-- Every step moves the registry as described. -/
theorem registry_moves {st st' : State} {e : Event} (h : step st e = some st') :
    RegistryMoves st e st' := by
  cases step_moves h with
  | allocate hc hp =>
    unfold allocate
    split <;> exact .same rfl rfl
  | @unwind i call port outcome hc hp => cases port <;> exact .same rfl rfl
  | register hc hp => exact .registered hc hp rfl rfl
  | insert hc hp => exact .inserted rfl hc hp rfl rfl
  | removeOwn hc hp => exact .removed _ rfl rfl rfl
  | remove id => exact .removed id rfl rfl rfl
  | _ => exact .same rfl rfl

/-- `remove_session` on a key, as far as the WebSockets are concerned. -/
theorem removeSession_websockets {st : State} {id : SessionId} (h : id ∈ st.sessions) :
    (removeSession st id).1.websocketSessions = Function.update st.websocketSessions id none ∧
      (removeSession st id).1.closed = st.closed ++ (st.websocketSessions id).toList := by
  simp only [removeSession, if_pos h]
  split
  · rename_i websocket hws
    rw [hws]
    exact ⟨rfl, rfl⟩
  · rename_i hws
    rw [hws]
    exact ⟨(Function.update_eq_self_iff.mpr hws.symm).symm, (List.append_nil _).symm⟩

/-- Sessions that were found had been created. -/
structure Entered (st : State) : Prop where
  /-- The registry is well formed. -/
  wf : RegistryWf st
  /-- A call that has entered found a created session. -/
  created : ∀ call ∈ st.connects, call.pc.entered = true → Created st call.id

/-- Nobody has entered at first. -/
theorem entered_initial (ports : List Port) (pool : IoContextPool) :
    Entered (initial ports pool) where
  wf := registryWf_initial ports pool
  created := fun _ h => absurd h List.not_mem_nil

/-- A call enters by the lookup of a registered session. -/
theorem Entered.setConnect {st : State} (h : Entered st) {j : ℕ} {call : ConnectCall} {pc : ConnectPc}
    (hpc : pc.entered = true → Created st call.id) (other : ConnectCall)
    (ho : other ∈ (st.setConnect j call pc).connects) (he : other.pc.entered = true) :
    Created st other.id := by
  obtain ⟨i, hi⟩ := List.mem_iff_getElem?.mp ho
  rcases getElem?_setConnect hi with ⟨-, rfl⟩ | ⟨-, hold⟩
  · exact hpc he
  · exact h.created other (List.mem_of_getElem? hold) he

/-- One step keeps what is known of the calls. -/
theorem entered_step {st st' : State} {e : Event} (h : Entered st) (hs : step st e = some st') :
    Entered st' := by
  refine ⟨registryWf_step h.wf hs, fun other ho he => created_step ?_ hs⟩
  have hcall : ∀ {j : ℕ} {call : ConnectCall}, st.connects[j]? = some call →
      call.pc.entered = true → Created st call.id := fun hc he =>
    h.created _ (List.mem_of_getElem? hc) he
  cases step_moves hs with
  | beginConnect id =>
    rcases List.mem_append.mp ho with hold | hnew
    · exact h.created other hold he
    · rw [List.mem_singleton.mp hnew] at he
      cases he
  | @found j call hc hp hreg =>
    exact h.setConnect (fun _ => h.wf.registered call.id hreg) other ho he
  | notFound hc hp hreg => exact h.setConnect (fun hpc => by cases hpc) other ho he
  | refused hc hp hr => exact h.setConnect (fun hpc => by cases hpc) other ho he
  | passed hc hp hr =>
    exact h.setConnect (fun _ => hcall hc (by rw [hp]; rfl)) other ho he
  | @attach j call hc hp =>
    exact h.setConnect (fun _ => hcall hc (by rw [hp]; rfl)) other ho he
  | @insert j call hc hp =>
    exact h.setConnect (fun _ => hcall hc (by rw [hp]; rfl)) other ho he
  | spawn hc hp => exact h.setConnect (fun hpc => by cases hpc) other ho he
  | removeOwn hc hp => exact h.created other (removeSession_connects st _ ▸ ho) he
  | remove id => exact h.created other (removeSession_connects st id ▸ ho) he
  | allocate hc hp =>
    unfold allocate at ho
    split at ho <;> exact h.created other ho he
  | @unwind i call port outcome hc hp => cases port <;> exact h.created other ho he
  | _ => exact h.created other ho he

/-- A session leaves `sessions_` only with its entry. -/
theorem removedClosed_of_wf {st : State} (hwf : RegistryWf st) (e : Event) : RemovedClosed st e := by
  intro st' hs id hid hgone
  cases registry_moves hs with
  | same hsessions _ => exact absurd (hsessions ▸ hid) hgone
  | @registered i call port hc hp hsessions _ =>
    rw [if_neg (hwf.fresh hc hp)] at hsessions
    exact absurd (hsessions ▸ List.mem_append_left _ hid) hgone
  | inserted _ _ _ hsessions _ => exact absurd (hsessions ▸ hid) hgone
  | removed removed hsessions hentry hclosed =>
    have hsame : id = removed := by
      by_contra hne
      apply hgone
      rw [hsessions]
      by_cases hmem : removed ∈ st.sessions
      · rw [(removeSession_of_mem hmem).2.1]
        exact (List.mem_erase_of_ne hne).mpr hid
      · rw [removeSession_of_not_mem hmem]
        exact hid
    subst hsame
    obtain ⟨hws, hcl⟩ := removeSession_websockets hid
    refine ⟨by rw [hentry, hws, Function.update_self], fun websocket hwebsocket => ?_⟩
    rw [hclosed, hcl, hwebsocket]
    exact List.mem_append_right _ (List.mem_singleton.mpr rfl)

/-- Entries made while their session is registered have a session. -/
theorem keysRegistered_step {st st' : State} {e : Event} (h : KeysRegistered st)
    (hok : InsertsRegistered st e) (hs : step st e = some st') : KeysRegistered st' := by
  intro id hid
  cases registry_moves hs with
  | same hsessions hentry =>
    rw [hsessions]
    exact h id (hentry ▸ hid)
  | registered hc hp hsessions hentry =>
    rw [hsessions]
    have hold := h id (hentry ▸ hid)
    split
    · exact hold
    · exact List.mem_append_left _ hold
  | @inserted j call he hc hp hsessions hentry =>
    subst he
    rw [hsessions]
    by_cases hsame : id = call.id
    · rw [hsame]
      exact hok call hc
    · rw [hentry, Function.update_of_ne hsame] at hid
      exact h id hid
  | removed removed hsessions hentry _ =>
    by_cases hmem : removed ∈ st.sessions
    · rw [hentry, (removeSession_websockets hmem).1] at hid
      have hne : id ≠ removed := by
        rintro rfl
        exact hid (Function.update_self _ _ _)
      rw [Function.update_of_ne hne] at hid
      rw [hsessions, (removeSession_of_mem hmem).2.1]
      exact (List.mem_erase_of_ne hne).mpr (h id hid)
    · rw [removeSession_of_not_mem hmem] at hsessions hentry
      rw [hsessions]
      exact h id (hentry ▸ hid)

/-- The session was created and is gone, and it has an entry. -/
structure Orphan (st : State) (id : SessionId) : Prop where
  /-- The session was created. -/
  created : Created st id
  /-- It is gone. -/
  gone : id ∉ st.sessions
  /-- It has an entry. -/
  entry : st.websocketSessions id ≠ none

/-- No step gets rid of an entry without a session. -/
theorem orphan_step {st st' : State} {e : Event} (hwf : RegistryWf st) {id : SessionId}
    (h : Orphan st id) (hs : step st e = some st') : Orphan st' id := by
  refine ⟨created_step h.created hs, ?_, ?_⟩
  · cases registry_moves hs with
    | same hsessions _ => exact hsessions ▸ h.gone
    | @registered i call port hc hp hsessions _ =>
      have hne : id ≠ call.id := by
        rintro rfl
        exact hwf.not_registered hc hp h.created
      rw [hsessions, if_neg (hwf.fresh hc hp), List.mem_append, List.mem_singleton]
      exact fun hmem => hmem.elim h.gone hne
    | inserted _ _ _ hsessions _ => exact hsessions ▸ h.gone
    | removed removed hsessions _ _ =>
      rw [hsessions]
      by_cases hmem : removed ∈ st.sessions
      · rw [(removeSession_of_mem hmem).2.1]
        exact fun hid => h.gone (List.mem_of_mem_erase hid)
      · rw [removeSession_of_not_mem hmem]
        exact h.gone
  · cases registry_moves hs with
    | same _ hentry => exact hentry ▸ h.entry
    | registered _ _ _ hentry => exact hentry ▸ h.entry
    | @inserted j call _ _ _ _ hentry =>
      rw [hentry]
      by_cases hsame : id = call.id
      · rw [hsame, Function.update_self]
        exact Option.some_ne_none j
      · rw [Function.update_of_ne hsame]
        exact h.entry
    | removed removed _ hentry _ =>
      rw [hentry]
      by_cases hmem : removed ∈ st.sessions
      · have hne : id ≠ removed := fun hid => h.gone (hid ▸ hmem)
        rw [(removeSession_websockets hmem).1, Function.update_of_ne hne]
        exact h.entry
      · rw [removeSession_of_not_mem hmem]
        exact h.entry

/-- An entry made for a session that is not registered has no session. -/
theorem orphan_of_not_insertsRegistered {st st' : State} {e : Event} (h : Entered st)
    (hbad : ¬ InsertsRegistered st e) (hs : step st e = some st') : ∃ id, Orphan st' id := by
  cases e with
  | insert j =>
    cases step_moves hs with
    | @insert _ call hc hp =>
      have hgone : call.id ∉ st.sessions := fun hreg =>
        hbad fun other ho => Option.some.inj (hc.symm.trans ho) ▸ hreg
      have hcreated := h.created call (List.mem_of_getElem? hc) (by rw [hp]; rfl)
      refine ⟨call.id, created_step hcreated hs, hgone, ?_⟩
      simp [insertWebsocket, State.setConnect]
  | _ => exact absurd trivial hbad

/-- In every run, what is removed is erased and closed. If every entry is made
while its session is registered, no state reached has an entry without a
session, not even for a call in progress. If one is not, some entry has no
session from then on, whatever is called later; so a run that ends with every
connect call returned and the maps consistent has made every entry in time. -/
theorem websocket_registry {ports : List Port} {pool : IoContextPool} {es : List Event} {t : State}
    (hrun : runEvents step (initial ports pool) es = some t) :
    Meets step RemovedClosed (initial ports pool) es ∧
      (Meets step InsertsRegistered (initial ports pool) es →
        ∀ ds m, ds <+: es → runEvents step (initial ports pool) ds = some m → KeysRegistered m) ∧
      ((∀ call ∈ t.connects, call.pc.returned = true) → KeysConsistent t →
        Meets step InsertsRegistered (initial ports pool) es) := by
  have hwf := registryWf_initial ports pool
  have hentered := entered_initial ports pool
  refine ⟨?_, fun hmeets ds m hprefix hm => ?_, fun hreturned hconsistent => ?_⟩
  · exact meets_of_invariant (fun _ _ _ h hs => registryWf_step h hs)
      (fun _ e h => removedClosed_of_wf h e) hwf es
  · obtain ⟨rest, rfl⟩ := hprefix
    have hempty : KeysRegistered (initial ports pool) := fun id hid => absurd rfl hid
    exact run_invariant (fun _ _ _ h hok hs => keysRegistered_step h hok hs) hempty
      (meets_append_iff.mp hmeets).1 hm
  · refine meets_of_not_bad (fun _ _ _ h hs => entered_step h hs)
      (fun _ _ _ h hbad hs => orphan_of_not_insertsRegistered h hbad hs)
      (fun _ _ _ h ⟨id, horphan⟩ hs => ⟨id, orphan_step h.wf horphan hs⟩) hentered hrun ?_
    rintro ⟨id, horphan⟩
    rcases hconsistent id horphan.entry with hreg | ⟨call, hcall, -, hpending⟩
    · exact horphan.gone hreg
    · rw [hreturned call hcall] at hpending
      cases hpending

/-- A session is connected, its coroutine ends and removes it. -/
def connectAndFinish : List Event :=
  [.beginCreate 7 .standard, .parsed 0 .ok, .sessionCreated 0 .ok, .register 0, .unwind 0,
    .beginConnect 7, .lookup 0, .testRunning 0, .attach 0, .insert 0, .spawn 0, .start 0, .finish 0,
    .removeOwn 0]

/-- After a connection that has finished every key is registered. -/
theorem websocket_registry_finished :
    ∃ st, runEvents step (initial [] ⟨2, 0⟩) connectAndFinish = some st ∧ KeysRegistered st := by
  have hmeets : Meets step InsertsRegistered (initial [] ⟨2, 0⟩) connectAndFinish := by decide
  have hrun : runEvents step (initial [] ⟨2, 0⟩) connectAndFinish = some _ := rfl
  exact ⟨_, hrun, (websocket_registry hrun).2.1 hmeets _ _ (List.prefix_refl _) hrun⟩

/-- The session is removed after `get` and before the entry is made. Every call
has returned and the coroutine has run its `remove_session`; the entry is left
without a session, and its WebSocket is open. -/
theorem websocket_registry_orphan :
    ∃ st, runEvents step (initial [] ⟨2, 0⟩) [.beginCreate 7 .standard, .parsed 0 .ok,
        .sessionCreated 0 .ok, .register 0, .unwind 0, .beginConnect 7, .lookup 0, .remove 7,
        .testRunning 0, .attach 0, .insert 0, .spawn 0, .start 0, .finish 0, .removeOwn 0] = some st ∧
      ¬ KeysConsistent st ∧ st.sessions = [] ∧ st.websocketSessions 7 = some 0 ∧ st.closed = [] := by
  refine ⟨_, rfl, fun h => ?_, rfl, rfl, rfl⟩
  have hentry := h 7 (by decide)
  exact absurd hentry (by decide)

end HermesFlow.ActiveSessions
