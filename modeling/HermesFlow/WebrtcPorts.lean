import HermesFlow.PortRange
import HermesFlow.SessionRegistry
import Mathlib.Tactic.Abel

/-!
# Conservation of WebRTC ports

A port is in the free list, in a registered session, or with the
`create_session` call that allocated it. Every critical section but one moves
ports between these places: the destructor of `port_guard`, which nothing
disarms, adds a port that the call may have handed over already.
-/

namespace HermesFlow.ActiveSessions

open EventRun Custody

/-- The ports of an optional port. -/
def holding (port : Option Port) : Multiset Port := ↑port.toList

/-- The port a `create_session` call has allocated and not handed over: neither
to `sessions_` nor, on an error value, back to the free list. -/
def inFlight (call : CreateCall) : Multiset Port :=
  match call.pc with
  | .creating port | .registering port | .unwinding port .threw => holding port
  | .returningPort port _ => holding (some port)
  | _ => 0

/-- All ports of the server, wherever they are. -/
def custody (st : State) : Multiset Port :=
  ↑st.availableWebrtcPorts + held (fun id => holding (st.object id).janusPort) st.sessions +
    held inFlight st.creates

/-- The port range is conserved: every port is in exactly one place. -/
structure PortsConserved (range : List Port) (st : State) : Prop where
  /-- Free, registered and in-flight ports are the range, each port once. -/
  total : custody st = ↑range
  /-- Two registered sessions never hold one port. -/
  exclusive : ∀ a ∈ st.sessions, ∀ b ∈ st.sessions, a ≠ b → ∀ port,
    (st.object a).janusPort = some port → (st.object b).janusPort ≠ some port
  /-- The free list never grows beyond the range. -/
  bounded : st.availableWebrtcPorts.length ≤ range.length

/-- Moving a call exchanges the port it has in flight. -/
theorem custody_setCreate {st : State} {i : ℕ} {call : CreateCall}
    (hc : st.creates[i]? = some call) (pc : CreatePc) :
    custody (st.setCreate i call pc) + inFlight call =
      custody st + inFlight { call with pc := pc } := by
  have hset := @held_set _ _ inFlight _ _ _ hc { call with pc := pc }
  simp only [custody, State.setCreate]
  rw [add_assoc, hset]
  abel

/-- An object that keeps its port leaves every port where it is. -/
theorem custody_setObject {st : State} {id : SessionId} {session : Session}
    (h : session.janusPort = (st.object id).janusPort) :
    custody (st.setObject id session) = custody st := by
  simp only [custody, State.setObject]
  congr 2
  apply held_congr
  intro a _
  by_cases ha : a = id
  · subst ha
    rw [Function.update_self, h]
  · rw [Function.update_of_ne ha]

/-- The connect calls and the coroutines hold no port. -/
theorem custody_congr {st st' : State}
    (hports : st'.availableWebrtcPorts = st.availableWebrtcPorts)
    (hsessions : st'.sessions = st.sessions) (hobject : st'.object = st.object)
    (hcreates : st'.creates = st.creates) : custody st' = custody st := by
  simp only [custody, hports, hsessions, hobject, hcreates]

/-- The guard's destructor adds its port to the free list. -/
theorem custody_unwindPort (st : State) (port : Option Port) :
    custody (unwindPort st port) = custody st + holding port := by
  cases port with
  | none => simp [unwindPort, holding]
  | some p =>
    simp only [custody, unwindPort, holding, Option.toList_some, ← Multiset.coe_add]
    abel

/-- Registering a new key hands the port from the call to the session. -/
theorem custody_register {st : State} {call : CreateCall} (port : Option Port)
    (hfresh : call.id ∉ st.sessions) :
    custody (register st call port) = custody st + holding port := by
  have hold : held (fun id => holding ((register st call port).object id).janusPort) st.sessions =
      held (fun id => holding (st.object id).janusPort) st.sessions := by
    apply held_congr
    intro a ha
    have hne : a ≠ call.id := fun h => hfresh (h ▸ ha)
    simp only [register, State.setObject, Function.update_of_ne hne]
  have hsessions : (register st call port).sessions = st.sessions ++ [call.id] := if_neg hfresh
  have hnew : holding ((register st call port).object call.id).janusPort = holding port := by
    simp only [register, State.setObject, Function.update_self]
  simp only [custody, hsessions, held_append, held_cons, held_nil, add_zero, hold, hnew]
  simp only [register, State.setObject]
  abel

/-- `remove_session` puts the session's port back and drops the key. -/
theorem custody_removeSession (st : State) (id : SessionId) :
    custody (removeSession st id).1 = custody st := by
  by_cases h : id ∈ st.sessions
  · obtain ⟨hports, hsessions, hobject, hcreates⟩ := removeSession_of_mem h
    have hsame : custody (setRunning st id false) = custody st := custody_setObject rfl
    rw [← hsame]
    have herase := @held_erase _ _
      (fun a => holding ((setRunning st id false).object a).janusPort) _ _ _ h
    have hself : holding ((setRunning st id false).object id).janusPort =
        ↑(st.object id).janusPort.toList := by
      simp only [setRunning, State.setObject, Function.update_self, holding]
    simp only [custody, hports, hsessions, hobject, hcreates, ← Multiset.coe_add]
    rw [show (setRunning st id false).sessions = st.sessions from rfl, ← herase, hself]
    simp only [setRunning, State.setObject]
    abel
  · rw [removeSession_of_not_mem h]

/-- The destructor of `port_guard` runs on a port its call still owns, that is
after an exception, or without a port. -/
def CreatePc.guardOwnsPort : CreatePc → Bool
  | .unwinding (some _) .threw => true
  | .unwinding (some _) _ => false
  | _ => true

/-- The guard of the conserving runs: it speaks of the destructor only. -/
def GuardOwnsPort (st : State) : Event → Prop
  | .unwind i => ∀ call ∈ st.creates[i]?, call.pc.guardOwnsPort = true
  | _ => True

instance (st : State) : ∀ e, Decidable (GuardOwnsPort st e)
  | .unwind i => inferInstanceAs (Decidable (∀ call ∈ st.creates[i]?, call.pc.guardOwnsPort = true))
  | .beginCreate _ _ | .parsed _ _ | .allocate _ | .sessionCreated _ _ | .returnPort _
  | .register _ | .beginConnect _ | .lookup _ | .testRunning _ | .attach _ | .insert _
  | .spawn _ | .start _ | .finish _ | .removeOwn _ | .remove _ | .accept =>
    inferInstanceAs (Decidable True)

/-- A call that moves on with the port it has in flight moves no port. -/
theorem custody_setCreate_of_eq {st : State} {i : ℕ} {call : CreateCall}
    (hc : st.creates[i]? = some call) {pc : CreatePc}
    (h : inFlight { call with pc := pc } = inFlight call) :
    custody (st.setCreate i call pc) = custody st := by
  have hmove := custody_setCreate hc pc
  rw [h] at hmove
  exact add_right_cancel hmove

/-- A call that hands over the port it has in flight moves no port. -/
theorem custody_setCreate_of_add {st st' : State} {i : ℕ} {call : CreateCall}
    (hc : st'.creates[i]? = some call) {pc : CreatePc} (hnone : inFlight { call with pc := pc } = 0)
    (hgain : custody st' = custody st + inFlight call) :
    custody (st'.setCreate i call pc) = custody st := by
  have hmove := custody_setCreate hc pc
  rw [hgain, hnone, add_zero] at hmove
  exact add_right_cancel hmove

/-- The allocation hands the first free port to the call. -/
theorem custody_allocate {st : State} {i : ℕ} {call : CreateCall}
    (hc : st.creates[i]? = some call) (hnone : inFlight call = 0) :
    custody (allocate st i call) = custody st := by
  unfold allocate
  split
  · exact custody_setCreate_of_eq hc hnone.symm
  · rename_i port rest hports
    have hmove := @custody_setCreate { st with availableWebrtcPorts := rest } i call hc
      (.creating (some port))
    rw [hnone, add_zero] at hmove
    rw [hmove]
    simp only [custody, hports, inFlight, holding, Option.toList_some, ← Multiset.cons_coe,
      ← Multiset.singleton_add]
    abel

/-- The destructor conserves all ports unless the call has handed its port over. -/
theorem custody_unwind {st : State} {i : ℕ} {call : CreateCall} {port : Option Port}
    {outcome : CreateOutcome} (hc : st.creates[i]? = some call)
    (hp : call.pc = .unwinding port outcome) :
    (call.pc.guardOwnsPort = true ∧
      custody ((unwindPort st port).setCreate i call (.done outcome)) = custody st) ∨
    (¬call.pc.guardOwnsPort = true ∧ ∃ p,
      custody ((unwindPort st port).setCreate i call (.done outcome)) = custody st + {p}) := by
  have hc' : (unwindPort st port).creates[i]? = some call := by simpa using hc
  have hgain (hnone : inFlight call = 0) :
      custody ((unwindPort st port).setCreate i call (.done outcome)) =
        custody st + holding port := by
    have hkeep : inFlight { call with pc := .done outcome } = inFlight call := hnone.symm
    rw [custody_setCreate_of_eq hc' hkeep, custody_unwindPort]
  rw [hp]
  cases port with
  | none =>
    have hnone : inFlight call = 0 := by cases outcome <;> simp [inFlight, hp, holding]
    exact .inl ⟨rfl, (hgain hnone).trans (add_zero _)⟩
  | some p =>
    cases outcome with
    | threw =>
      refine .inl ⟨rfl, custody_setCreate_of_add hc' rfl ?_⟩
      rw [custody_unwindPort]
      simp only [inFlight, hp]
    | created => exact .inr ⟨nofun, p, hgain (by simp only [inFlight, hp])⟩
    | failed error => exact .inr ⟨nofun, p, hgain (by simp only [inFlight, hp])⟩

/-- A step whose guard owns its port conserves all ports; a destructor that
runs on a port the call has handed over makes a second one of it. -/
theorem custody_step {st st' : State} {e : Event} (hwf : RegistryWf st)
    (h : step st e = some st') :
    (GuardOwnsPort st e ∧ custody st' = custody st) ∨
      (¬GuardOwnsPort st e ∧ ∃ port, custody st' = custody st + {port}) := by
  cases step_moves h with
  | beginCreate hid sessionType =>
    refine .inl ⟨trivial, ?_⟩
    simp [custody, beginCreate, inFlight]
  | @parsed i call hc hp result =>
    refine .inl ⟨trivial, custody_setCreate_of_eq hc ?_⟩
    rw [show inFlight call = 0 by simp only [inFlight, hp]]
    cases result with
    | ok => by_cases htype : call.sessionType = .webRtc <;> simp [afterParse, inFlight, htype, holding]
    | error error => simp [afterParse, inFlight]
    | threw => simp [afterParse, inFlight]
  | @allocate i call hc hp =>
    exact .inl ⟨trivial, custody_allocate hc (by simp only [inFlight, hp])⟩
  | @sessionCreated i call port hc hp result =>
    refine .inl ⟨trivial, custody_setCreate_of_eq hc ?_⟩
    rw [show inFlight call = holding port by simp only [inFlight, hp]]
    cases result with
    | ok => simp only [afterSessionCreate, inFlight]
    | error error => cases port <;> simp [afterSessionCreate, inFlight, holding]
    | threw => simp only [afterSessionCreate, inFlight]
  | @returnPort i call port error hc hp =>
    have hc' : (unwindPort st (some port)).creates[i]? = some call := hc
    refine .inl ⟨trivial, custody_setCreate_of_add hc' rfl ?_⟩
    rw [custody_unwindPort]
    simp only [inFlight, hp]
  | @register i call port hc hp =>
    have hc' : (register st call port).creates[i]? = some call := hc
    refine .inl ⟨trivial, custody_setCreate_of_add hc' rfl ?_⟩
    rw [custody_register port (hwf.fresh hc hp)]
    simp only [inFlight, hp]
  | @unwind i call port outcome hc hp =>
    have howns : GuardOwnsPort st (.unwind i) ↔ call.pc.guardOwnsPort = true := by
      simp [GuardOwnsPort, hc]
    rw [howns]
    exact custody_unwind hc hp
  | beginConnect id => exact .inl ⟨trivial, rfl⟩
  | found | notFound | refused | passed | insert | spawn => exact .inl ⟨trivial, rfl⟩
  | @attach j call hc hp =>
    have hattached : custody (attachObserver st call.id j) = custody st := custody_setObject rfl
    exact .inl ⟨trivial, (custody_congr rfl rfl rfl rfl).trans hattached⟩
  | @start k co hc hp =>
    have hstarted : custody (setRunning st co.id true) = custody st := custody_setObject rfl
    exact .inl ⟨trivial, (custody_congr rfl rfl rfl rfl).trans hstarted⟩
  | @finish k co hc hp =>
    have hfinished : custody (setRunning st co.id false) = custody st := custody_setObject rfl
    exact .inl ⟨trivial, (custody_congr rfl rfl rfl rfl).trans hfinished⟩
  | removeOwn hc hp => exact .inl ⟨trivial, custody_removeSession st _⟩
  | remove id => exact .inl ⟨trivial, custody_removeSession st id⟩
  | accept => exact .inl ⟨trivial, rfl⟩

/-- A port range without repetitions is conserved as soon as its total is. -/
theorem portsConserved_of_total {range : List Port} {st : State} (hnodup : range.Nodup)
    (htotal : custody st = ↑range) : PortsConserved range st := by
  refine ⟨htotal, fun a ha b hb hab port hpa hpb => ?_, ?_⟩
  · have hall : (custody st).Nodup := htotal ▸ Multiset.coe_nodup.mpr hnodup
    have hheld := (Multiset.nodup_add.mp (Multiset.nodup_add.mp hall).1).2.1
    refine held_exclusive hheld ha hb hab (t := port) ?_ ?_ <;> simp [holding, hpa, hpb]
  · have hcard := congrArg Multiset.card htotal
    simp only [custody, Multiset.card_add, Multiset.coe_card] at hcard
    omega

/-- At the start the ports are all in the list. -/
theorem custody_initial (ports : List Port) (pool : IoContextPool) :
    custody (initial ports pool) = ↑ports := by simp [custody, initial]

/-- A step from a state that conserves the range conserves it exactly when the
destructor does not run on a port that its call has handed over. -/
theorem portsConserved_step_iff {range : List Port} {st st' : State} {e : Event}
    (hnodup : range.Nodup) (hwf : RegistryWf st) (hcons : PortsConserved range st)
    (h : step st e = some st') : PortsConserved range st' ↔ GuardOwnsPort st e := by
  constructor
  · intro hcons'
    by_contra hbad
    obtain ⟨hok, -⟩ | ⟨-, port, hport⟩ := custody_step hwf h
    · exact hbad hok
    · rw [hcons.total, hcons'.total] at hport
      have hcard := congrArg Multiset.card hport
      simp only [Multiset.card_add, Multiset.card_singleton] at hcard
      omega
  · intro hok
    obtain ⟨-, hsame⟩ | ⟨hbad, -⟩ := custody_step hwf h
    · exact portsConserved_of_total hnodup (hsame.trans hcons.total)
    · exact absurd hok hbad

/-- The ports are conserved in all states of a run if and only if every
destructor of `port_guard` in it runs on a port its call still owns. -/
theorem ports_conserved_iff {fuel : ℕ} {portStart portEnd : Port} {range : List Port}
    (hfill : fillWebrtcPorts fuel portStart portEnd = some range) (pool : IoContextPool)
    {st : State} {es : List Event} (hrun : runEvents step (initial range pool) es = some st) :
    (∀ ds m, ds <+: es → runEvents step (initial range pool) ds = some m →
      PortsConserved range m) ↔ Meets step GuardOwnsPort (initial range pool) es := by
  have hnodup := fillWebrtcPorts_nodup hfill
  refine prefixes_iff_meets (I := RegistryWf) ?_ ?_ (registryWf_initial range pool) ?_ hrun
  · exact fun s e s' hwf h => registryWf_step hwf h
  · exact fun s e s' hwf hcons h => portsConserved_step_iff hnodup hwf hcons h
  · exact portsConserved_of_total hnodup (custody_initial range pool)

/-- The events of a call whose `Session::create` throws. -/
def throwingCreate : List Event :=
  [.beginCreate 7 .webRtc, .parsed 0 .ok, .allocate 0, .sessionCreated 0 .threw, .unwind 0]

/-- When `Session::create` throws, the destructor puts the port back and it is
in one place all along. -/
theorem ports_conserved_iff_throw :
    (runEvents step (initial [10000, 10001] ⟨2, 0⟩) throwingCreate).isSome ∧
      ∀ ds m, ds <+: throwingCreate →
        runEvents step (initial [10000, 10001] ⟨2, 0⟩) ds = some m →
        PortsConserved [10000, 10001] m := by
  have hfill : fillWebrtcPorts 3 10000 10001 = some [10000, 10001] := by decide
  have hmeets : Meets step GuardOwnsPort (initial [10000, 10001] ⟨2, 0⟩) throwingCreate := by
    decide
  exact ⟨rfl, (ports_conserved_iff hfill ⟨2, 0⟩ rfl).mpr hmeets⟩

/-- A created session and the free list hold the same port after the destructor. -/
theorem port_duplicated_after_create :
    ∃ m, runEvents step (initial [10000] ⟨1, 0⟩) [.beginCreate 7 .webRtc, .parsed 0 .ok,
        .allocate 0, .sessionCreated 0 .ok, .register 0, .unwind 0] = some m ∧
      fillWebrtcPorts 2 10000 10000 = some [10000] ∧ ¬PortsConserved [10000] m ∧
      m.availableWebrtcPorts = [10000] ∧ m.sessions = [7] ∧ (m.object 7).janusPort = some 10000 := by
  refine ⟨_, rfl, by decide, fun hcons => ?_, rfl, rfl, rfl⟩
  have hcard := congrArg Multiset.card hcons.total
  revert hcard
  decide

end HermesFlow.ActiveSessions
