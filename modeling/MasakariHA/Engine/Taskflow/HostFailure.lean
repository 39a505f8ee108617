import MasakariHA.Engine.Taskflow.EvacuateInstances
import MasakariHA.Lib.PyString

/-!
# The host recovery flows

The flows of `drivers/taskflow/host_failure.py` with their default tasks, run by
`execute_host_failure`. A linear flow stops at its first failing task; the retry
controller runs the main flow with each reserved host in turn until one run succeeds, and
the last failure is raised.

* `prepareHaEnabledInstances`: the selection, made anew by every run of a main flow;
* `getAutoFlow`, `getRhFlow`, `recoverHost`;
* `recoverHost_lastSound`: when a call ends as `finished`, its last greenthreads confirmed
  exactly the instances whose lock phase returned;
* `recoverHost_finished_iff`: so the first selection was recovered exactly when the last
  selection still has every instance that the runs before it left behind.
-/

namespace MasakariHA.Engine

open Lib

/-- What a call of `execute_host_failure` meets: `strutils.bool_from_string`, the answers to its
disable and list calls by their number, and for each selection the greenthread of each position and
the state of a reserved host. -/
structure World where
  boolFromString : String → Bool
  disableService : Nat → Except NovaFault Unit
  getServers : Nat → Except NovaFault (List Server)
  nova : Nat → Nat → Nova
  reservedHost : Nat → Host → ReservedHost

section Flows

variable (conf : HostFailureConf) (world : World) (hostName : String)

/-- `DisableComputeServiceTask.execute`. -/
def disableComputeService : Prog Recovery Unit := do
  let r ← get
  set { r with disabled := r.disabled + 1 }
  MonadExcept.ofExcept (reply (world.disableService r.disabled))

/-- `bool_from_string(instance.metadata.get('HA_Enabled', False))`. -/
def isHaEnabled (boolFromString : String → Bool) (s : Server) : Bool :=
  match s.metadata.lookup "HA_Enabled" with
  | none => false
  | some v => boolFromString v

/-- The instances in error that the option leaves out. -/
def ignored (s : Server) : Bool := conf.ignoreInstancesInErrorState && s.vmState = "error"

/-- `_filter_instances`: the `HA_Enabled` instances, then the others if they are wanted. -/
def filterInstances (instanceList : List Server) : List Server :=
  let (haEnabled, nonHaEnabled) :=
    (instanceList.filter fun s => !ignored conf s).partition (isHaEnabled world.boolFromString)
  if conf.evacuateAllInstances then haEnabled ++ nonHaEnabled else haEnabled

/-- `PrepareHAEnabledInstancesTask.execute`. -/
def prepareHaEnabledInstances : Prog Recovery (List Server) := do
  let r ← get
  set { r with listed := r.listed + 1 }
  let instanceList ← MonadExcept.ofExcept (reply (world.getServers r.listed))
  let instanceList := filterInstances conf world instanceList
  modify fun r => { r with attempts := { selected := instanceList } :: r.attempts }
  if instanceList.isEmpty then
    throw (Exc.raised .skipHostRecoveryException s!"No instances to evacuate on host: {hostName}.")
  else pure instanceList

/-- The selection and evacuation of one run. -/
def prepareAndEvacuate (reservedHost : Option Host) : Prog Recovery Unit := do
  let instanceList ← prepareHaEnabledInstances conf world hostName
  let n := (← get).listed
  executeEvacuateInstances conf hostName (reservedHost.map (world.reservedHost n))
    (instanceList.zipIdx.map fun (s, k) => (s, world.nova n k))

def getAutoFlow : Prog Recovery Unit := do
  disableComputeService world
  prepareAndEvacuate conf world hostName none

/-- The retry controller `ParameterizedForEach`. -/
def parameterizedForEach (main : Host → Prog Recovery Unit) : List Host → Prog Recovery Unit
  | [] => throw (.other "NotFound")
  | [h] => main h
  | h :: h' :: rest =>
    except (main h) Exc.isException fun _ => parameterizedForEach main (h' :: rest)

def getRhFlow (reservedHostList : List Host) : Prog Recovery Unit := do
  disableComputeService world
  parameterizedForEach (fun h => prepareAndEvacuate conf world hostName (some h)) reservedHostList

/-- `execute_host_failure` on the default flows. -/
def recoverHost (method : RecoveryMethod) (notificationUuid : String)
    (reservedHostList : List Host) : Prog Recovery Unit :=
  executeHostFailure (getAutoFlow conf world hostName) (getRhFlow conf world hostName) method
    notificationUuid reservedHostList

end Flows

/-! ## The last run of a call -/

/-- The newest greenthreads confirmed exactly the instances whose lock phase returned. -/
def LastSound (hostName : String) (r : Recovery) : Prop :=
  ∀ a, r.attempts.head? = some a → ∀ x ∈ a.pool,
    (Confirms hostName a.target x ↔ lockPhaseReturns x.2 x.1.id = true)

/-- A program that returns, or says that there is nothing to do, leaves a sound last run. -/
def EndsSound (hostName : String) (x : Prog Recovery Unit) (r : Recovery) : Prop :=
  Ensures x r (fun _ => LastSound hostName)
    (fun e r' => e.isA .skipHostRecoveryException = true → LastSound hostName r')

section LastRun

variable {conf : HostFailureConf} {world : World} {hostName : String} {r : Recovery}

/-! ### Who may say that there is nothing to do -/

/-- The computation does not raise `SkipHostRecoveryException`. -/
def NoSkip {α : Type} (x : Except Exc α) : Prop :=
  ∀ e, x = .error e → e.isA .skipHostRecoveryException = false

theorem noSkip_reply {α : Type} (x : Except NovaFault α) : NoSkip (reply x) := by
  intro e he
  cases x with
  | ok a => cases he
  | error f =>
    obtain rfl : f.val = e := by injection he
    exact f.property.2

theorem noSkip_bind {α β : Type} {x : Except Exc α} {f : α → Except Exc β} (hx : NoSkip x)
    (hf : ∀ a, NoSkip (f a)) : NoSkip (x >>= f) := by
  intro e he
  cases hRun : x with
  | error e' =>
    rw [hRun] at he
    injection he with he
    exact he ▸ hx e' hRun
  | ok a =>
    rw [hRun] at he
    exact hf a e he

/-- The lines on the reserved host raise what their calls raise. -/
theorem noSkip_takeReservedHost (h : ReservedHost) :
    NoSkip (takeReservedHost conf hostName h) := by
  have hServiceAndSave : NoSkip (do reply h.enableService; reply h.save) :=
    noSkip_bind (noSkip_reply _) fun _ => noSkip_reply _
  unfold takeReservedHost
  split
  · refine noSkip_bind (noSkip_bind (noSkip_reply _) fun aggregates => ?_) fun _ => hServiceAndSave
    split
    · intro e he
      cases he
    · rename_i a _
      intro e he
      cases hReply : reply (h.addHostToAggregate a) with
      | ok u =>
        rw [hReply] at he
        cases he
      | error f =>
        rw [hReply] at he
        change (if f.isA .conflict = true then pure () else throw f) = Except.error e at he
        split at he
        · cases he
        · injection he with he
          exact he ▸ noSkip_reply _ f hReply
  · exact hServiceAndSave

/-! ### One run of a main flow -/

/-- A pool without a failed id confirmed exactly the instances past their lock phase. -/
theorem confirms_iff_of_none_failed {target : Option String} {pool : List (Server × Nova)}
    (hNone : failedInstances hostName target pool = []) {x : Server × Nova} (hx : x ∈ pool) :
    Confirms hostName target x ↔ lockPhaseReturns x.2 x.1.id = true := by
  constructor
  · intro hConfirms
    by_contra hRaises
    rw [Bool.not_eq_true] at hRaises
    exact (runThread_silent hRaises).2 hConfirms
  · intro hLock
    by_contra hNot
    have hMem := mem_failedInstances_of_lockPhase hx hLock hNot
    rw [hNone] at hMem
    cases hMem

theorem endsSound_throw {e : Exc} (h : e.isA .skipHostRecoveryException = false) :
    EndsSound hostName (throw e) r := by
  intro hSkip
  rw [h] at hSkip
  cases hSkip

/-- A pool that was started for a selection: it returns only when no id is reported. -/
theorem endsSound_evacuateInstances {target : Option String} {pool : List (Server × Nova)}
    (hSelected : r.attempts ≠ []) :
    EndsSound hostName (evacuateInstances hostName target pool) r := by
  unfold EndsSound
  rw [ensures_evacuateInstances]
  split
  · rename_i hNone
    intro a ha x hx
    cases hAttempts : r.attempts with
    | nil => exact absurd hAttempts hSelected
    | cons b rest =>
      simp only [Recovery.startPool, hAttempts, List.head?_cons, Option.some.injEq] at ha
      subst ha
      exact confirms_iff_of_none_failed hNone hx
  · intro hSkip
    cases hSkip

theorem endsSound_executeEvacuateInstances {reservedHost : Option ReservedHost}
    {pool : List (Server × Nova)} (hSelected : r.attempts ≠ []) :
    EndsSound hostName (executeEvacuateInstances conf hostName reservedHost pool) r := by
  cases reservedHost with
  | none => exact endsSound_evacuateInstances hSelected
  | some h =>
    unfold EndsSound executeEvacuateInstances
    dsimp only
    split
    · rw [ensures_bind, ensures_ofExcept]
      cases hTake : takeReservedHost conf hostName h with
      | ok u => exact endsSound_evacuateInstances hSelected
      | error e =>
        intro hSkip
        rw [noSkip_takeReservedHost h e hTake] at hSkip
        cases hSkip
    · exact endsSound_throw rfl

/-- A run of a main flow. When nothing is selected its greenthreads are none. -/
theorem endsSound_prepareAndEvacuate (reservedHost : Option Host) :
    EndsSound hostName (prepareAndEvacuate conf world hostName reservedHost) r := by
  unfold EndsSound prepareAndEvacuate prepareHaEnabledInstances
  rw [ensures_bind, ensures_bind, ensures_get, ensures_bind, ensures_set, ensures_bind,
    ensures_ofExcept]
  cases hList : reply (world.getServers r.listed) with
  | error e =>
    intro hSkip
    rw [noSkip_reply _ e hList] at hSkip
    cases hSkip
  | ok l =>
    dsimp only
    rw [ensures_bind, ensures_modify]
    split
    · intro _ a ha x hx
      simp only [List.head?_cons, Option.some.injEq] at ha
      subst ha
      cases hx
    · rw [ensures_pure, ensures_bind, ensures_get]
      exact endsSound_executeEvacuateInstances (List.cons_ne_nil _ _)

theorem endsSound_disableComputeService {x : Prog Recovery Unit}
    (hx : ∀ r, EndsSound hostName x r) :
    EndsSound hostName (do disableComputeService world; x) r := by
  unfold EndsSound disableComputeService
  rw [ensures_bind, ensures_bind, ensures_get, ensures_bind, ensures_set, ensures_ofExcept]
  cases hDisable : reply (world.disableService r.disabled) with
  | error e =>
    intro hSkip
    rw [noSkip_reply _ e hDisable] at hSkip
    cases hSkip
  | ok u => exact hx _

/-! ### Retries and workflows -/

/-- The last failure is raised as the last run raised it. -/
theorem endsSound_parameterizedForEach {main : Host → Prog Recovery Unit}
    (hMain : ∀ h r, EndsSound hostName (main h) r) :
    ∀ (l : List Host) (r : Recovery), EndsSound hostName (parameterizedForEach main l) r := by
  intro l
  induction l with
  | nil => exact fun r => endsSound_throw rfl
  | cons h rest ih =>
    intro r
    cases rest with
    | nil => exact hMain h r
    | cons h' rest =>
      unfold EndsSound parameterizedForEach
      rw [ensures_except]
      refine ensures_mono (hMain h r) (fun _ _ hs => hs) fun e r' he => ?_
      split
      · exact ih r'
      · exact he

theorem endsSound_getAutoFlow : EndsSound hostName (getAutoFlow conf world hostName) r :=
  endsSound_disableComputeService fun _ => endsSound_prepareAndEvacuate none

theorem endsSound_executeRhWorkflow (l : List Host) :
    EndsSound hostName (executeRhWorkflow (getRhFlow conf world hostName) l) r := by
  unfold executeRhWorkflow
  split
  · exact endsSound_throw rfl
  · unfold EndsSound
    rw [ensures_except]
    refine ensures_mono (endsSound_disableComputeService
      (endsSound_parameterizedForEach (fun h _ => endsSound_prepareAndEvacuate (some h)) l))
      (fun _ _ hs => hs) fun e r' he => ?_
    split
    · rename_i hLocked
      cases e with
      | masakari c m => exact endsSound_throw rfl
      | other => cases hLocked
      | timeout => cases hLocked
    · exact he

/-- A workflow that falls back on another one, unless there was nothing to do. -/
theorem endsSound_fallBack {x y : Prog Recovery Unit} (hx : EndsSound hostName x r)
    (hy : ∀ r, EndsSound hostName y r) :
    EndsSound hostName (except x Exc.isException fun e =>
      if e.isA .skipHostRecoveryException then throw e else y) r := by
  unfold EndsSound
  rw [ensures_except]
  refine ensures_mono hx (fun _ _ hs => hs) fun e r' he => ?_
  split
  · split
    · exact he
    · exact hy r'
  · exact he

/-- However a call of `execute_host_failure` comes to `finished`, its last run is sound. -/
theorem recoverHost_lastSound (method : RecoveryMethod) (notificationUuid : String)
    (l : List Host) :
    EndsSound hostName (recoverHost conf world hostName method notificationUuid l) r := by
  have hWorkflow : EndsSound hostName
      (hostWorkflow (getAutoFlow conf world hostName) (getRhFlow conf world hostName) method l)
      r := by
    cases method with
    | auto => exact endsSound_getAutoFlow
    | reservedHost => exact endsSound_executeRhWorkflow l
    | autoPriority =>
      exact endsSound_fallBack endsSound_getAutoFlow fun _ => endsSound_executeRhWorkflow l
    | rhPriority =>
      exact endsSound_fallBack (endsSound_executeRhWorkflow l) fun _ => endsSound_getAutoFlow
  unfold EndsSound recoverHost executeHostFailure
  rw [ensures_except]
  refine ensures_mono hWorkflow (fun _ _ hs => hs) fun e r' he => ?_
  split
  · split
    · exact he
    · exact endsSound_throw rfl
  · exact he

end LastRun

/-! ## What a finished call has recovered -/

/-- A greenthread of the attempt confirmed the instance. -/
def Attempt.Confirms (a : Attempt) (hostName id : String) : Prop :=
  ∃ x ∈ a.pool, x.1.id = id ∧ Engine.Confirms hostName a.target x

/-- The instances of the first selection of a call. -/
def Recovery.firstSelected (r : Recovery) : List Server :=
  match r.attempts.getLast? with
  | none => []
  | some a => a.selected

/-- Every instance of the first selection was confirmed by some run. -/
def FirstRecovered (hostName : String) (r : Recovery) : Prop :=
  ∀ s ∈ r.firstSelected, ∃ a ∈ r.attempts, a.Confirms hostName s.id

/-- No run before the last one confirmed the instance. -/
def LeftBehind (hostName : String) (r : Recovery) (id : String) : Prop :=
  ∀ a ∈ r.attempts.tail, ¬ a.Confirms hostName id

/-- What the runs before it left behind of the first selection, the last run selects again,
with a greenthread whose lock phase returns. -/
def LastCovers (hostName : String) (r : Recovery) : Prop :=
  ∀ s ∈ r.firstSelected, LeftBehind hostName r s.id → ∃ a, r.attempts.head? = some a ∧
    ∃ x ∈ a.pool, x.1.id = s.id ∧ lockPhaseReturns x.2 x.1.id = true

theorem firstRecovered_iff {hostName : String} {r : Recovery} (hLast : LastSound hostName r) :
    FirstRecovered hostName r ↔ LastCovers hostName r := by
  cases hAttempts : r.attempts with
  | nil =>
    have hNone : r.firstSelected = [] := by simp [Recovery.firstSelected, hAttempts]
    unfold FirstRecovered LastCovers
    rw [hNone]
    exact iff_of_true (fun _ h => by cases h) fun _ h => by cases h
  | cons last earlier =>
    have hSound := hLast last (by rw [hAttempts]; rfl)
    refine forall₂_congr fun s _ => ?_
    unfold LeftBehind
    simp only [hAttempts, List.head?_cons, List.tail_cons, Option.some.injEq, exists_eq_left',
      List.mem_cons, exists_eq_or_imp]
    constructor
    · rintro (⟨x, hx, hId, hConfirms⟩ | ⟨a, ha, hConfirms⟩) hLeft
      · exact ⟨x, hx, hId, (hSound x hx).mp hConfirms⟩
      · exact absurd hConfirms (hLeft a ha)
    · intro h
      by_cases hEarlier : ∃ a ∈ earlier, a.Confirms hostName s.id
      · exact Or.inr hEarlier
      · obtain ⟨x, hx, hId, hLock⟩ := h fun a ha hConfirms => hEarlier ⟨a, ha, hConfirms⟩
        exact Or.inl ⟨x, hx, hId, (hSound x hx).mpr hLock⟩

/-- A call that ends as `finished` has recovered its first selection exactly when its last
run covers what the runs before it left behind. -/
theorem recoverHost_finished_iff (conf : HostFailureConf) (world : World) (hostName : String)
    (method : RecoveryMethod) (notificationUuid : String) (l : List Host) :
    Ensures (recoverHost conf world hostName method notificationUuid l) {}
      (fun _ r => FirstRecovered hostName r ↔ LastCovers hostName r)
      (fun e r => e.isA .skipHostRecoveryException = true →
        (FirstRecovered hostName r ↔ LastCovers hostName r)) :=
  ensures_mono (recoverHost_lastSound method notificationUuid l) (fun _ _ h => firstRecovered_iff h)
    fun _ _ h hSkip => firstRecovered_iff (h hSkip)

/-- Every call that ends as `finished` has recovered its first selection. -/
def FinishedIsRecovered : Prop :=
  ∀ (conf : HostFailureConf) (world : World) (hostName : String) (method : RecoveryMethod)
    (notificationUuid : String) (l : List Host),
    Ensures (recoverHost conf world hostName method notificationUuid l) {}
      (fun _ r => FirstRecovered hostName r)
      (fun e r => e.isA .skipHostRecoveryException = true → FirstRecovered hostName r)

/-- A paused instance, which the first run resets to `error` and whose evacuation then takes
too long. -/
def stuckWorld : World where
  boolFromString := PyString.boolFromString
  disableService _ := .ok ()
  getServers n :=
    .ok [{ activeServer "a" with vmState := if n = 0 then "paused" else "error" }]
  nova _ _ := { movingNova with evacuationPolls := 0 }
  reservedHost _ h := ⟨h.name, true, .ok [], fun _ => .ok (), .ok (), .ok ()⟩

/-- The second run leaves out the instance that the first one put into `error`: there is
nothing to do, and the call ends as `finished` with the instance on the failed host. -/
theorem not_finishedIsRecovered : ¬ FinishedIsRecovered := by
  intro h
  have hCall := h { ignoreInstancesInErrorState := true } stuckWorld "compute1" .autoPriority
    "notification" [⟨1, 0, "uuid", "reserved1", true, false, "segment", 0⟩]
  unfold Ensures at hCall
  have hRun : (recoverHost { ignoreInstancesInErrorState := true } stuckWorld "compute1"
      .autoPriority "notification"
      [⟨1, 0, "uuid", "reserved1", true, false, "segment", 0⟩]).run {} =
      .error (Exc.raised .skipHostRecoveryException "No instances to evacuate on host: compute1.")
        ⟨[⟨[], none, []⟩, ⟨[{ activeServer "a" with vmState := "paused" }], none,
          [({ activeServer "a" with vmState := "paused" }, stuckWorld.nova 1 0)]⟩], 2, 2⟩ := rfl
  rw [hRun] at hCall
  obtain ⟨a, ha, x, hx, -, p, hp, -⟩ := hCall rfl _ List.mem_cons_self
  rcases List.mem_pair.mp ha with rfl | rfl
  · cases hx
  · obtain rfl := List.mem_singleton.mp hx
    have hPolled : (runThread (stuckWorld.nova 1 0) "compute1" none
        { activeServer "a" with vmState := "paused" }).polled = [] := rfl
    rw [hPolled] at hp
    cases hp

end MasakariHA.Engine
