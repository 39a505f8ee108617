import MasakariHA.Engine.Manager
import MasakariHA.Lib.Trans

/-!
# Recoveries that share reserved hosts

The recoveries of `COMPUTE_HOST` notifications in one engine process, each under the lock of
its source host. A recovery records the failure of its host, reads the list of reserved
hosts, and then walks through it: it takes the lock on a reserved host's name without
waiting, enables the host, saves `reserved = False` and evacuates to it; after a failure it
goes on to the next host of its list. The list is not read again.

* `Recoveries`, `Recoveries.step`: any number of recoveries `R`, one transaction, one lock
  operation or one call of nova at a time;
* `ready_iff_untouched`: a host that a recovery is about to use is reserved and not on
  maintenance in the database, exactly when no other recovery has saved its row since the
  list was read;
* `reservedHosts_safe`: what follows over the runs whose steps use untouched hosts only.
-/

namespace MasakariHA.Engine

open Lib

/-- Where a recovery stands. -/
inductive Stage where
  | waiting
  /-- Has the lock of its source host. -/
  | locked
  | read (o : HostObject)
  /-- The failure is recorded; the list is to be read. -/
  | recorded (o : HostObject)
  /-- The reserved hosts still to be tried. -/
  | trying (l : List Host)
  /-- Has the lock on the name of the reserved host. -/
  | holding (h : Host) (rest : List Host)
  /-- The compute service of the reserved host is enabled. -/
  | enabled (h : Host) (rest : List Host)
  | evacuating (h : Host) (rest : List Host)
  | ending
  | over

namespace Stage

/-- The reserved hosts of the list that the recovery has not yet evacuated to. -/
def ahead : Stage → List Host
  | .trying l => l
  | .holding h rest | .enabled h rest => h :: rest
  | .evacuating _ rest => rest
  | _ => []

/-- The reserved host that the recovery is about to enable or to evacuate to. -/
def target : Stage → Option Host
  | .holding h _ | .enabled h _ => some h
  | _ => none

theorem mem_ahead_of_target {p : Stage} {h : Host} (hTarget : p.target = some h) : h ∈ p.ahead := by
  cases p with
  | holding h' rest => cases hTarget; exact List.mem_cons_self
  | enabled h' rest => cases hTarget; exact List.mem_cons_self
  | _ => cases hTarget

end Stage

/-- A reserved host is enabled, or evacuated to: by whom, and its row at that moment. -/
structure Use (R : Type) where
  run : R
  uuid : String
  row : Option Host

/-- The recoveries `R` of one process with its locks and the database. For the statements:
the hosts whose rows other recoveries have saved since a recovery read its list, and the
uses of reserved hosts. -/
structure Recoveries (R : Type) where
  db : Db
  locks : String → Option R
  stage : R → Stage
  written : R → List String
  enables : List (Use R)
  evacuations : List (Use R)

/-- Which recovery steps, and how what it calls ends. -/
inductive RecoveryLabel (R : Type) where
  | acquire (r : R)
  | readHost (r : R)
  | record (r : R)
  | list (r : R)
  | tryLock (r : R)
  | skip (r : R)
  | enable (r : R)
  | abandon (r : R)
  | take (r : R)
  | conclude (r : R) (evacuated : Bool)
  | stop (r : R)
  | release (r : R)

section Steps

variable {R : Type} [DecidableEq R] (failed : R → String)

namespace Recoveries

variable (s : Recoveries R)

def proceed (r : R) (p : Stage) : Recoveries R :=
  { s with stage := Function.update s.stage r p }

def setLock (name : String) (holder : Option R) : Recoveries R :=
  { s with locks := Function.update s.locks name holder }

/-- A save of the row of a host. -/
def save (r : R) (uuid : String) (v : HostValues) : Recoveries R :=
  { s with
    db := s.db.setHost uuid v
    written := fun r' => if r' = r then s.written r' else uuid :: s.written r' }

/-- The list of reserved hosts is read. -/
def readList (r : R) (l : List Host) : Recoveries R :=
  { s.proceed r (.trying l) with written := Function.update s.written r [] }

/-- The reserved host is enabled. -/
def useEnable (r : R) (h : Host) (rest : List Host) : Recoveries R :=
  { s.proceed r (.enabled h rest) with
    enables := ⟨r, h.uuid, s.db.liveHost h.uuid⟩ :: s.enables }

/-- The reserved host is no longer reserved, and the evacuation to it starts. -/
def useEvacuate (r : R) (h : Host) (rest : List Host) : Recoveries R :=
  { (s.proceed r (.evacuating h rest)).save r h.uuid { reserved := some false } with
    evacuations := ⟨r, h.uuid, s.db.liveHost h.uuid⟩ :: s.evacuations }

/-- The reserved hosts that `_handle_notification_type_host` passes to the driver. -/
def reservedHostList (o : HostObject) (db : Db) : List Host :=
  if o.failoverSegment.recoveryMethod = .auto then []
  else hostGetAllByFilters (reservedHostFilters o.host.failoverSegmentId) db

def step : RecoveryLabel R → Option (Recoveries R)
  | .acquire r =>
    match s.stage r with
    | .waiting =>
      if s.locks (failed r) = none then some ((s.proceed r .locked).setLock (failed r) (some r))
      else none
    | _ => none
  | .readHost r =>
    match s.stage r with
    | .locked =>
      match hostGetByUuid (failed r) s.db with
      | .error _ => some (s.proceed r .ending)
      | .ok (o, _) => some (s.proceed r (.read o))
    | _ => none
  | .record r =>
    match s.stage r with
    | .read o =>
      match hostUpdate o.host.uuid (failedHostValues o.host) s.db with
      | .error _ => some (s.proceed r .ending)
      | .ok (o', _) =>
        some ((s.proceed r (.recorded o')).save r o.host.uuid (failedHostValues o.host))
    | _ => none
  | .list r =>
    match s.stage r with
    | .recorded o => some (s.readList r (reservedHostList o s.db))
    | _ => none
  -- The lock on the name is not waited for: `LockAlreadyAcquired` fails the attempt.
  | .tryLock r =>
    match s.stage r with
    | .trying (h :: rest) =>
      if s.locks h.name = none then
        some ((s.proceed r (.holding h rest)).setLock h.name (some r))
      else some (s.proceed r (.trying rest))
    | _ => none
  -- An attempt that fails before the evacuation task.
  | .skip r =>
    match s.stage r with
    | .trying (_ :: rest) => some (s.proceed r (.trying rest))
    | _ => none
  | .enable r =>
    match s.stage r with
    | .holding h rest => some (s.useEnable r h rest)
    | _ => none
  -- A call of nova raises before the reserved host is saved.
  | .abandon r =>
    match s.stage r with
    | .holding h rest | .enabled h rest => some ((s.proceed r (.trying rest)).setLock h.name none)
    | _ => none
  | .take r =>
    match s.stage r with
    | .enabled h rest =>
      match hostUpdate h.uuid { reserved := some false } s.db with
      | .error _ => some ((s.proceed r (.trying rest)).setLock h.name none)
      | .ok _ => some (s.useEvacuate r h rest)
    | _ => none
  | .conclude r evacuated =>
    match s.stage r with
    | .evacuating h rest =>
      some ((s.proceed r (if evacuated then .ending else .trying rest)).setLock h.name none)
    | _ => none
  -- The hosts have run out, or the recovery needs no further one.
  | .stop r =>
    match s.stage r with
    | .trying _ => some (s.proceed r .ending)
    | _ => none
  | .release r =>
    match s.stage r with
    | .ending => some ((s.proceed r .over).setLock (failed r) none)
    | _ => none

end Recoveries

/-- The recoveries of one process for the source hosts `failed`, on any content of the
database. -/
def recoveries : Trans (Recoveries R) (RecoveryLabel R) where
  init s := ∃ db, s = ⟨db, fun _ => none, fun _ => .waiting, fun _ => [], [], []⟩
  step s l := s.step failed l

end Steps

/-! ## What one step can do -/

section StepCases

variable {R : Type} [DecidableEq R] {failed : R → String} {s s' : Recoveries R} {r : R}

/-- A recovery goes on with some of the hosts that it had ahead, and may take or free a lock. -/
def Moves (s s' : Recoveries R) : Prop :=
  ∃ r p locks, p.ahead.Sublist (s.stage r).ahead ∧ s' = { s.proceed r p with locks := locks }

theorem moves_leave {p : Stage} {locks : String → Option R} (hNone : p.ahead = []) :
    Moves s { s.proceed r p with locks := locks } := by
  refine ⟨r, p, locks, ?_, rfl⟩
  rw [hNone]
  exact List.nil_sublist _

theorem moves_stay {p q : Stage} {locks : String → Option R} (hStage : s.stage r = q)
    (hSame : p.ahead = q.ahead) : Moves s { s.proceed r p with locks := locks } := by
  refine ⟨r, p, locks, ?_, rfl⟩
  rw [hStage, hSame]

/-- A recovery leaves the first host of its list behind. -/
theorem moves_pass {p q : Stage} {h : Host} {rest : List Host} {locks : String → Option R}
    (hStage : s.stage r = q) (hAhead : q.ahead = h :: rest) (hRest : p.ahead = rest) :
    Moves s { s.proceed r p with locks := locks } := by
  refine ⟨r, p, locks, ?_, rfl⟩
  rw [hStage, hAhead, hRest]
  exact List.sublist_cons_self h rest

theorem step_cases {l : RecoveryLabel R} (hs : s.step failed l = some s') :
    Moves s s' ∨
    (∃ r, ∃ o o' : HostObject, l = .record r ∧
      s' = (s.proceed r (.recorded o')).save r o.host.uuid (failedHostValues o.host)) ∨
    (∃ r o, l = .list r ∧ s' = s.readList r (Recoveries.reservedHostList o s.db)) ∨
    (∃ r h rest, l = .enable r ∧ s.stage r = .holding h rest ∧ s' = s.useEnable r h rest) ∨
    (∃ r h rest, l = .take r ∧ s.stage r = .enabled h rest ∧ s' = s.useEvacuate r h rest) := by
  cases l with
  | acquire r =>
    left
    simp only [Recoveries.step] at hs
    split at hs
    · split at hs
      · cases hs
        exact moves_leave rfl
      · cases hs
    · cases hs
  | readHost r =>
    left
    simp only [Recoveries.step] at hs
    split at hs
    · split at hs
      · cases hs
        exact moves_leave rfl
      · cases hs
        exact moves_leave rfl
    · cases hs
  | record r =>
    simp only [Recoveries.step] at hs
    split at hs
    · rename_i o hStage
      split at hs
      · cases hs
        exact Or.inl (moves_leave rfl)
      · rename_i o' db' hUpdate
        cases hs
        exact Or.inr (Or.inl ⟨r, o, o', rfl, rfl⟩)
    · cases hs
  | list r =>
    simp only [Recoveries.step] at hs
    split at hs
    · rename_i o hStage
      cases hs
      exact Or.inr (Or.inr (Or.inl ⟨r, o, rfl, rfl⟩))
    · cases hs
  | tryLock r =>
    left
    simp only [Recoveries.step] at hs
    split at hs
    · rename_i h rest hStage
      split at hs
      · cases hs
        exact moves_stay hStage rfl
      · cases hs
        exact moves_pass hStage rfl rfl
    · cases hs
  | skip r =>
    left
    simp only [Recoveries.step] at hs
    split at hs
    · rename_i h rest hStage
      cases hs
      exact moves_pass hStage rfl rfl
    · cases hs
  | enable r =>
    simp only [Recoveries.step] at hs
    split at hs
    · rename_i h rest hStage
      cases hs
      exact Or.inr (Or.inr (Or.inr (Or.inl ⟨r, h, rest, rfl, hStage, rfl⟩)))
    · cases hs
  | abandon r =>
    left
    simp only [Recoveries.step] at hs
    split at hs
    · rename_i h rest hStage
      cases hs
      exact moves_pass hStage rfl rfl
    · rename_i h rest hStage
      cases hs
      exact moves_pass hStage rfl rfl
    · cases hs
  | take r =>
    simp only [Recoveries.step] at hs
    split at hs
    · rename_i h rest hStage
      split at hs
      · cases hs
        exact Or.inl (moves_pass hStage rfl rfl)
      · cases hs
        exact Or.inr (Or.inr (Or.inr (Or.inr ⟨r, h, rest, rfl, hStage, rfl⟩)))
    · cases hs
  | conclude r evacuated =>
    left
    simp only [Recoveries.step] at hs
    split at hs
    · rename_i h rest hStage
      cases hs
      cases evacuated with
      | false => exact moves_stay hStage rfl
      | true => exact moves_leave rfl
    · cases hs
  | stop r =>
    left
    simp only [Recoveries.step] at hs
    split at hs
    · cases hs
      exact moves_leave rfl
    · cases hs
  | release r =>
    left
    simp only [Recoveries.step] at hs
    split at hs
    · cases hs
      exact moves_leave rfl
    · cases hs

end StepCases

/-! ## Rows of reserved hosts -/

/-- The host is reserved and not on maintenance. -/
def IsReady (row : Option Host) : Prop :=
  ∃ h, row = some h ∧ h.reserved = true ∧ h.onMaintenance = false

section Rows

variable {db : Db} {uuid uuid' : String} {v : HostValues}

theorem isReady_setHost_ne (h : uuid' ≠ uuid) :
    IsReady ((db.setHost uuid v).liveHost uuid') ↔ IsReady (db.liveHost uuid') := by
  rw [liveHost_setHost, if_neg h]

/-- A host whose failure is recorded, or that is taken, is not ready. -/
theorem not_isReady_setHost (hv : v.onMaintenance = some true ∨ v.reserved = some false) :
    ¬ IsReady ((db.setHost uuid v).liveHost uuid) := by
  rintro ⟨h, hRow, hReserved, hMaintenance⟩
  rw [liveHost_setHost, if_pos rfl] at hRow
  obtain ⟨h₀, -, rfl⟩ := Option.map_eq_some_iff.mp hRow
  rcases hv with hv | hv
  · simp [HostValues.apply, hv] at hMaintenance
  · simp [HostValues.apply, hv] at hReserved

theorem isReady_of_mem_reservedHostList {o : HostObject} {h : Host}
    (hMem : h ∈ Recoveries.reservedHostList o db) : IsReady (db.liveHost h.uuid) := by
  unfold Recoveries.reservedHostList at hMem
  split at hMem
  · cases hMem
  · obtain ⟨hRow, hAccepts⟩ := mem_hostGetAllByFilters.mp hMem
    simp only [HostFilters.accepts, reservedHostFilters, Option.all_some, Bool.and_eq_true,
      decide_eq_true_eq] at hAccepts
    exact ⟨h, liveHost_eq_some.mpr ⟨Table.mem_rows_iff.mp hRow, hAccepts.1.1.1⟩, hAccepts.2,
      hAccepts.1.2⟩

theorem nodup_reservedHostList (o : HostObject) (db : Db) :
    ((Recoveries.reservedHostList o db).map (·.uuid)).Nodup := by
  unfold Recoveries.reservedHostList
  split
  · exact List.nodup_nil
  · exact nodup_hostGetAllByFilters _ _

end Rows

/-! ## What a recovery has ahead -/

/-- The hosts ahead of each recovery are different ones, each of them ready as long as no
other recovery has saved its row; hosts that were evacuated to are no longer reserved. -/
structure ListsSound {R : Type} (s : Recoveries R) : Prop where
  ready : ∀ r, ∀ h ∈ (s.stage r).ahead,
    IsReady (s.db.liveHost h.uuid) ↔ h.uuid ∉ s.written r
  nodup : ∀ r, ((s.stage r).ahead.map (·.uuid)).Nodup
  taken : ∀ u ∈ s.evacuations, ∀ row, s.db.liveHost u.uuid = some row → row.reserved = false

section Lists

variable {R : Type} [DecidableEq R] {failed : R → String} {s s' : Recoveries R} {r : R}

/-- A recovery moves on along its list. -/
theorem listsSound_proceed {p : Stage} (h : ListsSound s)
    (hAhead : p.ahead.Sublist (s.stage r).ahead) : ListsSound (s.proceed r p) := by
  refine ⟨fun r' h' hMem => ?_, fun r' => ?_, h.taken⟩
  · simp only [Recoveries.proceed, Function.update_apply] at hMem
    split at hMem
    · rename_i hSame
      rw [hSame]
      exact h.ready r h' (hAhead.subset hMem)
    · exact h.ready r' h' hMem
  · simp only [Recoveries.proceed, Function.update_apply]
    split
    · exact (h.nodup r).sublist (hAhead.map _)
    · exact h.nodup r'

theorem listsSound_moves (h : ListsSound s) (hMoves : Moves s s') : ListsSound s' := by
  obtain ⟨r, p, locks, hAhead, rfl⟩ := hMoves
  have hProceed : ListsSound (s.proceed r p) := listsSound_proceed h hAhead
  exact ⟨hProceed.ready, hProceed.nodup, hProceed.taken⟩

/-- A recovery saves the row of a host that it does not have ahead. -/
theorem listsSound_save {uuid : String} {v : HostValues} (h : ListsSound s)
    (hAhead : ∀ h' ∈ (s.stage r).ahead, h'.uuid ≠ uuid)
    (hNotReady : v.onMaintenance = some true ∨ v.reserved = some false)
    (hReserved : v.reserved ≠ some true) : ListsSound (s.save r uuid v) := by
  refine ⟨fun r' h' hMem => ?_, h.nodup, fun u hu row hRow => ?_⟩
  · change IsReady ((s.db.setHost uuid v).liveHost h'.uuid) ↔
      h'.uuid ∉ if r' = r then s.written r' else uuid :: s.written r'
    by_cases hSelf : r' = r
    · have hNe : h'.uuid ≠ uuid := hAhead h' (hSelf ▸ hMem)
      rw [if_pos hSelf, isReady_setHost_ne hNe]
      exact h.ready r' h' hMem
    · rw [if_neg hSelf]
      by_cases hSame : h'.uuid = uuid
      · rw [hSame]
        exact iff_of_false (not_isReady_setHost hNotReady) fun hNot => hNot List.mem_cons_self
      · rw [isReady_setHost_ne hSame, List.mem_cons, not_or]
        exact ⟨fun hReady => ⟨hSame, (h.ready r' h' hMem).mp hReady⟩,
          fun hNot => (h.ready r' h' hMem).mpr hNot.2⟩
  · change (s.db.setHost uuid v).liveHost u.uuid = some row at hRow
    rw [liveHost_setHost] at hRow
    split at hRow
    · rename_i hSame
      obtain ⟨row₀, hRow₀, rfl⟩ := Option.map_eq_some_iff.mp hRow
      have hOld := h.taken u hu row₀ (hSame ▸ hRow₀)
      cases hV : v.reserved with
      | none => simp [HostValues.apply, hV, hOld]
      | some b =>
        cases b with
        | true => exact absurd hV hReserved
        | false => simp [HostValues.apply, hV]
    · exact h.taken u hu row hRow

theorem listsSound_readList (h : ListsSound s) (o : HostObject) :
    ListsSound (s.readList r (Recoveries.reservedHostList o s.db)) := by
  refine ⟨fun r' h' hMem => ?_, fun r' => ?_, h.taken⟩
  · simp only [Recoveries.readList, Recoveries.proceed, Function.update_apply] at hMem ⊢
    split at hMem
    · rename_i hSame
      rw [if_pos hSame]
      exact iff_of_true (isReady_of_mem_reservedHostList hMem) List.not_mem_nil
    · rename_i hOther
      rw [if_neg hOther]
      exact h.ready r' h' hMem
  · simp only [Recoveries.readList, Recoveries.proceed, Function.update_apply]
    split
    · exact nodup_reservedHostList o s.db
    · exact h.nodup r'

theorem not_mem_rest_of_nodup {h : Host} {rest : List Host}
    (hNodup : ((h :: rest).map (·.uuid)).Nodup) : ∀ h' ∈ rest, h'.uuid ≠ h.uuid := by
  intro h' hMem hSame
  rw [List.map_cons, List.nodup_cons] at hNodup
  exact hNodup.1 (hSame ▸ List.mem_map_of_mem hMem)

/-- The reserved host is taken off the list of the recovery and is no longer reserved. -/
theorem listsSound_useEvacuate {h : Host} {rest : List Host} (hSound : ListsSound s)
    (hStage : s.stage r = .enabled h rest) : ListsSound (s.useEvacuate r h rest) := by
  have hAhead : (s.stage r).ahead = h :: rest := congrArg Stage.ahead hStage
  have hProceed : ListsSound (s.proceed r (.evacuating h rest)) :=
    listsSound_moves hSound (moves_pass hStage rfl rfl)
  have hRest : ∀ h' ∈ ((s.proceed r (.evacuating h rest)).stage r).ahead, h'.uuid ≠ h.uuid := by
    intro h' hMem
    have hNodup := hSound.nodup r
    rw [hAhead] at hNodup
    simp only [Recoveries.proceed, Function.update_self] at hMem
    exact not_mem_rest_of_nodup hNodup h' hMem
  have hSave : ListsSound ((s.proceed r (.evacuating h rest)).save r h.uuid
      { reserved := some false }) :=
    listsSound_save hProceed hRest (Or.inr rfl) (by simp)
  refine ⟨hSave.ready, hSave.nodup, fun u hu row hRow => ?_⟩
  rcases List.mem_cons.mp hu with rfl | hu
  · change (s.db.setHost h.uuid { reserved := some false }).liveHost h.uuid = some row at hRow
    rw [liveHost_setHost, if_pos rfl] at hRow
    obtain ⟨row₀, -, rfl⟩ := Option.map_eq_some_iff.mp hRow
    rfl
  · exact hSave.taken u hu row hRow

theorem failedHostValues_reserved (h : Host) : (failedHostValues h).reserved ≠ some true := by
  simp only [failedHostValues]
  split
  · intro hSame
    cases hSame
  · intro hSame
    cases hSame

/-- The recovery has no list yet when it records the failure of its host. -/
theorem listsSound_record {o o' : HostObject} (h : ListsSound s) :
    ListsSound ((s.proceed r (.recorded o')).save r o.host.uuid (failedHostValues o.host)) := by
  have hProceed : ListsSound (s.proceed r (.recorded o')) :=
    listsSound_proceed h (List.nil_sublist _)
  refine listsSound_save hProceed (fun h' hMem => ?_) (Or.inl rfl) (failedHostValues_reserved _)
  simp only [Recoveries.proceed, Function.update_self] at hMem
  cases hMem

theorem listsSound_useEnable {h' : Host} {rest : List Host} (h : ListsSound s)
    (hStage : s.stage r = .holding h' rest) : ListsSound (s.useEnable r h' rest) := by
  have hProceed : ListsSound (s.proceed r (.enabled h' rest)) := by
    refine listsSound_proceed h ?_
    rw [hStage]
    exact List.Sublist.refl _
  exact ⟨hProceed.ready, hProceed.nodup, hProceed.taken⟩

/-- One step of any recovery, whatever the others have saved. -/
theorem listsSound_step {l : RecoveryLabel R} (h : ListsSound s) (hs : s.step failed l = some s') :
    ListsSound s' := by
  obtain hMoves | ⟨r, o, o', -, rfl⟩ | ⟨r, o, -, rfl⟩ | ⟨r, h', rest, -, hStage, rfl⟩ |
    ⟨r, h', rest, -, hStage, rfl⟩ := step_cases hs
  · exact listsSound_moves h hMoves
  · exact listsSound_record h
  · exact listsSound_readList h o
  · exact listsSound_useEnable h hStage
  · exact listsSound_useEvacuate h hStage

theorem listsSound_init (h : (recoveries failed).init s) : ListsSound s := by
  obtain ⟨db, rfl⟩ := h
  refine ⟨fun r h' hMem => ?_, fun r => List.nodup_nil, fun u hu => ?_⟩
  · cases hMem
  · cases hu

theorem listsSound_of_reachableIf {C : Recoveries R → RecoveryLabel R → Prop}
    (h : (recoveries failed).ReachableIf C s) : ListsSound s :=
  Trans.invariant_of_step (fun _ => listsSound_init)
    (fun _ _ _ hI _ hs => listsSound_step hI hs) h

/-- What a recovery finds when it comes to use a host of its list: the host is ready exactly
when no other recovery has saved its row since. -/
theorem ready_iff_untouched (h : (recoveries failed).Reachable s) {h' : Host}
    (hTarget : (s.stage r).target = some h') :
    IsReady (s.db.liveHost h'.uuid) ↔ h'.uuid ∉ s.written r :=
  (listsSound_of_reachableIf h).ready r h' (Stage.mem_ahead_of_target hTarget)

end Lists

/-! ## Runs that use untouched hosts -/

/-- The recovery that uses a reserved host in this step. -/
def RecoveryLabel.user {R : Type} : RecoveryLabel R → Option R
  | .enable r | .take r => some r
  | _ => none

/-- A step that enables a reserved host or starts the evacuation to it finds its row as it
was listed: no other recovery has saved it since. -/
def Untouched {R : Type} (s : Recoveries R) (l : RecoveryLabel R) : Prop :=
  ∀ r ∈ l.user, ∀ h ∈ (s.stage r).target, h.uuid ∉ s.written r

instance {R : Type} (s : Recoveries R) (l : RecoveryLabel R) : Decidable (Untouched s l) :=
  inferInstanceAs (Decidable (∀ r ∈ l.user, ∀ h ∈ (s.stage r).target, h.uuid ∉ s.written r))

/-- Every host was ready when it was enabled and when the evacuation to it started, and no
two evacuations went to one host. -/
structure Safe {R : Type} (s : Recoveries R) : Prop where
  enables : ∀ u ∈ s.enables, IsReady u.row
  evacuations : ∀ u ∈ s.evacuations, IsReady u.row
  distinct : (s.evacuations.map (·.uuid)).Nodup

section Runs

variable {R : Type} [DecidableEq R] {failed : R → String} {s s' : Recoveries R}

/-- The steps that use a reserved host. -/
theorem uses_cases {l : RecoveryLabel R} (hs : s.step failed l = some s') :
    (s'.enables = s.enables ∧ s'.evacuations = s.evacuations) ∨
    (∃ r h rest, l = .enable r ∧ s.stage r = .holding h rest ∧ s' = s.useEnable r h rest) ∨
    (∃ r h rest, l = .take r ∧ s.stage r = .enabled h rest ∧ s' = s.useEvacuate r h rest) := by
  obtain ⟨r, p, locks, -, rfl⟩ | ⟨r, o, o', -, rfl⟩ | ⟨r, o, -, rfl⟩ | hUse := step_cases hs
  · exact Or.inl ⟨rfl, rfl⟩
  · exact Or.inl ⟨rfl, rfl⟩
  · exact Or.inl ⟨rfl, rfl⟩
  · exact Or.inr hUse

omit [DecidableEq R] in
theorem isReady_of_untouched {l : RecoveryLabel R} {r : R} {h : Host} (hLists : ListsSound s)
    (hC : Untouched s l) (hUser : l.user = some r) (hTarget : (s.stage r).target = some h) :
    IsReady (s.db.liveHost h.uuid) :=
  (hLists.ready r h (Stage.mem_ahead_of_target hTarget)).mpr (hC r hUser h hTarget)

theorem safe_step {l : RecoveryLabel R} (hLists : ListsSound s) (hSafe : Safe s)
    (hC : Untouched s l) (hs : s.step failed l = some s') : Safe s' := by
  rcases uses_cases hs with ⟨hEnables, hEvacuations⟩ | ⟨r, h, rest, rfl, hStage, rfl⟩ |
    ⟨r, h, rest, rfl, hStage, rfl⟩
  · refine ⟨?_, ?_, ?_⟩
    · rw [hEnables]
      exact hSafe.enables
    · rw [hEvacuations]
      exact hSafe.evacuations
    · rw [hEvacuations]
      exact hSafe.distinct
  · have hReady : IsReady (s.db.liveHost h.uuid) :=
      isReady_of_untouched hLists hC rfl (congrArg Stage.target hStage)
    refine ⟨fun u hu => ?_, hSafe.evacuations, hSafe.distinct⟩
    rcases List.mem_cons.mp hu with rfl | hu
    · exact hReady
    · exact hSafe.enables u hu
  · have hReady : IsReady (s.db.liveHost h.uuid) :=
      isReady_of_untouched hLists hC rfl (congrArg Stage.target hStage)
    refine ⟨hSafe.enables, fun u hu => ?_, ?_⟩
    · rcases List.mem_cons.mp hu with rfl | hu
      · exact hReady
      · exact hSafe.evacuations u hu
    · -- A host that was evacuated to before is not reserved, so it is not ready now.
      refine List.nodup_cons.mpr ⟨fun hMem => ?_, hSafe.distinct⟩
      obtain ⟨u, hu, hSame⟩ := List.mem_map.mp hMem
      obtain ⟨row, hRow, hReserved, -⟩ := hReady
      have hTaken := hLists.taken u hu row (hSame ▸ hRow)
      rw [hTaken] at hReserved
      cases hReserved

/-- What a recovery is about to use is reserved and not on maintenance exactly when no other
recovery has saved its row since it was listed; over the runs whose steps use such hosts
only, every use is safe. -/
theorem reservedHosts_safe :
    (∀ s : Recoveries R, (recoveries failed).Reachable s → ∀ r h,
      (s.stage r).target = some h →
        (IsReady (s.db.liveHost h.uuid) ↔ h.uuid ∉ s.written r)) ∧
    ∀ s : Recoveries R, (recoveries failed).ReachableIf Untouched s → Safe s := by
  refine ⟨fun s hReach r h hTarget => ready_iff_untouched hReach hTarget, fun s hReach => ?_⟩
  have hBoth : ListsSound s ∧ Safe s := by
    refine Trans.invariant_of_step (I := fun s => ListsSound s ∧ Safe s) (fun s₀ h₀ => ?_)
      (fun s₁ l s₂ hI hC hs => ⟨listsSound_step hI.1 hs, safe_step hI.1 hI.2 hC hs⟩) hReach
    refine ⟨listsSound_init h₀, ?_⟩
    obtain ⟨db, rfl⟩ := h₀
    exact ⟨fun u hu => (by cases hu), fun u hu => (by cases hu), List.nodup_nil⟩
  exact hBoth.2

end Runs

/-! ## Two recoveries, two reserved hosts -/

/-- The hosts that fail. -/
def failedHost : Bool → String
  | false => "host1"
  | true => "host2"

/-- A segment with two hosts and two reserved hosts. -/
def twoReserved : Recoveries Bool where
  db :=
    { segments := ⟨[⟨"segment", "east", .reservedHost, 0⟩], by decide⟩
      hosts := ⟨[⟨1, 0, "host1", "compute1", false, false, "segment", 0⟩,
        ⟨2, 0, "host2", "compute2", false, false, "segment", 0⟩,
        ⟨3, 0, "host3", "spare1", true, false, "segment", 0⟩,
        ⟨4, 0, "host4", "spare2", true, false, "segment", 0⟩], by decide⟩
      notifications := .empty }
  locks _ := none
  stage _ := .waiting
  written _ := []
  enables := []
  evacuations := []

/-- A recovery up to its list of reserved hosts. -/
def toList (r : Bool) : List (RecoveryLabel Bool) :=
  [.acquire r, .readHost r, .record r, .list r]

/-- A recovery uses the first host of its list. -/
def useFirst (r : Bool) : List (RecoveryLabel Bool) :=
  [.tryLock r, .enable r, .take r, .conclude r true]

/-- A recovery that lists the reserved hosts after the first of them is taken gets the other
one. -/
theorem reservedHosts_safe_afterwards : ∃ s : Recoveries Bool,
    s.evacuations.map (·.uuid) = ["host3", "host4"] ∧ Safe s := by
  obtain ⟨s, hReach, hs⟩ := Trans.exists_reachableIf_of_runIf (T := recoveries failedHost)
    (c := fun s l => decide (Untouched s l)) (s := twoReserved)
    (toList false ++ useFirst false ++ toList true ++ useFirst true)
    (fun s => s.evacuations.map (·.uuid) = ["host3", "host4"]) ⟨_, rfl⟩ (by decide)
  exact ⟨s, of_decide_eq_true hs, reservedHosts_safe.2 s
    (Trans.reachableIf_mono (fun _ _ hC => of_decide_eq_true hC) hReach)⟩

/-- In every run every use of a reserved host is safe. -/
def AlwaysSafe : Prop :=
  ∀ (R : Type) [DecidableEq R] (failed : R → String) (s : Recoveries R),
    Function.Injective failed → (recoveries failed).Reachable s → Safe s

/-- Two recoveries list the reserved hosts before either takes one: the second enables and
evacuates to the host that the first has taken. -/
theorem not_alwaysSafe : ¬ AlwaysSafe := by
  intro h
  obtain ⟨s, hReach, hs⟩ := Trans.exists_reachable_of_runIf (T := recoveries failedHost)
    (s := twoReserved) (toList false ++ toList true ++ useFirst false ++ useFirst true)
    (fun s => s.evacuations.map (·.uuid) = ["host4", "host4"]) ⟨_, rfl⟩ (by decide)
  have hInjective : Function.Injective failedHost := by decide
  have hDistinct := (h Bool failedHost s hInjective hReach).distinct
  rw [of_decide_eq_true hs] at hDistinct
  exact absurd hDistinct (by decide)

end MasakariHA.Engine
