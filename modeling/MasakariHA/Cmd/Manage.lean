import MasakariHA.Db.PurgeReflected

/-!
# The command `masakari-manage db purge`

`DbCommands.purge`: the arguments are checked against their bounds and the clock, and then the
tables are purged.

* `checkPurge`: the checks, with the text of the exit;
* `purge_meets`: what a purge does whose arguments pass.
-/

namespace MasakariHA.Cmd

open Lib

/-- `db.MAX_INT`. -/
def maxInt : Int := 0x7FFFFFFF

/-- The first instant of 1970. -/
def unixEpoch : Int := days 719162

/-- The two readings of the clock: `int(time.time())`, and `utcnow` after it. -/
structure Clock where
  time : Nat
  utcnow : Datetime
  le : unixEpoch + seconds time ≤ utcnow.micros

/-- `utils.validate_integer` of an integer, with the text of its `InvalidInput`. -/
def validateInteger (value : Int) (name : String) (minValue maxValue : Int) : Except String Int :=
  if value < minValue then
    .error s!"Invalid input received: {name} must be >= {minValue}"
  else if maxValue < value then
    .error s!"Invalid input received: {name} must be <= {maxValue}"
  else .ok value

/-- The checks of `purge`: the text of the exit, or the limit. -/
def checkPurge (clock : Clock) (ageInDays maxRows : Int) : Except String Int := do
  let maxRows ← validateInteger maxRows "max_rows" (-1) maxInt
  if maxRows = 0 then .error "Must supply value greater than 0 for max_rows."
  else if ageInDays < 0 then .error "Must supply a non-negative value for age."
  -- `age_in_days >= int(time.time()) / 86400`; a floor division lets fewer ages through
  else if (clock.time : Int) ≤ ageInDays * 86400 then
    .error "Maximal age is count of days since epoch."
  else .ok maxRows

/-- How `purge` ends otherwise than by returning. -/
inductive Stop where
  | exit (message : String)
  | raised (e : Exc)

/-- `purge`, with the tables in the order of `metadata.sorted_tables`. -/
def purge {κ : Type} [DecidableEq κ] (engine : Engine κ) (clock : Clock)
    (ageInDays maxRows : Int) (sortedTables : List (ReflectedTable κ)) :
    Except Stop (Purged κ) :=
  match checkPurge clock ageInDays maxRows with
  | .error message => .error (.exit message)
  | .ok maxRows =>
    match deletedAge clock.utcnow ageInDays with
    | none => .error (.raised (.other "OverflowError"))
    | some cutoff => .ok (purgeReflected engine cutoff maxRows sortedTables.reverse 0)

section Purge

variable {clock : Clock} {ageInDays maxRows limit : Int}

theorem validateInteger_eq_ok {value minValue maxValue v : Int} {name : String} :
    validateInteger value name minValue maxValue = .ok v ↔
      v = value ∧ minValue ≤ value ∧ value ≤ maxValue := by
  unfold validateInteger
  split
  · simp only [reduceCtorEq, false_iff]
    omega
  · split
    · simp only [reduceCtorEq, false_iff]
      omega
    · simp only [Except.ok.injEq]
      omega

/-- What the arguments satisfy that pass. -/
theorem checkPurge_eq_ok (h : checkPurge clock ageInDays maxRows = .ok limit) :
    limit = maxRows ∧ (maxRows = -1 ∨ 1 ≤ maxRows) ∧ 0 ≤ ageInDays ∧
      ageInDays * 86400 < clock.time := by
  unfold checkPurge at h
  cases hLimit : validateInteger maxRows "max_rows" (-1) maxInt with
  | error message =>
    rw [hLimit] at h
    cases h
  | ok v =>
    obtain ⟨rfl, hLower, -⟩ := validateInteger_eq_ok.mp hLimit
    rw [hLimit] at h
    simp only [bind, Except.bind] at h
    split at h
    · cases h
    split at h
    · cases h
    split at h
    · cases h
    · cases h
      refine ⟨rfl, ?_, ?_, ?_⟩ <;> omega

/-- An age that passes stays within the years of a `datetime`. -/
theorem exists_deletedAge (hAge : 0 ≤ ageInDays) (hEpoch : ageInDays * 86400 < clock.time) :
    ∃ cutoff, deletedAge clock.utcnow ageInDays = some cutoff := by
  have hRange : InRange (clock.utcnow.micros + -days ageInDays) := by
    have hLe := clock.le
    have hEnd := clock.utcnow.lt_end
    unfold unixEpoch seconds days at hLe
    unfold InRange days
    constructor
    · omega
    · omega
  obtain ⟨d, hd⟩ := Datetime.exists_ofMicros_iff.mpr hRange
  exact ⟨d.micros, by rw [deletedAge, Datetime.add, hd]; rfl⟩

end Purge

/-- A purge whose arguments pass removes what is eligible, up to its limit. -/
theorem purge_meets {κ : Type} [DecidableEq κ] (engine : Engine κ) (clock : Clock)
    (ageInDays maxRows : Int) (sortedTables : List (ReflectedTable κ))
    (hPass : ∃ limit, checkPurge clock ageInDays maxRows = .ok limit) :
    (maxRows = -1 ∨ 1 ≤ maxRows) ∧
      ∃ cutoff r, deletedAge clock.utcnow ageInDays = some cutoff ∧
        purge engine clock ageInDays maxRows sortedTables = .ok r ∧
        PurgesUpTo cutoff maxRows sortedTables.reverse r := by
  obtain ⟨limit, hLimit⟩ := hPass
  obtain ⟨rfl, hBounds, hAge, hEpoch⟩ := checkPurge_eq_ok hLimit
  obtain ⟨cutoff, hCutoff⟩ := exists_deletedAge hAge hEpoch
  refine ⟨hBounds, cutoff, _, hCutoff, ?_, purgesUpTo_purgeReflected engine sortedTables.reverse⟩
  rw [purge, hLimit]
  dsimp only
  rw [hCutoff]

/-- A database that keeps to the order of its rows. -/
def inOrder (κ : Type) : Engine κ where
  removed q :=
    match q.limit with
    | some n => q.ids.take n.toNat
    | none => q.ids
  subperm q := by
    split
    · exact (List.take_sublist _ _).subperm
    · exact List.Subperm.refl _
  unlimited q hNone := by simp only [hNone]
  limited q n hSome _ := by simp only [hSome, List.length_take]

/-- Noon of the first day of 2020. -/
def newYear : Clock := ⟨1577880000, ⟨63713476800000000, by decide, by decide⟩, by decide⟩

/-- Two hosts, deleted one and three years before, and a table without the column. -/
def oldTables : List (ReflectedTable Nat) :=
  [{ name := "migrate_version", hasDeleted := false, rows := [], nodup := by decide },
    { name := "hosts", hasDeleted := true,
      rows := [⟨1, some 63681940800000000, none, none⟩, ⟨2, some 63618868800000000, none, none⟩],
      nodup := by decide }]

theorem purge_meets_newYear : (1 = -1 ∨ 1 ≤ (1 : Int)) ∧
    ∃ cutoff r, deletedAge newYear.utcnow 30 = some cutoff ∧
      purge (inOrder Nat) newYear 30 1 oldTables = .ok r ∧
      PurgesUpTo cutoff 1 oldTables.reverse r :=
  purge_meets (inOrder Nat) newYear 30 1 oldTables ⟨1, rfl⟩

end MasakariHA.Cmd
