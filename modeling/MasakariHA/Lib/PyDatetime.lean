import Mathlib.Tactic.Common

/-!
# Python datetimes

A naive `datetime` counts microseconds from the start of year 1, and ends with year 9999.
Arithmetic that leaves these years raises `OverflowError`.

* `Datetime.add`: a `timedelta` added;
* `TzDatetime.toUtc`: the naive UTC time of a `datetime` with an offset. Both the wall clock and
  the UTC time have to stay within the years, at each step of a computation;
* `TzDatetime.instant`: what the wall clock and the offset stand for, in any year.
-/

namespace MasakariHA.Lib

/-- Microseconds from `datetime.min` to the end of `datetime.max`: 3652059 days. -/
def datetimeEnd : Int := 3652059 * 86400 * 1000000

/-- The microseconds of a naive `datetime`. -/
def InRange (m : Int) : Prop := 0 ≤ m ∧ m < datetimeEnd

instance (m : Int) : Decidable (InRange m) := inferInstanceAs (Decidable (_ ∧ _))

/-- A naive `datetime`. -/
structure Datetime where
  micros : Int
  nonneg : 0 ≤ micros
  lt_end : micros < datetimeEnd
  deriving DecidableEq

namespace Datetime

/-- The time with this number of microseconds, `none` for an `OverflowError`. -/
def ofMicros (m : Int) : Option Datetime :=
  if h : 0 ≤ m ∧ m < datetimeEnd then some ⟨m, h.1, h.2⟩ else none

theorem ofMicros_eq_some {m : Int} {d : Datetime} : ofMicros m = some d ↔ d.micros = m := by
  unfold ofMicros
  split
  · rename_i h
    rw [Option.some_inj]
    constructor
    · rintro rfl
      rfl
    · rintro rfl
      rfl
  · rename_i h
    refine ⟨fun hNone => (by cases hNone), ?_⟩
    rintro rfl
    exact absurd ⟨d.nonneg, d.lt_end⟩ h

theorem exists_ofMicros_iff {m : Int} : (∃ d, ofMicros m = some d) ↔ InRange m := by
  constructor
  · rintro ⟨d, hd⟩
    rw [← ofMicros_eq_some.mp hd]
    exact ⟨d.nonneg, d.lt_end⟩
  · intro h
    exact ⟨⟨m, h.1, h.2⟩, ofMicros_eq_some.mpr rfl⟩

theorem ofMicros_eq_none {m : Int} : ofMicros m = none ↔ ¬ InRange m := by
  rw [← exists_ofMicros_iff]
  cases ofMicros m <;> simp

/-- A `timedelta` of a number of microseconds added. -/
def add (d : Datetime) (delta : Int) : Option Datetime := ofMicros (d.micros + delta)

end Datetime

/-- The microseconds of `timedelta(days=n)`. -/
def days (n : Int) : Int := n * 86400 * 1000000

/-- The microseconds of `timedelta(seconds=n)`. -/
def seconds (n : Int) : Int := n * 1000000

/-! ## Offsets from UTC -/

/-- A `utcoffset()`: less than a day. -/
structure UtcOffset where
  micros : Int
  lower : -(86400 * 1000000) < micros
  upper : micros < 86400 * 1000000
  deriving DecidableEq

/-- The offset of UTC itself. -/
def UtcOffset.utc : UtcOffset := ⟨0, by omega, by omega⟩

/-- A `datetime` by its wall clock; without an offset it is naive. -/
structure TzDatetime where
  wall : Datetime
  utcoffset : Option UtcOffset
  deriving DecidableEq

namespace TzDatetime

/-- The instant in microseconds of UTC; a missing offset counts as UTC. -/
def instant (t : TzDatetime) : Int :=
  match t.utcoffset with
  | none => t.wall.micros
  | some o => t.wall.micros - o.micros

/-- A `timedelta` added: the wall clock moves. -/
def add (t : TzDatetime) (delta : Int) : Option TzDatetime :=
  (t.wall.add delta).map fun wall => { t with wall }

/-- `t.replace(tzinfo=None) - t.utcoffset()`; a naive time is left as it is. -/
def toUtc (t : TzDatetime) : Option Datetime :=
  match t.utcoffset with
  | none => some t.wall
  | some o => t.wall.add (-o.micros)

theorem add_eq_some {t t' : TzDatetime} {delta : Int} (h : t.add delta = some t') :
    t'.wall.micros = t.wall.micros + delta ∧ t'.utcoffset = t.utcoffset := by
  obtain ⟨wall, hWall, rfl⟩ := Option.map_eq_some_iff.mp h
  exact ⟨Datetime.ofMicros_eq_some.mp hWall, rfl⟩

theorem instant_add {t t' : TzDatetime} {delta : Int} (h : t.add delta = some t') :
    t'.instant = t.instant + delta := by
  obtain ⟨hWall, hOffset⟩ := add_eq_some h
  unfold instant
  rw [hWall, hOffset]
  cases t.utcoffset with
  | none => rfl
  | some o => dsimp only; omega

theorem add_eq_none {t : TzDatetime} {delta : Int} :
    t.add delta = none ↔ ¬ InRange (t.wall.micros + delta) := by
  unfold add Datetime.add
  rw [Option.map_eq_none_iff, Datetime.ofMicros_eq_none]

theorem micros_toUtc {t : TzDatetime} {d : Datetime} (h : t.toUtc = some d) :
    d.micros = t.instant := by
  unfold toUtc at h
  unfold instant
  cases hOffset : t.utcoffset with
  | none =>
    rw [hOffset] at h
    cases h
    rfl
  | some o =>
    rw [hOffset] at h
    dsimp only at h ⊢
    rw [Datetime.ofMicros_eq_some.mp h]
    omega

theorem toUtc_eq_none {t : TzDatetime} : t.toUtc = none ↔ ¬ InRange t.instant := by
  unfold toUtc instant
  cases t.utcoffset with
  | none =>
    dsimp only
    refine iff_of_false (fun h => by cases h) ?_
    exact not_not_intro ⟨t.wall.nonneg, t.wall.lt_end⟩
  | some o =>
    dsimp only
    unfold Datetime.add
    rw [Datetime.ofMicros_eq_none, Int.sub_eq_add_neg]

end TzDatetime

end MasakariHA.Lib
