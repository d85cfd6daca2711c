import CCattler.Go.Strconv

/-! # Clock readings and durations

Times and durations are numbers of nanoseconds. Only times within the reach of
`UnixMilli` are values here.
-/

namespace Go

@[ext]
structure Time where
  nanos : Int
  low : minInt64 ≤ nanos / 1000000
  high : nanos / 1000000 ≤ maxInt64
  deriving DecidableEq

def second : Int := 1000000000

namespace Time

/-- The zero value, in the year one. -/
def zero : Time := ⟨-62135596800 * 1000000000, by decide, by decide⟩

variable (t : Time)

def unixMilli : Int := t.nanos / 1000000

/-- `t.Sub(u)`, which saturates at the bounds of a duration. -/
def sub (u : Time) : Int := max minInt64 (min maxInt64 (t.nanos - u.nanos))

/-- `t.Sub(time.UnixMilli(millis))`. -/
def subMilli (millis : Int) : Int :=
  max minInt64 (min maxInt64 (t.nanos - millis * 1000000))

/-- `t.Before(time.UnixMilli(millis).Add(duration))`. -/
def beforeMilli (millis duration : Int) : Bool :=
  decide (t.nanos < millis * 1000000 + duration)

/-- The later of two times. -/
def later (u : Time) : Time := if t.nanos ≤ u.nanos then u else t

/-- A time cut to whole milliseconds. -/
def milli : Time :=
  ⟨t.nanos / 1000000 * 1000000, by have := t.low; omega, by have := t.high; omega⟩

theorem nanos_lt_milli : t.nanos ≤ t.milli.nanos + 999999 := by
  simp only [milli]
  omega

theorem milli_mono {t u : Time} (h : t.nanos ≤ u.nanos) : t.milli.nanos ≤ u.milli.nanos := by
  simp only [milli]
  omega

theorem le_later (u : Time) : t.nanos ≤ (t.later u).nanos := by
  unfold later
  split
  next h => exact h
  next => exact le_rfl

theorem lt_of_lt_sub {t u : Time} {duration : Int} (hlow : minInt64 ≤ duration)
    (h : duration < t.sub u) : u.nanos + duration < t.nanos := by
  unfold sub at h
  omega

end Time

end Go
