/-
# `Instant` — what clocks can show, and how far timers reach

A clock counts nanoseconds and ends 2⁶³ seconds after it began.  A span of
time is shorter than 2⁶⁴ seconds, so there are spans that no clock can add
to any moment.

Timers meet that end in two ways.  A time limit that lies beyond it is put
off by thirty years.  But an interval is added to the present moment as it
is: to start a timer whose first tick cannot be shown fails, and so does
to delay a tick beyond the end.
-/

namespace PhaseWire

/-- A length of time. -/
structure Span where
  nanos : Nat
  inRange : nanos < 0x10000000000000000 * 1000000000
  deriving DecidableEq, Repr

/-- A moment, by the time since its clock began. -/
structure Instant where
  nanos : Nat
  inRange : nanos < 0x8000000000000000 * 1000000000
  deriving DecidableEq, Repr

namespace Span

def ofMillis (millis : Nat) : Span :=
  ⟨min (1000000 * millis) (0x10000000000000000 * 1000000000 - 1), by omega⟩

def millis (span : Span) : Nat :=
  span.nanos / 1000000

instance : LE Span := ⟨fun span other => span.nanos ≤ other.nanos⟩

instance : DecidableLE Span := fun span other => inferInstanceAs (Decidable (span.nanos ≤ other.nanos))

instance : Min Span := minOfLe

end Span

namespace Instant

instance : LE Instant := ⟨fun moment other => moment.nanos ≤ other.nanos⟩

instance : LT Instant := ⟨fun moment other => moment.nanos < other.nanos⟩

instance : DecidableLE Instant :=
  fun moment other => inferInstanceAs (Decidable (moment.nanos ≤ other.nanos))

instance : DecidableLT Instant :=
  fun moment other => inferInstanceAs (Decidable (moment.nanos < other.nanos))

theorem le_iff {moment other : Instant} : moment ≤ other ↔ moment.nanos ≤ other.nanos := Iff.rfl

/-- The moment after so many nanoseconds, or the last one. -/
def ofNanos (nanos : Nat) : Instant :=
  ⟨min nanos (0x8000000000000000 * 1000000000 - 1), by omega⟩

def ofMillis (millis : Nat) : Instant :=
  ofNanos (1000000 * millis)

instance : Inhabited Instant := ⟨ofNanos 0⟩

/-- The moment a span later, if a clock can show it. -/
def add? (moment : Instant) (span : Span) : Option Instant :=
  if h : moment.nanos + span.nanos < 0x8000000000000000 * 1000000000 then
    some ⟨moment.nanos + span.nanos, h⟩
  else none

theorem add?_eq_none_iff {moment : Instant} {span : Span} :
    moment.add? span = none ↔ 0x8000000000000000 * 1000000000 ≤ moment.nanos + span.nanos := by
  rw [add?]
  split
  · rename_i h
    exact ⟨nofun, fun hlate => absurd h (Nat.not_lt.mpr hlate)⟩
  · rename_i h
    exact ⟨fun _ => Nat.not_lt.mp h, fun _ => rfl⟩

/-- Thirty years from a moment on. -/
def farFuture (moment : Instant) : Instant :=
  ofNanos (moment.nanos + 30 * 365 * 86400 * 1000000000)

/-- When a time limit is over that is set at a moment. -/
def after (moment : Instant) (limit : Span) : Instant :=
  (moment.add? limit).getD moment.farFuture

/-- When a timer goes off for the first time that is started at a moment; `none` if it cannot be
started. -/
def firstTick? (moment : Instant) (interval : Span) : Option Instant :=
  if interval.nanos = 0 then none else moment.add? interval

/-- A tick that comes at most this late does not delay the next one. -/
def tickTolerance : Span := .ofMillis 5

/-- When the tick comes that follows one which was due and is taken at a moment; `none` if no clock
can show it. -/
def nextTick? (moment due : Instant) (interval : Span) : Option Instant :=
  (due.add? tickTolerance).bind fun tolerated =>
    if tolerated < moment then moment.add? interval
    else some ((due.add? interval).getD moment.farFuture)

/-- An interval starts a timer unless it is empty or reaches beyond what the clock can show. -/
theorem firstTick?_eq_none_iff {moment : Instant} {interval : Span} :
    moment.firstTick? interval = none
      ↔ interval.nanos = 0 ∨ 0x8000000000000000 * 1000000000 ≤ moment.nanos + interval.nanos := by
  rw [firstTick?]
  split
  · rename_i h
    exact ⟨fun _ => .inl h, fun _ => rfl⟩
  · rename_i h
    rw [add?_eq_none_iff]
    exact ⟨.inr, fun hnone => hnone.resolve_left h⟩

end Instant
end PhaseWire
