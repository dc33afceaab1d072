import ReaderWriter.Backoff
import ReaderWriter.Duration
import ReaderWriter.Limits

/-!
# Timed attempts

A timed caller tries, and tries again until its deadline. Between two attempts it makes a step of
the standard backoff; once that is used up it sleeps in short slices, so that it does not overshoot
the deadline by much.

Times are readings of a clock in nanoseconds.
-/

namespace ReaderWriter

/-- A timed acquisition under way. -/
structure Retry where
  start : Int
  deadline : Int
  backoff : Backoff
deriving DecidableEq

namespace Retry

/-- A timed acquisition that begins at the reading `now`. -/
def begin (now deadline : Int) : Retry := ⟨now, deadline, .ofConfig .standard⟩

/-- What follows an attempt that failed. -/
inductive Decision where
  /-- The deadline has passed. -/
  | giveUp (waited : Duration)
  /-- Sleep, then try again. -/
  | sleep (nanos : Nat)
  /-- Make a step of the backoff, then try again. -/
  | backOff (yields : Bool)
deriving DecidableEq

/-- What follows an attempt that failed at the reading `now`. A clock that ran backwards counts as
no time waited. -/
def decision (r : Retry) (now : Int) : Decision :=
  if r.deadline ≤ now then .giveUp ⟨(now - r.start).toNat⟩
  else if r.backoff.exhausted then .sleep (min (r.deadline - now).toNat retrySlice)
  else .backOff r.backoff.yields

/-- The acquisition after a failed attempt at the reading `now`. -/
def after (r : Retry) (now : Int) : Retry :=
  match r.decision now with
  | .backOff _ => { r with backoff := r.backoff.next }
  | _ => r

end Retry

/-- When a timed acquisition gives up. -/
inductive TimeLimit where
  /-- So long after its start. -/
  | within (length : Duration)
  /-- So many nanoseconds after its start, or before it. -/
  | offset (nanos : Int)
deriving DecidableEq

/-- The largest number of whole seconds of a clock reading. -/
def lastSecond : Int := 9223372036854775807

/-- The reading at which a timed acquisition that begins at `now` gives up. There is none if the
reading is out of the clock's range: then it waits as long as it takes. -/
def TimeLimit.deadline? (now : Int) : TimeLimit → Option Int
  | .within length =>
      let deadline := now + length.nanos
      if deadline / 1000000000 ≤ lastSecond then some deadline else none
  | .offset nanos => some (now + nanos)

end ReaderWriter
