import ReaderWriter.Backoff
import ReaderWriter.Waiting.Signal

/-!
# Waits

One wait of a slow path, from its announcement to the return with the mutex taken. The strategy
decides between parking and a step of the backoff. Either way the mutex is given up meanwhile and
taken again, and the caller looks at the lock afterwards, so a wait that ends without reason does no
harm.
-/

namespace ReaderWriter

/-- A mutex: the thread that has taken it, if any. -/
abbrev Gate := Option ThreadId

namespace Wait

/-- Where a thread stands in a wait. -/
inductive Stage where
  /-- The wait is announced; the mutex is held. -/
  | announced
  /-- About to park; the mutex is held. -/
  | parking
  /-- Parked, or notified and on the way back to the mutex. -/
  | parked
  /-- The backoff makes a step, in which it yields or spins; the mutex is free. -/
  | snoozing (yields : Bool)
  /-- Back from the condition variable; the mutex is held. -/
  | resumed
  /-- The wait is over; the mutex is held. -/
  | woken
deriving DecidableEq

/-- A wait and what it works on. -/
structure State where
  gate : Gate
  signal : Signal
  stage : Stage
  backoff : Backoff

/-- One turn of a wait. A thread that cannot move, or whose wait is over, stays where it is. -/
def turn (strategy : Strategy) (t : ThreadId) (w : State) : State :=
  match w.stage with
  | .announced =>
      if strategy.parks w.backoff then { w with stage := .parking }
      else
        { w with gate := none, stage := .snoozing w.backoff.yields, backoff := w.backoff.next }
  | .parking => { w with gate := none, signal := w.signal.park t, stage := .parked }
  | .parked =>
      if t ∈ w.signal.queue || w.gate.isSome then w
      else { w with gate := some t, stage := .resumed }
  | .snoozing _ => if w.gate.isSome then w else { w with gate := some t, stage := .woken }
  | .resumed => { w with stage := .woken }
  | .woken => w

/-- What keeps a thread from its next turn in a wait. -/
def obstacle (t : ThreadId) (gate : Gate) (signal : Signal) : Stage → Option Obstacle
  | .parked =>
      if t ∈ signal.queue then some .parked
      else if gate.isSome then some .blocked else none
  | .snoozing _ => if gate.isSome then some .blocked else none
  | .announced | .parking | .resumed | .woken => none

/-- How a stage is seen, for a wait in the given mode. -/
def Stage.place (announced woken : Location) : Stage → Place
  | .announced => .location announced
  | .parking => .location .condvarWait
  | .parked => .unseen
  | .snoozing true => .yielding
  | .snoozing false => .unseen
  | .resumed => .location .condvarWoken
  | .woken => .location woken

end Wait

end ReaderWriter
