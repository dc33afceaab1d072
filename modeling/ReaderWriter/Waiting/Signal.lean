import ReaderWriter.Location

/-!
# Signals

A condition variable together with a mark that says whether somebody is notifying right now.
Waiters stand in a queue. A notification takes waiters off the queue; a waiter that is not in the
queue any more may go on. The mark keeps two notifications of one signal from overlapping.
-/

namespace ReaderWriter

/-- A condition variable that one thread at a time may notify. -/
structure Signal where
  /-- The waiters that have not been notified, oldest first. -/
  queue : List ThreadId := []
  /-- Somebody is inside a notification. -/
  notifying : Bool := false
deriving DecidableEq

namespace Signal

/-- A waiter joins at the end of the queue. -/
def park (s : Signal) (t : ThreadId) : Signal := { s with queue := s.queue ++ [t] }

/-- A waiter leaves the queue without having been notified. -/
def forget (s : Signal) (t : ThreadId) : Signal :=
  { s with queue := s.queue.filter fun u => u != t }

/-- The waiters that a notification reaches. -/
def reached (s : Signal) : Wakes → List ThreadId
  | .one => s.queue.take 1
  | .all => s.queue

/-- The waiters that a notification leaves behind. -/
def spared (s : Signal) : Wakes → List ThreadId
  | .one => s.queue.drop 1
  | .all => []

/-- Begins a notification: the waiters that it reaches, and the signal while it goes on. There is
none if somebody else is notifying. -/
def notify? (s : Signal) (wakes : Wakes) : Option (List ThreadId × Signal) :=
  if s.notifying then none else some (s.reached wakes, ⟨s.spared wakes, true⟩)

/-- Ends a notification. -/
def release (s : Signal) : Signal := { s with notifying := false }

end Signal

end ReaderWriter
