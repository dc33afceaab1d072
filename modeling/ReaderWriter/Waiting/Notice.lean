import ReaderWriter.Waiting.Signal

/-!
# Notices

A notification that is made whatever it takes: while somebody else notifies, the thread yields and
tries again.
-/

namespace ReaderWriter

namespace Notice

/-- Where a thread stands in a notification that it insists on. -/
inductive Stage where
  /-- About to notify. -/
  | announced
  /-- Somebody else was notifying, so the thread yields. -/
  | yielding
  /-- Inside the notification, which took these waiters off the queue. -/
  | inside (woken : List ThreadId)
deriving DecidableEq

/-- One turn before the notification is made: it begins, or the thread yields. -/
def begin (wakes : Wakes) (s : Signal) : Signal × Stage :=
  match s.notify? wakes with
  | some (woken, s') => (s', .inside woken)
  | none => (s, .yielding)

/-- How a stage is seen. -/
def Stage.place (announced : Place) (wakes : Wakes) : Stage → Place
  | .announced => announced
  | .yielding => .yielding
  | .inside woken => .notifying wakes woken

end Notice

end ReaderWriter
