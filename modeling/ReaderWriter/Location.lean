import ReaderWriter.Threads

/-!
# Locations

The named points of the lock algorithms. A thread can be held at each of them, and an observed
lock reports each one as it is passed.
-/

namespace ReaderWriter

/-- A named point of a lock algorithm. -/
inductive Location where
  /-- The unique fast path failed. -/
  | uniqueContended
  /-- About to wait for the unique lock. -/
  | uniqueWait
  /-- Back from a wait for the unique lock, perhaps without reason. -/
  | uniqueWoken
  /-- The claim was set to `want`; a look at the flags follows. -/
  | uniqueWant
  /-- The unique lock was granted. -/
  | uniqueAcquired
  /-- An attempt at the unique lock gave up. -/
  | tryUniqueFailed
  /-- The unique lock was released and everyone was notified. -/
  | uniqueReleased
  /-- The shared lock was granted at once. -/
  | sharedFastPath
  /-- The shared fast path failed. -/
  | sharedContended
  /-- About to wait for a shared lock. -/
  | sharedWait
  /-- Back from a wait for a shared lock, perhaps without reason. -/
  | sharedWoken
  /-- An attempt at a shared lock gave up. -/
  | trySharedFailed
  /-- A shared release begins. -/
  | unlockSharedBegin
  /-- A shared release found a writer that wants the lock. -/
  | unlockSharedSlow
  /-- A slow shared release knows that it is no longer needed. -/
  | unlockSharedDone
  /-- About to notify a waiting writer. -/
  | notifyUnique
  /-- About to notify the waiting readers. -/
  | notifyShared
  /-- A waiter could go on and nobody is bound to wake it: notify again after a yield. -/
  | notifyRetry
  /-- About to back off before the next poll. -/
  | spin
  /-- The thread was entered into a registry. -/
  | nodeRegistered
  /-- The exiting thread was taken off a registry. -/
  | nodeDeregistered
  /-- The exiting thread left with its flag raised. -/
  | nodeAbandoned
  /-- About to park in a condition variable. -/
  | condvarWait
  /-- Back from a condition variable with the mutex taken. -/
  | condvarWoken
deriving DecidableEq

/-- The name of a location. -/
def Location.name : Location → String
  | .uniqueContended => "UniqueContended"
  | .uniqueWait => "UniqueWait"
  | .uniqueWoken => "UniqueWoken"
  | .uniqueWant => "UniqueWant"
  | .uniqueAcquired => "UniqueAcquired"
  | .tryUniqueFailed => "TryUniqueFailed"
  | .uniqueReleased => "UniqueReleased"
  | .sharedFastPath => "SharedFastPath"
  | .sharedContended => "SharedContended"
  | .sharedWait => "SharedWait"
  | .sharedWoken => "SharedWoken"
  | .trySharedFailed => "TrySharedFailed"
  | .unlockSharedBegin => "UnlockSharedBegin"
  | .unlockSharedSlow => "UnlockSharedSlow"
  | .unlockSharedDone => "UnlockSharedDone"
  | .notifyUnique => "NotifyUnique"
  | .notifyShared => "NotifyShared"
  | .notifyRetry => "NotifyRetry"
  | .spin => "Spin"
  | .nodeRegistered => "NodeRegistered"
  | .nodeDeregistered => "NodeDeregistered"
  | .nodeAbandoned => "NodeAbandoned"
  | .condvarWait => "CondvarWait"
  | .condvarWoken => "CondvarWoken"

/-- How many waiters a notification wakes. -/
inductive Wakes where
  | one
  | all
deriving DecidableEq

/-- The name of a notification. -/
def Wakes.name : Wakes → String
  | .one => "notify_one"
  | .all => "notify_all"

/-- Where a thread stands between two of its turns, as an observer sees it. -/
inductive Place where
  /-- Nothing to see. -/
  | unseen
  /-- At a named point. -/
  | location (l : Location)
  /-- In a yield to other threads. -/
  | yielding
  /-- In a sleep of this many nanoseconds. -/
  | sleeping (nanos : Nat)
  /-- Inside a notification that has taken these waiters off the queue. -/
  | notifying (wakes : Wakes) (woken : List ThreadId)
  /-- Inside a registry's lock, for writing or for reading. -/
  | inRegistry (writing : Bool)
deriving DecidableEq

/-- What keeps a thread from taking its next turn. -/
inductive Obstacle where
  /-- It is parked and nobody has notified it. -/
  | parked
  /-- An internal lock that it needs is busy. -/
  | blocked
deriving DecidableEq

end ReaderWriter
