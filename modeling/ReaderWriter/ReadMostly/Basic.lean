import ReaderWriter.ReadMostly.Claim
import ReaderWriter.ReadMostly.Locals
import ReaderWriter.ReadMostly.Registry
import ReaderWriter.Turn
import ReaderWriter.Waiting.Notice
import ReaderWriter.Waiting.Wait

/-!
# The read-mostly lock

A lock whose shared side writes no memory that other readers write. A reader raises a flag of its
own and then looks at the lock's claim; on `no` it has the lock. A writer takes the gate, sets the
claim to `want` and then looks at every registered flag; if all are down it sets the claim to `yes`
and keeps the gate until it releases. Both sides write before they read, so a reader and a writer
that meet cannot both miss each other.

* A reader that finds another claim lowers its flag and waits under the gate.
* A reader that leaves while a writer wants the lock keeps notifying the writer until it knows that
  the writer has seen it, or that another flag has gone up.
* A thread that ends is taken off the registry. If its flag is still up, the same is done for it.

This module holds the state and the places of the algorithm, `Turns` what happens between them.
-/

namespace ReaderWriter.ReadMostly

/-- The state of a read-mostly lock. -/
structure State where
  /-- The lock's identity, which is never used again. -/
  id : Nat
  supply : Supply
  config : Config
  host : Host := {}
  claim : Claim := .no
  /-- The mutex of the exclusive side. A writer keeps it while it holds the lock. -/
  gate : Gate := none
  /-- Where writers wait for the readers to leave. -/
  drained : Signal := {}
  /-- Where readers wait for the writer to leave. -/
  reopened : Signal := {}
  registry : Registry := {}
deriving DecidableEq

/-- Whether a caller is ready to wait. -/
inductive Patience where
  | waits
  | once
deriving DecidableEq

/-- A caller that wants the unique lock. -/
inductive Writer where
  /-- It waits for the readers; `told` says that it has told so. -/
  | patient (told : Bool) (backoff : Backoff)
  /-- It gives up at once. -/
  | hasty
deriving DecidableEq

/-- Where a thread stands with a registry that it wants to read. -/
inductive Access where
  /-- It wants it. -/
  | wanted
  /-- It has it. -/
  | inside
deriving DecidableEq

/-- Where a thread stands with a registry that it wants to change. -/
inductive Edit where
  /-- It wants it. -/
  | wanted
  /-- It has reserved it and waits for those who read it. -/
  | reserved
  /-- It has it. -/
  | inside
deriving DecidableEq

/-- Why the exclusive side is reopened. -/
inductive Reopening where
  /-- A holder releases the lock. -/
  | released
  /-- A hasty writer gives up. -/
  | refused
deriving DecidableEq

/-- Why a waiting writer is looked after. -/
inductive HandOff where
  /-- A reader left; its call then ends with this answer. -/
  | left (answer : Answer)
  /-- A thread ended with its flag up. This happens too late to be reported. -/
  | abandoned
deriving DecidableEq

/-- Where a thread stands in a hand-off. -/
inductive HandOff.Stage where
  | begun
  /-- Looks whether all flags are down. -/
  | checking (a : Access)
  /-- Notifies a writer. -/
  | prodding (n : Notice.Stage)
  /-- Looks again. -/
  | rechecking (a : Access)
  /-- The backoff makes a step, in which it yields or spins. -/
  | snoozing (yields : Bool)
  | finished
deriving DecidableEq

/-- Where a thread stands in an operation. -/
inductive Pc where
  /-- A writer wants the gate. -/
  | entering
  /-- The claim is `want`; the flags are looked at next. -/
  | claimed (w : Writer)
  /-- Looks at the flags. -/
  | scanning (w : Writer) (a : Access)
  /-- Waits for the readers to leave. -/
  | draining (told : Bool) (stage : Wait.Stage) (backoff : Backoff)
  /-- Has the unique lock. -/
  | acquired (answer : Answer)
  /-- A hasty writer found a flag up. -/
  | refused
  /-- The claim is `no` again; notifies the readers. -/
  | reopening (why : Reopening) (n : Notice.Stage)
  /-- The gate is free again; notifies a writer. -/
  | passingOn (why : Reopening) (n : Notice.Stage)
  /-- The unique lock is released and everyone is notified. -/
  | released
  /-- Enters its new flag into the registry. -/
  | registering (p : Patience) (f : Flag) (e : Edit)
  /-- The flag is in the registry. -/
  | registered (p : Patience) (f : Flag)
  /-- Has the shared lock. -/
  | fastPath
  /-- A reader found a writer. -/
  | contended (f : Flag)
  /-- A reader wants the gate. -/
  | arriving (f : Flag)
  /-- A reader notifies the writer for whom its flag may have been the last one. -/
  | prodding (f : Flag) (backoff : Backoff) (n : Notice.Stage)
  /-- Waits for the writer to leave. -/
  | waiting (f : Flag) (stage : Wait.Stage) (backoff : Backoff)
  /-- A hasty reader found a writer. -/
  | sharedRefused
  /-- A shared release begins; the call then ends with this answer. -/
  | leaving (answer : Answer)
  /-- Looks after a waiting writer. -/
  | handingOff (why : HandOff) (stage : HandOff.Stage) (backoff : Backoff)
  /-- Counts the registered threads. -/
  | counting (a : Access)
  /-- An ending thread takes its flag off the registry. -/
  | departing (f : Flag) (wasUp : Bool) (e : Edit)
  /-- The flag is off the registry. -/
  | departed (wasUp : Bool)
  /-- The thread ended with its flag up. -/
  | abandoned
deriving DecidableEq

/-- How reading a registry is seen. -/
def Access.place : Access → Place
  | .wanted => .unseen
  | .inside => .inRegistry false

/-- How changing a registry is seen. -/
def Edit.place : Edit → Place
  | .wanted | .reserved => .unseen
  | .inside => .inRegistry true

/-- How a named point of a hand-off is seen. -/
def HandOff.report (why : HandOff) (l : Location) : Place :=
  match why with
  | .left _ => .location l
  | .abandoned => .unseen

/-- How a stage of a hand-off is seen. -/
def HandOff.Stage.place (why : HandOff) : HandOff.Stage → Place
  | .begun => why.report .unlockSharedSlow
  | .checking a => a.place
  | .prodding n => n.place (why.report .notifyUnique) .one
  | .rechecking a => a.place
  | .snoozing true => .yielding
  | .snoozing false => .unseen
  | .finished => why.report .unlockSharedDone

/-- How a place of the algorithm is seen. -/
def Pc.place : Pc → Place
  | .entering => .unseen
  | .claimed _ => .location .uniqueWant
  | .scanning _ a => a.place
  | .draining _ stage _ => stage.place .uniqueWait .uniqueWoken
  | .acquired _ => .location .uniqueAcquired
  | .refused => .location .tryUniqueFailed
  | .reopening _ n => n.place (.location .notifyShared) .all
  | .passingOn _ n => n.place (.location .notifyUnique) .one
  | .released => .location .uniqueReleased
  | .registering _ _ e => e.place
  | .registered _ _ => .location .nodeRegistered
  | .fastPath => .location .sharedFastPath
  | .contended _ => .location .sharedContended
  | .arriving _ => .unseen
  | .prodding _ _ n => n.place (.location .notifyUnique) .one
  | .waiting _ stage _ => stage.place .sharedWait .sharedWoken
  | .sharedRefused => .location .trySharedFailed
  | .leaving _ => .location .unlockSharedBegin
  | .handingOff why stage _ => stage.place why
  | .counting a => a.place
  | .departing _ _ e => e.place
  | .departed _ => .location .nodeDeregistered
  | .abandoned => .location .nodeAbandoned

namespace State

/-- The terms on which callers wait: the configuration, as it comes out on the host. -/
def terms (s : State) : Config := s.config.on s.host

/-- What keeps a thread from reading the registry. -/
def readObstacle (s : State) : Access → Option Obstacle
  | .wanted => if s.registry.canRead then none else some .blocked
  | .inside => none

/-- What keeps a thread from changing the registry. -/
def writeObstacle (s : State) : Edit → Option Obstacle
  | .wanted => if s.registry.canReserve s.host then none else some .blocked
  | .reserved => if s.registry.readers.isEmpty then none else some .blocked
  | .inside => none

/-- What keeps a thread from taking the gate. -/
def gateObstacle (s : State) : Option Obstacle := if s.gate.isSome then some .blocked else none

/-- How diagnostics show a lock whose claim and number of registered threads are given. -/
def shown (id : Nat) (claim : Claim) (registered : Nat) : Text.Shown :=
  .part "RuSharedMutex" [
    ("id", .wrapped "LockId" (.number id)),
    ("uniq", .atom claim.name),
    ("registered_threads", .number registered)]

end State

/-- What keeps a thread at `pc` from its next turn. -/
def obstacle (t : ThreadId) (s : State) : Pc → Option Obstacle
  | .entering | .arriving _ => s.gateObstacle
  | .scanning _ a | .counting a => s.readObstacle a
  | .draining _ stage _ => Wait.obstacle t s.gate s.drained stage
  | .waiting _ stage _ => Wait.obstacle t s.gate s.reopened stage
  | .registering _ _ e | .departing _ _ e => s.writeObstacle e
  | .handingOff _ (.checking a) _ | .handingOff _ (.rechecking a) _ => s.readObstacle a
  | _ => none

/-- A thread leaves every queue in which it is parked. -/
def wake (t : ThreadId) (s : State) : State :=
  { s with drained := s.drained.forget t, reopened := s.reopened.forget t }

end ReaderWriter.ReadMostly
