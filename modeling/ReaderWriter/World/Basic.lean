import ReaderWriter.Call
import ReaderWriter.Lock

/-!
# The world

Any number of locks and threads, the memory of the flags, and a clock. A thread is idle, in a call,
ending, or gone; a thread in a call stands at a place of it. The world changes by the turns of its
threads, one at a time.

This module holds the state of the world. `Operations` lets a thread work on a lock, `Calls` makes
calls out of operations, `Endings` lets a thread end, and `Turns` puts them together.
-/

namespace ReaderWriter

/-- What remains to be done in a call once the operation under way has ended. -/
inductive Task where
  /-- Reply what the operation answers. -/
  | answer
  /-- Reply with a guard if the operation granted the lock. -/
  | guard (mode : Mode)
  /-- Reply this. -/
  | say (reply : Reply)
  /-- Append a value to the data and release the lock. -/
  | push (value : Int)
  /-- Read the data and release the lock. -/
  | get
  /-- Reply the diagnostic text of a read-mostly lock whose claim was read before. -/
  | debug (id : Nat) (claim : ReadMostly.Claim) (spread : Bool)
  /-- Try again if the operation did not grant the lock. -/
  | retry (mode : Mode) (guarded : Bool) (r : Retry)
deriving DecidableEq

/-- Where a thread stands in a call. -/
inductive Position where
  /-- In an operation of the lock. -/
  | operating (p : Progress)
  /-- Between two timed attempts, after a step of the backoff that did not yield. -/
  | spun
  /-- Between two timed attempts, in a yield. -/
  | yielding
  /-- Between two timed attempts, in a sleep. -/
  | sleeping (nanos : Nat)
deriving DecidableEq

/-- A call under way. -/
structure Frame where
  /-- The index of the lock. -/
  lock : Nat
  task : Task
  position : Position
deriving DecidableEq

/-- A call to be made when the thread ends. -/
structure Armed where
  name : String
  lock : Nat
  call : Call
deriving DecidableEq

/-- What an ending thread is busy with. -/
inductive Chore where
  /-- An armed call. -/
  | call (name : String) (frame : Frame)
  /-- Taking its flag off the registry of a lock. -/
  | node (lock : Nat) (pc : ReadMostly.Pc)
deriving DecidableEq

/-- The end of a thread under way: what it is busy with, and what it has yet to do before it tears
down the next thing it keeps. -/
structure Ending where
  chore : Option Chore := none
  armed : List Armed := []
  nodes : List (Nat × ReadMostly.Flag) := []
deriving DecidableEq

/-- What a thread is doing. -/
inductive Activity where
  | idle
  | calling (frame : Frame)
  | ending (e : Ending)
  | gone
deriving DecidableEq

/-- A thread. -/
structure Thread where
  activity : Activity := .idle
  locals : ReadMostly.Locals := {}
  /-- The calls to be made when the thread ends, in order. -/
  armed : List Armed := []
deriving DecidableEq

instance : Inhabited Thread := ⟨{}⟩

/-- Everything there is. -/
structure World where
  /-- Where it all runs. -/
  host : Host := {}
  /-- The reading of the clock in nanoseconds. -/
  clock : Int := 0
  locks : List Lock := []
  flags : ReadMostly.Flags := {}
  threads : Table Thread := {}

namespace Ending

/-- The lock from whose registry the thread is taking its flag. -/
def departingFrom? (e : Ending) : Option Nat :=
  match e.chore with
  | some (.node lock _) => some lock
  | _ => none

end Ending

namespace Thread

/-- The lock from whose registry the thread is taking its flag. -/
def departingFrom? (th : Thread) : Option Nat :=
  match th.activity with
  | .ending e => e.departingFrom?
  | _ => none

/-- The call under way, be it the thread's own or an armed one. -/
def frame? (th : Thread) : Option Frame :=
  match th.activity with
  | .calling frame => some frame
  | .ending { chore := some (.call _ frame), .. } => some frame
  | _ => none

end Thread

namespace World

/-- The thread of the given number. -/
def thread (w : World) (t : ThreadId) : Thread := w.threads.get t

/-- The world with another thread of the given number. -/
def withThread (w : World) (t : ThreadId) (th : Thread) : World :=
  { w with threads := w.threads.set t th }

/-- The world in which a thread does something else. -/
def withActivity (w : World) (t : ThreadId) (a : Activity) : World :=
  w.withThread t { w.thread t with activity := a }

/-- The world with another lock at an index. -/
def withLock (w : World) (m : Nat) (l : Lock) : World := { w with locks := w.locks.set m l }

/-- The lock at an index that has not been dropped. -/
def lock? (w : World) (m : Nat) : Option Lock := w.locks[m]?.filter (·.owned)

/-- Some thread is taking its flag off the registry of this lock. -/
def hasDeparting (w : World) (m : Nat) : Bool :=
  w.threads.entries.any fun th => th.departingFrom? == some m

/-- The registry of a lock lives while the lock does, and while a thread is leaving it. -/
def isAlive (w : World) (m : Nat) : Bool := (w.lock? m).isSome || w.hasDeparting m

/-- A call under way uses this lock. -/
def isInUse (w : World) (m : Nat) : Bool :=
  w.threads.entries.any fun th => th.frame?.any fun frame => frame.lock == m

/-- The world with one more lock. Read-mostly locks are numbered from 1. -/
def addLock (w : World) (kind : Kind) (config : Config) : World :=
  { w with
    locks :=
      w.locks ++ [.make kind config ((w.locks.filter Lock.isReadMostly).length + 1) w.host] }

end World

end ReaderWriter
