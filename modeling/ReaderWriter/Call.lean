import ReaderWriter.Failure
import ReaderWriter.Retry
import ReaderWriter.Text.Quoted
import ReaderWriter.Turn

/-!
# Calls

What a thread can call on a lock, and what a call replies. Beside the operations of every lock
there are the calls that hand out guards, timed calls, calls on a lock that carries data, and
diagnostics.

A guard stands for a lock that is held until the guard is given back.
-/

namespace ReaderWriter

/-- A call on a lock. -/
inductive Call where
  /-- One of the operations. -/
  | operate (op : Operation)
  /-- Take the lock and hand out a guard. -/
  | guard (mode : Mode)
  /-- Hand out a guard if the lock can be had now. -/
  | tryGuard (mode : Mode)
  /-- Give a guard back. -/
  | giveBack (mode : Mode)
  /-- Take the lock within a time limit, and hand out a guard if `guarded`. -/
  | timed (mode : Mode) (limit : TimeLimit) (guarded : Bool)
  /-- Append a value to the data. -/
  | push (value : Int)
  /-- Append a value to the data if the lock can be had now. -/
  | tryPush (value : Int)
  /-- Read the data. -/
  | get
  /-- Read the data if the lock can be had now. -/
  | tryGet
  /-- Whether anyone holds the lock. -/
  | isLocked
  /-- The diagnostic text of the lock, spread over lines or in one. -/
  | debug (spread : Bool)
  /-- The name of the lock. -/
  | identity
  /-- How many threads are registered with the lock. -/
  | registered
  /-- Drop the lock. -/
  | drop
  /-- Anything else. -/
  | unknown
deriving DecidableEq

namespace Call

/-- The arguments that a call may have. -/
structure Arguments where
  timeout : Duration := ⟨0⟩
  offset : Int := 0
  value : Int := 0
  spread : Bool := false

/-- The call of the given name. -/
def named (name : String) (args : Arguments) : Call :=
  match name with
  | "lock" => .operate (.acquire .unique)
  | "try_lock" => .operate (.tryAcquire .unique)
  | "unlock" => .operate (.release .unique)
  | "lock_shared" => .operate (.acquire .shared)
  | "try_lock_shared" => .operate (.tryAcquire .shared)
  | "unlock_shared" => .operate (.release .shared)
  | "write" => .guard .unique
  | "read" => .guard .shared
  | "try_write" => .tryGuard .unique
  | "try_read" => .tryGuard .shared
  | "release_write" => .giveBack .unique
  | "release_read" => .giveBack .shared
  | "try_write_for" => .timed .unique (.within args.timeout) true
  | "try_read_for" => .timed .shared (.within args.timeout) true
  | "try_lock_for" => .timed .unique (.within args.timeout) false
  | "try_lock_shared_for" => .timed .shared (.within args.timeout) false
  | "try_lock_until" => .timed .unique (.offset args.offset) false
  | "try_lock_shared_until" => .timed .shared (.offset args.offset) false
  | "push" => .push args.value
  | "try_push" => .tryPush args.value
  | "get" => .get
  | "try_get" => .tryGet
  | "is_locked" => .isLocked
  | "debug" => .debug args.spread
  | "id" => .identity
  | "registered" => .registered
  | "drop" => .drop
  | _ => .unknown

end Call

/-- The diagnostic text of a guard. -/
def guardShown : Mode → Text.Shown
  | .unique => .part "ExclusiveGuard" []
  | .shared => .part "SharedGuard" []

/-- What a call replies. -/
inductive Reply where
  | nothing
  | truth (b : Bool)
  | number (n : Int)
  | numbers (values : List Int)
  | text (s : String)
  /-- A guard of the lock that was called. -/
  | guard (mode : Mode)
  | failed (f : Failure)
deriving DecidableEq

namespace Reply

/-- The reply of an operation. -/
def ofAnswer : Answer → Reply
  | .unit => .nothing
  | .granted yes => .truth yes
  | .count n => .number n

/-- The reply of a timed call that got the lock. -/
def taken (mode : Mode) (guarded : Bool) : Reply := if guarded then .guard mode else .text "ok"

/-- The reply of a call that hands out a guard if the operation granted the lock. -/
def guardIf (mode : Mode) : Answer → Reply
  | .granted false => .failed .wouldBlock
  | _ => .guard mode

/-- A reply in writing: numbers, quoted texts, lists in brackets and named fields in braces. -/
def written : Reply → String
  | .nothing => "null"
  | .truth b => if b then "true" else "false"
  | .number n => toString n
  | .numbers values => "[" ++ ",".intercalate (values.map toString) ++ "]"
  | .text s => Text.quoted s
  | .guard mode => "[" ++ Text.quoted (guardShown mode).line ++ ",true]"
  | .failed f =>
      "\x7b\"error\":" ++ Text.quoted f.kind ++ ",\"message\":" ++ Text.quoted f.message ++ "\x7d"

end Reply

end ReaderWriter
