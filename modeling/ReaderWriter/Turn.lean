import ReaderWriter.Duration
import ReaderWriter.Location
import ReaderWriter.Word

/-!
# Turns

A thread works on a lock in turns. A turn is what the thread does without interruption between two
places where it can be held, or between the last such place and the end of its operation. Every
lock is a function from a thread, the lock's state and the thread's place to the turn it takes.
-/

namespace ReaderWriter

/-- What a lock can be asked to do. -/
inductive Operation where
  /-- Take the lock, waiting as long as it takes. -/
  | acquire (mode : Mode)
  /-- Take the lock if that is possible now. -/
  | tryAcquire (mode : Mode)
  /-- Give the lock up. -/
  | release (mode : Mode)
deriving DecidableEq

/-- What an operation answers. -/
inductive Answer where
  | unit
  | granted (yes : Bool)
  | count (n : Nat)
deriving DecidableEq

/-- Where a thread is after a turn. -/
inductive Stand (Pc : Type) where
  /-- It can be held here. -/
  | here (pc : Pc)
  /-- Its operation has ended. -/
  | done (answer : Answer)
  /-- It ran into a broken contract, which ends the operation too. -/
  | fault (fault : Fault)
deriving DecidableEq

/-- Something that is worth telling an observer, other than the place where a thread stands.
Locks are told apart by their numbers. -/
inductive Note where
  /-- A writer found the lock taken. -/
  | writerBlocks
  /-- A reader found the lock taken. -/
  | readerBlocks
  /-- A writer waits for the readers to leave. -/
  | writerDrains (lock : Nat)
  /-- A reader found a writer. -/
  | readerYieldsWay (lock : Nat)
  /-- A thread was entered into the registry. -/
  | registered (lock : Nat)
  /-- A thread was taken off the registry. -/
  | deregistered (lock : Nat)
  /-- A thread ends and still holds a shared lock. -/
  | leftHolding (lock : Nat)
  /-- A lock went away while flags were raised. -/
  | droppedHeld (lock : Nat) (raised : Nat)
  /-- A timed acquisition gave up. -/
  | expired (waited : Duration)
  /-- A flag was handed out by a supply that reports it. -/
  | handedOut (slot : Nat)
  /-- A call made during the teardown of a thread ended. -/
  | torn (call : String) (ending : String)
deriving DecidableEq

namespace Note

/-- A line of the log. -/
def log (level message : String) (fields : List (String × String)) : String :=
  "log:" ++ level ++ ":" ++ message ++
    String.join (fields.map fun field => " " ++ field.1 ++ "=" ++ field.2)

/-- The name of a read-mostly lock. -/
def lockName (lock : Nat) : String := "ru-" ++ Nat.repr lock

/-- The field that names a lock. -/
def ofLock (lock : Nat) : String × String := ("lock_id", lockName lock)

/-- Whether the note says that a thread was taken off a registry. -/
def isDeregistered : Note → Bool
  | .deregistered _ => true
  | _ => false

/-- The text of a note. -/
def text : Note → String
  | .writerBlocks => log "TRACE" "writer entering blocking path" []
  | .readerBlocks => log "TRACE" "reader entering blocking path" []
  | .writerDrains lock => log "TRACE" "writer waiting for readers to drain" [ofLock lock]
  | .readerYieldsWay lock => log "TRACE" "reader entering slow path" [ofLock lock]
  | .registered lock => log "TRACE" "thread node registered" [ofLock lock]
  | .deregistered lock => log "TRACE" "thread node deregistered" [ofLock lock]
  | .leftHolding lock => log "WARN" "thread exiting while holding a shared lock" [ofLock lock]
  | .droppedHeld lock raised =>
      log "WARN" "rarely-unique mutex dropped while shared flags are set"
        [ofLock lock, ("stale", Nat.repr raised)]
  | .expired waited => log "TRACE" "timed lock acquisition expired" [("waited", waited.text)]
  | .handedOut slot =>
      "alloc>" ++
        (Text.Shown.whole "SharingFlag" [("slot", .number slot), ("set", .truth false)]).line
  | .torn call ending => "teardown:" ++ call ++ "=" ++ ending

end Note

/-- A turn of a thread: what it leaves behind, where it ends, and what it tells. -/
structure Turn (State Pc : Type) where
  state : State
  stand : Stand Pc
  notes : List Note := []

end ReaderWriter
