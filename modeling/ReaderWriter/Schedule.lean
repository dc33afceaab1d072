import ReaderWriter.World.Turns

/-!
# Schedules

A schedule drives the world step by step. A step lets one thread run alone until its call ends or
it stops. On its way the thread passes points, which are written to the trace of the step:

* named points, yields and sleeps are counted; the thread stops at a counted point if the point's
  name is asked for or if it is the last one that the step allows;
* notifications are not counted; the thread stops inside one if its name is asked for;
* a registry's lock leaves no trace; the thread stops holding it if that is asked for.

It also stops when it cannot go on. Notes are written to the trace as they come.
-/

namespace ReaderWriter

namespace Place

/-- The name by which a schedule can ask a thread to stop here. -/
def name? : Place → Option String
  | .unseen => none
  | .location l => some l.name
  | .yielding => some "yield"
  | .sleeping _ => some "sleep"
  | .notifying wakes _ => some wakes.name
  | .inRegistry true => some "registry_write"
  | .inRegistry false => some "registry_read"

/-- What a place adds to the trace. -/
def trace? : Place → Option String
  | .unseen | .inRegistry _ => none
  | .location l => some l.name
  | .yielding => some "yield"
  | .sleeping nanos => some ("sleep>" ++ Nat.repr nanos)
  | .notifying wakes woken => some (wakes.name ++ ">" ++ ",".intercalate (woken.map Nat.repr))

/-- Whether the place is counted. -/
def isCounted : Place → Bool
  | .location _ | .yielding | .sleeping _ => true
  | .unseen | .notifying _ _ | .inRegistry _ => false

end Place

namespace Schedule

/-- Where the thread of a step stops. -/
structure Stops where
  /-- The names of the places at which it stops. -/
  names : List String := []
  /-- The number of counted points that it may pass. -/
  points : Nat := 40

/-- Whether a thread stops at a place that is the `n`-th counted one, if it is counted. -/
def Stops.stopsAt (stops : Stops) (place : Place) (n : Nat) : Bool :=
  place.name?.any (stops.names.contains ·) || (place.isCounted && decide (max stops.points 1 ≤ n))

/-- How a step ends. -/
inductive Status where
  /-- There is no such thread. -/
  | bad
  /-- The thread has ended before. -/
  | gone
  /-- The thread has nothing to resume. -/
  | idle
  /-- The thread has a call under way. -/
  | busy
  /-- There is no such lock, or it was dropped. -/
  | noLock
  /-- The lock cannot be dropped: a call under way uses it. -/
  | inUse
  /-- The call has ended. -/
  | done (reply : Reply)
  | panicked (fault : Fault)
  /-- The thread stands at a place of this name. -/
  | paused (name : String)
  | stuck (o : Obstacle)
  /-- The thread has ended. -/
  | exited
  /-- The clock stands at this reading. -/
  | clock (now : Int)
  /-- A lock was made; this is its index. -/
  | made (lock : Nat)
  /-- The thread is still running. -/
  | running
deriving DecidableEq

/-- The answer to a step. -/
structure Report where
  status : Status
  /-- What the thread passed, if one ran. -/
  trace : Option (List String) := none

/-- What a thread has passed in a step so far. -/
structure Passed where
  trace : List String := []
  counted : Nat := 0
  /-- How many registries the thread has left. -/
  departures : Nat := 0

namespace Passed

/-- The notes of a turn are passed. -/
def notes (p : Passed) (notes : List Note) : Passed :=
  { p with
    trace := p.trace ++ notes.map Note.text
    departures := p.departures + (notes.filter Note.isDeregistered).length }

/-- A place is passed. -/
def place (p : Passed) (place : Place) : Passed :=
  { p with
    trace := p.trace ++ place.trace?.toList
    counted := p.counted + if place.isCounted then 1 else 0 }

/-- The order of texts by their bytes. -/
def textLe (a b : String) : Bool := !decide (b < a)

/-- The trace as it is reported. The order in which a thread leaves several registries is not
fixed, so a trace of more than one such departure is sorted. -/
def reported (p : Passed) : List String :=
  if 1 < p.departures then p.trace.mergeSort textLe else p.trace

end Passed

/-- How a step ends when the activity of its thread has. -/
def Status.ofFinish : Finish → Status
  | .replied reply => .done reply
  | .faulted fault => .panicked fault
  | .gone => .exited

/-- Lets a thread run on after it has moved, for at most `fuel` further turns. -/
def drive (stops : Stops) (t : ThreadId) (passed : Passed) (moved : Moved) :
    Nat → World × Passed × Status
  | 0 => (moved.world, passed.notes moved.notes, .running)
  | fuel + 1 =>
      let w := moved.world
      let passed := passed.notes moved.notes
      match moved.finish with
      | some finish => (w, passed, .ofFinish finish)
      | none =>
          let place := w.place t
          let passed := passed.place place
          if stops.stopsAt place passed.counted then
            (w, passed, .paused (place.name?.getD ""))
          else
            match w.obstacle t with
            | some o => (w, passed, .stuck o)
            | none => drive stops t passed (w.turn t) fuel

/-- The most spinning steps that a backoff in this world makes. -/
def maxSpins (w : World) : Nat :=
  w.locks.foldl (fun n l => max n l.config.maxSpins.toNat) Config.standard.maxSpins.toNat

/-- The calls and nodes that a thread that ends has yet to see to, counted high: a call made at the
end can bring one more node into use. -/
def burden (w : World) (t : ThreadId) : Nat :=
  let th := w.thread t
  let left :=
    match th.activity with
    | .ending e => e.armed.length
    | .idle | .calling _ | .gone => 0
  2 * (th.armed.length + left) + w.locks.length

/-- More turns than a thread can make in a step. Between two counted points a hand-off or a wait
makes at most eight turns for each spinning step of a backoff; a timed call makes at most eleven
attempts, each with a hand-off of its own; an ending thread has its armed calls and its nodes to see
to, and few things to tear down. -/
def patience (w : World) (t : ThreadId) (stops : Stops) : Nat :=
  (max stops.points 1 + 1) * (burden w t + 8) * (16 * (8 * maxSpins w + 40))

/-- Lets a thread run that has just moved. -/
def run (stops : Stops) (t : ThreadId) (moved : Moved) : World × Report :=
  let (w, passed, status) := drive stops t {} moved (patience moved.world t stops)
  (w, { status := status, trace := some passed.reported })

/-- Lets a thread run on from where it stands. -/
def resume (stops : Stops) (w : World) (t : ThreadId) : World × Report :=
  match w.obstacle t with
  | some o => (w, { status := .stuck o, trace := some [] })
  | none => run stops t (w.turn t)

/-- What a step lets a thread begin. -/
inductive Request where
  | call (lock : Nat) (call : Call)
  | arm (armed : Armed)
  | exit

/-- What a step asks for. -/
inductive Step where
  /-- The clock moves. -/
  | advance (nanos : Int)
  /-- A lock is made. -/
  | make (kind : Kind) (config : Config)
  /-- A thread begins something. -/
  | begin (t : ThreadId) (request : Request) (stops : Stops)
  /-- A thread goes on; if it is parked it may wake without having been notified. -/
  | resume (t : ThreadId) (spurious : Bool) (stops : Stops)
  /-- A step that makes no sense. -/
  | bad

/-- A step whose thread does not run. -/
def refuse (w : World) (status : Status) : World × Report := (w, { status := status })

/-- An idle thread begins something. -/
def begin (stops : Stops) (w : World) (t : ThreadId) : Request → World × Report
  | .exit => run stops t (w.exit t)
  | .arm armed =>
      if (w.lock? armed.lock).isNone then refuse w .noLock else run stops t (w.arm t armed)
  | .call lock call =>
      if (w.lock? lock).isNone then refuse w .noLock
      else if call = .drop ∧ w.isInUse lock then refuse w .inUse
      else run stops t (w.call t lock call)

/-- One step. -/
def step (w : World) : Step → World × Report
  | .bad => refuse w .bad
  | .advance nanos =>
      let w' := { w with clock := w.clock + nanos }
      refuse w' (.clock w'.clock)
  | .make kind config => refuse (w.addLock kind config) (.made w.locks.length)
  | .begin t request stops =>
      match (w.thread t).activity with
      | .gone => refuse w .gone
      | .idle => begin stops w t request
      | .calling _ | .ending _ => refuse w .busy
  | .resume t spurious stops =>
      match (w.thread t).activity with
      | .gone => refuse w .gone
      | .idle => refuse w .idle
      | .calling _ | .ending _ => resume stops (if spurious then w.wake t else w) t

/-- What the state of a lock shows between two steps. -/
inductive LockView where
  | dropped
  | word (bits : UInt32)
  | claim (claim : ReadMostly.Claim) (registered : Nat)

/-- The view of a lock. -/
def LockView.of (l : Lock) : LockView :=
  if l.owned then
    match l.body with
    | .blocking s => .word s.word.bits
    | .polling s => .word s.word.bits
    | .readMostly s => .claim s.claim s.registry.entries.length
  else .dropped

/-- Runs a schedule; each step answers with its report and the locks after it. -/
def runSteps (w : World) : List Step → List (Report × List LockView)
  | [] => []
  | s :: rest =>
      let (w', report) := step w s
      (report, w'.locks.map .of) :: runSteps w' rest

/-- The world with locks of the given kinds and nothing else. -/
def initial (specs : List (Kind × Config)) (host : Host := {}) : World :=
  specs.foldl (fun w spec => w.addLock spec.1 spec.2) { host := host }

end Schedule

end ReaderWriter
