import ReaderWriter.World.Endings

/-!
# Turns of the world

What one thread can do to the world: begin a call, arm a call for its end, begin to end, take its
next turn, and wake from a condition variable without having been notified.
-/

namespace ReaderWriter

/-- How the activity of a thread comes to its end. -/
inductive Finish where
  | replied (reply : Reply)
  | faulted (fault : Fault)
  | gone
deriving DecidableEq

/-- What a turn leaves behind. -/
structure Moved where
  world : World
  /-- The activity of the thread has ended, like this. -/
  finish : Option Finish := none
  notes : List Note := []

namespace World

/-- A thread goes on with a call. -/
def settleCall (t : ThreadId) (called : Called) : Moved :=
  match called.outcome with
  | .going frame =>
      { world := called.world.withActivity t (.calling frame), notes := called.notes }
  | .replied reply =>
      { world := called.world.withActivity t .idle
        finish := some (.replied reply)
        notes := called.notes }
  | .faulted fault =>
      { world := called.world.withActivity t .idle
        finish := some (.faulted fault)
        notes := called.notes }

/-- A thread goes on with its end. -/
def settleEnding (t : ThreadId) (ended : Ended) : Moved :=
  match ended.ending with
  | some e => { world := ended.world.withActivity t (.ending e), notes := ended.notes }
  | none =>
      { world := ended.world.withActivity t .gone, finish := some .gone, notes := ended.notes }

/-- A thread begins a call on the lock at index `m`. -/
def call (w : World) (t : ThreadId) (m : Nat) (call : Call) : Moved :=
  settleCall t (w.beginCall t m call)

/-- A thread arms a call for its end. -/
def arm (w : World) (t : ThreadId) (armed : Armed) : Moved :=
  let th := w.thread t
  { world :=
      w.withThread t
        { th with locals := th.locals.touch .armed, armed := th.armed ++ [armed] }
    finish := some (.replied .nothing) }

/-- A thread begins to end. -/
def exit (w : World) (t : ThreadId) : Moved := settleEnding t (w.resumeEnding t {})

/-- The next turn of a thread. A thread that is idle or gone has none. -/
def turn (w : World) (t : ThreadId) : Moved :=
  match (w.thread t).activity with
  | .calling frame => settleCall t (w.resumeCall t frame)
  | .ending e => settleEnding t (w.resumeEnding t e)
  | .idle | .gone => { world := w }

/-- What keeps a thread from its next turn. -/
def obstacle (w : World) (t : ThreadId) : Option Obstacle :=
  match (w.thread t).activity with
  | .calling frame => w.callObstacle t frame
  | .ending e => w.endingObstacle t e
  | .idle | .gone => none

/-- How a thread is seen between two turns. -/
def place (w : World) (t : ThreadId) : Place :=
  match (w.thread t).activity with
  | .calling frame => w.callPlace frame
  | .ending e => w.endingPlace e
  | .idle | .gone => .unseen

/-- A thread leaves the queues of a lock. -/
def wakeIn (t : ThreadId) (l : Lock) : Lock :=
  match l.body with
  | .blocking s => { l with body := .blocking (Blocking.wake t s) }
  | .polling _ => l
  | .readMostly s => { l with body := .readMostly (ReadMostly.wake t s) }

/-- A parked thread wakes without having been notified. Any other thread is left alone. -/
def wake (w : World) (t : ThreadId) : World :=
  if w.obstacle t = some .parked then { w with locks := w.locks.map (wakeIn t) } else w

end World

end ReaderWriter
