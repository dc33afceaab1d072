import ReaderWriter.World.Calls

/-!
# The end of a thread

A thread that ends tears down what it keeps, the latest thing first. The calls that were armed are
made then, in order; the nodes leave the registries of the locks that are still alive. Both can be
held up in the middle, like any call. What a teardown brings into use is torn down afterwards.
-/

namespace ReaderWriter

open ReadMostly (Item)

/-- What a turn of an ending thread leaves behind; it is gone if nothing remains to be done. -/
structure Ended where
  world : World
  ending : Option Ending
  notes : List Note := []

/-- The end of an armed call, in writing. -/
def Outcome.written? : Outcome → Option String
  | .going _ => none
  | .replied r => some r.written
  | .faulted f => some ("panic " ++ f.message)

namespace World

/-- An ending thread goes on with an armed call. -/
def settleArmed (e : Ending) (name : String) (called : Called) : Ended :=
  match called.outcome with
  | .going frame =>
      { world := called.world
        ending := some { e with chore := some (.call name frame) }
        notes := called.notes }
  | outcome =>
      { world := called.world
        ending := some { e with chore := none }
        notes := called.notes ++ [.torn name (outcome.written?.getD "")] }

/-- An ending thread makes its next armed call. A lock that was dropped cannot be called. -/
def beginArmed (w : World) (t : ThreadId) (e : Ending) (armed : Armed) : Ended :=
  match w.lock? armed.lock with
  | some l => settleArmed e armed.name (w.beginCallOn t armed.lock l armed.call)
  | none => { world := w, ending := some e, notes := [.torn armed.name "gone"] }

/-- An ending thread has left the registry of a lock. If it was the last one that kept the lock
from going, the lock goes. -/
def leftRegistry (w : World) (t : ThreadId) (m : Nat) (e : Ending) : Ended :=
  let e' := { e with chore := none }
  let w' := w.withActivity t (.ending e')
  if w'.isAlive m then { world := w', ending := some e' }
  else
    let (w'', notes) := w'.dissolve m
    { world := w'', ending := some e', notes := notes }

/-- An ending thread goes on leaving the registry of the lock at index `m`. -/
def settleNode (t : ThreadId) (m : Nat) (e : Ending) (worked : Worked) : Ended :=
  match worked.stand with
  | .here (.readMostly pc) =>
      { world := worked.world
        ending := some { e with chore := some (.node m pc) }
        notes := worked.notes }
  | _ =>
      let ended := worked.world.leftRegistry t m e
      { ended with notes := worked.notes ++ ended.notes }

/-- An ending thread begins to leave the registry of the lock at index `m`. If the lock has gone
there is nothing to leave. -/
def beginNode (w : World) (t : ThreadId) (m : Nat) (f : ReadMostly.Flag) (e : Ending) : Ended :=
  if w.isAlive m then
    match w.locks[m]? with
    | some l =>
        match l.body with
        | .readMostly s =>
            settleNode t m e (w.workReadMostly t m l s fun sc site => ReadMostly.depart sc f site)
        | .blocking _ | .polling _ => { world := w, ending := some e }
    | none => { world := w, ending := some e }
  else { world := w, ending := some e }

/-- An ending thread tears down the latest thing that it keeps. -/
def tearDown (w : World) (t : ThreadId) (e : Ending) : Ended :=
  let th := w.thread t
  match th.locals.tearDown? with
  | none => { world := w, ending := none }
  | some (.nodes, locals) =>
      { world := w.withThread t { th with locals := { locals with nodes := [] } }
        ending := some { e with nodes := locals.nodes } }
  | some (.armed, locals) =>
      { world := w.withThread t { th with locals := locals, armed := [] }
        ending := some { e with armed := th.armed } }
  | some (.block, locals) | some (.pair, locals) =>
      { world := w.withThread t { th with locals := locals }, ending := some e }

/-- The next turn of an ending thread. -/
def resumeEnding (w : World) (t : ThreadId) (e : Ending) : Ended :=
  match e.chore with
  | some (.call name frame) => settleArmed e name (w.resumeCall t frame)
  | some (.node m pc) => settleNode t m e (w.resumeOperation t m (.readMostly pc))
  | none =>
      match e.nodes, e.armed with
      | (m, f) :: rest, _ => w.beginNode t m f { e with nodes := rest }
      | [], armed :: rest => w.beginArmed t { e with armed := rest } armed
      | [], [] => w.tearDown t e

/-- What keeps an ending thread from its next turn. -/
def endingObstacle (w : World) (t : ThreadId) (e : Ending) : Option Obstacle :=
  match e.chore with
  | some (.call _ frame) => w.callObstacle t frame
  | some (.node m pc) => w.operationObstacle t m (.readMostly pc)
  | none => none

/-- How an ending thread is seen. -/
def endingPlace (w : World) (e : Ending) : Place :=
  match e.chore with
  | some (.call _ frame) => w.callPlace frame
  | some (.node m pc) => w.operationPlace m (.readMostly pc)
  | none => .unseen

end World

end ReaderWriter
