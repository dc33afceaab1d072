import ReaderWriter.World.Basic

/-!
# Operations in the world

A thread works on the lock at an index: the lock's own turn, with the flags and what the thread
keeps taken from the world and put back.
-/

namespace ReaderWriter

/-- What a turn of an operation leaves behind. -/
structure Worked where
  world : World
  stand : Stand Progress
  notes : List Note := []

namespace Stand

/-- The same stand among the places of all locks. -/
def lift {Pc : Type} (f : Pc → Progress) : Stand Pc → Stand Progress
  | .here pc => .here (f pc)
  | .done answer => .done answer
  | .fault e => .fault e

end Stand

namespace World

/-- A turn on a read-mostly lock. -/
def workReadMostly (w : World) (t : ThreadId) (m : Nat) (l : Lock) (s : ReadMostly.State)
    (turn : ReadMostly.Scene → ReadMostly.Site → ReadMostly.Step) : Worked :=
  let th := w.thread t
  let step := turn ⟨t, m, w.isAlive⟩ ⟨s, w.flags, th.locals⟩
  let site := step.state
  { world :=
      { (w.withLock m { l with body := .readMostly site.lock }).withThread t
          { th with locals := site.locals } with
        flags := site.flags }
    stand := step.stand.lift .readMostly
    notes := step.notes }

/-- The first turn of an operation on the lock at index `m`. -/
def startOperation (w : World) (t : ThreadId) (m : Nat) (op : Operation) : Worked :=
  match w.locks[m]? with
  | none => { world := w, stand := .done .unit }
  | some l =>
      match l.body with
      | .blocking s =>
          let turn := Blocking.start op s
          { world := w.withLock m { l with body := .blocking turn.state }
            stand := turn.stand.lift .blocking
            notes := turn.notes }
      | .polling s =>
          let turn := Polling.start op s
          { world := w.withLock m { l with body := .polling turn.state }
            stand := turn.stand.lift .polling
            notes := turn.notes }
      | .readMostly s => w.workReadMostly t m l s fun sc site => ReadMostly.start sc op site

/-- The next turn of a thread that stands at a place of an operation on the lock at index `m`. A
place that is not one of this lock's cannot come about; its operation would end. -/
def resumeOperation (w : World) (t : ThreadId) (m : Nat) (p : Progress) : Worked :=
  match w.locks[m]? with
  | none => { world := w, stand := .done .unit }
  | some l =>
      match l.body, p with
      | .blocking s, .blocking pc =>
          let turn := Blocking.resume t pc s
          { world := w.withLock m { l with body := .blocking turn.state }
            stand := turn.stand.lift .blocking
            notes := turn.notes }
      | .polling s, .polling pc =>
          let turn := Polling.resume pc s
          { world := w.withLock m { l with body := .polling turn.state }
            stand := turn.stand.lift .polling
            notes := turn.notes }
      | .readMostly s, .readMostly pc =>
          w.workReadMostly t m l s fun sc site => ReadMostly.resume sc pc site
      | _, _ => { world := w, stand := .done .unit }

/-- What keeps a thread from its next turn at a place of an operation. -/
def operationObstacle (w : World) (t : ThreadId) (m : Nat) (p : Progress) : Option Obstacle :=
  match w.locks[m]? with
  | none => none
  | some l =>
      match l.body, p with
      | .blocking s, .blocking pc => Blocking.obstacle t s pc
      | .readMostly s, .readMostly pc => ReadMostly.obstacle t s pc
      | _, _ => none

/-- How a place of an operation on the lock at index `m` is seen. -/
def operationPlace (w : World) (m : Nat) (p : Progress) : Place :=
  match w.locks[m]? with
  | none => .unseen
  | some l => l.see p.place

/-- A read-mostly lock goes: its registry lowers every flag that is still on it. -/
def dissolve (w : World) (m : Nat) : World × List Note :=
  match w.locks[m]? with
  | some l =>
      match l.body with
      | .readMostly s =>
          let raised := s.registry.raisedCount w.flags
          ({ w.withLock m { l with body := .readMostly { s with registry := {} } } with
              flags := s.registry.lowerAll w.flags },
            if raised = 0 then [] else [.droppedHeld s.id raised])
      | .blocking _ | .polling _ => (w, [])
  | none => (w, [])

/-- The lock at an index is dropped. It goes at once, unless a thread is leaving its registry. -/
def dropLock (w : World) (m : Nat) : World × List Note :=
  match w.locks[m]? with
  | some l =>
      let w' := w.withLock m { l with owned := false }
      if w.hasDeparting m then (w', []) else w'.dissolve m
  | none => (w, [])

end World

end ReaderWriter
