import ReaderWriter.World.Operations

/-!
# Calls in the world

A call is a row of operations on one lock, with something done in between. A frame records the
operation under way and what remains.
-/

namespace ReaderWriter

/-- Where a call is after a turn. -/
inductive Outcome where
  | going (frame : Frame)
  | replied (reply : Reply)
  | faulted (fault : Fault)
deriving DecidableEq

/-- What a turn of a call leaves behind. -/
structure Called where
  world : World
  outcome : Outcome
  notes : List Note := []

/-- What a call does once an operation has ended. -/
inductive Sequel where
  | reply (r : Reply)
  /-- Another operation, after which this is the reply. -/
  | release (mode : Mode) (r : Reply)
  /-- Another timed attempt, later. -/
  | pause (task : Task) (position : Position)

namespace World

/-- The data of the lock at an index. -/
def data (w : World) (m : Nat) : List Int := (w.locks[m]?.bind (·.data)).getD []

/-- The world in which the lock at an index carries other data. -/
def withData (w : World) (m : Nat) (values : List Int) : World :=
  match w.locks[m]? with
  | some l => w.withLock m { l with data := some values }
  | none => w

/-- What follows when an operation has ended with this answer. -/
def sequel (w : World) (m : Nat) (task : Task) (answer : Answer) : World × Sequel × List Note :=
  match task with
  | .answer => (w, .reply (.ofAnswer answer), [])
  | .guard mode => (w, .reply (.guardIf mode answer), [])
  | .say r => (w, .reply r, [])
  | .push value =>
      if answer = .granted false then (w, .reply .nothing, [])
      else
        let values := w.data m ++ [value]
        (w.withData m values, .release .unique (.number values.length), [])
  | .get =>
      if answer = .granted false then (w, .reply .nothing, [])
      else (w, .release .shared (.numbers (w.data m)), [])
  | .debug id claim spread =>
      let shown := ReadMostly.State.shown id claim (match answer with | .count n => n | _ => 0)
      (w, .reply (.text (if spread then shown.spread 0 else shown.line)), [])
  | .retry mode guarded r =>
      if answer = .granted false then
        let task := Task.retry mode guarded (r.after w.clock)
        match r.decision w.clock with
        | .giveUp waited => (w, .reply (.failed (.timeout waited)), [.expired waited])
        | .sleep nanos => ({ w with clock := w.clock + nanos }, .pause task (.sleeping nanos), [])
        | .backOff true => (w, .pause task .yielding, [])
        | .backOff false => (w, .pause task .spun, [])
      else (w, .reply (.taken mode guarded), [])

/-- A call whose last operation made a turn, after which `r` is the reply. -/
def settleLast (m : Nat) (r : Reply) (worked : Worked) : Called :=
  { world := worked.world
    outcome :=
      match worked.stand with
      | .here p => .going ⟨m, .say r, .operating p⟩
      | .done _ => .replied r
      | .fault f => .faulted f
    notes := worked.notes }

/-- A call whose operation made a turn. -/
def settle (t : ThreadId) (m : Nat) (task : Task) (worked : Worked) : Called :=
  match worked.stand with
  | .here p =>
      { world := worked.world, outcome := .going ⟨m, task, .operating p⟩, notes := worked.notes }
  | .fault f => { world := worked.world, outcome := .faulted f, notes := worked.notes }
  | .done answer =>
      match worked.world.sequel m task answer with
      | (w, .reply r, notes) =>
          { world := w, outcome := .replied r, notes := worked.notes ++ notes }
      | (w, .pause task position, notes) =>
          { world := w, outcome := .going ⟨m, task, position⟩, notes := worked.notes ++ notes }
      | (w, .release mode r, notes) =>
          let last := settleLast m r (w.startOperation t m (.release mode))
          { last with notes := worked.notes ++ notes ++ last.notes }

/-- A call begins with an operation. -/
def operate (w : World) (t : ThreadId) (m : Nat) (op : Operation) (task : Task) : Called :=
  settle t m task (w.startOperation t m op)

/-- A call begins by counting the threads registered with a read-mostly lock. -/
def survey (w : World) (t : ThreadId) (m : Nat) (l : Lock) (s : ReadMostly.State) (task : Task) :
    Called :=
  settle t m task (w.workReadMostly t m l s fun sc site => ReadMostly.count sc site)

/-- A call that replies at once and changes nothing. -/
def say (w : World) (r : Reply) : Called := { world := w, outcome := .replied r }

/-- The reply to a call that the lock does not know. -/
def unknownCall : Reply := .text "unknown call"

/-- A call on the data of a lock, which only a lock that carries data knows. -/
def onData (w : World) (l : Lock) (called : Called) : Called :=
  if l.data.isSome then called else w.say unknownCall

/-- The diagnostic text of a lock. -/
def callDebug (w : World) (t : ThreadId) (m : Nat) (l : Lock) (spread : Bool) : Called :=
  let text (shown : Text.Shown) : Reply := .text (if spread then shown.spread 0 else shown.line)
  match l.body with
  | .blocking s => w.say (text s.shown)
  | .polling s => w.say (text s.shown)
  | .readMostly s => w.survey t m l s (.debug s.id s.claim spread)

/-- The first turn of a call on the lock `l` at index `m`. -/
def beginCallOn (w : World) (t : ThreadId) (m : Nat) (l : Lock) (call : Call) : Called :=
  match call with
  | .operate op => w.operate t m op .answer
  | .guard mode => w.operate t m (.acquire mode) (.guard mode)
  | .tryGuard mode => w.operate t m (.tryAcquire mode) (.guard mode)
  | .giveBack mode => w.operate t m (.release mode) (.say .nothing)
  | .timed mode limit guarded =>
      match limit.deadline? w.clock with
      | some deadline =>
          w.operate t m (.tryAcquire mode) (.retry mode guarded (.begin w.clock deadline))
      | none => w.operate t m (.acquire mode) (.say (.taken mode guarded))
  | .push value => w.onData l (w.operate t m (.acquire .unique) (.push value))
  | .tryPush value => w.onData l (w.operate t m (.tryAcquire .unique) (.push value))
  | .get => w.onData l (w.operate t m (.acquire .shared) .get)
  | .tryGet => w.onData l (w.operate t m (.tryAcquire .shared) .get)
  | .isLocked => w.onData l (w.say (.truth l.isLocked))
  | .debug spread => w.callDebug t m l spread
  | .identity =>
      match l.body with
      | .readMostly s => w.say (.text (Note.lockName s.id))
      | .blocking _ | .polling _ => w.say .nothing
  | .registered =>
      match l.body with
      | .readMostly s => w.survey t m l s .answer
      | .blocking _ | .polling _ => w.say .nothing
  | .drop =>
      let (w', notes) := w.dropLock m
      { world := w', outcome := .replied .nothing, notes := notes }
  | .unknown => w.say unknownCall

/-- The first turn of a call on the lock at index `m`. -/
def beginCall (w : World) (t : ThreadId) (m : Nat) (call : Call) : Called :=
  match w.locks[m]? with
  | some l => w.beginCallOn t m l call
  | none => w.say unknownCall

/-- The next turn of a call under way. -/
def resumeCall (w : World) (t : ThreadId) (frame : Frame) : Called :=
  match frame.position with
  | .operating p => settle t frame.lock frame.task (w.resumeOperation t frame.lock p)
  | .spun | .yielding | .sleeping _ =>
      match frame.task with
      | .retry mode _ _ => w.operate t frame.lock (.tryAcquire mode) frame.task
      | _ => w.say .nothing

/-- What keeps a thread from its next turn in a call. -/
def callObstacle (w : World) (t : ThreadId) (frame : Frame) : Option Obstacle :=
  match frame.position with
  | .operating p => w.operationObstacle t frame.lock p
  | .spun | .yielding | .sleeping _ => none

/-- How a place in a call is seen. -/
def callPlace (w : World) (frame : Frame) : Place :=
  match frame.position with
  | .operating p => w.operationPlace frame.lock p
  | .spun => .unseen
  | .yielding => .yielding
  | .sleeping nanos => .sleeping nanos

end World

end ReaderWriter
