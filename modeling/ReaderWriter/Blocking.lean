import ReaderWriter.Turn
import ReaderWriter.Waiting.Wait

/-!
# The blocking lock

A control word and one wait group for each mode. Uncontended operations are single updates of the
word. A caller that cannot have the lock sets the wait bit of its mode and waits in that mode's
group; after every wake it looks at the word again.

A release that leaves a wait bit wakes one writer, or all readers if no writer waits. It does so
without the group's mutex, so the wake can come before the waiter has parked. For that reason the
notifier looks again, and goes on with a yield in between as long as some waiter could proceed and
no holder is bound to wake it.

* `start` makes the first turn of an operation, `resume` every later one.
* `obstacle` says what keeps a thread from its next turn, `Pc.place` how it is seen meanwhile.
-/

namespace ReaderWriter.Blocking

/-- The callers of one mode that are in the slow path. -/
structure Group where
  /-- The mutex that guards the count and the entry to the wait. -/
  gate : Gate := none
  /-- How many callers are in the slow path. -/
  pending : Nat := 0
  signal : Signal := {}
deriving DecidableEq

/-- The state of a blocking lock. -/
structure State where
  config : Config
  host : Host := {}
  word : Word := .idle
  readers : Group := {}
  writers : Group := {}
deriving DecidableEq

namespace State

/-- The terms on which callers wait: the configuration, as it comes out on the host. -/
def terms (s : State) : Config := s.config.on s.host

/-- The wait group of a mode. -/
def group (s : State) : Mode → Group
  | .unique => s.writers
  | .shared => s.readers

/-- The state with another wait group for a mode. -/
def withGroup (s : State) (mode : Mode) (g : Group) : State :=
  match mode with
  | .unique => { s with writers := g }
  | .shared => { s with readers := g }

/-- How diagnostics show the lock. -/
def shown (s : State) : Text.Shown :=
  .part "BlockingSharedMutex" [("control", s.word.shown), ("config", s.config.shown)]

end State

/-- Where a thread stands in an operation. -/
inductive Pc where
  /-- The fast path failed. -/
  | contended (mode : Mode)
  /-- Wants the mutex of its group. -/
  | entering (mode : Mode)
  /-- Waits in its group. -/
  | waiting (mode : Mode) (stage : Wait.Stage) (backoff : Backoff)
  /-- About to notify the waiters of a mode. -/
  | notifying (mode : Mode)
  /-- Inside a notification, which took these waiters off the queue. -/
  | notified (mode : Mode) (woken : List ThreadId)
  /-- Waiters are left that nobody else will wake. -/
  | retrying
  /-- Yields before it notifies again. -/
  | yielding
deriving DecidableEq

/-! ## The word -/

/-- Whether a caller in the slow path may have the lock in this mode. -/
def admits (w : Word) : Mode → Bool
  | .unique => !w.held
  | .shared => !w.blocksShared

/-- The word with the wait bit of a mode. -/
def announce (w : Word) : Mode → Word
  | .unique => w.withUniqueWait
  | .shared => w.withSharedWait

/-- The word without the wait bit of a mode. -/
def silence (w : Word) : Mode → Word
  | .unique => w.withoutUniqueWait
  | .shared => w.withoutSharedWait

/-- The word after a grant in this mode. -/
def grant (w : Word) : Mode → Except Fault Word
  | .unique => .ok w.withUniqueLock
  | .shared => w.withSharedAcquired

/-- The word after a grant to a caller of the slow path. The last one out clears the wait bit;
before that the bit stays, to keep newcomers off. -/
def grantWaiter (w : Word) (mode : Mode) (last : Bool) : Except Fault Word :=
  (grant w mode).map fun w' => if last then silence w' mode else announce w' mode

/-- How many waiters of a mode a release wakes. -/
def wakes : Mode → Wakes
  | .unique => .one
  | .shared => .all

/-! ## Turns -/

/-- A caller that holds its group's mutex looks at the word: it takes the lock and leaves the
group, or makes sure that the wait bit is set and announces its wait. A fault gives the mutex up
but leaves the count as it is. -/
def attempt (mode : Mode) (backoff : Backoff) (s : State) : Turn State Pc :=
  let g := s.group mode
  if admits s.word mode then
    match grantWaiter s.word mode (g.pending == 1) with
    | .ok w =>
        { state := { s with word := w }.withGroup mode
            { g with gate := none, pending := g.pending - 1 }
          stand := .done .unit }
    | .error f => { state := s.withGroup mode { g with gate := none }, stand := .fault f }
  else
    { state := { s with word := announce s.word mode }
      stand := .here (.waiting mode .announced backoff) }

/-- A caller takes its group's mutex, is counted, and looks at the word. It stays outside while
the mutex is busy. -/
def enter (t : ThreadId) (mode : Mode) (s : State) : Turn State Pc :=
  let g := s.group mode
  if g.gate.isSome then { state := s, stand := .here (.entering mode) }
  else
    attempt mode (.ofConfig s.config)
      (s.withGroup mode { g with gate := some t, pending := g.pending + 1 })

/-- A release goes on to notify: a writer if one waits, otherwise the readers. -/
def notifyFor (w : Word) (s : State) : Turn State Pc :=
  if w.uniqueWanted then { state := s, stand := .here (.notifying .unique) }
  else if w.sharedWaiting then { state := s, stand := .here (.notifying .shared) }
  else if s.word.hasAdmissibleWaiters then { state := s, stand := .here .retrying }
  else { state := s, stand := .done .unit }

/-- After a notification: is anyone left whom nobody else will wake? -/
def recheck (s : State) : Turn State Pc :=
  if s.word.hasAdmissibleWaiters then { state := s, stand := .here .retrying }
  else { state := s, stand := .done .unit }

/-- The end of a release that left the word `w` behind. -/
def afterRelease (s : State) : Except Fault Word → Turn State Pc
  | .error f => { state := s, stand := .fault f }
  | .ok w =>
      let s' := { s with word := w }
      if w.hasWaiters then notifyFor w s' else { state := s', stand := .done .unit }

/-- The first turn of an operation. -/
def start (op : Operation) (s : State) : Turn State Pc :=
  match op with
  | .acquire .unique =>
      if s.word = .idle then
        { state := { s with word := s.word.withUniqueLock }, stand := .done .unit }
      else { state := s, stand := .here (.contended .unique) }
  | .acquire .shared =>
      if s.word.blocksShared then { state := s, stand := .here (.contended .shared) }
      else
        match s.word.withSharedAcquired with
        | .ok w => { state := { s with word := w }, stand := .done .unit }
        | .error f => { state := s, stand := .fault f }
  | .tryAcquire .unique =>
      if s.word = .idle then
        { state := { s with word := s.word.withUniqueLock }, stand := .done (.granted true) }
      else { state := s, stand := .done (.granted false) }
  | .tryAcquire .shared =>
      if s.word.blocksShared then { state := s, stand := .done (.granted false) }
      else
        match s.word.withSharedAcquired with
        | .ok w => { state := { s with word := w }, stand := .done (.granted true) }
        | .error f => { state := s, stand := .fault f }
  | .release .unique => afterRelease s s.word.withUniqueReleased
  | .release .shared => afterRelease s s.word.withSharedReleased

/-- The note of a caller that enters the slow path. -/
def slowPathNote : Mode → Note
  | .unique => .writerBlocks
  | .shared => .readerBlocks

/-- The next turn of a thread that stands at `pc`. A thread that cannot move stays there. -/
def resume (t : ThreadId) (pc : Pc) (s : State) : Turn State Pc :=
  match pc with
  | .contended mode => { enter t mode s with notes := [slowPathNote mode] }
  | .entering mode => enter t mode s
  | .waiting mode .woken backoff => attempt mode backoff s
  | .waiting mode stage backoff =>
      let g := s.group mode
      let w := Wait.turn s.terms.strategy t ⟨g.gate, g.signal, stage, backoff⟩
      { state := s.withGroup mode { g with gate := w.gate, signal := w.signal }
        stand := .here (.waiting mode w.stage w.backoff) }
  | .notifying mode =>
      let g := s.group mode
      match g.signal.notify? (wakes mode) with
      | some (woken, signal) =>
          { state := s.withGroup mode { g with signal := signal }
            stand := .here (.notified mode woken) }
      | none => recheck s
  | .notified mode _ =>
      let g := s.group mode
      recheck (s.withGroup mode { g with signal := g.signal.release })
  | .retrying => { state := s, stand := .here .yielding }
  | .yielding =>
      if s.word.hasAdmissibleWaiters then notifyFor s.word s
      else { state := s, stand := .done .unit }

/-- What keeps a thread at `pc` from its next turn. -/
def obstacle (t : ThreadId) (s : State) : Pc → Option Obstacle
  | .entering mode => if (s.group mode).gate.isSome then some .blocked else none
  | .waiting mode stage _ => Wait.obstacle t (s.group mode).gate (s.group mode).signal stage
  | _ => none

/-- A thread leaves every queue in which it is parked. -/
def wake (t : ThreadId) (s : State) : State :=
  { s with
    readers := { s.readers with signal := s.readers.signal.forget t }
    writers := { s.writers with signal := s.writers.signal.forget t } }

/-- How a place of the algorithm is seen. -/
def Pc.place : Pc → Place
  | .contended .unique => .location .uniqueContended
  | .contended .shared => .location .sharedContended
  | .entering _ => .unseen
  | .waiting .unique stage _ => stage.place .uniqueWait .uniqueWoken
  | .waiting .shared stage _ => stage.place .sharedWait .sharedWoken
  | .notifying .unique => .location .notifyUnique
  | .notifying .shared => .location .notifyShared
  | .notified mode woken => .notifying (wakes mode) woken
  | .retrying => .location .notifyRetry
  | .yielding => .yielding

end ReaderWriter.Blocking
