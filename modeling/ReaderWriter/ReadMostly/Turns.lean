import ReaderWriter.ReadMostly.Basic

/-!
# Turns on a read-mostly lock

What a thread does on a read-mostly lock between two places where it can be held. A turn sees the
lock, the memory of the flags and what its own thread keeps, and can change all three.

* `start` makes the first turn of an operation, `resume` every later one.
* `count` and `depart` begin the two things that are done to a registry apart from the operations:
  counting it, and taking an ending thread off it.
-/

namespace ReaderWriter.ReadMostly

/-- What a turn can look at but not change. -/
structure Scene where
  thread : ThreadId
  /-- The key of the lock among the nodes of a thread. -/
  key : Nat
  /-- Which locks have not gone. -/
  alive : Nat → Bool

/-- What a turn can change. -/
structure Site where
  lock : State
  flags : Flags
  locals : Locals

/-- A turn on a read-mostly lock. -/
abbrev Step := Turn Site Pc

namespace Site

/-- The thread stands at `pc`. -/
def here (s : Site) (pc : Pc) : Step := { state := s, stand := .here pc }

/-- The operation ends. -/
def done (s : Site) (answer : Answer) : Step := { state := s, stand := .done answer }

/-- The operation ends in a fault. -/
def fault (s : Site) (f : Fault) : Step := { state := s, stand := .fault f }

/-- The site with another registry. -/
def withRegistry (s : Site) (r : Registry) : Site :=
  { s with lock := { s.lock with registry := r } }

/-- The site with another claim. -/
def claim (s : Site) (c : Claim) : Site := { s with lock := { s.lock with claim := c } }

/-- The site with the gate taken or free. -/
def gate (s : Site) (g : Gate) : Site := { s with lock := { s.lock with gate := g } }

/-- The site with a flag up or down. -/
def put (s : Site) (f : Flag) (up : Bool) : Site := { s with flags := s.flags.put f up }

/-- All registered flags are down. -/
def allClear (s : Site) : Bool := s.lock.registry.allClear s.flags

end Site

/-- A turn with something told before the rest. -/
def telling (notes : List Note) (step : Step) : Step := { step with notes := notes ++ step.notes }

/-! ## The registry's lock -/

/-- Takes the registry for reading, or waits until it can be had. -/
def beginRead (sc : Scene) (place : Access → Pc) (s : Site) : Step :=
  if s.lock.registry.canRead then
    (s.withRegistry (s.lock.registry.beginRead sc.thread)).here (place .inside)
  else s.here (place .wanted)

/-- Gives the registry back after reading. -/
def endRead (sc : Scene) (s : Site) : Site :=
  s.withRegistry (s.lock.registry.endRead sc.thread)

/-- Has the registry once nobody reads it. -/
def awaitReaders (place : Edit → Pc) (s : Site) : Step :=
  if s.lock.registry.readers.isEmpty then s.here (place .inside) else s.here (place .reserved)

/-- Takes the registry for writing, or reserves it, or waits until one of these can be done. -/
def beginWrite (sc : Scene) (place : Edit → Pc) (s : Site) : Step :=
  if s.lock.registry.canReserve s.lock.host then
    awaitReaders place (s.withRegistry (s.lock.registry.beginWrite sc.thread))
  else s.here (place .wanted)

/-! ## Notifications -/

/-- Begins to notify a writer, or yields to another notifier. -/
def notifyWriter (place : Notice.Stage → Pc) (s : Site) : Step :=
  let (signal, stage) := Notice.begin .one s.lock.drained
  { s with lock := { s.lock with drained := signal } }.here (place stage)

/-- Ends the notification of a writer. -/
def writerNotified (s : Site) : Site :=
  { s with lock := { s.lock with drained := s.lock.drained.release } }

/-- Begins to notify the readers, or yields to another notifier. -/
def notifyReaders (place : Notice.Stage → Pc) (s : Site) : Step :=
  let (signal, stage) := Notice.begin .all s.lock.reopened
  { s with lock := { s.lock with reopened := signal } }.here (place stage)

/-- Ends the notification of the readers. -/
def readersNotified (s : Site) : Site :=
  { s with lock := { s.lock with reopened := s.lock.reopened.release } }

/-! ## The exclusive side -/

/-- A writer that has the gate announces itself. -/
def announce (w : Writer) (s : Site) : Step := (s.claim .want).here (.claimed w)

/-- A patient writer takes the gate, or waits for it. -/
def enter (sc : Scene) (s : Site) : Step :=
  if s.lock.gate.isSome then s.here .entering
  else announce (.patient false (.ofConfig s.lock.config)) (s.gate (some sc.thread))

/-- A hasty writer takes the gate, or gives up. -/
def tryEnter (sc : Scene) (s : Site) : Step :=
  if s.lock.gate.isSome then s.done (.granted false)
  else announce .hasty (s.gate (some sc.thread))

/-- A writer that has announced itself turns to the registry. A hasty one does not wait for it. -/
def scan (sc : Scene) (w : Writer) (s : Site) : Step :=
  match w with
  | .hasty => if s.lock.registry.canRead then beginRead sc (.scanning w) s else s.here .refused
  | .patient _ _ => beginRead sc (.scanning w) s

/-- A writer has looked at the flags. -/
def judge (w : Writer) (clear : Bool) (s : Site) : Step :=
  match w, clear with
  | .hasty, true => (s.claim .yes).here (.acquired (.granted true))
  | .patient _ _, true => (s.claim .yes).here (.acquired .unit)
  | .hasty, false => s.here .refused
  | .patient told backoff, false =>
      telling (if told then [] else [.writerDrains s.lock.id])
        (s.here (.draining true .announced backoff))

/-- The exclusive side is given up: first the claim, then the readers are told. -/
def reopen (why : Reopening) (s : Site) : Step := (s.claim .no).here (.reopening why .announced)

/-- A release by a caller who must hold the unique lock. -/
def releaseUnique (s : Site) : Step :=
  if s.lock.claim = .yes then reopen .released s else s.fault (.claimNotHeld s.lock.claim)

/-- The exclusive side has been given up and everyone has been told. -/
def reopenDone (why : Reopening) (s : Site) : Step :=
  match why with
  | .released => s.here .released
  | .refused => s.done (.granted false)

/-! ## The shared side -/

/-- A reader raises its flag and looks at the claim. -/
def arrive (p : Patience) (f : Flag) (s : Site) : Step :=
  let s' := s.put f true
  match p with
  | .waits => if s.lock.claim = .no then s'.here .fastPath else s'.here (.contended f)
  | .once => if s.lock.claim = .no then s'.done (.granted true) else s'.here .sharedRefused

/-- Enters a new flag into the registry. A hasty reader does not wait for that. -/
def register (sc : Scene) (p : Patience) (f : Flag) (s : Site) : Step :=
  match p with
  | .waits => beginWrite sc (.registering p f) s
  | .once =>
      if s.lock.registry.canWrite then beginWrite sc (.registering p f) s
      else s.done (.granted false)

/-- A reader looks for its flag on this lock, and is given one at its first use of the lock. -/
def acquireShared (sc : Scene) (p : Patience) (s : Site) : Step :=
  if s.locals.canUse .nodes then
    let s' := { s with locals := s.locals.touch .nodes }
    match s'.locals.node? sc.key with
    | some f => arrive p f s'
    | none =>
        match s'.lock.supply.allocate s'.flags s'.locals with
        | .error f => s'.fault f
        | .ok handed =>
            telling (if s'.lock.supply.reports then [.handedOut handed.flag.slot] else [])
              (register sc p handed.flag { s' with flags := handed.flags, locals := handed.locals })
  else
    match p with
    | .waits => s.fault .tornDown
    | .once => s.done (.granted false)

/-- A reader that has the gate looks at the claim: it has the lock, or it lowers its flag and waits.
Before it waits it notifies the writer, for whom the flag may have been the last one. -/
def recheck (f : Flag) (backoff : Backoff) (s : Site) : Step :=
  match s.lock.claim with
  | .no => (s.gate none).done .unit
  | .want => (s.put f false).here (.prodding f backoff .announced)
  | .yes => (s.put f false).here (.waiting f .announced backoff)

/-- A reader takes the gate, or waits for it. -/
def enterShared (sc : Scene) (f : Flag) (s : Site) : Step :=
  if s.lock.gate.isSome then s.here (.arriving f)
  else recheck f (.ofConfig s.lock.config) (s.gate (some sc.thread))

/-- A shared release lowers the flag. If a writer wants the lock it is looked after. -/
def leave (sc : Scene) (answer : Answer) (s : Site) : Step :=
  if s.locals.canUse .nodes then
    let s' := { s with locals := s.locals.touch .nodes }
    match s'.locals.node? sc.key with
    | none => s'.fault .sharedNotHeld
    | some f =>
        let s'' := s'.put f false
        if s''.lock.claim = .want then
          s''.here (.handingOff (.left answer) .begun (.ofConfig s''.lock.config))
        else s''.done answer
  else s.fault .sharedNotHeld

/-! ## Looking after a writer -/

/-- The answer of a call that ends with a hand-off. -/
def HandOff.answer : HandOff → Answer
  | .left answer => answer
  | .abandoned => .unit

/-- One turn of a hand-off. The writer is notified while all flags are down and it still wants the
lock; between two notifications the backoff makes a step. -/
def handOff (sc : Scene) (why : HandOff) (backoff : Backoff) (stage : HandOff.Stage) (s : Site) :
    Step :=
  match stage with
  | .begun | .checking .wanted | .snoozing _ =>
      beginRead sc (fun a => .handingOff why (.checking a) backoff) s
  | .checking .inside =>
      let s' := endRead sc s
      if s.allClear then s'.here (.handingOff why (.prodding .announced) backoff)
      else s'.here (.handingOff why .finished backoff)
  | .prodding .announced | .prodding .yielding =>
      notifyWriter (fun n => .handingOff why (.prodding n) backoff) s
  | .prodding (.inside _) =>
      let s' := writerNotified s
      if s.lock.claim = .want then
        beginRead sc (fun a => .handingOff why (.rechecking a) backoff) s'
      else s'.here (.handingOff why .finished backoff)
  | .rechecking .wanted => beginRead sc (fun a => .handingOff why (.rechecking a) backoff) s
  | .rechecking .inside =>
      let s' := endRead sc s
      if s.allClear then s'.here (.handingOff why (.snoozing backoff.yields) backoff.next)
      else s'.here (.handingOff why .finished backoff)
  | .finished => s.done why.answer

/-! ## The registry apart from the operations -/

/-- Begins to count the registered threads. -/
def count (sc : Scene) (s : Site) : Step := beginRead sc .counting s

/-- Begins to take the flag of an ending thread off the registry. A flag that is still up is
lowered first. -/
def depart (sc : Scene) (f : Flag) (s : Site) : Step :=
  if s.flags.isRaised f then
    telling [.leftHolding s.lock.id] (beginWrite sc (.departing f true) (s.put f false))
  else beginWrite sc (.departing f false) s

/-! ## All turns -/

/-- The first turn of an operation. -/
def start (sc : Scene) (op : Operation) (s : Site) : Step :=
  match op with
  | .acquire .unique => enter sc s
  | .tryAcquire .unique => tryEnter sc s
  | .release .unique => releaseUnique s
  | .acquire .shared => acquireShared sc .waits s
  | .tryAcquire .shared => acquireShared sc .once s
  | .release .shared => s.here (.leaving .unit)

/-- The next turn of a thread that stands at `pc`. A thread that cannot move stays there. -/
def resume (sc : Scene) (pc : Pc) (s : Site) : Step :=
  match pc with
  | .entering => enter sc s
  | .claimed w => scan sc w s
  | .scanning w .wanted => beginRead sc (.scanning w) s
  | .scanning w .inside => judge w s.allClear (endRead sc s)
  | .draining told .woken backoff => announce (.patient told backoff) s
  | .draining told stage backoff =>
      let w := Wait.turn s.lock.terms.strategy sc.thread
        ⟨s.lock.gate, s.lock.drained, stage, backoff⟩
      { s with lock := { s.lock with gate := w.gate, drained := w.signal } }.here
        (.draining told w.stage w.backoff)
  | .acquired answer => s.done answer
  | .refused => reopen .refused s
  | .reopening why (.inside _) => ((readersNotified s).gate none).here (.passingOn why .announced)
  | .reopening why _ => notifyReaders (.reopening why) s
  | .passingOn why (.inside _) => reopenDone why (writerNotified s)
  | .passingOn why _ => notifyWriter (.passingOn why) s
  | .released => s.done .unit
  | .registering p f .wanted => beginWrite sc (.registering p f) s
  | .registering p f .reserved => awaitReaders (.registering p f) s
  | .registering p f .inside =>
      telling [.registered s.lock.id]
        ((s.withRegistry (s.lock.registry.add f).endWrite).here (.registered p f))
  | .registered p f =>
      arrive p f { s with locals := s.locals.remember sc.alive sc.key f }
  | .fastPath => s.done .unit
  | .contended f => telling [.readerYieldsWay s.lock.id] (enterShared sc f s)
  | .arriving f => enterShared sc f s
  | .prodding f backoff (.inside _) => (writerNotified s).here (.waiting f .announced backoff)
  | .prodding f backoff _ => notifyWriter (.prodding f backoff) s
  | .waiting f .woken backoff => recheck f backoff (s.put f true)
  | .waiting f stage backoff =>
      let w := Wait.turn s.lock.terms.strategy sc.thread
        ⟨s.lock.gate, s.lock.reopened, stage, backoff⟩
      { s with lock := { s.lock with gate := w.gate, reopened := w.signal } }.here
        (.waiting f w.stage w.backoff)
  | .sharedRefused => s.here (.leaving (.granted false))
  | .leaving answer => leave sc answer s
  | .handingOff why stage backoff => handOff sc why backoff stage s
  | .counting .wanted => beginRead sc .counting s
  | .counting .inside => (endRead sc s).done (.count s.lock.registry.entries.length)
  | .departing f wasUp .wanted => beginWrite sc (.departing f wasUp) s
  | .departing f wasUp .reserved => awaitReaders (.departing f wasUp) s
  | .departing f wasUp .inside =>
      telling [.deregistered s.lock.id]
        ((s.withRegistry (s.lock.registry.remove f).endWrite).here (.departed wasUp))
  | .departed wasUp => if wasUp then s.here .abandoned else s.done .unit
  | .abandoned =>
      if s.lock.claim = .want then
        s.here (.handingOff .abandoned .begun (.ofConfig s.lock.config))
      else s.done .unit

end ReaderWriter.ReadMostly
