import ReaderWriter.Schedule

/-!
# Stress runs

A number of threads share one lock, each for a number of rounds: in every so many rounds a thread
takes the lock alone and adds one to a counter, in the others it takes it together with others.
The threads take their turns in rotation, so they meet at all places of the algorithm. The run
counts how often a grant broke mutual exclusion, and tells in what state the lock is left once all
threads have ended.
-/

namespace ReaderWriter

namespace Stress

/-- What a run does. -/
structure Plan where
  kind : Kind
  config : Config
  threads : Nat
  rounds : Nat
  /-- A thread writes once in so many rounds. -/
  every : Nat

/-- How thread `i` takes the lock in round `j`. -/
def Plan.mode (p : Plan) (i j : Nat) : Mode := if (i + j) % p.every = 0 then .unique else .shared

/-- What a thread of the run has done so far. -/
structure Worker where
  round : Nat := 0
  /-- It holds the lock, or has asked for it and not got it yet. -/
  entered : Bool := false
  /-- It holds the lock. -/
  inside : Bool := false
  /-- It has ended. -/
  ended : Bool := false

instance : Inhabited Worker := ⟨{}⟩

/-- A run under way. -/
structure Run where
  world : World
  workers : Table Worker := {}
  writers : Nat := 0
  readers : Nat := 0
  counter : Nat := 0
  violations : Nat := 0

/-- A worker has been granted the lock. -/
def Run.granted (r : Run) (mode : Mode) : Run :=
  match mode with
  | .unique =>
      { r with
        writers := r.writers + 1
        counter := r.counter + 1
        violations := r.violations + if r.writers + r.readers = 0 then 0 else 1 }
  | .shared =>
      { r with
        readers := r.readers + 1
        violations := r.violations + if r.writers = 0 then 0 else 1 }

/-- A worker begins to give the lock back. -/
def Run.leaving (r : Run) (mode : Mode) : Run :=
  match mode with
  | .unique => { r with writers := r.writers - 1 }
  | .shared => { r with readers := r.readers - 1 }

/-- A worker has moved: its acquisition, its release or its end may be over now. -/
def Run.moved (p : Plan) (r : Run) (i : Nat) (m : Moved) : Run :=
  let worker := r.workers.get i
  let r := { r with world := m.world }
  match m.finish with
  | none => r
  | some .gone => { r with workers := r.workers.set i { worker with ended := true } }
  | some _ =>
      if worker.entered then
        { r.granted (p.mode i worker.round) with
          workers := r.workers.set i { worker with inside := true } }
      else { r with workers := r.workers.set i { worker with round := worker.round + 1 } }

/-- The next turn of worker `i`. -/
def Run.turn (p : Plan) (r : Run) (i : Nat) : Run :=
  let worker := r.workers.get i
  let mode := p.mode i worker.round
  match (r.world.thread i).activity with
  | .gone => r
  | .calling _ | .ending _ =>
      if (r.world.obstacle i).isSome then r else r.moved p i (r.world.turn i)
  | .idle =>
      if worker.round = p.rounds then r.moved p i (r.world.exit i)
      else if worker.inside then
        let r :=
          { r.leaving mode with
            workers := r.workers.set i { worker with entered := false, inside := false } }
        r.moved p i (r.world.call i 0 (.operate (.release mode)))
      else
        let r := { r with workers := r.workers.set i { worker with entered := true } }
        r.moved p i (r.world.call i 0 (.operate (.acquire mode)))

/-- A turn of every worker, from the highest number down. -/
def Run.rotation (p : Plan) (r : Run) : Nat → Run
  | 0 => r
  | i + 1 => (r.turn p i).rotation p i

/-- All workers have ended. -/
def Run.isOver (p : Plan) (r : Run) : Bool :=
  (List.range p.threads).all fun i => (r.workers.get i).ended

/-- Rotations until all workers have ended, at most `fuel` of them. -/
def Run.finish (p : Plan) (r : Run) : Nat → Run
  | 0 => r
  | fuel + 1 => if r.isOver p then r else (r.rotation p p.threads).finish p fuel

/-- What a run comes to. -/
structure Outcome where
  counter : Nat
  violations : Nat
  /-- The lock at the end. -/
  state : Option Schedule.LockView
  /-- Whether the lock can be taken then. -/
  free : Bool

/-- More rotations than a run needs: in every rotation some worker gets on, and a round takes each
of them only so many turns. -/
def Plan.patience (p : Plan) : Nat :=
  (p.threads + 1) * (p.rounds + 1) * 1000 *
    (p.config.maxSpins.toNat + p.config.maxYields.toNat + 100)

/-- Makes a run. -/
def run (p : Plan) : Outcome :=
  let world := ({} : World).addLock p.kind p.config
  let r := Run.finish p { world := world } p.patience
  let last := r.world.call p.threads 0 (.operate (.tryAcquire .unique))
  let attempt := Schedule.run { points := 1000 } p.threads last
  { counter := r.counter
    violations := r.violations
    state := (r.world.locks.map Schedule.LockView.of)[0]?
    free := decide (attempt.2.status = .done (.truth true)) }

end Stress

end ReaderWriter
