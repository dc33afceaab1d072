import ReaderWriter.Proofs.Moves

/-!
# Machines

A crowd is one blocking or polling lock with everyone who uses it: the state of the lock, where each
thread stands in an operation on it, and how often it is held in each mode. The two locks are two
machines; whatever holds of a crowd of any machine is stated once.

* `Machine.Step`: what can happen to a crowd.
* `Machine.Is`: the locks of an algorithm are this machine.
-/

namespace ReaderWriter

/-- A lock whose turns read and write nothing but its own state. -/
structure Machine (State Pc : Type) where
  initial : Host → Config → State
  /-- The first turn of an operation. -/
  start : Operation → State → Turn State Pc
  /-- The next turn of a thread. -/
  resume : ThreadId → Pc → State → Turn State Pc
  /-- What keeps a thread from its next turn. -/
  obstacle : ThreadId → State → Pc → Option Obstacle
  /-- A thread leaves every queue in which it is parked. -/
  wake : ThreadId → State → State
  /-- The place belongs to the operation. -/
  Serves : Operation → Pc → Prop
  body : State → Body
  progress : Pc → Progress
  /-- The place of this machine that a place is. -/
  pc? : Progress → Option Pc

/-- A lock and its users. -/
structure Crowd (State Pc : Type) where
  state : State
  /-- Where a thread stands in an operation. -/
  place : ThreadId → Option Pc
  /-- How often the lock is held. -/
  held : Mode → Nat

namespace Crowd

variable {State Pc : Type}

/-- How often the lock is held when an operation has begun. -/
def begun (held : Mode → Nat) : Operation → Mode → Nat
  | .release mode => Function.update held mode (held mode - 1)
  | .acquire _ | .tryAcquire _ => held

/-- How often the lock is held after a turn of an operation. -/
def settled (held : Mode → Nat) (op : Operation) (stand : Stand Pc) : Mode → Nat :=
  match Hold.granted? op stand with
  | some mode => Function.update held mode (held mode + 1)
  | none => held

/-- The crowd after a turn of a thread. -/
def turned (t : ThreadId) (op : Operation) (turn : Turn State Pc) (c : Crowd State Pc) :
    Crowd State Pc where
  state := turn.state
  place := Function.update c.place t turn.stand.place?
  held := settled c.held op turn.stand

end Crowd

namespace Machine

variable {State Pc : Type} (M : Machine State Pc)

/-- What can happen to a crowd. A lock is only given up while it is held. -/
inductive Step (c : Crowd State Pc) : Crowd State Pc → Prop
  | start {t : ThreadId} {op : Operation} :
      c.place t = none → (∀ mode, op = .release mode → 0 < c.held mode) →
      Step c ({ c with held := Crowd.begun c.held op }.turned t op (M.start op c.state))
  | resume {t : ThreadId} {pc : Pc} {op : Operation} :
      c.place t = some pc → M.Serves op pc → M.obstacle t c.state pc = none →
      Step c (c.turned t op (M.resume t pc c.state))
  | wake (t : ThreadId) : Step c { c with state := M.wake t c.state }

/-- The crowd of a new lock. -/
def newCrowd (host : Host) (config : Config) : Crowd State Pc where
  state := M.initial host config
  place _ := none
  held _ := 0

/-- The crowds that come about while a condition holds. -/
inductive Reachable (ok : Crowd State Pc → Prop) : Crowd State Pc → Prop
  | start (host : Host) (config : Config) : Reachable ok (M.newCrowd host config)
  | step {c c' : Crowd State Pc} : Reachable ok c → ok c → M.Step c c' → Reachable ok c'

/-- The machine is one of the algorithms of locks. -/
structure Is (a : Algorithm) : Prop where
  body_algorithm : ∀ s, (M.body s).algorithm = a
  exists_body : ∀ body : Body, body.algorithm = a → ∃ s, body = M.body s
  body_inj : ∀ s s', M.body s = M.body s' → s = s'
  exists_progress : ∀ p : Progress, p.algorithm = a → ∃ pc, p = M.progress pc
  pc?_progress : ∀ pc, M.pc? (M.progress pc) = some pc
  serves : ∀ op pc, (M.progress pc).Serves op ↔ M.Serves op pc
  not_departs : a ≠ .readMostly
  start : ∀ (w : World) (t : ThreadId) (m : Nat) (l : Lock) (s : State) (op : Operation),
    w.locks[m]? = some l → l.body = M.body s →
    (w.work t m (.start op)).world.locks =
        w.locks.set m { l with body := M.body (M.start op s).state } ∧
      (w.work t m (.start op)).stand = (M.start op s).stand.lift M.progress
  resume : ∀ (w : World) (t : ThreadId) (m : Nat) (l : Lock) (s : State) (pc : Pc),
    w.locks[m]? = some l → l.body = M.body s →
    (w.work t m (.resume (M.progress pc))).world.locks =
        w.locks.set m { l with body := M.body (M.resume t pc s).state } ∧
      (w.work t m (.resume (M.progress pc))).stand =
        (M.resume t pc s).stand.lift M.progress ∧
      w.operationObstacle t m (M.progress pc) = M.obstacle t s pc
  wake : ∀ (t : ThreadId) (l : Lock) (s : State), l.body = M.body s →
    (World.wakeIn t l).body = M.body (M.wake t s)
  make : ∀ (kind : Kind) (config : Config) (id : Nat) (host : Host) (s : State),
    (Lock.make kind config id host).body = M.body s → ∃ config, s = M.initial host config

end Machine

/-- The blocking lock as a machine. -/
def Blocking.machine : Machine Blocking.State Blocking.Pc where
  initial host config := { config := config, host := host }
  start := Blocking.start
  resume := Blocking.resume
  obstacle := Blocking.obstacle
  wake := Blocking.wake
  Serves op pc := pc.Serves op
  body := .blocking
  progress := .blocking
  pc?
    | .blocking pc => some pc
    | .polling _ | .readMostly _ => none

/-- The polling lock as a machine. No thread ever parks in it. -/
def Polling.machine : Machine Polling.State Polling.Pc where
  initial _ config := { config := config }
  start := Polling.start
  resume _ := Polling.resume
  obstacle _ _ _ := none
  wake _ s := s
  Serves op pc := pc.Serves op
  body := .polling
  progress := .polling
  pc?
    | .polling pc => some pc
    | .blocking _ | .readMostly _ => none

theorem Blocking.machine_is : Blocking.machine.Is .blocking where
  body_algorithm _ := rfl
  exists_body body h := by
    cases body with
    | blocking s => exact ⟨s, rfl⟩
    | polling | readMostly => cases h
  body_inj _ _ h := Body.blocking.inj h
  exists_progress p h := by
    cases p with
    | blocking pc => exact ⟨pc, rfl⟩
    | polling | readMostly => cases h
  pc?_progress _ := rfl
  serves _ _ := Iff.rfl
  not_departs := nofun
  start w t m l s op hl hs := by
    have hsuits : (Job.start op).Suits .blocking := trivial
    rw [World.work_blocking hl hs hsuits]
    exact ⟨rfl, rfl⟩
  resume w t m l s pc hl hs := by
    have hwork := World.work_blocking (t := t) hl hs
      (show (Job.resume (.blocking pc)).Suits .blocking from rfl)
    simp only [Blocking.machine]
    rw [hwork]
    refine ⟨rfl, rfl, ?_⟩
    simp only [World.operationObstacle, hl, hs]
    rfl
  wake t l s hs := by
    simp only [Blocking.machine] at hs ⊢
    simp only [World.wakeIn, hs]
  make kind config id host s h := by
    cases hf : kind.family with
    | blocking =>
      simp only [Lock.make, hf] at h
      exact ⟨_, (Body.blocking.inj h).symm⟩
    | polling | readMostly supply =>
      simp only [Lock.make, hf] at h
      cases h

theorem Polling.machine_is : Polling.machine.Is .polling where
  body_algorithm _ := rfl
  exists_body body h := by
    cases body with
    | polling s => exact ⟨s, rfl⟩
    | blocking | readMostly => cases h
  body_inj _ _ h := Body.polling.inj h
  exists_progress p h := by
    cases p with
    | polling pc => exact ⟨pc, rfl⟩
    | blocking | readMostly => cases h
  pc?_progress _ := rfl
  serves _ _ := Iff.rfl
  not_departs := nofun
  start w t m l s op hl hs := by
    have hsuits : (Job.start op).Suits .polling := trivial
    rw [World.work_polling hl hs hsuits]
    exact ⟨rfl, rfl⟩
  resume w t m l s pc hl hs := by
    have hwork := World.work_polling (t := t) hl hs
      (show (Job.resume (.polling pc)).Suits .polling from rfl)
    simp only [Polling.machine]
    rw [hwork]
    refine ⟨rfl, rfl, ?_⟩
    simp only [World.operationObstacle, hl, hs]
    rfl
  wake t l s hs := by
    simp only [Polling.machine] at hs ⊢
    simp only [World.wakeIn, hs]
  make kind config id host s h := by
    cases hf : kind.family with
    | polling =>
      simp only [Lock.make, hf] at h
      exact ⟨_, (Body.polling.inj h).symm⟩
    | blocking | readMostly supply =>
      simp only [Lock.make, hf] at h
      cases h

end ReaderWriter
