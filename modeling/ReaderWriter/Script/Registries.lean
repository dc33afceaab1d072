import ReaderWriter.Location
import ReaderWriter.ReadMostly.Locals
import ReaderWriter.ReadMostly.Registry

/-!
# Scripts on registries

Rows of actions on registries and flags, by threads that run one after another: a thread can start
another one and waits until that has ended, with all that it keeps torn down. The script numbers
the registries, and the flags that it comes by.
-/

namespace ReaderWriter.Script

open ReadMostly

/-- What is done for a thread that has no flag on a registry yet. -/
inductive Registration where
  /-- It is given one, and waits for the registry if it has to. -/
  | blocking
  /-- It is given one if the registry is free. -/
  | nonBlocking
  /-- It is given none. -/
  | existing
deriving DecidableEq

/-- An action on registries. -/
inductive RegistryAction where
  /-- A flag from a supply. -/
  | allocate (supply : Supply)
  | put (flag : Nat) (up : Bool)
  | isRaised (flag : Nat)
  | register (registry flag : Nat) (blocking : Bool)
  | deregister (registry flag : Nat)
  | allClear (registry : Nat) (blocking : Bool)
  | length (registry : Nat)
  | debug (registry : Nat)
  /-- Drops a registry. -/
  | drop (registry : Nat)
  /-- How often a thread ended with its flag up. -/
  | hookCalls
  /-- Uses the flag of the thread on a registry. -/
  | withFlag (registry : Nat) (registration : Registration) (up : Bool) (supply : Supply)
  /-- Actions of another thread. -/
  | thread (actions : List RegistryAction)
  /-- Anything else. -/
  | unknown
deriving Nonempty

/-- What an action answers, after the points that it passed. -/
inductive RegistryAnswer where
  | nothing
  | index (n : Nat)
  | truth (b : Bool)
  | text (s : String)
  /-- The registry was dropped. -/
  | gone
  /-- The answers of another thread. -/
  | list (answers : List (List Location × RegistryAnswer))
  | unknown

/-- The state of a script, apart from what its threads keep. -/
structure RegistrySession where
  /-- The registries; one that was dropped is not there any more. -/
  registries : List (Option Registry)
  flags : List Flag := []
  memory : Flags := {}
  hookCalls : Nat := 0

namespace RegistrySession

/-- The threads of a script run one at a time, so any name for the running one will do. -/
def runner : ThreadId := 0

/-- The registry at an index, if it has not been dropped. -/
def registry? (s : RegistrySession) (r : Nat) : Option Registry := (s.registries[r]?).join

/-- The session with another registry at an index. -/
def withRegistry (s : RegistrySession) (r : Nat) (registry : Registry) : RegistrySession :=
  { s with registries := s.registries.set r (some registry) }

/-- Adds a flag to a registry. -/
def add (s : RegistrySession) (r : Nat) (registry : Registry) (f : Flag) : RegistrySession :=
  s.withRegistry r ((registry.beginWrite runner).add f).endWrite

/-- Takes a flag off a registry. -/
def remove (s : RegistrySession) (r : Nat) (registry : Registry) (f : Flag) : RegistrySession :=
  s.withRegistry r ((registry.beginWrite runner).withdraw f).endWrite

/-- What an action leaves behind: the session, what the thread keeps, the points that were passed
and the answer. -/
structure Acted where
  session : RegistrySession
  locals : Locals
  passed : List Location := []
  answer : RegistryAnswer

/-- A thread uses its flag: the script comes by it, and it is raised or lowered. -/
def useFlag (s : RegistrySession) (l : Locals) (f : Flag) (up : Bool) (passed : List Location) :
    Acted :=
  { session := { s with flags := s.flags ++ [f], memory := s.memory.put f up }
    locals := l
    passed := passed
    answer := .truth (s.memory.isRaised f) }

/-- A thread uses its flag on a registry, and may be given one first. -/
def withFlag (s : RegistrySession) (l : Locals) (r : Nat) (registry : Registry)
    (registration : Registration) (up : Bool) (supply : Supply) : Acted :=
  let l := l.touch .nodes
  let refused : Acted := { session := s, locals := l, answer := .nothing }
  match l.node? r with
  | some f => s.useFlag l f up []
  | none =>
      if registration = .existing then refused
      else
        match supply.allocate s.memory l with
        | .error _ => refused
        | .ok handed =>
            let s' := { s with memory := handed.flags }
            if registration = .nonBlocking ∧ !registry.canWrite then
              { session := s', locals := handed.locals, answer := .nothing }
            else
              let s' := s'.add r registry handed.flag
              let alive (key : Nat) := (s'.registry? key).isSome
              s'.useFlag (handed.locals.remember alive r handed.flag) handed.flag up
                [.nodeRegistered]

/-- A thread that ends leaves a registry. If its flag is up it is lowered first, and the registry
is looked at afterwards. -/
def leave (s : RegistrySession) (r : Nat) (f : Flag) : RegistrySession × List Location :=
  match s.registry? r with
  | none => (s, [])
  | some registry =>
      let wasUp := s.memory.isRaised f
      let s' := { s with memory := s.memory.put f false }.remove r registry f
      if wasUp then
        let clear := (registry.withdraw f).allClear s'.memory
        ({ s' with hookCalls := s'.hookCalls + 1 },
          [.nodeDeregistered, .nodeAbandoned,
            if clear then .unlockSharedDone else .unlockSharedSlow])
      else (s', [.nodeDeregistered])

/-- A thread that ends leaves all registries. -/
def leaveAll (s : RegistrySession) : List (Nat × Flag) → RegistrySession × List Location
  | [] => (s, [])
  | (r, f) :: rest =>
      let (s', passed) := s.leave r f
      let (s'', passed') := s'.leaveAll rest
      (s'', passed ++ passed')

/-- An answer that needs a registry. -/
def onRegistry (s : RegistrySession) (l : Locals) (r : Nat) (f : Registry → Acted) : Acted :=
  match s.registry? r with
  | some registry => f registry
  | none => { session := s, locals := l, answer := .gone }

/-- An answer that needs a flag. -/
def onFlag (s : RegistrySession) (l : Locals) (flag : Nat) (f : Flag → Acted) : Acted :=
  match s.flags[flag]? with
  | some g => f g
  | none => { session := s, locals := l, answer := .nothing }

/-- How diagnostics show the registry at an index. -/
def shown (r : Nat) (registry : Registry) : Text.Shown :=
  .whole "ThreadRegistry" [
    ("lock_id", .wrapped "LockId" (.number (r + 1))),
    ("entries", .number registry.entries.length)]

mutual

/-- What an action answers and leaves behind. -/
def act (s : RegistrySession) (l : Locals) : RegistryAction → Acted
  | .allocate supply =>
      match supply.allocate s.memory l with
      | .error _ => { session := s, locals := l, answer := .nothing }
      | .ok handed =>
          { session := { s with memory := handed.flags, flags := s.flags ++ [handed.flag] }
            locals := handed.locals
            answer := .index s.flags.length }
  | .put flag up =>
      s.onFlag l flag fun f =>
        { session := { s with memory := s.memory.put f up }, locals := l, answer := .nothing }
  | .isRaised flag =>
      s.onFlag l flag fun f =>
        { session := s, locals := l, answer := .truth (s.memory.isRaised f) }
  | .register r flag blocking =>
      s.onRegistry l r fun registry =>
        s.onFlag l flag fun f =>
          if blocking || registry.canWrite then
            { session := s.add r registry f, locals := l, answer := .truth true }
          else { session := s, locals := l, answer := .truth false }
  | .deregister r flag =>
      s.onRegistry l r fun registry =>
        s.onFlag l flag fun f =>
          { session := s.remove r registry f, locals := l, answer := .nothing }
  | .allClear r blocking =>
      s.onRegistry l r fun registry =>
        { session := s
          locals := l
          answer := .truth ((blocking || registry.canRead) && registry.allClear s.memory) }
  | .length r =>
      s.onRegistry l r fun registry =>
        { session := s, locals := l, answer := .index registry.entries.length }
  | .debug r =>
      s.onRegistry l r fun registry =>
        { session := s, locals := l, answer := .text (shown r registry).line }
  | .drop r =>
      s.onRegistry l r fun registry =>
        { session :=
            { s with
              registries := s.registries.set r none
              memory := registry.lowerAll s.memory }
          locals := l
          answer := .nothing }
  | .hookCalls => { session := s, locals := l, answer := .index s.hookCalls }
  | .withFlag r registration up supply =>
      s.onRegistry l r fun registry => s.withFlag l r registry registration up supply
  | .thread actions =>
      let (s', l', answers) := actAll s {} actions
      let (s'', passed) := s'.leaveAll l'.nodes
      { session := s'', locals := l, passed := passed, answer := .list answers }
  | .unknown => { session := s, locals := l, answer := .unknown }

/-- What a row of actions of one thread answers and leaves behind. -/
def actAll (s : RegistrySession) (l : Locals) :
    List RegistryAction → RegistrySession × Locals × List (List Location × RegistryAnswer)
  | [] => (s, l, [])
  | a :: rest =>
      let acted := act s l a
      let (s', l', answers) := actAll acted.session acted.locals rest
      (s', l', (acted.passed, acted.answer) :: answers)

end

/-- The answers of a script on so many registries. -/
def run (count : Nat) (actions : List RegistryAction) : List (List Location × RegistryAnswer) :=
  (actAll ⟨List.replicate count (some {}), [], {}, 0⟩ {} actions).2.2

end RegistrySession

end ReaderWriter.Script
