import ReaderWriter.Blocking
import ReaderWriter.Polling
import ReaderWriter.ReadMostly.Turns

/-!
# Locks

The three locks under one roof, with what a user of the library chooses: whether the lock is
observed, and whether it carries data.
-/

namespace ReaderWriter

/-- The algorithm of a lock. -/
inductive Family where
  | blocking
  | polling
  | readMostly (supply : ReadMostly.Supply)
deriving DecidableEq

/-- What kind of lock to make. -/
structure Kind where
  family : Family
  /-- The lock reports the named points that a thread passes. -/
  observed : Bool
  /-- The lock carries a list of numbers. -/
  carriesData : Bool
deriving DecidableEq

/-- The kind of the given name. -/
def Kind.ofName? : String → Option Kind
  | "blocking" => some ⟨.blocking, true, false⟩
  | "polling" => some ⟨.polling, true, false⟩
  | "blocking_plain" => some ⟨.blocking, false, false⟩
  | "polling_plain" => some ⟨.polling, false, false⟩
  | "blocking_rw" => some ⟨.blocking, false, true⟩
  | "polling_rw" => some ⟨.polling, false, true⟩
  | "ru" => some ⟨.readMostly .isolated, true, false⟩
  | "ru_plain" => some ⟨.readMostly .isolated, false, false⟩
  | "ru_packed" => some ⟨.readMostly .packed, true, false⟩
  | "ru_paired" => some ⟨.readMostly .paired, true, false⟩
  | _ => none

/-- The state of a lock's algorithm. -/
inductive Body where
  | blocking (s : Blocking.State)
  | polling (s : Polling.State)
  | readMostly (s : ReadMostly.State)
deriving DecidableEq

/-- A lock. -/
structure Lock where
  body : Body
  observed : Bool
  /-- The data that the lock carries, if it carries any. -/
  data : Option (List Int)
  /-- The lock has not been dropped. -/
  owned : Bool := true
deriving DecidableEq

/-- Where a thread stands in an operation on some lock. -/
inductive Progress where
  | blocking (pc : Blocking.Pc)
  | polling (pc : Polling.Pc)
  | readMostly (pc : ReadMostly.Pc)
deriving DecidableEq

namespace Lock

/-- A new lock. A lock that carries data waits in the standard way. -/
def make (kind : Kind) (config : Config) (id : Nat) (host : Host := {}) : Lock :=
  let config := if kind.carriesData then .standard else config
  { body :=
      match kind.family with
      | .blocking => .blocking { config := config, host := host }
      | .polling => .polling { config := config }
      | .readMostly supply =>
          .readMostly { id := id, supply := supply, config := config, host := host }
    observed := kind.observed
    data := if kind.carriesData then some [] else none }

/-- Whether the lock is a read-mostly one, which has an identity. -/
def isReadMostly (l : Lock) : Bool :=
  match l.body with
  | .readMostly _ => true
  | .blocking _ | .polling _ => false

/-- The configuration of a lock. -/
def config (l : Lock) : Config :=
  match l.body with
  | .blocking s => s.config
  | .polling s => s.config
  | .readMostly s => s.config

/-- The terms on which callers wait. Those who poll have no use for a strategy. -/
def terms (l : Lock) : Config :=
  match l.body with
  | .blocking s => s.terms
  | .polling s => s.config
  | .readMostly s => s.terms

/-- Somebody holds the lock, as far as its word tells. -/
def isLocked (l : Lock) : Bool :=
  match l.body with
  | .blocking s => s.word.held
  | .polling s => s.word.held
  | .readMostly s => s.claim != .no

/-- A place in an operation as an observer of this lock sees it. -/
def see (l : Lock) (p : Place) : Place :=
  match p with
  | .location _ => if l.observed then p else .unseen
  | p => p

end Lock

/-- How a place in an operation is seen. -/
def Progress.place : Progress → Place
  | .blocking pc => pc.place
  | .polling pc => pc.place
  | .readMostly pc => pc.place

end ReaderWriter
