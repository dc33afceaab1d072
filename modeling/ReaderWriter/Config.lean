import ReaderWriter.Text.Record

/-!
# Wait configuration

How the slow paths of a lock wait: spin, park, or spin first and park once the backoff is used
up; and how long the two phases of the backoff are. The host has a say in it too.
-/

namespace ReaderWriter

/-- What a program finds in the place where it runs. -/
structure Host where
  /-- How many processors there are. -/
  processors : Nat := 1
  /-- Whether the locks of registries are task-fair. Under such a lock, a thread that is to change
  a registry reserves it while others still read it, which keeps further readers out. Under any
  other the thread waits until nobody has the registry. -/
  taskFair : Bool := false
deriving DecidableEq

/-- How a contended caller waits. -/
inductive Strategy where
  /-- Never park: give the mutex up, back off, take it again. -/
  | spin
  /-- Park at once. -/
  | block
  /-- Spin while the backoff lasts, then park. -/
  | adaptive
  /-- Whatever suits the host. -/
  | auto
deriving DecidableEq

namespace Strategy

/-- The name of a strategy. -/
def name : Strategy → String
  | .spin => "Spin"
  | .block => "Block"
  | .adaptive => "Adaptive"
  | .auto => "Auto"

/-- The strategy that a call follows. With one processor, spinning only keeps the holder from
running, so the automatic choice is to park; with more of them it is to spin first. -/
def resolve (host : Host) : Strategy → Strategy
  | .auto => if 1 < host.processors then .adaptive else .block
  | s => s

end Strategy

/-- A wait configuration. -/
structure Config where
  strategy : Strategy
  /-- Steps of the backoff that spin. -/
  maxSpins : UInt32
  /-- Steps after these that yield before the backoff counts as used up. -/
  maxYields : UInt32
deriving DecidableEq

namespace Config

/-- The configuration of a lock for which none is asked. -/
def standard : Config := ⟨.auto, 10, 40⟩

/-- For short critical sections. -/
def lowLatency : Config := ⟨.spin, 64, 500⟩

/-- For long critical sections. -/
def longWait : Config := ⟨.block, 1, 4⟩

/-- The strategy that the slow paths follow. -/
def selected (c : Config) (host : Host := {}) : Strategy := c.strategy.resolve host

/-- The configuration with the strategy to which it comes on a host. -/
def on (c : Config) (host : Host) : Config := { c with strategy := c.selected host }

/-- How diagnostics show a configuration. -/
def shown (c : Config) : Text.Shown :=
  .whole "SyncConfig" [
    ("strategy", .atom c.strategy.name),
    ("max_spins", .number c.maxSpins.toNat),
    ("max_yields", .number c.maxYields.toNat)]

/-- The preset of the given name. -/
def preset? : String → Option Config
  | "new" => some standard
  | "default" => some standard
  | "low_latency" => some lowLatency
  | "long_wait" => some longWait
  | _ => none

end Config

/-- The strategy of the given name. -/
def Strategy.ofName? : String → Option Strategy
  | "spin" => some .spin
  | "block" => some .block
  | "adaptive" => some .adaptive
  | "auto" => some .auto
  | _ => none

end ReaderWriter
