import ReaderWriter.Limits
import ReaderWriter.Text.Record

/-!
# Sharing flags

A sharing flag says whether one thread holds, or is about to take, a shared lock on one lock. Flags
lie in blocks of `flagsPerBlock`. `Flags` is the memory that they lie in: how many blocks have been
handed out, and which flags are raised.

* `Flags.isRaised_put`: a write changes the flag that it names and no other.
-/

namespace ReaderWriter.ReadMostly

/-- A sharing flag: a slot of a block. Two flags are the same iff block and slot are. -/
structure Flag where
  block : Nat
  slot : Fin flagsPerBlock
deriving DecidableEq

/-- The flag at a slot of a block, if there is such a slot. -/
def Flag.inBlock? (block slot : Nat) : Option Flag :=
  if h : slot < flagsPerBlock then some ⟨block, ⟨slot, h⟩⟩ else none

/-- The memory of all flags. -/
structure Flags where
  /-- Blocks are numbered in the order in which they are handed out. -/
  blocks : Nat := 0
  /-- The flags that are raised. -/
  raised : List Flag := []
deriving DecidableEq

namespace Flags

/-- Whether a flag is raised. -/
def isRaised (m : Flags) (f : Flag) : Bool := decide (f ∈ m.raised)

/-- Raises or lowers a flag. -/
def put (m : Flags) (f : Flag) (up : Bool) : Flags :=
  let others := m.raised.filter fun g => g != f
  { m with raised := if up then f :: others else others }

/-- A new block, with every flag down. -/
def newBlock (m : Flags) : Nat × Flags := (m.blocks, { m with blocks := m.blocks + 1 })

/-- A flag in a block of its own. -/
def isolated (m : Flags) : Flag × Flags :=
  (⟨m.blocks, ⟨0, by decide⟩⟩, { m with blocks := m.blocks + 1 })

/-- How many flags of a block are raised. -/
def raisedIn (m : Flags) (block : Nat) : Nat :=
  (m.raised.filter fun f => f.block == block).length

@[simp]
theorem isRaised_put_self (m : Flags) (f : Flag) (up : Bool) : (m.put f up).isRaised f = up := by
  cases up <;> simp [isRaised, put]

theorem isRaised_put_of_ne (m : Flags) {f g : Flag} (up : Bool) (h : g ≠ f) :
    (m.put f up).isRaised g = m.isRaised g := by
  cases up <;> simp [isRaised, put, h]

theorem isRaised_put (m : Flags) (f g : Flag) (up : Bool) :
    (m.put f up).isRaised g = if g = f then up else m.isRaised g := by
  split
  · next h => rw [h, isRaised_put_self]
  · next h => exact m.isRaised_put_of_ne up h

/-- How diagnostics show a flag. -/
def shown (m : Flags) (f : Flag) : Text.Shown :=
  .whole "SharingFlag" [("slot", .number f.slot), ("set", .truth (m.isRaised f))]

/-- How diagnostics show a block. -/
def blockShown (m : Flags) (block : Nat) : Text.Shown :=
  .whole "FlagBlock" [("set", .number (m.raisedIn block))]

end Flags

end ReaderWriter.ReadMostly
