import ReaderWriter.Fault
import ReaderWriter.Limits
import ReaderWriter.Text.Record

/-!
# Control words

One 32-bit word holds everything about a lock that must change at once:

* bit 0: a writer is waiting;
* bit 1: the unique lock is held;
* bit 2: readers are waiting;
* bits 3 to 31: the number of shared holders.

The questions and updates below are pure functions on words. An update that the contract forbids
is a `Fault`.
-/

namespace ReaderWriter

/-- How a lock is held or asked for. -/
inductive Mode where
  /-- By one holder, to the exclusion of all others. -/
  | unique
  /-- Together with other shared holders. -/
  | shared
deriving DecidableEq

/-- A control word. -/
structure Word where
  bits : UInt32
deriving DecidableEq

namespace Word

/-- The bit that says that a writer is waiting. -/
def uniqueWaitBit : UInt32 := 1

/-- The bit that says that the unique lock is held. -/
def uniqueLockBit : UInt32 := 2

/-- The bit that says that readers are waiting. -/
def sharedWaitBit : UInt32 := 4

/-- One shared holder. -/
def sharedOne : UInt32 := 8

/-- The bits of waiters. -/
def waitMask : UInt32 := uniqueWaitBit ||| sharedWaitBit

/-- No holder and no waiter. -/
def idle : Word := ⟨0⟩

/-! ## Questions -/

/-- The unique lock is held. -/
def uniqueLocked (w : Word) : Bool := w.bits &&& uniqueLockBit != 0

/-- A writer is waiting. -/
def uniqueWanted (w : Word) : Bool := w.bits &&& uniqueWaitBit != 0

/-- Readers are waiting. -/
def sharedWaiting (w : Word) : Bool := w.bits &&& sharedWaitBit != 0

/-- The number of shared holders. -/
def sharedCount (w : Word) : UInt32 := w.bits / sharedOne

/-- Someone holds the lock, in either mode. -/
def held (w : Word) : Bool := w.bits &&& ~~~waitMask != 0

/-- Someone is waiting. -/
def hasWaiters (w : Word) : Bool := w.bits &&& waitMask != 0

/-- Someone is waiting and nobody holds the lock, so no release will ever wake the waiter. -/
def stranded (w : Word) : Bool := w.hasWaiters && !w.held

/-- Arriving readers stay out: a writer holds or wants the lock. -/
def blocksShared (w : Word) : Bool := w.bits &&& (uniqueLockBit ||| uniqueWaitBit) != 0

/-- A waiter could go on and no holder is bound to wake it: it is stranded, or readers wait
although no writer is around. -/
def hasAdmissibleWaiters (w : Word) : Bool :=
  w.stranded || (w.sharedWaiting && !w.blocksShared)

/-! ## Updates -/

/-- The unique lock is taken. -/
def withUniqueLock (w : Word) : Word := ⟨w.bits ||| uniqueLockBit⟩

/-- The unique lock is given up. -/
def withoutUniqueLock (w : Word) : Word := ⟨w.bits &&& ~~~uniqueLockBit⟩

/-- A writer begins to wait. -/
def withUniqueWait (w : Word) : Word := ⟨w.bits ||| uniqueWaitBit⟩

/-- No writer waits any more. -/
def withoutUniqueWait (w : Word) : Word := ⟨w.bits &&& ~~~uniqueWaitBit⟩

/-- A reader begins to wait. -/
def withSharedWait (w : Word) : Word := ⟨w.bits ||| sharedWaitBit⟩

/-- No reader waits any more. -/
def withoutSharedWait (w : Word) : Word := ⟨w.bits &&& ~~~sharedWaitBit⟩

/-- One more shared holder. That the unique lock is free is checked before the count is. -/
def withSharedAcquired (w : Word) : Except Fault Word :=
  if w.uniqueLocked then .error .sharedUnderUnique
  else if maxSharedHolders ≤ w.sharedCount then .error .holderOverflow
  else .ok ⟨w.bits + sharedOne⟩

/-- One shared holder less. -/
def withSharedReleased (w : Word) : Except Fault Word :=
  if w.sharedCount = 0 then .error .sharedNotHeld else .ok ⟨w.bits - sharedOne⟩

/-- The unique lock is given up by a caller who must hold it. -/
def withUniqueReleased (w : Word) : Except Fault Word :=
  if w.uniqueLocked then .ok w.withoutUniqueLock else .error .uniqueNotHeld

/-! ## Text -/

/-- The digits of a word in base two, without leading zeros. -/
def binary (n : Nat) : String := "0b" ++ String.ofList (Nat.toDigits 2 n)

/-- How diagnostics show a word. -/
def shown (w : Word) : Text.Shown :=
  .whole "ControlWord" [
    ("bits", .atom (binary w.bits.toNat)),
    ("unique_locked", .truth w.uniqueLocked),
    ("unique_wanted", .truth w.uniqueWanted),
    ("shared_waiting", .truth w.sharedWaiting),
    ("shared_count", .number w.sharedCount.toNat)]

end Word

end ReaderWriter
