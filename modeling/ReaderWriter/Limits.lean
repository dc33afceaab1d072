/-!
# Limits

The constants of the lock family: layout, wait tuning, and the largest number of shared holders
a control word can count.
-/

namespace ReaderWriter

/-- Bytes in a cache line. Cells that several threads write are aligned to it. -/
def cacheLine : Nat := 64

/-- Sharing flags in one block. A flag is one byte, so a block fills exactly one cache line. -/
def flagsPerBlock : Nat := cacheLine

/-- Largest shared-holder count of a control word, whose low three bits hold other fields. -/
def maxSharedHolders : UInt32 := 0x1FFFFFFF

/-- The exponent at which the number of spin hints per step stops doubling. -/
def spinShiftCap : Nat := 6

/-- Longest single sleep between two timed attempts, in nanoseconds. A short slice keeps a caller
from waking long after the lock became free. -/
def retrySlice : Nat := 500000

/-- A hint that a condition is expected to hold. It is about speed only and keeps the value. -/
def likely (b : Bool) : Bool := b

/-- A hint that a condition is expected to fail. It is about speed only and keeps the value. -/
def unlikely (b : Bool) : Bool := b

end ReaderWriter
