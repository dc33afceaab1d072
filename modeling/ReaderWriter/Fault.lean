import ReaderWriter.ReadMostly.Claim

/-!
# Faults

The ways in which a caller can break the contract of a lock. A fault ends the call that ran into
it; each fault has one fixed text.
-/

namespace ReaderWriter

/-- A broken contract, found by the operation that was called. -/
inductive Fault where
  /-- A shared holder was added to a word whose unique lock is held. -/
  | sharedUnderUnique
  /-- The word counts as many shared holders as it can. -/
  | holderOverflow
  /-- A shared lock was released that is not held. -/
  | sharedNotHeld
  /-- A unique lock was released that is not held. -/
  | uniqueNotHeld
  /-- A read-mostly lock was released while its claim was not `yes`. -/
  | claimNotHeld (found : ReadMostly.Claim)
  /-- A shared lock was asked for by a thread whose lock records are already torn down. -/
  | tornDown
  /-- A flag was asked of a thread-local supply that is already torn down. -/
  | supplyGone
deriving DecidableEq

/-- The text of a fault. -/
def Fault.message : Fault → String
  | .sharedUnderUnique => "shared acquire under unique lock"
  | .holderOverflow => "shared holder count overflow"
  | .sharedNotHeld => "unlock_shared without shared lock"
  | .uniqueNotHeld => "unlock without unique lock"
  | .claimNotHeld found =>
      "assertion `left == right` failed: unlock without unique lock\n  left: " ++ found.name ++
        "\n right: " ++ ReadMostly.Claim.yes.name
  | .tornDown => "lock_shared called during thread teardown"
  | .supplyGone =>
      "cannot access a Thread Local Storage value during or after destruction: AccessError"

end ReaderWriter
