import ReaderWriter.Duration
import ReaderWriter.Text.Record

/-!
# Failures

Why a timed or a non-waiting acquisition that hands out a guard did not get the lock.
-/

namespace ReaderWriter

/-- Why an acquisition failed. -/
inductive Failure where
  /-- The deadline passed; `waited` is the time spent. -/
  | timeout (waited : Duration)
  /-- The lock is held in a conflicting mode. -/
  | wouldBlock
deriving DecidableEq

namespace Failure

/-- The name of the kind of failure. -/
def kind : Failure → String
  | .timeout _ => "Timeout"
  | .wouldBlock => "WouldBlock"

/-- The text for a user. -/
def message : Failure → String
  | .timeout waited => "Lock acquisition timed out after " ++ waited.text
  | .wouldBlock => "Lock is held in a conflicting mode"

/-- Whether the deadline passed. -/
def isTimeout : Failure → Bool
  | .timeout _ => true
  | .wouldBlock => false

/-- How diagnostics show a failure. -/
def shown : Failure → Text.Shown
  | .timeout waited => .wrapped "Timeout" (.atom waited.text)
  | .wouldBlock => .atom "WouldBlock"

end Failure

end ReaderWriter
