/-!
# Claims

The state of the exclusive side of a read-mostly lock.
-/

namespace ReaderWriter.ReadMostly

/-- What the exclusive side says to arriving readers. -/
inductive Claim where
  /-- No writer holds or wants the lock. -/
  | no
  /-- A writer waits for the readers to leave. -/
  | want
  /-- A writer holds the lock. -/
  | yes
deriving DecidableEq

/-- The name under which a claim is shown. -/
def Claim.name : Claim → String
  | .no => "No"
  | .want => "Want"
  | .yes => "Yes"

end ReaderWriter.ReadMostly
