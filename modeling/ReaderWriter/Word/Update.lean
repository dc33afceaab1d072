import ReaderWriter.Word

/-!
# Updates by name

The updates of a control word as data, so that a row of them can be applied to a word.
-/

namespace ReaderWriter.Word

/-- An update of a control word. -/
inductive Update where
  | withUniqueLock
  | withoutUniqueLock
  | withUniqueWait
  | withoutUniqueWait
  | withSharedWait
  | withoutSharedWait
  | withSharedAcquired
  | withSharedReleased
deriving DecidableEq

namespace Update

/-- The update of the given name. -/
def ofName? : String → Option Update
  | "with_unique_lock" => some .withUniqueLock
  | "without_unique_lock" => some .withoutUniqueLock
  | "with_unique_wait" => some .withUniqueWait
  | "without_unique_wait" => some .withoutUniqueWait
  | "with_shared_wait" => some .withSharedWait
  | "without_shared_wait" => some .withoutSharedWait
  | "with_shared_acquired" => some .withSharedAcquired
  | "with_shared_released" => some .withSharedReleased
  | _ => none

/-- The word after an update. -/
def apply (w : Word) : Update → Except Fault Word
  | .withUniqueLock => .ok w.withUniqueLock
  | .withoutUniqueLock => .ok w.withoutUniqueLock
  | .withUniqueWait => .ok w.withUniqueWait
  | .withoutUniqueWait => .ok w.withoutUniqueWait
  | .withSharedWait => .ok w.withSharedWait
  | .withoutSharedWait => .ok w.withoutSharedWait
  | .withSharedAcquired => w.withSharedAcquired
  | .withSharedReleased => w.withSharedReleased

end Update

/-- What each of a row of updates makes of a word. An update that faults, and one that there is
not, leaves the word as it was. -/
def trail (w : Word) : List (Option Update) → List (Option (Except Fault Word))
  | [] => []
  | none :: rest => none :: w.trail rest
  | some u :: rest =>
      match u.apply w with
      | .ok w' => some (.ok w') :: w'.trail rest
      | .error f => some (.error f) :: w.trail rest

end ReaderWriter.Word
