import ReaderWriter.Word

/-!
# Cells

A memory cell that holds a control word and is changed by whole-word transitions only.
-/

namespace ReaderWriter.Word

/-- What can be done to a cell. -/
inductive CellAction where
  /-- Install `new` if the cell holds `current`. -/
  | exchange (current new : Word)
  /-- Add a shared holder unless a writer holds or wants the lock. -/
  | tryAcquireShared
  | releaseShared
  | releaseUnique
  /-- Raise the bits `raised`, unless a bit of `mask` is set. -/
  | raise (mask raised : UInt32)
  /-- The diagnostic text of the word. -/
  | debug
deriving DecidableEq

/-- What a cell answers. -/
inductive CellAnswer where
  /-- The transition was made from this word. -/
  | exchanged (previous : Word)
  /-- The transition was not made because the cell holds this word. -/
  | kept (actual : Word)
  /-- The transition was made from the first word to the second one. -/
  | moved (previous installed : Word)
  | truth (b : Bool)
  | bits (w : Word)
  | text (s : String)
  | fault (f : Fault)
deriving DecidableEq

/-- Adds a shared holder unless a writer holds or wants the lock. -/
def tryAcquireShared (w : Word) : Except Fault (Option Word) :=
  if w.blocksShared then .ok none else w.withSharedAcquired.map some

/-- The answer of a release, and the word that it leaves behind. -/
def released (w : Word) : Except Fault Word → CellAnswer × Word
  | .ok w' => (.bits w', w')
  | .error f => (.fault f, w)

/-- What an action answers and leaves in a cell that holds `w`. -/
def CellAction.apply (w : Word) : CellAction → CellAnswer × Word
  | .exchange current new => if w = current then (.exchanged w, new) else (.kept w, w)
  | .tryAcquireShared =>
      match w.tryAcquireShared with
      | .ok (some w') => (.truth true, w')
      | .ok none => (.truth false, w)
      | .error f => (.fault f, w)
  | .releaseShared => w.released w.withSharedReleased
  | .releaseUnique => w.released w.withUniqueReleased
  | .raise mask raised =>
      if w.bits &&& mask != 0 then (.kept w, w)
      else
        let w' : Word := ⟨w.bits ||| raised⟩
        (.moved w w', w')
  | .debug => (.text w.shown.line, w)

/-- Runs actions on a cell that holds `w`; each answers, and the word after it is told. An action
that there is not is skipped. -/
def runCell (w : Word) : List (Option CellAction) → List (Option CellAnswer × Word)
  | [] => []
  | none :: rest => (none, w) :: w.runCell rest
  | some a :: rest =>
      let (answer, w') := a.apply w
      (some answer, w') :: w'.runCell rest

end ReaderWriter.Word
