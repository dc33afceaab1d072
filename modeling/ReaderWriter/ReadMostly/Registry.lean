import ReaderWriter.Config
import ReaderWriter.ReadMostly.Flag
import ReaderWriter.Threads

/-!
# Registries

The flags of all threads that have taken a shared lock on one lock and have not ended since. The
list is guarded by a lock of its own, which many threads can hold for reading or one for writing.
A writer of the read-mostly lock looks through the list to see whether the readers have left. Where
the list's lock is task-fair, a thread that is to change the list reserves it first: from then on
nobody else gets it, and the thread has it once those have left who were reading.

A flag is taken off by `withdraw`, which moves the last entry into the gap. The order of the list
never shows: what a thread does on a lock is told with `remove`, which leaves the same flags.

* `Registry.isRaised_lowerAll`: a registry that goes lowers the flags on its list and no others.
-/

namespace ReaderWriter.ReadMostly

/-- The list without the entry at an index, whose place the last entry takes. -/
def swapRemove {α : Type} (entries : List α) (i : Nat) : List α :=
  match entries.getLast? with
  | some last => (entries.set i last).dropLast
  | none => []

/-- A registry. -/
structure Registry where
  entries : List Flag := []
  /-- The thread that holds the list for writing, or has reserved it for that and waits for those
  who hold it for reading. -/
  writer : Option ThreadId := none
  /-- The threads that hold the list for reading. -/
  readers : List ThreadId := []
deriving DecidableEq

namespace Registry

/-- The list can be had for reading: nobody changes it or has reserved it. -/
def canRead (r : Registry) : Bool := r.writer.isNone

/-- The list can be had for writing. -/
def canWrite (r : Registry) : Bool := r.writer.isNone && r.readers.isEmpty

/-- The list can be had for writing or, under a task-fair lock, at least be reserved for that. -/
def canReserve (r : Registry) (host : Host) : Bool := r.canWrite || (host.taskFair && r.canRead)

/-- A thread takes the list for reading. -/
def beginRead (r : Registry) (t : ThreadId) : Registry := { r with readers := t :: r.readers }

/-- A thread gives the list back after reading. -/
def endRead (r : Registry) (t : ThreadId) : Registry := { r with readers := r.readers.erase t }

/-- A thread takes the list for writing, or reserves it. -/
def beginWrite (r : Registry) (t : ThreadId) : Registry := { r with writer := some t }

/-- The list is given back after writing. -/
def endWrite (r : Registry) : Registry := { r with writer := none }

/-- Adds a flag. -/
def add (r : Registry) (f : Flag) : Registry := { r with entries := r.entries ++ [f] }

/-- Takes one occurrence of a flag off the list, if there is one. -/
def remove (r : Registry) (f : Flag) : Registry := { r with entries := r.entries.erase f }

/-- Takes the first entry for a flag off the list, if there is one, as the list lies in memory: the
last entry moves into the gap. -/
def withdraw (r : Registry) (f : Flag) : Registry :=
  match r.entries.findIdx? fun entry => entry == f with
  | some i => { r with entries := swapRemove r.entries i }
  | none => r

/-- No flag on the list is raised. -/
def allClear (r : Registry) (m : Flags) : Bool := r.entries.all fun f => !m.isRaised f

/-- How many flags on the list are raised. -/
def raisedCount (r : Registry) (m : Flags) : Nat := (r.entries.filter m.isRaised).length

/-- The memory after the registry has gone: its flags are down. -/
def lowerAll (r : Registry) (m : Flags) : Flags := r.entries.foldl (fun m f => m.put f false) m

theorem isRaised_lowerAll (r : Registry) (m : Flags) (f : Flag) :
    (r.lowerAll m).isRaised f = (m.isRaised f && !decide (f ∈ r.entries)) := by
  unfold lowerAll
  generalize r.entries = entries
  induction entries generalizing m with
  | nil => simp
  | cons g entries ih =>
    rw [List.foldl_cons, ih, m.isRaised_put]
    split
    · next heq => simp [heq]
    · next hne => simp [hne]

end Registry

end ReaderWriter.ReadMostly
