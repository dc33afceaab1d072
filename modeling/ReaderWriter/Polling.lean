import ReaderWriter.Backoff
import ReaderWriter.Turn

/-!
# The polling lock

A control word alone: contended callers back off and look again instead of parking. A waiting
writer sets the unique-wait bit, so that new readers stay out. Whoever wins the unique lock clears
the bit; writers that still poll set it again in their next round. The shared-wait bit is never
used.
-/

namespace ReaderWriter.Polling

/-- The state of a polling lock. -/
structure State where
  config : Config
  word : Word := .idle
deriving DecidableEq

/-- How diagnostics show the lock. -/
def State.shown (s : State) : Text.Shown := .part "PollingSharedMutex" [("control", s.word.shown)]

/-- Where a thread stands in an operation. -/
inductive Pc where
  /-- About to back off. -/
  | polling (mode : Mode) (backoff : Backoff)
  /-- The backoff yields. -/
  | yielding (mode : Mode) (backoff : Backoff)
deriving DecidableEq

/-- The word of a lock that a writer has just taken. -/
def taken : Word := Word.idle.withUniqueLock

/-- A waiting caller looks at the word: it takes the lock, or it announces itself and backs off. -/
def attempt (mode : Mode) (backoff : Backoff) (s : State) : Turn State Pc :=
  match mode with
  | .unique =>
      if s.word.held then
        { state := { s with word := s.word.withUniqueWait }
          stand := .here (.polling .unique backoff) }
      else { state := { s with word := taken }, stand := .done .unit }
  | .shared =>
      if s.word.blocksShared then { state := s, stand := .here (.polling .shared backoff) }
      else
        match s.word.withSharedAcquired with
        | .ok w => { state := { s with word := w }, stand := .done .unit }
        | .error f => { state := s, stand := .fault f }

/-- The end of a release. -/
def afterRelease (s : State) : Except Fault Word → Turn State Pc
  | .error f => { state := s, stand := .fault f }
  | .ok w => { state := { s with word := w }, stand := .done .unit }

/-- The first turn of an operation. -/
def start (op : Operation) (s : State) : Turn State Pc :=
  match op with
  | .acquire mode => attempt mode (.ofConfig s.config) s
  | .tryAcquire .unique =>
      if s.word.held then { state := s, stand := .done (.granted false) }
      else { state := { s with word := taken }, stand := .done (.granted true) }
  | .tryAcquire .shared =>
      if s.word.blocksShared then { state := s, stand := .done (.granted false) }
      else
        match s.word.withSharedAcquired with
        | .ok w => { state := { s with word := w }, stand := .done (.granted true) }
        | .error f => { state := s, stand := .fault f }
  | .release .unique => afterRelease s s.word.withUniqueReleased
  | .release .shared => afterRelease s s.word.withSharedReleased

/-- The next turn of a thread that stands at `pc`. -/
def resume (pc : Pc) (s : State) : Turn State Pc :=
  match pc with
  | .polling mode backoff =>
      if backoff.yields then { state := s, stand := .here (.yielding mode backoff.next) }
      else attempt mode backoff.next s
  | .yielding mode backoff => attempt mode backoff s

/-- How a place of the algorithm is seen. -/
def Pc.place : Pc → Place
  | .polling _ _ => .location .spin
  | .yielding _ _ => .yielding

end ReaderWriter.Polling
