import ReaderWriter.Config

/-!
# Backoff

A counter of retry steps. The first `maxSpins` steps spin in place, all later ones yield to other
threads; after `maxSpins + maxYields` steps the backoff is used up, which tells adaptive callers to
park. The counter stays at its largest value instead of wrapping around.
-/

namespace ReaderWriter

/-- The state of a retry loop. -/
structure Backoff where
  step : UInt32
  maxSpins : UInt32
  maxYields : UInt32
deriving DecidableEq

namespace Backoff

/-- The largest step. -/
def lastStep : UInt32 := 0xFFFFFFFF

/-- A fresh backoff with the limits of a configuration. -/
def ofConfig (c : Config) : Backoff := ⟨0, c.maxSpins, c.maxYields⟩

/-- Both phases are used up. Their total length is cut at the largest step. -/
def exhausted (b : Backoff) : Bool :=
  decide (min (b.maxSpins.toNat + b.maxYields.toNat) lastStep.toNat ≤ b.step.toNat)

/-- Whether the next step yields to other threads. -/
def yields (b : Backoff) : Bool := decide (b.maxSpins ≤ b.step)

/-- The backoff after one step. -/
def next (b : Backoff) : Backoff :=
  { b with step := if b.step = lastStep then lastStep else b.step + 1 }

/-- The backoff after `n` steps, and how many of them yielded on top of `yielded`. -/
def stepsFrom (b : Backoff) (yielded : Nat) : Nat → Backoff × Nat
  | 0 => (b, yielded)
  | n + 1 => b.next.stepsFrom (yielded + if b.yields then 1 else 0) n

/-- The backoff after `n` steps, and how many of them yielded. -/
def steps (b : Backoff) (n : Nat) : Backoff × Nat := b.stepsFrom 0 n

/-- The backoffs after so many steps, then so many more, and so on, each with the number of its
steps that yielded since the one before. -/
def trail (b : Backoff) : List Nat → List (Backoff × Nat)
  | [] => []
  | n :: rest =>
      let (b', yielded) := b.steps n
      (b', yielded) :: b'.trail rest

/-- How diagnostics show a backoff. -/
def shown (b : Backoff) : Text.Shown :=
  .whole "Backoff" [
    ("step", .number b.step.toNat),
    ("max_spins", .number b.maxSpins.toNat),
    ("max_yields", .number b.maxYields.toNat)]

end Backoff

/-- Whether a wait with this strategy parks when its backoff stands at `b`. -/
def Strategy.parks (s : Strategy) (b : Backoff) : Bool :=
  match s with
  | .spin => false
  | .adaptive => b.exhausted
  | .block | .auto => true

end ReaderWriter
