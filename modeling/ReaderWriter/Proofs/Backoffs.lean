import Mathlib.Algebra.Group.Nat.Defs
import Mathlib.Logic.Function.Iterate
import ReaderWriter.Backoff

/-!
# Backoffs step by step

A fresh backoff after so many steps. Its counter stops at the largest step, and so do the limits
that it is compared with, so what the backoff does next is told by the number of steps itself,
however large it is.

* `Backoff.step_iterate`: the counter after so many steps.
* `Backoff.yields_iterate`, `Backoff.exhausted_iterate`: when the next step yields, and when the
  backoff is used up.
* `Strategy.parks_iterate`: when a wait parks.
-/

namespace ReaderWriter

namespace Backoff

variable (b : Backoff) (c : Config) (k : Nat)

theorem step_lt : b.step.toNat < lastStep.toNat + 1 := b.step.toNat_lt

theorem step_next : b.next.step.toNat = min (b.step.toNat + 1) lastStep.toNat := by
  have hlt := b.step_lt
  unfold next
  split
  · next hlast =>
    rw [hlast]
    exact (Nat.min_eq_right (Nat.le_succ _)).symm
  · next hlast =>
    have hne : b.step.toNat ≠ lastStep.toNat := mt UInt32.toNat_inj.mp hlast
    have hlast : lastStep.toNat = 4294967295 := rfl
    simp only [UInt32.toNat_add, UInt32.toNat_one]
    omega

@[simp]
theorem maxSpins_next : b.next.maxSpins = b.maxSpins := rfl

@[simp]
theorem maxYields_next : b.next.maxYields = b.maxYields := rfl

theorem maxSpins_iterate : (next^[k] b).maxSpins = b.maxSpins := by
  induction k with
  | zero => rfl
  | succ k ih => rw [Function.iterate_succ_apply', maxSpins_next, ih]

theorem maxYields_iterate : (next^[k] b).maxYields = b.maxYields := by
  induction k with
  | zero => rfl
  | succ k ih => rw [Function.iterate_succ_apply', maxYields_next, ih]

theorem step_iterate : (next^[k] b).step.toNat = min (b.step.toNat + k) lastStep.toNat := by
  induction k with
  | zero =>
    have hlt := b.step_lt
    simp only [Function.iterate_zero, id_eq]
    omega
  | succ k ih =>
    rw [Function.iterate_succ_apply', step_next, ih]
    omega

/-- The step number `k` of a fresh backoff yields iff as many steps as spin are over. -/
theorem yields_iterate : (next^[k] (ofConfig c)).yields = true ↔ c.maxSpins.toNat ≤ k := by
  have hlt := c.maxSpins.toNat_lt
  have hlast : lastStep.toNat = 4294967295 := rfl
  rw [yields, decide_eq_true_eq, UInt32.le_iff_toNat_le, maxSpins_iterate, step_iterate]
  simp only [ofConfig, UInt32.toNat_zero]
  omega

/-- A fresh backoff is used up after as many steps as both its phases have, or after the largest
step. -/
theorem exhausted_iterate :
    (next^[k] (ofConfig c)).exhausted = true ↔
      min (c.maxSpins.toNat + c.maxYields.toNat) (2 ^ 32 - 1) ≤ k := by
  have hlast : lastStep.toNat = 4294967295 := rfl
  rw [exhausted, decide_eq_true_eq, maxSpins_iterate, maxYields_iterate, step_iterate]
  simp only [ofConfig, UInt32.toNat_zero]
  omega

/-- A backoff that is used up stays so. -/
theorem exhausted_next {b : Backoff} (h : b.exhausted = true) : b.next.exhausted = true := by
  have hstep := b.step_next
  have hlt := b.step_lt
  rw [exhausted, decide_eq_true_eq] at h ⊢
  rw [maxSpins_next, maxYields_next]
  omega

end Backoff

/-- No call follows the automatic strategy itself. -/
theorem Strategy.resolve_ne_auto (s : Strategy) (host : Host) : s.resolve host ≠ .auto := by
  cases s with
  | auto =>
    rw [resolve]
    split <;> nofun
  | spin | block | adaptive => nofun

/-- When a wait parks whose backoff has made so many steps. -/
theorem Strategy.parks_iterate {s : Strategy} (hauto : s ≠ .auto) (c : Config) (k : Nat) :
    s.parks (Backoff.next^[k] (.ofConfig c)) = true ↔
      s = .block ∨ s = .adaptive ∧
        min (c.maxSpins.toNat + c.maxYields.toNat) (2 ^ 32 - 1) ≤ k := by
  cases s with
  | adaptive => simpa [Strategy.parks] using Backoff.exhausted_iterate c k
  | spin | block => simp [Strategy.parks]
  | auto => exact absurd rfl hauto

end ReaderWriter
