import Mathlib.Algebra.Order.Floor.Div
import ReaderWriter.Proofs.Backoffs
import ReaderWriter.Retry

/-!
# Timed attempts one after the other

A timed acquisition makes trials until one of them succeeds or the clock has reached the deadline.
What follows a trial that failed is told by the number of trials before it and the reading of the
clock: the standard backoff is used up after `Retry.backoffSteps` trials, and only then the
acquisition begins to sleep.

* `Retry.decision_afterAll`: what follows a trial that failed.
* `Retry.elapsed`: how much time has passed before a trial if the clock moves only by the sleeps of
  the acquisition.
* `Retry.elapsed_lt_iff`, `Retry.patience`: how many trials there are until the deadline.
-/

namespace ReaderWriter

/-- A trial of a timed acquisition that has ended. -/
structure Trial where
  /-- It got the lock. -/
  granted : Bool
  /-- The reading of the clock at its end. -/
  reading : Int
deriving DecidableEq

namespace Retry

/-- The steps after which the standard backoff is used up. -/
def backoffSteps : Nat := 50

/-- The acquisition after trials that failed, one after the other. -/
def afterAll (r : Retry) (trials : List Trial) : Retry :=
  trials.foldl (fun r trial => r.after trial.reading) r

/-- All trials have failed, before the deadline. -/
def AllFailed (deadline : Int) (trials : List Trial) : Prop :=
  ∀ trial ∈ trials, trial.granted = false ∧ trial.reading < deadline

variable {start deadline now : Int} {trials : List Trial}

theorem AllFailed.concat (h : AllFailed deadline trials) (hnow : now < deadline) :
    AllFailed deadline (trials ++ [⟨false, now⟩]) := by
  intro trial hmem
  rcases List.mem_append.mp hmem with hmem | hmem
  · exact h trial hmem
  · rw [List.mem_singleton.mp hmem]
    exact ⟨rfl, hnow⟩

/-- The backoff of an acquisition that has made so many steps. -/
theorem exhausted_standard (k : Nat) :
    (Backoff.next^[k] (.ofConfig .standard)).exhausted = true ↔ backoffSteps ≤ k := by
  rw [Backoff.exhausted_iterate]
  exact Iff.rfl

theorem afterAll_concat (r : Retry) (trials : List Trial) (trial : Trial) :
    r.afterAll (trials ++ [trial]) = (r.afterAll trials).after trial.reading := by
  simp [afterAll]

/-- After trials that failed before the deadline, the backoff has made a step for each of them until
it was used up. -/
theorem afterAll_eq (h : AllFailed deadline trials) :
    (begin start deadline).afterAll trials =
      ⟨start, deadline, Backoff.next^[min trials.length backoffSteps] (.ofConfig .standard)⟩ := by
  induction trials using List.reverseRecOn with
  | nil => rfl
  | append_singleton trials trial ih =>
    obtain ⟨-, hreading⟩ := h trial (by simp)
    rw [afterAll_concat, ih fun trial hmem => h trial (List.mem_append_left _ hmem), after,
      decision, if_neg (Int.not_le.mpr hreading), List.length_append, List.length_singleton]
    by_cases hlt : trials.length < backoffSteps
    · have hfresh : ¬ (Backoff.next^[min trials.length backoffSteps]
          (.ofConfig .standard)).exhausted = true := by
        rw [exhausted_standard]
        omega
      have hmin : min (trials.length + 1) backoffSteps = min trials.length backoffSteps + 1 := by
        omega
      rw [if_neg hfresh, hmin, Function.iterate_succ_apply']
    · have hused : (Backoff.next^[min trials.length backoffSteps]
          (.ofConfig .standard)).exhausted = true := by
        rw [exhausted_standard]
        omega
      have hmin : min (trials.length + 1) backoffSteps = min trials.length backoffSteps := by
        omega
      rw [if_pos hused, hmin]

/-- What follows a trial that failed after others that failed before the deadline. -/
theorem decision_afterAll (start : Int) (h : AllFailed deadline trials) (now : Int) :
    ((begin start deadline).afterAll trials).decision now =
      if deadline ≤ now then .giveUp ⟨(now - start).toNat⟩
      else if backoffSteps ≤ trials.length then .sleep (min (deadline - now).toNat retrySlice)
      else .backOff (Backoff.next^[trials.length] (.ofConfig .standard)).yields := by
  rw [afterAll_eq h, decision]
  refine ite_congr rfl (fun _ => rfl) fun _ => ?_
  refine ite_congr ?_ (fun _ => rfl) fun hfew => ?_
  · rw [exhausted_standard]
    exact propext ⟨fun hle => by omega, fun hle => by omega⟩
  · rw [Nat.min_eq_left (by omega)]

/-- An acquisition is given up when its deadline is over. -/
theorem of_decision_giveUp {waited : Duration} (h : AllFailed deadline trials)
    (hd : ((begin start deadline).afterAll trials).decision now = .giveUp waited) :
    deadline ≤ now ∧ waited = ⟨(now - start).toNat⟩ := by
  rw [decision_afterAll start h] at hd
  split at hd
  · next hover =>
    cases hd
    exact ⟨hover, rfl⟩
  · split at hd <;> cases hd

/-- An acquisition sleeps before the deadline, when the backoff is used up. -/
theorem of_decision_sleep {nanos : Nat} (h : AllFailed deadline trials)
    (hd : ((begin start deadline).afterAll trials).decision now = .sleep nanos) :
    now < deadline ∧ backoffSteps ≤ trials.length ∧
      nanos = min (deadline - now).toNat retrySlice := by
  rw [decision_afterAll start h] at hd
  split at hd
  · cases hd
  · next hbefore =>
    split at hd
    · next hsteps =>
      cases hd
      exact ⟨Int.not_le.mp hbefore, hsteps, rfl⟩
    · cases hd

/-- An acquisition backs off before the deadline, while the backoff is not used up. -/
theorem of_decision_backOff {yields : Bool} (h : AllFailed deadline trials)
    (hd : ((begin start deadline).afterAll trials).decision now = .backOff yields) :
    now < deadline ∧ trials.length < backoffSteps := by
  rw [decision_afterAll start h] at hd
  split at hd
  · cases hd
  · next hbefore =>
    split at hd
    · cases hd
    · next hsteps => exact ⟨Int.not_le.mp hbefore, Nat.not_le.mp hsteps⟩

/-- A sleep between two trials is not empty, and ends at the deadline at the latest. -/
theorem slice_bounds (h : now < deadline) :
    0 < min (deadline - now).toNat retrySlice ∧
      min (deadline - now).toNat retrySlice ≤ retrySlice ∧
      ((min (deadline - now).toNat retrySlice : Nat) : Int) ≤ deadline - now := by
  have hslice : retrySlice = 500000 := rfl
  omega

/-! ## When only the sleeps take time -/

/-- The time that has passed before trial number `k`, of `length` in all, if the clock moves only by
the sleeps of the acquisition. -/
def elapsed (length k : Nat) : Nat := min length ((k - backoffSteps) * retrySlice)

/-- How many trials an acquisition makes, all of which fail, if the clock moves only by its own
sleeps. -/
def patience (start deadline : Int) : Nat :=
  if deadline ≤ start then 1 else 51 + (deadline - start).toNat ⌈/⌉ retrySlice

variable {length k : Nat}

theorem elapsed_zero (length : Nat) : elapsed length 0 = 0 := by
  simp [elapsed]

/-- Before the deadline a trial is followed by a step of the backoff, or by a sleep. -/
theorem elapsed_succ (h : elapsed length k < length) :
    elapsed length (k + 1) =
      elapsed length k +
        if backoffSteps ≤ k then min (length - elapsed length k) retrySlice else 0 := by
  unfold elapsed at h ⊢
  by_cases hk : backoffSteps ≤ k
  · rw [if_pos hk, Nat.succ_sub hk, Nat.succ_mul]
    omega
  · rw [if_neg hk, Nat.sub_eq_zero_of_le (by omega), Nat.sub_eq_zero_of_le (by omega)]
    rfl

/-- A trial comes before the deadline iff it is not one too many. -/
theorem elapsed_lt_iff :
    elapsed length k < length ↔ 0 < length ∧ k < backoffSteps + length ⌈/⌉ retrySlice := by
  have hslice : 0 < retrySlice := by decide
  have hceil : length ⌈/⌉ retrySlice ≤ k - backoffSteps ↔
      length ≤ retrySlice * (k - backoffSteps) :=
    ceilDiv_le_iff_le_mul hslice
  unfold elapsed
  rw [Nat.mul_comm (k - backoffSteps)]
  by_cases hk : backoffSteps ≤ k
  · omega
  · rw [Nat.sub_eq_zero_of_le (by omega)]
    omega

/-- The acquisition goes on iff it has not made all its trials. -/
theorem elapsed_lt_iff_patience :
    elapsed (deadline - start).toNat k < (deadline - start).toNat ↔
      k + 1 < patience start deadline := by
  have hsteps : backoffSteps = 50 := rfl
  rw [elapsed_lt_iff, patience]
  split <;> omega

end Retry

end ReaderWriter
