import ReaderWriter.Proofs.Holders
import ReaderWriter.Proofs.ReadMostly.Exclusion

/-!
# Mutual exclusion

No run lets a writer in beside anyone else, however its threads are interleaved.

1. `controlWord_counts_holders`: the control word of a blocking or polling lock says who holds it.
2. `readMostly_excludes`: on a read-mostly lock, a writer is alone.
-/

namespace ReaderWriter

/-! ## 1. Locks with a control word -/

/-- In every run in which the lock is only given up while it is held, its control word counts its
holders: the lock bit is set iff one unique lock has been granted and not given up, there are never
two, the number of shared holders is that of the shared locks granted and not given up, and a lock
is never held in both modes.

Nothing is asked about how many shared locks are held at once. A word that can count no more of
them refuses the next one with a fault, and goes on telling the truth. -/
theorem controlWord_counts_holders {r : Run} {m : Nat} {l : Lock} {w : Word}
    (h : Reachable (Run.ReleasesHeld m) r) (hl : r.world.locks[m]? = some l)
    (hw : l.body.word? = some w) :
    (w.uniqueLocked = true ↔ r.count m .unique = 1) ∧ r.count m .unique ≤ 1 ∧
      w.sharedCount.toNat = r.count m .shared ∧
      (r.count m .unique = 0 ∨ r.count m .shared = 0) := by
  have hcounts : w.Counts (r.count m) := by
    cases hs : l.body with
    | blocking s =>
      rw [hs] at hw
      cases hw
      have hcrowd : Blocking.machine.Reachable (fun _ => True) (r.crowd Blocking.machine m s) :=
        h.crowd Blocking.machine_is (fun _ _ hok => ⟨hok, fun _ _ _ _ => trivial⟩) l s hl hs
      exact hcrowd.counts Blocking.machine_countsHolders
    | polling s =>
      rw [hs] at hw
      cases hw
      have hcrowd : Polling.machine.Reachable (fun _ => True) (r.crowd Polling.machine m s) :=
        h.crowd Polling.machine_is (fun _ _ hok => ⟨hok, fun _ _ _ _ => trivial⟩) l s hl hs
      exact hcrowd.counts Polling.machine_countsHolders
    | readMostly s =>
      rw [hs] at hw
      cases hw
  have hlocked : w.fields.uniqueLocked = w.uniqueLocked := rfl
  have hholders : w.fields.holders = w.sharedCount.toNat := rfl
  rw [hcounts.unique, hcounts.shared, ← hlocked, ← hholders]
  cases hb : w.fields.uniqueLocked with
  | true => simp [hcounts.apart hb]
  | false => simp

/-- Two readers have a blocking lock. -/
def Run.twoReaders : Run :=
  play {} [.make ⟨.blocking, false, false⟩ .longWait, .call 0 0 (.operate (.acquire .shared)),
    .call 1 0 (.operate (.tryAcquire .shared))]

theorem controlWord_counts_two_readers :
    ∃ l w, Run.twoReaders.world.locks[0]? = some l ∧ l.body.word? = some w ∧
      w.sharedCount.toNat = 2 ∧ Run.twoReaders.count 0 .unique = 0 := by
  have hr : Reachable (Run.ReleasesHeld 0) Run.twoReaders :=
    Reachable.start.play (by decide +kernel)
  have hword : (Run.twoReaders.world.locks[0]?.bind (·.body.word?)).isSome = true := by
    decide +kernel
  obtain ⟨w, hword⟩ := Option.isSome_iff_exists.mp hword
  obtain ⟨l, hl, hw⟩ := Option.bind_eq_some_iff.mp hword
  have hcount : Run.twoReaders.count 0 .shared = 2 := by decide +kernel
  obtain ⟨-, -, hshared, hapart⟩ := controlWord_counts_holders hr hl hw
  exact ⟨l, w, hl, hw, hshared.trans hcount, by omega⟩

/-! ## 2. The read-mostly lock -/

/-- A lock is held by one writer at most, and by no reader beside a writer. -/
def Run.Excludes (r : Run) (m : Nat) : Prop :=
  r.count m .unique ≤ 1 ∧ (0 < r.count m .unique → r.count m .shared = 0)

namespace Run

variable {r r' : Run} {e : Event} {m : Nat}

theorem Excludes.of_sublist (h : r.Excludes m)
    (hsub : (Hold.on r'.holds m).Sublist (Hold.on r.holds m)) : r'.Excludes m := by
  have hle : ∀ mode, r'.count m mode ≤ r.count m mode := by
    intro mode
    rw [count, count, ← Hold.count_on, ← Hold.count_on r.holds]
    exact hsub.countP_le
  obtain ⟨hone, halone⟩ := h
  refine ⟨Nat.le_trans (hle _) hone, fun hpos => ?_⟩
  have hnone := halone (Nat.lt_of_lt_of_le hpos (hle _))
  exact Nat.le_zero.mp (hnone ▸ hle .shared)

/-- A lock is only granted while it is alive. -/
theorem on_sublist_of_dead (h : Move r e r') (hdead : ¬ r'.world.isAlive m = true) :
    (Hold.on r'.holds m).Sublist (Hold.on r.holds m) := by
  have hsame : r'.holds = r.holds → (Hold.on r'.holds m).Sublist (Hold.on r.holds m) :=
    fun heq => heq ▸ List.Sublist.refl _
  cases h with
  | @operate t n l job op h =>
    have hn : m ≠ n := by
      rintro rfl
      refine hdead ((World.isAlive_iff _ _).mpr (.inl ?_))
      obtain ⟨body, -, hlock⟩ := h.exists_lock
      exact ⟨_, (World.lock?_eq_some _ _).mpr ⟨hlock, h.owned⟩⟩
    rw [h.holds, Hold.on_settled_of_ne hn, Hold.on_begun_of_ne hn]
  | depart h =>
    rw [h.holds]
    exact Hold.abandoned_sublist.filter _
  | shift h => exact hsame h.holds
  | drop h => exact hsame h.holds
  | wake h => exact hsame h.holds
  | make h => exact hsame h.holds
  | rest h => exact hsame h.holds

end Run

theorem Reachable.excludes {r : Run} {m : Nat} (h : Reachable (Run.Behaves m) r) :
    ∀ {l : Lock}, r.world.locks[m]? = some l → l.body.algorithm = .readMostly → r.Excludes m := by
  induction h with
  | start => exact fun hl => nomatch hl
  | @step r e hreach hp hok ih =>
    intro l' hl' halg'
    by_cases halive : (r.after e).world.isAlive m = true
    · obtain ⟨s, hs⟩ := Body.exists_readMostly halg'
      obtain ⟨-, hcrowd⟩ :=
        (hreach.step hp hok).readMostlyCrowd (fun _ _ h => h) halive s ⟨l', hl', hs⟩
      have hexcludes := hcrowd.guarded.excludes
      simp only [Run.readMostlyCrowd, Hold.length_holders] at hexcludes
      exact hexcludes
    · -- A lock that has been dropped and left by all is not granted again.
      obtain ⟨⟨r₁, hmove, hrest⟩, -⟩ := Run.after_moves hreach.orderly hp
      have hsame : (r.after e).holds = r₁.holds ∧ ¬ r₁.world.isAlive m = true ∧
          ∀ l₁, r₁.world.locks[m]? = some l₁ → l'.body.algorithm = l₁.body.algorithm := by
        rcases hrest with ⟨heq, -⟩ | ⟨n, -, hdis⟩
        · rw [heq] at halive hl' ⊢
          refine ⟨rfl, halive, fun l₁ hl₁ => ?_⟩
          cases hl₁.symm.trans hl'
          rfl
        · refine ⟨hdis.holds, fun h => halive (hdis.isAlive_iff.mpr h), fun l₁ hl₁ => ?_⟩
          obtain ⟨l₂, hl₂, halg, -⟩ := World.Keeps.dissolve r₁.world n m l₁ hl₁
          rw [hdis.locks] at hl'
          cases hl₂.symm.trans hl'
          exact halg
      obtain ⟨hholds, hdead, halg⟩ := hsame
      have hbefore : r.Excludes m := by
        cases hl : r.world.locks[m]? with
        | none =>
          have hnone := Run.count_of_missing hreach.holdsExist hl
          simp [Run.Excludes, hnone]
        | some l =>
          obtain ⟨l₁, hl₁, halg₁⟩ := Run.algorithm_of_move hmove hl
          exact ih hl (halg₁.symm.trans ((halg l₁ hl₁).symm.trans halg'))
      refine hbefore.of_sublist ?_
      rw [hholds]
      exact Run.on_sublist_of_dead hmove hdead

/-- In every run in which the lock's callers behave, at most one unique lock is granted and not
given up, and while one is, nobody holds a shared lock.

A thread that ends with a shared lock holds it until it lowers its flag. That the lock may have been
dropped meanwhile makes no difference. -/
theorem readMostly_excludes {r : Run} {m : Nat} {l : Lock} (h : Reachable (Run.Behaves m) r)
    (hl : r.world.locks[m]? = some l) (hs : l.body.algorithm = .readMostly) :
    r.count m .unique ≤ 1 ∧ (0 < r.count m .unique → r.count m .shared = 0) :=
  h.excludes hl hs

/-- A writer has a read-mostly lock, and a reader that has tried to have it too has been refused. -/
def Run.writerAlone : Run :=
  play {} [.make ⟨.readMostly .packed, false, false⟩ .longWait,
    .call 0 0 (.operate (.acquire .unique)), .turn 0, .turn 0, .turn 0,
    .call 1 0 (.operate (.tryAcquire .shared)), .turn 1, .turn 1, .turn 1, .turn 1]

theorem readMostly_excludes_reader :
    Run.writerAlone.count 0 .unique = 1 ∧ Run.writerAlone.count 0 .shared = 0 := by
  have hr : Reachable (Run.Behaves 0) Run.writerAlone :=
    Reachable.start.play (by decide +kernel)
  have halg : Run.writerAlone.world.locks[0]?.map (·.body.algorithm) = some .readMostly := by
    decide +kernel
  obtain ⟨l, hl, halg⟩ := Option.map_eq_some_iff.mp halg
  have hcount : Run.writerAlone.count 0 .unique = 1 := by decide +kernel
  exact ⟨hcount, (readMostly_excludes hr hl halg).2 (by omega)⟩

end ReaderWriter
