import ReaderWriter.Proofs.BlockingWaiters
import ReaderWriter.Proofs.ReadMostly.Waiters

/-!
# No lost wakeup

A run comes to a stand on a lock when nobody who is on it can move: every call on it is parked and
has not been notified, or is blocked. That only happens for a reason, namely that somebody holds
the lock.

1. `blocking_still_of_held`: for the blocking lock.
2. `readMostly_still_of_held`: for the read-mostly lock.
-/

namespace ReaderWriter

/-- Of the threads that have taken no step yet, none is on a lock. -/
theorem World.isStill_of_lt {w : World} {m n : Nat} (hn : w.threads.entries.length ≤ n)
    (h : ∀ t, t < n → w.IsOn t m → (w.obstacle t).isSome = true) : w.IsStill m :=
  fun t hon => h t (Nat.lt_of_lt_of_le (World.lt_of_isOn hon) hn) hon

/-! ## 1. The blocking lock -/

namespace Run.Orderly

variable {r : Run} {t : ThreadId} {m : Nat} {l : Lock} {s : Blocking.State}

/-- Whoever stands at a place of a blocking lock is held up there, or not, as on the lock. -/
theorem obstacle_of_blockingPlace (ho : r.Orderly) (hl : r.world.locks[m]? = some l)
    (hs : l.body = .blocking s) {pc : Blocking.Pc}
    (hpc : (r.crowd Blocking.machine m s).place t = some pc) :
    r.world.IsOn t m ∧ r.world.obstacle t = Blocking.obstacle t s pc := by
  obtain ⟨p, hp, hpc⟩ := Option.bind_eq_some_iff.mp hpc
  obtain ⟨hon, hobs⟩ := ho.isOn hp
  cases p with
  | blocking pc' =>
    cases hpc
    refine ⟨hon, hobs.trans ?_⟩
    simp only [World.operationObstacle, hl, hs]
  | polling | readMostly => cases hpc

/-- If nobody can move who is on a blocking lock, nobody in its crowd can. -/
theorem still_blocking (ho : r.Orderly) (hl : r.world.locks[m]? = some l)
    (hs : l.body = .blocking s) (hstill : r.world.IsStill m) (t : ThreadId) (pc : Blocking.Pc)
    (hpc : (r.crowd Blocking.machine m s).place t = some pc) :
    (Blocking.obstacle t s pc).isSome = true := by
  obtain ⟨hon, hobs⟩ := ho.obstacle_of_blockingPlace hl hs hpc
  rw [← hobs]
  exact hstill t hon

/-- If nobody can move who is on a blocking lock, all of them are parked in the mode that they have
asked for. -/
theorem parked_blocking (ho : r.Orderly) (hl : r.world.locks[m]? = some l)
    (hs : l.body = .blocking s) (hstill : r.world.IsStill m)
    (htells : Blocking.TellsWaiters (r.crowd Blocking.machine m s)) (hon : r.world.IsOn t m) :
    ∃ mode, r.IsParked t m mode ∧
      ((r.crowd Blocking.machine m s).place t).bind Blocking.Pc.waits? = some mode := by
  obtain ⟨p, l', hp, hl', halg, hobs, hcall⟩ := ho.stands hon (hstill t hon)
  cases hl.symm.trans hl'
  obtain ⟨pc, rfl⟩ := Blocking.machine_is.exists_progress p (by rw [halg, hs]; rfl)
  have hpc : (r.crowd Blocking.machine m s).place t = some pc := by
    simp only [Run.crowd, hp, Option.bind_some]
    rfl
  obtain ⟨mode, backoff, rfl, hpark⟩ :=
    Blocking.parked_of_still htells (ho.still_blocking hl hs hstill) hpc
  rcases hcall with ⟨call, op, hasked, hacquires, hserves⟩ | ⟨hdeparts, -⟩
  · have hop : op = .acquire mode := hserves
    refine ⟨mode, ⟨hon, ?_, (ho.obstacle_of_blockingPlace hl hs hpc).2.trans hpark⟩,
      by rw [hpc]; rfl⟩
    rw [hasked, Option.bind_some, hacquires, hop]
    rfl
  · exact hdeparts.elim

end Run.Orderly

/-- In every run in which the lock is only given up while it is held and always has room for one
more reader: when nobody who is on it can move,

* nobody is blocked;
* a writer is parked only if somebody holds the lock;
* a reader is parked only if a writer holds the lock, or readers hold it and a writer is parked;
* and if nobody holds the lock, nobody is on it at all. -/
theorem blocking_still_of_held {r : Run} {m : Nat} {l : Lock}
    (h : Reachable (fun r e => r.ReleasesHeld m e ∧ r.HasRoom m e) r)
    (hl : r.world.locks[m]? = some l) (halg : l.body.algorithm = .blocking)
    (hstill : r.world.IsStill m) :
    (∀ t, r.world.IsOn t m → r.world.obstacle t ≠ some .blocked) ∧
      (∀ t, r.IsParked t m .unique → 0 < r.count m .unique ∨ 0 < r.count m .shared) ∧
      (∀ t, r.IsParked t m .shared →
        0 < r.count m .unique ∨ 0 < r.count m .shared ∧ ∃ u, r.IsParked u m .unique) ∧
      (r.count m .unique = 0 → r.count m .shared = 0 → ∀ t, ¬ r.world.IsOn t m) := by
  have ho := h.orderly
  obtain ⟨s, hs⟩ := Blocking.machine_is.exists_body l.body halg
  have hcrowd : Blocking.machine.Reachable (fun c => c.held .shared < maxSharedHolders.toNat)
      (r.crowd Blocking.machine m s) :=
    h.crowd Blocking.machine_is (fun _ _ hok => ⟨hok.1, fun _ _ _ _ => hok.2⟩) l s hl hs
  have htells := Blocking.reachable_tells (fun _ hok => hok) hcrowd
  have hparked := fun {t} => ho.parked_blocking (t := t) hl hs hstill htells
  have hcounts := hcrowd.counts Blocking.machine_countsHolders
  have hstill' := ho.still_blocking hl hs hstill
  have hwaits : ∀ t mode, r.IsParked t m mode →
      ((r.crowd Blocking.machine m s).place t).bind Blocking.Pc.waits? = some mode := by
    intro t mode hpark
    obtain ⟨mode', hpark', hwaits⟩ := hparked hpark.1
    cases hpark.2.1.symm.trans hpark'.2.1
    exact hwaits
  refine ⟨fun t hon => ?_, fun t hpark => ?_, fun t hpark => ?_, fun hunique hshared t hon => ?_⟩
  · obtain ⟨mode, hpark, -⟩ := hparked hon
    rw [hpark.2.2]
    simp
  · exact (Blocking.held_of_still htells hcounts hstill' (hwaits t _ hpark)).1
  · have hheld := (Blocking.held_of_still htells hcounts hstill' (hwaits t _ hpark)).2 rfl
    refine hheld.imp_right fun ⟨hreaders, u, hu⟩ => ⟨hreaders, u, ?_⟩
    obtain ⟨pc, hpc, -⟩ := Option.bind_eq_some_iff.mp hu
    obtain ⟨mode, hpark', hw⟩ := hparked (ho.obstacle_of_blockingPlace hl hs hpc).1
    cases hu.symm.trans hw
    exact hpark'
  · obtain ⟨mode, -, hw⟩ := hparked hon
    rcases (Blocking.held_of_still htells hcounts hstill' hw).1 with hpos | hpos
    · exact absurd hunique (Nat.pos_iff_ne_zero.mp hpos)
    · exact absurd hshared (Nat.pos_iff_ne_zero.mp hpos)

/-- A reader has a blocking lock, and a writer is parked behind it. -/
def Run.blockingBehindReader : Run :=
  play {} [.make ⟨.blocking, false, false⟩ .longWait, .call 0 0 (.operate (.acquire .shared)),
    .call 1 0 (.operate (.acquire .unique)), .turn 1, .turn 1, .turn 1]

theorem blocking_still_behind_reader :
    Run.blockingBehindReader.IsParked 1 0 .unique ∧
      0 < Run.blockingBehindReader.count 0 .shared := by
  have hr : Reachable (fun r e => r.ReleasesHeld 0 e ∧ r.HasRoom 0 e) Run.blockingBehindReader :=
    Reachable.start.play (by decide +kernel)
  have halg : Run.blockingBehindReader.world.locks[0]?.map (·.body.algorithm) = some .blocking := by
    decide +kernel
  obtain ⟨l, hl, halg⟩ := Option.map_eq_some_iff.mp halg
  have hstill : Run.blockingBehindReader.world.IsStill 0 :=
    World.isStill_of_lt (n := 2) (by decide +kernel) (by decide +kernel)
  have hpark : Run.blockingBehindReader.IsParked 1 0 .unique := by
    unfold Run.IsParked
    decide +kernel
  refine ⟨hpark, ((blocking_still_of_held hr hl halg hstill).2.1 1 hpark).resolve_left ?_⟩
  decide +kernel

/-! ## 2. The read-mostly lock -/

namespace Run.Orderly

variable {r : Run} {t : ThreadId} {m : Nat} {l : Lock} {s : ReadMostly.State}

/-- Locks on which there is somebody have not gone. -/
theorem isAlive (ho : r.Orderly) (hon : r.world.IsOn t m) : r.world.isAlive m = true := by
  rw [World.isAlive_iff]
  rcases hon with hframe | hdeparting
  · left
    have htidy := ho.tidy t
    generalize r.asked t = a at htidy
    cases htidy with
    | idle hact | gone hact => simp [Thread.frame?, hact] at hframe
    | working hact _ hl | pausing hact _ hl =>
      simp only [Thread.frame?, hact, Option.map_some, Option.some.injEq] at hframe
      exact ⟨_, hframe ▸ hl⟩
    | @ending e hact _ hchore | @departing e _ _ _ hact _ hchore =>
      obtain ⟨chore, armed, nodes⟩ := e
      cases hchore
      simp [Thread.frame?, hact] at hframe
  · exact .inr ⟨t, hdeparting⟩

/-- A thread that is held up on a read-mostly lock stands at one of its places. -/
theorem exists_crowdPlace (ho : r.Orderly) (hl : r.world.locks[m]? = some l)
    (hs : l.body = .readMostly s) (hon : r.world.IsOn t m)
    (hheld : (r.world.obstacle t).isSome = true) :
    ∃ pc, (r.readMostlyCrowd m s).place t = some pc ∧
      r.world.obstacle t = ReadMostly.obstacle t s pc := by
  obtain ⟨p, l', hp, hl', halg, hobs, -⟩ := ho.stands hon hheld
  cases hl.symm.trans hl'
  cases p with
  | readMostly pc =>
    refine ⟨pc, by simp [Run.readMostlyCrowd, hp, Progress.readMostly?], hobs.trans ?_⟩
    simp only [World.operationObstacle, hl, hs]
  | blocking pc | polling pc =>
    rw [hs] at halg
    cases halg

/-- Whoever stands at a place of a read-mostly lock is held up there, or not, as on the lock. -/
theorem obstacle_of_crowdPlace (ho : r.Orderly) (hl : r.world.locks[m]? = some l)
    (hs : l.body = .readMostly s) {pc : ReadMostly.Pc}
    (hpc : (r.readMostlyCrowd m s).place t = some pc) :
    r.world.IsOn t m ∧ r.world.obstacle t = ReadMostly.obstacle t s pc := by
  obtain ⟨p, hp, hpc⟩ := Option.bind_eq_some_iff.mp hpc
  obtain ⟨hon, hobs⟩ := ho.isOn hp
  cases p with
  | readMostly pc' =>
    cases hpc
    refine ⟨hon, hobs.trans ?_⟩
    simp only [World.operationObstacle, hl, hs]
  | blocking pc | polling pc => cases hpc

/-- Whoever is parked in a read-mostly lock is parked in the mode that it has asked for. -/
theorem exists_isParked (ho : r.Orderly) (hl : r.world.locks[m]? = some l)
    (hs : l.body = .readMostly s) {pc : ReadMostly.Pc}
    (hpc : (r.readMostlyCrowd m s).place t = some pc)
    (hparked : ReadMostly.obstacle t s pc = some .parked) :
    ∃ mode, pc.parks? = some mode ∧ r.IsParked t m mode := by
  obtain ⟨hon, hobs⟩ := ho.obstacle_of_crowdPlace hl hs hpc
  rw [hparked] at hobs
  obtain ⟨p, l', hp, -, -, -, hcall⟩ := ho.stands hon (by rw [hobs]; rfl)
  obtain ⟨mode, hmode⟩ := ReadMostly.Pc.parks_of_parked hparked
  refine ⟨mode, hmode, hon, ?_, hobs⟩
  have hp' : p = .readMostly pc := by
    simp only [Run.readMostlyCrowd, hp, Option.bind_some] at hpc
    cases p with
    | readMostly pc' =>
      cases hpc
      rfl
    | blocking pc | polling pc => cases hpc
  subst hp'
  rcases hcall with ⟨c, op, hasked, hacquires, hserves⟩ | ⟨hdeparts, -⟩
  · rw [hasked, Option.bind_some, hacquires]
    rcases ReadMostly.Pc.eq_of_parks? hmode with ⟨rfl, told, b, rfl⟩ | ⟨rfl, f, b, rfl⟩
    · have hop : op = .acquire .unique := hserves
      rw [hop]
      rfl
    · have hop : op = .acquire .shared := hserves
      rw [hop]
      rfl
  · rcases ReadMostly.Pc.eq_of_parks? hmode with ⟨-, told, b, rfl⟩ | ⟨-, f, b, rfl⟩ <;>
      exact hdeparts.elim

end Run.Orderly

/-- When nobody who is on a read-mostly lock can move, a writer holds it, or whoever is on it is
parked, a writer behind a reader who has not gone and a reader behind a writer. -/
theorem Reachable.held_or_parked {r : Run} {t : ThreadId} {m : Nat} {l : Lock}
    {s : ReadMostly.State} (h : Reachable (Run.Behaves m) r) (hl : r.world.locks[m]? = some l)
    (hs : l.body = .readMostly s) (hstill : r.world.IsStill m) (hon : r.world.IsOn t m) :
    0 < r.count m .unique ∨
      (∃ mode, r.IsParked t m mode) ∧
        (r.IsParked t m .unique →
          ∃ u, ⟨u, m, .shared⟩ ∈ r.holds ∧ (r.world.thread u).activity ≠ .gone) ∧
        (r.IsParked t m .shared → ∃ u, r.IsParked u m .unique) := by
  have ho := h.orderly
  obtain ⟨hclear, hcrowd⟩ := h.readMostlyCrowd (fun _ _ h => h) (ho.isAlive hon) s ⟨l, hl, hs⟩
  have hstill' : (r.readMostlyCrowd m s).IsStill := by
    intro u pc hpc
    obtain ⟨hu, hobs⟩ := ho.obstacle_of_crowdPlace hl hs hpc
    have hheld := hstill u hu
    rwa [hobs] at hheld
  rcases hcrowd.attended.of_isStill hcrowd.guarded hclear hstill' with
    hheld | ⟨hparked, hwriters, hreaders⟩
  · refine .inl (Nat.lt_of_lt_of_eq (List.length_pos_iff.mpr hheld) ?_)
    exact Hold.length_holders
  · have hplace : ∀ {u}, r.world.IsOn u m → ∃ mode, r.IsParked u m mode ∧
        (r.readMostlyCrowd m s).Parks mode u := by
      intro u hu
      obtain ⟨pc, hpc, -⟩ := ho.exists_crowdPlace hl hs hu (hstill u hu)
      obtain ⟨mode, hmode, hpark⟩ := ho.exists_isParked hl hs hpc (hparked u pc hpc)
      exact ⟨mode, hpark, by rwa [ReadMostly.Crowd.Parks, hpc]⟩
    have hparks : ∀ {mode}, r.IsParked t m mode → (r.readMostlyCrowd m s).Parks mode t := by
      intro mode hpark
      obtain ⟨mode', hpark', hparks⟩ := hplace hpark.1
      cases hpark.2.1.symm.trans hpark'.2.1
      exact hparks
    obtain ⟨mode, hpark, -⟩ := hplace hon
    refine .inr ⟨⟨mode, hpark⟩, fun hwriter => ?_, fun hreader => ?_⟩
    · obtain ⟨u, f, hheld, hflag⟩ := hwriters ⟨t, hparks hwriter⟩
      refine ⟨u, Hold.mem_holders.mp hheld, fun hgone => ?_⟩
      simp only [Run.readMostlyCrowd, h.tended.gone u hgone] at hflag
      cases hflag
    · obtain ⟨u, hu⟩ := hreaders ⟨t, hparks hreader⟩
      obtain ⟨pc, hpc, hmode⟩ := Option.bind_eq_some_iff.mp hu
      obtain ⟨mode', hmode', hpark'⟩ := ho.exists_isParked hl hs hpc (hparked u pc hpc)
      cases hmode.symm.trans hmode'
      exact ⟨u, hpark'⟩

/-- In every run in which the lock's callers behave: when nobody who is on the lock can move, be it
in a call or as a thread that ends and is taken off the registry,

* a writer is parked only if a writer holds the lock, or a thread that has not gone holds a shared
  lock;
* a reader is parked only if a writer holds the lock, or a writer is parked;
* and if nobody holds the lock, nobody is on it at all. -/
theorem readMostly_still_of_held {r : Run} {m : Nat} {l : Lock}
    (h : Reachable (Run.Behaves m) r) (hl : r.world.locks[m]? = some l)
    (halg : l.body.algorithm = .readMostly) (hstill : r.world.IsStill m) :
    (∀ t, r.IsParked t m .unique → 0 < r.count m .unique ∨
        ∃ u, ⟨u, m, .shared⟩ ∈ r.holds ∧ (r.world.thread u).activity ≠ .gone) ∧
      (∀ t, r.IsParked t m .shared → 0 < r.count m .unique ∨ ∃ u, r.IsParked u m .unique) ∧
      (r.count m .unique = 0 → r.count m .shared = 0 → ∀ t, ¬ r.world.IsOn t m) := by
  obtain ⟨s, hs⟩ := Body.exists_readMostly halg
  refine ⟨fun t hpark => ?_, fun t hpark => ?_, fun hunique hshared t hon => ?_⟩
  · exact (h.held_or_parked hl hs hstill hpark.1).imp_right fun ⟨_, hwriter, _⟩ => hwriter hpark
  · exact (h.held_or_parked hl hs hstill hpark.1).imp_right fun ⟨_, _, hreader⟩ => hreader hpark
  · -- Whoever is on the lock is parked behind somebody who holds it.
    have hnone : ∀ u, r.IsParked u m .unique → False := by
      intro u hpark
      rcases h.held_or_parked hl hs hstill hpark.1 with hpos | ⟨-, hwriter, -⟩
      · omega
      · obtain ⟨v, hv, -⟩ := hwriter hpark
        have hpos : 0 < r.count m .shared := List.countP_pos_iff.mpr ⟨_, hv, by simp⟩
        omega
    rcases h.held_or_parked hl hs hstill hon with hpos | ⟨⟨mode, hpark⟩, -, hreader⟩
    · omega
    · cases mode with
      | unique => exact hnone t hpark
      | shared =>
        obtain ⟨u, hu⟩ := hreader hpark
        exact hnone u hu

/-- A reader has a read-mostly lock, and a writer is parked behind it. -/
def Run.readMostlyBehindReader : Run :=
  play {} [.make ⟨.readMostly .isolated, false, false⟩ .longWait,
    .call 0 0 (.operate (.acquire .shared)), .turn 0, .turn 0, .turn 0,
    .call 1 0 (.operate (.acquire .unique)), .turn 1, .turn 1, .turn 1, .turn 1]

theorem readMostly_still_behind_reader :
    Run.readMostlyBehindReader.IsParked 1 0 .unique ∧
      ∃ u, ⟨u, 0, .shared⟩ ∈ Run.readMostlyBehindReader.holds ∧
        (Run.readMostlyBehindReader.world.thread u).activity ≠ .gone := by
  have hr : Reachable (Run.Behaves 0) Run.readMostlyBehindReader :=
    Reachable.start.play (by decide +kernel)
  have halg : Run.readMostlyBehindReader.world.locks[0]?.map (·.body.algorithm) =
      some .readMostly := by
    decide +kernel
  obtain ⟨l, hl, halg⟩ := Option.map_eq_some_iff.mp halg
  have hstill : Run.readMostlyBehindReader.world.IsStill 0 :=
    World.isStill_of_lt (n := 2) (by decide +kernel) (by decide +kernel)
  have hpark : Run.readMostlyBehindReader.IsParked 1 0 .unique := by
    unfold Run.IsParked
    decide +kernel
  refine ⟨hpark, ((readMostly_still_of_held hr hl halg hstill).1 1 hpark).resolve_left ?_⟩
  decide +kernel

end ReaderWriter
