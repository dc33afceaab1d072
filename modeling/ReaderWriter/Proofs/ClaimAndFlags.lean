import ReaderWriter.Proofs.ReadMostly.Waiters

/-!
# What the claim and the flags of a read-mostly lock say

A claim or a flag that nobody answers for would shut out readers or writers for good. There is none:
at every moment somebody holds the unique lock if the claim is `yes`, some writer is waiting if it
is `want` and the gate is free, and a flag is up only if its thread holds a shared lock or is busy
with one.

* `Crowd.Vouched`: somebody answers for a claim `yes`.
* `Crowd.Reachable.vouched`: always.
* `readMostly_claim_and_flags`: what the claim, the gate and the flags say, in every run.
-/

namespace ReaderWriter

/-! ## The claim `yes` -/

namespace ReadMostly

variable {sc : Scene} {s s' : Site} {job : Job} {stand : Stand Pc} {gain : Option Mode}

/-- A release of the unique lock takes the claim back. -/
theorem Transition.claim_of_release (h : Transition sc s job s' stand gain)
    (hjob : job = .start (.release .unique)) (hyes : s.lock.claim = .yes) :
    s'.lock.claim = .no := by
  subst hjob
  cases h with
  | release => rfl
  | releaseFault f hne => exact absurd hyes hne
  | queue h | claim _ h => cases h
  | arrive h | register h | registerLater h | registerNever h | noFlag _ h | noNodes h => cases h

/-- A writer that has the lock is granted it next. -/
theorem Transition.gain_of_acquired (h : Transition sc s job s' stand gain) {answer : Answer}
    (hjob : job = .from (.acquired answer)) : gain = some .unique := by
  subst hjob
  cases h with
  | acquire => rfl
  | queue h | claim _ h => cases h
  | arrive h | register h | registerLater h | registerNever h | noFlag _ h | noNodes h => cases h
  | arriveLater h | look _ h => cases h
  | read h | readLater h | write h | writeLater h | await h | notify _ h | notifyLater h => cases h

namespace Crowd

variable {c c' : Crowd} {t u : ThreadId}

/-- The thread has the unique lock, be it that its call has come back or that it is about to. -/
def Writes (c : Crowd) (t : ThreadId) : Prop :=
  t ∈ c.held .unique ∨ ∃ answer, c.place t = some (.acquired answer)

/-- Somebody answers for a claim `yes`. -/
def Vouched (c : Crowd) : Prop := c.lock.claim = .yes → ∃ t, c.Writes t

/-- A writer stays one until the claim is taken back. -/
theorem Turns.writes_after (hturn : Turns c c' t job stand gain) (hyes : c.lock.claim = .yes)
    (hyes' : c'.lock.claim = .yes) (hu : c.Writes u) : c'.Writes u := by
  by_cases hut : u = t
  · subst hut
    obtain ⟨sc, locals, locals', -, -, htable⟩ := hturn.table
    refine .inl (hturn.unique.mpr ?_)
    rcases hu with hheld | ⟨answer, hplace⟩
    · refine .inr ⟨hheld, fun hjob => ?_⟩
      have hno : c'.lock.claim = .no := htable.claim_of_release hjob hyes
      rw [hyes'] at hno
      cases hno
    · have hfrom : job.pc?.any (· == .acquired answer) = true := by
        rw [← hturn.place, hplace]
        simp
      obtain ⟨pc, hjob, hpc⟩ := (from_iff _).mpr hfrom
      exact .inl (htable.gain_of_acquired (hjob.trans (congrArg Job.from (beq_iff_eq.mp hpc))))
  · exact hu.imp (hturn.keeps u hut _).mpr fun ⟨answer, hplace⟩ =>
      ⟨answer, (hturn.places u hut).trans hplace⟩

theorem Vouched.of_turns (h : c.Vouched) (hturn : Turns c c' t job stand gain) : c'.Vouched := by
  intro hyes'
  obtain ⟨sc, locals, locals', -, -, htable⟩ := hturn.table
  rcases htable.claim_yes hyes' with hyes | ⟨-, -, answer, hstand⟩
  · obtain ⟨u, hu⟩ := h hyes
    exact ⟨u, hturn.writes_after hyes hyes' hu⟩
  · refine ⟨t, .inr ⟨answer, ?_⟩⟩
    rw [hturn.place', hstand]
    rfl

theorem Vouched.of_step (h : c.Vouched) (hg : c.Guarded) (hstep : Step c c') : c'.Vouched := by
  cases hstep with
  | call hacts hserves hreleases hasks hheld =>
    exact h.of_turns (hg.turns_of_call hacts hserves hreleases hasks hheld)
  | depart hacts hdeparts hheld => exact h.of_turns (hg.turns_of_depart hacts hdeparts hheld)
  | stir hlock _ hplace hheld =>
    unfold Vouched Writes
    rwa [hlock, hplace, hheld]
  | wake t heq =>
    subst heq
    exact h

theorem Reachable.vouched (h : Reachable c) : c.Vouched := by
  induction h with
  | start hnew =>
    obtain ⟨id, supply, config, host, hlock⟩ := hnew.lock
    intro hyes
    rw [hlock] at hyes
    cases hyes
  | step hreach _ _ hstep ih => exact ih.of_step hreach.guarded hstep

/-! ## The claim `want` -/

/-- While the gate is free, a claim `want` is that of a writer in the middle of its wait. -/
theorem Guarded.draining_of_free (hg : c.Guarded) (ha : c.Attended) (hfree : c.lock.gate = none)
    (hwant : c.lock.claim = .want) :
    ∃ t told stage b, c.place t = some (.draining told stage b) ∧
      (stage = .parked ∨ ∃ yields, stage = .snoozing yields) := by
  obtain ⟨t, ht⟩ := ha.wanted hwant
  obtain ⟨pc, hplace, hwants⟩ := (Option.any_eq_true _ _).mp ht
  have hgate : pc.hasGate = false := by
    refine Bool.eq_false_iff.mpr fun hgate => ?_
    have htaken := (hg.gate t).mpr (.inl (by rw [hplace]; exact hgate))
    rw [hfree] at htaken
    cases htaken
  cases pc with
  | draining told stage b =>
    refine ⟨t, told, stage, b, hplace, ?_⟩
    cases stage with
    | parked => exact .inl rfl
    | snoozing yields => exact .inr ⟨yields, rfl⟩
    | announced | parking | resumed | woken => cases hgate
  | claimed | scanning | refused => cases hgate
  | _ => cases hwants

/-! ## The flags -/

/-- A thread that waits for the writer to leave has its flag down. -/
theorem Guarded.down_of_waiting (hg : c.Guarded) (hclear : c.Clear) {f : Flag} {stage : Wait.Stage}
    {b : Backoff} (hplace : c.place t = some (.waiting f stage b)) :
    c.flag t = some f ∧ c.flags.isRaised f = false := by
  have hflag := hclear.carried hplace rfl
  refine ⟨hflag, Bool.eq_false_iff.mpr fun hraised => ?_⟩
  rcases (hg.up t f hflag).mp hraised with hheld | hflies
  · exact hg.apart t (by rw [hplace]; rfl) hheld
  · rw [hplace] at hflies
    cases hflies

/-- A thread that holds a shared lock is on the registry's list, with its flag up. -/
theorem Guarded.listed_of_shared (hg : c.Guarded) (hclear : c.Clear) (hheld : t ∈ c.held .shared) :
    ∃ f, c.flag t = some f ∧ f ∈ c.lock.registry.entries ∧ c.flags.isRaised f = true := by
  obtain ⟨f, hf⟩ := Option.ne_none_iff_exists'.mp (hg.flagged t (.inl hheld))
  refine ⟨f, hf, (hclear.listed f).mpr ⟨t, hf, ?_⟩, (hg.up t f hf).mpr (.inl hheld)⟩
  cases hplace : c.place t with
  | none => rfl
  | some pc =>
    have hapart : pc.apart = false := Bool.eq_false_iff.mpr fun hpc =>
      hg.apart t (by rw [hplace]; exact hpc) hheld
    cases pc <;> first | rfl | cases hapart

end Crowd

end ReadMostly

/-! ## In every run -/

/-- A thread has a call under way on the lock at an index that takes or gives up a shared lock. -/
def Run.OnSharedSide (r : Run) (t : ThreadId) (m : Nat) : Prop :=
  ∃ c, r.asked t = some c ∧ (c.acquires? = some .shared ∨ c.releases? = some .shared) ∧
    ∃ frame, (r.world.thread t).frame? = some frame ∧ frame.lock = m

namespace Run

variable {r : Run} {t : ThreadId} {m : Nat} {s : ReadMostly.State} {pc : ReadMostly.Pc}

theorem place_of_crowdPlace (h : (r.readMostlyCrowd m s).place t = some pc) :
    r.place m t = some (.readMostly pc) := by
  simp [place, crowdPlace_iff.mp h]

theorem crowdPlace_of_place (h : r.place m t = some (.readMostly pc)) :
    (r.readMostlyCrowd m s).place t = some pc := by
  simp [readMostlyCrowd, h, Progress.readMostly?]

/-- A place at which a flag flies is one of a call on the shared side. -/
theorem Orderly.onSharedSide (ho : r.Orderly) (hplace : r.place m t = some (.readMostly pc))
    (hflies : pc.flies = true) : r.OnSharedSide t m := by
  obtain ⟨c, op, hasked, hacquires, hreleases, hserves, hframe⟩ :=
    (ho.calls_of_place hplace).resolve_right fun hdeparts => by
      cases pc with
      | fastPath | contended | arriving | sharedRefused | leaving => exact hdeparts.elim
      | _ => cases hflies
  refine ⟨c, hasked, ?_, hframe⟩
  rw [hacquires, hreleases]
  have hleaves : ∀ {answer}, ReadMostly.Operation.LeavesWith op answer →
      op.acquires? = some .shared ∨ op.releases? = some .shared := by
    rintro answer (⟨rfl, -⟩ | ⟨rfl, -⟩)
    · exact .inr rfl
    · exact .inl rfl
  cases pc with
  | fastPath | contended | arriving | sharedRefused =>
    cases hserves
    exact .inl rfl
  | leaving => exact hleaves hserves
  | _ => cases hflies

end Run

/-- In every run in which the lock's callers behave, the claim, the gate and the flags of a lock
that has not gone are somebody's:

* the claim is `yes` exactly while somebody has the unique lock, in hand or about to come back with
  it, and then the gate is taken;
* while the gate is free the claim is `no`, or it is `want` and some writer is in the middle of its
  wait;
* whoever holds a shared lock is on the registry's list, with its flag up;
* a flag that is up is that of a holder, or of a thread in a call on the shared side;
* a reader that waits has its flag down. -/
theorem readMostly_claim_and_flags {r : Run} {m : Nat} {l : Lock} {s : ReadMostly.State}
    (h : Reachable (Run.Behaves m) r) (hl : r.world.locks[m]? = some l)
    (hs : l.body = .readMostly s) (halive : r.world.isAlive m = true) :
    (s.claim = .yes ↔ (∃ t, ⟨t, m, .unique⟩ ∈ r.holds) ∨
        ∃ t answer, r.place m t = some (.readMostly (.acquired answer))) ∧
      (s.claim = .yes → s.gate.isSome = true) ∧
      (s.gate = none → s.claim = .no ∨ s.claim = .want ∧ ∃ t told stage b,
        r.place m t = some (.readMostly (.draining told stage b)) ∧
          (stage = .parked ∨ ∃ yields, stage = .snoozing yields) ∧ r.Awaits t m .unique) ∧
      (∀ t, ⟨t, m, .shared⟩ ∈ r.holds → ∃ f, (m, f) ∈ (r.world.thread t).flags ∧
        f ∈ s.registry.entries ∧ r.world.flags.isRaised f = true) ∧
      (∀ t f, (m, f) ∈ (r.world.thread t).flags → r.world.flags.isRaised f = true →
        ⟨t, m, .shared⟩ ∈ r.holds ∨ r.OnSharedSide t m) ∧
      (∀ t f stage b, r.place m t = some (.readMostly (.waiting f stage b)) →
        (m, f) ∈ (r.world.thread t).flags ∧ r.world.flags.isRaised f = false) := by
  have ho := h.orderly
  have howns := h.owns fun _ _ hok => hok.2.2
  obtain ⟨hclear, hcrowd⟩ := h.readMostlyCrowd (fun _ _ h => h) halive s ⟨l, hl, hs⟩
  have hg := hcrowd.guarded
  refine ⟨⟨fun hyes => ?_, ?_⟩, fun hyes => ?_, fun hfree => ?_, fun t hheld => ?_,
    fun t f hf hraised => ?_, fun t f stage b hplace => ?_⟩
  · obtain ⟨t, hheld | ⟨answer, hplace⟩⟩ := hcrowd.vouched hyes
    · exact .inl ⟨t, Hold.mem_holders.mp hheld⟩
    · exact .inr ⟨t, answer, Run.place_of_crowdPlace hplace⟩
  · rintro (⟨t, hheld⟩ | ⟨t, answer, hplace⟩)
    · exact hg.claimed t (Hold.mem_holders.mpr hheld)
    · exact hg.fits t _ (Run.crowdPlace_of_place hplace)
  · exact Option.isSome_iff_ne_none.mpr fun hfree => hg.free hfree hyes
  · cases hclaim : s.claim with
    | no => exact .inl rfl
    | yes => exact absurd hclaim (hg.free hfree)
    | want =>
      obtain ⟨t, told, stage, b, hplace, hstage⟩ :=
        hg.draining_of_free hcrowd.attended hfree hclaim
      have hplace := Run.place_of_crowdPlace hplace
      refine .inr ⟨rfl, t, told, stage, b, hplace, hstage, ?_⟩
      obtain ⟨c, op, hasked, hacquires, -, hserves, hframe⟩ :=
        (ho.calls_of_place hplace).resolve_right id
      cases hserves
      exact ⟨⟨c, hasked, hacquires⟩, hframe⟩
  · obtain ⟨f, hf, hlisted, hraised⟩ := hg.listed_of_shared hclear (Hold.mem_holders.mpr hheld)
    exact ⟨f, howns.flag_iff.mp hf, hlisted, hraised⟩
  · refine ((hg.up t f (howns.flag_iff.mpr hf)).mp hraised).imp Hold.mem_holders.mp fun hflies => ?_
    obtain ⟨pc, hplace, hpc⟩ := (Option.any_eq_true _ _).mp hflies
    exact ho.onSharedSide (Run.place_of_crowdPlace hplace) hpc
  · obtain ⟨hflag, hdown⟩ := hg.down_of_waiting hclear (Run.crowdPlace_of_place hplace)
    exact ⟨howns.flag_iff.mp hflag, hdown⟩

/-- A reader has a read-mostly lock, and a writer that has found its flag up is parked. -/
def Run.readMostlyDraining : Run :=
  play {} [.make ⟨.readMostly .packed, false, false⟩ .longWait,
    .call 0 0 (.operate (.acquire .shared)), .turn 0, .turn 0, .turn 0,
    .call 1 0 (.operate (.acquire .unique)), .turn 1, .turn 1, .turn 1, .turn 1]

theorem readMostly_claim_and_flags_draining :
    (∃ t, Run.readMostlyDraining.Awaits t 0 .unique) ∧
      ∃ f, (0, f) ∈ (Run.readMostlyDraining.world.thread 0).flags ∧
        Run.readMostlyDraining.world.flags.isRaised f = true := by
  have hr : Reachable (Run.Behaves 0) Run.readMostlyDraining :=
    Reachable.start.play (by decide +kernel)
  have hbody : Run.readMostlyDraining.world.locks[0]?.map (·.body) =
      some (.readMostly {
        id := 1, supply := .packed, config := .longWait, claim := .want,
        drained := { queue := [1] }, registry := { entries := [⟨0, ⟨0, by decide⟩⟩] } }) := by
    decide +kernel
  obtain ⟨l, hl, hs⟩ := Option.map_eq_some_iff.mp hbody
  obtain ⟨-, -, hwant, hshared, -⟩ := readMostly_claim_and_flags hr hl hs (by decide +kernel)
  obtain ⟨f, hf, -, hraised⟩ := hshared 0 (by decide +kernel)
  refine ⟨?_, f, hf, hraised⟩
  rcases hwant rfl with hno | ⟨-, t, -, -, -, -, -, hawaits⟩
  · cases hno
  · exact ⟨t, hawaits⟩

end ReaderWriter
