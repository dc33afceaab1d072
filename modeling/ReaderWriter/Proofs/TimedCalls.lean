import ReaderWriter.Proofs.Alone
import ReaderWriter.Proofs.TimedTrials

/-!
# Timed calls are exact

What a timed call replies, and how often it tries before it does, whatever the attempts come to. The
clock may move at any time, as long as it does not run backwards. If nothing moves it but the sleeps
of the call itself, the readings of the trials, and with them their number, are those of
`Retry.elapsed`.

* `Run.Plays.paced`: the readings of the trials if the clock moves only by the sleeps between them.
* `Run.exists_goesAlone`: a timed call on a lock whose attempts take one turn comes to its end.
* `timedCall_exact`: all that a caller relies on.
-/

namespace ReaderWriter

namespace Run

variable {r : Run} {t : ThreadId} {m : Nat} {l : Lock} {mode : Mode} {limit : TimeLimit}
  {guarded : Bool} {retry : Retry} {worked : Worked} {e : Event} {start deadline : Int}
  {failed : List Trial}

/-! ## When only the sleeps take time -/

/-- Only turns of the thread move the clock. -/
def OwnsClock (t : ThreadId) (r : Run) (e : Event) : Prop :=
  e ≠ .turn t → (r.after e).world.clock = r.world.clock

instance (t : ThreadId) (r : Run) (e : Event) : Decidable (r.OwnsClock t e) :=
  inferInstanceAs (Decidable (_ → _))

/-- The readings of the trials are those of a clock that moves only by the sleeps between them, and
so is what the clock reads before the next one. -/
structure Paced (start : Int) (length : Nat) (trials : List Trial) (finish : Option Finish)
    (clock : Int) : Prop where
  readings : ∀ k trial, trials[k]? = some trial → trial.reading = start + Retry.elapsed length k
  clock : finish = none → clock = start + Retry.elapsed length trials.length

theorem Paced.concat {length : Nat} {trials : List Trial} {finish : Option Finish} {clock : Int}
    {trial? : Option Trial} {trials' : List Trial} (htrials : trials' = trials ++ trial?.toList)
    (hreadings : ∀ k trial, trials[k]? = some trial →
      trial.reading = start + Retry.elapsed length k)
    (htrial : ∀ trial ∈ trial?, trial.reading = start + Retry.elapsed length trials.length)
    (hclock : finish = none → clock = start + Retry.elapsed length trials'.length) :
    Paced start length trials' finish clock where
  readings k trial hk := by
    rw [htrials] at hk
    by_cases hlt : k < trials.length
    · rw [List.getElem?_append_left hlt] at hk
      exact hreadings k trial hk
    · rw [List.getElem?_append_right (Nat.le_of_not_lt hlt)] at hk
      cases trial? with
      | none => cases hk
      | some trial' =>
        obtain ⟨hzero, heq⟩ : k - trials.length = 0 ∧ trial' = trial := by
          simpa [List.getElem?_singleton] using hk
        have hk' : k = trials.length := by omega
        rw [hk']
        exact htrial trial (heq ▸ rfl)
  clock := hclock

/-- What the clock reads after a turn of an attempt that has begun at the time that has passed. -/
theorem Attempts.paced
    (h : r.Attempts t m mode limit guarded e ((Retry.begin start deadline).afterAll failed) worked)
    (ho : r.Orderly) (hp : r.world.Permits e) (hfailed : Retry.AllFailed deadline failed)
    (hclock : r.world.clock =
      start + Retry.elapsed (deadline - start).toNat failed.length)
    (hreadings : ∀ k trial, failed[k]? = some trial →
      trial.reading = start + Retry.elapsed (deadline - start).toNat k) :
    Paced start (deadline - start).toNat (failed ++ (r.world.trial? t e).toList) (r.endOf t e)
      (r.after e).world.clock := by
  have hrests := h.rests ho hp
  rw [h.trial?_eq, h.endOf_eq, World.trialOf]
  refine .concat rfl hreadings ?_ ?_
  · intro trial htrial
    obtain ⟨granted, -, rfl⟩ := Option.map_eq_some_iff.mp htrial
    exact hclock
  · intro hfinish
    rw [hfinish] at hrests
    generalize ((r.after e).world.thread t).activity = activity at hrests
    generalize worked.stand = stand at hrests
    generalize (r.after e).world.clock = clock at hrests
    have hlength : (failed ++ (((Stand.done (.granted false) : Stand Progress).verdict?.map
        fun granted => (⟨granted, r.world.clock⟩ : Trial))).toList).length = failed.length + 1 := by
      simp [Stand.verdict?]
    -- Before the deadline the time that has passed is less than all of it.
    have hless : r.world.clock < deadline →
        Retry.elapsed (deadline - start).toNat failed.length < (deadline - start).toNat := by
      omega
    cases hrests with
    | here => simpa [Stand.verdict?] using hclock
    | sleeps hsleep =>
      obtain ⟨hbefore, hsteps, rfl⟩ := Retry.of_decision_sleep hfailed hsleep
      have hsucc := Retry.elapsed_succ (hless hbefore)
      rw [if_pos hsteps] at hsucc
      rw [hlength, hsucc]
      omega
    | backsOff hback =>
      obtain ⟨hbefore, hsteps⟩ := Retry.of_decision_backOff hfailed hback
      have hsucc := Retry.elapsed_succ (hless hbefore)
      rw [if_neg (Nat.not_le.mpr hsteps)] at hsucc
      rw [hlength, hsucc]
      omega

/-- If the clock moves only by the sleeps of a timed call, so do the readings of its trials. -/
theorem Plays.paced {ok : Run → Event → Prop} {rest : List Event} (h : Reachable ok r)
    (hp : r.world.Permits (.call t m (.timed mode limit guarded)))
    (hdeadline : limit.deadline? r.world.clock = some deadline)
    (hrest : (r.after (.call t m (.timed mode limit guarded))).Plays
      (fun r e => r.RunsForward t e ∧ r.OwnsClock t e) rest) :
    Paced r.world.clock (deadline - r.world.clock).toNat
      (r.trials t (.call t m (.timed mode limit guarded) :: rest))
      (r.ends t (.call t m (.timed mode limit guarded) :: rest))
      (r.play (.call t m (.timed mode limit guarded) :: rest)).world.clock := by
  let e₀ : Event := .call t m (.timed mode limit guarded)
  have hbegins : r.Attempts t m mode limit guarded e₀ (.begin r.world.clock deadline) _ :=
    .begins hdeadline
  have hreach : Reachable (fun _ _ => True) r := h.mono fun _ _ _ => trivial
  refine hrest.induction (P := fun rest =>
    Paced r.world.clock (deadline - r.world.clock).toNat (r.trials t (e₀ :: rest))
      (r.ends t (e₀ :: rest)) (r.play (e₀ :: rest)).world.clock) ?_ ?_
  · have hfirst : Paced r.world.clock (deadline - r.world.clock).toNat
        ([] ++ (r.world.trial? t e₀).toList) (r.endOf t e₀) (r.after e₀).world.clock :=
      Attempts.paced hbegins h.orderly hp nofun (by simp [Retry.elapsed_zero]) nofun
    simpa [trials, ends, play] using hfirst
  · rintro events e hplays hpe ⟨⟨hasked, hclock⟩, howns⟩ hpaced
    have ho : (r.play (e₀ :: events)).Orderly :=
      ((hreach.step hp trivial).play (hplays.mono fun _ _ _ => trivial)).orderly
    have htried := (Plays.tried h hp hdeadline (hplays.mono fun _ _ hok => hok.1)).1
    rw [← List.cons_append, trials_concat, ends_concat, play_concat]
    change Tried t m mode limit guarded r.world.clock deadline (r.play (e₀ :: events))
      (r.trials t (e₀ :: events)) (r.ends t (e₀ :: events)) at htried
    generalize r.trials t (e₀ :: events) = trials at htried hpaced ⊢
    generalize r.ends t (e₀ :: events) = finish at htried hpaced ⊢
    cases htried with
    | going hfailed hcall hact _ =>
      by_cases hturn : e = .turn t
      · subst hturn
        exact Attempts.paced (.goes hcall hact) ho hpe hfailed (hpaced.clock rfl) hpaced.readings
      · obtain ⟨htrial, hend⟩ := ho.not_tried hpe hasked hturn
        rw [htrial, hend, Option.or_none, Option.toList_none, List.append_nil]
        exact ⟨hpaced.readings, fun hnone => (howns hturn).trans (hpaced.clock hnone)⟩
    | granted _ hnone | expired _ hnone | faulted _ hnone => exact absurd hnone hasked

/-- Trials that failed before the deadline are fewer than those for which there is time. -/
theorem length_lt_patience (trials : List Trial) (hfailed : Retry.AllFailed deadline failed)
    (hreadings : ∀ k trial, (failed ++ trials)[k]? = some trial →
      trial.reading = start + Retry.elapsed (deadline - start).toNat k) :
    failed.length < Retry.patience start deadline := by
  cases hlength : failed.length with
  | zero =>
    unfold Retry.patience
    split <;> omega
  | succ k =>
    have hk : k < failed.length := by omega
    obtain ⟨-, hbefore⟩ := hfailed failed[k] (List.getElem_mem hk)
    have hreading := hreadings k failed[k] (by
      rw [List.getElem?_append_left hk, List.getElem?_eq_getElem hk])
    refine Retry.elapsed_lt_iff_patience.mp ?_
    omega

/-- The number of trials of a timed call, if the clock moves only by its sleeps. -/
theorem Tried.length_le {trials : List Trial} {finish : Option Finish} {clock : Int}
    (h : Tried t m mode limit guarded start deadline r trials finish)
    (hpaced : Paced start (deadline - start).toNat trials finish clock) :
    trials.length ≤ Retry.patience start deadline ∧
      (finish = none → trials.length < Retry.patience start deadline) ∧
      ∀ w, finish = some (.replied (.failed (.timeout w))) →
        trials.length = Retry.patience start deadline ∧ w = ⟨(deadline - start).toNat⟩ := by
  have hreadings := hpaced.readings
  cases h with
  | going hfailed =>
    have hlt := length_lt_patience [] hfailed (by simpa using hreadings)
    exact ⟨Nat.le_of_lt hlt, fun _ => hlt, nofun⟩
  | granted hfailed =>
    have hlt := length_lt_patience _ hfailed hreadings
    rw [List.length_append, List.length_singleton]
    refine ⟨hlt, nofun, ?_⟩
    cases guarded <;> rintro w ⟨⟩
  | faulted hfailed =>
    have hlt := length_lt_patience [] hfailed (by simpa using hreadings)
    exact ⟨Nat.le_of_lt hlt, nofun, nofun⟩
  | @expired failed reading hfailed _ hpast hstart =>
    have hlt := length_lt_patience _ hfailed hreadings
    have hreading := hreadings failed.length ⟨false, reading⟩ (by simp)
    have helapsed : Retry.elapsed (deadline - start).toNat failed.length =
        (deadline - start).toNat := by
      have hle : Retry.elapsed (deadline - start).toNat failed.length ≤
          (deadline - start).toNat := Nat.min_le_left _ _
      dsimp only at hreading
      omega
    have hlast : ¬ failed.length + 1 < Retry.patience start deadline := by
      rw [← Retry.elapsed_lt_iff_patience, helapsed]
      exact Nat.lt_irrefl _
    rw [List.length_append, List.length_singleton]
    refine ⟨hlt, nofun, ?_⟩
    rintro w ⟨⟩
    refine ⟨by omega, ?_⟩
    dsimp only at hreading
    rw [hreading, helapsed, add_sub_cancel_left, Int.toNat_natCast]

/-! ## Timed calls that are run alone -/

/-- An attempt at a lock that lets nobody wait in it takes one turn. -/
theorem not_serves_tryAcquire {p : Progress} {a : Algorithm} (ha : a ≠ .readMostly)
    (hp : p.algorithm = a) : ¬ p.Serves (.tryAcquire mode) := by
  cases p with
  | blocking pc =>
    cases pc with
    | contended | entering | waiting => rintro ⟨⟩
    | notifying | notified | retrying | yielding => rintro ⟨mode', ⟨⟩⟩
  | polling pc => cases pc <;> rintro ⟨⟩
  | readMostly pc => exact absurd hp.symm ha

/-- A turn of an attempt at such a lock ends the call, or is a trial more. -/
theorem Attempts.trial_of_going (h : r.Attempts t m mode limit guarded e retry worked)
    (ho : r.Orderly) (hp : r.world.Permits e) (hl : r.world.locks[m]? = some l)
    (ha : l.body.algorithm ≠ .readMostly) (hfinish : (r.world.meet e).finish = none) :
    (r.world.trial? t e).toList.length = 1 := by
  obtain ⟨l', hl', hserves⟩ := h.serves ho hp
  cases hl.symm.trans ((r.world.lock?_eq_some m).mp hl').1
  have hrests := h.rests ho hp
  rw [hfinish] at hrests
  rw [h.trial?_eq, World.trialOf]
  generalize ((r.after e).world.thread t).activity = activity at hrests
  generalize (r.after e).world.clock = clock at hrests
  generalize worked.stand = stand at hrests hserves
  cases hrests with
  | here => exact absurd hserves.2 (not_serves_tryAcquire ha hserves.1)
  | sleeps | backsOff => rfl

/-- A timed call at such a lock can always take its next turn. -/
theorem Tried.permits {trials : List Trial}
    (h : Tried t m mode limit guarded start deadline r trials none) (ho : r.Orderly)
    (hl : r.world.locks[m]? = some l) (ha : l.body.algorithm ≠ .readMostly) :
    ∃ position, r.asked t = some (.timed mode limit guarded) ∧
      (r.world.thread t).activity = .calling
        ⟨m, .retry mode guarded ((Retry.begin start deadline).afterAll trials), position⟩ ∧
      r.world.Permits (.turn t) := by
  cases h with
  | @going _ position hfailed hcall hact _ =>
    refine ⟨position, hcall, hact, ?_⟩
    have htidy := ho.tidy t
    rw [hcall] at htidy
    cases position with
    | operating p =>
      cases htidy with
      | working hact' hperf hl' halg hserves =>
        cases hact.symm.trans hact'
        cases hperf
        cases hl.symm.trans ((r.world.lock?_eq_some _).mp hl').1
        exact absurd hserves (not_serves_tryAcquire ha halg)
      | pausing hact' hposition hl' =>
        cases hact.symm.trans hact'
        exact absurd rfl (hposition p)
    | spun | yielding | sleeping nanos =>
      simp only [World.Permits, World.obstacle, hact, World.callObstacle]

/-- A timed call that is under way at such a lock comes to its end when it is run alone. -/
theorem exists_goesAlone_of_tried {ok : Run → Event → Prop} (h : Reachable ok r)
    (hp : r.world.Permits (.call t m (.timed mode limit guarded)))
    (hdeadline : limit.deadline? r.world.clock = some deadline) (n : Nat) (rest : List Event)
    (hrest : (r.after (.call t m (.timed mode limit guarded))).Plays
      (fun r e => r.RunsForward t e ∧ r.OwnsClock t e) rest)
    (hends : r.ends t (.call t m (.timed mode limit guarded) :: rest) = none)
    (hl : (r.play (.call t m (.timed mode limit guarded) :: rest)).world.locks[m]? = some l)
    (ha : l.body.algorithm ≠ .readMostly)
    (hn : Retry.patience r.world.clock deadline ≤
      (r.trials t (.call t m (.timed mode limit guarded) :: rest)).length + n) :
    ∃ f r', GoesAlone (fun _ => True) t
      (r.play (.call t m (.timed mode limit guarded) :: rest)) (.turn t) f r' := by
  -- The induction is on the number of trials for which there is time.
  induction n generalizing rest l with
  | zero =>
    have htried := (Plays.tried h hp hdeadline (hrest.mono fun _ _ hok => hok.1)).1
    have hlt := (htried.length_le (Plays.paced h hp hdeadline hrest)).2.1 hends
    omega
  | succ n ih =>
    have hreach : Reachable (fun _ _ => True) r := h.mono fun _ _ _ => trivial
    have ho := ((hreach.step hp trivial).play (hrest.mono fun _ _ _ => trivial)).orderly
    have htried := (Plays.tried h hp hdeadline (hrest.mono fun _ _ hok => hok.1)).1
    rw [hends] at htried
    obtain ⟨position, hcall, hact, hpt⟩ := htried.permits ho hl ha
    have hattempts : Attempts _ t m mode limit guarded (.turn t) _ _ := .goes hcall hact
    cases hfinish : ((r.play (.call t m (.timed mode limit guarded) :: rest)).world.meet
        (.turn t)).finish with
    | some f => exact ⟨f, _, .ends hpt hfinish⟩
    | none =>
      obtain ⟨l', hl', halg'⟩ := algorithm_after ho hpt hl
      have htrial := hattempts.trial_of_going ho hpt hl ha hfinish
      have hplays : (r.after (.call t m (.timed mode limit guarded))).Plays
          (fun r e => r.RunsForward t e ∧ r.OwnsClock t e) (rest ++ [.turn t]) :=
        plays_concat.mpr ⟨hrest, hpt, ⟨by
          change (r.play (.call t m (.timed mode limit guarded) :: rest)).asked t ≠ none
          rw [hcall]
          exact nofun, hattempts.clock_le ho hpt⟩, fun hne => absurd rfl hne⟩
      have hnext := ih (l := l') (rest ++ [.turn t]) hplays (by
          rw [← List.cons_append, ends_concat, hends, hattempts.endOf_eq, hfinish]
          rfl) (by
          rw [← List.cons_append, play_concat]
          exact hl') (by rwa [halg']) (by
          rw [← List.cons_append, trials_concat, List.length_append, htrial]
          omega)
      rw [← List.cons_append, play_concat] at hnext
      obtain ⟨f, r', hgoes⟩ := hnext
      exact ⟨f, r', .goes hpt hfinish trivial hgoes⟩

/-- A timed call at such a lock comes to its end when it is run alone. -/
theorem exists_goesAlone {ok : Run → Event → Prop} (h : Reachable ok r)
    (hp : r.world.Permits (.call t m (.timed mode limit guarded)))
    (hdeadline : limit.deadline? r.world.clock = some deadline) (hl : r.world.locks[m]? = some l)
    (ha : l.body.algorithm ≠ .readMostly) :
    ∃ f r', GoesAlone (fun _ => True) t r (.call t m (.timed mode limit guarded)) f r' := by
  cases hfinish : (r.world.meet (.call t m (.timed mode limit guarded))).finish with
  | some f => exact ⟨f, _, .ends hp hfinish⟩
  | none =>
    obtain ⟨l', hl', halg'⟩ := algorithm_after h.orderly hp hl
    have hbegins : r.Attempts t m mode limit guarded (.call t m (.timed mode limit guarded))
        (.begin r.world.clock deadline) _ := .begins hdeadline
    obtain ⟨f, r', hgoes⟩ := exists_goesAlone_of_tried h hp hdeadline
      (Retry.patience r.world.clock deadline) [] trivial
      (by simp [ends, hbegins.endOf_eq, hfinish]) hl' (by rwa [halg']) (Nat.le_add_left _ _)
    exact ⟨f, r', .goes hp hfinish trivial hgoes⟩

end Run

/-! ## The main result -/

/-- A timed call that has a deadline, from its beginning on, as long as the clock does not run
backwards, and for as long as the call is under way:

* it comes back with the lock iff one of its trials has got it, and that is the last one;
* it replies nothing else but that the time has run out, and nothing at all before a trial;
* the time has run out only after a trial that failed at a reading not before the deadline, and the
  time waited that it replies is what has passed until then, which is at least what there was;
* a sleep is not empty, not longer than a slice, and does not go beyond the deadline.

If moreover the clock moves only by the sleeps of the call, the call makes no more trials than there
is time for. If all of them fail, it makes exactly so many: one if the deadline is not after the
start, and else 51 and one more for every slice begun; and the time waited that it replies is what
there was. On a lock whose attempts take one turn it comes to its end when it is run alone. -/
theorem timedCall_exact {ok : Run → Event → Prop} {r : Run} {t : ThreadId} {m : Nat} {mode : Mode}
    {limit : TimeLimit} {guarded : Bool} {deadline : Int} {rest : List Event} {e : Event}
    (h : Reachable ok r) (he : e = .call t m (.timed mode limit guarded))
    (hp : r.world.Permits e) (hdeadline : limit.deadline? r.world.clock = some deadline)
    (hrest : (r.after e).Plays (Run.RunsForward t) rest) :
    (r.ends t (e :: rest) = some (.replied (.taken mode guarded)) ↔
        ∃ trial ∈ r.trials t (e :: rest), trial.granted = true) ∧
      (∀ before trial after, r.trials t (e :: rest) = before ++ trial :: after →
        trial.granted = true → after = []) ∧
      (∀ reply, r.ends t (e :: rest) = some (.replied reply) → r.trials t (e :: rest) ≠ [] ∧
        (reply = .taken mode guarded ∨ ∃ w, reply = .failed (.timeout w))) ∧
      (∀ w, r.ends t (e :: rest) = some (.replied (.failed (.timeout w))) →
        ∃ failed reading, r.trials t (e :: rest) = failed ++ [⟨false, reading⟩] ∧
          deadline ≤ reading ∧ (w.nanos : Int) = reading - r.world.clock ∧
          deadline - r.world.clock ≤ w.nanos) ∧
      (∀ nanos task, ((r.play (e :: rest)).world.thread t).activity =
          .calling ⟨m, task, .sleeping nanos⟩ →
        ∃ failed reading, r.trials t (e :: rest) = failed ++ [⟨false, reading⟩] ∧ 0 < nanos ∧
          nanos ≤ retrySlice ∧ (nanos : Int) ≤ deadline - reading) ∧
      ((r.after e).Plays (Run.OwnsClock t) rest →
        (r.trials t (e :: rest)).length ≤ Retry.patience r.world.clock deadline ∧
        (r.ends t (e :: rest) = none →
          (r.trials t (e :: rest)).length < Retry.patience r.world.clock deadline) ∧
        ∀ reply, r.ends t (e :: rest) = some (.replied reply) →
          (∀ trial ∈ r.trials t (e :: rest), trial.granted = false) →
          (r.trials t (e :: rest)).length = Retry.patience r.world.clock deadline ∧
            reply = .failed (.timeout ⟨(deadline - r.world.clock).toNat⟩)) ∧
      ∀ l, r.world.locks[m]? = some l → l.body.algorithm ≠ .readMostly →
        ∃ f r', Run.GoesAlone (fun _ => True) t r e f r' := by
  subst he
  have htried := (Run.Plays.tried h hp hdeadline hrest).1
  have hreach : Reachable (fun _ _ => True) r := h.mono fun _ _ _ => trivial
  have ho : (r.play (.call t m (.timed mode limit guarded) :: rest)).Orderly :=
    ((hreach.step hp trivial).play (hrest.mono fun _ _ _ => trivial)).orderly
  refine ⟨htried.taken_iff, fun _ _ _ heq hgranted => htried.eq_nil_of_granted heq hgranted,
    fun _ hreply => htried.reply_cases hreply, fun _ hreply => htried.expired_of_timeout hreply,
    fun _ _ hact => htried.sleepFits (htried.finish_eq_none ho hact) hact, fun howns => ?_,
    fun l hl ha => ?_⟩
  · have hpaced := Run.Plays.paced h hp hdeadline (hrest.and howns)
    obtain ⟨hle, hlt, htimeout⟩ := htried.length_le hpaced
    refine ⟨hle, hlt, fun reply hreply hfailed => ?_⟩
    rcases (htried.reply_cases hreply).2 with rfl | ⟨w, rfl⟩
    · obtain ⟨trial, hmem, hgranted⟩ := htried.taken_iff.mp hreply
      rw [hfailed trial hmem] at hgranted
      cases hgranted
    · obtain ⟨hlength, rfl⟩ := htimeout w hreply
      exact ⟨hlength, rfl⟩
  · exact Run.exists_goesAlone h hp hdeadline hl ha

/-- A writer has a blocking lock. -/
def Run.lockedOut : Run :=
  play {} [.make ⟨.blocking, false, false⟩ .standard, .call 0 0 (.operate (.acquire .unique))]

/-- A thread tries to have the unique lock for 600 microseconds. -/
def timedAttempt : Event := .call 1 0 (.timed .unique (.within ⟨600000⟩) true)

/-- It makes 53 trials, the last of them at the deadline itself. -/
theorem timedCall_exact_locked_out :
    (Run.lockedOut.trials 1 (timedAttempt :: List.replicate 52 (.turn 1))).length = 53 ∧
      Run.lockedOut.ends 1 (timedAttempt :: List.replicate 52 (.turn 1)) =
        some (.replied (.failed (.timeout ⟨600000⟩))) := by
  have hr : Reachable (fun _ _ => True) Run.lockedOut := Reachable.start.play (by decide +kernel)
  have hp : Run.lockedOut.world.Permits timedAttempt := by decide +kernel
  have hrest : (Run.lockedOut.after timedAttempt).Plays (Run.RunsForward 1)
      (List.replicate 52 (.turn 1)) := by
    decide +kernel
  have howns : (Run.lockedOut.after timedAttempt).Plays (Run.OwnsClock 1)
      (List.replicate 52 (.turn 1)) := by
    decide +kernel
  have hends : Run.lockedOut.ends 1 (timedAttempt :: List.replicate 52 (.turn 1)) =
      some (.replied (.failed (.timeout ⟨600000⟩))) := by
    decide +kernel
  have hexact := timedCall_exact hr rfl hp (show _ = some 600000 by decide +kernel) hrest
  exact ⟨((hexact.2.2.2.2.2.1 howns).2.2 _ hends (by decide +kernel)).1, hends⟩

end ReaderWriter
