import ReaderWriter.Proofs.Tallies
import ReaderWriter.Proofs.TimedAttempts

/-!
# The trials of a timed call

A timed call makes one attempt after the other at its lock. Each attempt is an operation of the lock
and takes as many turns as that; it ends with a trial, which either got the lock or is followed by
what the clock tells. What has come of the call so far is told by its trials alone, whatever other
threads have done meanwhile.

* `Run.trials`, `Run.ends`: what is seen of a timed call in the course of events.
* `Retry.Rests`, `World.settle_retry_rests`: how the call goes on after a turn of an attempt.
* `Run.Attempts.tried`: one turn of an attempt, after trials that failed.
* `Run.Plays.tried`: what comes of the call in the course of events.
-/

namespace ReaderWriter

/-! ## What is seen of a timed call -/

/-- Whether an attempt that ends here got the lock. -/
def Stand.verdict? {Pc : Type} : Stand Pc → Option Bool
  | .done (.granted yes) => some yes
  | .done .unit | .done (.count _) | .here _ | .fault _ => none

namespace World

/-- What a timed call does in its next turn: it goes on with an attempt, or begins the next one. -/
def attempt (w : World) (t : ThreadId) (m : Nat) (mode : Mode) : Position → Worked
  | .operating p => w.work t m (.resume p)
  | .spun | .yielding | .sleeping _ => w.work t m (.start (.tryAcquire mode))

/-- The trial with which an attempt ends, if it does. -/
def trialOf (w : World) (worked : Worked) : Option Trial :=
  worked.stand.verdict?.map fun granted => ⟨granted, w.clock⟩

/-- The trial of a thread's timed call that ends with the event. -/
def trial? (w : World) (t : ThreadId) : Event → Option Trial
  | .call u m (.timed mode limit _) =>
      if u = t ∧ (limit.deadline? w.clock).isSome = true then
        w.trialOf (w.work t m (.start (.tryAcquire mode)))
      else none
  | .turn u =>
      if u = t then
        match (w.thread t).activity with
        | .calling ⟨m, .retry mode _ _, position⟩ => w.trialOf (w.attempt t m mode position)
        | _ => none
      else none
  | _ => none

end World

namespace Run

/-- The trials of a thread's timed call that end with the events, one after the other. -/
def trials (t : ThreadId) (r : Run) : List Event → List Trial
  | [] => []
  | e :: rest => (r.world.trial? t e).toList ++ (r.after e).trials t rest

/-- How the call of a thread comes to its end by the event, if it does. -/
def endOf (t : ThreadId) (r : Run) (e : Event) : Option Finish :=
  match e with
  | .call u _ _ | .turn u => if u = t then (r.world.meet e).finish else none
  | _ => none

/-- How the call of a thread comes to its end by the events, one after the other, if it does. -/
def ends (t : ThreadId) (r : Run) : List Event → Option Finish
  | [] => none
  | e :: rest => (r.endOf t e).or ((r.after e).ends t rest)

variable {r : Run} {t : ThreadId}

theorem trials_concat (t : ThreadId) (r : Run) (events : List Event) (e : Event) :
    r.trials t (events ++ [e]) =
      r.trials t events ++ ((r.play events).world.trial? t e).toList := by
  induction events generalizing r with
  | nil => simp [trials]
  | cons e' events ih =>
    simp only [List.cons_append, trials, ih, List.append_assoc]
    rfl

theorem ends_concat (t : ThreadId) (r : Run) (events : List Event) (e : Event) :
    r.ends t (events ++ [e]) = (r.ends t events).or ((r.play events).endOf t e) := by
  induction events generalizing r with
  | nil => simp [ends]
  | cons e' events ih =>
    simp only [List.cons_append, ends, ih, Option.or_assoc]
    rfl

end Run

/-! ## One turn of a timed call -/

/-- How a timed call on lock `m` goes on from where a turn of its attempt has ended at the reading
`now`: what the thread does, whether the call has come to its end, and what the clock reads then. -/
inductive Retry.Rests (m : Nat) (mode : Mode) (guarded : Bool) (retry : Retry) (now : Int) :
    Stand Progress → Activity → Option Finish → Int → Prop
  | here {p : Progress} :
      Rests m mode guarded retry now (.here p)
        (.calling ⟨m, .retry mode guarded retry, .operating p⟩) none now
  | granted :
      Rests m mode guarded retry now (.done (.granted true)) .idle
        (some (.replied (.taken mode guarded))) now
  | expired {waited : Duration} : retry.decision now = .giveUp waited →
      Rests m mode guarded retry now (.done (.granted false)) .idle
        (some (.replied (.failed (.timeout waited)))) now
  | sleeps {nanos : Nat} : retry.decision now = .sleep nanos →
      Rests m mode guarded retry now (.done (.granted false))
        (.calling ⟨m, .retry mode guarded (retry.after now), .sleeping nanos⟩) none (now + nanos)
  | backsOff {yields : Bool} : retry.decision now = .backOff yields →
      Rests m mode guarded retry now (.done (.granted false))
        (.calling ⟨m, .retry mode guarded (retry.after now), if yields then .yielding else .spun⟩)
        none now
  | faulted {f : Fault} :
      Rests m mode guarded retry now (.fault f) .idle (some (.faulted f)) now

namespace World

variable {mode : Mode} {guarded : Bool} {retry : Retry}

/-- A timed call goes on as the stand of its attempt and the clock tell. -/
theorem settle_retry_rests (t : ThreadId) (m : Nat) (guarded : Bool) (retry : Retry)
    {worked : Worked} {place : Progress → Prop}
    (hserves : worked.stand.Serves place (.tryAcquire mode)) :
    Retry.Rests m mode guarded retry worked.world.clock worked.stand
      (((settleCall t (settle t m (.retry mode guarded retry) worked)).world.thread t).activity)
      (settleCall t (settle t m (.retry mode guarded retry) worked)).finish
      (settleCall t (settle t m (.retry mode guarded retry) worked)).world.clock := by
  cases hs : worked.stand with
  | here p =>
    simp only [settle, hs, settleCall, thread_withActivity_self]
    exact .here
  | fault f =>
    simp only [settle, hs, settleCall, thread_withActivity_self]
    exact .faulted
  | done answer =>
    rw [hs] at hserves
    obtain ⟨yes, rfl⟩ := hserves
    cases yes with
    | true =>
      simp only [settle, hs, sequel_retry_granted, settleCall, thread_withActivity_self]
      exact .granted
    | false =>
      have hsequel := sequel_retry_refused worked.world m mode guarded retry
      cases hd : retry.decision worked.world.clock with
      | giveUp waited =>
        rw [hd] at hsequel
        simp only [settle, hs, hsequel, settleCall, thread_withActivity_self]
        exact .expired hd
      | sleep nanos =>
        rw [hd] at hsequel
        simp only [settle, hs, hsequel, settleCall, thread_withActivity_self]
        exact .sleeps hd
      | backOff yields =>
        rw [hd] at hsequel
        cases yields <;>
          simp only [settle, hs, hsequel, settleCall, thread_withActivity_self] <;>
          exact .backsOff hd

theorem resumeCall_retry (w : World) (t : ThreadId) (position : Position) :
    w.resumeCall t ⟨m, .retry mode guarded retry, position⟩ =
      settle t m (.retry mode guarded retry) (w.attempt t m mode position) := by
  cases position <;> rfl

/-- A job takes no time. -/
theorem clock_work (w : World) (t : ThreadId) (m : Nat) (job : Job) :
    (w.work t m job).world.clock = w.clock := by
  cases job with
  | start op =>
    simp only [work, startOperation]
    split
    · rfl
    · split <;> rfl
  | resume p =>
    simp only [work, resumeOperation]
    split
    · rfl
    · split <;> rfl
  | depart f =>
    simp only [work]
    split
    · split <;> rfl
    · rfl

theorem clock_attempt (w : World) (t : ThreadId) (m : Nat) (mode : Mode) (position : Position) :
    (w.attempt t m mode position).world.clock = w.clock := by
  cases position <;> exact clock_work _ _ _ _

end World

namespace Run

variable {r : Run} {t : ThreadId} {m : Nat} {l : Lock} {mode : Mode} {limit : TimeLimit}
  {guarded : Bool} {retry : Retry} {worked : Worked} {e : Event} {start deadline : Int}
  {failed : List Trial}

/-- By the event the timed call of a thread makes a turn of an attempt. -/
inductive Attempts (r : Run) (t : ThreadId) (m : Nat) (mode : Mode) (limit : TimeLimit)
    (guarded : Bool) : Event → Retry → Worked → Prop
  | begins {deadline : Int} : limit.deadline? r.world.clock = some deadline →
      Attempts r t m mode limit guarded (.call t m (.timed mode limit guarded))
        (.begin r.world.clock deadline) (r.world.work t m (.start (.tryAcquire mode)))
  | goes {retry : Retry} {position : Position} :
      r.asked t = some (.timed mode limit guarded) →
      (r.world.thread t).activity = .calling ⟨m, .retry mode guarded retry, position⟩ →
      Attempts r t m mode limit guarded (.turn t) retry (r.world.attempt t m mode position)

namespace Attempts

theorem clock_eq (h : r.Attempts t m mode limit guarded e retry worked) :
    worked.world.clock = r.world.clock := by
  cases h with
  | begins => exact World.clock_work _ _ _ _
  | goes => exact World.clock_attempt _ _ _ _ _

theorem meet_eq (h : r.Attempts t m mode limit guarded e retry worked)
    (hp : r.world.Permits e) :
    r.world.meet e =
      World.settleCall t (World.settle t m (.retry mode guarded retry) worked) := by
  cases h with
  | begins hdeadline =>
    obtain ⟨-, hl, -⟩ := hp
    obtain ⟨l, hl⟩ := Option.isSome_iff_exists.mp hl
    have hlock := ((r.world.lock?_eq_some m).mp hl).1
    simp only [World.meet, World.call, World.beginCall, hlock, World.beginCallOn, hdeadline]
    rfl
  | goes _ hact => simp only [World.meet, World.turn, hact, World.resumeCall_retry]

theorem asked_after (h : r.Attempts t m mode limit guarded e retry worked) :
    (r.after e).asked t =
      if (r.world.meet e).finish = none then some (.timed mode limit guarded) else none := by
  cases h with
  | begins => exact Function.update_self _ _ _
  | goes hasked hact => exact asked_after_turn hasked hact

theorem endOf_eq (h : r.Attempts t m mode limit guarded e retry worked) :
    r.endOf t e = (r.world.meet e).finish := by
  cases h <;> simp [endOf]

theorem trial?_eq (h : r.Attempts t m mode limit guarded e retry worked) :
    r.world.trial? t e = r.world.trialOf worked := by
  cases h with
  | begins hdeadline => simp [World.trial?, hdeadline]
  | goes _ hact => simp [World.trial?, hact]

theorem serves (h : r.Attempts t m mode limit guarded e retry worked) (ho : r.Orderly)
    (hp : r.world.Permits e) :
    ∃ l, r.world.lock? m = some l ∧ worked.stand.Serves
      (fun p => p.algorithm = l.body.algorithm ∧ p.Serves (.tryAcquire mode))
      (.tryAcquire mode) := by
  cases h with
  | begins hdeadline =>
    obtain ⟨-, hl, -⟩ := hp
    obtain ⟨l, hl⟩ := Option.isSome_iff_exists.mp hl
    exact ⟨l, hl, World.work_serves t ((r.world.lock?_eq_some m).mp hl).1 trivial rfl⟩
  | @goes retry position hasked hact =>
    have htidy := ho.tidy t
    rw [hasked] at htidy
    cases htidy with
    | working hact' hperf hl halg hserves =>
      cases hact.symm.trans hact'
      cases hperf
      exact ⟨_, hl, World.work_serves t ((r.world.lock?_eq_some _).mp hl).1 halg hserves⟩
    | pausing hact' hposition hl =>
      cases hact.symm.trans hact'
      refine ⟨_, hl, ?_⟩
      cases position with
      | operating p => exact absurd rfl (hposition p)
      | spun | yielding | sleeping nanos =>
        exact World.work_serves t ((r.world.lock?_eq_some _).mp hl).1 trivial rfl

/-- The call goes on as its attempt and the clock tell. -/
theorem rests (h : r.Attempts t m mode limit guarded e retry worked) (ho : r.Orderly)
    (hp : r.world.Permits e) :
    Retry.Rests m mode guarded retry r.world.clock worked.stand
      ((r.after e).world.thread t).activity (r.world.meet e).finish (r.after e).world.clock := by
  obtain ⟨l, -, hserves⟩ := h.serves ho hp
  have hrests := World.settle_retry_rests t m guarded retry hserves
  rwa [← h.meet_eq hp, h.clock_eq, ← world_after] at hrests

end Attempts

/-! ## What has come of a timed call -/

/-- The last of the trials failed, and a sleep of so many nanoseconds after it is in its bounds. -/
def SleepFits (deadline : Int) (trials : List Trial) (nanos : Nat) : Prop :=
  ∃ before reading, trials = before ++ [⟨false, reading⟩] ∧ 0 < nanos ∧ nanos ≤ retrySlice ∧
    (nanos : Int) ≤ deadline - reading

/-- What has come of the timed call of a thread: the run to which it has led, its trials, and how it
has come to its end. -/
inductive Tried (t : ThreadId) (m : Nat) (mode : Mode) (limit : TimeLimit) (guarded : Bool)
    (start deadline : Int) (r : Run) : List Trial → Option Finish → Prop
  | going {failed : List Trial} {position : Position} : Retry.AllFailed deadline failed →
      r.asked t = some (.timed mode limit guarded) →
      (r.world.thread t).activity =
        .calling ⟨m, .retry mode guarded ((Retry.begin start deadline).afterAll failed), position⟩ →
      (∀ nanos, position = .sleeping nanos → SleepFits deadline failed nanos) →
      Tried t m mode limit guarded start deadline r failed none
  | granted {failed : List Trial} {reading : Int} : Retry.AllFailed deadline failed →
      r.asked t = none →
      Tried t m mode limit guarded start deadline r (failed ++ [⟨true, reading⟩])
        (some (.replied (.taken mode guarded)))
  | expired {failed : List Trial} {reading : Int} : Retry.AllFailed deadline failed →
      r.asked t = none → deadline ≤ reading → start ≤ reading →
      Tried t m mode limit guarded start deadline r (failed ++ [⟨false, reading⟩])
        (some (.replied (.failed (.timeout ⟨(reading - start).toNat⟩))))
  | faulted {failed : List Trial} {f : Fault} : Retry.AllFailed deadline failed →
      r.asked t = none →
      Tried t m mode limit guarded start deadline r failed (some (.faulted f))

/-- A turn of an attempt after trials that failed. -/
theorem Attempts.tried
    (h : r.Attempts t m mode limit guarded e ((Retry.begin start deadline).afterAll failed) worked)
    (ho : r.Orderly) (hp : r.world.Permits e) (hfailed : Retry.AllFailed deadline failed)
    (hstart : start ≤ r.world.clock) :
    Tried t m mode limit guarded start deadline (r.after e)
      (failed ++ (r.world.trial? t e).toList) (r.endOf t e) := by
  have hrests := h.rests ho hp
  have hasked := h.asked_after
  rw [h.trial?_eq, h.endOf_eq, World.trialOf]
  -- After a trial that failed before the deadline the call goes on.
  have hgoing : ∀ {position}, ((r.after e).world.thread t).activity =
        .calling ⟨m, .retry mode guarded (((Retry.begin start deadline).afterAll failed).after
          r.world.clock), position⟩ →
      (r.world.meet e).finish = none → r.world.clock < deadline →
      (∀ nanos, position = .sleeping nanos →
        SleepFits deadline (failed ++ [⟨false, r.world.clock⟩]) nanos) →
      Tried t m mode limit guarded start deadline (r.after e)
        (failed ++ [⟨false, r.world.clock⟩]) none := by
    intro position hact hfinish hbefore hsleep
    rw [hfinish, if_pos rfl] at hasked
    refine .going (hfailed.concat hbefore) hasked ?_ hsleep
    rw [Retry.afterAll_concat]
    exact hact
  generalize hfinish : (r.world.meet e).finish = finish at hrests hasked hgoing
  generalize hact : ((r.after e).world.thread t).activity = activity at hrests hgoing
  generalize worked.stand = stand at hrests
  generalize (r.after e).world.clock = clock at hrests
  cases hrests with
  | here =>
    rw [if_pos rfl] at hasked
    simp only [Stand.verdict?, Option.map_none, Option.toList_none, List.append_nil]
    exact .going hfailed hasked hact (by rintro nanos ⟨⟩)
  | granted => exact .granted hfailed hasked
  | expired hgive =>
    obtain ⟨hover, rfl⟩ := Retry.of_decision_giveUp hfailed hgive
    exact .expired hfailed hasked hover hstart
  | sleeps hsleep =>
    obtain ⟨hbefore, -, rfl⟩ := Retry.of_decision_sleep hfailed hsleep
    refine hgoing rfl rfl hbefore ?_
    rintro nanos ⟨⟩
    exact ⟨failed, r.world.clock, rfl, Retry.slice_bounds hbefore⟩
  | @backsOff yields hback =>
    refine hgoing rfl rfl (Retry.of_decision_backOff hfailed hback).1 ?_
    cases yields <;> rintro nanos ⟨⟩
  | faulted =>
    simp only [Stand.verdict?, Option.map_none, Option.toList_none, List.append_nil]
    exact .faulted hfailed hasked

/-- The clock does not run backwards in a turn of an attempt. -/
theorem Attempts.clock_le (h : r.Attempts t m mode limit guarded e retry worked) (ho : r.Orderly)
    (hp : r.world.Permits e) : r.world.clock ≤ (r.after e).world.clock := by
  have hrests := h.rests ho hp
  generalize (r.world.meet e).finish = finish at hrests
  generalize ((r.after e).world.thread t).activity = activity at hrests
  generalize worked.stand = stand at hrests
  generalize (r.after e).world.clock = clock at hrests
  cases hrests with
  | sleeps => omega
  | here | granted | expired | backsOff | faulted => exact Int.le_refl _

/-- An event that is not a turn of a thread is none of its timed call. -/
theorem Orderly.not_tried (ho : r.Orderly) (hp : r.world.Permits e) (hasked : r.asked t ≠ none)
    (hne : e ≠ .turn t) : r.world.trial? t e = none ∧ r.endOf t e = none := by
  cases e with
  | call u n c =>
    have hu : u ≠ t := by
      rintro rfl
      exact hasked (asked_of_idle ho hp.1)
    refine ⟨?_, if_neg hu⟩
    cases c with
    | timed => exact if_neg fun h => hu h.1
    | _ => rfl
  | turn u =>
    have hu : u ≠ t := by
      rintro rfl
      exact hne rfl
    exact ⟨if_neg hu, if_neg hu⟩
  | exit | wake | advance | make => exact ⟨rfl, rfl⟩

/-- The call of a thread is under way, and the clock does not run backwards. -/
def RunsForward (t : ThreadId) (r : Run) (e : Event) : Prop :=
  r.asked t ≠ none ∧ r.world.clock ≤ (r.after e).world.clock

instance (t : ThreadId) (r : Run) (e : Event) : Decidable (r.RunsForward t e) :=
  inferInstanceAs (Decidable (_ ∧ _))

/-- Whatever else happens leaves what has come of a timed call. -/
theorem Tried.of_other {trials : List Trial} {finish : Option Finish}
    (h : Tried t m mode limit guarded start deadline r trials finish) (ho : r.Orderly)
    (hp : r.world.Permits e) (hasked : r.asked t ≠ none) (hne : e ≠ .turn t) :
    Tried t m mode limit guarded start deadline (r.after e) trials finish := by
  obtain ⟨hthread, hasked'⟩ := ho.caller_after hp hasked hne
  cases h with
  | going hfailed hcall hact hsleep =>
    exact .going hfailed (hasked'.trans hcall) (hthread ▸ hact) hsleep
  | granted _ hnone | expired _ hnone | faulted _ hnone => exact absurd hnone hasked

/-- What comes of a timed call in the course of events. -/
theorem Plays.tried {ok : Run → Event → Prop} {rest : List Event} (h : Reachable ok r)
    (hp : r.world.Permits (.call t m (.timed mode limit guarded)))
    (hdeadline : limit.deadline? r.world.clock = some deadline)
    (hrest : (r.after (.call t m (.timed mode limit guarded))).Plays (RunsForward t) rest) :
    Tried t m mode limit guarded r.world.clock deadline
        (r.play (.call t m (.timed mode limit guarded) :: rest))
        (r.trials t (.call t m (.timed mode limit guarded) :: rest))
        (r.ends t (.call t m (.timed mode limit guarded) :: rest)) ∧
      r.world.clock ≤ (r.play (.call t m (.timed mode limit guarded) :: rest)).world.clock := by
  let e₀ : Event := .call t m (.timed mode limit guarded)
  have hbegins : r.Attempts t m mode limit guarded e₀ (.begin r.world.clock deadline) _ :=
    .begins hdeadline
  have hreach : Reachable (fun _ _ => True) r := h.mono fun _ _ _ => trivial
  refine hrest.induction (P := fun rest =>
    Tried t m mode limit guarded r.world.clock deadline (r.play (e₀ :: rest))
      (r.trials t (e₀ :: rest)) (r.ends t (e₀ :: rest)) ∧
    r.world.clock ≤ (r.play (e₀ :: rest)).world.clock) ?_ ?_
  · refine ⟨?_, hbegins.clock_le h.orderly hp⟩
    have hfirst : Tried t m mode limit guarded r.world.clock deadline (r.after e₀)
        ([] ++ (r.world.trial? t e₀).toList) (r.endOf t e₀) :=
      Attempts.tried hbegins h.orderly hp nofun (Int.le_refl _)
    simpa [trials, ends, play] using hfirst
  · rintro events e hplays hpe ⟨hasked, hclock⟩ ⟨htried, hstart⟩
    have ho : (r.play (e₀ :: events)).Orderly :=
      ((hreach.step hp trivial).play (hplays.mono fun _ _ _ => trivial)).orderly
    rw [← List.cons_append, trials_concat, ends_concat, play_concat]
    refine ⟨?_, Int.le_trans hstart hclock⟩
    by_cases hturn : e = .turn t
    · subst hturn
      generalize r.trials t (e₀ :: events) = trials at htried ⊢
      generalize r.ends t (e₀ :: events) = finish at htried ⊢
      cases htried with
      | going hfailed hcall hact _ =>
        exact Attempts.tried (.goes hcall hact) ho hpe hfailed hstart
      | granted _ hnone | expired _ hnone | faulted _ hnone => exact absurd hnone hasked
    · obtain ⟨htrial, hend⟩ := ho.not_tried hpe hasked hturn
      rw [htrial, hend, Option.or_none, Option.toList_none, List.append_nil]
      exact htried.of_other ho hpe hasked hturn

/-! What has come of a timed call, clause by clause. -/

namespace Tried

variable {trials : List Trial} {finish : Option Finish}

/-- The call comes back with the lock iff a trial has got it. -/
theorem taken_iff (h : Tried t m mode limit guarded start deadline r trials finish) :
    finish = some (.replied (.taken mode guarded)) ↔ ∃ trial ∈ trials, trial.granted = true := by
  have hnone : ∀ {failed}, Retry.AllFailed deadline failed →
      ¬ ∃ trial ∈ failed, trial.granted = true := by
    rintro failed hfailed ⟨trial, hmem, hgranted⟩
    rw [(hfailed trial hmem).1] at hgranted
    cases hgranted
  cases h with
  | going hfailed => exact iff_of_false nofun (hnone hfailed)
  | @granted failed reading => exact iff_of_true rfl ⟨⟨true, reading⟩, by simp, rfl⟩
  | faulted hfailed => exact iff_of_false nofun (hnone hfailed)
  | expired hfailed =>
    refine iff_of_false (by cases guarded <;> rintro ⟨⟩) ?_
    rintro ⟨trial, hmem, hgranted⟩
    rcases List.mem_append.mp hmem with hmem | hmem
    · exact hnone hfailed ⟨trial, hmem, hgranted⟩
    · rw [List.mem_singleton.mp hmem] at hgranted
      cases hgranted

/-- A trial that has got the lock is the last one. -/
theorem eq_nil_of_granted (h : Tried t m mode limit guarded start deadline r trials finish)
    {before after : List Trial} {trial : Trial} (heq : trials = before ++ trial :: after)
    (hgranted : trial.granted = true) : after = [] := by
  have hnone : ∀ {failed}, Retry.AllFailed deadline failed → trial ∉ failed := by
    intro failed hfailed hmem
    rw [(hfailed trial hmem).1] at hgranted
    cases hgranted
  -- All trials but the last one have failed.
  have hlast : ∀ {failed last}, Retry.AllFailed deadline failed →
      failed ++ [last] = before ++ trial :: after → after = [] := by
    intro failed last hfailed heq
    rcases List.eq_nil_or_concat after with rfl | ⟨after', last', rfl⟩
    · rfl
    · rw [List.concat_eq_append, ← List.cons_append, ← List.append_assoc] at heq
      obtain ⟨rfl, -⟩ := List.append_inj' heq rfl
      exact absurd (by simp) (hnone hfailed)
  cases h with
  | going hfailed | faulted hfailed => exact absurd (by simp [heq]) (hnone hfailed)
  | granted hfailed | expired hfailed => exact hlast hfailed heq

/-- What the call replies, and that it does so after a trial. -/
theorem reply_cases (h : Tried t m mode limit guarded start deadline r trials finish)
    {reply : Reply} (hreply : finish = some (.replied reply)) :
    trials ≠ [] ∧ (reply = .taken mode guarded ∨ ∃ w, reply = .failed (.timeout w)) := by
  cases h with
  | going | faulted => cases hreply
  | granted =>
    cases hreply
    exact ⟨by simp, .inl rfl⟩
  | expired =>
    cases hreply
    exact ⟨by simp, .inr ⟨_, rfl⟩⟩

/-- The time has run out only after a trial that failed at the deadline or later. -/
theorem expired_of_timeout (h : Tried t m mode limit guarded start deadline r trials finish)
    {w : Duration} (hreply : finish = some (.replied (.failed (.timeout w)))) :
    ∃ failed reading, trials = failed ++ [⟨false, reading⟩] ∧ deadline ≤ reading ∧
      (w.nanos : Int) = reading - start ∧ deadline - start ≤ w.nanos := by
  cases h with
  | going | faulted => cases hreply
  | granted => cases guarded <;> cases hreply
  | @expired failed reading _ _ hpast hstart =>
    cases hreply
    have hnanos : ((reading - start).toNat : Int) = reading - start :=
      Int.toNat_of_nonneg (Int.sub_nonneg.mpr hstart)
    exact ⟨failed, reading, rfl, hpast, hnanos, by dsimp only; omega⟩

/-- A sleep is in its bounds. -/
theorem sleepFits (h : Tried t m mode limit guarded start deadline r trials finish)
    (hfinish : finish = none) {nanos : Nat} {task : Task}
    (hact : (r.world.thread t).activity = .calling ⟨m, task, .sleeping nanos⟩) :
    SleepFits deadline trials nanos := by
  cases h with
  | going _ _ hact' hsleep =>
    cases hact.symm.trans hact'
    exact hsleep nanos rfl
  | granted | expired | faulted => cases hfinish

/-- A call that has come to its end is not asleep. -/
theorem finish_eq_none (h : Tried t m mode limit guarded start deadline r trials finish)
    (ho : r.Orderly) {frame : Frame} (hact : (r.world.thread t).activity = .calling frame) :
    finish = none := by
  have hback : r.asked t ≠ none := by
    intro hnone
    have htidy := ho.tidy t
    rw [hnone] at htidy
    cases htidy with
    | idle hact' | gone hact' | ending hact' | departing hact' => cases hact.symm.trans hact'
  cases h with
  | going => rfl
  | granted _ hnone | expired _ hnone | faulted _ hnone => exact absurd hnone hback

end Tried

end Run

end ReaderWriter
