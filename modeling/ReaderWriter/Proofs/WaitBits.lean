import Mathlib.Data.Set.Card
import ReaderWriter.Proofs.Alone
import ReaderWriter.Proofs.Tallies
import ReaderWriter.Proofs.WriterPriority

/-!
# Wait bits are exact

A caller of a blocking lock announces its wait, and from then on it waits until its call comes back
with the lock. What is proved of the callers that stand in a wait is therefore a statement about
what has been seen of the lock: which calls have announced a wait and have not come back since.

* `Blocking.resume_announced`: nobody comes into a wait but by announcing it.
* `Run.waitsFor_iff_hasAnnounced`: a call stands in a wait iff it has announced one and goes on.
* `Tallies.encard_eq`: a count is the number of those who are counted.
* `blocking_waitBits_exact`: the wait bits and the counts say which calls have announced a wait, and
  while there is one nobody gets the unique lock without waiting.
-/

namespace ReaderWriter

/-! ## What is seen of a wait -/

/-- The point at which a call for this mode is seen about to wait. -/
def Blocking.waitPoint : Mode → Location
  | .unique => .uniqueWait
  | .shared => .sharedWait

namespace Run

variable {r : Run} {events : List Event} {e : Event} {t : ThreadId} {m : Nat} {mode : Mode}

/-- The thread is seen about to wait for the lock at an index in this mode. -/
def IsSeenToWait (r : Run) (t : ThreadId) (m : Nat) (mode : Mode) : Prop :=
  ∃ pc : Blocking.Pc, r.place m t = some (.blocking pc) ∧
    pc.place = .location (Blocking.waitPoint mode)

/-- In the course of the events a call of the thread has been seen about to wait for the lock at an
index in this mode, and it has not come back since. -/
def HasAnnounced (r : Run) (events : List Event) (t : ThreadId) (m : Nat) (mode : Mode) : Prop :=
  ∃ before after, events = before ++ after ∧ (r.play before).IsSeenToWait t m mode ∧
    ∀ more, more <+: after → (r.play (before ++ more)).asked t ≠ none

theorem isSeenToWait_iff :
    r.IsSeenToWait t m mode ↔
      ∃ backoff, r.place m t = some (.blocking (.waiting mode .announced backoff)) := by
  constructor
  · rintro ⟨pc, hplace, hseen⟩
    cases pc with
    | waiting mode' stage backoff =>
      cases mode <;> cases mode' <;>
        obtain ⟨rfl, ⟨⟩⟩ | ⟨-, ⟨⟩⟩ | ⟨-, ⟨⟩⟩ | ⟨-, ⟨⟩⟩ := Wait.Stage.place_eq_location hseen <;>
        exact ⟨backoff, hplace⟩
    | contended mode' | notifying mode' => cases mode <;> cases mode' <;> cases hseen
    | entering | notified | retrying | yielding => cases mode <;> cases hseen
  · rintro ⟨backoff, hplace⟩
    exact ⟨_, hplace, by cases mode <;> rfl⟩

theorem IsSeenToWait.waitsFor (h : r.IsSeenToWait t m mode) : r.WaitsFor t m mode := by
  obtain ⟨backoff, hplace⟩ := isSeenToWait_iff.mp h
  exact ⟨.announced, backoff, hplace⟩

/-- With one more event a call has announced its wait iff it does so now, or has done so before and
goes on. -/
theorem hasAnnounced_concat :
    r.HasAnnounced (events ++ [e]) t m mode ↔
      (r.play (events ++ [e])).asked t ≠ none ∧
        ((r.play (events ++ [e])).IsSeenToWait t m mode ∨ r.HasAnnounced events t m mode) := by
  constructor
  · rintro ⟨before, after, heq, hseen, hasked⟩
    refine ⟨by rw [heq]; exact hasked after (List.prefix_refl _), ?_⟩
    rcases List.eq_nil_or_concat after with rfl | ⟨after', e', rfl⟩
    · rw [List.append_nil] at heq
      rw [heq]
      exact .inl hseen
    · rw [List.concat_eq_append, ← List.append_assoc] at heq
      obtain ⟨rfl, -⟩ := List.append_inj' heq rfl
      refine .inr ⟨before, after', rfl, hseen, fun more hmore => hasked more ?_⟩
      rw [List.concat_eq_append]
      exact hmore.trans (List.prefix_append _ _)
  · rintro ⟨hasked, hseen | ⟨before, after, rfl, hseen, hasked'⟩⟩
    · refine ⟨events ++ [e], [], by simp, hseen, fun more hmore => ?_⟩
      rw [List.prefix_nil.mp hmore, List.append_nil]
      exact hasked
    · refine ⟨before, after ++ [e], by simp, hseen, fun more hmore => ?_⟩
      rcases List.prefix_concat_iff.mp hmore with rfl | hmore
      · rw [← List.append_assoc]
        exact hasked
      · exact hasked' more hmore

end Run

/-! ## Who stands in a wait -/

namespace Blocking

/-- Who has looked at the word and stays has announced a wait. -/
theorem Attempted.announced_of_here {mode : Mode} {backoff : Backoff} {s : State}
    {turn : Turn State Pc} (h : Attempted mode backoff s turn) {mode' : Mode} {stage : Wait.Stage}
    {backoff' : Backoff} (hplace : turn.stand.place? = some (.waiting mode' stage backoff')) :
    stage = .announced := by
  cases h with
  | granted | faulted => cases hplace
  | announced =>
    cases hplace
    rfl

/-- Whoever comes into a wait announces it. -/
theorem resume_announced {t : ThreadId} {pc : Pc} {s : State} {mode : Mode} {stage : Wait.Stage}
    {backoff : Backoff} (hout : pc.waits? ≠ some mode)
    (h : (resume t pc s).stand.place? = some (.waiting mode stage backoff)) :
    stage = .announced := by
  have hnotifies : pc.notifies = true → stage = .announced := by
    intro hnotifies
    rcases (resume_notifies (t := t) (s := s) hnotifies).2.2 with ⟨pc', hpc', hnotifies'⟩ | ⟨hn, -⟩
    · cases h.symm.trans hpc'
      cases hnotifies'
    · cases h.symm.trans hn
  cases pc with
  | contended mode' | entering mode' =>
    change (enter t mode' s).stand.place? = _ at h
    rcases enter_cases t mode' s with heq | ⟨-, heq⟩ <;> rw [heq] at h
    · cases h
    · exact (attempt_attempted mode' _ _).announced_of_here h
  | waiting mode' stage' backoff' =>
    by_cases hstage : stage' = .woken
    · subst hstage
      exact (attempt_attempted mode' backoff' s).announced_of_here h
    · obtain ⟨w, -, heq⟩ := resume_waiting t mode' backoff' s hstage
      rw [heq] at h
      cases h
      exact absurd rfl hout
  | notifying | notified | retrying | yielding => exact hnotifies rfl

/-- The unique lock is granted at once only if the word is idle. -/
theorem start_idle {op : Operation} {s : State}
    (h : Hold.granted? op (start op s).stand = some .unique) : s.word = .idle := by
  rcases op with (_ | _) | (_ | _) | mode
  · simp only [start] at h
    split at h
    · next hidle => exact hidle
    · cases h
  · simp only [start] at h
    split at h
    · cases h
    · split at h <;> cases h
  · simp only [start] at h
    split at h
    · next hidle => exact hidle
    · cases h
  · simp only [start] at h
    split at h
    · cases h
    · split at h <;> cases h
  · rw [Hold.granted?_release] at h
    cases h

end Blocking

namespace Run

variable {r r' : Run} {events : List Event} {e : Event} {t : ThreadId} {m : Nat} {mode : Mode}

/-- A job that leads into a wait announces it. -/
theorem isSeenToWait_of_operates {l : Lock} {job : Job} {op : Operation}
    (h : Operates r e r' t m l job op) (hout : ¬ r.WaitsFor t m mode)
    (hwaits : r'.WaitsFor t m mode) : r'.IsSeenToWait t m mode := by
  obtain ⟨stage, backoff, hplace⟩ := hwaits
  have hends := World.work_serves t h.lock h.suits h.serves
  have hstand := h.place_self'.symm.trans hplace
  obtain ⟨s, hs⟩ : ∃ s, l.body = .blocking s := by
    generalize (r.world.work t m job).stand = stand at hends hstand
    cases stand with
    | here p =>
      cases hstand
      exact Blocking.machine_is.exists_body l.body hends.1.symm
    | done | fault => cases hstand
  rw [h.place_blocking hs] at hplace
  obtain ⟨pc', hturn, heq⟩ := Option.map_eq_some_iff.mp hplace
  cases heq
  refine isSeenToWait_iff.mpr ⟨backoff, ?_⟩
  suffices hstage : stage = .announced by
    rw [h.place_blocking hs, hturn, hstage]
    rfl
  cases job with
  | start op' => cases Blocking.start_not_waits hturn
  | resume p =>
    cases p with
    | blocking pc =>
      refine Blocking.resume_announced (fun hin => hout ?_) hturn
      cases pc with
      | waiting mode' stage' backoff' =>
        cases hin
        exact ⟨stage', backoff', h.place_self⟩
      | contended | entering | notifying | notified | retrying | yielding => cases hin
    | polling | readMostly => cases hturn
  | depart f => exact h.serves.elim

/-- Who comes into a wait is seen to announce it. -/
theorem isSeenToWait_of_move (hmove : Move r e r') (hout : ¬ r.WaitsFor t m mode)
    (hwaits : r'.WaitsFor t m mode) : r'.IsSeenToWait t m mode := by
  have hsame : r'.place m t = r.place m t → r'.IsSeenToWait t m mode := by
    intro heq
    obtain ⟨stage, backoff, hplace⟩ := hwaits
    exact absurd ⟨stage, backoff, heq.symm.trans hplace⟩ hout
  cases hmove with
  | @operate u n l job op h =>
    by_cases hn : m = n
    · subst hn
      by_cases hu : t = u
      · subst hu
        exact isSeenToWait_of_operates h hout hwaits
      · exact hsame (h.place_of_ne hu)
    · exact hsame (h.place_of_ne_lock hn t)
  | @depart u n l job h =>
    by_cases hn : m = n
    · subst hn
      by_cases hu : t = u
      · subst hu
        obtain ⟨stage, backoff, hplace⟩ := hwaits
        rw [h.place_self'] at hplace
        rcases (World.work_departs t h.lock h.suits h.departs).2 with ⟨pc, -, hs⟩ | ⟨answer, hs⟩ <;>
          rw [hs] at hplace <;> cases hplace
      · exact hsame (h.place_of_ne hu)
    · exact hsame (h.place_of_ne_lock hn t)
  | @shift u h =>
    by_cases hu : t = u
    · subst hu
      obtain ⟨stage, backoff, hplace⟩ := hwaits
      simp [place, h.stint'] at hplace
    · exact hsame (place_congr (h.others t hu))
  | drop h => exact hsame (place_congr (h.threads t))
  | wake h => exact hsame (place_congr (h.threads t))
  | make h => exact hsame (place_congr (h.threads t))
  | rest h => exact hsame (place_congr (h.threads t))

/-- Whatever happens, who comes into a wait is seen to announce it. -/
theorem isSeenToWait_after (ho : r.Orderly) (hp : r.world.Permits e)
    (hout : ¬ r.WaitsFor t m mode) (hwaits : (r.after e).WaitsFor t m mode) :
    (r.after e).IsSeenToWait t m mode := by
  obtain ⟨r₁, hmove, hthreads, -⟩ := exists_move_after ho hp
  rw [WaitsFor, place_congr (hthreads t)] at hwaits
  rw [IsSeenToWait, place_congr (hthreads t)]
  exact isSeenToWait_of_move hmove hout hwaits

/-- Before anything has happened nobody has announced a wait. -/
theorem not_hasAnnounced_nil {host : Host} : ¬ (initial host).HasAnnounced [] t m mode := by
  rintro ⟨before, after, heq, -, hasked⟩
  obtain ⟨rfl, rfl⟩ := List.append_eq_nil_iff.mp heq.symm
  exact hasked [] (List.prefix_refl _) rfl

theorem waits?_crowd_iff {s : Blocking.State} :
    ((r.crowd Blocking.machine m s).place t).bind Blocking.Pc.waits? = some mode ↔
      r.WaitsFor t m mode := by
  constructor
  · intro hwaits
    obtain ⟨pc, hplace, hmode⟩ := Option.bind_eq_some_iff.mp hwaits
    obtain ⟨p, hp, hpc⟩ := Option.bind_eq_some_iff.mp hplace
    cases p with
    | blocking pc' =>
      cases hpc
      cases pc with
      | waiting mode' stage backoff =>
        cases hmode
        exact ⟨stage, backoff, hp⟩
      | contended | entering | notifying | notified | retrying | yielding => cases hmode
    | polling | readMostly => cases hpc
  · rintro ⟨stage, backoff, hplace⟩
    simp only [crowd, hplace]
    rfl

/-! ## Who does not wait -/

/-- An attempt at the unique lock is refused unless the word is idle. -/
theorem Orderly.tryAcquire_refused {l : Lock} {s : Blocking.State} (ho : r.Orderly)
    (hl : r.world.locks[m]? = some l) (hs : l.body = .blocking s) (hbusy : s.word ≠ .idle)
    (hp : r.world.Permits (.call t m (.operate (.tryAcquire .unique)))) :
    (r.world.meet (.call t m (.operate (.tryAcquire .unique)))).finish =
      some (.replied (.truth false)) := by
  obtain ⟨l', -, -, hfinish⟩ := (Bound.begins hp.1).operates ho hp
  rw [hfinish, (Blocking.machine_is.start r.world t m l s _ hl hs).2]
  have hstart :
      (Blocking.machine.start (.tryAcquire .unique) s).stand = .done (.granted false) := by
    simp only [Blocking.machine, Blocking.start, if_neg hbusy]
  rw [hstart]
  rfl

/-- Unless the word is idle, the unique lock is only granted to those who are in an operation on the
lock. -/
theorem Orderly.count_unique_after {l : Lock} {s : Blocking.State} (ho : r.Orderly)
    (hl : r.world.locks[m]? = some l) (hs : l.body = .blocking s) (hbusy : s.word ≠ .idle)
    (hp : r.world.Permits e) (hout : r.place m t = none) :
    (r.after e).holds.count ⟨t, m, .unique⟩ ≤ r.holds.count ⟨t, m, .unique⟩ := by
  obtain ⟨r₁, hmove, -, -, hholds⟩ := exists_move_after ho hp
  rw [hholds]
  refine count_hold_le_of_move hmove fun {l' job op} hop hgranted => ?_
  cases hl.symm.trans hop.lock
  cases job with
  | start op' =>
    have hserves : op' = op := hop.serves
    subst hserves
    rw [(Blocking.machine_is.start r.world t m l s op' hl hs).2, Hold.granted?_lift] at hgranted
    exact hbusy (Blocking.start_idle hgranted)
  | resume p => cases hout.symm.trans hop.place_self
  | depart f => exact hop.serves.elim

end Run

/-- The word of a blocking lock counts its readers, so there is room for one more as long as fewer
hold the lock than it can count. -/
theorem Reachable.holders_lt {ok : Run → Event → Prop} {r : Run} {m : Nat} {l : Lock}
    {s : Blocking.State} (h : Reachable ok r) (hok : ∀ r e, ok r e → r.ReleasesHeld m e)
    (hl : r.world.locks[m]? = some l) (hs : l.body = .blocking s)
    (hroom : r.count m .shared < maxSharedHolders.toNat) :
    s.word.fields.holders < maxSharedHolders.toNat := by
  have hcrowd : Blocking.machine.Reachable (fun _ => True) (r.crowd Blocking.machine m s) :=
    h.crowd Blocking.machine_is (fun r e he => ⟨hok r e he, fun _ _ _ _ => trivial⟩) l s hl hs
  exact (hcrowd.counts Blocking.machine_countsHolders).shared.symm.trans_lt hroom

/-- The lock at an index is given up only while it is held, and can count one more shared holder. -/
def Run.KeepsCount (m : Nat) (r : Run) (e : Event) : Prop := r.ReleasesHeld m e ∧ r.HasRoom m e

instance (m : Nat) (r : Run) (e : Event) : Decidable (r.KeepsCount m e) :=
  inferInstanceAs (Decidable (_ ∧ _))

/-- A call waits on a blocking lock iff it has announced that and has not come back since. -/
theorem Run.Plays.waitsFor_iff {host : Host} {m : Nat} {events : List Event}
    (h : (Run.initial host).Plays (Run.KeepsCount m) events) (t : ThreadId) (mode : Mode) :
    (Run.play (.initial host) events).WaitsFor t m mode ↔
      Run.HasAnnounced (.initial host) events t m mode := by
  refine h.induction (P := fun events => (Run.play (.initial host) events).WaitsFor t m mode ↔
    Run.HasAnnounced (.initial host) events t m mode) ?_ ?_
  · refine iff_of_false ?_ Run.not_hasAnnounced_nil
    rintro ⟨stage, backoff, hplace⟩
    cases hplace
  · intro events e hplays hp hok ih
    have hreach : Reachable (Run.KeepsCount m) (Run.play (.initial host) events) :=
      Reachable.start.play hplays
    have ho := hreach.orderly
    have ho' := (Run.after_moves ho hp).2
    rw [Run.hasAnnounced_concat, Run.play_concat, ← ih]
    constructor
    · intro hwaits
      refine ⟨hwaits.asked_ne_none ho', ?_⟩
      by_cases hbefore : (Run.play (.initial host) events).WaitsFor t m mode
      · exact .inr hbefore
      · exact .inl (Run.isSeenToWait_after ho hp hbefore hwaits)
    · rintro ⟨hasked, hseen | hbefore⟩
      · exact hseen.waitsFor
      · obtain ⟨stage, backoff, hplace⟩ := id hbefore
        obtain ⟨l, hl, halg⟩ := ho.exists_lock_of_place hplace
        obtain ⟨s, hs⟩ := Blocking.machine_is.exists_body l.body halg.symm
        have hroom := hreach.holders_lt (fun _ _ hok => hok.1) hl hs hok.2
        exact (ho.waitsFor_after hp hl hs (fun _ => hroom) hbefore).resolve_right
          fun hback => hasked hback.1

/-! ## Counts -/

/-- A count is the number of those who are counted. -/
theorem Tallies.encard_eq {n : Nat} {inside : ThreadId → Prop} (h : Tallies n inside) :
    {t | inside t}.encard = n := by
  obtain ⟨threads, hnodup, hmem, hlength⟩ := h
  have heq : {t | inside t} = (threads.toFinset : Set ThreadId) := by
    ext t
    simp [hmem t]
  rw [heq, Set.encard_coe_eq_coe_finsetCard, List.toFinset_card_of_nodup hnodup, hlength]

/-- Each group of a blocking lock says who waits in it. -/
theorem Reachable.tellsGroup {m : Nat} {r : Run} {l : Lock} {s : Blocking.State}
    (h : Reachable (Run.KeepsCount m) r) (hl : r.world.locks[m]? = some l)
    (hs : l.body = .blocking s) (mode : Mode) :
    (s.word.fields.waits mode = true ↔ ∃ t, r.WaitsFor t m mode) ∧
      Tallies (s.group mode).pending fun t => r.WaitsFor t m mode := by
  have hcrowd : Blocking.machine.Reachable (fun c => c.held .shared < maxSharedHolders.toNat)
      (r.crowd Blocking.machine m s) :=
    h.crowd Blocking.machine_is (fun _ _ hok => ⟨hok.1, fun _ _ _ _ => hok.2⟩) l s hl hs
  have htells : Blocking.TellsGroup mode (r.crowd Blocking.machine m s) :=
    Blocking.reachable_tellsGroup (fun _ hroom _ => hroom) hcrowd
  have hpending : Tallies (s.group mode).pending fun t => r.WaitsFor t m mode := by
    have hcounted : Tallies (s.group mode).pending fun t =>
        ((r.crowd Blocking.machine m s).place t).bind Blocking.Pc.waits? = some mode :=
      htells.pending
    simpa only [Run.waits?_crowd_iff] using hcounted
  refine ⟨?_, hpending⟩
  rw [show s.word.fields.waits mode = decide ((s.group mode).pending ≠ 0) from htells.bit,
    decide_eq_true_eq, Ne, hpending.zero_iff]
  exact not_forall_not

/-! ## The main result -/

/-- In every run in which a blocking lock is only given up while it is held, and can count its
shared holders:

* the unique-wait bit is set iff some call for the unique lock has announced its wait and has not
  come back, and the shared-wait bit is set iff some call for a shared lock has done so;
* the count of each group is the number of these calls. They are the calls between entering the
  group's mutex and leaving it, since a caller enters it and announces its wait, or leaves again,
  without interruption;
* while there is such a call, an attempt at the unique lock is refused, and whatever happens next
  grants the unique lock to nobody who was not in an operation on the lock before. -/
theorem blocking_waitBits_exact {host : Host} {m : Nat} {events : List Event} {l : Lock}
    {s : Blocking.State} (h : (Run.initial host).Plays (Run.KeepsCount m) events)
    (hl : (Run.play (.initial host) events).world.locks[m]? = some l) (hs : l.body = .blocking s) :
    (s.word.uniqueWanted = true ↔ ∃ t, Run.HasAnnounced (.initial host) events t m .unique) ∧
      (s.word.sharedWaiting = true ↔ ∃ t, Run.HasAnnounced (.initial host) events t m .shared) ∧
      (∀ mode, {t | Run.HasAnnounced (.initial host) events t m mode}.encard =
        (s.group mode).pending) ∧
      ((∃ t mode, Run.HasAnnounced (.initial host) events t m mode) →
        (∀ t, (Run.play (.initial host) events).world.Permits
            (.call t m (.operate (.tryAcquire .unique))) →
          ((Run.play (.initial host) events).world.meet
            (.call t m (.operate (.tryAcquire .unique)))).finish =
            some (.replied (.truth false))) ∧
        ∀ t e, (Run.play (.initial host) events).world.Permits e →
          (Run.play (.initial host) events).place m t = none →
          ((Run.play (.initial host) events).after e).holds.count ⟨t, m, .unique⟩ ≤
            (Run.play (.initial host) events).holds.count ⟨t, m, .unique⟩) := by
  have hreach : Reachable (Run.KeepsCount m) (Run.play (.initial host) events) :=
    Reachable.start.play h
  have hgroup := hreach.tellsGroup hl hs
  simp only [h.waitsFor_iff] at hgroup
  refine ⟨(hgroup .unique).1, (hgroup .shared).1, fun mode => (hgroup mode).2.encard_eq, ?_⟩
  rintro ⟨t, mode, hannounced⟩
  have hbusy : s.word ≠ .idle := by
    intro hidle
    have hbit := (hgroup mode).1.mpr ⟨t, hannounced⟩
    rw [hidle, Word.waits_idle] at hbit
    cases hbit
  exact ⟨fun u hp => hreach.orderly.tryAcquire_refused hl hs hbusy hp,
    fun u e hp hout => hreach.orderly.count_unique_after hl hs hbusy hp hout⟩

/-- A reader has a blocking lock, a writer has announced its wait, and behind it another reader. -/
def waitingEvents : List Event :=
  [.make ⟨.blocking, false, false⟩ .lowLatency, .call 0 0 (.operate (.acquire .shared)),
    .call 1 0 (.operate (.acquire .unique)), .turn 1, .call 2 0 (.operate (.acquire .shared)),
    .turn 2]

/-- Both bits are set, one caller is counted in each group, and a try is refused. -/
theorem blocking_waitBits_exact_behind_reader :
    ∃ l s, (Run.play (.initial {}) waitingEvents).world.locks[0]? = some l ∧ l.body = .blocking s ∧
      s.word.uniqueWanted = true ∧ s.word.sharedWaiting = true ∧
      (∀ mode, {t | Run.HasAnnounced (.initial {}) waitingEvents t 0 mode}.encard = 1) ∧
      ((Run.play (.initial {}) waitingEvents).world.meet
        (.call 3 0 (.operate (.tryAcquire .unique)))).finish = some (.replied (.truth false)) := by
  have hplays : (Run.initial {}).Plays (Run.KeepsCount 0) waitingEvents := by decide +kernel
  have hbody : (Run.play (.initial {}) waitingEvents).world.locks[0]?.map (·.body) =
      some (.blocking
        { config := .lowLatency
          word := ⟨0xD⟩
          readers := ⟨some 2, 1, {}⟩
          writers := ⟨some 1, 1, {}⟩ }) := by
    decide +kernel
  obtain ⟨l, hl, hs⟩ := Option.map_eq_some_iff.mp hbody
  have hexact := blocking_waitBits_exact hplays hl hs
  have hannounced : Run.HasAnnounced (.initial {}) waitingEvents 1 0 .unique := by
    rw [← hplays.waitsFor_iff]
    exact ⟨.announced, .ofConfig .lowLatency, by decide +kernel⟩
  refine ⟨l, _, hl, hs, hexact.1.mpr ⟨1, hannounced⟩, by decide +kernel, fun mode => ?_,
    (hexact.2.2.2 ⟨1, .unique, hannounced⟩).1 3 (by decide +kernel)⟩
  rw [hexact.2.2.1 mode]
  cases mode <;> rfl

end ReaderWriter
