import ReaderWriter.Proofs.FullGroups
import ReaderWriter.Proofs.Neighbours
import ReaderWriter.Proofs.UnheldReleases

/-!
# Full locks

A control word can count so many shared holders and no more, and a reader that would be one too many
comes to a fault. On a blocking lock it does so before it has touched anything, or in the slow path,
where it is counted in the readers' group. In the second case the group counts it for ever, and
never clears the wait bit again.

* `Run.Plays.overcounts`: the readers' group counts the readers that wait and those that have gone.
* `Reachable.leavesFull`: what a reader that finds the lock full leaves behind.
* `fullLock_accounts`: what is true of a blocking lock in every run, full or not.
* `full_lock_is_never_idle_again`: a lock on which this has happened to a waiting reader.
-/

namespace ReaderWriter

/-! ## Who is counted -/

/-- The word of a blocking lock counts its holders, whatever the callers do. -/
theorem Reachable.blocking_counts {ok : Run → Event → Prop} {r : Run} {m : Nat} {l : Lock}
    {s : Blocking.State} (h : Reachable ok r) (hl : r.world.locks[m]? = some l)
    (hs : l.body = .blocking s) : s.word.Counts (r.count m) :=
  (h.crowd_anyway Blocking.machine_is Blocking.machine_countsHolders
    Blocking.machine_refusesReleases l s hl hs).counts Blocking.machine_countsHolders

namespace Run

variable {r r' : Run} {e : Event} {t : ThreadId} {m n : Nat} {l : Lock} {s : Blocking.State}

/-- The readers' group of the lock at an index counts so many readers too many, if that is a
blocking lock. -/
structure Overcounts (r : Run) (m n : Nat) : Prop where
  missing : r.world.locks[m]? = none → n = 0
  counts : ∀ l s, r.world.locks[m]? = some l → l.body = .blocking s →
    Blocking.Overcounts n s (r.blockingPc? m)

/-- The readers' group of a lock that has just been made counts nobody. -/
theorem overcounts_of_missing (ho : r.Orderly) (hexist : r.HoldsExist) (hp : r.world.Permits e)
    (hmissing : r.world.locks[m]? = none) (hl : (r.after e).world.locks[m]? = some l)
    (hs : l.body = .blocking s) : Blocking.Overcounts 0 s ((r.after e).blockingPc? m) := by
  have hnew : ∀ {host config}, (r.after e).crowd Blocking.machine m s =
      Blocking.machine.newCrowd host config →
      Blocking.Overcounts 0 s ((r.after e).blockingPc? m) := by
    intro host config heq
    have htells := Blocking.tellsGroup_newCrowd .shared host config
    rw [← heq] at htells
    have htellsBit : s.TellsBit .shared := htells.bit
    exact ⟨htells.gate, htells.pending, htellsBit.owes (Nat.zero_le _)⟩
  have hmakes : ∀ {r₁ l₁}, Move r e r₁ → r₁.world.locks[m]? = some l₁ → l₁.body = .blocking s →
      ∃ host config, r₁.crowd Blocking.machine m s = Blocking.machine.newCrowd host config := by
    intro r₁ l₁ hmove hl₁ hs₁
    cases crowd_of_move_of Blocking.machine_is ho hexist hmove hl₁ hs₁
      (fun h => nomatch hmissing.symm.trans h.lock) with
    | keeps hl | steps hl => cases hmissing.symm.trans hl
    | begins host config _ heq => exact ⟨host, config, heq⟩
  obtain ⟨⟨r₁, hmove, ⟨heq, -⟩ | ⟨k, -, hdis⟩⟩, -⟩ := after_moves ho hp
  · rw [heq] at hl hnew
    obtain ⟨host, config, hcrowd⟩ := hmakes hmove hl hs
    rw [heq]
    exact hnew hcrowd
  · obtain ⟨hl₁, hsame⟩ := crowd_of_dissolves Blocking.machine_is hdis hl hs
    obtain ⟨host, config, hcrowd⟩ := hmakes hmove hl₁ hs
    exact hnew (hsame.trans hcrowd)

/-- An event adds a reader that has gone if it finds the lock full in the slow path. -/
theorem Overcounts.after (h : r.Overcounts m n) (ho : r.Orderly) (hexist : r.HoldsExist)
    (hp : r.world.Permits e) : (r.after e).Overcounts m (n + (r.turnsAway m e).toNat) := by
  cases hlock : r.world.locks[m]? with
  | none =>
    have haway : r.turnsAway m e = false := by
      cases e with
      | turn t =>
        rw [turnsAway, blockingPc?, not_place_of_missing ho hlock]
        rfl
      | call | exit | wake | advance | make => rfl
    obtain rfl := h.missing hlock
    rw [haway]
    exact ⟨fun _ => rfl, fun l s hl hs => overcounts_of_missing ho hexist hp hlock hl hs⟩
  | some l =>
    obtain ⟨l', hl', halg⟩ := algorithm_after ho hp hlock
    refine ⟨fun hnone => (by cases hnone.symm.trans hl'), fun l'' s'' hl'' hs'' => ?_⟩
    cases hl'.symm.trans hl''
    rw [hs''] at halg
    obtain ⟨s, hs⟩ := Blocking.machine_is.exists_body l.body halg.symm
    obtain ⟨l₁, s₁, hl₁, hs₁, hhappens⟩ := ho.happens hp hlock hs
    cases hl'.symm.trans hl₁
    cases hs''.symm.trans hs₁
    exact ((h.counts l s hlock hs).happens hhappens).1

/-- The readers' group of a blocking lock counts the readers that wait and those that have found the
lock full in the slow path. -/
theorem Plays.overcounts {ok : Run → Event → Prop} {host : Host} {events : List Event}
    (h : (initial host).Plays ok events) (m : Nat) :
    (play (.initial host) events).Overcounts m ((initial host).tally (turnsAway m) events) := by
  refine h.induction (P := fun events =>
    (play (.initial host) events).Overcounts m ((initial host).tally (turnsAway m) events)) ?_ ?_
  · exact ⟨fun _ => rfl, fun l s hl => nomatch hl⟩
  · intro events e hplays hp _ ih
    have hreach := Reachable.start.play hplays
    rw [tally_concat, play_concat]
    exact ih.after hreach.orderly hreach.holdsExist hp

/-- The wait bit of the readers on a blocking lock is set, and one of them at least has gone without
having been taken off the count of their group. -/
def IsHaunted (r : Run) (m : Nat) : Prop :=
  ∃ n l s, 0 < n ∧ r.Overcounts m n ∧ r.world.locks[m]? = some l ∧ l.body = .blocking s ∧
    s.word.sharedWaiting = true

theorem IsHaunted.after (h : r.IsHaunted m) (ho : r.Orderly) (hexist : r.HoldsExist)
    (hp : r.world.Permits e) : (r.after e).IsHaunted m := by
  obtain ⟨n, l, s, hpos, hover, hl, hs, hbit⟩ := h
  obtain ⟨l', s', hl', hs', hhappens⟩ := ho.happens hp hl hs
  exact ⟨_, l', s', Nat.lt_of_lt_of_le hpos (Nat.le_add_right _ _), hover.after ho hexist hp, hl',
    hs', ((hover.counts l s hl hs).happens hhappens).2 hpos hbit⟩

theorem IsHaunted.refuses (h : r.IsHaunted m) (ho : r.Orderly)
    (hp : r.world.Permits (.call t m (.operate (.tryAcquire .unique)))) :
    (r.world.meet (.call t m (.operate (.tryAcquire .unique)))).finish =
      some (.replied (.truth false)) := by
  obtain ⟨-, l, s, -, -, hl, hs, hbit⟩ := h
  refine ho.tryAcquire_refused hl hs ?_ hp
  intro hidle
  rw [hidle] at hbit
  cases hbit

/-- Between the runs a call of a thread on the blocking lock at an index has found the lock full. -/
structure LeavesFull (r r' : Run) (t : ThreadId) (m : Nat) (l : Lock) (s : Blocking.State) :
    Prop where
  /-- As many shared locks are held as the word can count. -/
  full : r.count m .shared = maxSharedHolders.toNat
  holds : r'.holds = r.holds
  /-- The call has touched nothing, unless it is in the slow path. -/
  outside : r.place m t = none → r.Untouched r' t
  /-- In the slow path it gives the mutex of the group up, and changes nothing else of the lock but
  that it is counted in the group, if it was not before. -/
  inside : r.place m t ≠ none →
    ∃ k, r'.world.locks = r.world.locks.set m { l with body := .blocking (s.left k) } ∧
      (r.WaitsFor t m .shared → k = s.readers.pending) ∧
      (¬ r.WaitsFor t m .shared → k = s.readers.pending + 1)

end Run

/-- A reader that is turned away from a full lock goes. In the slow path it leaves itself on the
count of its group. -/
theorem Reachable.leavesFull {ok : Run → Event → Prop} {r : Run} {e : Event} {m : Nat} {l : Lock}
    {s : Blocking.State} (h : Reachable ok r) (hp : r.world.Permits e) (hworks : r.WorksOn m e)
    (hl : r.world.locks[m]? = some l) (hs : l.body = .blocking s)
    (hfinish : (r.world.meet e).finish = some (.faulted .holderOverflow)) :
    ∃ t, r.LeavesFull (r.after e) t m l s := by
  have ho := h.orderly
  obtain ⟨t, n, k, job, op, hop, hstand⟩ := ho.operates_of_faults hp hfinish
  obtain rfl := hop.lock_eq ho hworks
  cases hl.symm.trans hop.lock
  have hsuits := hop.suits
  rw [hs] at hsuits
  have hwork := World.work_blocking hl hs hsuits (t := t)
  have hfault : (job.onBlocking t s).stand = .fault .holderOverflow := by
    rw [hwork] at hstand
    exact Stand.isFull_iff.mp ((Stand.isFull_lift _ _).symm.trans (Stand.isFull_iff.mpr hstand))
  have hfull : maxSharedHolders.toNat ≤ s.word.fields.holders →
      r.count n .shared = maxSharedHolders.toNat := fun hle =>
    (h.blocking_counts hl hs).shared.trans (Nat.le_antisymm s.word.holders_le hle)
  have hholds : (r.after e).holds = Hold.begun r.holds t n job := by
    rw [hop.holds, hstand]
    rfl
  refine ⟨t, ?_⟩
  cases job with
  | start op' =>
    obtain ⟨hstate, hle⟩ := Blocking.start_full hfault
    refine ⟨hfull hle, hholds.trans ?_, fun _ => .of_word hop.toTurned (by rw [hs]; rintro ⟨⟩) ?_,
      fun hplace => absurd hop.place_self hplace⟩
    · cases op' with
      | release mode =>
        exact absurd (Stand.isFull_iff.mpr hfault)
          (Bool.eq_false_iff.mp (Blocking.release_not_full mode s))
      | acquire | tryAcquire => rfl
    · rw [hwork, Job.onBlocking, hstate, ← hs]
      exact List.getElem?_set_self (List.getElem?_eq_some_iff.mp hl).1
  | resume p =>
    obtain ⟨pc, rfl⟩ := Blocking.machine_is.exists_progress p hsuits
    obtain ⟨k, hstate, hin, hout, hle⟩ := Blocking.resume_full hfault
    have hwaits : r.WaitsFor t n .shared ↔ pc.waits? = some .shared := by
      rw [← Run.waits?_blockingPc?_iff, Run.blockingPc?, hop.place_self]
      rfl
    refine ⟨hfull hle, hholds, fun hplace => (by cases hplace.symm.trans hop.place_self),
      fun _ => ⟨k, ?_, fun h => hin (hwaits.mp h), fun h => hout (mt hwaits.mpr h)⟩⟩
    rw [hop.locks, hwork, ← hstate]
    rfl
  | depart f => exact hop.serves.elim

/-! ## The main result -/

/-- What is true of the blocking lock at an index on which so many readers have found the lock full
in the slow path. -/
structure Run.Accounts (r : Run) (m : Nat) (l : Lock) (s : Blocking.State) (n : Nat) : Prop where
  /-- The writers' group counts the writers that wait. -/
  writers : {t | r.WaitsFor t m .unique}.encard = s.writers.pending
  uniqueWanted : s.word.uniqueWanted = true ↔ ∃ t, r.WaitsFor t m .unique
  /-- The readers' group counts the readers that wait, and those that have gone. -/
  readers : {t | r.WaitsFor t m .shared}.encard + n = s.readers.pending
  waiting : ∀ t, r.WaitsFor t m .shared → s.word.sharedWaiting = true
  /-- The bit can be left from a reader that has gone. -/
  sharedWaiting : s.word.sharedWaiting = true → (∃ t, r.WaitsFor t m .shared) ∨ 0 < n
  /-- If none has gone, the lock is idle when it has been given up. -/
  idle : n = 0 → r.world.IsQuiet m → (∀ mode, r.count m mode = 0) → s.word = .idle
  /-- A reader finds the lock full only if as many shared locks are held as the word can count, and
  leaves them as they are. -/
  full : ∀ e, r.world.Permits e → r.WorksOn m e →
    (r.world.meet e).finish = some (.faulted .holderOverflow) →
      ∃ t, r.LeavesFull (r.after e) t m l s
  /-- A bit that is left is never cleared, so that no attempt at the unique lock succeeds again. -/
  haunted : 0 < n → s.word.sharedWaiting = true → ∀ (ok : Run → Event → Prop) (r' : Run)
    (t : ThreadId), r.Leads ok r' →
      r'.world.Permits (.call t m (.operate (.tryAcquire .unique))) →
        (r'.world.meet (.call t m (.operate (.tryAcquire .unique)))).finish =
          some (.replied (.truth false))

/-- The writers' group says who waits in it, whether the readers' group does or not. -/
theorem Reachable.tellsWriters {ok : Run → Event → Prop} {r : Run} {m : Nat} {l : Lock}
    {s : Blocking.State} (h : Reachable ok r) (hl : r.world.locks[m]? = some l)
    (hs : l.body = .blocking s) :
    Tallies s.writers.pending (fun t => r.WaitsFor t m .unique) ∧
      (s.word.uniqueWanted = true ↔ ∃ t, r.WaitsFor t m .unique) := by
  have hcrowd := h.crowd_anyway Blocking.machine_is Blocking.machine_countsHolders
    Blocking.machine_refusesReleases l s hl hs
  have htells : Blocking.TellsGroup .unique (r.crowd Blocking.machine m s) := by
    refine Blocking.reachable_tellsGroup (fun _ _ hmode => ?_) hcrowd
    cases hmode
  have hpending : Tallies s.writers.pending fun t => r.WaitsFor t m .unique := by
    have hcounted := htells.pending
    simp only [Run.waits?_crowd_iff] at hcounted
    exact hcounted
  refine ⟨hpending, ?_⟩
  rw [show s.word.uniqueWanted = decide (s.writers.pending ≠ 0) from htells.bit,
    decide_eq_true_eq, Ne, hpending.zero_iff]
  exact not_forall_not

theorem Run.IsHaunted.leads {ok ok' : Run → Event → Prop} {r r' : Run} {m : Nat}
    (h : r.IsHaunted m) (hreach : Reachable ok r) (hleads : r.Leads ok' r') : r'.IsHaunted m := by
  have hany : Reachable (fun _ _ => True) r := hreach.mono fun _ _ _ => trivial
  induction hleads with
  | refl => exact h
  | step hleads hp _ ih =>
    have hreach' := hany.leads hleads fun _ _ _ => trivial
    exact ih.after hreach'.orderly hreach'.holdsExist hp

/-- Whoever counts the readers that have gone can account for the lock. -/
theorem Run.Overcounts.accounts {ok : Run → Event → Prop} {r : Run} {m n : Nat} {l : Lock}
    {s : Blocking.State} (hover : r.Overcounts m n) (hreach : Reachable ok r)
    (hl : r.world.locks[m]? = some l) (hs : l.body = .blocking s) : r.Accounts m l s n := by
  have hcounts := hover.counts l s hl hs
  obtain ⟨hwriters, hwanted⟩ := hreach.tellsWriters hl hs
  have hpending : Tallies (s.readers.pending - n) fun t => r.WaitsFor t m .shared := by
    have hcounted := hcounts.pending
    simp only [Run.waits?_blockingPc?_iff] at hcounted
    exact hcounted
  have hle : n ≤ s.readers.pending := hcounts.owes.le
  have hbit : s.word.sharedWaiting = true → (∃ t, r.WaitsFor t m .shared) ∨ 0 < n := by
    intro hwaiting
    have hne : s.readers.pending ≠ 0 := hcounts.owes.counted hwaiting
    by_cases hwaits : ∃ t, r.WaitsFor t m .shared
    · exact .inl hwaits
    · have hzero := hpending.zero_iff.mpr (not_exists.mp hwaits)
      exact .inr (by omega)
  refine ⟨hwriters.encard_eq, hwanted, ?_, fun t hwaits => ?_, hbit, ?_,
    fun e hp hworks hfinish => hreach.leavesFull hp hworks hl hs hfinish, ?_⟩
  · rw [hpending.encard_eq, ← Nat.cast_add, Nat.sub_add_cancel hle]
  · by_contra hclear
    have hsilent : s.readers.pending = n := hcounts.owes.silent (Bool.eq_false_iff.mpr hclear)
    have hnone := hpending.zero_iff.mp (by omega)
    exact hnone t hwaits
  · rintro rfl hquiet hfree
    have hnobody : ∀ mode, ¬ ∃ t, r.WaitsFor t m mode := by
      rintro mode ⟨t, stage, backoff, hplace⟩
      rw [hreach.orderly.place_of_isQuiet hquiet t] at hplace
      cases hplace
    have hword := hreach.blocking_counts hl hs
    rw [Word.eq_idle_iff]
    have hlocked : s.word.uniqueLocked = false :=
      Bool.toNat_eq_zero.mp (hword.unique.symm.trans (hfree .unique))
    have hholders : s.word.fields.holders = 0 := hword.shared.symm.trans (hfree .shared)
    have hunwanted : s.word.uniqueWanted = false :=
      Bool.eq_false_iff.mpr fun hw => hnobody _ (hwanted.mp hw)
    have hunwaited : s.word.sharedWaiting = false :=
      Bool.eq_false_iff.mpr fun hw => (hbit hw).elim (hnobody _) (Nat.lt_irrefl 0)
    rw [Word.fields, hunwanted, hlocked, hunwaited, show s.word.sharedCount.toNat = 0 from hholders]
  · intro hpos hwaiting ok' r' t hleads hp
    have hhaunted : r.IsHaunted m := ⟨n, l, s, hpos, hover, hl, hs, hwaiting⟩
    have hreach' : Reachable (fun _ _ => True) r' :=
      (hreach.mono fun _ _ _ => trivial).leads hleads fun _ _ _ => trivial
    exact (hhaunted.leads hreach hleads).refuses hreach'.orderly hp

/-- In every run, whatever the callers of a blocking lock do, its word and its two groups are
accounted for. The readers' group counts the readers that wait and those that have found the lock
full in the slow path: they are no more, but have not been taken off the count. As long as there has
been none of them, each group counts those who wait in it, its bit says whether there are any, and a
lock that has been given up is idle. -/
theorem fullLock_accounts {ok : Run → Event → Prop} {host : Host} {m : Nat} {events : List Event}
    {l : Lock} {s : Blocking.State} (h : (Run.initial host).Plays ok events)
    (hl : (Run.play (.initial host) events).world.locks[m]? = some l) (hs : l.body = .blocking s) :
    (Run.play (.initial host) events).Accounts m l s
      ((Run.initial host).tally (Run.turnsAway m) events) :=
  (h.overcounts m).accounts (Reachable.start.play h) hl hs

/-- A reader waits for a blocking lock behind a writer, until the writer gives it up. -/
def overtakenEvents : List Event :=
  [.make ⟨.blocking, false, false⟩ .lowLatency, .call 1 0 (.operate (.tryAcquire .unique)),
    .call 2 0 (.operate (.acquire .shared)), .turn 2, .turn 2, .turn 2,
    .call 1 0 (.operate (.release .unique))]

theorem overtaken_body :
    ((Run.play (.initial {}) overtakenEvents).world.lock? 0).map (·.body) =
      some (.blocking
        { config := .lowLatency
          word := ⟨0x4⟩
          readers := ⟨some 2, 1, {}⟩
          writers := {} }) := by
  decide +kernel

/-- The reader is counted, and nobody else. -/
theorem fullLock_accounts_overtaken :
    {t | (Run.play (.initial {}) overtakenEvents).WaitsFor t 0 .shared}.encard = 1 ∧
      {t | (Run.play (.initial {}) overtakenEvents).WaitsFor t 0 .unique}.encard = 0 := by
  have hplays : (Run.initial {}).Plays (fun _ _ => True) overtakenEvents := by decide +kernel
  obtain ⟨l, hl, hs⟩ := Option.map_eq_some_iff.mp overtaken_body
  have haccounts := fullLock_accounts hplays ((World.lock?_eq_some _ _).mp hl).1 hs
  have hnone : (Run.initial {}).tally (Run.turnsAway 0) overtakenEvents = 0 := by decide +kernel
  have hreaders := haccounts.readers
  rw [hnone, Nat.cast_zero, add_zero] at hreaders
  exact ⟨hreaders, haccounts.writers⟩

/-! ## A lock that is never idle again -/

/-- A reader is let in while the word has room for it. -/
theorem Blocking.start_of_room {s : Blocking.State} (hopen : s.word.blocksShared = false)
    (hroom : s.word.fields.holders < maxSharedHolders.toNat) :
    ∃ w, Blocking.start (.tryAcquire .shared) s =
        { state := { s with word := w }, stand := .done (.granted true) } ∧
      w.fields = { s.word.fields with holders := s.word.fields.holders + 1 } := by
  obtain ⟨w, hw, hfields⟩ :=
    Word.withSharedAcquired_eq_ok (Word.uniqueLocked_of_open hopen) hroom
  refine ⟨w, ?_, hfields⟩
  simp only [Blocking.start, if_neg (Bool.eq_false_iff.mp hopen), hw]

/-- A reader that has woken is turned away if the word has no room for it. -/
theorem Blocking.resume_isFull {s : Blocking.State} {t : ThreadId} {backoff : Backoff}
    (hopen : s.word.blocksShared = false)
    (hfull : maxSharedHolders.toNat ≤ s.word.fields.holders) :
    (Blocking.resume t (.waiting .shared .woken backoff) s).stand.isFull = true := by
  have hfree : s.word.uniqueLocked = false := Word.uniqueLocked_of_open hopen
  have hcount : maxSharedHolders ≤ s.word.sharedCount := UInt32.le_iff_toNat_le.mpr hfull
  have herror : s.word.withSharedAcquired = .error .holderOverflow := by
    rw [Word.withSharedAcquired, if_neg (Bool.eq_false_iff.mp hfree), if_pos hcount]
  simp only [Blocking.resume, Blocking.attempt, Blocking.admits, hopen, Bool.not_false, if_true,
    Blocking.grantWaiter, Blocking.grant, herror]
  rfl

/-- Thread 2 has waited for the blocking lock at index 0 and is about to take it, and is the only
one. Meanwhile so many shared locks have been taken there. -/
structure Run.Overtaken (r : Run) (n : Nat) : Prop where
  orderly : r.Orderly
  idle : (r.world.thread 0).activity = .idle
  woken : ∃ backoff, r.place 0 2 = some (.blocking (.waiting .shared .woken backoff))
  lock : ∃ l s, r.world.lock? 0 = some l ∧ l.body = .blocking s ∧
    s.word.fields = ⟨false, false, true, n⟩ ∧ s.readers.pending = 1

/-- Thread 0 takes a shared lock. -/
def takesShared : Event := .call 0 0 (.operate (.tryAcquire .shared))

/-- As long as there is room, one more shared lock can be taken. -/
theorem Run.Overtaken.takes {r : Run} {n : Nat} (h : r.Overtaken n)
    (hroom : n < maxSharedHolders.toNat) :
    r.world.Permits takesShared ∧ (r.after takesShared).Overtaken (n + 1) := by
  obtain ⟨backoff, hplace⟩ := h.woken
  obtain ⟨l, s, hl, hs, hfields, hpending⟩ := h.lock
  have hbound : r.Bound 0 0 (.tryAcquire .shared) takesShared (.start (.tryAcquire .shared)) :=
    .begins h.idle
  have hp : r.world.Permits takesShared := hbound.permits (by rw [hl]; rfl) nofun
  obtain ⟨k, hop, ho', hfinish⟩ := hbound.operates h.orderly hp
  cases ((World.lock?_eq_some _ _).mp hl).1.symm.trans hop.lock
  have hopen : s.word.blocksShared = false := by
    rw [Word.blocksShared_eq, hfields]
    rfl
  obtain ⟨w, hstart, hw⟩ := Blocking.start_of_room hopen (by rw [hfields]; exact hroom)
  obtain ⟨hl', -⟩ := blocking_of_operates hop hs
  rw [Job.onBlocking, hstart] at hl'
  have hsuits : (Job.start (.tryAcquire .shared)).Suits .blocking := trivial
  rw [World.work_blocking hop.lock hs hsuits, Job.onBlocking, hstart] at hfinish
  refine ⟨hp, ho', hbound.idle h.orderly hp hfinish, ⟨backoff, ?_⟩, _, _,
    (World.lock?_eq_some _ _).mpr ⟨hl', hop.owned⟩, rfl, ?_, hpending⟩
  · exact (hop.place_of_ne (by decide)).trans hplace
  · rw [hw, hfields]

/-- Before the reader goes on, so many shared locks are taken. -/
def crowdedEvents (n : Nat) : List Event := overtakenEvents ++ List.replicate n takesShared

theorem overtaken_crowdedEvents {n : Nat} (hn : n ≤ maxSharedHolders.toNat) :
    (Run.initial {}).Plays (fun _ _ => True) (crowdedEvents n) ∧
      (Run.play (.initial {}) (crowdedEvents n)).Overtaken n ∧
      (Run.initial {}).tally (Run.turnsAway 0) (crowdedEvents n) = 0 := by
  induction n with
  | zero =>
    have hplays : (Run.initial {}).Plays (fun _ _ => True) overtakenEvents := by decide +kernel
    obtain ⟨l, hl, hs⟩ := Option.map_eq_some_iff.mp overtaken_body
    have hreach := Reachable.start.play hplays
    rw [crowdedEvents, List.replicate_zero, List.append_nil]
    refine ⟨hplays, ⟨hreach.orderly, by decide +kernel, ⟨(Backoff.ofConfig .lowLatency).next,
      by decide +kernel⟩, l, _, hl, hs, by decide +kernel, rfl⟩, by decide +kernel⟩
  | succ n ih =>
    obtain ⟨hplays, hovertaken, htally⟩ := ih (Nat.le_of_succ_le hn)
    obtain ⟨hp, hnext⟩ := hovertaken.takes hn
    rw [crowdedEvents, List.replicate_succ', ← List.append_assoc, Run.play_concat,
      Run.tally_concat, Run.plays_concat]
    exact ⟨⟨hplays, hp, trivial⟩, hnext, by rw [← crowdedEvents, htally]; rfl⟩

/-- If the lock is full then, the reader is turned away. It stays counted, and its wait bit set. -/
theorem Run.Overtaken.turnedAway {r : Run} (h : r.Overtaken maxSharedHolders.toNat) :
    r.world.Permits (.turn 2) ∧
      (r.world.meet (.turn 2)).finish = some (.faulted .holderOverflow) ∧
      r.turnsAway 0 (.turn 2) = true ∧
      ∃ l s, (r.after (.turn 2)).world.locks[0]? = some l ∧ l.body = .blocking s ∧
        s.word.sharedWaiting = true ∧ s.readers.pending = 1 := by
  obtain ⟨backoff, hplace⟩ := h.woken
  obtain ⟨l, s, hlock, hs, hfields, hpending⟩ := h.lock
  have hl := ((World.lock?_eq_some _ _).mp hlock).1
  have hp : r.world.Permits (.turn 2) := by
    change r.world.obstacle 2 = none
    rw [(h.orderly.isOn hplace).2]
    exact (Blocking.machine_is.resume r.world 2 0 l s _ hl hs).2.2
  obtain ⟨op, hop, hfinish⟩ := h.orderly.resumes_blocking hp hl hs hplace
  have hopen : s.word.blocksShared = false := by
    rw [Word.blocksShared_eq, hfields]
    rfl
  have hfull : (Blocking.resume 2 (.waiting .shared .woken backoff) s).stand.isFull = true :=
    Blocking.resume_isFull hopen (by rw [hfields])
  have hfaults := hfinish.mpr hfull
  obtain ⟨hl', -⟩ := blocking_of_operates hop hs
  obtain ⟨k, hstate, hin, -⟩ := Blocking.resume_full (Stand.isFull_iff.mp hfull)
  refine ⟨hp, hfaults, ?_, _, _, hl', rfl, ?_, ?_⟩
  · simp only [turnsAway, blockingPc?, hplace, hfaults]
    rfl
  · rw [Job.onBlocking, hstate]
    exact congrArg Fields.sharedWaiting hfields
  · rw [Job.onBlocking, hstate]
    exact (hin rfl).trans hpending

/-- As many shared locks are taken as the word can count. -/
def fullEvents : List Event := crowdedEvents maxSharedHolders.toNat

/-- A reader that has waited can find the lock full. When it has gone nobody waits for a shared
lock, but the readers' group counts one reader and its wait bit is set, and whatever happens next,
also when all the others have given the lock up, no attempt at the unique lock succeeds again. -/
theorem full_lock_is_never_idle_again :
    ∃ (l : Lock) (s : Blocking.State),
      (Run.initial {}).Plays (fun _ _ => True) (fullEvents ++ [.turn 2]) ∧
      (Run.play (.initial {}) fullEvents).count 0 .shared = maxSharedHolders.toNat ∧
      ((Run.play (.initial {}) fullEvents).world.meet (.turn 2)).finish =
        some (.faulted .holderOverflow) ∧
      (Run.play (.initial {}) (fullEvents ++ [.turn 2])).world.locks[0]? = some l ∧
      l.body = .blocking s ∧
      (∀ t, ¬ (Run.play (.initial {}) (fullEvents ++ [.turn 2])).WaitsFor t 0 .shared) ∧
      s.readers.pending = 1 ∧ s.word.sharedWaiting = true ∧
      ∀ (ok : Run → Event → Prop) (r : Run) (t : ThreadId),
        (Run.play (.initial {}) (fullEvents ++ [.turn 2])).Leads ok r →
          r.world.Permits (.call t 0 (.operate (.tryAcquire .unique))) →
            (r.world.meet (.call t 0 (.operate (.tryAcquire .unique)))).finish =
              some (.replied (.truth false)) := by
  obtain ⟨hplays, hovertaken, htally⟩ := overtaken_crowdedEvents (Nat.le_refl _)
  rw [← fullEvents] at hplays hovertaken htally
  -- From here on it does not matter how the lock has come to be full.
  generalize fullEvents = events at hplays hovertaken htally ⊢
  obtain ⟨hp, hfinish, haway, l', s', hl', hs', hbit, hpending⟩ := hovertaken.turnedAway
  obtain ⟨l, s, hlock, hs, -⟩ := hovertaken.lock
  obtain ⟨backoff, hplace⟩ := hovertaken.woken
  have hl := ((World.lock?_eq_some _ _).mp hlock).1
  have hworks := (hovertaken.orderly.isOn hplace).1
  have hplays' : (Run.initial {}).Plays (fun _ _ => True) (events ++ [.turn 2]) :=
    Run.plays_concat.mpr ⟨hplays, hp, trivial⟩
  obtain ⟨t, hleaves⟩ := (Reachable.start.play hplays).leavesFull hp hworks hl hs hfinish
  rw [← Run.play_concat] at hl'
  have haccounts := (hplays'.overcounts 0).accounts (Reachable.start.play hplays') hl' hs'
  rw [Run.tally_concat, htally, haway] at haccounts
  have hnone : {t | (Run.play (.initial {}) (events ++ [.turn 2])).WaitsFor t 0 .shared} = ∅ := by
    have hreaders := haccounts.readers
    rw [hpending] at hreaders
    rw [← Set.encard_eq_zero]
    exact ENat.add_left_injective_of_ne_top ENat.one_ne_top (hreaders.trans (zero_add 1).symm)
  exact ⟨l', s', hplays', hleaves.full, hfinish, hl', hs',
    fun t => (Set.eq_empty_iff_forall_notMem.mp hnone t), hpending, hbit,
    haccounts.haunted Nat.one_pos hbit⟩

end ReaderWriter
