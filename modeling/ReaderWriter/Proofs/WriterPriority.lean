import ReaderWriter.Proofs.BlockingGroups

/-!
# Writers come first

On the blocking lock, a writer that has announced its wait is not overtaken by readers: no reader is
let in, however it asks, until that writer has the lock.

What keeps the readers out is the writers' wait bit. It is set as long as any writer waits, whoever
of them has set it and whatever other writers have come and gone meanwhile, since the writers' group
always says who waits in it.

* `Blocking.start_admits`, `Blocking.resume_admits`: whoever is granted the lock was let in by the
  word.
* `Run.waitsFor_of_move`: a caller that waits goes on waiting until it has the lock.
* `blocking_writer_first`: no reader is let in before it.
-/

namespace ReaderWriter

/-! ## Who is let in -/

namespace Blocking

theorem Attempted.admits_of_granted {mode : Mode} {backoff : Backoff} {s : State}
    {turn : Turn State Pc} (h : Attempted mode backoff s turn) {op : Operation} {mode' : Mode}
    (hop : op.acquires? = some mode) (hgranted : Hold.granted? op turn.stand = some mode') :
    admits s.word mode' = true := by
  cases h with
  | granted hadmits =>
    simp only [Hold.granted?, reduceCtorEq, if_false, hop, Option.some.injEq] at hgranted
    exact hgranted ▸ hadmits
  | faulted | announced => cases hgranted

theorem enter_admits {t : ThreadId} {mode mode' : Mode} {s : State}
    (hgranted : Hold.granted? (.acquire mode) (enter t mode s).stand = some mode') :
    admits s.word mode' = true := by
  rcases enter_cases t mode s with heq | ⟨-, heq⟩ <;> rw [heq] at hgranted
  · cases hgranted
  · have hadmits := (attempt_attempted mode _ _).admits_of_granted rfl hgranted
    rwa [State.counted_word] at hadmits

/-- An operation is granted the lock with its first turn only if the word lets it in. -/
theorem start_admits {op : Operation} {s : State} {mode : Mode}
    (hgranted : Hold.granted? op (start op s).stand = some mode) : admits s.word mode = true := by
  have hstarted := start_started op s
  generalize start op s = turn at hstarted hgranted
  cases hstarted with
  | stays hnone =>
    rw [hnone] at hgranted
    cases hgranted
  | @taken mode' w answer hop hadmits =>
    simp only [Hold.granted?, hop] at hgranted
    split at hgranted
    · cases hgranted
    · cases hgranted
      exact hadmits
  | given hop =>
    cases op with
    | release mode' => simp [Hold.granted?_release] at hgranted
    | acquire | tryAcquire => cases hop

/-- Nor is it later. -/
theorem resume_admits {op : Operation} {pc : Pc} (hserves : pc.Serves op) {t : ThreadId} {s : State}
    {mode : Mode} (hgranted : Hold.granted? op (resume t pc s).stand = some mode) :
    admits s.word mode = true := by
  have hrelease : (∃ mode', op = .release mode') → admits s.word mode = true := by
    rintro ⟨mode', rfl⟩
    simp [Hold.granted?_release] at hgranted
  cases pc with
  | contended mode' | entering mode' =>
    cases hserves
    exact enter_admits hgranted
  | waiting mode' stage backoff =>
    cases hserves
    by_cases hstage : stage = .woken
    · subst hstage
      exact (attempt_attempted mode' backoff s).admits_of_granted rfl hgranted
    · obtain ⟨w, -, heq⟩ := resume_waiting t mode' backoff s hstage
      rw [heq] at hgranted
      cases hgranted
  | notifying | notified | retrying | yielding => exact hrelease hserves

/-- While a writer waits, readers stay out. -/
theorem TellsGroup.not_admits_shared {c : Crowd State Pc} (h : TellsGroup .unique c) {t : ThreadId}
    (hwaits : (c.place t).bind Pc.waits? = some .unique) : admits c.state.word .shared = false := by
  have hpending : (c.state.group .unique).pending ≠ 0 := fun h0 => h.pending.zero_iff.mp h0 t hwaits
  have hbit : c.state.word.fields.uniqueWanted = true := h.bit.trans (decide_eq_true hpending)
  simp [admits, Word.blocksShared_eq, hbit]

/-- A turn of a caller that waits leaves it waiting, or grants it the lock; a reader, if the word
can count it. -/
theorem resume_waits (t : ThreadId) {mode : Mode} (stage : Wait.Stage) (backoff : Backoff)
    {s : State} (hroom : mode = .shared → s.word.fields.holders < maxSharedHolders.toNat) :
    (∃ stage' backoff', (resume t (.waiting mode stage backoff) s).stand =
        .here (.waiting mode stage' backoff')) ∨
      (resume t (.waiting mode stage backoff) s).stand = .done .unit := by
  by_cases hstage : stage = .woken
  · subst hstage
    have hattempted := attempt_attempted mode backoff s
    change (∃ stage' backoff', (attempt mode backoff s).stand = _) ∨
      (attempt mode backoff s).stand = _
    generalize attempt mode backoff s = turn at hattempted
    cases hattempted with
    | granted => exact .inr rfl
    | faulted hmode hfull => exact absurd (hroom hmode) (Nat.not_lt.mpr hfull)
    | announced => exact .inl ⟨_, _, rfl⟩
  · obtain ⟨w, -, heq⟩ := resume_waiting t mode backoff s hstage
    rw [heq]
    exact .inl ⟨_, _, rfl⟩

end Blocking

/-! ## A writer that waits -/

namespace Run

variable {r r' : Run} {e : Event} {t : ThreadId} {m : Nat} {l : Lock} {job : Job} {op : Operation}

/-- A call that has been granted the lock has come back. -/
theorem asked_of_granted (h : Operates r e r' t m l job op) {w : World}
    (htidy : Tidy w (r'.world.thread t) (r'.asked t)) {mode : Mode}
    (hgranted : Hold.granted? op (r.world.work t m job).stand = some mode) : r'.asked t = none := by
  have hplace : (r'.world.thread t).stint? = none := by
    rw [h.stint']
    cases hstand : (r.world.work t m job).stand with
    | here p => simp [hstand, Hold.granted?] at hgranted
    | done | fault => rfl
  have hno : ∀ m' mode', ¬ r'.Awaits t m' mode' := by
    intro m' mode' hawaits
    rw [(h.awaits m' mode' hawaits).2.2] at hgranted
    cases hgranted
  unfold Awaits at hno
  generalize r'.asked t = asked at htidy hno
  cases htidy with
  | idle | gone | ending | departing => rfl
  | working hact => simp [Thread.stint?, hact] at hplace
  | @pausing n mode' limit guarded retry position l hact =>
    exact absurd ⟨⟨_, rfl, rfl⟩, _, Thread.frame?_of_calling hact, rfl⟩ (hno n mode')

/-- A call of a thread waits for the lock in this mode on the blocking lock at an index. -/
def WaitsFor (r : Run) (t : ThreadId) (m : Nat) (mode : Mode) : Prop :=
  ∃ stage backoff, r.place m t = some (.blocking (.waiting mode stage backoff))

/-- A call of a thread waits for the unique lock on the blocking lock at an index. -/
def WriterWaits (r : Run) (t : ThreadId) (m : Nat) : Prop :=
  ∃ stage backoff, r.place m t = some (.blocking (.waiting .unique stage backoff))

theorem work_blocking_admits (h : Operates r e r' t m l job op) {s : Blocking.State}
    (hs : l.body = .blocking s) {mode : Mode}
    (hgranted : Hold.granted? op (r.world.work t m job).stand = some mode) :
    Blocking.admits s.word mode = true := by
  cases job with
  | start op' =>
    have hop : op' = op := h.serves
    subst hop
    rw [(Blocking.machine_is.start r.world t m l s op' h.lock hs).2, Hold.granted?_lift] at hgranted
    exact Blocking.start_admits hgranted
  | resume p =>
    obtain ⟨pc, rfl⟩ := Blocking.machine_is.exists_progress p (by
      have hsuits := h.suits
      rw [hs] at hsuits
      exact hsuits)
    rw [(Blocking.machine_is.resume r.world t m l s pc h.lock hs).2.1, Hold.granted?_lift]
      at hgranted
    exact Blocking.resume_admits h.serves hgranted
  | depart f => exact h.serves.elim

/-- A turn of a caller that waits on the lock leaves it waiting or grants it the lock. -/
theorem waitsFor_of_operates (h : Operates r e r' t m l job op) {w : World}
    (htidy : Tidy w (r'.world.thread t) (r'.asked t)) {s : Blocking.State}
    (hs : l.body = .blocking s) {mode : Mode}
    (hroom : mode = .shared → s.word.fields.holders < maxSharedHolders.toNat)
    (hwaits : r.WaitsFor t m mode) :
    r'.WaitsFor t m mode ∨ r'.asked t = none ∧ r'.holds = ⟨t, m, mode⟩ :: r.holds := by
  obtain ⟨stage, backoff, hplace⟩ := hwaits
  have hjob : job = .resume (.blocking (.waiting mode stage backoff)) := by
    rw [h.place_self] at hplace
    cases job with
    | resume p => exact congrArg Job.resume (Option.some.inj hplace)
    | start | depart => cases hplace
  subst hjob
  have hop : op = .acquire mode := h.serves
  subst hop
  have hstand := (Blocking.machine_is.resume r.world t m l s (.waiting mode stage backoff)
    h.lock hs).2.1
  rcases Blocking.resume_waits t stage backoff hroom with ⟨stage', backoff', heq⟩ | heq
  · refine .inl ⟨stage', backoff', h.place_self'.trans ?_⟩
    exact congrArg Stand.place? (hstand.trans (congrArg (Stand.lift Progress.blocking) heq))
  · have hdone : (r.world.work t m (.resume (.blocking (.waiting mode stage backoff)))).stand =
        .done .unit := hstand.trans (congrArg (Stand.lift Progress.blocking) heq)
    have hgranted : Hold.granted? (.acquire mode) (r.world.work t m
        (.resume (.blocking (.waiting mode stage backoff)))).stand = some mode := by
      rw [hdone]
      rfl
    refine .inr ⟨asked_of_granted h htidy hgranted, ?_⟩
    rw [h.holds, Hold.settled, hgranted]
    rfl

/-- A caller goes on waiting until it is granted the lock. -/
theorem waitsFor_of_move (hmove : Move r e r') {s : Blocking.State}
    (hl : r.world.locks[m]? = some l) (hs : l.body = .blocking s) {w : World}
    (htidy : Tidy w (r'.world.thread t) (r'.asked t)) {mode : Mode}
    (hroom : mode = .shared → s.word.fields.holders < maxSharedHolders.toNat)
    (hwaits : r.WaitsFor t m mode) :
    r'.WaitsFor t m mode ∨ r'.asked t = none ∧ r'.holds = ⟨t, m, mode⟩ :: r.holds := by
  have hsame : r'.place m t = r.place m t → r'.WaitsFor t m mode := by
    obtain ⟨stage, backoff, hplace⟩ := hwaits
    exact fun h => ⟨stage, backoff, h.trans hplace⟩
  cases hmove with
  | @operate u n l' job op h =>
    by_cases hn : m = n
    · subst hn
      by_cases hu : t = u
      · subst hu
        cases hl.symm.trans h.lock
        exact waitsFor_of_operates h htidy hs hroom hwaits
      · exact .inl (hsame (h.place_of_ne hu))
    · exact .inl (hsame (h.place_of_ne_lock hn t))
  | @depart u n l' job h =>
    have hn : m ≠ n := by
      rintro rfl
      cases hl.symm.trans h.lock
      have halg := (World.work_departs t h.lock h.suits h.departs).1
      rw [hs] at halg
      cases halg
    exact .inl (hsame (h.place_of_ne_lock hn t))
  | @shift u h =>
    by_cases hu : t = u
    · subst hu
      obtain ⟨stage, backoff, hplace⟩ := hwaits
      simp [place, h.stint] at hplace
    · exact .inl (hsame (place_congr (h.others t hu)))
  | drop h => exact .inl (hsame (place_congr (h.threads t)))
  | wake h => exact .inl (hsame (place_congr (h.threads t)))
  | make h => exact .inl (hsame (place_congr (h.threads t)))
  | rest h => exact .inl (hsame (place_congr (h.threads t)))

/-- The call of a caller that waits has not come back. -/
theorem WaitsFor.asked_ne_none {mode : Mode} (h : r.WaitsFor t m mode) (ho : r.Orderly) :
    r.asked t ≠ none := by
  obtain ⟨stage, backoff, hplace⟩ := h
  cases ho.standsAt hplace with
  | working hasked => exact fun hnone => nomatch hasked.symm.trans hnone

theorem WriterWaits.asked_ne_none (h : r.WriterWaits t m) (ho : r.Orderly) :
    r.asked t ≠ none :=
  WaitsFor.asked_ne_none h ho

/-- A writer that is seen about to wait waits. -/
theorem writerWaits_of_seen {pc : Blocking.Pc} (hplace : r.place m t = some (.blocking pc))
    (hseen : pc.place = .location .uniqueWait) : r.WriterWaits t m := by
  cases pc with
  | waiting mode stage backoff =>
    cases mode with
    | unique => exact ⟨stage, backoff, hplace⟩
    | shared =>
      obtain ⟨-, ⟨⟩⟩ | ⟨-, ⟨⟩⟩ | ⟨-, ⟨⟩⟩ | ⟨-, ⟨⟩⟩ := Wait.Stage.place_eq_location hseen
  | contended mode | notifying mode => cases mode <;> cases hseen
  | entering | notified | retrying | yielding => cases hseen

end Run

/-- After an event a caller still waits, or its call has come back with the lock. -/
theorem Run.Orderly.waitsFor_after {r : Run} {e : Event} {t : ThreadId} {m : Nat} {l : Lock}
    {s : Blocking.State} (ho : r.Orderly) (hp : r.world.Permits e)
    (hl : r.world.locks[m]? = some l) (hs : l.body = .blocking s) {mode : Mode}
    (hroom : mode = .shared → s.word.fields.holders < maxSharedHolders.toNat)
    (hwaits : r.WaitsFor t m mode) :
    (r.after e).WaitsFor t m mode ∨
      (r.after e).asked t = none ∧ (r.after e).holds = ⟨t, m, mode⟩ :: r.holds := by
  obtain ⟨r₁, hmove, hthreads, hasked, hholds⟩ := Run.exists_move_after ho hp
  have htidy := (Run.after_moves ho hp).2.tidy t
  rw [hthreads t, hasked] at htidy
  rw [hasked, hholds]
  refine (Run.waitsFor_of_move hmove hl hs htidy hroom hwaits).imp_left ?_
  rintro ⟨stage, backoff, hplace⟩
  exact ⟨stage, backoff, (Run.place_congr (hthreads t)).trans hplace⟩

/-- After an event a writer still waits, or its call has come back with the lock. -/
theorem Reachable.writerWaits_after {r : Run} {e : Event} {t : ThreadId} {m : Nat} {l : Lock}
    (h : Reachable (Run.ReleasesHeld m) r) (hp : r.world.Permits e)
    (hl : r.world.locks[m]? = some l) (halg : l.body.algorithm = .blocking)
    (hwaits : r.WriterWaits t m) :
    (r.after e).WriterWaits t m ∨
      (r.after e).asked t = none ∧ (r.after e).holds = ⟨t, m, .unique⟩ :: r.holds := by
  obtain ⟨s, hs⟩ := Blocking.machine_is.exists_body l.body halg
  exact h.orderly.waitsFor_after hp hl hs nofun hwaits

/-- While a writer waits, no event grants a shared lock. -/
theorem Reachable.count_shared_after {r : Run} {e : Event} {t : ThreadId} {m : Nat} {l : Lock}
    (h : Reachable (Run.ReleasesHeld m) r) (hp : r.world.Permits e)
    (hl : r.world.locks[m]? = some l) (halg : l.body.algorithm = .blocking)
    (hwaits : r.WriterWaits t m) (u : ThreadId) :
    (r.after e).holds.count ⟨u, m, .shared⟩ ≤ r.holds.count ⟨u, m, .shared⟩ := by
  obtain ⟨stage, backoff, hplace⟩ := hwaits
  obtain ⟨s, hs⟩ := Blocking.machine_is.exists_body l.body halg
  have hcrowd : Blocking.machine.Reachable (fun _ => True) (r.crowd Blocking.machine m s) :=
    h.crowd Blocking.machine_is (fun _ _ hok => ⟨hok, fun _ _ _ _ => trivial⟩) l s hl hs
  have htells : Blocking.TellsGroup .unique (r.crowd Blocking.machine m s) :=
    Blocking.reachable_tellsGroup nofun hcrowd
  have hshut : Blocking.admits s.word .shared = false :=
    htells.not_admits_shared (t := t) (by simp only [Run.crowd, hplace]; rfl)
  obtain ⟨r₁, hmove, -, -, hholds⟩ := Run.exists_move_after h.orderly hp
  rw [hholds]
  refine Run.count_hold_le_of_move hmove fun hop hgranted => ?_
  cases hl.symm.trans hop.lock
  rw [Run.work_blocking_admits hop hs hgranted] at hshut
  cases hshut

/-- The call of a thread that is under way goes on, and the lock is only given up while it is
held. -/
def Run.GoesOn (t : ThreadId) (m : Nat) (r : Run) (e : Event) : Prop :=
  r.ReleasesHeld m e ∧ (r.after e).asked t ≠ none

instance (t : ThreadId) (m : Nat) (r : Run) (e : Event) : Decidable (r.GoesOn t m e) :=
  inferInstanceAs (Decidable (_ ∧ _))

/-- A writer waits for as long as its call goes on. -/
theorem Run.Leads.writerWaits {r r' : Run} {t : ThreadId} {m : Nat} {l : Lock}
    (hleads : r.Leads (Run.GoesOn t m) r') (h : Reachable (Run.ReleasesHeld m) r)
    (hl : r.world.locks[m]? = some l) (halg : l.body.algorithm = .blocking)
    (hwaits : r.WriterWaits t m) :
    r'.WriterWaits t m ∧ ∃ l', r'.world.locks[m]? = some l' ∧ l'.body.algorithm = .blocking := by
  induction hleads with
  | refl => exact ⟨hwaits, l, hl, halg⟩
  | @step r' e hleads hp hok ih =>
    obtain ⟨hwaits', l', hl', halg'⟩ := ih
    have hreach : Reachable (Run.ReleasesHeld m) r' := h.leads hleads fun _ _ hok => hok.1
    refine ⟨(hreach.writerWaits_after hp hl' halg' hwaits').resolve_right ?_, ?_⟩
    · exact fun hback => hok.2 hback.1
    · obtain ⟨l'', hl'', halg''⟩ := Run.algorithm_after hreach.orderly hp hl'
      exact ⟨l'', hl'', halg''.trans halg'⟩

/-! ## The main result -/

/-- In every run in which the lock is only given up while it is held: from the moment at which a
call on a blocking lock is seen about to wait for the unique lock, and for as long as it goes on,
whatever happens next

* grants nobody a shared lock, whichever call asks for it;
* and if the call comes back, it does so with the unique lock.

So no reader is let in between another writer's release and the moment at which this writer has the
lock either. -/
theorem blocking_writer_first {r r' : Run} {e : Event} {t : ThreadId} {m : Nat} {l : Lock}
    {pc : Blocking.Pc} (h : Reachable (Run.ReleasesHeld m) r) (hl : r.world.locks[m]? = some l)
    (halg : l.body.algorithm = .blocking) (hplace : r.place m t = some (.blocking pc))
    (hseen : pc.place = .location .uniqueWait) (hleads : r.Leads (Run.GoesOn t m) r')
    (hp : r'.world.Permits e) :
    (∀ u, (r'.after e).holds.count ⟨u, m, .shared⟩ ≤ r'.holds.count ⟨u, m, .shared⟩) ∧
      ((r'.after e).asked t = none → (r'.after e).holds = ⟨t, m, .unique⟩ :: r'.holds) := by
  have hreach : Reachable (Run.ReleasesHeld m) r' := h.leads hleads fun _ _ hok => hok.1
  obtain ⟨hwaits, l', hl', halg'⟩ :=
    hleads.writerWaits h hl halg (Run.writerWaits_of_seen hplace hseen)
  refine ⟨hreach.count_shared_after hp hl' halg' hwaits, fun hback => ?_⟩
  rcases hreach.writerWaits_after hp hl' halg' hwaits with hwaits' | ⟨-, hholds⟩
  · exact absurd hback (hwaits'.asked_ne_none (Run.after_moves hreach.orderly hp).2)
  · exact hholds

/-- A writer has a blocking lock, and another one is about to wait for it. -/
def Run.writerBehindWriter : Run :=
  play {} [.make ⟨.blocking, false, false⟩ .lowLatency, .call 0 0 (.operate (.acquire .unique)),
    .call 1 0 (.operate (.acquire .unique)), .turn 1]

/-- When the first writer has given the lock up, a reader that tries to have it is refused, and then
the second writer has it. -/
theorem blocking_writer_first_after_writer :
    (Run.writerBehindWriter.play [.call 0 0 (.operate (.release .unique)),
        .call 2 0 (.operate (.tryAcquire .shared))]).holds.count ⟨2, 0, .shared⟩ = 0 ∧
      (Run.writerBehindWriter.play [.call 0 0 (.operate (.release .unique)),
        .call 2 0 (.operate (.tryAcquire .shared)), .turn 1, .turn 1, .turn 1]).holds =
        [⟨1, 0, .unique⟩] := by
  have hr : Reachable (Run.ReleasesHeld 0) Run.writerBehindWriter :=
    Reachable.start.play (by decide +kernel)
  have hlock : Run.writerBehindWriter.world.locks[0]?.map (·.body.algorithm) = some .blocking := by
    decide +kernel
  obtain ⟨l, hl, halg⟩ := Option.map_eq_some_iff.mp hlock
  have hplace : Run.writerBehindWriter.place 0 1 =
      some (.blocking (.waiting .unique .announced (.ofConfig .lowLatency))) := by
    decide +kernel
  have hfirst := fun events hplays hp =>
    blocking_writer_first (e := .call 2 0 (.operate (.tryAcquire .shared))) hr hl halg hplace rfl
      (Run.Leads.refl.play events hplays) hp
  have hlater := fun events hplays hp =>
    blocking_writer_first (e := .turn 1) hr hl halg hplace rfl
      (Run.Leads.refl.play events hplays) hp
  constructor
  · refine Nat.le_zero.mp (Nat.le_trans ((hfirst [.call 0 0 (.operate (.release .unique))]
      (by decide +kernel) (by decide +kernel)).1 2) ?_)
    decide +kernel
  · refine ((hlater [.call 0 0 (.operate (.release .unique)),
      .call 2 0 (.operate (.tryAcquire .shared)), .turn 1, .turn 1] (by decide +kernel)
      (by decide +kernel)).2 (by decide +kernel)).trans ?_
    decide +kernel

end ReaderWriter
