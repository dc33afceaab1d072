import ReaderWriter.Proofs.BlockingGroups

/-!
# The waiters of a blocking lock

While shared holders stay below the maximum, both wait groups of a blocking lock say who waits, and
as long as a waiter could go on that no holder is bound to wake, some release is still notifying.

This is what keeps a wakeup from being lost. A notification can miss a waiter that is about to park,
but its notifier does not leave before it has seen a word in which nobody is owed anything, and
every turn that could make such a word bad again is a release, which stays itself.
-/

namespace ReaderWriter

/-! ## Words that owe a wakeup -/

namespace Word

/-- Nobody is owed a wakeup while a writer holds the lock. -/
theorem not_admissible_of_locked {w : Word} (h : w.fields.uniqueLocked = true) :
    w.hasAdmissibleWaiters = false := by
  simp [hasAdmissibleWaiters_eq, h]

/-- Who is refused and announces its wait owes nobody a wakeup that was not owed before. -/
theorem admissible_of_announce {w : Word} {mode : Mode} (hrefused : Blocking.admits w mode = false)
    (h : (Blocking.announce w mode).hasAdmissibleWaiters = true) :
    w.hasAdmissibleWaiters = true := by
  cases mode with
  | unique =>
    have hheld : w.held = true := by simpa [Blocking.admits] using hrefused
    rw [held_eq] at hheld
    rw [hasAdmissibleWaiters_eq, Blocking.announce, fields_withUniqueWait] at h
    simp only [Bool.true_or, Bool.or_true, Bool.not_true, Bool.and_false,
      Bool.or_false, hheld, Bool.false_eq_true] at h
  | shared =>
    have hblocks : w.blocksShared = true := by simpa [Blocking.admits] using hrefused
    rw [blocksShared_eq] at hblocks
    rw [hasAdmissibleWaiters_eq, Blocking.announce, fields_withSharedWait] at h
    rw [hasAdmissibleWaiters_eq]
    cases hl : w.fields.uniqueLocked with
    | true => simp [hl] at h
    | false =>
      have hwanted : w.fields.uniqueWanted = true := by simpa [hl] using hblocks
      simpa [hl, hwanted] using h

/-- A grant owes nobody a wakeup that was not owed before. -/
theorem admissible_of_grant {w w' : Word} {mode : Mode} (hadmits : Blocking.admits w mode = true)
    (h : Blocking.grant w mode = .ok w') (hadm : w'.hasAdmissibleWaiters = true) :
    w.hasAdmissibleWaiters = true := by
  have hadm' := hadm
  rw [hasAdmissibleWaiters_eq] at hadm'
  cases mode with
  | unique =>
    cases h
    rw [not_admissible_of_locked (by simp)] at hadm
    cases hadm
  | shared =>
    obtain ⟨hfree, -, hfields⟩ := fields_of_withSharedAcquired h
    rw [hfields] at hadm'
    rw [hasAdmissibleWaiters_eq, hfree]
    simp only [hfree] at hadm'
    simp_all

/-- A grant to a waiter owes nobody a wakeup that was not owed before, unless it is the first to
set the bit of its mode. -/
theorem admissible_of_grantWaiter {w w' : Word} {mode : Mode} {last : Bool}
    (hadmits : Blocking.admits w mode = true) (h : Blocking.grantWaiter w mode last = .ok w')
    (hwaits : last = false → w.fields.waits mode = true) (hadm : w'.hasAdmissibleWaiters = true) :
    w.hasAdmissibleWaiters = true := by
  have htakes := takes_grantWaiter hadmits h
  cases mode with
  | unique =>
    rw [not_admissible_of_locked htakes.2.2.1] at hadm
    cases hadm
  | shared =>
    have hunique := waits_grantWaiter h .unique
    have hshared := waits_grantWaiter h .shared
    simp only [Fields.waits, reduceCtorEq, if_false, if_true] at hunique hshared hwaits
    rw [hasAdmissibleWaiters_eq, htakes.2.1, htakes.2.2, hunique, hshared] at hadm
    rw [hasAdmissibleWaiters_eq, htakes.1]
    cases last with
    | true => simp at hadm
    | false => simp_all

end Word

namespace Blocking

/-! ## Who sees to a wakeup -/

/-- The state of a blocking lock says who waits, and nobody who could go on is forgotten. -/
structure TellsWaiters (c : Crowd State Pc) : Prop where
  groups : ∀ mode, TellsGroup mode c
  duty : c.state.word.hasAdmissibleWaiters = true →
    ∃ t pc, c.place t = some pc ∧ pc.notifies = true

/-- A turn of a thread that stood at `p`: if a wakeup is owed afterwards, the thread is about to see
to it, or it was owed before and is not this thread's business. -/
def SeesTo (s s' : State) (p p' : Option Pc) : Prop :=
  s'.word.hasAdmissibleWaiters = true → (∃ pc, p' = some pc ∧ pc.notifies = true) ∨
    s.word.hasAdmissibleWaiters = true ∧ ∀ pc, p = some pc → pc.notifies = false

theorem SeesTo.passes {c c' : Crowd State Pc} {t : ThreadId}
    (h : SeesTo c.state c'.state (c.place t) (c'.place t))
    (hothers : ∀ u, u ≠ t → c'.place u = c.place u)
    (hduty : c.state.word.hasAdmissibleWaiters = true →
      ∃ u pc, c.place u = some pc ∧ pc.notifies = true)
    (hadm : c'.state.word.hasAdmissibleWaiters = true) :
    ∃ u pc, c'.place u = some pc ∧ pc.notifies = true := by
  rcases h hadm with ⟨pc, hpc, hnotifies⟩ | ⟨hbefore, hself⟩
  · exact ⟨t, pc, hpc, hnotifies⟩
  · obtain ⟨u, pc, hpc, hnotifies⟩ := hduty hbefore
    have hu : u ≠ t := by
      rintro rfl
      rw [hself pc hpc] at hnotifies
      cases hnotifies
    exact ⟨u, pc, (hothers u hu).trans hpc, hnotifies⟩

/-- A turn of a thread that was not notifying, and that makes no word bad. -/
theorem SeesTo.of_quiet {s s' : State} {p p' : Option Pc}
    (hword : s'.word.hasAdmissibleWaiters = true → s.word.hasAdmissibleWaiters = true)
    (hp : ∀ pc, p = some pc → pc.notifies = false) : SeesTo s s' p p' :=
  fun hadm => .inr ⟨hword hadm, hp⟩

/-- A thread that is notifying leaves only when nobody is owed a wakeup. -/
theorem SeesTo.of_notifies {s s' : State} {p p' : Option Pc}
    (h : (∃ pc, p' = some pc ∧ pc.notifies = true) ∨
      p' = none ∧ s'.word.hasAdmissibleWaiters = false) : SeesTo s s' p p' := by
  intro hadm
  refine .inl (h.resolve_right fun hquiet => ?_)
  rw [hquiet.2] at hadm
  cases hadm

/-- Neither who is let in nor who is not makes the word bad. -/
theorem Attempts.seesTo {t : ThreadId} {s : State} {mode : Mode} {p : Option Pc} {n : Nat}
    (h : Attempts t s mode p n) {backoff : Backoff} {turn : Turn State Pc}
    (hturn : Attempted mode backoff (s.counted t mode n) turn) (hbit : s.TellsBit mode)
    (hp : ∀ pc, p = some pc → pc.notifies = false) :
    SeesTo s turn.state p turn.stand.place? := by
  refine .of_quiet (fun hadm => ?_) hp
  cases hturn with
  | granted hadmits hw =>
    rw [State.counted_word, State.counted_group] at hw
    rw [State.counted_word] at hadmits
    rw [word_withGroup] at hadm
    refine Word.admissible_of_grantWaiter hadmits hw (fun hlast => ?_) hadm
    have hmore : n ≠ 1 := by simpa using hlast
    rw [hbit, decide_eq_true_eq]
    cases h with
    | back _ _ _ hne => exact hne
    | enters _ _ heq => exact fun hzero => hmore (by rw [heq, hzero])
  | faulted => simpa using hadm
  | announced hrefused =>
    rw [State.counted_word] at hrefused
    simp only [State.counted_word] at hadm
    exact Word.admissible_of_announce hrefused hadm

theorem enter_seesTo {t : ThreadId} {mode : Mode} {s : State} {p : Option Pc}
    (hbit : s.TellsBit mode) (hwaits : p.bind Pc.waits? ≠ some mode)
    (hp : ∀ pc, p = some pc → pc.notifies = false) :
    SeesTo s (enter t mode s).state p (enter t mode s).stand.place? := by
  rcases enter_cases t mode s with heq | ⟨hfree, heq⟩ <;> rw [heq]
  · exact .of_quiet id hp
  · exact (Attempts.enters hwaits hfree rfl).seesTo (attempt_attempted _ _ _) hbit hp

/-- Every later turn of an operation sees to those whom it owes a wakeup. -/
theorem resume_seesTo {c : Crowd State Pc} (h : ∀ mode, TellsGroup mode c) {t : ThreadId} {pc : Pc}
    (hplace : c.place t = some pc) :
    SeesTo c.state (resume t pc c.state).state (some pc) (resume t pc c.state).stand.place? := by
  have hnotifying : pc.notifies = true →
      SeesTo c.state (resume t pc c.state).state (some pc)
        (resume t pc c.state).stand.place? := by
    intro hnotifies
    obtain ⟨hword, -, hnext⟩ := resume_notifies (t := t) (s := c.state) hnotifies
    rw [← hword] at hnext
    exact .of_notifies hnext
  cases pc with
  | contended mode | entering mode => exact enter_seesTo (h mode).bit nofun (by rintro _ ⟨⟩; rfl)
  | waiting mode stage backoff =>
    by_cases hstage : stage = .woken
    · subst hstage
      obtain ⟨hgate, hattempts⟩ := (h mode).attempts hplace
      have hattempted : Attempted mode backoff
          (c.state.counted t mode (c.state.group mode).pending) (attempt mode backoff c.state) := by
        rw [State.counted_eq hgate]
        exact attempt_attempted mode backoff c.state
      exact hattempts.seesTo hattempted (h mode).bit (by rintro _ ⟨⟩; rfl)
    · obtain ⟨w, -, heq⟩ := resume_waiting t mode backoff c.state hstage
      rw [heq]
      exact .of_quiet (fun hadm => by rwa [word_withGroup] at hadm) (by rintro _ ⟨⟩; rfl)
  | notifying | notified | retrying | yielding => exact hnotifying rfl

/-- The first turn of an operation sees to those whom it owes a wakeup. -/
theorem start_seesTo (op : Operation) (s : State) :
    SeesTo s (start op s).state none (start op s).stand.place? := by
  have hstarted := start_started op s
  generalize start op s = turn at hstarted
  cases hstarted with
  | stays => exact .of_quiet id nofun
  | taken _ hadmits hgrant => exact .of_quiet (Word.admissible_of_grant hadmits hgrant) nofun
  | @given w =>
    refine .of_notifies ?_
    rw [afterRelease_state]
    exact afterRelease_place s w

/-- The state of a blocking lock always says who waits, if its word can count the holders. -/
theorem reachable_tells {ok : Crowd State Pc → Prop}
    (hroom : ∀ c, ok c → c.held .shared < maxSharedHolders.toNat) {c : Crowd State Pc}
    (h : machine.Reachable ok c) : TellsWaiters c := by
  refine ⟨fun mode => reachable_tellsGroup (fun c hok _ => hroom c hok) h, ?_⟩
  induction h with
  | start host config =>
    have hidle : (machine.newCrowd host config).state.word.hasAdmissibleWaiters = false := by
      change Word.idle.hasAdmissibleWaiters = false
      decide
    intro hadm
    rw [hidle] at hadm
    cases hadm
  | @step c c' hreach hok hstep ih =>
    have hgroups : ∀ mode, TellsGroup mode c :=
      fun mode => reachable_tellsGroup (fun c hok _ => hroom c hok) hreach
    cases hstep with
    | @start t op hplace hpos =>
      refine SeesTo.passes (t := t) ?_ (fun u hu => Function.update_of_ne hu _ _) ih
      simp only [Crowd.turned, Function.update_self, hplace]
      exact start_seesTo op c.state
    | @resume t pc op hplace hserves hfree =>
      refine SeesTo.passes (t := t) ?_ (fun u hu => Function.update_of_ne hu _ _) ih
      simp only [Crowd.turned, Function.update_self, hplace]
      exact resume_seesTo hgroups hplace
    | wake t => exact ih

/-! ## When nobody can move -/

/-- When nobody who uses the lock can move, all of them are parked and have not been notified. -/
theorem parked_of_still {c : Crowd State Pc} (h : TellsWaiters c)
    (hstill : ∀ t pc, c.place t = some pc → (obstacle t c.state pc).isSome = true) {t : ThreadId}
    {pc : Pc} (hplace : c.place t = some pc) :
    ∃ mode backoff, pc = .waiting mode .parked backoff ∧
      obstacle t c.state pc = some .parked := by
  -- A caller that has a mutex is not held up, so no mutex is taken.
  have hfree : ∀ mode, (c.state.group mode).gate = none := by
    intro mode
    refine (h.groups mode).gate.eq_none fun u hu => ?_
    obtain ⟨pc', hplace', hgate⟩ := Option.bind_eq_some_iff.mp hu
    have hobstacle := hstill u pc' hplace'
    cases pc' with
    | waiting mode' stage backoff =>
      cases stage with
      | announced | parking | resumed | woken => cases hobstacle
      | parked | snoozing => cases hgate
    | contended | entering | notifying | notified | retrying | yielding => cases hgate
  have hobstacle := hstill t pc hplace
  cases pc with
  | contended | notifying | notified | retrying | yielding => cases hobstacle
  | entering mode => simp [obstacle, hfree] at hobstacle
  | waiting mode stage backoff =>
    cases stage with
    | announced | parking | resumed | woken => cases hobstacle
    | snoozing => simp [obstacle, Wait.obstacle, hfree] at hobstacle
    | parked =>
      refine ⟨mode, backoff, rfl, ?_⟩
      simp only [obstacle, Wait.obstacle, hfree] at hobstacle ⊢
      split
      · rfl
      · next hqueue => simp [hqueue] at hobstacle

/-- When nobody who uses the lock can move, nobody is owed a wakeup. -/
theorem not_admissible_of_still {c : Crowd State Pc} (h : TellsWaiters c)
    (hstill : ∀ t pc, c.place t = some pc → (obstacle t c.state pc).isSome = true) :
    c.state.word.hasAdmissibleWaiters = false := by
  rw [Bool.eq_false_iff]
  intro hadm
  obtain ⟨t, pc, hplace, hnotifies⟩ := h.duty hadm
  obtain ⟨mode, backoff, rfl, -⟩ := parked_of_still h hstill hplace
  cases hnotifies

/-- When nobody who uses the lock can move and somebody waits, somebody holds the lock; and if a
reader waits, a writer holds the lock or waits too. -/
theorem held_of_still {c : Crowd State Pc} (h : TellsWaiters c)
    (hcounts : c.state.word.Counts c.held)
    (hstill : ∀ t pc, c.place t = some pc → (obstacle t c.state pc).isSome = true) {t : ThreadId}
    {mode : Mode} (hwaits : (c.place t).bind Pc.waits? = some mode) :
    (0 < c.held .unique ∨ 0 < c.held .shared) ∧
      (mode = .shared → 0 < c.held .unique ∨ 0 < c.held .shared ∧
        ∃ u, (c.place u).bind Pc.waits? = some .unique) := by
  have hquiet := not_admissible_of_still h hstill
  have hpending : ∀ {mode'}, c.state.word.fields.waits mode' = true ↔
      ∃ u, (c.place u).bind Pc.waits? = some mode' := by
    intro mode'
    rw [(h.groups mode').bit, decide_eq_true_eq, Ne, (h.groups mode').pending.zero_iff]
    exact not_forall_not
  have hbit : c.state.word.fields.waits mode = true := hpending.mpr ⟨t, hwaits⟩
  rw [hcounts.unique, hcounts.shared, ← hpending]
  rw [Word.hasAdmissibleWaiters_eq] at hquiet
  cases hl : c.state.word.fields.uniqueLocked with
  | true => simp
  | false =>
    simp only [hl, Bool.false_or, Bool.or_eq_false_iff, Bool.and_eq_false_iff,
      Bool.not_eq_false', decide_eq_true_eq] at hquiet
    have hholders : 0 < c.state.word.fields.holders := by
      rw [Nat.pos_iff_ne_zero]
      refine hquiet.1.resolve_left fun hnone => ?_
      cases mode <;> simp_all [Fields.waits]
    refine ⟨.inr hholders, ?_⟩
    rintro rfl
    refine .inr ⟨hholders, ?_⟩
    exact hquiet.2.resolve_left fun hnone => by simp_all [Fields.waits]

end Blocking

end ReaderWriter
