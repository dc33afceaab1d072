import ReaderWriter.Proofs.BlockingGroups
import ReaderWriter.Proofs.Holdings

/-!
# Locks with a control word, with nobody in the way

A blocking or polling lock on which nobody is under way has a word without wait bits. Every
operation that need not wait then ends in its first turn, and leaves such a word again.

* `Word.Shows`: the word says who holds the lock, and nothing else.
* `Machine.RestsClean`: what is common to the two locks when nobody is in the way.
* `Blocking.machine_restsClean`, `Polling.machine_restsClean`: both are so.
-/

namespace ReaderWriter

/-! ## Words without wait bits -/

namespace Word

/-- The word says who holds the lock, and nothing else. -/
def Shows (w : Word) (h : Holding) : Prop := w.fields = ⟨false, h.unique, false, h.shared⟩

variable {w : Word} {h : Holding}

theorem Counts.shows {held : Mode → Nat} (hw : w.Counts held)
    (hwaits : ∀ mode, w.fields.waits mode = false) : w.Shows (.of held) := by
  have hwanted : w.fields.uniqueWanted = false := hwaits .unique
  have hwaiting : w.fields.sharedWaiting = false := hwaits .shared
  have hlocked : w.fields.uniqueLocked = decide (0 < held .unique) := by
    rw [hw.unique]
    cases w.fields.uniqueLocked <;> rfl
  calc w.fields
      = ⟨w.fields.uniqueWanted, w.fields.uniqueLocked, w.fields.sharedWaiting,
          w.fields.holders⟩ := rfl
    _ = ⟨false, decide (0 < held .unique), false, held .shared⟩ := by
      rw [hwanted, hlocked, hwaiting, hw.shared]

namespace Shows

theorem bits_eq (hw : w.Shows h) : w.bits.toNat = 2 * h.unique.toNat + 8 * h.shared := by
  rw [bits_toNat, hw]
  simp

theorem held_eq (hw : w.Shows h) : w.held = !h.isFree := by
  rw [Word.held_eq, hw]
  cases hs : h.shared <;> simp [Holding.isFree, hs]

theorem blocksShared_eq (hw : w.Shows h) : w.blocksShared = h.unique := by
  rw [Word.blocksShared_eq, hw]
  exact Bool.or_false _

theorem eq_idle_iff (hw : w.Shows h) : w = idle ↔ h.isFree = true := by
  rw [Word.eq_idle_iff, hw]
  simp [Holding.isFree]

theorem hasWaiters_eq (hw : w.Shows h) : w.hasWaiters = false := by
  rw [Word.hasWaiters_eq, hw]
  rfl

theorem uniqueAcquired (hw : w.Shows h) :
    w.withUniqueLock.Shows { h with unique := true } := by
  unfold Shows at hw ⊢
  rw [fields_withUniqueLock, hw]

theorem sharedAcquired (hw : w.Shows h) (hfree : h.unique = false)
    (hroom : h.shared < maxSharedHolders.toNat) :
    ∃ w', w.withSharedAcquired = .ok w' ∧ w'.Shows { h with shared := h.shared + 1 } := by
  unfold Shows at hw ⊢
  obtain ⟨w', hok, hfields⟩ :=
    withSharedAcquired_eq_ok (w := w) (by rw [hw, hfree]) (by rw [hw]; exact hroom)
  exact ⟨w', hok, by rw [hfields, hw]⟩

theorem uniqueReleased (hw : w.Shows h) (htaken : h.unique = true) :
    ∃ w', w.withUniqueReleased = .ok w' ∧ w'.Shows { h with unique := false } := by
  unfold Shows at hw ⊢
  refine ⟨_, withUniqueReleased_eq_ok (by rw [hw, htaken]), ?_⟩
  rw [fields_withoutUniqueLock, hw]

theorem sharedReleased (hw : w.Shows h) (hpos : 0 < h.shared) :
    ∃ w', w.withSharedReleased = .ok w' ∧ w'.Shows { h with shared := h.shared - 1 } := by
  unfold Shows at hw ⊢
  obtain ⟨w', hok, hfields⟩ := withSharedReleased_eq_ok (w := w) (by rw [hw]; exact hpos)
  exact ⟨w', hok, by rw [hfields, hw]⟩

end Shows

end Word

/-! ## What the two locks have in common -/

/-- What a lock with a control word does when nobody is in the way. -/
structure Machine.RestsClean {State Pc : Type} (M : Machine State Pc) (word : State → Word) :
    Prop where
  body : ∀ s, (M.body s).word? = some (word s)
  /-- When nobody is under way the word has no wait bit. -/
  clean : ∀ {c : Crowd State Pc}, M.Reachable (fun c => c.held .shared < maxSharedHolders.toNat) c →
    (∀ t, c.place t = none) → ∀ mode, (word c.state).fields.waits mode = false
  /-- An operation that need not wait ends in its first turn. -/
  answers : ∀ {op : Operation} {s : State} {h next : Holding} {answer : Answer},
    (word s).Shows h → (op.acquires? = some .shared → h.shared < maxSharedHolders.toNat) →
    h.next? op = some (answer, next) →
    (M.start op s).stand = .done answer ∧ (word (M.start op s).state).Shows next
  /-- An acquisition only fails if the word can count no more readers. -/
  startFails : ∀ {mode : Mode} {s : State} {f : Fault},
    (M.start (.acquire mode) s).stand = .fault f →
    mode = .shared ∧ maxSharedHolders.toNat ≤ (word s).fields.holders
  resumeFails : ∀ {mode : Mode} {t : ThreadId} {pc : Pc} {s : State} {f : Fault},
    M.Serves (.acquire mode) pc → (M.resume t pc s).stand = .fault f →
    mode = .shared ∧ maxSharedHolders.toNat ≤ (word s).fields.holders

/-! ## The blocking lock -/

namespace Blocking

variable {s : State} {h next : Holding} {op : Operation} {answer : Answer} {mode : Mode}
  {f : Fault}

/-- A release that leaves a word without wait bits is done at once. -/
theorem afterRelease_of_shows {w : Word} (hw : w.Shows h) (s : State) :
    afterRelease s (.ok w) = { state := { s with word := w }, stand := .done .unit } := by
  simp [afterRelease, hw.hasWaiters_eq]

theorem start_of_shows (hw : s.word.Shows h)
    (hroom : op.acquires? = some .shared → h.shared < maxSharedHolders.toNat)
    (hnext : h.next? op = some (answer, next)) :
    (start op s).stand = .done answer ∧ (start op s).state.word.Shows next := by
  rcases op with mode | mode | mode <;> cases mode <;> simp only [Holding.next?] at hnext <;>
    split at hnext <;> cases hnext
  case acquire.unique.isTrue hfree | tryAcquire.unique.isTrue hfree =>
    simp only [start, if_pos (hw.eq_idle_iff.mpr hfree)]
    exact ⟨trivial, hw.uniqueAcquired⟩
  case acquire.shared.isFalse hfree | tryAcquire.shared.isFalse hfree =>
    obtain ⟨w', hok, hw'⟩ := hw.sharedAcquired (Bool.eq_false_iff.mpr hfree) (hroom rfl)
    simp only [start, hw.blocksShared_eq, if_neg hfree, hok]
    exact ⟨trivial, hw'⟩
  case tryAcquire.unique.isFalse htaken =>
    simp only [start, if_neg (mt hw.eq_idle_iff.mp htaken)]
    exact ⟨trivial, hw⟩
  case tryAcquire.shared.isTrue htaken =>
    simp only [start, hw.blocksShared_eq, if_pos htaken]
    exact ⟨trivial, hw⟩
  case release.unique.isTrue htaken =>
    obtain ⟨w', hok, hw'⟩ := hw.uniqueReleased htaken
    simp only [start, hok, afterRelease_of_shows hw']
    exact ⟨trivial, hw'⟩
  case release.shared.isTrue hpos =>
    obtain ⟨w', hok, hw'⟩ := hw.sharedReleased hpos
    simp only [start, hok, afterRelease_of_shows hw']
    exact ⟨trivial, hw'⟩

theorem start_fails (hfault : (start (.acquire mode) s).stand = .fault f) :
    mode = .shared ∧ maxSharedHolders.toNat ≤ s.word.fields.holders := by
  cases mode with
  | unique =>
    simp only [start] at hfault
    split at hfault <;> cases hfault
  | shared =>
    simp only [start] at hfault
    split at hfault
    · cases hfault
    · next hopen =>
      split at hfault
      · cases hfault
      · next herror =>
        exact ⟨rfl, (Word.of_withSharedAcquired_eq_error (Bool.eq_false_iff.mpr hopen) herror).2⟩

theorem attempt_fails {backoff : Backoff} (hfault : (attempt mode backoff s).stand = .fault f) :
    mode = .shared ∧ maxSharedHolders.toNat ≤ s.word.fields.holders := by
  have hattempted := attempt_attempted mode backoff s
  generalize attempt mode backoff s = turn at hattempted hfault
  cases hattempted with
  | faulted hmode hfull => exact ⟨hmode, hfull⟩
  | granted | announced => cases hfault

theorem enter_fails {t : ThreadId} (hfault : (enter t mode s).stand = .fault f) :
    mode = .shared ∧ maxSharedHolders.toNat ≤ s.word.fields.holders := by
  rcases enter_cases t mode s with heq | ⟨-, heq⟩ <;> rw [heq] at hfault
  · cases hfault
  · obtain ⟨hmode, hfull⟩ := attempt_fails hfault
    rw [State.counted_word] at hfull
    exact ⟨hmode, hfull⟩

theorem resume_fails {t : ThreadId} {pc : Pc} (hserves : pc.Serves (.acquire mode))
    (hfault : (resume t pc s).stand = .fault f) :
    mode = .shared ∧ maxSharedHolders.toNat ≤ s.word.fields.holders := by
  cases pc with
  | contended mode' | entering mode' =>
    cases hserves
    exact enter_fails hfault
  | waiting mode' stage backoff =>
    cases hserves
    by_cases hstage : stage = .woken
    · subst hstage
      exact attempt_fails hfault
    · obtain ⟨w, -, heq⟩ := resume_waiting t mode backoff s hstage
      rw [heq] at hfault
      cases hfault
  | notifying | notified | retrying | yielding =>
    obtain ⟨mode', hop⟩ := hserves
    cases hop

theorem machine_restsClean : machine.RestsClean State.word where
  body _ := rfl
  clean hreach hquiet mode := by
    -- The bit of a group is set iff its count of pending callers is not zero.
    have htells : TellsGroup mode _ := reachable_tellsGroup (fun _ hroom _ => hroom) hreach
    have hnone := htells.pending.zero_iff.mpr fun t => by simp [hquiet t]
    rw [htells.bit, hnone]
    rfl
  answers := start_of_shows
  startFails := start_fails
  resumeFails := resume_fails

end Blocking

/-! ## The polling lock -/

namespace Polling

variable {s : State} {h next : Holding} {op : Operation} {answer : Answer} {mode : Mode}
  {f : Fault} {c c' : Crowd State Pc}

theorem shows_taken : taken.Shows { unique := true } := by
  unfold Word.Shows
  decide

theorem start_of_shows (hw : s.word.Shows h)
    (hroom : op.acquires? = some .shared → h.shared < maxSharedHolders.toNat)
    (hnext : h.next? op = some (answer, next)) :
    (start op s).stand = .done answer ∧ (start op s).state.word.Shows next := by
  have htaken : h.isFree = true → taken.Shows { h with unique := true } := by
    intro hfree
    simp only [Holding.isFree, Bool.and_eq_true, beq_iff_eq] at hfree
    rw [hfree.2]
    exact shows_taken
  have hheld : h.isFree = true → ¬ s.word.held = true := by
    intro hfree
    simp [hw.held_eq, hfree]
  rcases op with mode | mode | mode <;> cases mode <;> simp only [Holding.next?] at hnext <;>
    split at hnext <;> cases hnext
  case acquire.unique.isTrue hfree | tryAcquire.unique.isTrue hfree =>
    simp only [start, attempt, if_neg (hheld hfree)]
    exact ⟨trivial, htaken hfree⟩
  case acquire.shared.isFalse hfree | tryAcquire.shared.isFalse hfree =>
    obtain ⟨w', hok, hw'⟩ := hw.sharedAcquired (Bool.eq_false_iff.mpr hfree) (hroom rfl)
    simp only [start, attempt, hw.blocksShared_eq, if_neg hfree, hok]
    exact ⟨trivial, hw'⟩
  case tryAcquire.unique.isFalse hnotFree =>
    have hheld' : s.word.held = true := by simp [hw.held_eq, hnotFree]
    simp only [start, if_pos hheld']
    exact ⟨trivial, hw⟩
  case tryAcquire.shared.isTrue hlocked =>
    simp only [start, hw.blocksShared_eq, if_pos hlocked]
    exact ⟨trivial, hw⟩
  case release.unique.isTrue hlocked =>
    obtain ⟨w', hok, hw'⟩ := hw.uniqueReleased hlocked
    simp only [start, hok, afterRelease]
    exact ⟨trivial, hw'⟩
  case release.shared.isTrue hpos =>
    obtain ⟨w', hok, hw'⟩ := hw.sharedReleased hpos
    simp only [start, hok, afterRelease]
    exact ⟨trivial, hw'⟩

theorem attempt_fails {backoff : Backoff} (hfault : (attempt mode backoff s).stand = .fault f) :
    mode = .shared ∧ maxSharedHolders.toNat ≤ s.word.fields.holders := by
  cases mode with
  | unique =>
    simp only [attempt] at hfault
    split at hfault <;> cases hfault
  | shared =>
    simp only [attempt] at hfault
    split at hfault
    · cases hfault
    · next hopen =>
      split at hfault
      · cases hfault
      · next herror =>
        exact ⟨rfl, (Word.of_withSharedAcquired_eq_error (Bool.eq_false_iff.mpr hopen) herror).2⟩

theorem resume_fails {pc : Pc} (hserves : pc.Serves (.acquire mode))
    (hfault : (resume pc s).stand = .fault f) :
    mode = .shared ∧ maxSharedHolders.toNat ≤ s.word.fields.holders := by
  cases pc with
  | polling mode' backoff =>
    cases hserves
    simp only [resume] at hfault
    split at hfault
    · cases hfault
    · exact attempt_fails hfault
  | yielding mode' backoff =>
    cases hserves
    exact attempt_fails hfault

/-! A wait bit is a writer's who is still polling, and the other one is never set. -/

/-- The wait bits are those of writers who poll. -/
structure Polls (c : Crowd State Pc) : Prop where
  wanted : c.state.word.fields.uniqueWanted = true →
    ∃ t pc, c.place t = some pc ∧ pc.Serves (.acquire .unique)
  waiting : c.state.word.fields.sharedWaiting = false

/-- What a turn of a thread does to the wait bits. -/
inductive Marks (s s' : State) (before after : Option Pc) : Prop
  | keeps : (∀ mode, s'.word.fields.waits mode = s.word.fields.waits mode) →
      (∀ pc, before = some pc → ¬ pc.Serves (.acquire .unique)) → Marks s s' before after
  /-- The writer goes on polling. -/
  | polls {pc : Pc} : after = some pc → pc.Serves (.acquire .unique) →
      s'.word.fields.sharedWaiting = s.word.fields.sharedWaiting → Marks s s' before after
  | taken : s'.word = taken → Marks s s' before after

theorem Pc.Serves.eq {pc : Pc} {op op' : Operation} (h : pc.Serves op) (h' : pc.Serves op') :
    op = op' := by
  cases pc <;> exact Eq.trans h (Eq.symm h')

theorem attempt_marks (backoff : Backoff) (s : State) {before : Option Pc}
    (hbefore : ∀ pc, before = some pc → pc.Serves (.acquire mode)) :
    Marks s (attempt mode backoff s).state before (attempt mode backoff s).stand.place? := by
  cases mode with
  | unique =>
    simp only [attempt]
    split
    · exact .polls rfl rfl (by simp)
    · exact .taken rfl
  | shared =>
    have hshared : ∀ pc, before = some pc → ¬ pc.Serves (.acquire .unique) :=
      fun pc hpc hserves => absurd ((hbefore pc hpc).eq hserves) (by simp)
    simp only [attempt]
    split
    · exact .keeps (fun _ => rfl) hshared
    · split
      · next w hw => exact .keeps (Word.waits_withSharedAcquired hw) hshared
      · exact .keeps (fun _ => rfl) hshared

theorem start_marks (op : Operation) (s : State) :
    Marks s (start op s).state none (start op s).stand.place? := by
  have hnone : ∀ pc, (none : Option Pc) = some pc → ¬ pc.Serves (.acquire .unique) := by
    rintro _ ⟨⟩
  rcases op with mode | mode | mode
  · exact attempt_marks _ _ (by rintro _ ⟨⟩)
  · cases mode <;> simp only [start] <;> split
    · exact .keeps (fun _ => rfl) hnone
    · exact .taken rfl
    · exact .keeps (fun _ => rfl) hnone
    · split
      · next w hw => exact .keeps (Word.waits_withSharedAcquired hw) hnone
      · exact .keeps (fun _ => rfl) hnone
  · cases mode <;> simp only [start]
    · cases hr : s.word.withUniqueReleased with
      | error f => exact .keeps (fun _ => rfl) hnone
      | ok w => exact .keeps (Word.waits_withUniqueReleased hr) hnone
    · cases hr : s.word.withSharedReleased with
      | error f => exact .keeps (fun _ => rfl) hnone
      | ok w => exact .keeps (Word.waits_withSharedReleased hr) hnone

theorem resume_marks (pc : Pc) (s : State) :
    Marks s (resume pc s).state (some pc) (resume pc s).stand.place? := by
  have hself : ∀ {mode}, pc.Serves (.acquire mode) →
      ∀ pc', some pc = some pc' → pc'.Serves (.acquire mode) := by
    rintro mode hserves pc' ⟨⟩
    exact hserves
  cases pc with
  | polling mode backoff =>
    simp only [resume]
    split
    · cases mode with
      | unique => exact .polls rfl rfl rfl
      | shared =>
        exact .keeps (fun _ => rfl) fun pc hpc hserves =>
          absurd ((hself rfl pc hpc).eq hserves) (by simp)
    · exact attempt_marks _ _ (hself rfl)
  | yielding mode backoff => exact attempt_marks _ _ (hself rfl)

theorem Polls.of_fields {locked : Bool} {holders : Nat}
    (h : c.state.word.fields = ⟨false, locked, false, holders⟩) : Polls c := by
  refine ⟨fun hwanted => ?_, by rw [h]⟩
  rw [h] at hwanted
  cases hwanted

theorem Polls.marks (h : Polls c) {t : ThreadId}
    (hmarks : Marks c.state c'.state (c.place t) (c'.place t))
    (hothers : ∀ u, u ≠ t → c'.place u = c.place u) : Polls c' := by
  cases hmarks with
  | keeps hwaits hbefore =>
    refine ⟨fun hwanted => ?_, (hwaits .shared).trans h.waiting⟩
    obtain ⟨u, pc, hpc, hserves⟩ := h.wanted ((hwaits .unique).symm.trans hwanted)
    have hut : u ≠ t := by
      rintro rfl
      exact hbefore pc hpc hserves
    exact ⟨u, pc, (hothers u hut).trans hpc, hserves⟩
  | polls hafter hserves hwaiting =>
    exact ⟨fun _ => ⟨t, _, hafter, hserves⟩, hwaiting.trans h.waiting⟩
  | taken hword =>
    have hfields : c'.state.word.fields = ⟨false, true, false, 0⟩ := by
      rw [hword]
      exact shows_taken
    exact .of_fields hfields

theorem Polls.step (h : Polls c) (hstep : machine.Step c c') : Polls c' := by
  cases hstep with
  | @start t op hplace _ =>
    refine h.marks (t := t) ?_ fun u hu => Function.update_of_ne hu _ _
    simp only [Crowd.turned, Function.update_self, hplace]
    exact start_marks op c.state
  | @resume t pc op hplace _ _ =>
    refine h.marks (t := t) ?_ fun u hu => Function.update_of_ne hu _ _
    simp only [Crowd.turned, Function.update_self, hplace]
    exact resume_marks pc c.state
  | wake t => exact h

theorem reachable_polls {ok : Crowd State Pc → Prop} (h : machine.Reachable ok c) : Polls c := by
  induction h with
  | start config => exact .of_fields Word.fields_idle
  | step _ _ hstep ih => exact ih.step hstep

theorem machine_restsClean : machine.RestsClean State.word where
  body _ := rfl
  clean hreach hquiet mode := by
    have hpolls := reachable_polls hreach
    cases mode with
    | unique =>
      refine Bool.eq_false_iff.mpr fun hwanted => ?_
      obtain ⟨t, pc, hpc, -⟩ := hpolls.wanted hwanted
      cases (hquiet t).symm.trans hpc
    | shared => exact hpolls.waiting
  answers := start_of_shows
  startFails := attempt_fails
  resumeFails := resume_fails

end Polling

end ReaderWriter
