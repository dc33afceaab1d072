import ReaderWriter.Proofs.Crowds
import ReaderWriter.Proofs.Fields

/-!
# The word counts the holders

Blocking and polling locks keep their holders in a control word. A turn takes the lock in one mode,
gives it up in one mode, or leaves both the lock bit and the number of shared holders as they were;
the wait bits may change in any case. So the word always says how often the lock is held.

* `Word.Takes`: what a turn does to the holders in the word.
* `Machine.CountsHolders`: what every turn of a lock with a control word does.
* `Machine.Reachable.counts`: the word of a crowd says how often the lock is held.
-/

namespace ReaderWriter

namespace Word

/-- The word says how often the lock is held, and it is not held in both modes. -/
structure Counts (w : Word) (held : Mode → Nat) : Prop where
  unique : held .unique = w.fields.uniqueLocked.toNat
  shared : held .shared = w.fields.holders
  apart : w.fields.uniqueLocked = true → w.fields.holders = 0

/-- Between the words the lock is taken in this mode, or not at all. -/
def Takes (w w' : Word) : Option Mode → Prop
  | none =>
      w'.fields.uniqueLocked = w.fields.uniqueLocked ∧ w'.fields.holders = w.fields.holders
  | some .unique =>
      w.fields.uniqueLocked = false ∧ w.fields.holders = 0 ∧ w'.fields.uniqueLocked = true ∧
        w'.fields.holders = 0
  | some .shared =>
      w.fields.uniqueLocked = false ∧ w'.fields.uniqueLocked = false ∧
        w'.fields.holders = w.fields.holders + 1

/-- Between the words the lock is given up in this mode, if the first one says that it is held. -/
def Gives (w w' : Word) : Mode → Prop
  | .unique =>
      w.fields.uniqueLocked = true →
        w'.fields.uniqueLocked = false ∧ w'.fields.holders = w.fields.holders
  | .shared =>
      0 < w.fields.holders →
        w'.fields.uniqueLocked = w.fields.uniqueLocked ∧
          w'.fields.holders = w.fields.holders - 1

variable {w w' : Word} {held : Mode → Nat}

theorem Takes.refl (w : Word) : w.Takes w none := ⟨rfl, rfl⟩

theorem Counts.takes {Pc : Type} (h : w.Counts held) {op : Operation} {stand : Stand Pc}
    (ht : w.Takes w' (Hold.granted? op stand)) : w'.Counts (Crowd.settled held op stand) := by
  unfold Crowd.settled
  generalize Hold.granted? op stand = granted at ht
  rcases granted with _ | _ | _
  · obtain ⟨hlocked, hholders⟩ := ht
    refine ⟨by simp [h.unique, hlocked], by simp [h.shared, hholders], ?_⟩
    rw [hlocked, hholders]
    exact h.apart
  · obtain ⟨hfree, hnone, hlocked, hholders⟩ := ht
    have hunique := h.unique
    have hshared := h.shared
    rw [hfree] at hunique
    rw [hnone] at hshared
    exact ⟨by simp [hunique, hlocked], by simp [hshared, hholders], fun _ => hholders⟩
  · obtain ⟨hfree, hfree', hholders⟩ := ht
    have hunique := h.unique
    rw [hfree] at hunique
    refine ⟨by simp [hunique, hfree'], by simp [h.shared, hholders], fun hlocked => ?_⟩
    rw [hfree'] at hlocked
    cases hlocked

theorem Counts.gives (h : w.Counts held) {mode : Mode} (hpos : 0 < held mode)
    (hg : w.Gives w' mode) : w'.Counts (Crowd.begun held (.release mode)) := by
  cases mode with
  | unique =>
    rw [h.unique] at hpos
    have hlocked : w.fields.uniqueLocked = true := by
      cases hl : w.fields.uniqueLocked with
      | true => rfl
      | false => simp [hl] at hpos
    obtain ⟨hfree, hholders⟩ := hg hlocked
    have hunique := h.unique
    rw [hlocked] at hunique
    refine ⟨by simp [Crowd.begun, hunique, hfree], by simp [Crowd.begun, h.shared, hholders], ?_⟩
    intro hlocked'
    rw [hfree] at hlocked'
    cases hlocked'
  | shared =>
    rw [h.shared] at hpos
    obtain ⟨hlocked, hholders⟩ := hg hpos
    refine ⟨by simp [Crowd.begun, h.unique, hlocked], by simp [Crowd.begun, h.shared, hholders], ?_⟩
    intro hlocked'
    rw [hlocked] at hlocked'
    have hnone := h.apart hlocked'
    omega

/-! ## Updates of the word -/

theorem takes_announce (w : Word) (mode : Mode) : w.Takes (Blocking.announce w mode) none := by
  cases mode <;> simp [Takes, Blocking.announce]

theorem takes_withUniqueWait (w : Word) : w.Takes w.withUniqueWait none := by simp [Takes]

theorem takes_withUniqueLock (h : w.held = false) : w.Takes w.withUniqueLock (some .unique) := by
  rw [held_eq] at h
  simp only [Bool.or_eq_false_iff, decide_eq_false_iff_not, not_not] at h
  simp [Takes, h.1, h.2]

theorem takes_withSharedAcquired (h : w.withSharedAcquired = .ok w') :
    w.Takes w' (some .shared) := by
  obtain ⟨hfree, -, hfields⟩ := fields_of_withSharedAcquired h
  simp [Takes, hfields, hfree]

theorem held_idle : idle.held = false := by decide

/-- A caller of the slow path that is let in takes the lock. -/
theorem takes_grantWaiter {mode : Mode} {last : Bool} (hadmits : Blocking.admits w mode = true)
    (h : Blocking.grantWaiter w mode last = .ok w') : w.Takes w' (some mode) := by
  have hwait : ∀ {v : Word}, w.Takes v (some mode) →
      w.Takes (if last then Blocking.silence v mode else Blocking.announce v mode) (some mode) := by
    intro v hv
    cases mode <;> cases last <;>
      simpa [Takes, Blocking.silence, Blocking.announce] using hv
  cases mode with
  | unique =>
    have hheld : w.held = false := by simpa [Blocking.admits] using hadmits
    simp only [Blocking.grantWaiter, Blocking.grant, Except.map, Except.ok.injEq] at h
    rw [← h]
    exact hwait (takes_withUniqueLock hheld)
  | shared =>
    simp only [Blocking.grantWaiter, Blocking.grant] at h
    cases hacq : w.withSharedAcquired with
    | error f =>
      rw [hacq] at h
      cases h
    | ok v =>
      rw [hacq] at h
      simp only [Except.map, Except.ok.injEq] at h
      rw [← h]
      exact hwait (takes_withSharedAcquired hacq)

end Word

/-! ## Locks with a control word -/

/-- The control word of a lock that has one. -/
def Body.word? : Body → Option Word
  | .blocking s => some s.word
  | .polling s => some s.word
  | .readMostly _ => none

/-- Whatever a turn does, the control word takes in what the lock has been granted or given up. -/
structure Machine.CountsHolders {State Pc : Type} (M : Machine State Pc) (word : State → Word) :
    Prop where
  initial : ∀ host config, word (M.initial host config) = .idle
  /-- An acquisition takes the lock iff it ends with it. -/
  acquires : ∀ (op : Operation) (s : State), op.releases? = none →
    (word s).Takes (word (M.start op s).state) (Hold.granted? op (M.start op s).stand)
  resumes : ∀ (op : Operation) (pc : Pc) (t : ThreadId) (s : State), M.Serves op pc →
    (word s).Takes (word (M.resume t pc s).state) (Hold.granted? op (M.resume t pc s).stand)
  releases : ∀ (mode : Mode) (s : State),
    (word s).Gives (word (M.start (.release mode) s).state) mode
  wakes : ∀ (t : ThreadId) (s : State), word (M.wake t s) = word s

/-- The word of a crowd says how often the lock is held, whatever has happened. -/
theorem Machine.Reachable.counts {State Pc : Type} {M : Machine State Pc} {word : State → Word}
    (hM : M.CountsHolders word) {ok : Crowd State Pc → Prop} {c : Crowd State Pc}
    (h : M.Reachable ok c) : (word c.state).Counts c.held := by
  induction h with
  | start =>
    simp only [newCrowd, hM.initial]
    exact ⟨rfl, rfl, fun _ => rfl⟩
  | step _ _ hstep ih =>
    cases hstep with
    | @start t op hplace hpos =>
      cases op with
      | acquire mode | tryAcquire mode => exact ih.takes (hM.acquires _ _ rfl)
      | release mode =>
        have hgiven := ih.gives (hpos mode rfl) (hM.releases mode _)
        simp only [Crowd.turned, Crowd.settled, Hold.granted?_release]
        exact hgiven
    | @resume t pc op hplace hserves hfree =>
      exact ih.takes (hM.resumes op pc t _ hserves)
    | wake t =>
      simp only [hM.wakes]
      exact ih

/-! ## The blocking lock -/

namespace Blocking

@[simp]
theorem word_withGroup (s : State) (mode : Mode) (g : Group) :
    (s.withGroup mode g).word = s.word := by
  cases mode <;> rfl

@[simp]
theorem notifyFor_state (w : Word) (s : State) : (notifyFor w s).state = s := by
  unfold notifyFor
  repeat' split
  all_goals rfl

@[simp]
theorem recheck_state (s : State) : (recheck s).state = s := by
  unfold recheck
  split <;> rfl

@[simp]
theorem afterRelease_state (s : State) (w : Word) :
    (afterRelease s (.ok w)).state = { s with word := w } := by
  simp only [afterRelease]
  split
  · exact notifyFor_state _ _
  · rfl

theorem attempt_takes (mode : Mode) (backoff : Backoff) (s : State) :
    s.word.Takes (attempt mode backoff s).state.word
      (Hold.granted? (.acquire mode) (attempt mode backoff s).stand) := by
  unfold attempt
  dsimp only
  split
  · next hadmits =>
    split
    · next w hw =>
      rw [word_withGroup]
      exact Word.takes_grantWaiter hadmits hw
    · rw [word_withGroup]
      exact .refl _
  · exact Word.takes_announce _ mode

theorem enter_takes (t : ThreadId) (mode : Mode) (s : State) :
    s.word.Takes (enter t mode s).state.word
      (Hold.granted? (.acquire mode) (enter t mode s).stand) := by
  unfold enter
  dsimp only
  split
  · exact .refl _
  · have h := attempt_takes mode (.ofConfig s.config)
      (s.withGroup mode { s.group mode with gate := some t, pending := (s.group mode).pending + 1 })
    rwa [word_withGroup] at h

theorem start_takes (op : Operation) (s : State) (hop : op.releases? = none) :
    s.word.Takes (start op s).state.word (Hold.granted? op (start op s).stand) := by
  have hidle : s.word = .idle → s.word.Takes s.word.withUniqueLock (some .unique) := fun h =>
    Word.takes_withUniqueLock (by rw [h]; exact Word.held_idle)
  rcases op with (_ | _) | (_ | _) | mode
  · simp only [start]
    split
    · next h => exact hidle h
    · exact .refl _
  · simp only [start]
    split
    · exact .refl _
    · split
      · next w hw => exact Word.takes_withSharedAcquired hw
      · exact .refl _
  · simp only [start]
    split
    · next h => exact hidle h
    · exact .refl _
  · simp only [start]
    split
    · exact .refl _
    · split
      · next w hw => exact Word.takes_withSharedAcquired hw
      · exact .refl _
  · cases hop

theorem resume_takes {op : Operation} {pc : Pc} (h : pc.Serves op) (t : ThreadId) (s : State) :
    s.word.Takes (resume t pc s).state.word (Hold.granted? op (resume t pc s).stand) := by
  have hrelease : ∀ {mode : Mode} {stand : Stand Pc} {w : Word}, w = s.word →
      s.word.Takes w (Hold.granted? (.release mode) stand) := by
    intro mode stand w hw
    rw [hw, Hold.granted?_release]
    exact .refl _
  cases pc with
  | contended mode =>
    cases h
    exact enter_takes t mode s
  | entering mode =>
    cases h
    exact enter_takes t mode s
  | waiting mode stage backoff =>
    cases h
    cases stage with
    | woken => exact attempt_takes mode backoff s
    | announced | parking | parked | snoozing | resumed =>
      simp only [resume, word_withGroup]
      exact .refl _
  | notifying mode =>
    obtain ⟨mode', rfl⟩ := h
    apply hrelease
    simp only [resume]
    split <;> simp
  | notified mode woken =>
    obtain ⟨mode', rfl⟩ := h
    apply hrelease
    simp [resume]
  | retrying =>
    obtain ⟨mode', rfl⟩ := h
    exact hrelease rfl
  | yielding =>
    obtain ⟨mode', rfl⟩ := h
    apply hrelease
    simp only [resume]
    split <;> simp

theorem start_gives (mode : Mode) (s : State) :
    s.word.Gives (start (.release mode) s).state.word mode := by
  cases mode with
  | unique =>
    intro hlocked
    simp only [start, Word.withUniqueReleased_eq_ok hlocked, afterRelease_state]
    simp
  | shared =>
    intro hpos
    obtain ⟨w, hw, hfields⟩ := Word.withSharedReleased_eq_ok hpos
    simp only [start, hw, afterRelease_state]
    simp [hfields]

theorem machine_countsHolders : machine.CountsHolders State.word where
  initial _ _ := rfl
  acquires := start_takes
  resumes _ _ t s h := resume_takes h t s
  releases := start_gives
  wakes _ _ := rfl

end Blocking

/-! ## The polling lock -/

namespace Polling

theorem takes_taken {w : Word} (h : w.held = false) : w.Takes taken (some .unique) := by
  have hfree := Word.takes_withUniqueLock h
  have hidle := Word.takes_withUniqueLock Word.held_idle
  exact ⟨hfree.1, hfree.2.1, hidle.2.2⟩

theorem attempt_takes (mode : Mode) (backoff : Backoff) (s : State) :
    s.word.Takes (attempt mode backoff s).state.word
      (Hold.granted? (.acquire mode) (attempt mode backoff s).stand) := by
  cases mode <;> simp only [attempt]
  · split
    · exact Word.takes_withUniqueWait _
    · next h => exact takes_taken (by simpa using h)
  · split
    · exact .refl _
    · split
      · next w hw => exact Word.takes_withSharedAcquired hw
      · exact .refl _

theorem start_takes (op : Operation) (s : State) (hop : op.releases? = none) :
    s.word.Takes (start op s).state.word (Hold.granted? op (start op s).stand) := by
  rcases op with mode | (_ | _) | mode
  · exact attempt_takes mode _ s
  · simp only [start]
    split
    · exact .refl _
    · next h => exact takes_taken (by simpa using h)
  · simp only [start]
    split
    · exact .refl _
    · split
      · next w hw => exact Word.takes_withSharedAcquired hw
      · exact .refl _
  · cases hop

theorem resume_takes {op : Operation} {pc : Pc} (h : pc.Serves op) (s : State) :
    s.word.Takes (resume pc s).state.word (Hold.granted? op (resume pc s).stand) := by
  cases pc with
  | polling mode backoff =>
    cases h
    simp only [resume]
    split
    · exact .refl _
    · exact attempt_takes mode _ s
  | yielding mode backoff =>
    cases h
    exact attempt_takes mode backoff s

theorem start_gives (mode : Mode) (s : State) :
    s.word.Gives (start (.release mode) s).state.word mode := by
  cases mode with
  | unique =>
    intro hlocked
    simp [start, Word.withUniqueReleased_eq_ok hlocked, afterRelease]
  | shared =>
    intro hpos
    obtain ⟨w, hw, hfields⟩ := Word.withSharedReleased_eq_ok hpos
    simp [start, hw, hfields, afterRelease]

theorem machine_countsHolders : machine.CountsHolders State.word where
  initial _ _ := rfl
  acquires := start_takes
  resumes _ _ _ s h := resume_takes h s
  releases := start_gives
  wakes _ _ := rfl

end Polling

end ReaderWriter
