import ReaderWriter.Proofs.BlockingGroups
import ReaderWriter.Proofs.ReadMostly.Acts

/-!
# Configurations

A lock waits as it was told to when it was made: no turn, and nothing else that happens to a run,
changes the terms on which it does.

* `Turned.terms`: a job of a thread leaves the terms of its lock alone.
* `Run.terms_after`: so does everything that happens.
-/

namespace ReaderWriter

/-! ## Turns -/

namespace Blocking

variable {t : ThreadId} {mode : Mode} {s : State}

@[simp]
theorem terms_withGroup (s : State) (mode : Mode) (g : Group) :
    (s.withGroup mode g).terms = s.terms := by
  cases mode <;> rfl

theorem terms_attempt (mode : Mode) (backoff : Backoff) (s : State) :
    (attempt mode backoff s).state.terms = s.terms := by
  unfold attempt
  dsimp only
  split
  · split <;> exact terms_withGroup _ _ _
  · rfl

theorem terms_notifyFor (w : Word) (s : State) : (notifyFor w s).state.terms = s.terms := by
  unfold notifyFor
  repeat' split
  all_goals rfl

theorem terms_recheck (s : State) : (recheck s).state.terms = s.terms := by
  unfold recheck
  split <;> rfl

theorem terms_start (op : Operation) (s : State) : (start op s).state.terms = s.terms := by
  have hrelease : ∀ released, (afterRelease s released).state.terms = s.terms := by
    intro released
    cases released with
    | error f => rfl
    | ok w =>
      simp only [afterRelease]
      split
      · exact terms_notifyFor w _
      · rfl
  rcases op with (_ | _) | (_ | _) | (_ | _) <;> simp only [start]
  · split <;> rfl
  · split
    · rfl
    · split <;> rfl
  · split <;> rfl
  · split
    · rfl
    · split <;> rfl
  · exact hrelease _
  · exact hrelease _

theorem terms_resume (t : ThreadId) (pc : Pc) (s : State) :
    (resume t pc s).state.terms = s.terms := by
  have henter : ∀ mode, (enter t mode s).state.terms = s.terms := by
    intro mode
    rcases enter_cases t mode s with heq | ⟨-, heq⟩ <;> rw [heq]
    exact (terms_attempt _ _ _).trans (terms_withGroup _ _ _)
  cases pc with
  | contended mode | entering mode => exact henter mode
  | waiting mode stage backoff =>
    cases stage with
    | woken => exact terms_attempt mode backoff s
    | announced | parking | parked | snoozing | resumed => exact terms_withGroup _ _ _
  | notifying mode =>
    simp only [resume]
    split
    · exact terms_withGroup _ _ _
    · exact terms_recheck s
  | notified mode woken => exact (terms_recheck _).trans (terms_withGroup _ _ _)
  | retrying => rfl
  | yielding =>
    simp only [resume]
    split
    · exact terms_notifyFor _ s
    · rfl

end Blocking

namespace Polling

theorem config_attempt (mode : Mode) (backoff : Backoff) (s : State) :
    (attempt mode backoff s).state.config = s.config := by
  cases mode <;> simp only [attempt] <;> split
  · rfl
  · rfl
  · rfl
  · split <;> rfl

theorem config_start (op : Operation) (s : State) : (start op s).state.config = s.config := by
  have hrelease : ∀ released, (afterRelease s released).state.config = s.config := by
    intro released
    cases released <;> rfl
  rcases op with mode | (_ | _) | (_ | _) <;> simp only [start]
  · exact config_attempt _ _ _
  · split <;> rfl
  · split
    · rfl
    · split <;> rfl
  · exact hrelease _
  · exact hrelease _

theorem config_resume (pc : Pc) (s : State) : (resume pc s).state.config = s.config := by
  cases pc with
  | polling mode backoff =>
    simp only [resume]
    split
    · rfl
    · exact config_attempt _ _ _
  | yielding mode backoff => exact config_attempt _ _ _

end Polling

theorem ReadMostly.Transition.terms {sc : Scene} {s s' : Site} {job : Job} {stand : Stand Pc}
    {gain : Option Mode} (h : Transition sc s job s' stand gain) :
    s'.lock.terms = s.lock.terms := by
  cases h with
  | look _ _ _ hlook | lookAgain hlook => cases hlook <;> rfl
  | _ => rfl

/-! ## Events -/

section

variable {r r' : Run} {e : Event} {t : ThreadId} {m : Nat} {l : Lock} {job : Job}

/-- A job leaves the terms of its lock alone. -/
theorem Turned.terms (h : Turned r r' t m l job)
    (hjob : (∃ op, job.Serves op) ∨ job.Departs) :
    ∃ l', r'.world.locks[m]? = some l' ∧ l'.terms = l.terms := by
  cases hs : l.body with
  | blocking s =>
    refine ⟨_, h.lock_blocking hs, ?_⟩
    rw [Lock.terms, Lock.terms, hs]
    cases job with
    | start op => exact Blocking.terms_start op s
    | resume p =>
      cases p with
      | blocking pc => exact Blocking.terms_resume t pc s
      | polling | readMostly => rfl
    | depart f => rfl
  | polling s =>
    refine ⟨_, h.lock_polling hs, ?_⟩
    rw [Lock.terms, Lock.terms, hs]
    cases job with
    | start op => exact Polling.config_start op s
    | resume p =>
      cases p with
      | polling pc => exact Polling.config_resume pc s
      | blocking | readMostly => rfl
    | depart f => rfl
  | readMostly s =>
    obtain ⟨⟨l', hl', hs'⟩, -⟩ := h.onReadMostly hs rfl
    have hsuits := h.suits
    rw [hs] at hsuits
    refine ⟨l', hl', ?_⟩
    rw [Lock.terms, Lock.terms, hs, hs']
    rcases hjob with ⟨op, hserves⟩ | hdeparts
    · exact (ReadMostly.onReadMostly_transition hserves hsuits).terms
    · exact (ReadMostly.onReadMostly_transition_of_departs hdeparts).terms

/-- A lock keeps its terms. -/
theorem Run.terms_of_move (h : Move r e r') (hl : r.world.locks[m]? = some l) :
    ∃ l', r'.world.locks[m]? = some l' ∧ l'.terms = l.terms := by
  have hturned : ∀ {t n l' job}, Turned r r' t n l' job →
      (∃ op, job.Serves op) ∨ job.Departs →
      ∃ l', r'.world.locks[m]? = some l' ∧ l'.terms = l.terms := by
    intro t n l' job h hjob
    by_cases hn : m = n
    · subst hn
      cases hl.symm.trans h.lock
      exact h.terms hjob
    · exact ⟨l, (h.lock_of_ne hn).trans hl, rfl⟩
  cases h with
  | operate h => exact hturned h.toTurned (.inl ⟨_, h.serves⟩)
  | depart h => exact hturned h.toTurned (.inr h.departs)
  | shift h => exact ⟨l, h.locks ▸ hl, rfl⟩
  | drop h =>
    obtain ⟨_, hl'⟩ := h.exists_lock hl
    exact ⟨_, hl', rfl⟩
  | @wake t h =>
    refine ⟨World.wakeIn t l, by rw [h.locks, List.getElem?_map, hl]; rfl, ?_⟩
    unfold World.wakeIn
    split <;> simp [Lock.terms, Blocking.wake, Blocking.State.terms, ReadMostly.wake,
      ReadMostly.State.terms, *]
  | make h =>
    have hlt : m < r.world.locks.length := (List.getElem?_eq_some_iff.mp hl).1
    exact ⟨l, by rw [h.locks, World.addLock, List.getElem?_append_left hlt, hl], rfl⟩
  | rest h => exact ⟨l, h.locks ▸ hl, rfl⟩

/-- Whatever happens, a lock keeps its terms. -/
theorem Run.terms_after (ho : r.Orderly) (hp : r.world.Permits e)
    (hl : r.world.locks[m]? = some l) :
    ∃ l', (r.after e).world.locks[m]? = some l' ∧ l'.terms = l.terms := by
  obtain ⟨⟨r₁, hmove, hrest⟩, -⟩ := after_moves ho hp
  obtain ⟨l₁, hl₁, hterms⟩ := terms_of_move hmove hl
  rcases hrest with ⟨heq, -⟩ | ⟨n, -, hdis⟩
  · exact heq ▸ ⟨l₁, hl₁, hterms⟩
  · rcases hdis.lock_cases hl₁ with hl₂ | ⟨-, s, hs, hl₂⟩
    · exact ⟨l₁, hl₂, hterms⟩
    · refine ⟨_, hl₂, ?_⟩
      rw [← hterms, Lock.terms, Lock.terms, hs]
      rfl

end

end ReaderWriter
