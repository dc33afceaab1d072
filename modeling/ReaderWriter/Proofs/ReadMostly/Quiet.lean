import ReaderWriter.Proofs.ClaimAndFlags
import ReaderWriter.Proofs.ReadMostly.Walks

/-!
# A read-mostly lock to which nobody is under way

When every thread that has been on a lock has left it again, the lock shows who holds it and nothing
else is left behind.

* `Pc.tells?`, `Transition.marks`: the mark of a notification is that of a thread in the middle of
  it.
* `Crowd.Reachable.shows`: in a crowd in which nobody is on the lock, the claim is that of a holder
  or `no`, the gate is a holder's, and the flags that are up are those of the holders.
-/

namespace ReaderWriter

namespace ReadMostly

/-! ## Notifications under way -/

/-- The signal of the queue in which callers of a mode wait. -/
def State.signal (s : State) : Mode → Signal
  | .unique => s.drained
  | .shared => s.reopened

/-- The mode whose callers the thread is notifying. -/
def Pc.tells? : Pc → Option Mode
  | .reopening _ (.inside _) => some .shared
  | .passingOn _ (.inside _) | .prodding _ _ (.inside _)
    | .handingOff _ (.prodding (.inside _)) _ => some .unique
  | _ => none

/-- What becomes of the mark that somebody is notifying the callers of a mode. -/
inductive Marks (mode : Mode) (signal signal' : Signal) (job : Job) (stand : Stand Pc) : Prop
  | keeps : signal'.notifying = signal.notifying → job.pc?.bind Pc.tells? ≠ some mode →
      Marks mode signal signal' job stand
  | sets : stand.place?.bind Pc.tells? = some mode → Marks mode signal signal' job stand
  | clears : signal'.notifying = false → Marks mode signal signal' job stand

variable {sc : Scene} {s s' : Site} {job : Job} {stand : Stand Pc} {gain : Option Mode}

theorem Enters.tells?_eq (h : Enters job) : job.pc?.bind Pc.tells? = none := by
  cases h <;> rfl

theorem Asks.tells?_eq {p : Patience} (h : Asks job p) : job.pc?.bind Pc.tells? = none := by
  rw [h.pc?_eq]
  rfl

theorem Arrives.tells?_eq {pc : Pc} {f : Flag} (h : Arrives pc f) : pc.tells? = none := by
  cases h <;> rfl

theorem Untold.tells?_eq {n : Notice.Stage} (h : Untold n) (why : Reopening) :
    (Pc.reopening why n).tells? = none := by
  cases h <;> rfl

theorem Notifies.tells?_eq {pc : Pc} {place : Notice.Stage → Pc} (h : Notifies pc place) :
    pc.tells? = none := by
  cases h with
  | passingOn why hn | prodding f b hn | handingOff why b hn => cases hn <;> rfl

theorem goes_notifying {t : ThreadId} {gate gate' : Gate} {signal signal' : Signal}
    {stage stage' : Wait.Stage} (h : Wait.Goes t gate signal stage gate' signal' stage') :
    signal'.notifying = signal.notifying := by
  cases h <;> rfl

theorem Landing.tells?_eq {f : Flag} {p : Patience} {c : Claim}
    (h : Landing f p c stand gain) : stand.place?.bind Pc.tells? = none := by
  cases h <;> rfl

theorem Look.tells?_eq {f : Flag} {b : Backoff} (h : Look f b s s' stand gain) :
    stand.place?.bind Pc.tells? = none := by
  cases h <;> rfl

/-- A transition sets the mark as its thread begins to notify, which nobody else does then, and
clears it as its thread comes out of the notification. -/
theorem Transition.recounts (h : Transition sc s job s' stand gain) (mode : Mode) :
    Recounts (s.lock.signal mode).notifying.toNat (s'.lock.signal mode).notifying.toNat
      (job.pc?.bind Pc.tells? = some mode) (stand.place?.bind Pc.tells? = some mode) := by
  have hkeeps : s'.lock.drained.notifying = s.lock.drained.notifying →
      s'.lock.reopened.notifying = s.lock.reopened.notifying →
      job.pc?.bind Pc.tells? ≠ some mode → stand.place?.bind Pc.tells? ≠ some mode →
      Recounts (s.lock.signal mode).notifying.toNat (s'.lock.signal mode).notifying.toNat
        (job.pc?.bind Pc.tells? = some mode) (stand.place?.bind Pc.tells? = some mode) := by
    intro hdrained hreopened hjob hstand
    refine .keeps ?_ (iff_of_false hstand hjob)
    cases mode with
    | unique => exact congrArg Bool.toNat hdrained
    | shared => exact congrArg Bool.toNat hreopened
  have hle : ∀ b : Bool, 0 = b.toNat - 1 := by decide
  cases h with
  | queue henters | claim b henters =>
    exact hkeeps rfl rfl (by simp [henters.tells?_eq]) (by simp [Stand.place?, Pc.tells?])
  | drainOn told b b' hgoes =>
    exact hkeeps (goes_notifying hgoes) rfl (by simp [Job.pc?, Pc.tells?])
      (by simp [Stand.place?, Pc.tells?])
  | tellReaders why woken hn hfree =>
    cases mode with
    | shared =>
      have hmark : true.toNat = s.lock.reopened.notifying.toNat + 1 := by
        rw [hfree]
        rfl
      exact .enters hmark (by simp [Job.pc?, hn.tells?_eq]) rfl
    | unique =>
      exact .keeps rfl (iff_of_false (by simp [Stand.place?, Pc.tells?])
        (by simp [Job.pc?, hn.tells?_eq]))
  | tellReadersLater why hn =>
    exact hkeeps rfl rfl (by simp [Job.pc?, hn.tells?_eq]) (by simp [Stand.place?, Pc.tells?])
  | readersTold why woken =>
    cases mode with
    | shared => exact .leaves (hle _) rfl (by simp [Stand.place?, Pc.tells?])
    | unique => exact .keeps rfl (by simp [Job.pc?, Stand.place?, Pc.tells?])
  | passedOn | passedOnRefused | prodded | lookOn | lookLater | served =>
    cases mode with
    | unique => exact .leaves (hle _) rfl (by simp [Stand.place?, Pc.tells?])
    | shared => exact .keeps rfl (by simp [Job.pc?, Stand.place?, Pc.tells?])
  | arrive hasks _ hlands =>
    exact hkeeps rfl rfl (by simp [hasks.tells?_eq]) (by simp [hlands.tells?_eq])
  | register hasks | registerLater hasks | registerNever hasks | noFlag _ hasks =>
    exact hkeeps rfl rfl (by simp [hasks.tells?_eq]) (by simp [Stand.place?, Pc.tells?])
  | noNodes hasks _ hgone =>
    exact hkeeps rfl rfl (by simp [hasks.tells?_eq]) (by simp [hgone])
  | enlisted hlands =>
    exact hkeeps rfl rfl (by simp [Job.pc?, Pc.tells?]) (by simp [hlands.tells?_eq])
  | arriveLater harrives =>
    exact hkeeps rfl rfl (by simp [Job.pc?, harrives.tells?_eq]) (by simp [Stand.place?, Pc.tells?])
  | look b harrives _ hl =>
    refine hkeeps ?_ ?_ (by simp [Job.pc?, harrives.tells?_eq]) (by simp [hl.tells?_eq])
    · rw [hl.lock_eq.1]
      rfl
    · rw [hl.lock_eq.2.1]
      rfl
  | lookAgain hl =>
    refine hkeeps ?_ ?_ (by simp [Job.pc?, Pc.tells?]) (by simp [hl.tells?_eq])
    · rw [hl.lock_eq.1]
      rfl
    · rw [hl.lock_eq.2.1]
      rfl
  | waitOn f b b' hgoes =>
    exact hkeeps rfl (goes_notifying hgoes) (by simp [Job.pc?, Pc.tells?])
      (by simp [Stand.place?, Pc.tells?])
  | notify woken hnotifies hfree =>
    cases mode with
    | unique =>
      have hmark : true.toNat = s.lock.drained.notifying.toNat + 1 := by
        rw [hfree]
        rfl
      exact .enters hmark (by simp [Job.pc?, hnotifies.tells?_eq]) (by cases hnotifies <;> rfl)
    | shared =>
      exact .keeps rfl (iff_of_false (by cases hnotifies <;> simp [Stand.place?, Pc.tells?])
        (by simp [Job.pc?, hnotifies.tells?_eq]))
  | notifyLater hnotifies =>
    exact hkeeps rfl rfl (by simp [Job.pc?, hnotifies.tells?_eq])
      (by cases hnotifies <;> simp [Stand.place?, Pc.tells?])
  | read h | readLater h | write h | writeLater h | await h =>
    exact hkeeps rfl rfl (by cases h <;> simp [Job.pc?, Pc.tells?])
      (by cases h <;> simp [Stand.place?, Pc.tells?])
  | _ => exact hkeeps rfl rfl (by simp [Job.pc?, Pc.tells?]) (by simp [Stand.place?, Pc.tells?])

/-- What becomes of the mark in a transition. -/
theorem Transition.marks (h : Transition sc s job s' stand gain) (mode : Mode) :
    Marks mode (s.lock.signal mode) (s'.lock.signal mode) job stand := by
  cases h.recounts mode with
  | keeps heq hsame =>
    by_cases hstand : stand.place?.bind Pc.tells? = some mode
    · exact .sets hstand
    · have hinj : ∀ b b' : Bool, b.toNat = b'.toNat → b = b' := by decide
      exact .keeps (hinj _ _ heq) (mt hsame.mpr hstand)
  | enters _ _ hstand => exact .sets hstand
  | leaves heq =>
    refine .clears ?_
    have hle := Bool.toNat_le (s.lock.signal mode).notifying
    exact Bool.toNat_eq_zero.mp (by omega)

namespace Crowd

variable {c c' : Crowd} {t : ThreadId} {f : Flag}

/-- The mark that somebody is notifying the callers of a mode is that of a thread in the middle of
it. -/
def Marked (c : Crowd) : Prop :=
  ∀ mode, (c.lock.signal mode).notifying = true → ∃ t, (c.place t).bind Pc.tells? = some mode

theorem Marked.of_acts (h : c.Marked) (hacts : Acts c c' t job stand gain) : c'.Marked := by
  intro mode hmark
  obtain ⟨sc, locals, locals', -, -, htable⟩ := hacts.table
  cases htable.marks mode with
  | keeps heq hjob =>
    obtain ⟨u, hu⟩ := h mode (heq.symm.trans hmark)
    have hut : u ≠ t := by
      rintro rfl
      rw [hacts.place] at hu
      exact hjob hu
    exact ⟨u, by rwa [hacts.places u hut]⟩
  | sets hstand => exact ⟨t, by rwa [hacts.place']⟩
  | clears hclear =>
    rw [hclear] at hmark
    cases hmark

theorem Marked.of_step (h : c.Marked) (hstep : Step c c') : c'.Marked := by
  cases hstep with
  | call hacts | depart hacts => exact h.of_acts hacts
  | stir hlock _ hplace =>
    unfold Marked
    rwa [hlock, hplace]
  | wake t heq =>
    subst heq
    intro mode hmark
    exact h mode (by cases mode <;> exact hmark)

theorem Reachable.marked (h : Reachable c) : c.Marked := by
  induction h with
  | start hnew =>
    obtain ⟨id, supply, config, host, hlock⟩ := hnew.lock
    intro mode hmark
    rw [hlock] at hmark
    cases mode <;> cases hmark
  | step _ _ _ hstep ih => exact ih.of_step hstep

/-! ## Nobody under way -/

/-- Nobody is on the lock. -/
def IsQuiet (c : Crowd) : Prop := ∀ t, c.place t = none

/-- The two fields of the lock. -/
def holding (c : Crowd) : Holding := .of fun mode => (c.held mode).length

theorem unique_iff : c.holding.unique = true ↔ ∃ t, t ∈ c.held .unique := by
  simp only [holding, Holding.of, decide_eq_true_eq, List.length_pos_iff_exists_mem]

theorem IsQuiet.any_eq_false (h : c.IsQuiet) (P : Pc → Bool) (t : ThreadId) :
    ¬ (c.place t).any P = true := by
  rw [h t]
  nofun

theorem IsQuiet.isCalm (h : c.IsQuiet) (ha : c.Attended) (hm : c.Marked) : c.lock.IsCalm where
  writer := ha.writer.eq_none (h.any_eq_false _)
  readers := List.eq_nil_iff_forall_not_mem.mpr fun t ht =>
    h.any_eq_false _ t (ha.readers.2 t ht)
  drained := by
    refine Bool.eq_false_iff.mpr fun hmark => ?_
    obtain ⟨t, ht⟩ := hm .unique hmark
    rw [h t] at ht
    cases ht
  reopened := by
    refine Bool.eq_false_iff.mpr fun hmark => ?_
    obtain ⟨t, ht⟩ := hm .shared hmark
    rw [h t] at ht
    cases ht

/-- The claim is a holder's, or there is none. -/
theorem IsQuiet.claim_eq (h : c.IsQuiet) (hg : c.Guarded) (ha : c.Attended) (hv : c.Vouched) :
    c.lock.claim = if c.holding.unique then .yes else .no := by
  split
  · next htaken =>
    obtain ⟨t, ht⟩ := unique_iff.mp htaken
    exact hg.claimed t ht
  · next hfree =>
    cases hclaim : c.lock.claim with
    | no => rfl
    | want =>
      obtain ⟨t, ht⟩ := ha.wanted hclaim
      exact absurd ht (h.any_eq_false _ t)
    | yes =>
      obtain ⟨t, ht | ⟨answer, ht⟩⟩ := hv hclaim
      · exact absurd (unique_iff.mpr ⟨t, ht⟩) hfree
      · rw [h t] at ht
        cases ht

/-- The gate is with the holder of the unique lock. -/
theorem IsQuiet.gate_eq (h : c.IsQuiet) (hg : c.Guarded) :
    c.lock.gate.isSome = c.holding.unique := by
  rw [Bool.eq_iff_iff, unique_iff, Option.isSome_iff_exists]
  refine exists_congr fun t => ?_
  rw [hg.gate t]
  exact or_iff_right (h.any_eq_false _ t)

/-- A flag is up iff its thread holds a shared lock. -/
theorem IsQuiet.isRaised_iff (h : c.IsQuiet) (hg : c.Guarded) (hf : c.flag t = some f) :
    c.flags.isRaised f = true ↔ t ∈ c.held .shared :=
  (hg.up t f hf).trans (or_iff_left (h.any_eq_false _ t))

/-- All flags are down iff nobody holds a shared lock. -/
theorem IsQuiet.allClear_eq (h : c.IsQuiet) (hg : c.Guarded) (hclear : c.Clear) :
    c.lock.registry.allClear c.flags = (c.holding.shared == 0) := by
  rw [Bool.eq_iff_iff, beq_iff_eq]
  simp only [holding, Holding.of, Registry.allClear, List.all_eq_true, Bool.not_eq_true',
    List.length_eq_zero_iff, List.eq_nil_iff_forall_not_mem]
  constructor
  · intro hdown t ht
    obtain ⟨f, hf, hlisted, hraised⟩ := hg.listed_of_shared hclear ht
    rw [hdown f hlisted] at hraised
    cases hraised
  · intro hnone f hf
    obtain ⟨t, hflag, -⟩ := (hclear.listed f).mp hf
    exact Bool.eq_false_iff.mpr fun hraised => hnone t ((h.isRaised_iff hg hflag).mp hraised)

/-- The lock shows who holds it. -/
theorem Reachable.shows (h : Reachable c) (hclear : c.Clear) (hquiet : c.IsQuiet)
    (hown : c.lock.supply.isOwn = true) {locals : Locals} (htorn : locals.torn = []) :
    Site.Shows ⟨c.lock, c.flags, locals⟩ c.holding where
  calm := hquiet.isCalm h.attended h.marked
  claim := hquiet.claim_eq h.guarded h.attended h.vouched
  gate := hquiet.gate_eq h.guarded
  clear := hquiet.allClear_eq h.guarded hclear
  apart htaken := h.guarded.excludes.2 (of_decide_eq_true htaken)
  own := hown
  intact := htorn

end Crowd

end ReadMostly

end ReaderWriter
