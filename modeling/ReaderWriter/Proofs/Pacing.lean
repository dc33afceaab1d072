import ReaderWriter.Proofs.Backoffs
import ReaderWriter.Proofs.Configs

/-!
# The backoffs of the locks

A thread that waits, polls or looks after a writer carries a backoff from place to place. This
module says what every turn of every lock does with it: a wait is announced and parks or makes a
step, a poll and a hand-off make a step, and everything else leaves the backoff alone.

* `Paced`: what a turn does with a backoff, as a table.
* `Turned.paced`: every job of a thread is in it.
* `Run.Orderly.paced_after`: what an event does with the backoff of a thread.
-/

namespace ReaderWriter

/-! ## What a place tells -/

/-- The thread is about to park, is parked, or comes back from being parked. -/
def Wait.Stage.isParking : Wait.Stage → Bool
  | .parking | .parked | .resumed => true
  | .announced | .snoozing _ | .woken => false

/-- Where a wait goes from its announcement. -/
def Wait.onward (c : Config) (b : Backoff) : Wait.Stage :=
  if c.strategy.parks b then .parking else .snoozing b.yields

namespace Progress

/-- The backoff of a caller that waits for the lock, between two waits too. -/
def patience? : Progress → Option Backoff
  | .blocking (.waiting _ _ b) => some b
  | .readMostly (.claimed (.patient _ b)) => some b
  | .readMostly (.scanning (.patient _ b) _) => some b
  | .readMostly (.draining _ _ b) => some b
  | .readMostly (.prodding _ b _) => some b
  | .readMostly (.waiting _ _ b) => some b
  | _ => none

/-- The backoff that the thread carries along. -/
def backoff? : Progress → Option Backoff
  | .polling (.polling _ b) => some b
  | .polling (.yielding _ b) => some b
  | .readMostly (.handingOff _ _ b) => some b
  | p => p.patience?

/-- How far the thread is in a wait. -/
def stage? : Progress → Option Wait.Stage
  | .blocking (.waiting _ stage _) => some stage
  | .readMostly (.draining _ stage _) => some stage
  | .readMostly (.waiting _ stage _) => some stage
  | _ => none

/-- A writer that was ready to wait has the lock. -/
def isOver : Progress → Bool
  | .readMostly (.acquired .unit) => true
  | _ => false

/-- A hand-off knows that it is no longer needed. -/
def isHandedOff : Progress → Bool
  | .readMostly (.handingOff _ .finished _) => true
  | _ => false

/-- A turn that leads from one place to another, or to the end, makes a step of the backoff. A poll
does so before it looks again, a wait unless it parks, and a hand-off if it goes on. -/
def snoozes (p : Progress) (next : Option Progress) : Bool :=
  match p with
  | .polling (.polling _ _) => true
  | .readMostly (.handingOff _ (.rechecking .inside) _) => next.any fun p' => !p'.isHandedOff
  | p => p.stage? = some .announced && next.bind stage? ≠ some .parking

variable {p p' : Progress} {b : Backoff} {stage : Wait.Stage} {next : Option Progress}

theorem backoff?_of_patience? (h : p.patience? = some b) : p.backoff? = some b := by
  cases p with
  | blocking pc => exact h
  | polling pc => cases pc <;> cases h
  | readMostly pc => cases pc <;> first | exact h | cases h

theorem patience?_isSome_of_stage? (h : p.stage? = some stage) : ∃ b, p.patience? = some b := by
  cases p with
  | blocking pc => cases pc <;> first | exact ⟨_, rfl⟩ | cases h
  | polling pc => cases h
  | readMostly pc => cases pc <;> first | exact ⟨_, rfl⟩ | cases h

theorem isOver_eq_false (h : p.backoff? = some b) : p.isOver = false := by
  cases p with
  | blocking | polling => rfl
  | readMostly pc => cases pc <;> first | rfl | cases h

/-- A thread in a wait is seen to yield iff that is how far the wait is. -/
theorem place_of_stage? (h : p.stage? = some stage) :
    p.place = .yielding ↔ stage = .snoozing true := by
  have hplace : ∀ announced woken, stage.place announced woken = .yielding ↔
      stage = .snoozing true := by
    intro announced woken
    cases stage with
    | snoozing yields => cases yields <;> simp [Wait.Stage.place]
    | announced | parking | parked | resumed | woken => simp [Wait.Stage.place]
  cases p with
  | blocking pc =>
    cases pc with
    | waiting mode stage' b =>
      cases h
      cases mode <;> exact hplace _ _
    | contended | entering | notifying | notified | retrying | yielding => cases h
  | polling pc => cases h
  | readMostly pc =>
    cases pc with
    | draining told stage' b | waiting f stage' b =>
      cases h
      exact hplace _ _
    | _ => cases h

theorem snoozes_of_stage? (h : p.stage? = some stage) :
    p.snoozes next =
      (decide (stage = .announced) && decide (next.bind stage? ≠ some .parking)) := by
  cases p with
  | blocking pc =>
    cases pc <;> first | (cases h; simp [snoozes, stage?]) | cases h
  | polling pc => cases h
  | readMostly pc =>
    cases pc <;> first | (cases h; simp [snoozes, stage?]) | cases h

end Progress

/-! ## The table -/

/-- What a turn on a lock with these terms does with the backoff of its thread, which stands at one
place before it and at another afterwards, or at none. -/
inductive Paced (c : Config) : Option Progress → Option Progress → Prop
  /-- There is no backoff. -/
  | without {p p' : Option Progress} : p.bind Progress.backoff? = none →
      p'.bind Progress.backoff? = none → (p.any Progress.isOver = true → p' = none) → Paced c p p'
  /-- The thread makes its backoff. -/
  | fresh {p : Option Progress} {p' : Progress} : p.bind Progress.backoff? = none →
      p.any Progress.isOver = false → p'.backoff? = some (.ofConfig c) →
      p'.stage?.any Wait.Stage.isParking = false → Paced c p (some p')
  /-- A wait that has been announced parks, or makes a step. -/
  | waits {p p' : Progress} {b : Backoff} : p.stage? = some .announced → p.patience? = some b →
      p'.stage? = some (Wait.onward c b) →
      p'.patience? = some (if c.strategy.parks b then b else b.next) → Paced c (some p) (some p')
  /-- Something else makes a step. -/
  | steps {p p' : Progress} {b : Backoff} : p.stage? = none → p.patience? = none →
      p.snoozes (some p') = true → p.backoff? = some b → p'.backoff? = some b.next →
      p'.patience? = none → (p'.place = .yielding ↔ b.yields = true) → Paced c (some p) (some p')
  /-- The thread goes on with the backoff as it is. -/
  | keeps {p p' : Progress} {b : Backoff} : p.stage? ≠ some .announced →
      p.snoozes (some p') = false → p.backoff? = some b → p'.backoff? = some b →
      p'.patience? = p.patience? →
      (p'.stage?.any Wait.Stage.isParking = true → p.stage?.any Wait.Stage.isParking = true) →
      Paced c (some p) (some p')
  /-- The thread has no more use for its backoff. A step that it makes last does not yield. -/
  | ends {p : Progress} {p' : Option Progress} {b : Backoff} : p.stage? ≠ some .announced →
      p.backoff? = some b → p'.bind Progress.backoff? = none →
      (p.snoozes p' = true → p' = none ∧ b.yields = false) →
      (∀ q ∈ p', q.isOver = true) → Paced c (some p) p'

namespace Paced

variable {c : Config} {p p' : Progress} {q q' : Option Progress} {b : Backoff}

/-- Neither place has a backoff, and no wait is over. -/
theorem plain (h : q.bind Progress.backoff? = none) (h' : q'.bind Progress.backoff? = none)
    (hover : q.any Progress.isOver = false) : Paced c q q' :=
  .without h h' fun hin => absurd (hover.symm.trans hin) Bool.false_ne_true

/-- Neither place is one of a wait that begins or parks. -/
theorem kept (hstage : decide (p.stage? = some .announced) = false)
    (hsnoozes : p.snoozes (some p') = false) (hb : p.backoff? = some b)
    (hb' : p'.backoff? = some b) (hsame : p'.patience? = p.patience?)
    (hparking : p'.stage?.any Wait.Stage.isParking = false) : Paced c (some p) (some p') :=
  .keeps (of_decide_eq_false hstage) hsnoozes hb hb' hsame fun hin =>
    absurd (hparking.symm.trans hin) Bool.false_ne_true

/-- The thread comes back, without another step of its backoff. -/
theorem left (hstage : decide (p.stage? = some .announced) = false)
    (hsnoozes : p.snoozes none = false) (hb : p.backoff? = some b) : Paced c (some p) none :=
  .ends (of_decide_eq_false hstage) hb rfl
    (fun hin => absurd (hsnoozes.symm.trans hin) Bool.false_ne_true) (by simp)

end Paced

/-- A turn of a wait that is under way. -/
theorem Wait.turn_paced (c : Config) (t : ThreadId) {w : Wait.State} (hw : w.stage ≠ .woken)
    {p p' : Progress} (hp : p.stage? = some w.stage) (hb : p.patience? = some w.backoff)
    (hp' : p'.stage? = some (Wait.turn c.strategy t w).stage)
    (hb' : p'.patience? = some (Wait.turn c.strategy t w).backoff) :
    Paced c (some p) (some p') := by
  obtain ⟨gate, signal, stage, b⟩ := w
  have hkeeps : stage ≠ .announced → (Wait.turn c.strategy t ⟨gate, signal, stage, b⟩).backoff = b →
      ((Wait.turn c.strategy t ⟨gate, signal, stage, b⟩).stage.isParking = true →
        stage.isParking = true) → Paced c (some p) (some p') := by
    intro hstage hback hparking
    rw [hback] at hb'
    have hsnoozes : p.snoozes (some p') = false := by
      simp [Progress.snoozes_of_stage? hp, hstage]
    refine .keeps (by rw [hp]; simpa using hstage) hsnoozes (Progress.backoff?_of_patience? hb)
      (Progress.backoff?_of_patience? hb') (hb'.trans hb.symm) ?_
    rw [hp, hp']
    exact hparking
  cases stage with
  | announced =>
    have hturn : (Wait.turn c.strategy t ⟨gate, signal, .announced, b⟩).stage = onward c b ∧
        (Wait.turn c.strategy t ⟨gate, signal, .announced, b⟩).backoff =
          if c.strategy.parks b then b else b.next := by
      simp only [Wait.turn, onward]
      repeat' split
      all_goals exact ⟨rfl, rfl⟩
    rw [hturn.1] at hp'
    rw [hturn.2] at hb'
    exact .waits hp hb hp' hb'
  | parking => exact hkeeps (by rintro ⟨⟩) rfl fun _ => rfl
  | parked => exact hkeeps (by rintro ⟨⟩) (by simp only [Wait.turn]; split <;> rfl) fun _ => rfl
  | snoozing yields =>
    refine hkeeps (by rintro ⟨⟩) (by simp only [Wait.turn]; split <;> rfl) ?_
    simp only [Wait.turn]
    split <;> exact fun h => by cases h
  | resumed => exact hkeeps (by rintro ⟨⟩) rfl fun _ => rfl
  | woken => exact absurd rfl hw

namespace Blocking

variable {t : ThreadId} {mode : Mode} {backoff : Backoff} {s : State} {c : Config}

/-- A caller that is not in a wait leaves the operation, or stays outside of all waits. -/
theorem paced_without (pc : Option Pc) {stand : Stand Pc} (h : pc.bind Pc.waits? = none)
    (h' : ∀ pc, stand.place? = some pc → pc.waits? = none) :
    Paced c (pc.map .blocking) (stand.place?.map .blocking) := by
  have hno : ∀ {pc : Pc}, pc.waits? = none → (Progress.blocking pc).backoff? = none := by
    intro pc hpc
    cases pc <;> first | rfl | cases hpc
  refine .without ?_ ?_ ?_
  · cases pc with
    | none => rfl
    | some pc => exact hno h
  · cases hstand : stand.place? with
    | none => rfl
    | some pc => exact hno (h' pc hstand)
  · cases pc <;> simp [Progress.isOver]

theorem enter_paced {pc : Pc} (hpc : pc.waits? = none) (t : ThreadId) (mode : Mode) (s : State) :
    Paced s.terms (some (.blocking pc)) ((enter t mode s).stand.place?.map .blocking) := by
  rcases enter_cases t mode s with heq | ⟨-, heq⟩ <;> rw [heq]
  · exact paced_without (some pc) hpc (by rintro _ ⟨⟩; rfl)
  · have hattempted := attempt_attempted mode (.ofConfig s.config)
      (s.counted t mode ((s.group mode).pending + 1))
    generalize attempt mode _ _ = turn at hattempted
    cases hattempted with
    | granted | faulted => exact paced_without (some pc) hpc (by rintro _ ⟨⟩)
    | announced =>
      refine .fresh ?_ rfl rfl rfl
      cases pc <;> first | rfl | cases hpc

/-- A turn of a wait that is under way. -/
theorem resume_wait (t : ThreadId) (mode : Mode) {stage : Wait.Stage} (backoff : Backoff)
    (s : State) (hstage : stage ≠ .woken) {w : Wait.State}
    (hw : Wait.turn s.terms.strategy t
      ⟨(s.group mode).gate, (s.group mode).signal, stage, backoff⟩ = w) :
    resume t (.waiting mode stage backoff) s =
      { state := s.withGroup mode { s.group mode with gate := w.gate, signal := w.signal }
        stand := .here (.waiting mode w.stage w.backoff) } := by
  subst hw
  cases stage <;> first | rfl | exact absurd rfl hstage

theorem resume_paced (t : ThreadId) (pc : Pc) (s : State) :
    Paced s.terms (some (.blocking pc)) ((resume t pc s).stand.place?.map .blocking) := by
  have hnotifies : pc.notifies = true →
      Paced s.terms (some (.blocking pc)) ((resume t pc s).stand.place?.map .blocking) := by
    intro hnotifies
    have hout : ∀ {pc : Pc}, pc.notifies = true → pc.waits? = none := by
      intro pc hpc
      cases pc <;> first | rfl | cases hpc
    refine paced_without (some pc) (hout hnotifies) fun pc' hpc' => ?_
    rcases (resume_notifies (t := t) (s := s) hnotifies).2.2 with ⟨pc'', heq, h⟩ | ⟨hn, -⟩
    · cases hpc'.symm.trans heq
      exact hout h
    · cases hpc'.symm.trans hn
  cases pc with
  | contended mode | entering mode => exact enter_paced rfl t mode s
  | waiting mode stage backoff =>
    by_cases hstage : stage = .woken
    · subst hstage
      have hattempted := attempt_attempted mode backoff s
      change Paced _ _ ((attempt mode backoff s).stand.place?.map _)
      generalize attempt mode backoff s = turn at hattempted
      cases hattempted with
      | granted | faulted => exact .left rfl rfl rfl
      | announced => exact .kept rfl rfl rfl rfl rfl rfl
    · rw [resume_wait t mode backoff s hstage rfl]
      exact Wait.turn_paced s.terms t (w := ⟨_, _, stage, backoff⟩) hstage rfl rfl rfl rfl
  | notifying | notified | retrying | yielding => exact hnotifies rfl

theorem onBlocking_paced {job : Job} (hsuits : job.Suits .blocking) (t : ThreadId) (s : State) :
    Paced s.terms job.place? ((job.onBlocking t s).stand.place?.map .blocking) := by
  cases job with
  | start op => exact paced_without none rfl fun pc hpc => start_not_waits hpc
  | resume p =>
    cases p with
    | blocking pc => exact resume_paced t pc s
    | polling | readMostly => cases hsuits
  | depart f => cases hsuits

end Blocking

namespace Polling

/-- A caller that looks at the word comes back, or polls on with the same backoff. -/
theorem attempt_place (mode : Mode) (backoff : Backoff) (s : State) :
    (attempt mode backoff s).stand.place? = none ∨
      (attempt mode backoff s).stand.place? = some (.polling mode backoff) := by
  cases mode with
  | unique =>
    simp only [attempt]
    split
    · exact .inr rfl
    · exact .inl rfl
  | shared =>
    simp only [attempt]
    split
    · exact .inr rfl
    · split <;> exact .inl rfl

theorem start_paced (op : Operation) (s : State) :
    Paced s.config none ((start op s).stand.place?.map .polling) := by
  have hwithout : (start op s).stand.place? = none →
      Paced s.config none ((start op s).stand.place?.map .polling) := by
    intro hplace
    rw [hplace]
    exact .plain rfl rfl rfl
  rcases op with mode | (_ | _) | (_ | _)
  · change Paced s.config none ((attempt mode (.ofConfig s.config) s).stand.place?.map .polling)
    rcases attempt_place mode (.ofConfig s.config) s with hplace | hplace <;> rw [hplace]
    · exact .plain rfl rfl rfl
    · exact .fresh rfl rfl rfl rfl
  · refine hwithout ?_
    simp only [start]
    split <;> rfl
  · refine hwithout ?_
    simp only [start]
    split
    · rfl
    · split <;> rfl
  · refine hwithout ?_
    simp only [start]
    cases s.word.withUniqueReleased <;> rfl
  · refine hwithout ?_
    simp only [start]
    cases s.word.withSharedReleased <;> rfl

theorem resume_paced (pc : Pc) (s : State) :
    Paced s.config (some (.polling pc)) ((resume pc s).stand.place?.map .polling) := by
  cases pc with
  | polling mode backoff =>
    simp only [resume]
    split
    · next hyields => exact .steps rfl rfl rfl rfl rfl rfl (iff_of_true rfl hyields)
    · next hyields =>
      rcases attempt_place mode backoff.next s with hplace | hplace <;> rw [hplace]
      · exact .ends (by simp [Progress.stage?]) rfl rfl
          (fun _ => ⟨rfl, Bool.eq_false_iff.mpr hyields⟩) (by simp)
      · exact .steps rfl rfl rfl rfl rfl rfl (iff_of_false (by rintro ⟨⟩) hyields)
  | yielding mode backoff =>
    change Paced s.config _ ((attempt mode backoff s).stand.place?.map .polling)
    rcases attempt_place mode backoff s with hplace | hplace <;> rw [hplace]
    · exact .left rfl rfl rfl
    · exact .kept rfl rfl rfl rfl rfl rfl

theorem onPolling_paced {job : Job} (hsuits : job.Suits .polling) (s : State) :
    Paced s.config job.place? ((job.onPolling s).stand.place?.map .polling) := by
  cases job with
  | start op => exact start_paced op s
  | resume p =>
    cases p with
    | polling pc => exact resume_paced pc s
    | blocking | readMostly => cases hsuits
  | depart f => cases hsuits

end Polling

namespace ReadMostly

variable {sc : Scene} {s : Site} {c : Config} {p : Option Progress}

/-- The stand has no backoff, and no wait is over. -/
theorem paced_without {stand : Stand Pc} (h : p.bind Progress.backoff? = none)
    (hover : p.any Progress.isOver = false)
    (h' : ∀ pc, stand.place? = some pc → (Progress.readMostly pc).backoff? = none) :
    Paced c p (stand.place?.map .readMostly) := by
  refine .plain h ?_ hover
  cases hstand : stand.place? with
  | none => rfl
  | some pc => exact h' pc hstand

theorem beginRead_place (sc : Scene) (s : Site) (place : Access → Pc) :
    ∃ a, (beginRead sc place s).stand = .here (place a) := by
  unfold beginRead
  split <;> exact ⟨_, rfl⟩

theorem awaitReaders_place (s : Site) (place : Edit → Pc) :
    ∃ e, (awaitReaders place s).stand = .here (place e) := by
  unfold awaitReaders
  split <;> exact ⟨_, rfl⟩

theorem beginWrite_place (sc : Scene) (s : Site) (place : Edit → Pc) :
    ∃ e, (beginWrite sc place s).stand = .here (place e) := by
  unfold beginWrite
  split
  · exact awaitReaders_place _ place
  · exact ⟨_, rfl⟩

/-- A thread that is on its way into the registry to change it has no backoff. -/
theorem edits_paced {place : Edit → Pc} {stand : Stand Pc} (h : p.bind Progress.backoff? = none)
    (hover : p.any Progress.isOver = false)
    (hplace : ∀ e, (Progress.readMostly (place e)).backoff? = none)
    (hstand : ∃ e, stand = .here (place e)) : Paced c p (stand.place?.map .readMostly) := by
  obtain ⟨e, rfl⟩ := hstand
  exact .plain h (hplace e) hover

theorem enter_paced (h : p.bind Progress.backoff? = none) (hover : p.any Progress.isOver = false) :
    Paced s.lock.terms p ((enter sc s).stand.place?.map .readMostly) := by
  unfold enter
  split
  · exact paced_without h hover (by rintro _ ⟨⟩; rfl)
  · exact .fresh h hover rfl rfl

theorem arrive_place (patience : Patience) (f : Flag) :
    ∀ pc, (arrive patience f s).stand.place? = some pc →
      (Progress.readMostly pc).backoff? = none := by
  cases patience <;> simp only [arrive] <;> split <;> rintro _ ⟨⟩ <;> rfl

theorem acquireShared_place (patience : Patience) :
    ∀ pc, (acquireShared sc patience s).stand.place? = some pc →
      (Progress.readMostly pc).backoff? = none := by
  have hregister : ∀ (f : Flag) (s : Site) pc, (register sc patience f s).stand.place? = some pc →
      (Progress.readMostly pc).backoff? = none := by
    intro f s pc hpc
    cases patience with
    | waits =>
      obtain ⟨a, ha⟩ := beginWrite_place sc s (.registering .waits f)
      rw [register, ha] at hpc
      cases hpc
      rfl
    | once =>
      simp only [register] at hpc
      split at hpc
      · obtain ⟨a, ha⟩ := beginWrite_place sc s (.registering .once f)
        rw [ha] at hpc
        cases hpc
        rfl
      · cases hpc
  intro pc hpc
  simp only [acquireShared] at hpc
  split at hpc
  · split at hpc
    · exact arrive_place _ _ _ hpc
    · split at hpc
      · cases hpc
      · exact hregister _ _ _ hpc
  · cases patience <;> cases hpc

/-- A reader that looks at the claim has the lock, or goes on with its backoff. -/
theorem recheck_place (f : Flag) (b : Backoff) :
    (recheck f b s).stand.place? = none ∨
      (recheck f b s).stand.place? = some (.prodding f b .announced) ∨
      (recheck f b s).stand.place? = some (.waiting f .announced b) := by
  unfold recheck
  split
  · exact .inl rfl
  · exact .inr (.inl rfl)
  · exact .inr (.inr rfl)

theorem enterShared_paced (f : Flag) (h : p.bind Progress.backoff? = none)
    (hover : p.any Progress.isOver = false) :
    Paced s.lock.terms p ((enterShared sc f s).stand.place?.map .readMostly) := by
  unfold enterShared
  split
  · exact paced_without h hover (by rintro _ ⟨⟩; rfl)
  · rcases recheck_place (s := s.gate (some sc.thread)) f (.ofConfig s.lock.config) with
      hplace | hplace | hplace <;> rw [hplace]
    · exact .without h rfl fun _ => rfl
    · exact .fresh h hover rfl rfl
    · exact .fresh h hover rfl rfl

theorem handOff_paced (why : HandOff) (stage : HandOff.Stage) (b : Backoff) :
    Paced c (some (.readMostly (.handingOff why stage b)))
      ((handOff sc why b stage s).stand.place?.map .readMostly) := by
  -- All turns but that of a look that finds all flags down go on with the backoff as it is.
  have hkeeps : (∀ next, (Progress.readMostly (.handingOff why stage b)).snoozes next = false) →
      (∃ stage', (handOff sc why b stage s).stand = .here (.handingOff why stage' b)) →
      Paced c (some (.readMostly (.handingOff why stage b)))
        ((handOff sc why b stage s).stand.place?.map .readMostly) := by
    rintro hsnoozes ⟨stage', hstand⟩
    rw [hstand]
    exact .kept rfl (hsnoozes _) rfl rfl rfl rfl
  cases stage with
  | begun | snoozing =>
    obtain ⟨a, ha⟩ := beginRead_place sc s fun a => .handingOff why (.checking a) b
    exact hkeeps (fun _ => rfl) ⟨_, ha⟩
  | checking a =>
    cases a with
    | wanted =>
      obtain ⟨a, ha⟩ := beginRead_place sc s fun a => .handingOff why (.checking a) b
      exact hkeeps (fun _ => rfl) ⟨_, ha⟩
    | inside =>
      refine hkeeps (fun _ => rfl) ?_
      simp only [handOff]
      split <;> exact ⟨_, rfl⟩
  | prodding n =>
    refine hkeeps (fun _ => rfl) ?_
    cases n with
    | announced | yielding => exact ⟨_, rfl⟩
    | inside woken =>
      simp only [handOff]
      split
      · obtain ⟨a, ha⟩ := beginRead_place sc (writerNotified s)
          fun a => .handingOff why (.rechecking a) b
        exact ⟨_, ha⟩
      · exact ⟨_, rfl⟩
  | rechecking a =>
    cases a with
    | wanted =>
      obtain ⟨a, ha⟩ := beginRead_place sc s
        fun a => .handingOff why (.rechecking a) b
      exact hkeeps (fun _ => rfl) ⟨_, ha⟩
    | inside =>
      simp only [handOff]
      split
      · refine .steps rfl rfl rfl rfl rfl rfl ?_
        cases b.yields <;> simp [Progress.place, Pc.place, HandOff.Stage.place]
      · exact .kept rfl rfl rfl rfl rfl rfl
  | finished => exact .left rfl rfl rfl

theorem leave_paced (answer : Answer) :
    Paced s.lock.terms (some (.readMostly (.leaving answer)))
      ((leave sc answer s).stand.place?.map .readMostly) := by
  have hout : Paced s.lock.terms (some (.readMostly (.leaving answer))) none :=
    .plain rfl rfl rfl
  unfold leave
  split
  · dsimp only
    split
    · exact hout
    · split
      · exact .fresh rfl rfl rfl rfl
      · exact hout
  · exact hout

/-- A turn of a writer's wait that is under way. -/
theorem resume_draining (sc : Scene) (told : Bool) {stage : Wait.Stage} (b : Backoff) (s : Site)
    (hstage : stage ≠ .woken) {w : Wait.State}
    (hw : Wait.turn s.lock.terms.strategy sc.thread ⟨s.lock.gate, s.lock.drained, stage, b⟩ = w) :
    resume sc (.draining told stage b) s =
      { s with lock := { s.lock with gate := w.gate, drained := w.signal } }.here
        (.draining told w.stage w.backoff) := by
  subst hw
  cases stage <;> first | rfl | exact absurd rfl hstage

/-- A turn of a reader's wait that is under way. -/
theorem resume_waiting (sc : Scene) (f : Flag) {stage : Wait.Stage} (b : Backoff) (s : Site)
    (hstage : stage ≠ .woken) {w : Wait.State}
    (hw : Wait.turn s.lock.terms.strategy sc.thread
      ⟨s.lock.gate, s.lock.reopened, stage, b⟩ = w) :
    resume sc (.waiting f stage b) s =
      { s with lock := { s.lock with gate := w.gate, reopened := w.signal } }.here
        (.waiting f w.stage w.backoff) := by
  subst hw
  cases stage <;> first | rfl | exact absurd rfl hstage

theorem scanning_paced (w : Writer) (a : Access) :
    Paced s.lock.terms (some (.readMostly (.scanning w a)))
      ((resume sc (.scanning w a) s).stand.place?.map .readMostly) := by
  cases a with
  | wanted =>
    obtain ⟨a, ha⟩ := beginRead_place sc s (.scanning w)
    change Paced _ _ ((beginRead sc (.scanning w) s).stand.place?.map _)
    rw [ha]
    cases w with
    | hasty => exact .plain rfl rfl rfl
    | patient told b => exact .kept rfl rfl rfl rfl rfl rfl
  | inside =>
    cases w with
    | hasty =>
      simp only [resume, judge]
      split
      · exact .plain rfl rfl rfl
      · next heq _ => cases heq
      · exact .plain rfl rfl rfl
      · next heq _ => cases heq
    | patient told b =>
      simp only [resume, judge]
      split
      · next heq _ => cases heq
      · exact .ends (by rintro ⟨⟩) rfl rfl (by rintro ⟨⟩) (by rintro _ ⟨⟩; rfl)
      · next heq _ => cases heq
      · next heq _ =>
        cases heq
        exact .kept rfl rfl rfl rfl rfl rfl

theorem draining_paced (told : Bool) (stage : Wait.Stage) (b : Backoff) :
    Paced s.lock.terms (some (.readMostly (.draining told stage b)))
      ((resume sc (.draining told stage b) s).stand.place?.map .readMostly) := by
  by_cases hstage : stage = .woken
  · subst hstage
    exact .kept rfl rfl rfl rfl rfl rfl
  · rw [resume_draining sc told b s hstage rfl]
    exact Wait.turn_paced s.lock.terms sc.thread (w := ⟨_, _, stage, b⟩) hstage rfl rfl rfl rfl

theorem waiting_paced (f : Flag) (stage : Wait.Stage) (b : Backoff) :
    Paced s.lock.terms (some (.readMostly (.waiting f stage b)))
      ((resume sc (.waiting f stage b) s).stand.place?.map .readMostly) := by
  by_cases hstage : stage = .woken
  · subst hstage
    change Paced _ _ ((recheck f b (s.put f true)).stand.place?.map _)
    rcases recheck_place f b with hplace | hplace | hplace <;> rw [hplace]
    · exact .left rfl rfl rfl
    · exact .kept rfl rfl rfl rfl rfl rfl
    · exact .kept rfl rfl rfl rfl rfl rfl
  · rw [resume_waiting sc f b s hstage rfl]
    exact Wait.turn_paced s.lock.terms sc.thread (w := ⟨_, _, stage, b⟩) hstage rfl rfl rfl rfl

theorem resume_paced (sc : Scene) (pc : Pc) (s : Site) :
    Paced s.lock.terms (some (.readMostly pc))
      ((resume sc pc s).stand.place?.map .readMostly) := by
  cases pc with
  | entering => exact enter_paced rfl rfl
  | claimed w =>
    cases w with
    | hasty =>
      simp only [resume, scan]
      split
      · obtain ⟨a, ha⟩ := beginRead_place sc s (.scanning .hasty)
        rw [ha]
        exact .plain rfl rfl rfl
      · exact .plain rfl rfl rfl
    | patient told b =>
      obtain ⟨a, ha⟩ := beginRead_place sc s (.scanning (.patient told b))
      change Paced _ _ ((beginRead sc _ s).stand.place?.map _)
      rw [ha]
      exact .kept rfl rfl rfl rfl rfl rfl
  | scanning w a => exact scanning_paced w a
  | draining told stage b => exact draining_paced told stage b
  | acquired answer => exact .without rfl rfl fun _ => rfl
  | refused | released | fastPath | sharedRefused => exact .plain rfl rfl rfl
  | reopening why n => cases n <;> exact .plain rfl rfl rfl
  | passingOn why n =>
    cases n with
    | announced | yielding => exact .plain rfl rfl rfl
    | inside woken => cases why <;> exact .plain rfl rfl rfl
  | registering patience f e =>
    have hplace : ∀ e, (Progress.readMostly (.registering patience f e)).backoff? = none :=
      fun _ => rfl
    cases e with
    | wanted => exact edits_paced rfl rfl hplace (beginWrite_place sc s _)
    | reserved => exact edits_paced rfl rfl hplace (awaitReaders_place s _)
    | inside => exact .plain rfl rfl rfl
  | registered patience f => exact paced_without rfl rfl (arrive_place patience f)
  | contended f | arriving f => exact enterShared_paced f rfl rfl
  | prodding f b n => cases n <;> exact .kept rfl rfl rfl rfl rfl rfl
  | waiting f stage b => exact waiting_paced f stage b
  | leaving answer => exact leave_paced answer
  | handingOff why stage b => exact handOff_paced why stage b
  | counting a =>
    cases a with
    | wanted =>
      obtain ⟨a, ha⟩ := beginRead_place sc s .counting
      change Paced _ _ ((beginRead sc _ s).stand.place?.map _)
      rw [ha]
      exact .plain rfl rfl rfl
    | inside => exact .plain rfl rfl rfl
  | departing f wasUp e =>
    have hplace : ∀ e, (Progress.readMostly (.departing f wasUp e)).backoff? = none :=
      fun _ => rfl
    cases e with
    | wanted => exact edits_paced rfl rfl hplace (beginWrite_place sc s _)
    | reserved => exact edits_paced rfl rfl hplace (awaitReaders_place s _)
    | inside => exact .plain rfl rfl rfl
  | departed wasUp => cases wasUp <;> exact .plain rfl rfl rfl
  | abandoned =>
    simp only [resume]
    split
    · exact .fresh rfl rfl rfl rfl
    · exact .plain rfl rfl rfl

theorem start_paced (sc : Scene) (op : Operation) (s : Site) :
    Paced s.lock.terms none ((start sc op s).stand.place?.map .readMostly) := by
  rcases op with (_ | _) | (_ | _) | (_ | _)
  · exact enter_paced rfl rfl
  · exact paced_without rfl rfl (acquireShared_place .waits)
  · simp only [start, tryEnter]
    split <;> exact .plain rfl rfl rfl
  · exact paced_without rfl rfl (acquireShared_place .once)
  · simp only [start, releaseUnique]
    split <;> exact .plain rfl rfl rfl
  · exact .plain rfl rfl rfl

theorem depart_paced (sc : Scene) (f : Flag) (s : Site) :
    Paced s.lock.terms none ((depart sc f s).stand.place?.map .readMostly) := by
  unfold depart
  split <;> exact edits_paced rfl rfl (by exact fun _ => rfl) (beginWrite_place sc _ _)

theorem onReadMostly_paced {job : Job} (hsuits : job.Suits .readMostly) (sc : Scene) (s : Site) :
    Paced s.lock.terms job.place? ((job.onReadMostly sc s).stand.place?.map .readMostly) := by
  cases job with
  | start op => exact start_paced sc op s
  | resume p =>
    cases p with
    | readMostly pc => exact resume_paced sc pc s
    | blocking | polling => cases hsuits
  | depart f => exact depart_paced sc f s

end ReadMostly

/-! ## Jobs and events -/

variable {r r' : Run} {e : Event} {t : ThreadId} {m : Nat} {l : Lock} {job : Job} {p : Progress}

/-- Every job of a thread treats its backoff as the table says. -/
theorem Turned.paced (h : Turned r r' t m l job) :
    Paced l.terms (r.place m t) (r'.place m t) := by
  have hsuits := h.suits
  rw [h.place_self]
  cases hs : l.body with
  | blocking s =>
    rw [hs] at hsuits
    rw [h.place_blocking hs, show l.terms = s.terms by rw [Lock.terms, hs]]
    exact Blocking.onBlocking_paced hsuits t s
  | polling s =>
    rw [hs] at hsuits
    rw [h.place_polling hs, show l.terms = s.config by rw [Lock.terms, hs]]
    exact Polling.onPolling_paced hsuits s
  | readMostly s =>
    rw [hs] at hsuits
    obtain ⟨-, -, -, hstand⟩ := h.onReadMostly hs rfl
    rw [h.place_self', hstand, Stand.place?_lift, show l.terms = s.terms by rw [Lock.terms, hs]]
    exact ReadMostly.onReadMostly_paced hsuits ⟨t, m, r.world.isAlive⟩
      ⟨s, r.world.flags, (r.world.thread t).locals⟩

namespace Run

/-- What a move does with the backoff of a thread: it makes a turn of its own, or stays where it
is. -/
theorem paced_of_move {r₁ : Run} (h : Move r e r₁) (hidle : e = .turn t → r.place m t = none) :
    (∃ l, r.world.locks[m]? = some l ∧ Paced l.terms (r.place m t) (r₁.place m t) ∧
        r.place m t = none) ∨
      r₁.place m t = r.place m t := by
  have hturned : ∀ {u n l job}, Turned r r₁ u n l job →
      (∀ p, job.place? = some p → e = .turn u) →
      (∃ l, r.world.locks[m]? = some l ∧ Paced l.terms (r.place m t) (r₁.place m t) ∧
        r.place m t = none) ∨ r₁.place m t = r.place m t := by
    intro u n l job h hturn
    by_cases hn : m = n
    · subst hn
      by_cases hu : t = u
      · subst hu
        refine .inl ⟨l, h.lock, h.paced, ?_⟩
        rw [h.place_self]
        cases hjob : job.place? with
        | none => rfl
        | some p => exact hjob.symm.trans (h.place_self.symm.trans (hidle (hturn p hjob)))
      · exact .inr (h.place_of_ne hu)
    · exact .inr (h.place_of_ne_lock hn t)
  cases h with
  | @operate u n l job op h =>
    refine hturned h.toTurned fun p hjob => ?_
    cases job with
    | resume q => exact h.turned q rfl
    | start | depart => cases hjob
  | depart h heq => exact hturned h.toTurned fun _ _ => heq
  | @shift u h =>
    by_cases hu : t = u
    · subst hu
      exact .inr (by simp only [place, h.stint, h.stint'])
    · exact .inr (place_congr (h.others t hu))
  | drop h => exact .inr (place_congr (h.threads t))
  | wake h => exact .inr (place_congr (h.threads t))
  | make h => exact .inr (place_congr (h.threads t))
  | rest h => exact .inr (place_congr (h.threads t))

/-- What an event does with the backoff of a thread, on a lock with given terms. Only a turn
of its own makes the thread go on from a place. -/
theorem Orderly.paced_after (ho : r.Orderly) (hp : r.world.Permits e)
    (hl : (r.after e).world.locks[m]? = some l) :
    Paced l.terms (r.place m t) ((r.after e).place m t) ∧
        (e = .turn t ∨ r.place m t = none) ∨
      (r.after e).place m t = r.place m t ∧ (e = .turn t → r.place m t = none) := by
  have hterms : ∀ {l₀}, r.world.locks[m]? = some l₀ → l₀.terms = l.terms := by
    intro l₀ hl₀
    obtain ⟨l', hl', heq⟩ := terms_after ho hp hl₀
    cases hl.symm.trans hl'
    exact heq.symm
  by_cases hturn : e = .turn t ∧ r.place m t ≠ none
  · obtain ⟨rfl, hplace⟩ := hturn
    obtain ⟨p, hplace⟩ := Option.ne_none_iff_exists'.mp hplace
    obtain ⟨l₀, r₁, hturned, hrest⟩ := ho.turned_of_place hp hplace
    refine .inl ⟨?_, .inl rfl⟩
    rw [place_congr (hrest.thread_eq t), ← hterms hturned.lock]
    exact hturned.paced
  · have hidle : e = .turn t → r.place m t = none := fun heq => by
      by_contra hplace
      exact hturn ⟨heq, hplace⟩
    obtain ⟨r₁, hmove, hthreads, -⟩ := exists_move_after ho hp
    rw [place_congr (hthreads t)]
    rcases paced_of_move hmove hidle with ⟨l₀, hl₀, hpaced, hnone⟩ | heq
    · exact .inl ⟨hterms hl₀ ▸ hpaced, .inr hnone⟩
    · exact .inr ⟨heq, hidle⟩

end Run

end ReaderWriter
