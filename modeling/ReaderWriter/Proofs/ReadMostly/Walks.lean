import ReaderWriter.Proofs.Alone
import ReaderWriter.Proofs.Holdings
import ReaderWriter.Proofs.ReadMostly.Supplies

/-!
# Operations on a read-mostly lock with nobody in the way

What a thread comes to on a read-mostly lock if nobody else is under way there. Every operation that
the two fields of the lock let through is gone through here, turn by turn.

* `Walks`: a thread gets to the end of its operation by its own turns, without waiting.
* `Site.Shows`: the lock shows who holds it, and nobody is in the way.
* `walks_start`: every operation that need not wait gets to its end, with the answer that the two
  fields have for it.
-/

namespace ReaderWriter

namespace ReadMostly

/-! ## Walks -/

/-- A thread that has come to this turn gets to the end of its operation by its own turns, without
waiting, and the operation ends with this answer. Other locks may go meanwhile. -/
inductive Walks (t : ThreadId) (key : Nat) (answer : Answer) : Step → Prop
  | done {step : Step} : step.stand = .done answer → Walks t key answer step
  | goes {step : Step} {pc : Pc} : step.stand = .here pc → obstacle t step.state.lock pc = none →
      pc.waits = false → (∀ alive, Walks t key answer (resume ⟨t, key, alive⟩ pc step.state)) →
      Walks t key answer step

/-- Nobody works on the lock: the registry is free, and nobody notifies. -/
structure State.IsCalm (s : State) : Prop where
  writer : s.registry.writer = none
  readers : s.registry.readers = []
  drained : s.drained.notifying = false
  reopened : s.reopened.notifying = false

/-- Neither the claim nor the gate makes a lock less calm. -/
theorem State.IsCalm.congr {s s' : State} (h : s.IsCalm) (hregistry : s'.registry = s.registry)
    (hdrained : s'.drained = s.drained) (hreopened : s'.reopened = s.reopened) : s'.IsCalm where
  writer := (congrArg _ hregistry).trans h.writer
  readers := (congrArg _ hregistry).trans h.readers
  drained := (congrArg _ hdrained).trans h.drained
  reopened := (congrArg _ hreopened).trans h.reopened

theorem State.IsCalm.canRead {s : State} (h : s.IsCalm) : s.registry.canRead = true := by
  simp [Registry.canRead, h.writer]

theorem State.IsCalm.canWrite {s : State} (h : s.IsCalm) : s.registry.canWrite = true := by
  simp [Registry.canWrite, h.writer, h.readers]

/-- What an operation that gives up the exclusive side answers in the end. -/
def Reopening.answer : Reopening → Answer
  | .released => .unit
  | .refused => .granted false

/-- What a reader that has been let in answers. -/
def Patience.answer : Patience → Answer
  | .waits => .unit
  | .once => .granted true

variable {t : ThreadId} {key : Nat} {answer : Answer} {s : Site} {f : Flag} {p : Patience}
  {w : Writer}

/-! ## The exclusive side -/

theorem beginRead_of_calm (sc : Scene) (place : Access → Pc) (h : s.lock.IsCalm) :
    beginRead sc place s = (s.reading sc.thread).here (place .inside) :=
  if_pos h.canRead

theorem notifyWriter_of_calm (place : Notice.Stage → Pc) (h : s.lock.drained.notifying = false) :
    ∃ signal woken, notifyWriter place s = (s.drained signal).here (place (.inside woken)) := by
  simp only [notifyWriter, Notice.begin, Signal.notify?, h]
  exact ⟨_, _, rfl⟩

theorem notifyReaders_of_calm (place : Notice.Stage → Pc) (h : s.lock.reopened.notifying = false) :
    ∃ signal woken, notifyReaders place s = (s.reopened signal).here (place (.inside woken)) := by
  simp only [notifyReaders, Notice.begin, Signal.notify?, h]
  exact ⟨_, _, rfl⟩

/-- The gate is free again; a writer is notified, and the operation ends. -/
theorem walks_passOn (why : Reopening) (h : s.lock.drained.notifying = false) :
    Walks t key why.answer (s.here (.passingOn why .announced)) := by
  refine .goes rfl rfl rfl fun alive => ?_
  obtain ⟨signal, woken, heq⟩ := notifyWriter_of_calm (.passingOn why) h
  simp only [Site.here, resume, heq]
  refine .goes rfl rfl rfl fun alive => ?_
  cases why with
  | released => exact .goes rfl rfl rfl fun alive => .done rfl
  | refused => exact .done rfl

/-- The claim is taken back, the readers and a writer are notified, and the operation ends. -/
theorem walks_reopen (why : Reopening) (h : s.lock.IsCalm) :
    Walks t key why.answer (reopen why s) := by
  refine .goes rfl rfl rfl fun alive => ?_
  obtain ⟨signal, woken, heq⟩ :=
    notifyReaders_of_calm (s := s.claim .no) (.reopening why) h.reopened
  simp only [reopen, Site.here, resume, heq]
  exact .goes rfl rfl rfl fun alive => walks_passOn why h.drained

/-- A writer that has the gate looks at the flags. -/
theorem walks_announce (h : s.lock.IsCalm)
    (hjudge : Walks t key answer
      (judge w s.allClear (((s.claim .want).reading t).haveRead t))) :
    Walks t key answer (announce w s) := by
  refine .goes rfl rfl rfl fun alive => ?_
  have hscan : scan ⟨t, key, alive⟩ w (s.claim .want) =
      ((s.claim .want).reading t).here (.scanning w .inside) := by
    have hread := beginRead_of_calm (s := s.claim .want) ⟨t, key, alive⟩ (.scanning w)
      (h.congr rfl rfl rfl)
    cases w with
    | patient told backoff => exact hread
    | hasty => exact (if_pos h.canRead).trans hread
  simp only [announce, Site.here, resume, hscan]
  exact .goes rfl rfl rfl fun alive => hjudge

/-- A writer that finds all flags down has the lock. -/
theorem walks_announce_clear (w : Writer) (h : s.lock.IsCalm) (hclear : s.allClear = true) :
    Walks t key w.answer (announce w s) := by
  refine walks_announce h ?_
  rw [hclear]
  cases w <;> exact .goes rfl rfl rfl fun alive => .done rfl

/-- A hasty writer that finds a flag up gives up. -/
theorem walks_announce_refused (h : s.lock.IsCalm) (hup : s.allClear = false) :
    Walks t key (.granted false) (announce .hasty s) := by
  refine walks_announce h ?_
  rw [hup]
  refine .goes rfl rfl rfl fun alive => walks_reopen .refused ⟨h.writer, ?_, h.drained, h.reopened⟩
  simp [judge, Site.here, Site.haveRead, Site.reading, Site.withRegistry, Site.claim,
    Registry.endRead, Registry.beginRead, h.readers]

/-! ## The shared side -/

theorem Locals.node?_remember (l : Locals) (alive : Nat → Bool) (h : l.node? key = none) :
    (l.remember alive key f).node? key = some f := by
  have hnone : (l.nodes.filter fun node => alive node.1).lookup key = none := by
    rw [node?, List.lookup_eq_none_iff] at h
    rw [List.lookup_eq_none_iff]
    exact fun node hnode => h node (List.mem_of_mem_filter hnode)
  simp [node?, remember, List.lookup_append, hnone]

theorem Supply.exists_allocate {supply : Supply} (h : supply.isOwn = true) (m : Flags) {l : Locals}
    (htorn : l.torn = []) : ∃ handed, supply.allocate m l = .ok handed := by
  cases supply with
  | isolated | packed => exact ⟨_, rfl⟩
  | paired => exact ⟨_, if_pos (Locals.canUse_of_intact htorn .pair)⟩
  | listed flags => cases h

/-- A reader that leaves while no writer waits is done at once. -/
theorem leave_stand (sc : Scene) (answer : Answer) (htorn : s.locals.torn = [])
    (hnode : s.locals.node? sc.key = some f) (hclaim : s.lock.claim ≠ .want) :
    (leave sc answer s).stand = .done answer := by
  have hcan := Locals.canUse_of_intact htorn .nodes
  rw [← node?_touch _ .nodes] at hnode
  simp only [leave, hcan, if_true, hnode]
  rw [if_neg]
  · rfl
  · exact hclaim

/-- A reader that finds no writer has the lock. -/
theorem walks_arrive (hclaim : s.lock.claim = .no) :
    Walks t key p.answer (arrive p f s) := by
  cases p with
  | waits =>
    simp only [arrive, hclaim, if_true]
    exact .goes rfl rfl rfl fun alive => .done rfl
  | once =>
    simp only [arrive, hclaim, if_true]
    exact .done rfl

/-- A hasty reader that finds a writer leaves. -/
theorem walks_arrive_refused (htorn : s.locals.torn = []) (hnode : s.locals.node? key = some f)
    (hclaim : s.lock.claim = .yes) : Walks t key (.granted false) (arrive .once f s) := by
  have hno : s.lock.claim ≠ .no := by
    rw [hclaim]
    nofun
  have hwant : s.lock.claim ≠ .want := by
    rw [hclaim]
    nofun
  simp only [arrive, hno, if_false]
  refine .goes rfl rfl rfl fun alive => .goes rfl rfl rfl fun alive => .done ?_
  exact leave_stand _ _ htorn hnode hwant

/-- A reader comes by its flag, whether it has one on the lock already or is given one now. -/
theorem walks_acquireShared (h : s.lock.IsCalm) (hown : s.lock.supply.isOwn = true)
    (htorn : s.locals.torn = [])
    (harrive : ∀ f s', s'.lock.claim = s.lock.claim → s'.locals.torn = [] →
      s'.locals.node? key = some f → Walks t key answer (arrive p f s'))
    (alive : Nat → Bool) : Walks t key answer (acquireShared ⟨t, key, alive⟩ p s) := by
  have hcan := Locals.canUse_of_intact htorn .nodes
  have htorn' : (s.locals.touch .nodes).torn = [] := (s.locals.torn_touch _).trans htorn
  cases hnode : (s.locals.touch .nodes).node? key with
  | some f =>
    simp only [acquireShared, hcan, if_true, hnode]
    exact harrive f _ rfl htorn' hnode
  | none =>
    obtain ⟨handed, halloc⟩ := Supply.exists_allocate hown s.flags htorn'
    have hkeeps := Supply.allocate_keeps halloc
    let s₀ : Site := { s with flags := handed.flags, locals := handed.locals }
    have hregister : register ⟨t, key, alive⟩ p handed.flag s₀ =
        (s₀.writing t).here (.registering p handed.flag .inside) := by
      cases p with
      | waits => exact beginWrite_of_canWrite (s := s₀) _ h.canWrite
      | once => exact (if_pos h.canWrite).trans (beginWrite_of_canWrite (s := s₀) _ h.canWrite)
    simp only [acquireShared, hcan, if_true, hnode, halloc]
    rw [show register ⟨t, key, alive⟩ p handed.flag
      { s with flags := handed.flags, locals := handed.locals } = _ from hregister]
    refine .goes rfl rfl rfl fun alive => .goes rfl rfl rfl fun alive => harrive _ _ rfl ?_ ?_
    · exact hkeeps.torn.trans htorn'
    · have hnone : handed.locals.node? key = none := by
        rw [← hnode]
        exact congrArg (List.lookup key) hkeeps.nodes
      exact Locals.node?_remember _ _ hnone

/-! ## All operations -/

/-- The site shows who holds the lock, and nobody is in the way. -/
structure Site.Shows (s : Site) (h : Holding) : Prop where
  calm : s.lock.IsCalm
  claim : s.lock.claim = if h.unique then .yes else .no
  gate : s.lock.gate.isSome = h.unique
  clear : s.allClear = (h.shared == 0)
  apart : h.unique = true → h.shared = 0
  own : s.lock.supply.isOwn = true
  intact : s.locals.torn = []

namespace Site.Shows

variable {h : Holding}

theorem claim_no (hs : s.Shows h) (hfree : h.unique = false) : s.lock.claim = .no := by
  rw [hs.claim, hfree]
  rfl

theorem claim_yes (hs : s.Shows h) (htaken : h.unique = true) : s.lock.claim = .yes := by
  rw [hs.claim, htaken]
  rfl

theorem calm_gate (hs : s.Shows h) (gate : Gate) : (s.gate gate).lock.IsCalm :=
  hs.calm.congr rfl rfl rfl

/-- A writer that finds the gate free announces itself. -/
theorem walks_enter (hs : s.Shows h) (hfree : h.isFree = true) (w : Writer) :
    Walks t key w.answer (announce w (s.gate (some t))) := by
  simp only [Holding.isFree, Bool.and_eq_true] at hfree
  exact walks_announce_clear w (hs.calm_gate _) (hs.clear.trans hfree.2)

/-- A hasty writer that finds somebody else is sent away, by the gate or by a flag. -/
theorem walks_tryEnter_refused (hs : s.Shows h) (htaken : h.isFree = false) (alive : Nat → Bool) :
    Walks t key (.granted false) (tryEnter ⟨t, key, alive⟩ s) := by
  cases hunique : h.unique with
  | true =>
    rw [tryEnter, if_pos (hs.gate.trans hunique)]
    exact .done rfl
  | false =>
    have hup : s.allClear = false := by
      rw [hs.clear]
      simpa [Holding.isFree, hunique] using htaken
    rw [tryEnter, if_neg (by simp [hs.gate, hunique])]
    exact walks_announce_refused (hs.calm_gate _) hup

/-- A reader that finds no writer has the lock. -/
theorem walks_enterShared (hs : s.Shows h) (hfree : h.unique = false) (p : Patience)
    (alive : Nat → Bool) : Walks t key p.answer (acquireShared ⟨t, key, alive⟩ p s) :=
  walks_acquireShared hs.calm hs.own hs.intact
    (fun _ _ hclaim _ _ => walks_arrive (hclaim.trans (hs.claim_no hfree))) alive

end Site.Shows

/-- An operation that need not wait gets to its end, with the answer that the two fields have for
it. -/
theorem walks_start {h next : Holding} {op : Operation} (hs : s.Shows h)
    (hnode : op = .release .shared → s.locals.node? key ≠ none)
    (hnext : h.next? op = some (answer, next)) (alive : Nat → Bool) :
    Walks t key answer (start ⟨t, key, alive⟩ op s) := by
  have hgate : h.isFree = true → ¬ s.lock.gate.isSome = true := by
    intro hfree
    simp only [Holding.isFree, Bool.and_eq_true, Bool.not_eq_true'] at hfree
    rw [hs.gate, hfree.1]
    simp
  rcases op with mode | mode | mode <;> cases mode <;> simp only [Holding.next?] at hnext <;>
    split at hnext <;> cases hnext
  case acquire.unique.isTrue hfree =>
    rw [start, enter, if_neg (hgate hfree)]
    exact hs.walks_enter hfree (.patient false _)
  case acquire.shared.isFalse hfree =>
    exact hs.walks_enterShared (Bool.eq_false_iff.mpr hfree) .waits alive
  case tryAcquire.unique.isTrue hfree =>
    rw [start, tryEnter, if_neg (hgate hfree)]
    exact hs.walks_enter hfree .hasty
  case tryAcquire.unique.isFalse htaken =>
    exact hs.walks_tryEnter_refused (Bool.eq_false_iff.mpr htaken) alive
  case tryAcquire.shared.isTrue htaken =>
    refine walks_acquireShared hs.calm hs.own hs.intact (fun f s' hclaim htorn hf => ?_) alive
    exact walks_arrive_refused htorn hf (hclaim.trans (hs.claim_yes htaken))
  case tryAcquire.shared.isFalse hfree =>
    exact hs.walks_enterShared (Bool.eq_false_iff.mpr hfree) .once alive
  case release.unique.isTrue htaken =>
    simp only [start, releaseUnique, hs.claim_yes htaken, if_true]
    exact walks_reopen .released hs.calm
  case release.shared.isTrue hpos =>
    obtain ⟨f, hf⟩ := Option.ne_none_iff_exists'.mp (hnode rfl)
    have hfree : h.unique = false :=
      Bool.eq_false_iff.mpr fun htaken => absurd (hs.apart htaken) (Nat.ne_of_gt hpos)
    have hclaim : s.lock.claim ≠ .want := by
      rw [hs.claim_no hfree]
      simp
    exact .goes rfl rfl rfl fun alive => .done (leave_stand _ _ hs.intact hf hclaim)

end ReadMostly

end ReaderWriter
