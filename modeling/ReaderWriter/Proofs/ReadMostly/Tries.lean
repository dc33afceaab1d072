import ReaderWriter.Proofs.ReadMostly.Quiet

/-!
# Tries on a read-mostly lock

What a thread comes to that tries to take a read-mostly lock, wherever everybody else has been
stopped. A try does not wait for the lock itself. But a try that is refused has already shown
something to others, its claim or its flag, and takes that back as a release does: it tells those
who may have seen it. For that it waits.

* `Comes`: a thread comes to a turn of some kind by its own turns.
* `Stuck`: a thread that is here makes turns for ever, or is not let on.
* `Site.Hinders`: what keeps a try in a mode from coming back.
* `comes_try`, `stuck_try`: a try comes back if nothing hinders it, and gets stuck otherwise.
* `Crowd.Reachable.pressesOn`: nobody who tries waits for the registry before that.
-/

namespace ReaderWriter

namespace ReadMostly

/-! ## One's own turns -/

/-- A thread that has come to this turn comes by its own turns to one that meets a condition. Other
locks may go meanwhile. -/
inductive Comes (t : ThreadId) (key : Nat) (meets : Step → Prop) : Step → Prop
  | here {step : Step} : meets step → Comes t key meets step
  | goes {step : Step} {pc : Pc} : step.stand = .here pc → obstacle t step.state.lock pc = none →
      (∀ alive, Comes t key meets (resume ⟨t, key, alive⟩ pc step.state)) → Comes t key meets step

/-- The try has ended, and says whether it has the lock. -/
def IsAnswered (step : Step) : Prop := ∃ yes, step.stand = .done (.granted yes)

section

variable {t : ThreadId} {key : Nat} {meets meets' : Step → Prop} {step : Step}
  {s : Site} {pc : Pc} {f : Flag} {mode : Mode}

/-- One way after another. -/
theorem Comes.trans (h : Comes t key meets step)
    (hgoes : ∀ step, meets step → Comes t key meets' step) : Comes t key meets' step := by
  induction h with
  | here hmeets => exact hgoes _ hmeets
  | goes hhere hfree _ ih => exact .goes hhere hfree ih

theorem Walks.isAnswered {yes : Bool} (h : Walks t key (.granted yes) step) :
    Comes t key IsAnswered step := by
  induction h with
  | done hdone => exact .here ⟨yes, hdone⟩
  | goes hhere hfree _ _ ih => exact .goes hhere hfree ih

/-! ## Stuck -/

/-- The thread does not come to the end of its operation as long as nobody else moves. -/
inductive Stuck (s : Site) : Pc → Prop
  /-- It is to notify a writer, and somebody has been stopped while notifying one. -/
  | outnotified (why : Reopening) {n : Notice.Stage} : Untold n →
      s.lock.drained.notifying = true → Stuck s (.passingOn why n)
  /-- It is to look at the flags, and somebody has been stopped while changing the registry, or has
  reserved it for that and waits. -/
  | barred (why : HandOff) (b : Backoff) {stage : HandOff.Stage} :
      stage = .begun ∨ stage = .checking .wanted → s.lock.registry.canRead = false →
      Stuck s (.handingOff why stage b)
  /-- It notifies the writer for whom all flags are down until the writer has seen that. -/
  | unheeded (why : HandOff) (b : Backoff) {stage : HandOff.Stage} : stage ≠ .finished →
      s.lock.claim = .want → s.allClear = true → Stuck s (.handingOff why stage b)

/-- The thread stands where it is stuck. -/
def IsStuck (step : Step) : Prop := ∃ pc, step.stand = .here pc ∧ Stuck step.state pc

theorem Stuck.isStuck (h : Stuck s pc) : IsStuck (s.here pc) := ⟨pc, rfl, h⟩

theorem isStuck_beginRead (sc : Scene) (why : HandOff) (b : Backoff)
    {stage : Access → HandOff.Stage} (hstage : ∀ a, stage a ≠ .finished)
    (hclaim : s.lock.claim = .want) (hclear : s.allClear = true) :
    IsStuck (beginRead sc (fun a => .handingOff why (stage a) b) s) := by
  unfold beginRead
  split <;> exact ⟨_, rfl, .unheeded why b (hstage _) hclaim hclear⟩

/-- A thread that notifies a writer for whom all flags are down does that for ever. -/
theorem isStuck_handOff (sc : Scene) (why : HandOff) (b : Backoff) {stage : HandOff.Stage}
    (hstage : stage ≠ .finished) (hclaim : s.lock.claim = .want) (hclear : s.allClear = true) :
    IsStuck (handOff sc why b stage s) := by
  have hlooks : IsStuck (beginRead sc (fun a => .handingOff why (.checking a) b) s) :=
    isStuck_beginRead sc why b (by rintro _ ⟨⟩) hclaim hclear
  have hlooksAgain : ∀ s' : Site, s'.lock.claim = .want → s'.allClear = true →
      IsStuck (beginRead sc (fun a => .handingOff why (.rechecking a) b) s') :=
    fun s' => isStuck_beginRead sc why b (by rintro _ ⟨⟩)
  have hnotifies : IsStuck (notifyWriter (fun n => .handingOff why (.prodding n) b) s) :=
    ⟨_, rfl, .unheeded why b (by rintro ⟨⟩) hclaim hclear⟩
  cases stage with
  | begun | snoozing => exact hlooks
  | checking a =>
    cases a with
    | wanted => exact hlooks
    | inside =>
      simp only [handOff, hclear, if_true]
      exact ⟨_, rfl, .unheeded why b (by rintro ⟨⟩) hclaim hclear⟩
  | prodding n =>
    cases n with
    | announced | yielding => exact hnotifies
    | inside woken =>
      simp only [handOff, hclaim, if_true]
      exact hlooksAgain _ hclaim hclear
  | rechecking a =>
    cases a with
    | wanted => exact hlooksAgain s hclaim hclear
    | inside =>
      simp only [handOff, hclear, if_true]
      exact ⟨_, rfl, .unheeded why _ (by rintro ⟨⟩) hclaim hclear⟩
  | finished => exact absurd rfl hstage

/-- A thread that is stuck stays stuck, however many turns it makes. -/
theorem Stuck.resume (h : Stuck s pc) (sc : Scene) (hfree : obstacle t s.lock pc = none) :
    IsStuck (resume sc pc s) := by
  cases h with
  | outnotified why hn hnotifying =>
    have hlater : notifyWriter (.passingOn why) s = s.here (.passingOn why .yielding) := by
      simp only [notifyWriter, Notice.begin, Signal.notify?, hnotifying, if_true]
    have hstuck : IsStuck (notifyWriter (.passingOn why) s) :=
      hlater ▸ (Stuck.outnotified why .yielding hnotifying).isStuck
    cases hn <;> exact hstuck
  | barred why b hstage hbarred =>
    rcases hstage with rfl | rfl
    · have hwants : ReadMostly.resume sc (.handingOff why .begun b) s =
          s.here (.handingOff why (.checking .wanted) b) :=
        if_neg (Bool.eq_false_iff.mp hbarred)
      exact hwants ▸ (Stuck.barred why b (.inr rfl) hbarred).isStuck
    · simp [obstacle, State.readObstacle, hbarred] at hfree
  | unheeded why b hstage hclaim hclear => exact isStuck_handOff sc why b hstage hclaim hclear

/-! ## The exclusive side -/

/-- The thread is about to notify a writer, after it has been refused and has freed the gate. -/
def PassesOn (signal : Signal) (step : Step) : Prop :=
  ∃ s : Site, step = s.here (.passingOn .refused .announced) ∧ s.lock.drained = signal

/-- A hasty writer that gives up takes its claim back, tells the readers, and frees the gate. -/
theorem comes_refused (h : s.lock.reopened.notifying = false) :
    Comes t key (PassesOn s.lock.drained) (s.here .refused) := by
  refine .goes rfl rfl fun alive => .goes rfl rfl fun alive => ?_
  obtain ⟨signal, woken, heq⟩ :=
    notifyReaders_of_calm (s := s.claim .no) (.reopening .refused) h
  simp only [Site.here, resume, reopen, heq]
  exact .goes rfl rfl fun alive => .here ⟨_, rfl, rfl⟩

/-- A hasty writer that has the gate looks at the flags if it can. -/
theorem comes_announce (h : s.lock.registry.canRead = true)
    (hjudge : Comes t key meets
      (judge .hasty s.allClear (((s.claim .want).reading t).haveRead t))) :
    Comes t key meets (announce .hasty s) := by
  refine .goes rfl rfl fun alive => ?_
  have hscan : scan ⟨t, key, alive⟩ .hasty (s.claim .want) =
      ((s.claim .want).reading t).here (.scanning .hasty .inside) :=
    (if_pos h).trans (if_pos h)
  simp only [announce, Site.here, resume, hscan]
  exact .goes rfl rfl fun alive => hjudge

/-- A hasty writer has the lock if it can look at the flags and all are down. -/
theorem comes_announce_clear (hread : s.lock.registry.canRead = true)
    (hclear : s.allClear = true) : Comes t key IsAnswered (announce .hasty s) := by
  refine comes_announce hread ?_
  rw [hclear]
  exact .goes rfl rfl fun alive => .here ⟨true, rfl⟩

/-- A hasty writer gives up if it cannot look at the flags, or one is up. -/
theorem comes_announce_refused (hreopened : s.lock.reopened.notifying = false)
    (h : ¬ (s.lock.registry.canRead = true ∧ s.allClear = true)) :
    Comes t key (PassesOn s.lock.drained) (announce .hasty s) := by
  cases hread : s.lock.registry.canRead with
  | true =>
    have hup : s.allClear = false := Bool.eq_false_iff.mpr fun hclear => h ⟨hread, hclear⟩
    refine comes_announce hread ?_
    rw [hup]
    exact comes_refused (s := ((s.claim .want).reading t).haveRead t) hreopened
  | false =>
    refine .goes rfl rfl fun alive => ?_
    have hscan : scan ⟨t, key, alive⟩ .hasty (s.claim .want) = (s.claim .want).here .refused :=
      if_neg (Bool.eq_false_iff.mp hread)
    simp only [announce, Site.here, resume, hscan]
    exact comes_refused (s := s.claim .want) hreopened

/-! ## The shared side -/

/-- A flag that has been down is as it was once it has been raised and lowered again. -/
theorem allClear_put_put (h : s.flags.isRaised f = false) :
    ((s.put f true).put f false).allClear = s.allClear := by
  have hsame : ∀ g, ((s.flags.put f true).put f false).isRaised g = s.flags.isRaised g := by
    intro g
    rw [Flags.isRaised_put, Flags.isRaised_put]
    split
    · next hg => rw [hg, h]
    · rfl
  simp only [Site.allClear, Registry.allClear, Site.put, hsame]

/-- The thread is about to look after a writer, after its reader has been refused. -/
def LooksAfter (s : Site) (step : Step) : Prop :=
  ∃ (s' : Site) (b : Backoff), step = s'.here (.handingOff (.left (.granted false)) .begun b) ∧
    s'.lock = s.lock ∧ s'.allClear = s.allClear

/-- A hasty reader that finds a writer under way lowers its flag again and looks after the
writer. -/
theorem comes_arrive_want (htorn : s.locals.torn = []) (hnode : s.locals.node? key = some f)
    (hdown : s.flags.isRaised f = false) (hclaim : s.lock.claim = .want) :
    Comes t key (LooksAfter s) (arrive .once f s) := by
  have hno : s.lock.claim ≠ .no := by
    rw [hclaim]
    nofun
  simp only [arrive, hno, if_false]
  refine .goes rfl rfl fun alive => .goes rfl rfl fun alive => .here ?_
  have hcan := Locals.canUse_of_intact htorn .nodes
  rw [← node?_touch _ .nodes] at hnode
  have hleave : leave ⟨t, key, alive⟩ (.granted false) (s.put f true) =
      (((s.keeping (s.locals.touch .nodes)).put f true).put f false).here
        (.handingOff (.left (.granted false)) .begun (.ofConfig s.lock.config)) := by
    simp only [leave, Site.put, Site.keeping, hcan, if_true, hnode, hclaim]
  exact ⟨_, _, hleave, rfl, allClear_put_put (s := s.keeping (s.locals.touch .nodes)) hdown⟩

/-- Any other reader that comes by its flag has its answer at once. -/
theorem comes_arrive_free (htorn : s.locals.torn = []) (hnode : s.locals.node? key = some f)
    (hclaim : s.lock.claim ≠ .want) :
    Comes t key IsAnswered (arrive .once f s) := by
  cases hc : s.lock.claim with
  | no => exact (walks_arrive (p := .once) hc).isAnswered
  | want => exact absurd hc hclaim
  | yes => exact (walks_arrive_refused htorn hnode hc).isAnswered

/-- A thread that looks after a writer for whom a flag is still up is done with that. -/
theorem comes_handOff (b : Backoff) (hread : s.lock.registry.canRead = true)
    (hup : s.allClear = false) :
    Comes t key IsAnswered
      (s.here (.handingOff (.left (.granted false)) .begun b)) := by
  refine .goes rfl rfl fun alive => ?_
  have hlooks : resume ⟨t, key, alive⟩ (.handingOff (.left (.granted false)) .begun b) s =
      (s.reading t).here (.handingOff (.left (.granted false)) (.checking .inside) b) :=
    if_pos hread
  simp only [Site.here] at hlooks ⊢
  rw [hlooks]
  refine .goes rfl rfl fun alive => ?_
  have hleaves : resume ⟨t, key, alive⟩
      (.handingOff (.left (.granted false)) (.checking .inside) b) (s.reading t) =
      ((s.reading t).haveRead t).here (.handingOff (.left (.granted false)) .finished b) :=
    if_neg (Bool.eq_false_iff.mp hup)
  rw [hleaves]
  exact .goes rfl rfl fun alive => .here ⟨false, rfl⟩

/-! ## What hinders a try -/

/-- What keeps a try in a mode from coming back:

* A writer that has the gate and does not get the lock notifies another writer as it goes. Somebody
  has been stopped while doing that.
* A reader that finds a writer under way looks after it. Either it cannot look at the flags, because
  somebody has been stopped while changing the registry or has reserved it for that, or all flags
  are down and the writer has been stopped before it has seen that. A reader that has no flag on the
  lock yet does not even come that far if the registry is in use. -/
def Site.Hinders (s : Site) (key : Nat) : Mode → Prop
  | .unique => s.lock.gate = none ∧ ¬ (s.lock.registry.canRead = true ∧ s.allClear = true) ∧
      s.lock.drained.notifying = true
  | .shared => s.lock.claim = .want ∧
      if s.locals.node? key = none then s.lock.registry.canWrite = true ∧ s.allClear = true
      else s.lock.registry.canRead = false ∨ s.allClear = true

instance (s : Site) (key : Nat) (mode : Mode) : Decidable (s.Hinders key mode) :=
  match mode with
  | .unique => inferInstanceAs (Decidable (_ ∧ _ ∧ _))
  | .shared => inferInstanceAs (Decidable (_ ∧ _))

/-- A thread that may try to take the lock. -/
structure Site.Tries (s : Site) (key : Nat) (mode : Mode) : Prop where
  intact : s.locals.torn = []
  /-- Whoever notifies the readers has the gate. -/
  unmarked : s.lock.gate = none → s.lock.reopened.notifying = false
  /-- The flag of a reader is down. -/
  down : mode = .shared → ∀ f, s.locals.node? key = some f → s.flags.isRaised f = false
  /-- A reader that has no flag is given one, which is down if it is entered into the registry. -/
  given : mode = .shared → s.locals.node? key = none →
    ∃ handed, s.lock.supply.allocate s.flags (s.locals.touch .nodes) = .ok handed ∧
      (s.lock.registry.canWrite = true → s.flags.isRaised handed.flag = false)

/-- The thread comes by a flag of its own, which is down. -/
structure Site.Arrives (s s' : Site) (key : Nat) (f : Flag) : Prop where
  claim : s'.lock.claim = s.lock.claim
  allClear : s'.allClear = s.allClear
  intact : s'.locals.torn = []
  node : s'.locals.node? key = some f
  down : s'.flags.isRaised f = false

/-- A reader that has a flag on the lock comes by it at once. -/
theorem acquireShared_of_node (h : s.Tries key .shared) (hnode : s.locals.node? key = some f)
    (p : Patience) (alive : Nat → Bool) :
    ∃ s', acquireShared ⟨t, key, alive⟩ p s = arrive p f s' ∧ s'.lock = s.lock ∧
      s.Arrives s' key f := by
  have hcan := Locals.canUse_of_intact h.intact .nodes
  have hnode' : (s.locals.touch .nodes).node? key = some f := (node?_touch _ _ _).trans hnode
  refine ⟨s.keeping (s.locals.touch .nodes), ?_, rfl, ⟨rfl, rfl, ?_, hnode', h.down rfl f hnode⟩⟩
  · simp only [acquireShared, hcan, if_true, hnode']
    rfl
  · exact (s.locals.torn_touch _).trans h.intact

/-- A reader that is given a flag enters it into the registry first, if it can do that at once. -/
theorem acquireShared_of_none (htorn : s.locals.torn = []) (hnode : s.locals.node? key = none)
    {handed : Supply.Handed}
    (halloc : s.lock.supply.allocate s.flags (s.locals.touch .nodes) = .ok handed)
    (hwrite : s.lock.registry.canWrite = true) (alive : Nat → Bool) :
    ∃ notes, acquireShared ⟨t, key, alive⟩ .once s = telling notes
      ((Site.writing { s with flags := handed.flags, locals := handed.locals } t).here
        (.registering .once handed.flag .inside)) := by
  have hcan := Locals.canUse_of_intact htorn .nodes
  have hnode' : (s.locals.touch .nodes).node? key = none := (node?_touch _ _ _).trans hnode
  simp only [acquireShared, hcan, if_true, hnode', halloc]
  exact ⟨_, congrArg (telling _) ((if_pos hwrite).trans (beginWrite_of_canWrite _ hwrite))⟩

/-- From there it comes by its flag. -/
theorem comes_acquireShared (h : s.Tries key .shared) (hnode : s.locals.node? key = none)
    (hwrite : s.lock.registry.canWrite = true) (alive : Nat → Bool) :
    Comes t key (fun step => ∃ f s', step = arrive .once f s' ∧ s'.lock.registry.canRead = true ∧
      s.Arrives s' key f) (acquireShared ⟨t, key, alive⟩ .once s) := by
  obtain ⟨handed, halloc, hdown⟩ := h.given rfl hnode
  have hkeeps := Supply.allocate_keeps halloc
  have hraised : ∀ g, handed.flags.isRaised g = s.flags.isRaised g :=
    isRaised_eq_of_raised_eq hkeeps.raised
  obtain ⟨notes, heq⟩ := acquireShared_of_none h.intact hnode halloc hwrite alive
  rw [heq]
  refine .goes rfl rfl fun alive => .goes rfl rfl fun alive =>
    .here ⟨handed.flag, _, rfl, rfl, ⟨rfl, ?_, ?_, ?_, (hraised _).trans (hdown hwrite)⟩⟩
  · show (s.lock.registry.entries ++ [handed.flag]).all (fun g => !handed.flags.isRaised g) = _
    simp only [List.all_append, List.all_cons, List.all_nil, hraised, hdown hwrite]
    simp [Site.allClear, Registry.allClear]
  · exact hkeeps.torn.trans ((s.locals.torn_touch _).trans h.intact)
  · exact Locals.node?_remember _ _
      ((congrArg (List.lookup key) hkeeps.nodes).trans ((node?_touch _ _ _).trans hnode))

/-- A reader that cannot enter its new flag at once is sent away. -/
theorem acquireShared_refused (h : s.Tries key .shared) (hnode : s.locals.node? key = none)
    (hwrite : s.lock.registry.canWrite = false) (alive : Nat → Bool) :
    IsAnswered (acquireShared ⟨t, key, alive⟩ .once s) := by
  obtain ⟨handed, halloc, -⟩ := h.given rfl hnode
  have hcan := Locals.canUse_of_intact h.intact .nodes
  have hnode' : (s.locals.touch .nodes).node? key = none := (node?_touch _ _ _).trans hnode
  simp only [acquireShared, hcan, if_true, hnode', halloc, register, hwrite, Bool.false_eq_true,
    if_false]
  exact ⟨false, rfl⟩

/-! ## A try -/

/-- A hasty writer comes back if nothing hinders it. -/
theorem comes_tryEnter (h : s.Tries key .unique) (hfree : ¬ s.Hinders key .unique)
    (alive : Nat → Bool) :
    Comes t key IsAnswered (tryEnter ⟨t, key, alive⟩ s) := by
  unfold tryEnter
  split
  · exact .here ⟨false, rfl⟩
  · next hgate =>
    have hgate' : s.lock.gate = none := by simpa using hgate
    by_cases hhad : s.lock.registry.canRead = true ∧ s.allClear = true
    · exact comes_announce_clear (s := s.gate (some t)) hhad.1 hhad.2
    · have hunmarked : s.lock.drained.notifying = false :=
        Bool.eq_false_iff.mpr fun hmark => hfree ⟨hgate', hhad, hmark⟩
      refine (comes_announce_refused (s := s.gate (some t)) (h.unmarked hgate') hhad).trans ?_
      rintro step ⟨s', rfl, hsignal⟩
      refine (walks_passOn .refused ?_).isAnswered
      rw [hsignal]
      exact hunmarked

theorem stuck_tryEnter (h : s.Tries key .unique) (hhindered : s.Hinders key .unique)
    (alive : Nat → Bool) : Comes t key IsStuck (tryEnter ⟨t, key, alive⟩ s) := by
  obtain ⟨hgate, hhad, hmark⟩ := hhindered
  have henter : tryEnter ⟨t, key, alive⟩ s = announce .hasty (s.gate (some t)) :=
    if_neg (by simp [hgate])
  rw [henter]
  refine (comes_announce_refused (s := s.gate (some t)) (h.unmarked hgate) hhad).trans ?_
  rintro step ⟨s', rfl, hsignal⟩
  refine .here (Stuck.outnotified .refused .announced ?_).isStuck
  rw [hsignal]
  exact hmark

/-- What a hasty reader comes to that has come by its flag. -/
theorem Site.Arrives.comes {s' : Site} (h : s.Arrives s' key f)
    (hfree : ¬ (s.lock.claim = .want ∧ (s'.lock.registry.canRead = false ∨ s.allClear = true))) :
    Comes t key IsAnswered (arrive .once f s') := by
  by_cases hclaim : s'.lock.claim = .want
  · have hopen : s'.lock.registry.canRead = true ∧ s.allClear = false := by
      rw [← h.claim] at hfree
      simpa [hclaim] using hfree
    refine (comes_arrive_want h.intact h.node h.down hclaim).trans ?_
    rintro step ⟨s'', b, rfl, hlock, hclear⟩
    exact comes_handOff b (by rw [hlock]; exact hopen.1)
      (hclear.trans (h.allClear.trans hopen.2))
  · exact comes_arrive_free h.intact h.node hclaim

theorem Site.Arrives.stuck {s' : Site} (h : s.Arrives s' key f) (hclaim : s.lock.claim = .want)
    (hhindered : s'.lock.registry.canRead = false ∨ s.allClear = true) :
    Comes t key IsStuck (arrive .once f s') := by
  refine (comes_arrive_want h.intact h.node h.down (h.claim.trans hclaim)).trans ?_
  rintro step ⟨s'', b, rfl, hlock, hclear⟩
  refine .here ?_
  rcases hhindered with hbarred | hseen
  · exact (Stuck.barred _ b (.inl rfl) (by rw [hlock]; exact hbarred)).isStuck
  · exact (Stuck.unheeded _ b (by rintro ⟨⟩) (by rw [hlock]; exact h.claim.trans hclaim)
      (hclear.trans (h.allClear.trans hseen))).isStuck

/-- A try comes back if nothing hinders it. -/
theorem comes_try (h : s.Tries key mode) (hfree : ¬ s.Hinders key mode) (alive : Nat → Bool) :
    Comes t key IsAnswered (start ⟨t, key, alive⟩ (.tryAcquire mode) s) := by
  cases mode with
  | unique => exact comes_tryEnter h hfree alive
  | shared =>
    rw [start]
    cases hnode : s.locals.node? key with
    | some f =>
      obtain ⟨s', heq, hlock, harrives⟩ := acquireShared_of_node h hnode .once alive
      rw [heq]
      refine harrives.comes fun hhindered => hfree ?_
      rw [hlock] at hhindered
      simpa [Site.Hinders, hnode] using hhindered
    | none =>
      cases hwrite : s.lock.registry.canWrite with
      | false => exact .here (acquireShared_refused h hnode hwrite alive)
      | true =>
        refine (comes_acquireShared h hnode hwrite alive).trans ?_
        rintro step ⟨f, s', rfl, hread, harrives⟩
        refine harrives.comes fun hhindered => hfree ?_
        simpa [Site.Hinders, hnode, hwrite, hread] using hhindered

/-- A try that is hindered gets stuck. -/
theorem stuck_try (h : s.Tries key mode) (hhindered : s.Hinders key mode) (alive : Nat → Bool) :
    Comes t key IsStuck (start ⟨t, key, alive⟩ (.tryAcquire mode) s) := by
  cases mode with
  | unique => exact stuck_tryEnter h hhindered alive
  | shared =>
    obtain ⟨hclaim, hhindered⟩ := hhindered
    rw [start]
    split at hhindered
    · next hnode =>
      refine (comes_acquireShared h hnode hhindered.1 alive).trans ?_
      rintro step ⟨f, s', rfl, -, harrives⟩
      exact harrives.stuck hclaim (.inr hhindered.2)
    · next hnode =>
      obtain ⟨f, hf⟩ := Option.ne_none_iff_exists'.mp hnode
      obtain ⟨s', heq, hlock, harrives⟩ := acquireShared_of_node h hf .once alive
      rw [heq]
      exact harrives.stuck hclaim (by rw [hlock]; exact hhindered)

end

/-! ## Waiting for the registry -/

/-- A caller that does not wait for the lock waits for its registry, without having been refused
yet. -/
def Pc.lingers : Pc → Bool
  | .scanning .hasty .wanted | .registering .once _ .wanted | .registering .once _ .reserved => true
  | _ => false

/-- Whoever lingers while it enters a new flag does not wait for the lock. -/
theorem Pc.lingers_registering {p : Patience} {f : Flag} {e : Edit} :
    (Pc.registering p f e).lingers = true ↔ p = .once ∧ e ≠ .inside := by
  cases p <;> cases e <;> simp [lingers]

/-- Nobody begins to linger. -/
theorem Transition.lingers {sc : Scene} {s s' : Site} {job : Job} {stand : Stand Pc}
    {gain : Option Mode} (h : Transition sc s job s' stand gain)
    (hstand : stand.place?.any Pc.lingers = true) : job.pc?.any Pc.lingers = true := by
  cases h with
  | readLater hreads => cases hreads <;> simp_all [Stand.place?, Pc.lingers, Job.pc?]
  | writeLater hwrites => cases hwrites <;> simp_all [Stand.place?, Pc.lingers, Job.pc?]
  | read hreads => cases hreads <;> simp [Stand.place?, Pc.lingers] at hstand
  | write hwrites | await hwrites =>
    cases hwrites with
    | registering =>
      exact Pc.lingers_registering.mpr ⟨(Pc.lingers_registering.mp hstand).1, by rintro ⟨⟩⟩
    | departing => cases hstand
  | register _ _ _ _ hinside =>
    obtain ⟨hp, he⟩ := Pc.lingers_registering.mp hstand
    exact absurd (hinside hp) he
  | notify _ hnotifies | notifyLater hnotifies =>
    cases hnotifies <;> simp [Stand.place?, Pc.lingers] at hstand
  | arrive _ _ hl | enlisted hl =>
    generalize s.lock.claim = claim at hl
    cases hl <;> simp [Stand.place?, Pc.lingers] at hstand
  | look _ _ _ hl | lookAgain hl => cases hl <;> simp [Stand.place?, Pc.lingers] at hstand
  | noNodes _ _ hnone => simp [hnone] at hstand
  | _ => simp [Stand.place?, Pc.lingers] at hstand

namespace Crowd

variable {c c' : Crowd}

/-- Nobody lingers. -/
def PressesOn (c : Crowd) : Prop := ∀ t, ¬ (c.place t).any Pc.lingers = true

theorem PressesOn.of_acts {job : Job} {stand : Stand Pc} {gain : Option Mode} (h : c.PressesOn)
    (hacts : Acts c c' t job stand gain) : c'.PressesOn := by
  intro u hu
  by_cases hut : u = t
  · subst hut
    obtain ⟨sc, locals, locals', -, -, htable⟩ := hacts.table
    rw [hacts.place'] at hu
    have hbefore := htable.lingers hu
    rw [← hacts.place] at hbefore
    exact h u hbefore
  · rw [hacts.places u hut] at hu
    exact h u hu

theorem PressesOn.of_step (h : c.PressesOn) (hstep : Step c c') : c'.PressesOn := by
  cases hstep with
  | call hacts | depart hacts => exact h.of_acts hacts
  | stir _ _ hplace =>
    intro t ht
    exact h t (hplace ▸ ht)
  | wake t heq =>
    subst heq
    exact h

/-- A caller that does not wait for the lock does not wait for its registry either, before it has
been refused. -/
theorem Reachable.pressesOn (h : Reachable c) : c.PressesOn := by
  induction h with
  | start hnew =>
    intro t
    rw [hnew.place t]
    nofun
  | step _ _ _ hstep ih => exact ih.of_step hstep

end Crowd

/-- A caller that does not wait for the lock is never parked, and only ever blocked as a reader that
has been refused, while somebody changes the registry or has reserved it for that. -/
theorem obstacle_of_try {t : ThreadId} {s : State} {pc : Pc} {mode : Mode}
    (hserves : pc.Serves (.tryAcquire mode)) (hpresses : pc.lingers = false) :
    obstacle t s pc = none ∨
      mode = .shared ∧ obstacle t s pc = some .blocked ∧ s.registry.canRead = false := by
  cases pc with
  | claimed w => exact .inl rfl
  | scanning w a =>
    cases w with
    | patient told b => cases hserves
    | hasty =>
      cases a with
      | wanted => cases hpresses
      | inside => exact .inl rfl
  | registering p f a =>
    cases p with
    | waits => cases hserves
    | once =>
      cases a with
      | wanted | reserved => cases hpresses
      | inside => exact .inl rfl
  | handingOff why stage b =>
    have hshared : mode = .shared := by
      cases why with
      | abandoned => cases hserves
      | left answer =>
        rcases hserves with ⟨hop, -⟩ | ⟨hop, -⟩
        · cases hop
        · cases hop
          rfl
    have hreads : ∀ a, s.readObstacle a = none ∨
        mode = .shared ∧ s.readObstacle a = some .blocked ∧ s.registry.canRead = false := by
      intro a
      cases a with
      | inside => exact .inl rfl
      | wanted => cases hread : s.registry.canRead <;> simp [State.readObstacle, hread, hshared]
    cases stage with
    | checking a | rechecking a => exact hreads a
    | begun | prodding n | snoozing | finished => exact .inl rfl
  | _ => first | exact .inl rfl | cases hserves

end ReadMostly

end ReaderWriter
