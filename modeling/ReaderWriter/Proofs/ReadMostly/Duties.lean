import ReaderWriter.Proofs.ReadMostly.Nodes

/-!
# Who looks after those who wait

The table of transitions, read for the threads that wait on a read-mostly lock: who is parked, who
has the registry, and who is going to see to it that a parked writer or reader goes on.

* `Transition.drained_queues`, `Transition.reopened_queues`: how writers and readers park and are
  woken.
* `Transition.bears`: a thread that looks after the parked writers goes on doing so, until it has
  woken one or the readers are in their way.
* `Transition.covers`: while the claim is `want`, flags that are up only go down if their thread
  then looks after the writer.
-/

namespace ReaderWriter

namespace ReadMostly

/-! ## Places -/

/-- The thread has the registry for writing, or has reserved it. -/
def Edit.isWriting : Edit → Bool
  | .wanted => false
  | .reserved | .inside => true

/-- The thread has the registry for writing, or has reserved it. -/
def Pc.isWriting : Pc → Bool
  | .registering _ _ e | .departing _ _ e => e.isWriting
  | _ => false

/-- The thread has the registry for reading. -/
def Pc.isReading : Pc → Bool
  | .scanning _ .inside | .handingOff _ (.checking .inside) _
    | .handingOff _ (.rechecking .inside) _ | .counting .inside => true
  | _ => false

/-- The mode for which the thread waits in a queue, or has waited and been notified. -/
def Pc.parks? : Pc → Option Mode
  | .draining _ .parked _ => some .unique
  | .waiting _ .parked _ => some .shared
  | _ => none

/-- The mode for which the thread is about to join a queue. -/
def Pc.joins? : Pc → Option Mode
  | .draining _ .parking _ => some .unique
  | .waiting _ .parking _ => some .shared
  | _ => none

/-- The thread will look at the flags, or tell a writer to. -/
def Pc.bears : Pc → Bool
  | .claimed _ | .scanning _ _ | .acquired _ | .refused | .reopening _ _ => true
  | .draining _ (.snoozing _) _ | .draining _ .resumed _ | .draining _ .woken _ => true
  | .passingOn _ .announced | .passingOn _ .yielding => true
  | .prodding _ _ .announced | .prodding _ _ .yielding => true
  | _ => false

/-- The thread is about to park behind the readers that it has seen. -/
def Pc.settles : Pc → Bool
  | .draining _ .announced _ | .draining _ .parking _ => true
  | _ => false

/-- The thread has lowered its flag and will tell a writer if that was the last one. -/
def Pc.covers : Pc → Bool
  | .handingOff _ .finished _ => false
  | .handingOff _ _ _ | .departing _ true _ | .departed true | .abandoned => true
  | _ => false

/-- The thread has set the claim to `want`. -/
def Pc.wants : Pc → Bool
  | .claimed _ | .scanning _ _ | .draining _ _ _ | .refused => true
  | _ => false

/-- The thread is about to tell the readers that they may look at the claim again. -/
def Pc.reopens : Pc → Bool
  | .reopening _ .announced | .reopening _ .yielding => true
  | _ => false

variable {sc : Scene} {s s' : Site} {job : Job} {stand : Stand Pc} {gain : Option Mode}

theorem Landing.any_eq_false {f : Flag} {p : Patience} {claim : Claim} {P : Pc → Bool}
    (h : Landing f p claim stand gain) (hfast : P .fastPath = false)
    (hcontended : P (.contended f) = false) (hrefused : P .sharedRefused = false) :
    stand.place?.any P = false := by
  cases h <;> simp [Stand.place?, *]

theorem Look.any_eq_false {f : Flag} {b : Backoff} {s₀ : Site} {P : Pc → Bool}
    (h : Look f b s₀ s' stand gain) (hprodding : P (.prodding f b .announced) = false)
    (hwaiting : P (.waiting f .announced b) = false) : stand.place?.any P = false := by
  cases h <;> simp [Stand.place?, *]

/-! ## The registry's lock -/

theorem Enters.any_eq_false {P : Pc → Bool} (h : Enters job) (hentering : P .entering = false) :
    job.pc?.any P = false := by
  cases h <;> simp [Job.pc?, hentering]

theorem Asks.any_eq_false {P : Pc → Bool} {p : Patience} (h : Asks job p) :
    job.pc?.any P = false := by
  rw [h.pc?_eq]
  rfl

theorem Registry.Admits.isWriting {r : Registry} {e : Edit} (h : r.Admits e) :
    e.isWriting = true := by
  cases e with
  | wanted => exact h.elim
  | reserved | inside => rfl

/-- A transition passes the registry on from writer to writer. -/
theorem Transition.writer_passes (h : Transition sc s job s' stand gain) :
    Gate.Passes sc.thread s.lock.registry.writer s'.lock.registry.writer
      (job.pc?.any Pc.isWriting = true) (stand.place?.any Pc.isWriting = true) := by
  have hout : s'.lock.registry.writer = s.lock.registry.writer →
      job.pc?.any Pc.isWriting = false → stand.place?.any Pc.isWriting = false →
      Gate.Passes sc.thread s.lock.registry.writer s'.lock.registry.writer
        (job.pc?.any Pc.isWriting = true) (stand.place?.any Pc.isWriting = true) :=
    fun heq hbefore hafter => .keeps heq (by rw [hbefore, hafter])
  cases h with
  | queue henters | claim b henters => exact hout rfl (henters.any_eq_false rfl) rfl
  | arrive hasks _ hland => exact hout rfl hasks.any_eq_false (hland.any_eq_false rfl rfl rfl)
  | register _ _ _ hadmits => exact .takes hadmits.writer_eq_none rfl hadmits.isWriting
  | registerLater hasks | registerNever hasks | noFlag _ hasks =>
    exact hout rfl hasks.any_eq_false rfl
  | noNodes hasks _ hplace => exact hout rfl hasks.any_eq_false (by rw [hplace]; rfl)
  | enlist | strike => exact .gives rfl rfl (by simp [Stand.place?, Pc.isWriting])
  | enlisted hland => exact hout rfl rfl (hland.any_eq_false rfl rfl rfl)
  | arriveLater harrives => exact hout rfl (by cases harrives <;> rfl) rfl
  | look b harrives _ hl =>
    exact hout (by rw [hl.inHand.1]; rfl) (by cases harrives <;> rfl) (hl.any_eq_false rfl rfl)
  | lookAgain hl => exact hout (by rw [hl.inHand.1]; rfl) rfl (hl.any_eq_false rfl rfl)
  | lowerAndWrite _ hadmits | departAndWrite _ hadmits =>
    exact .takes hadmits.writer_eq_none rfl hadmits.isWriting
  | write hwrites hadmits =>
    exact .takes hadmits.writer_eq_none rfl (by cases hwrites <;> exact hadmits.isWriting)
  | @await pc place e hreserves he _ =>
    have hafter : e.isWriting = true := by
      cases e with
      | wanted => exact absurd rfl he
      | reserved | inside => rfl
    exact .keeps rfl (by cases hreserves <;> exact iff_of_true hafter rfl)
  | read h | readLater h | writeLater h | notify _ h | notifyLater h =>
    exact hout rfl (by cases h <;> rfl) (by cases h <;> rfl)
  | _ => exact hout rfl rfl rfl

/-- A transition changes the list of those who read the registry only by its own thread. -/
theorem Transition.readers_reseats (h : Transition sc s job s' stand gain) :
    Reseats sc.thread s.lock.registry.readers s'.lock.registry.readers
      (job.pc?.any Pc.isReading = true) (stand.place?.any Pc.isReading = true) := by
  have hout : s'.lock.registry.readers = s.lock.registry.readers →
      job.pc?.any Pc.isReading = false → Reseats sc.thread s.lock.registry.readers
        s'.lock.registry.readers (job.pc?.any Pc.isReading = true)
        (stand.place?.any Pc.isReading = true) := by
    intro heq hbefore
    rw [heq]
    refine .thins (List.Sublist.refl _) fun _ h => ?_
    rw [hbefore] at h
    cases h
  have hsits : s'.lock.registry.readers = sc.thread :: s.lock.registry.readers →
      job.pc?.any Pc.isReading = false → stand.place?.any Pc.isReading = true →
      Reseats sc.thread s.lock.registry.readers s'.lock.registry.readers
        (job.pc?.any Pc.isReading = true) (stand.place?.any Pc.isReading = true) := by
    intro heq hbefore hafter
    exact .sits (heq ▸ .refl _) (Bool.eq_false_iff.mp hbefore) hafter
  cases h with
  | queue henters | claim b henters => exact hout rfl (henters.any_eq_false rfl)
  | scanHastily => exact hsits rfl rfl rfl
  | succeed | fail | drain | found | missed | replaced | pause => exact .rises rfl
  | arrive hasks | register hasks | registerLater hasks | registerNever hasks | noFlag _ hasks
    | noNodes hasks => exact hout rfl hasks.any_eq_false
  | arriveLater harrives => exact hout rfl (by cases harrives <;> rfl)
  | look b harrives _ hl => exact hout (by rw [hl.inHand.1]; rfl) (by cases harrives <;> rfl)
  | lookAgain hl => exact hout (by rw [hl.inHand.1]; rfl) rfl
  | lookOn => exact hsits rfl rfl rfl
  | read hreads => exact hsits rfl (by cases hreads <;> rfl) (by cases hreads <;> rfl)
  | readLater h | write h | writeLater h | await h | notify _ h | notifyLater h =>
    exact hout rfl (by cases h <;> rfl)
  | _ => exact hout rfl rfl

/-! ## The queues -/

/-- What a transition does to a queue: its thread may join at the end, or wake others. -/
inductive Queues (t : ThreadId) (mode : Mode) (wakes : Wakes) (signal signal' : Signal) (job : Job)
    (stand : Stand Pc) : Prop
  | keeps : signal'.queue = signal.queue →
      (t ∈ signal.queue → job.pc?.bind Pc.parks? = some mode →
        stand.place?.bind Pc.parks? = some mode) → Queues t mode wakes signal signal' job stand
  | parks : job.pc?.bind Pc.joins? = some mode → job.pc?.bind Pc.parks? = none →
      stand.place?.bind Pc.parks? = some mode → signal'.queue = signal.queue ++ [t] →
      Queues t mode wakes signal signal' job stand
  | wakes : job.pc?.bind Pc.parks? = none → signal'.queue = signal.spared wakes →
      Queues t mode wakes signal signal' job stand

theorem Signal.spared_sublist (signal : Signal) (wakes : Wakes) :
    (signal.spared wakes).Sublist signal.queue := by
  cases wakes with
  | one => exact List.drop_sublist _ _
  | all => exact List.nil_sublist _

theorem Queues.reseats {t : ThreadId} {mode : Mode} {wakes : Wakes} {signal signal' : Signal}
    (h : Queues t mode wakes signal signal' job stand) :
    Reseats t signal.queue signal'.queue (job.pc?.bind Pc.parks? = some mode)
      (stand.place?.bind Pc.parks? = some mode) := by
  cases h with
  | keeps heq hself => exact .thins (heq ▸ .refl _) fun ht => hself (heq ▸ ht)
  | parks _ hbefore hafter heq =>
    refine .sits (heq ▸ List.perm_append_singleton _ _) (by simp [hbefore]) hafter
  | wakes hbefore heq =>
    refine .thins (heq ▸ Signal.spared_sublist _ _) fun _ h => ?_
    rw [hbefore] at h
    cases h

theorem Enters.parks?_eq (h : Enters job) : job.pc?.bind Pc.parks? = none := by
  cases h <;> rfl

theorem Asks.parks?_eq {p : Patience} (h : Asks job p) : job.pc?.bind Pc.parks? = none := by
  rw [h.pc?_eq]
  rfl

theorem Arrives.parks?_eq {pc : Pc} {f : Flag} (h : Arrives pc f) : pc.parks? = none := by
  cases h <;> rfl

theorem Look.lock_eq {f : Flag} {b : Backoff} {s₀ : Site} (h : Look f b s₀ s' stand gain) :
    s'.lock.drained = s₀.lock.drained ∧ s'.lock.reopened = s₀.lock.reopened ∧
      s'.lock.claim = s₀.lock.claim := by
  cases h <;> exact ⟨rfl, rfl, rfl⟩

/-- What a turn of a wait does to the queue in which it parks. -/
theorem Queues.of_goes {t : ThreadId} {mode : Mode} {wakes : Wakes} {gate gate' : Gate}
    {signal signal' : Signal} {stage stage' : Wait.Stage} (before after : Wait.Stage → Pc)
    (h : Wait.Goes t gate signal stage gate' signal' stage')
    (hjoins : (before .parking).joins? = some mode)
    (hbefore : ∀ stage, (before stage).parks? = if stage = .parked then some mode else none)
    (hafter : ∀ stage, (after stage).parks? = if stage = .parked then some mode else none) :
    Queues t mode wakes signal signal' (.from (before stage)) (.here (after stage')) := by
  have hquiet : stage ≠ .parked → signal' = signal →
      Queues t mode wakes signal signal' (.from (before stage)) (.here (after stage')) := by
    rintro hstage rfl
    refine .keeps rfl fun _ hparks => ?_
    cases hparks.symm.trans ((hbefore stage).trans (if_neg hstage))
  cases h with
  | park => exact .parks hjoins (hbefore _) (hafter _) rfl
  | stay hstage =>
    rcases hstage with rfl | ⟨_, rfl⟩
    · exact .keeps rfl fun _ _ => hafter _
    · exact hquiet nofun rfl
  | resume hnot => exact .keeps rfl fun ht => absurd ht hnot
  | settle | snooze | retake | wake => exact hquiet nofun rfl

theorem Transition.drained_queues (h : Transition sc s job s' stand gain) :
    Queues sc.thread .unique .one s.lock.drained s'.lock.drained job stand := by
  have hquiet : s'.lock.drained.queue = s.lock.drained.queue →
      job.pc?.bind Pc.parks? ≠ some .unique →
      Queues sc.thread .unique .one s.lock.drained s'.lock.drained job stand :=
    fun heq hjob => .keeps heq fun _ h => absurd h hjob
  cases h with
  | queue henters | claim b henters => exact hquiet rfl (by simp [henters.parks?_eq])
  | drainOn told b b' hgoes =>
    exact .of_goes (.draining told · b) (.draining told · b') hgoes rfl
      (fun stage => by cases stage <;> rfl) fun stage => by cases stage <;> rfl
  | arrive hasks | register hasks | registerLater hasks | registerNever hasks | noFlag _ hasks
    | noNodes hasks => exact hquiet rfl (by simp [hasks.parks?_eq])
  | arriveLater harrives => exact hquiet rfl (by simp [Job.pc?, harrives.parks?_eq])
  | look b harrives _ hl =>
    exact hquiet (by rw [hl.lock_eq.1]; rfl) (by simp [Job.pc?, harrives.parks?_eq])
  | lookAgain hl => exact hquiet (by rw [hl.lock_eq.1]; rfl) (by simp [Job.pc?, Pc.parks?])
  | waitOn f b b' hgoes =>
    refine hquiet rfl ?_
    rename_i stage _
    cases stage <;> simp [Job.pc?, Pc.parks?]
  | notify _ hnotifies => exact .wakes (by cases hnotifies <;> rfl) rfl
  | read h | readLater h | write h | writeLater h | await h | notifyLater h =>
    exact hquiet rfl (by cases h <;> simp [Job.pc?, Pc.parks?])
  | _ => exact hquiet rfl (by simp [Job.pc?, Pc.parks?])

theorem Transition.reopened_queues (h : Transition sc s job s' stand gain) :
    Queues sc.thread .shared .all s.lock.reopened s'.lock.reopened job stand := by
  have hquiet : s'.lock.reopened.queue = s.lock.reopened.queue →
      job.pc?.bind Pc.parks? ≠ some .shared →
      Queues sc.thread .shared .all s.lock.reopened s'.lock.reopened job stand :=
    fun heq hjob => .keeps heq fun _ h => absurd h hjob
  cases h with
  | queue henters | claim b henters => exact hquiet rfl (by simp [henters.parks?_eq])
  | drainOn told b b' hgoes =>
    refine hquiet rfl ?_
    rename_i stage _
    cases stage <;> simp [Job.pc?, Pc.parks?]
  | tellReaders => exact .wakes rfl rfl
  | arrive hasks | register hasks | registerLater hasks | registerNever hasks | noFlag _ hasks
    | noNodes hasks => exact hquiet rfl (by simp [hasks.parks?_eq])
  | arriveLater harrives => exact hquiet rfl (by simp [Job.pc?, harrives.parks?_eq])
  | look b harrives _ hl =>
    exact hquiet (by rw [hl.lock_eq.2.1]; rfl) (by simp [Job.pc?, harrives.parks?_eq])
  | lookAgain hl => exact hquiet (by rw [hl.lock_eq.2.1]; rfl) (by simp [Job.pc?, Pc.parks?])
  | waitOn f b b' hgoes =>
    exact .of_goes (.waiting f · b) (.waiting f · b') hgoes rfl
      (fun stage => by cases stage <;> rfl) fun stage => by cases stage <;> rfl
  | read h | readLater h | write h | writeLater h | await h | notify _ h | notifyLater h =>
    exact hquiet rfl (by cases h <;> simp [Job.pc?, Pc.parks?])
  | _ => exact hquiet rfl (by simp [Job.pc?, Pc.parks?])

/-! ## Looking after the writers -/

/-- The thread will see to it that the writers in a queue go on: its place says so, or it has been
woken itself. -/
def Bears (t : ThreadId) (queue : List ThreadId) (pc? : Option Pc) : Prop :=
  pc?.any Pc.bears = true ∨ pc?.bind Pc.parks? = some .unique ∧ t ∉ queue

/-- What becomes of a thread's care for the writers. -/
inductive BearsOn (t : ThreadId) (s s' : Site) (job : Job) (stand : Stand Pc) : Prop
  | goesOn : Bears t s'.lock.drained.queue stand.place? → BearsOn t s s' job stand
  /-- It has woken one of them. -/
  | wakes : s'.lock.drained.queue = s.lock.drained.queue.drop 1 →
      job.pc?.bind Pc.parks? = none → BearsOn t s s' job stand
  /-- It has the lock. -/
  | served : s'.lock.claim = .yes → BearsOn t s s' job stand
  /-- It has found readers in the way. -/
  | blocked : s'.lock.claim = .want → s'.allClear = false → BearsOn t s s' job stand

theorem Transition.bears (h : Transition sc s job s' stand gain)
    (hfits : ∀ pc, job = .from pc → pc.Fits s.lock.claim)
    (hbears : Bears sc.thread s.lock.drained.queue job.pc?) :
    BearsOn sc.thread s s' job stand := by
  have hquiet : job.pc?.any Pc.bears = false → job.pc?.bind Pc.parks? ≠ some .unique →
      BearsOn sc.thread s s' job stand := by
    intro hjob hparks
    rcases hbears with hbears | ⟨hbears, -⟩
    · rw [hjob] at hbears
      cases hbears
    · exact absurd hbears hparks
  have hgoesOn : stand.place?.any Pc.bears = true → BearsOn sc.thread s s' job stand :=
    fun hstand => .goesOn (.inl hstand)
  cases h with
  | queue henters | claim b henters =>
    exact hquiet (henters.any_eq_false rfl) (by simp [henters.parks?_eq])
  | scanHastily | turnAway | succeed | fail | reclaim | unclaim | tellReaders | tellReadersLater
    | readersTold => exact hgoesOn rfl
  | drain told b hclear =>
    have hwant : s.lock.claim = .want := hfits _ rfl
    exact .blocked hwant hclear
  | drainOn told b b' hgoes =>
    cases hgoes with
    | settle | snooze | park => exact hquiet rfl (by simp [Job.pc?, Pc.parks?])
    | stay hstage => exact .goesOn (by rcases hstage with rfl | ⟨_, rfl⟩ <;> exact hbears)
    | resume | retake | wake => exact hgoesOn rfl
  | acquire answer =>
    have hyes : s.lock.claim = .yes := hfits _ rfl
    exact .served hyes
  | arrive hasks | register hasks | registerLater hasks | registerNever hasks | noFlag _ hasks
    | noNodes hasks => exact hquiet hasks.any_eq_false (by simp [hasks.parks?_eq])
  | look b harrives | arriveLater harrives =>
    exact hquiet (by cases harrives <;> rfl) (by simp [Job.pc?, harrives.parks?_eq])
  | waitOn f b b' hgoes =>
    rename_i stage _
    cases stage <;> exact hquiet rfl (by simp [Job.pc?, Pc.parks?])
  | read hreads | readLater hreads =>
    cases hreads with
    | claimed | scanning => exact hgoesOn rfl
    | begun | checking | rechecking | snoozing => exact hquiet rfl (by simp [Job.pc?, Pc.parks?])
  | write h | writeLater h | await h =>
    exact hquiet (by cases h <;> rfl) (by cases h <;> simp [Job.pc?, Pc.parks?])
  | notify _ hnotifies => exact .wakes rfl (by cases hnotifies <;> rfl)
  | notifyLater hnotifies =>
    cases hnotifies with
    | passingOn | prodding => exact hgoesOn rfl
    | handingOff => exact hquiet rfl (by simp [Job.pc?, Pc.parks?])
  | _ => exact hquiet rfl (by simp [Job.pc?, Pc.parks?])

/-- Whoever changes the claim looks after the writers. -/
theorem Transition.claim_eq_or_bears (h : Transition sc s job s' stand gain) :
    s'.lock.claim = s.lock.claim ∨ stand.place?.any Pc.bears = true := by
  cases h with
  | claim | claimHastily | reclaim | succeed | release | unclaim => exact .inr rfl
  | look b _ _ hl => exact .inl (hl.lock_eq.2.2.trans rfl)
  | lookAgain hl => exact .inl (hl.lock_eq.2.2.trans rfl)
  | _ => exact .inl rfl

theorem Registry.allClear_eq_false {registry : Registry} {flags : Flags} :
    registry.allClear flags = false ↔ ∃ f ∈ registry.entries, flags.isRaised f = true := by
  simp [Registry.allClear]

theorem isRaised_put_true {flags : Flags} {f g : Flag} (h : flags.isRaised g = true) :
    (flags.put f true).isRaised g = true := by
  rw [Flags.isRaised_put, h, ite_self]

/-- A writer's way is not cleared unnoticed: a flag is up, or the thread has lowered its own and
looks after the writers, or it has found a flag up and goes to tell them. -/
inductive CoversOn (s' : Site) (stand : Stand Pc) (gain : Option Mode) : Prop
  | flag : s'.allClear = false → CoversOn s' stand gain
  | covers : stand.place?.any Pc.covers = true → CoversOn s' stand gain
  | bears : stand.place?.any Pc.bears = true → EndsGated stand gain → CoversOn s' stand gain

namespace CoversOn

/-- Flags that are up stay so. -/
theorem of_flags (hflag : s.allClear = false) (hkept : ∀ g ∈ s.lock.registry.entries,
    s.flags.isRaised g = true → g ∈ s'.lock.registry.entries ∧ s'.flags.isRaised g = true) :
    CoversOn s' stand gain := by
  obtain ⟨g, hg, hraised⟩ := Registry.allClear_eq_false.mp hflag
  exact .flag (Registry.allClear_eq_false.mpr ⟨g, hkept g hg hraised⟩)

theorem of_entries (hflag : s.allClear = false)
    (hentries : s'.lock.registry.entries = s.lock.registry.entries)
    (hup : ∀ g, s.flags.isRaised g = true → s'.flags.isRaised g = true) :
    CoversOn s' stand gain := by
  refine of_flags hflag fun g hg hraised => ⟨?_, hup g hraised⟩
  rwa [hentries]

end CoversOn

theorem Transition.covers (h : Transition sc s job s' stand gain) (hwant : s.lock.claim = .want)
    (hdown : ∀ f wasUp, job = .from (.departing f wasUp .inside) → s.flags.isRaised f = false)
    (hcover : s.allClear = false ∨ job.pc?.any Pc.covers = true) : CoversOn s' stand gain := by
  have hflag : job.pc?.any Pc.covers = false → s.allClear = false := by
    intro hjob
    rw [hjob] at hcover
    exact hcover.resolve_right (by simp)
  have hsame : s'.lock.registry.entries = s.lock.registry.entries → s'.flags = s.flags →
      job.pc?.any Pc.covers = false → CoversOn s' stand gain := by
    intro hentries hflags hjob
    refine .of_entries (hflag hjob) hentries fun g hraised => ?_
    rwa [hflags]
  have hput : ∀ {f : Flag}, s'.lock.registry.entries = s.lock.registry.entries →
      s'.flags = s.flags.put f true → job.pc?.any Pc.covers = false → CoversOn s' stand gain := by
    intro f hentries hflags hjob
    refine .of_entries (hflag hjob) hentries fun g hraised => ?_
    rw [hflags]
    exact isRaised_put_true hraised
  have hhand : ∀ {handed : Supply.Handed},
      s.lock.supply.allocate s.flags (s.locals.touch .nodes) = .ok handed →
      s'.lock.registry.entries = s.lock.registry.entries → s'.flags = handed.flags →
      job.pc?.any Pc.covers = false → CoversOn s' stand gain := by
    intro handed halloc hentries hflags hjob
    refine .of_entries (hflag hjob) hentries fun g hraised => ?_
    rwa [hflags, isRaised_eq_of_raised_eq (Supply.allocate_keeps halloc).raised]
  cases h with
  | queue henters | claim b henters => exact hsame rfl rfl (henters.any_eq_false rfl)
  | arrive hasks => exact hput rfl rfl hasks.any_eq_false
  | register hasks _ halloc | registerLater hasks _ halloc | registerNever hasks _ halloc =>
    exact hhand halloc rfl rfl hasks.any_eq_false
  | noFlag _ hasks | noNodes hasks => exact hsame rfl rfl hasks.any_eq_false
  | enlist p f =>
    exact .of_flags (hflag rfl) fun g hg hraised => ⟨List.mem_append_left _ hg, hraised⟩
  | enlisted => exact hput rfl rfl rfl
  | arriveLater harrives => exact hsame rfl rfl (by cases harrives <;> rfl)
  | look b harrives _ hl =>
    cases hl with
    | granted => exact hsame rfl rfl (by cases harrives <;> rfl)
    | wanted => exact .bears rfl (.inl rfl)
    | taken hyes => cases hwant.symm.trans hyes
  | lookAgain hl =>
    cases hl with
    | granted => exact hput rfl rfl rfl
    | wanted => exact .bears rfl (.inl rfl)
    | taken hyes => cases hwant.symm.trans hyes
  | leaveTo | found | lookOn | lookLater | pause | lowerAndWrite | lowerAndWait | struckUp
    | abandonTo => exact .covers rfl
  | leaveFree _ _ hne | served _ _ _ hne | abandonFree hne => exact absurd hwant hne
  | missed _ _ hclear | replaced _ _ hclear => exact .flag hclear
  | strike f wasUp =>
    cases wasUp with
    | true => exact .covers rfl
    | false =>
      refine .of_flags (hflag rfl) fun g hg hraised =>
        ⟨(List.mem_erase_of_ne ?_).mpr hg, hraised⟩
      rintro rfl
      rw [hdown _ _ rfl] at hraised
      cases hraised
  | read hreads | readLater hreads =>
    cases hreads with
    | claimed | scanning => exact hsame rfl rfl rfl
    | begun | checking | rechecking | snoozing => exact .covers rfl
  | write h | writeLater h | await h =>
    cases h with
    | registering => exact hsame rfl rfl rfl
    | departing f wasUp =>
      cases wasUp with
      | true => exact .covers rfl
      | false => exact hsame rfl rfl rfl
  | notify _ hnotifies | notifyLater hnotifies =>
    cases hnotifies with
    | passingOn | prodding => exact hsame rfl rfl rfl
    | handingOff => exact .covers rfl
  | _ => exact hsame rfl rfl rfl

/-- A writer settles down to wait only behind a flag that is up. -/
theorem Transition.settles (h : Transition sc s job s' stand gain)
    (hsettles : stand.place?.any Pc.settles = true) :
    s'.allClear = false ∨ job.pc?.any Pc.settles = true := by
  have hnot : stand.place?.any Pc.settles = false →
      s'.allClear = false ∨ job.pc?.any Pc.settles = true := by
    intro hfalse
    rw [hfalse] at hsettles
    cases hsettles
  cases h with
  | drain _ _ hclear => exact .inl hclear
  | drainOn told b b' hgoes =>
    cases hgoes with
    | settle => exact .inr rfl
    | stay hstage => exact hnot (by rcases hstage with rfl | ⟨_, rfl⟩ <;> rfl)
    | snooze | park | resume | retake | wake => exact hnot rfl
  | arrive _ _ hland | enlisted hland => exact hnot (hland.any_eq_false rfl rfl rfl)
  | noNodes _ _ hplace => exact hnot (by rw [hplace]; rfl)
  | look b _ _ hl | lookAgain hl => exact hnot (hl.any_eq_false rfl rfl)
  | read h | readLater h | write h | writeLater h | await h | notify _ h | notifyLater h =>
    exact hnot (by cases h <;> rfl)
  | _ => exact hnot rfl

/-- A claim that is `want` is some writer's: it was set now, or its writer waits still. -/
theorem Transition.wants (h : Transition sc s job s' stand gain) (hwant : s'.lock.claim = .want) :
    stand.place?.any Pc.wants = true ∨ s.lock.claim = .want ∧ job.pc?.any Pc.wants = false := by
  cases h with
  | claim | claimHastily | scanHastily | turnAway | fail | drain | drainOn | reclaim =>
    exact .inl rfl
  | succeed | release | unclaim => cases hwant
  | acquire | releaseFault | giveUp => exact .inr ⟨hwant, rfl⟩
  | queue henters => exact .inr ⟨hwant, henters.any_eq_false rfl⟩
  | arrive hasks | register hasks | registerLater hasks | registerNever hasks | noFlag _ hasks
    | noNodes hasks => exact .inr ⟨hwant, hasks.any_eq_false⟩
  | look b harrives _ hl =>
    exact .inr ⟨hl.lock_eq.2.2.symm.trans hwant, by cases harrives <;> rfl⟩
  | lookAgain hl => exact .inr ⟨hl.lock_eq.2.2.symm.trans hwant, rfl⟩
  | arriveLater harrives => exact .inr ⟨hwant, by cases harrives <;> rfl⟩
  | read hreads | readLater hreads =>
    cases hreads with
    | claimed | scanning => exact .inl rfl
    | begun | checking | rechecking | snoozing => exact .inr ⟨hwant, rfl⟩
  | write h | writeLater h | await h | notify _ h | notifyLater h =>
    exact .inr ⟨hwant, by cases h <;> rfl⟩
  | _ => exact .inr ⟨hwant, rfl⟩

/-- When the claim goes, the readers are told. -/
theorem Transition.reopens (h : Transition sc s job s' stand gain) (hno : s'.lock.claim = .no) :
    stand.place?.any Pc.reopens = true ∨ s'.lock.reopened.queue = [] ∨
      s.lock.claim = .no ∧ job.pc?.any Pc.reopens = false := by
  cases h with
  | claim | claimHastily | succeed | reclaim => cases hno
  | release | unclaim | tellReadersLater => exact .inl rfl
  | tellReaders => exact .inr (.inl rfl)
  | queue henters => exact .inr (.inr ⟨hno, henters.any_eq_false rfl⟩)
  | arrive hasks | register hasks | registerLater hasks | registerNever hasks | noFlag _ hasks
    | noNodes hasks => exact .inr (.inr ⟨hno, hasks.any_eq_false⟩)
  | look b harrives _ hl =>
    exact .inr (.inr ⟨hl.lock_eq.2.2.symm.trans hno, by cases harrives <;> rfl⟩)
  | lookAgain hl => exact .inr (.inr ⟨hl.lock_eq.2.2.symm.trans hno, rfl⟩)
  | arriveLater harrives => exact .inr (.inr ⟨hno, by cases harrives <;> rfl⟩)
  | read h | readLater h | write h | writeLater h | await h | notify _ h | notifyLater h =>
    exact .inr (.inr ⟨hno, by cases h <;> rfl⟩)
  | _ => exact .inr (.inr ⟨hno, rfl⟩)

end ReadMostly

end ReaderWriter
