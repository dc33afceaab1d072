import ReaderWriter.Proofs.Crowds
import ReaderWriter.Proofs.ReadMostly.Nodes

/-!
# Turns on a read-mostly lock

A turn of a run on a read-mostly lock, read off the table of transitions, and the flags that its
thread has before and after.

* `Acts`: a thread has done a job on a read-mostly lock, as the table has it.
* `Operates.acts`, `Departs.acts`: every job is so.
* `Partings`: what becomes of the flags that an ending thread has yet to take off their registries.
-/

namespace ReaderWriter

open ReadMostly (Flag Site Scene Pc Transition Stocks Carries)

/-- The lock at an index is a read-mostly one in this state. -/
def World.ReadMostlyAt (w : World) (m : Nat) (s : ReadMostly.State) : Prop :=
  ∃ l, w.locks[m]? = some l ∧ l.body = .readMostly s

theorem World.ReadMostlyAt.eq {w : World} {m : Nat} {s s' : ReadMostly.State}
    (h : w.ReadMostlyAt m s) (h' : w.ReadMostlyAt m s') : s = s' := by
  obtain ⟨l, hl, hs⟩ := h
  obtain ⟨l', hl', hs'⟩ := h'
  cases hl.symm.trans hl'
  exact Body.readMostly.inj (hs.symm.trans hs')

theorem Body.exists_readMostly {body : Body} (h : body.algorithm = .readMostly) :
    ∃ s, body = .readMostly s := by
  cases body with
  | readMostly s => exact ⟨s, rfl⟩
  | blocking s | polling s => cases h

/-! ## Turns read off the table -/

/-- A thread has done a job on a read-mostly lock, as the table has it. -/
structure Acts (r r' : Run) (t : ThreadId) (m : Nat) (s : ReadMostly.State) (job : Job)
    (site : Site) (stand : Stand Pc) (gain : Option Mode) : Prop where
  before : r.world.ReadMostlyAt m s
  table : Transition ⟨t, m, r.world.isAlive⟩ ⟨s, r.world.flags, (r.world.thread t).locals⟩ job site
    stand gain
  after : r'.world.ReadMostlyAt m site.lock
  flags : r'.world.flags = site.flags
  locals : (r'.world.thread t).locals = site.locals
  stint : (r.world.thread t).stint? = job.pc?.map fun pc => (m, .readMostly pc)
  stint' : (r'.world.thread t).stint? = stand.place?.map fun pc => (m, .readMostly pc)
  others : ∀ u, u ≠ t → r'.world.thread u = r.world.thread u
  locks : ∀ n, n ≠ m → r'.world.locks[n]? = r.world.locks[n]?

variable {r r' : Run} {e : Event} {t u : ThreadId} {m n : Nat} {l : Lock} {job : Job}
  {s : ReadMostly.State} {site : Site} {stand : Stand Pc} {gain : Option Mode} {f : Flag}

theorem place?_eq_of_suits (h : job.Suits .readMostly) : job.place? = job.pc?.map .readMostly := by
  cases job with
  | start op | depart f => rfl
  | resume p =>
    cases p with
    | readMostly pc => rfl
    | blocking | polling => cases h

/-- A job on a read-mostly lock leaves what the turn of the lock leaves. -/
theorem Turned.onReadMostly (h : Turned r r' t m l job) (hs : l.body = .readMostly s)
    {step : ReadMostly.Step} (hstep : step = job.onReadMostly ⟨t, m, r.world.isAlive⟩
      ⟨s, r.world.flags, (r.world.thread t).locals⟩) :
    r'.world.ReadMostlyAt m step.state.lock ∧ r'.world.flags = step.state.flags ∧
      (r'.world.thread t).locals = step.state.locals ∧
      (r.world.work t m job).stand = step.stand.lift .readMostly := by
  have hsuits : job.Suits .readMostly := by
    have := h.suits
    rwa [hs] at this
  have hlt : m < r.world.locks.length := (List.getElem?_eq_some_iff.mp h.lock).1
  have hwork := World.work_readMostly (t := t) h.lock hs hsuits
  subst hstep
  refine ⟨⟨{ l with body := .readMostly _ }, ?_, rfl⟩, ?_, ?_, by rw [hwork]; rfl⟩
  · rw [h.locks, hwork]
    exact List.getElem?_set_self hlt
  · rw [h.flags, hwork]
    rfl
  · rw [h.locals, hwork]
    exact congrArg Thread.locals (World.thread_withThread_self _ _ _)

/-- A lock that is a read-mostly one after a job was so before. -/
theorem Turned.exists_readMostly (h : Turned r r' t m l job) (hs : r'.world.ReadMostlyAt m s) :
    ∃ s, l.body = .readMostly s := by
  obtain ⟨l', hl', hbody⟩ := hs
  obtain ⟨body, halg, hlock⟩ := h.exists_lock
  cases hl'.symm.trans hlock
  exact Body.exists_readMostly (halg.symm.trans (congrArg Body.algorithm hbody))

/-- A job on a read-mostly lock, if the table has it. -/
theorem Turned.acts (h : Turned r r' t m l job) (hs : l.body = .readMostly s)
    (gain : Stand Pc → Option Mode)
    (htable : ∀ sc site, Transition sc site job (job.onReadMostly sc site).state
      (job.onReadMostly sc site).stand (gain (job.onReadMostly sc site).stand)) :
    ∃ site stand, Acts r r' t m s job site stand (gain stand) ∧
      (r.world.work t m job).stand = stand.lift .readMostly := by
  have hsuits : job.Suits .readMostly := by
    have := h.suits
    rwa [hs] at this
  obtain ⟨hafter, hflags, hlocals, hstand⟩ := h.onReadMostly hs rfl
  refine ⟨_, _, ⟨⟨l, h.lock, hs⟩, htable _ _, hafter, hflags, hlocals, ?_, ?_, h.others,
    fun n hn => h.lock_of_ne hn⟩, hstand⟩
  · rw [h.stint, place?_eq_of_suits hsuits, Option.map_map]
    rfl
  · rw [h.stint', hstand, Stand.place?_lift, Option.map_map]
    rfl

theorem Operates.acts {op : Operation} (h : Operates r e r' t m l job op)
    (hs : l.body = .readMostly s) :
    ∃ site stand, Acts r r' t m s job site stand (Hold.granted? op stand) ∧
      (r.world.work t m job).stand = stand.lift .readMostly := by
  have hsuits := h.suits
  rw [hs] at hsuits
  exact h.toTurned.acts hs (Hold.granted? op) fun _ _ =>
    ReadMostly.onReadMostly_transition h.serves hsuits

theorem Departs.acts (h : Departs r r' t m l job) (hs : l.body = .readMostly s) :
    ∃ site stand, Acts r r' t m s job site stand none ∧
      (r.world.work t m job).stand = stand.lift .readMostly :=
  h.toTurned.acts hs (fun _ => none) fun _ _ =>
    ReadMostly.onReadMostly_transition_of_departs h.departs

/-! ## The flags of a thread after a turn -/

namespace Thread

/-- The thread has a flag that is not in the registry of this lock yet. -/
def Registers (th : Thread) (m : Nat) : Prop :=
  ∃ pc, th.stint? = some (m, .readMostly pc) ∧ pc.registers = true

theorem flags_of_stint? {th : Thread} {pc? : Option Pc}
    (h : th.stint? = pc?.map fun pc => (m, .readMostly pc)) :
    th.flags =
      th.locals.nodes ++ th.parting ++ ((pc?.bind Pc.flagInHand?).map (m, ·)).toList := by
  simp only [flags, inHand?, h]
  cases pc? with
  | none => rfl
  | some pc => rfl

theorem registers_iff {th : Thread} {pc? : Option Pc}
    (h : th.stint? = pc?.map fun pc => (m, .readMostly pc)) :
    th.Registers n ↔ n = m ∧ pc?.any Pc.registers = true := by
  unfold Registers
  rw [h]
  cases pc? with
  | none => simp
  | some pc =>
    constructor
    · rintro ⟨pc', heq, hregisters⟩
      cases heq
      exact ⟨rfl, hregisters⟩
    · rintro ⟨rfl, hregisters⟩
      exact ⟨pc, rfl, hregisters⟩

end Thread

/-- What the thread has yet to take off its registries, before and after a job on a lock. -/
inductive Partings (r r' : Run) (t : ThreadId) (m : Nat) (job : Job) : Prop
  | call {op : Operation} : job.Serves op → (r.world.thread t).parting = [] →
      (r'.world.thread t).parting = [] → Partings r r' t m job
  | turns {f : Flag} : job = .depart f →
      (r.world.thread t).parting = (m, f) :: (r'.world.thread t).parting → Partings r r' t m job
  | goes {pc : Pc} : job = .from pc → pc.Departs →
      (r.world.thread t).parting = (r'.world.thread t).parting → Partings r r' t m job

theorem Operates.partings {op : Operation} (h : Operates r e r' t m l job op) :
    Partings r r' t m job :=
  .call h.serves h.parting h.parting'

theorem Departs.partings (h : Departs r r' t m l job) : Partings r r' t m job := by
  have hdeparts := h.departs
  cases job with
  | start op => exact hdeparts.elim
  | resume p =>
    cases p with
    | readMostly pc => exact .goes rfl hdeparts (h.parting' rfl)
    | blocking | polling => exact hdeparts.elim
  | depart f => exact .turns rfl (h.parting f rfl)

theorem Partings.of_not_departs (h : Partings r r' t m job) (hjob : ¬ job.Departs) :
    (r.world.thread t).parting = [] ∧ (r'.world.thread t).parting = [] := by
  cases h with
  | call _ hp hp' => exact ⟨hp, hp'⟩
  | turns heq =>
    rw [heq] at hjob
    exact absurd trivial hjob
  | goes heq hpc =>
    rw [heq] at hjob
    exact absurd hpc hjob

theorem Partings.of_ne_depart (h : Partings r r' t m job) (hjob : ∀ f, job ≠ .depart f) :
    (r'.world.thread t).parting = (r.world.thread t).parting := by
  cases h with
  | call _ hp hp' => rw [hp, hp']
  | turns heq => exact absurd heq (hjob _)
  | goes _ _ hp => exact hp.symm

end ReaderWriter
