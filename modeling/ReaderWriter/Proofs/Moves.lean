import ReaderWriter.Proofs.Calling

/-!
# Moves

Whatever happens to a run, from the point of view of the locks it is one of a few moves: a thread
does a job on one lock, a parked thread wakes, a lock is made or dropped, or nothing happens to any
lock. A read-mostly lock that has been dropped may dissolve after the move, once nobody uses its
registry any more.

* `Run.Orderly`: every thread stands where a call that it has under way, or its end, can take it.
* `Move`, `Dissolves`: what can happen to a run.
* `Drops.exists_lock`, `Dissolves.lock_cases`: what is left of a lock that is dropped or goes.
-/

namespace ReaderWriter

/-! ## Orderly runs -/

/-- A thread of a world stands where its call, or its end, can take it. -/
inductive Tidy (w : World) (th : Thread) : Option Call → Prop
  | idle : th.activity = .idle → Tidy w th none
  | gone : th.activity = .gone → Tidy w th none
  | working {m : Nat} {task : Task} {p : Progress} {c : Call} {op : Operation} {l : Lock} :
      th.activity = .calling ⟨m, task, .operating p⟩ → c.Performs op task →
      w.lock? m = some l → p.algorithm = l.body.algorithm → p.Serves op → Tidy w th (some c)
  | pausing {m : Nat} {mode : Mode} {limit : TimeLimit} {guarded : Bool} {retry : Retry}
      {position : Position} {l : Lock} :
      th.activity = .calling ⟨m, .retry mode guarded retry, position⟩ →
      (∀ p, position ≠ .operating p) → w.lock? m = some l →
      Tidy w th (some (.timed mode limit guarded))
  | ending {e : Ending} :
      th.activity = .ending e → e.armed = [] → e.chore = none → Tidy w th none
  | departing {e : Ending} {m : Nat} {pc : ReadMostly.Pc} {l : Lock} :
      th.activity = .ending e → e.armed = [] → e.chore = some (.node m pc) → pc.Departs →
      w.locks[m]? = some l → l.body.algorithm = .readMostly → Tidy w th none

/-- Nobody has armed calls for its end, and every thread is where it can be. -/
structure Run.Orderly (r : Run) : Prop where
  unarmed : ∀ t, (r.world.thread t).armed = []
  tidy : ∀ t, Tidy r.world (r.world.thread t) (r.asked t)

/-- A thread has a call under way for the lock at an index in this mode. -/
def Run.Awaits (r : Run) (t : ThreadId) (m : Nat) (mode : Mode) : Prop :=
  (∃ c, r.asked t = some c ∧ c.acquires? = some mode) ∧
    ∃ frame, (r.world.thread t).frame? = some frame ∧ frame.lock = m

/-- The thread has not begun to end. -/
def Thread.Lives (th : Thread) : Prop :=
  th.activity = .idle ∨ ∃ frame, th.activity = .calling frame

/-- The thread keeps its nodes for as long as it has any. -/
def Thread.Tends (th : Thread) : Prop := th.locals.nodes ≠ [] → .nodes ∈ th.locals.inUse

/-! ## What the record takes in -/

namespace Hold

/-- The holds when a job has begun: a release gives one up. -/
def begun (holds : List Hold) (t : ThreadId) (m : Nat) : Job → List Hold
  | .start (.release mode) => givenUp holds t m mode
  | .start _ | .resume _ | .depart _ => holds

/-- What the operation has been granted when a job of it ends. -/
def granted? {Pc : Type} (op : Operation) : Stand Pc → Option Mode
  | .done answer => if answer = .granted false then none else op.acquires?
  | .here _ | .fault _ => none

@[simp]
theorem granted?_lift {Pc : Type} (op : Operation) (f : Pc → Progress) (stand : Stand Pc) :
    granted? op (stand.lift f) = granted? op stand := by
  cases stand <;> rfl

theorem granted?_release {Pc : Type} (mode : Mode) (stand : Stand Pc) :
    granted? (.release mode) stand = none := by
  cases stand <;> simp [granted?, Operation.acquires?]

/-- The holds after a job of an operation. -/
def settled (holds : List Hold) (t : ThreadId) (m : Nat) (op : Operation)
    (stand : Stand Progress) : List Hold :=
  match granted? op stand with
  | some mode => ⟨t, m, mode⟩ :: holds
  | none => holds

/-- The holds after a job of an ending thread. -/
def abandoned (holds : List Hold) (t : ThreadId) (m : Nat) (stand : Stand Progress) : List Hold :=
  match stand.place? with
  | some _ => holds.filter fun h => h ≠ ⟨t, m, .shared⟩
  | none => holds

end Hold

/-! ## Moves -/

/-- A thread has done a job on a lock. -/
structure Turned (r r' : Run) (t : ThreadId) (m : Nat) (l : Lock) (job : Job) : Prop where
  lock : r.world.locks[m]? = some l
  suits : job.Suits l.body.algorithm
  /-- The thread stood where the job begins and could go on. -/
  stint : (r.world.thread t).stint? = job.place?.map (m, ·)
  free : ∀ p, job.place? = some p → r.world.operationObstacle t m p = none
  locks : r'.world.locks = (r.world.work t m job).world.locks
  flags : r'.world.flags = (r.world.work t m job).world.flags
  locals : (r'.world.thread t).locals = ((r.world.work t m job).world.thread t).locals
  /-- The thread stands where the job has ended. -/
  stint' : (r'.world.thread t).stint? = (r.world.work t m job).stand.place?.map (m, ·)
  others : ∀ u, u ≠ t → r'.world.thread u = r.world.thread u
  asked : ∀ u, u ≠ t → r'.asked u = r.asked u

/-- A job of a call. -/
structure Operates (r : Run) (e : Event) (r' : Run) (t : ThreadId) (m : Nat) (l : Lock) (job : Job)
    (op : Operation) : Prop extends Turned r r' t m l job where
  owned : l.owned = true
  lives : (r.world.thread t).Lives
  lives' : (r'.world.thread t).Lives
  serves : job.Serves op
  parting : (r.world.thread t).parting = []
  parting' : (r'.world.thread t).parting = []
  holds :
    r'.holds = Hold.settled (Hold.begun r.holds t m job) t m op (r.world.work t m job).stand
  met : r'.world = (r.world.meet e).world
  /-- An operation is started by a call that begins, or by a timed call that tries again. -/
  called : ∀ op', job = .start op' →
    (∃ c, e = .call t m c ∧ c.acquires? = op.acquires? ∧ c.releases? = op.releases?) ∨
      e = .turn t ∧ (r.world.thread t).stint? = none ∧
        (r.world.thread t).frame?.isSome = true ∧ op.releases? = none ∧
        ∀ mode, op.acquires? = some mode → r.Awaits t m mode
  /-- Every other job is a turn of the thread. -/
  turned : ∀ p, job = .resume p → e = .turn t
  awaited : ∀ p, job = .resume p → ∀ mode, op.acquires? = some mode → r.Awaits t m mode
  awaits : ∀ m' mode, r'.Awaits t m' mode →
    m' = m ∧ op.acquires? = some mode ∧ Hold.granted? op (r.world.work t m job).stand = none

/-- A job of an ending thread. -/
structure Departs (r r' : Run) (t : ThreadId) (m : Nat) (l : Lock) (job : Job) : Prop
    extends Turned r r' t m l job where
  alive : r.world.isAlive m = true
  ends : ∃ e, (r'.world.thread t).activity = .ending e
  departs : job.Departs
  idle : r.asked t = none ∧ r'.asked t = none
  parting : ∀ f, job = .depart f →
    (r.world.thread t).parting = (m, f) :: (r'.world.thread t).parting
  parting' : job.place?.isSome = true →
    (r.world.thread t).parting = (r'.world.thread t).parting
  holds : r'.holds = Hold.abandoned r.holds t m (r.world.work t m job).stand

/-- An ending thread has turned to the next thing that it keeps. -/
structure Shifts (r r' : Run) (t : ThreadId) : Prop where
  stint : (r.world.thread t).stint? = none
  stint' : (r'.world.thread t).stint? = none
  locks : r'.world.locks = r.world.locks
  flags : r'.world.flags = r.world.flags
  others : ∀ u, u ≠ t → r'.world.thread u = r.world.thread u
  /-- It keeps its flags, save for those whose registry has gone. -/
  sublist : (r'.world.thread t).flags.Sublist (r.world.thread t).flags
  /-- It keeps the blocks that it has begun to use. -/
  blocks : (r'.world.thread t).locals.block = (r.world.thread t).locals.block ∧
    (r'.world.thread t).locals.pair = (r.world.thread t).locals.pair
  kept : ∀ m f l, (m, f) ∈ (r.world.thread t).flags → r.world.locks[m]? = some l →
    l.body.algorithm = .readMostly → r.world.isAlive m = true → (m, f) ∈ (r'.world.thread t).flags
  ends : ¬ (r'.world.thread t).Lives
  tends : (r.world.thread t).Tends → (r'.world.thread t).Tends ∧
    ((r'.world.thread t).activity = .gone → (r'.world.thread t).flags = [])
  asked : r'.asked = r.asked
  idle : r.asked t = none
  holds : r'.holds = r.holds

/-- A lock that no call uses has been dropped. -/
structure Drops (r r' : Run) (m : Nat) (l : Lock) : Prop where
  lock : r.world.lock? m = some l
  unused : ∀ t frame, (r.world.thread t).frame? = some frame → frame.lock ≠ m
  locks : r'.world.locks = r.world.locks.set m { l with owned := false }
  flags : r'.world.flags = r.world.flags
  threads : ∀ u, r'.world.thread u = r.world.thread u
  asked : r'.asked = r.asked
  holds : r'.holds = r.holds

/-- Something has happened to the locks alone. -/
structure Stirs (r r' : Run) (locks : List Lock) : Prop where
  locks : r'.world.locks = locks
  flags : r'.world.flags = r.world.flags
  threads : ∀ u, r'.world.thread u = r.world.thread u
  asked : r'.asked = r.asked
  holds : r'.holds = r.holds

/-- What an event is from the point of view of the locks. -/
inductive Move (r : Run) (e : Event) (r' : Run) : Prop
  | operate {t : ThreadId} {m : Nat} {l : Lock} {job : Job} {op : Operation} :
      Operates r e r' t m l job op → Move r e r'
  | depart {t : ThreadId} {m : Nat} {l : Lock} {job : Job} :
      Departs r r' t m l job → e = .turn t → Move r e r'
  | shift {t : ThreadId} : Shifts r r' t → Move r e r'
  | drop {m : Nat} {l : Lock} : Drops r r' m l → (∃ t, e = .call t m .drop) → Move r e r'
  | wake {t : ThreadId} :
      Stirs r r' (r.world.locks.map (World.wakeIn t)) → e = .wake t → Move r e r'
  | make {kind : Kind} {config : Config} :
      Stirs r r' (r.world.addLock kind config).locks → e = .make kind config → Move r e r'
  | rest : Stirs r r' r.world.locks → Move r e r'

/-- The registry of a lock that has been dropped is no longer used, and goes. -/
structure Dissolves (r r' : Run) (m : Nat) : Prop where
  dead : r.world.isAlive m = false
  locks : r'.world.locks = (r.world.dissolve m).1.locks
  flags : r'.world.flags = (r.world.dissolve m).1.flags
  threads : ∀ u, r'.world.thread u = r.world.thread u
  asked : r'.asked = r.asked
  holds : r'.holds = r.holds

/-! ## Order is kept -/

/-- No lock has gone. -/
def Run.Spares (r r' : Run) : Prop := ∀ m, r.world.isAlive m = true → r'.world.isAlive m = true

/-- Every lock is there still, with the same algorithm and owner. -/
def World.Keeps (w w' : World) : Prop :=
  ∀ (m : Nat) (l : Lock), w.locks[m]? = some l →
    ∃ l', w'.locks[m]? = some l' ∧ l'.body.algorithm = l.body.algorithm ∧ l'.owned = l.owned

namespace World

theorem Keeps.refl (w : World) : w.Keeps w := fun _ l h => ⟨l, h, rfl, rfl⟩

theorem Keeps.trans {w w' w'' : World} (h : w.Keeps w') (h' : w'.Keeps w'') : w.Keeps w'' := by
  intro m l hl
  obtain ⟨l', hl', halg, howned⟩ := h m l hl
  obtain ⟨l'', hl'', halg', howned'⟩ := h' m l' hl'
  exact ⟨l'', hl'', halg'.trans halg, howned'.trans howned⟩

theorem Keeps.of_locks_eq {w w' : World} (h : w'.locks = w.locks) : w.Keeps w' :=
  fun _ l hl => ⟨l, h ▸ hl, rfl, rfl⟩

/-- Replacing the body of one lock keeps all locks. -/
theorem Keeps.of_set {w w' : World} {m : Nat} {l : Lock} {body : Body} (hl : w.locks[m]? = some l)
    (halg : body.algorithm = l.body.algorithm)
    (h : w'.locks = w.locks.set m { l with body := body }) : w.Keeps w' := by
  intro n k hk
  rw [h, List.getElem?_set]
  by_cases hmn : m = n
  · subst hmn
    have hlt : m < w.locks.length := (List.getElem?_eq_some_iff.mp hl).1
    cases hl.symm.trans hk
    exact ⟨{ l with body := body }, by simp [hlt], halg, rfl⟩
  · exact ⟨k, by simpa [hmn] using hk, rfl, rfl⟩

theorem Keeps.work {w : World} (t : ThreadId) {m : Nat} {l : Lock} {job : Job}
    (hl : w.locks[m]? = some l) (hsuits : job.Suits l.body.algorithm) :
    w.Keeps (w.work t m job).world := by
  obtain ⟨body, halg, hlocks⟩ := work_locks t hl hsuits
  exact .of_set hl halg hlocks

theorem Keeps.wake (w : World) (t : ThreadId) {w' : World}
    (h : w'.locks = w.locks.map (wakeIn t)) : w.Keeps w' := by
  intro m l hl
  refine ⟨wakeIn t l, by rw [h, List.getElem?_map, hl]; rfl, ?_⟩
  unfold wakeIn
  split <;> simp [Body.algorithm, *]

theorem Keeps.addLock (w : World) (kind : Kind) (config : Config) :
    w.Keeps (w.addLock kind config) := by
  intro m l hl
  have hlt : m < w.locks.length := (List.getElem?_eq_some_iff.mp hl).1
  exact ⟨l, by simpa [World.addLock, List.getElem?_append_left hlt] using hl, rfl, rfl⟩

theorem dissolve_cases (w : World) (m : Nat) :
    (w.dissolve m).1 = w ∨
      ∃ l s, w.locks[m]? = some l ∧ l.body = .readMostly s ∧
        (w.dissolve m).1 =
          { w.withLock m { l with body := .readMostly { s with registry := {} } } with
            flags := s.registry.lowerAll w.flags } := by
  unfold dissolve
  split
  · next l hl =>
    split
    · next s hs => exact .inr ⟨l, s, hl, hs, rfl⟩
    · exact .inl rfl
    · exact .inl rfl
  · exact .inl rfl

theorem Keeps.dissolve (w : World) (m : Nat) : w.Keeps (w.dissolve m).1 := by
  rcases dissolve_cases w m with h | ⟨l, s, hl, hs, h⟩
  · rw [h]
    exact .refl w
  · rw [h]
    exact .of_set hl (by rw [hs]; rfl) rfl

theorem thread_dissolve (w : World) (m : Nat) (u : ThreadId) :
    (w.dissolve m).1.thread u = w.thread u := by
  rcases dissolve_cases w m with h | ⟨l, s, -, -, h⟩
  · rw [h]
  · rw [h]
    rfl

end World

/-! ## Locks that are dropped or go -/

namespace Drops

variable {r r' : Run} {m n : Nat} {l k : Lock}

/-- The lock has lost its owner, and no more. -/
theorem lock_self (h : Drops r r' m l) : r'.world.locks[m]? = some { l with owned := false } := by
  have hl := ((r.world.lock?_eq_some m).mp h.lock).1
  rw [h.locks, List.getElem?_set_self (List.getElem?_eq_some_iff.mp hl).1]

theorem lock_of_ne (h : Drops r r' m l) (hn : n ≠ m) :
    r'.world.locks[n]? = r.world.locks[n]? := by
  rw [h.locks, List.getElem?_set_ne hn.symm]

/-- Whichever lock is dropped, every lock is what it was but for its owner. -/
theorem exists_lock (h : Drops r r' m l) (hk : r.world.locks[n]? = some k) :
    ∃ owned, r'.world.locks[n]? = some { k with owned } := by
  by_cases hn : n = m
  · subst hn
    cases hk.symm.trans ((r.world.lock?_eq_some n).mp h.lock).1
    exact ⟨false, h.lock_self⟩
  · exact ⟨k.owned, (h.lock_of_ne hn).trans hk⟩

end Drops

namespace Dissolves

variable {r r' : Run} {m n : Nat} {l : Lock}

theorem length_locks (h : Dissolves r r' m) :
    r'.world.locks.length = r.world.locks.length := by
  rw [h.locks]
  rcases World.dissolve_cases r.world m with heq | ⟨l, s, -, -, heq⟩ <;> rw [heq]
  exact List.length_set

theorem lock_of_ne (h : Dissolves r r' m) (hn : n ≠ m) :
    r'.world.locks[n]? = r.world.locks[n]? := by
  rw [h.locks]
  rcases World.dissolve_cases r.world m with heq | ⟨l, s, -, -, heq⟩ <;> rw [heq]
  exact List.getElem?_set_ne hn.symm

/-- A lock is what it was, or its registry has gone. -/
theorem lock_cases (h : Dissolves r r' m) (hl : r.world.locks[n]? = some l) :
    r'.world.locks[n]? = some l ∨ n = m ∧ ∃ s : ReadMostly.State, l.body = .readMostly s ∧
      r'.world.locks[n]? = some { l with body := .readMostly { s with registry := {} } } := by
  by_cases hn : n = m
  · subst hn
    rw [h.locks]
    rcases World.dissolve_cases r.world n with heq | ⟨l', s, hl', hs, heq⟩ <;> rw [heq]
    · exact .inl hl
    · cases hl.symm.trans hl'
      exact .inr ⟨rfl, s, hs, List.getElem?_set_self (List.getElem?_eq_some_iff.mp hl).1⟩
  · exact .inl ((h.lock_of_ne hn).trans hl)

end Dissolves

/-- A thread in a call is on the lock of the call's frame. -/
theorem Thread.frame?_of_calling {th : Thread} {frame : Frame} (h : th.activity = .calling frame) :
    th.frame? = some frame := by
  simp only [Thread.frame?, h]

namespace Tidy

variable {w w' : World} {th : Thread} {a : Option Call}

/-- A tidy thread stays so while the lock that it is on stays. -/
theorem mono (h : Tidy w th a)
    (hlocks : ∀ (m : Nat) (l : Lock), w.locks[m]? = some l → ∃ l', w'.locks[m]? = some l' ∧
      l'.body.algorithm = l.body.algorithm ∧
      (l.owned = true → (∃ frame, th.frame? = some frame ∧ frame.lock = m) → l'.owned = true)) :
    Tidy w' th a := by
  cases h with
  | idle h => exact .idle h
  | gone h => exact .gone h
  | @working m task p c op l hact hperf hl halg hserves =>
    rw [World.lock?_eq_some] at hl
    obtain ⟨l', hl', halg', howned⟩ := hlocks m l hl.1
    refine .working hact hperf (l := l') ?_ (halg.trans halg'.symm) hserves
    exact (w'.lock?_eq_some m).mpr
      ⟨hl', howned hl.2 ⟨_, Thread.frame?_of_calling hact, rfl⟩⟩
  | @pausing m mode limit guarded retry position l hact hposition hl =>
    rw [World.lock?_eq_some] at hl
    obtain ⟨l', hl', -, howned⟩ := hlocks m l hl.1
    refine .pausing hact hposition (l := l') ?_
    exact (w'.lock?_eq_some m).mpr
      ⟨hl', howned hl.2 ⟨_, Thread.frame?_of_calling hact, rfl⟩⟩
  | ending hact harmed hchore => exact .ending hact harmed hchore
  | @departing e m pc l hact harmed hchore hpc hl halg =>
    obtain ⟨l', hl', halg', -⟩ := hlocks m l hl
    exact .departing hact harmed hchore hpc hl' (halg'.trans halg)

theorem keeps (h : Tidy w th a) (hkeeps : w.Keeps w') : Tidy w' th a :=
  h.mono fun m l hl =>
    let ⟨l', hl', halg, howned⟩ := hkeeps m l hl
    ⟨l', hl', halg, fun h _ => howned.trans h⟩

end Tidy

namespace Run.Orderly

/-- An orderly run stays so when the locks are kept and only one thread changes. -/
theorem of_thread {r r' : Run} (h : r.Orderly) {t : ThreadId} (hkeeps : r.world.Keeps r'.world)
    (hothers : ∀ u, u ≠ t → r'.world.thread u = r.world.thread u)
    (hasked : ∀ u, u ≠ t → r'.asked u = r.asked u)
    (harmed : (r'.world.thread t).armed = [])
    (htidy : Tidy r'.world (r'.world.thread t) (r'.asked t)) : r'.Orderly where
  unarmed u := by
    by_cases hu : u = t
    · rw [hu]
      exact harmed
    · rw [hothers u hu]
      exact h.unarmed u
  tidy u := by
    by_cases hu : u = t
    · rw [hu]
      exact htidy
    · rw [hothers u hu, hasked u hu]
      exact (h.tidy u).keeps hkeeps

/-- An orderly run stays so when the locks are kept and no thread changes. -/
theorem of_locks {r r' : Run} (h : r.Orderly) (hkeeps : r.world.Keeps r'.world)
    (hthreads : ∀ u, r'.world.thread u = r.world.thread u) (hasked : r'.asked = r.asked) :
    r'.Orderly where
  unarmed u := by
    rw [hthreads u]
    exact h.unarmed u
  tidy u := by
    rw [hthreads u, hasked]
    exact (h.tidy u).keeps hkeeps

/-- No thread is in a call on a lock that is dropped, so none minds. -/
theorem of_drops {r r' : Run} (h : r.Orderly) {m : Nat} {l : Lock} (hdrops : Drops r r' m l) :
    r'.Orderly where
  unarmed u := by
    rw [hdrops.threads]
    exact h.unarmed u
  tidy u := by
    rw [hdrops.threads, hdrops.asked]
    have hl := ((r.world.lock?_eq_some m).mp hdrops.lock).1
    refine (h.tidy u).mono fun n k hk => ?_
    by_cases hn : n = m
    · subst hn
      cases hl.symm.trans hk
      refine ⟨{ l with owned := false }, hdrops.lock_self, rfl, ?_⟩
      rintro - ⟨frame, hframe, hm⟩
      exact absurd hm (hdrops.unused u frame hframe)
    · exact ⟨k, (hdrops.lock_of_ne hn).trans hk, rfl, fun h _ => h⟩

end Run.Orderly

/-! ## Locks that have not gone -/

theorem World.isAlive_iff (w : World) (m : Nat) :
    w.isAlive m = true ↔
      (∃ l, w.lock? m = some l) ∨ ∃ t, (w.thread t).departingFrom? = some m := by
  rw [isAlive, Bool.or_eq_true, hasDeparting_iff, Option.isSome_iff_exists]

/-- A thread that takes its flag off a registry stands at a place of that lock. -/
theorem Thread.stint?_of_departing {th : Thread} {m : Nat} (h : th.departingFrom? = some m) :
    ∃ pc, th.stint? = some (m, .readMostly pc) := by
  unfold departingFrom? at h
  split at h
  · next e hact =>
    obtain ⟨chore, armed, nodes⟩ := e
    unfold Ending.departingFrom? at h
    split at h
    · next k pc hchore =>
      cases hchore
      cases h
      exact ⟨pc, by simp [stint?, hact]⟩
    · cases h
  · cases h

theorem Thread.Lives.departingFrom?_eq {th : Thread} (h : th.Lives) : th.departingFrom? = none := by
  rcases h with hact | ⟨frame, hact⟩ <;> simp only [departingFrom?, hact]

section Spares

variable {r r' : Run} {e : Event} {t : ThreadId} {m : Nat} {l : Lock} {job : Job}

/-- A lock goes only as it is dropped or left by the last thread. -/
theorem Run.Spares.of_keeps (hkeeps : r.world.Keeps r'.world)
    (hdeparting : ∀ u n, (r.world.thread u).departingFrom? = some n →
      (r'.world.thread u).departingFrom? = some n) : r.Spares r' := by
  intro m halive
  rw [World.isAlive_iff] at halive ⊢
  refine halive.imp (fun ⟨l, hl⟩ => ?_) fun ⟨u, hu⟩ => ⟨u, hdeparting u m hu⟩
  obtain ⟨hlock, howned⟩ := (World.lock?_eq_some _ _).mp hl
  obtain ⟨l', hl', -, howned'⟩ := hkeeps m l hlock
  exact ⟨l', (World.lock?_eq_some _ _).mpr ⟨hl', howned'.trans howned⟩⟩

theorem Turned.keeps (h : Turned r r' t m l job) : r.world.Keeps r'.world :=
  (World.Keeps.work t h.lock h.suits).trans (.of_locks_eq h.locks)

theorem Operates.isAlive {op : Operation} (h : Operates r e r' t m l job op) :
    r.world.isAlive m = true :=
  (World.isAlive_iff _ _).mpr (.inl ⟨l, (World.lock?_eq_some _ _).mpr ⟨h.lock, h.owned⟩⟩)

theorem Operates.spares {op : Operation} (h : Operates r e r' t m l job op) : r.Spares r' := by
  refine .of_keeps h.keeps fun u n hu => ?_
  by_cases hut : u = t
  · subst hut
    rw [h.lives.departingFrom?_eq] at hu
    cases hu
  · rwa [h.others u hut]

/-- A thread that leaves a registry leaves the others alone. -/
theorem Departs.isAlive_of_ne (h : Departs r r' t m l job) {n : Nat} (hn : n ≠ m)
    (halive : r.world.isAlive n = true) : r'.world.isAlive n = true := by
  rw [World.isAlive_iff] at halive ⊢
  refine halive.imp (fun ⟨l', hl'⟩ => ?_) fun ⟨u, hu⟩ => ⟨u, ?_⟩
  · obtain ⟨hlock, howned⟩ := (World.lock?_eq_some _ _).mp hl'
    obtain ⟨l'', hl'', -, howned'⟩ := h.keeps n l' hlock
    exact ⟨l'', (World.lock?_eq_some _ _).mpr ⟨hl'', howned'.trans howned⟩⟩
  · by_cases hut : u = t
    · subst hut
      obtain ⟨pc, hpc⟩ := Thread.stint?_of_departing hu
      rw [h.stint] at hpc
      obtain ⟨p, -, heq⟩ := Option.map_eq_some_iff.mp hpc
      exact absurd (congrArg Prod.fst heq).symm hn
    · rwa [h.others u hut]

theorem Departs.spares (h : Departs r r' t m l job) (hm : r'.world.isAlive m = true) :
    r.Spares r' := by
  intro n halive
  by_cases hn : n = m
  · exact hn ▸ hm
  · exact h.isAlive_of_ne hn halive

theorem Shifts.spares (h : Shifts r r' t) : r.Spares r' := by
  refine .of_keeps (.of_locks_eq h.locks) fun u n hu => ?_
  by_cases hut : u = t
  · subst hut
    obtain ⟨pc, hpc⟩ := Thread.stint?_of_departing hu
    rw [h.stint] at hpc
    cases hpc
  · rwa [h.others u hut]

theorem Stirs.spares {locks : List Lock} (h : Stirs r r' locks)
    (hkeeps : r.world.Keeps r'.world) : r.Spares r' :=
  .of_keeps hkeeps fun u n hu => by rwa [h.threads]

/-- A lock that is dropped leaves the others alone. -/
theorem Drops.isAlive_of_ne (h : Drops r r' m l) {n : Nat} (hn : n ≠ m)
    (halive : r.world.isAlive n = true) : r'.world.isAlive n = true := by
  rw [World.isAlive_iff] at halive ⊢
  refine halive.imp (fun ⟨l', hl'⟩ => ⟨l', ?_⟩) fun ⟨u, hu⟩ => ⟨u, by rwa [h.threads]⟩
  rw [World.lock?_eq_some, h.lock_of_ne hn]
  exact (World.lock?_eq_some _ _).mp hl'

/-- A lock that is dropped while a thread leaves its registry stays until the thread has left. -/
theorem Drops.spares (h : Drops r r' m l) (hdeparting : r.world.hasDeparting m = true) :
    r.Spares r' := by
  intro n halive
  by_cases hn : n = m
  · subst hn
    obtain ⟨u, hu⟩ := (World.hasDeparting_iff _ _).mp hdeparting
    exact (World.isAlive_iff _ _).mpr (.inr ⟨u, by rwa [h.threads]⟩)
  · exact h.isAlive_of_ne hn halive

/-- A move ends one lock at most. -/
theorem Move.eq_of_dead (h : Move r e r') {a b : Nat} (ha : r.world.isAlive a = true)
    (hb : r.world.isAlive b = true) (ha' : r'.world.isAlive a = false)
    (hb' : r'.world.isAlive b = false) : a = b := by
  have hspares : ¬ r.Spares r' := by
    intro hspares
    rw [hspares a ha] at ha'
    cases ha'
  have hself : ∀ {m : Nat}, (∀ n, n ≠ m → r.world.isAlive n = true →
      r'.world.isAlive n = true) → a = b := by
    intro m hothers
    have hdead : ∀ n, r.world.isAlive n = true → r'.world.isAlive n = false → n = m := by
      intro n hn hn'
      by_contra hne
      rw [hothers n hne hn] at hn'
      cases hn'
    exact (hdead a ha ha').trans (hdead b hb hb').symm
  cases h with
  | operate h => exact absurd h.spares hspares
  | depart h => exact hself fun n hn => h.isAlive_of_ne hn
  | shift h => exact absurd h.spares hspares
  | drop h => exact hself fun n hn => h.isAlive_of_ne hn
  | @wake t h => exact absurd (h.spares (.wake _ t h.locks)) hspares
  | @make kind config h =>
    exact absurd (h.spares ((World.Keeps.addLock _ kind config).trans (.of_locks_eq h.locks)))
      hspares
  | rest h => exact absurd (h.spares (.of_locks_eq h.locks)) hspares

end Spares

end ReaderWriter
