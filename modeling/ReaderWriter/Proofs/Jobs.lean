import ReaderWriter.Proofs.Service
import ReaderWriter.World.Turns

/-!
# Jobs

A job is what a thread does on one lock in one turn: it starts an operation, goes on with one, or
begins to take its flag off the registry. Whatever the lock, a job changes that lock and the flags,
and what its own thread keeps; it leaves the other locks and the other threads alone.

* `World.work_locks`, `World.work_thread_of_ne`, `World.work_thread_self`: what a job leaves alone.
* `World.work_serves`, `World.work_departs`: a job of an operation ends at a place of that
  operation, or with one of its answers.
-/

namespace ReaderWriter

/-! ## Threads of a world -/

namespace Table

variable {α : Type} [Inhabited α]

theorem get_mem_or_eq_default (table : Table α) (t : ThreadId) :
    table.get t ∈ table.entries ∨ table.get t = default := by
  unfold get
  cases h : table.entries[t]? with
  | none => exact .inr rfl
  | some x => exact .inl (List.mem_of_getElem? h)

theorem exists_get_of_mem {table : Table α} {x : α} (h : x ∈ table.entries) :
    ∃ t, table.get t = x := by
  obtain ⟨t, ht⟩ := List.getElem?_of_mem h
  exact ⟨t, by simp [get, ht]⟩

/-- What the default is not, a table has iff one of its entries has. -/
theorem any_entries_iff (table : Table α) {p : α → Bool} (h : p default = false) :
    table.entries.any p = true ↔ ∃ t, p (table.get t) = true := by
  rw [List.any_eq_true]
  constructor
  · rintro ⟨x, hx, hp⟩
    obtain ⟨t, rfl⟩ := exists_get_of_mem hx
    exact ⟨t, hp⟩
  · rintro ⟨t, hp⟩
    rcases get_mem_or_eq_default table t with hmem | heq
    · exact ⟨_, hmem, hp⟩
    · rw [heq, h] at hp
      cases hp

end Table

namespace World

variable (w : World) (t u : ThreadId) (m : Nat)

@[simp]
theorem thread_withThread_self (th : Thread) : (w.withThread t th).thread t = th :=
  Table.get_set_self _ _ _

theorem thread_withThread_of_ne (th : Thread) {t u : ThreadId} (h : u ≠ t) :
    (w.withThread t th).thread u = w.thread u :=
  Table.get_set_of_ne _ _ h

@[simp]
theorem thread_withActivity_self (a : Activity) :
    (w.withActivity t a).thread t = { w.thread t with activity := a } :=
  thread_withThread_self _ _ _

theorem thread_withActivity_of_ne (a : Activity) {t u : ThreadId} (h : u ≠ t) :
    (w.withActivity t a).thread u = w.thread u :=
  thread_withThread_of_ne _ _ h

theorem isInUse_iff : w.isInUse m = true ↔ ∃ t, ∃ frame ∈ (w.thread t).frame?, frame.lock = m := by
  unfold isInUse
  rw [Table.any_entries_iff _ rfl]
  simp [thread, Option.any_eq_true]

theorem hasDeparting_iff :
    w.hasDeparting m = true ↔ ∃ t, (w.thread t).departingFrom? = some m := by
  unfold hasDeparting
  rw [Table.any_entries_iff _ rfl]
  simp [thread]

theorem lock?_eq_some {l : Lock} :
    w.lock? m = some l ↔ w.locks[m]? = some l ∧ l.owned = true := by
  simp [lock?, Option.filter_eq_some_iff]

end World

/-! ## Jobs -/

/-- The algorithms of locks. -/
inductive Algorithm where
  | blocking
  | polling
  | readMostly
deriving DecidableEq

/-- The algorithm of a body. -/
def Body.algorithm : Body → Algorithm
  | .blocking _ => .blocking
  | .polling _ => .polling
  | .readMostly _ => .readMostly

namespace Progress

/-- The algorithm to which the place belongs. -/
def algorithm : Progress → Algorithm
  | .blocking _ => .blocking
  | .polling _ => .polling
  | .readMostly _ => .readMostly

/-- The place belongs to the operation. -/
def Serves (op : Operation) : Progress → Prop
  | .blocking pc => pc.Serves op
  | .polling pc => pc.Serves op
  | .readMostly pc => pc.Serves op

/-- The place belongs to the end of a thread. -/
def Departs : Progress → Prop
  | .readMostly pc => pc.Departs
  | .blocking _ | .polling _ => False

end Progress

namespace Stand

variable {Pc : Type}

/-- The place where the thread can be held. -/
def place? : Stand Pc → Option Pc
  | .here pc => some pc
  | .done _ | .fault _ => none

@[simp]
theorem place?_lift (f : Pc → Progress) (s : Stand Pc) : (s.lift f).place? = s.place?.map f := by
  cases s <;> rfl

theorem Serves.lift {f : Pc → Progress} {p : Pc → Prop} {op : Operation} {s : Stand Pc}
    (h : s.Serves p op) {q : Progress → Prop} (hpq : ∀ pc, p pc → q (f pc)) :
    (s.lift f).Serves q op := by
  cases s with
  | here pc => exact hpq pc h
  | done answer => exact h
  | fault f => trivial

end Stand

/-- What a thread does on a lock in one turn. -/
inductive Job where
  /-- It starts an operation. -/
  | start (op : Operation)
  /-- It goes on from this place. -/
  | resume (p : Progress)
  /-- It begins to take its flag off the registry. -/
  | depart (f : ReadMostly.Flag)
deriving DecidableEq

namespace Job

/-- Where the thread stands before the job. -/
def place? : Job → Option Progress
  | .resume p => some p
  | .start _ | .depart _ => none

/-- The job can be done on a lock of this algorithm. -/
def Suits (a : Algorithm) : Job → Prop
  | .start _ => True
  | .resume p => p.algorithm = a
  | .depart _ => a = .readMostly

/-- The job is part of the operation. -/
def Serves (op : Operation) : Job → Prop
  | .start op' => op' = op
  | .resume p => p.Serves op
  | .depart _ => False

/-- The job is part of the end of a thread. -/
def Departs : Job → Prop
  | .start _ => False
  | .resume p => p.Departs
  | .depart _ => True

/-- The job as a turn on a blocking lock. -/
def onBlocking (t : ThreadId) (s : Blocking.State) : Job → Turn Blocking.State Blocking.Pc
  | .start op => Blocking.start op s
  | .resume (.blocking pc) => Blocking.resume t pc s
  | .resume _ | .depart _ => { state := s, stand := .done .unit }

/-- The job as a turn on a polling lock. -/
def onPolling (s : Polling.State) : Job → Turn Polling.State Polling.Pc
  | .start op => Polling.start op s
  | .resume (.polling pc) => Polling.resume pc s
  | .resume _ | .depart _ => { state := s, stand := .done .unit }

/-- The job as a turn on a read-mostly lock. -/
def onReadMostly (sc : ReadMostly.Scene) (s : ReadMostly.Site) : Job → ReadMostly.Step
  | .start op => ReadMostly.start sc op s
  | .resume (.readMostly pc) => ReadMostly.resume sc pc s
  | .resume _ => s.done .unit
  | .depart f => ReadMostly.depart sc f s

end Job

namespace World

/-- A thread does a job on the lock at an index. -/
def work (w : World) (t : ThreadId) (m : Nat) : Job → Worked
  | .start op => w.startOperation t m op
  | .resume p => w.resumeOperation t m p
  | .depart f =>
      match w.locks[m]? with
      | some l =>
          match l.body with
          | .readMostly s => w.workReadMostly t m l s fun sc site => ReadMostly.depart sc f site
          | .blocking _ | .polling _ => { world := w, stand := .done .unit }
      | none => { world := w, stand := .done .unit }

section

variable {w : World} {t u : ThreadId} {m : Nat} {l : Lock} {job : Job}

theorem work_blocking {s : Blocking.State} (h : w.locks[m]? = some l) (hs : l.body = .blocking s)
    (hsuits : job.Suits .blocking) :
    w.work t m job =
      { world := w.withLock m { l with body := .blocking (job.onBlocking t s).state }
        stand := (job.onBlocking t s).stand.lift .blocking
        notes := (job.onBlocking t s).notes } := by
  cases job with
  | start op => simp only [work, startOperation, h, hs, Job.onBlocking]
  | resume p =>
    cases p with
    | blocking pc => simp only [work, resumeOperation, h, hs, Job.onBlocking]
    | polling | readMostly => cases hsuits
  | depart f => cases hsuits

theorem work_polling {s : Polling.State} (h : w.locks[m]? = some l) (hs : l.body = .polling s)
    (hsuits : job.Suits .polling) :
    w.work t m job =
      { world := w.withLock m { l with body := .polling (job.onPolling s).state }
        stand := (job.onPolling s).stand.lift .polling
        notes := (job.onPolling s).notes } := by
  cases job with
  | start op => simp only [work, startOperation, h, hs, Job.onPolling]
  | resume p =>
    cases p with
    | polling pc => simp only [work, resumeOperation, h, hs, Job.onPolling]
    | blocking | readMostly => cases hsuits
  | depart f => cases hsuits

theorem work_readMostly {s : ReadMostly.State} (h : w.locks[m]? = some l)
    (hs : l.body = .readMostly s) (hsuits : job.Suits .readMostly) :
    w.work t m job = w.workReadMostly t m l s fun sc site => job.onReadMostly sc site := by
  cases job with
  | start op => simp only [work, startOperation, h, hs, Job.onReadMostly]
  | resume p =>
    cases p with
    | readMostly pc => simp only [work, resumeOperation, h, hs, Job.onReadMostly]
    | blocking | polling => cases hsuits
  | depart f => simp only [work, h, hs, Job.onReadMostly]

/-! ### What a job leaves alone -/

/-- A job leaves all locks but its own as they are, and its own with the same algorithm. -/
theorem work_locks (t : ThreadId) (h : w.locks[m]? = some l) (hsuits : job.Suits l.body.algorithm) :
    ∃ body, body.algorithm = l.body.algorithm ∧
      (w.work t m job).world.locks = w.locks.set m { l with body := body } := by
  cases hs : l.body with
  | blocking s =>
    rw [hs] at hsuits
    rw [work_blocking h hs hsuits]
    refine ⟨_, ?_, rfl⟩
    rfl
  | polling s =>
    rw [hs] at hsuits
    rw [work_polling h hs hsuits]
    refine ⟨_, ?_, rfl⟩
    rfl
  | readMostly s =>
    rw [hs] at hsuits
    rw [work_readMostly h hs hsuits]
    refine ⟨_, ?_, rfl⟩
    rfl

theorem work_thread_of_ne (h : w.locks[m]? = some l) (hsuits : job.Suits l.body.algorithm)
    (hne : u ≠ t) : (w.work t m job).world.thread u = w.thread u := by
  cases hs : l.body with
  | blocking s =>
    rw [hs] at hsuits
    rw [work_blocking h hs hsuits]
    rfl
  | polling s =>
    rw [hs] at hsuits
    rw [work_polling h hs hsuits]
    rfl
  | readMostly s =>
    rw [hs] at hsuits
    rw [work_readMostly h hs hsuits]
    exact thread_withThread_of_ne _ _ hne

/-- A job changes at most what its thread keeps for itself. -/
theorem work_thread_self (h : w.locks[m]? = some l) (hsuits : job.Suits l.body.algorithm) :
    ∃ locals, (w.work t m job).world.thread t = { w.thread t with locals := locals } := by
  cases hs : l.body with
  | blocking s =>
    rw [hs] at hsuits
    rw [work_blocking h hs hsuits]
    exact ⟨_, rfl⟩
  | polling s =>
    rw [hs] at hsuits
    rw [work_polling h hs hsuits]
    exact ⟨_, rfl⟩
  | readMostly s =>
    rw [hs] at hsuits
    rw [work_readMostly h hs hsuits]
    exact ⟨_, thread_withThread_self _ _ _⟩

/-! ### How a job ends -/

theorem work_serves {op : Operation} (t : ThreadId) (h : w.locks[m]? = some l)
    (hsuits : job.Suits l.body.algorithm) (hserves : job.Serves op) :
    (w.work t m job).stand.Serves
      (fun p => p.algorithm = l.body.algorithm ∧ p.Serves op) op := by
  cases hs : l.body with
  | blocking s =>
    rw [hs] at hsuits
    rw [work_blocking h hs hsuits]
    refine Stand.Serves.lift (p := Blocking.Pc.Serves op) ?_ fun pc hpc => ⟨rfl, hpc⟩
    cases job with
    | start op' =>
      cases hserves
      exact Blocking.start_serves _ s
    | resume p =>
      cases p with
      | blocking pc => exact Blocking.resume_serves hserves t s
      | polling | readMostly => cases hsuits
    | depart f => cases hsuits
  | polling s =>
    rw [hs] at hsuits
    rw [work_polling h hs hsuits]
    refine Stand.Serves.lift (p := Polling.Pc.Serves op) ?_ fun pc hpc => ⟨rfl, hpc⟩
    cases job with
    | start op' =>
      cases hserves
      exact Polling.start_serves _ s
    | resume p =>
      cases p with
      | polling pc => exact Polling.resume_serves hserves s
      | blocking | readMostly => cases hsuits
    | depart f => cases hsuits
  | readMostly s =>
    rw [hs] at hsuits
    rw [work_readMostly h hs hsuits]
    refine Stand.Serves.lift (p := ReadMostly.Pc.Serves op) ?_ fun pc hpc => ⟨rfl, hpc⟩
    cases job with
    | start op' =>
      cases hserves
      exact ReadMostly.start_serves _ _ _
    | resume p =>
      cases p with
      | readMostly pc => exact ReadMostly.resume_serves hserves _ _
      | blocking | polling => cases hsuits
    | depart f => exact hserves.elim

/-- A job of an ending thread goes on at a place of the thread's end, or is the last one. -/
theorem work_departs (t : ThreadId) (h : w.locks[m]? = some l)
    (hsuits : job.Suits l.body.algorithm) (hdeparts : job.Departs) :
    l.body.algorithm = .readMostly ∧
      ((∃ pc, pc.Departs ∧ (w.work t m job).stand = .here (.readMostly pc)) ∨
        ∃ answer, (w.work t m job).stand = .done answer) := by
  have halg : l.body.algorithm = .readMostly := by
    cases job with
    | start op => exact hdeparts.elim
    | resume p =>
      cases p with
      | readMostly pc => exact hsuits.symm
      | blocking | polling => exact hdeparts.elim
    | depart f => exact hsuits
  refine ⟨halg, ?_⟩
  cases hs : l.body with
  | blocking | polling =>
    rw [hs] at halg
    cases halg
  | readMostly s =>
    rw [hs] at hsuits
    rw [work_readMostly h hs hsuits]
    have hstand : ∀ (sc : ReadMostly.Scene) (site : ReadMostly.Site),
        ReadMostly.StandsDeparting (job.onReadMostly sc site).stand := by
      intro sc site
      cases job with
      | start op => exact hdeparts.elim
      | resume p =>
        cases p with
        | readMostly pc => exact ReadMostly.resume_departs hdeparts sc site
        | blocking | polling => exact hdeparts.elim
      | depart f => exact ReadMostly.depart_departs sc f site
    have hturn := hstand ⟨t, m, w.isAlive⟩ ⟨s, w.flags, (w.thread t).locals⟩
    simp only [workReadMostly]
    cases hst : (job.onReadMostly ⟨t, m, w.isAlive⟩ ⟨s, w.flags, (w.thread t).locals⟩).stand with
    | here pc =>
      rw [hst] at hturn
      exact .inl ⟨pc, hturn, rfl⟩
    | done answer => exact .inr ⟨answer, rfl⟩
    | fault f =>
      rw [hst] at hturn
      exact hturn.elim

end

end World

end ReaderWriter
