import ReaderWriter.Proofs.Holds

/-!
# Crowds

A run, looked at from one blocking or polling lock, is a run of that lock's crowd.

* `Run.StandsAt`: what a thread is doing that stands at a place of a lock.
* `Run.crowd`: the crowd of a lock in a run.
* `Run.step_of_operates`: a job of a call is a step of the crowd.
* `Reachable.crowd`: a reachable run is a run of the crowd.
-/

namespace ReaderWriter

/-! ## The crowd of a lock in a run -/

/-- Where a thread stands on the lock at an index. -/
def Run.place (r : Run) (m : Nat) (t : ThreadId) : Option Progress :=
  (r.world.thread t).stint?.bind fun p => if p.1 = m then some p.2 else none

/-- A thread that has taken no step yet is on no lock. -/
theorem World.lt_of_isOn {w : World} {t : ThreadId} {m : Nat} (h : w.IsOn t m) :
    t < w.threads.entries.length := by
  refine Nat.lt_of_not_le fun hle => ?_
  have hidle : w.thread t = {} := by
    rw [World.thread, Table.get, List.getElem?_eq_none hle]
    rfl
  simp [World.IsOn, hidle, Thread.frame?, Thread.departingFrom?] at h

/-- A thread on a lock that is held up stands at a place of that lock, in a call that its operation
is part of, or at its end. -/
theorem Run.Orderly.stands {r : Run} (ho : r.Orderly) {t : ThreadId} {m : Nat}
    (hon : r.world.IsOn t m) (hheld : (r.world.obstacle t).isSome = true) :
    ∃ p l, r.place m t = some p ∧ r.world.locks[m]? = some l ∧
      p.algorithm = l.body.algorithm ∧ r.world.obstacle t = r.world.operationObstacle t m p ∧
      ((∃ c op, r.asked t = some c ∧ c.acquires? = op.acquires? ∧ p.Serves op) ∨
        p.Departs ∧ r.asked t = none) := by
  have htidy := ho.tidy t
  generalize r.asked t = a at htidy
  cases htidy with
  | idle hact => simp [World.obstacle, hact] at hheld
  | gone hact => simp [World.obstacle, hact] at hheld
  | @working n task p c op l hact hperf hl halg hserves =>
    have hn : n = m := by
      rcases hon with hframe | hdeparting
      · simpa [Thread.frame?, hact] using hframe
      · simp [Thread.departingFrom?, hact] at hdeparting
    subst hn
    refine ⟨p, l, by simp [place, Thread.stint?, hact], ((r.world.lock?_eq_some n).mp hl).1, halg,
      by simp only [World.obstacle, hact, World.callObstacle], .inl ⟨c, op, rfl, ?_, hserves⟩⟩
    exact hperf.acquires?_eq
  | @pausing n mode limit guarded retry position l hact hposition hl =>
    cases position with
    | operating p => exact absurd rfl (hposition p)
    | spun | yielding | sleeping nanos => simp [World.obstacle, hact, World.callObstacle] at hheld
  | ending hact harmed hchore =>
    simp [World.obstacle, hact, World.endingObstacle, hchore] at hheld
  | @departing ending n pc l hact harmed hchore hpc hl halg =>
    have hn : n = m := by
      rcases hon with hframe | hdeparting
      · obtain ⟨chore, armed, nodes⟩ := ending
        cases hchore
        simp [Thread.frame?, hact] at hframe
      · simpa [Thread.departingFrom?, hact, Ending.departingFrom?, hchore] using hdeparting
    subst hn
    exact ⟨.readMostly pc, l, by simp [place, stint?_of_chore_node hact hchore], hl, halg.symm,
      by simp only [World.obstacle, hact, World.endingObstacle, hchore], .inr ⟨hpc, rfl⟩⟩

/-- What a thread is doing that stands at a place of the lock at an index: it is in an operation of
its call there, or on its way off the registry. -/
inductive Run.StandsAt (r : Run) (t : ThreadId) (m : Nat) : Progress → Prop
  | working {task : Task} {p : Progress} {c : Call} {op : Operation} {l : Lock} :
      r.asked t = some c → (r.world.thread t).activity = .calling ⟨m, task, .operating p⟩ →
      c.Performs op task → r.world.lock? m = some l → p.algorithm = l.body.algorithm →
      p.Serves op → StandsAt r t m p
  | departing {e : Ending} {pc : ReadMostly.Pc} {l : Lock} :
      r.asked t = none → (r.world.thread t).activity = .ending e → e.armed = [] →
      e.chore = some (.node m pc) → pc.Departs → r.world.locks[m]? = some l →
      l.body.algorithm = .readMostly → StandsAt r t m (.readMostly pc)

theorem Run.Orderly.standsAt {r : Run} (ho : r.Orderly) {t : ThreadId} {m : Nat} {p : Progress}
    (h : r.place m t = some p) : r.StandsAt t m p := by
  have htidy := ho.tidy t
  unfold place at h
  generalize hasked : r.asked t = a at htidy
  cases htidy with
  | idle hact | gone hact => simp [Thread.stint?, hact] at h
  | working hact hperf hl halg hserves =>
    simp only [Thread.stint?, hact, Option.bind_some] at h
    split at h
    · next hn =>
      cases hn
      cases h
      exact .working hasked hact hperf hl halg hserves
    · cases h
  | @pausing n mode limit guarded retry position l hact hposition hl =>
    cases position with
    | operating q => exact absurd rfl (hposition q)
    | spun | yielding | sleeping nanos => simp [Thread.stint?, hact] at h
  | ending hact harmed hchore => simp [stint?_of_chore_none hact hchore] at h
  | departing hact harmed hchore hpc hl halg =>
    simp only [stint?_of_chore_node hact hchore, Option.bind_some] at h
    split at h
    · next hn =>
      cases hn
      cases h
      exact .departing hasked hact harmed hchore hpc hl halg
    · cases h

/-- A thread that stands at a place of a lock is on that lock. -/
theorem Run.Orderly.isOn {r : Run} (ho : r.Orderly) {t : ThreadId} {m : Nat} {p : Progress}
    (h : r.place m t = some p) :
    r.world.IsOn t m ∧ r.world.obstacle t = r.world.operationObstacle t m p := by
  cases ho.standsAt h with
  | working _ hact =>
    exact ⟨.inl (by simp [Thread.frame?, hact]),
      by simp only [World.obstacle, hact, World.callObstacle]⟩
  | departing _ hact _ hchore =>
    exact ⟨.inr (by simp [Thread.departingFrom?, hact, Ending.departingFrom?, hchore]),
      by simp only [World.obstacle, hact, World.endingObstacle, hchore]⟩

/-- A thread that stands at a place of a lock works on it for a call, or at its end. -/
theorem Run.Orderly.works_of_place {r : Run} (ho : r.Orderly) {t : ThreadId} {m : Nat}
    {p : Progress} (h : r.place m t = some p) :
    (∃ (c : Call) (op : Operation) (task : Task) (l : Lock), r.asked t = some c ∧
        (r.world.thread t).activity = .calling ⟨m, task, .operating p⟩ ∧ c.Performs op task ∧
        r.world.lock? m = some l ∧ p.algorithm = l.body.algorithm ∧ p.Serves op) ∨
      p.Departs ∧ ∃ l, r.world.locks[m]? = some l ∧ p.algorithm = l.body.algorithm := by
  cases ho.standsAt h with
  | working hasked hact hperf hl halg hserves =>
    exact .inl ⟨_, _, _, _, hasked, hact, hperf, hl, halg, hserves⟩
  | departing _ _ _ _ hpc hl halg => exact .inr ⟨hpc, _, hl, halg.symm⟩

/-- A thread stands only at places of a lock that there is. -/
theorem Run.Orderly.exists_lock_of_place {r : Run} (ho : r.Orderly) {t : ThreadId} {m : Nat}
    {p : Progress} (h : r.place m t = some p) :
    ∃ l, r.world.locks[m]? = some l ∧ p.algorithm = l.body.algorithm := by
  rcases ho.works_of_place h with ⟨-, -, -, l, -, -, -, hl, halg, -⟩ | ⟨-, l, hl, halg⟩
  · exact ⟨l, ((r.world.lock?_eq_some m).mp hl).1, halg⟩
  · exact ⟨l, hl, halg⟩

/-- Whoever stands at a place of a lock stands at a place of its algorithm. -/
theorem Run.Orderly.algorithm_of_place {r : Run} (ho : r.Orderly) {t : ThreadId} {m : Nat}
    {p : Progress} {l : Lock} (h : r.place m t = some p) (hl : r.world.locks[m]? = some l) :
    p.algorithm = l.body.algorithm := by
  rcases ho.works_of_place h with ⟨-, -, -, l', -, -, -, hl', halg, -⟩ | ⟨-, l', hl', halg⟩
  · cases hl.symm.trans ((r.world.lock?_eq_some m).mp hl').1
    exact halg
  · cases hl.symm.trans hl'
    exact halg

/-- A thread that stands at a place of a lock is in a call on it that its operation is part of, or
at its end. -/
theorem Run.Orderly.calls_of_place {r : Run} (ho : r.Orderly) {t : ThreadId} {m : Nat}
    {p : Progress} (h : r.place m t = some p) :
    (∃ c op, r.asked t = some c ∧ c.acquires? = op.acquires? ∧ c.releases? = op.releases? ∧
        p.Serves op ∧ ∃ frame, (r.world.thread t).frame? = some frame ∧ frame.lock = m) ∨
      p.Departs := by
  refine (ho.works_of_place h).imp ?_ And.left
  rintro ⟨c, op, task, l, hasked, hact, hperf, -, -, hserves⟩
  exact ⟨c, op, hasked, hperf.acquires?_eq, hperf.releases?_eq, hserves, _,
    Thread.frame?_of_calling hact, rfl⟩

/-- The run after a turn on the lock at an index, or after that lock has gone with it. -/
def Run.EndsIn (r₁ : Run) (m : Nat) (r' : Run) : Prop := r' = r₁ ∨ Dissolves r₁ r' m

theorem Run.EndsIn.thread_eq {r₁ r' : Run} {m : Nat} (h : r₁.EndsIn m r') (t : ThreadId) :
    r'.world.thread t = r₁.world.thread t := by
  rcases h with heq | hdis
  · rw [heq]
  · exact hdis.threads t

/-- The next turn of a thread that stands at a place of a lock goes on from there. -/
theorem Run.Orderly.turned_of_place {r : Run} (ho : r.Orderly) {t : ThreadId} {m : Nat}
    {p : Progress} (hp : r.world.Permits (.turn t)) (hplace : r.place m t = some p) :
    ∃ l r₁, Turned r r₁ t m l (.resume p) ∧ r₁.EndsIn m (r.after (.turn t)) := by
  cases ho.standsAt hplace with
  | working hasked hact hperf hl halg hserves =>
    obtain ⟨hop, -⟩ := Run.turn_operates ho hasked hp hact hperf hl halg hserves
    exact ⟨_, _, hop.toTurned, .inl rfl⟩
  | departing hasked hact harmed hchore hpc hl halg =>
    obtain ⟨-, ⟨r₁, hdep, hrest⟩, -⟩ :=
      Run.turn_departs ho hasked hp hact harmed hchore hpc hl halg
    exact ⟨_, r₁, hdep.toTurned, hrest.imp_left And.left⟩

namespace Turned

variable {r r' : Run} {t u : ThreadId} {m n : Nat} {l : Lock} {job : Job}

theorem place_of_ne_lock (h : Turned r r' t m l job) (hne : n ≠ m) (u : ThreadId) :
    r'.place n u = r.place n u := by
  by_cases hu : u = t
  · subst hu
    unfold Run.place
    rw [h.stint', h.stint]
    cases job.place? <;> cases (r.world.work u m job).stand.place? <;> simp [Ne.symm hne]
  · unfold Run.place
    rw [h.others u hu]

theorem place_self (h : Turned r r' t m l job) : r.place m t = job.place? := by
  unfold Run.place
  rw [h.stint]
  cases job.place? <;> simp

theorem place_self' (h : Turned r r' t m l job) :
    r'.place m t = (r.world.work t m job).stand.place? := by
  unfold Run.place
  rw [h.stint']
  cases (r.world.work t m job).stand.place? <;> simp

/-- After a job on a blocking lock a thread stands where its turn ends. -/
theorem place_blocking (h : Turned r r' t m l job) {s : Blocking.State}
    (hs : l.body = .blocking s) :
    r'.place m t = (job.onBlocking t s).stand.place?.map .blocking := by
  have hsuits := h.suits
  rw [hs] at hsuits
  rw [h.place_self', World.work_blocking h.lock hs hsuits, Stand.place?_lift]

/-- After a job on a polling lock a thread stands where its turn ends. -/
theorem place_polling (h : Turned r r' t m l job) {s : Polling.State} (hs : l.body = .polling s) :
    r'.place m t = (job.onPolling s).stand.place?.map .polling := by
  have hsuits := h.suits
  rw [hs] at hsuits
  rw [h.place_self', World.work_polling h.lock hs hsuits, Stand.place?_lift]

theorem place_of_ne (h : Turned r r' t m l job) (hne : u ≠ t) : r'.place m u = r.place m u := by
  unfold Run.place
  rw [h.others u hne]

theorem lock_of_ne (h : Turned r r' t m l job) (hne : n ≠ m) :
    r'.world.locks[n]? = r.world.locks[n]? := by
  obtain ⟨body, -, hlocks⟩ := World.work_locks t h.lock h.suits
  rw [h.locks, hlocks, List.getElem?_set_ne (Ne.symm hne)]

/-- After a job the lock has the body that the turn of the lock leaves. -/
theorem lock_of_locks {body : Body} (h : Turned r r' t m l job)
    (hlocks : (r.world.work t m job).world.locks = r.world.locks.set m { l with body }) :
    r'.world.locks[m]? = some { l with body } := by
  rw [h.locks, hlocks, List.getElem?_set_self (List.getElem?_eq_some_iff.mp h.lock).1]

theorem lock_blocking (h : Turned r r' t m l job) {s : Blocking.State} (hs : l.body = .blocking s) :
    r'.world.locks[m]? = some { l with body := .blocking (job.onBlocking t s).state } := by
  have hsuits := h.suits
  rw [hs] at hsuits
  exact h.lock_of_locks (congrArg (·.world.locks) (World.work_blocking h.lock hs hsuits))

theorem lock_polling (h : Turned r r' t m l job) {s : Polling.State} (hs : l.body = .polling s) :
    r'.world.locks[m]? = some { l with body := .polling (job.onPolling s).state } := by
  have hsuits := h.suits
  rw [hs] at hsuits
  exact h.lock_of_locks (congrArg (·.world.locks) (World.work_polling h.lock hs hsuits))

/-- A job changes nothing of its lock but the body. -/
theorem exists_lock (h : Turned r r' t m l job) :
    ∃ body, body.algorithm = l.body.algorithm ∧ r'.world.locks[m]? = some { l with body } := by
  obtain ⟨body, halg, hlocks⟩ := World.work_locks t h.lock h.suits
  exact ⟨body, halg, h.lock_of_locks hlocks⟩

/-- A job that leaves the body of its lock leaves all locks. -/
theorem locks_eq {l' : Lock} (h : Turned r r' t m l job)
    (hl' : r'.world.locks[m]? = some l') (hbody : l'.body = l.body) :
    r'.world.locks = r.world.locks := by
  obtain ⟨body, -, hlocks⟩ := World.work_locks t h.lock h.suits
  obtain ⟨hlt, hl⟩ := List.getElem?_eq_some_iff.mp h.lock
  obtain rfl : body = l.body := by
    cases hl'.symm.trans (h.lock_of_locks hlocks)
    exact hbody
  rw [h.locks, hlocks]
  exact (congrArg (r.world.locks.set m) hl.symm).trans (List.set_getElem_self hlt)

end Turned

/-! ## What else becomes of a lock -/

section

variable {r r' : Run} {t : ThreadId} {m n : Nat} {l l' : Lock}

/-- A lock that is dropped keeps its body. -/
theorem Drops.exists_body_eq (h : Drops r r' n l) (hl' : r'.world.locks[m]? = some l') :
    ∃ l₀, r.world.locks[m]? = some l₀ ∧ l'.body = l₀.body := by
  by_cases hm : m = n
  · subst hm
    cases hl'.symm.trans h.lock_self
    exact ⟨l, ((r.world.lock?_eq_some m).mp h.lock).1, rfl⟩
  · exact ⟨l', (h.lock_of_ne hm).symm.trans hl', rfl⟩

/-- A thread that wakes by itself has left the queues. -/
theorem Stirs.exists_of_wake (h : Stirs r r' (r.world.locks.map (World.wakeIn t)))
    (hl' : r'.world.locks[m]? = some l') :
    ∃ l, r.world.locks[m]? = some l ∧ l' = World.wakeIn t l := by
  rw [h.locks, List.getElem?_map, Option.map_eq_some_iff] at hl'
  obtain ⟨l, hl, rfl⟩ := hl'
  exact ⟨l, hl, rfl⟩

/-- A lock was there before, or it has just been made. -/
theorem Stirs.or_of_make {kind : Kind} {config : Config}
    (h : Stirs r r' (r.world.addLock kind config).locks) (hl' : r'.world.locks[m]? = some l') :
    r.world.locks[m]? = some l' ∨
      r.world.locks[m]? = none ∧ ∃ id, l' = Lock.make kind config id r.world.host := by
  by_cases hlt : m < r.world.locks.length
  · rw [h.locks, World.addLock, List.getElem?_append_left hlt] at hl'
    exact .inl hl'
  · rw [h.locks, World.addLock, List.getElem?_append_right (Nat.le_of_not_lt hlt),
      List.getElem?_singleton] at hl'
    split at hl'
    · cases hl'
      exact .inr ⟨List.getElem?_eq_none (Nat.le_of_not_lt hlt), _, rfl⟩
    · cases hl'

/-- A lock that goes loses its registry, and no more. -/
theorem Dissolves.exists_body_eq (h : Dissolves r r' n) (hl' : r'.world.locks[m]? = some l') :
    ∃ l, r.world.locks[m]? = some l ∧ (l' = l ∨ ∃ s : ReadMostly.State, l.body = .readMostly s ∧
      l' = { l with body := .readMostly { s with registry := {} } }) := by
  have hlt : m < r.world.locks.length := h.length_locks ▸ (List.getElem?_eq_some_iff.mp hl').1
  have hl := List.getElem?_eq_getElem hlt
  refine ⟨_, hl, ?_⟩
  rcases h.lock_cases hl with heq | ⟨-, s, hs, heq⟩
  · exact .inl (Option.some.inj (hl'.symm.trans heq))
  · exact .inr ⟨s, hs, Option.some.inj (hl'.symm.trans heq)⟩

end

namespace Run

variable {State Pc : Type} {M : Machine State Pc} {a : Algorithm} {r r' : Run} {e : Event} {m : Nat}
  {l l' : Lock} {s s' : State}

/-- The crowd of the lock at an index, whose state is given. -/
def crowd (M : Machine State Pc) (r : Run) (m : Nat) (s : State) : Crowd State Pc where
  state := s
  place t := (r.place m t).bind M.pc?
  held := r.count m

/-- A lock is only given up while it is held, and its crowd meets a condition. -/
def Minds (M : Machine State Pc) (ok : Crowd State Pc → Prop) (m : Nat) (r : Run) (e : Event) :
    Prop :=
  r.ReleasesHeld m e ∧ ∀ (l : Lock) (s : State), r.world.locks[m]? = some l → l.body = M.body s →
    ok (r.crowd M m s)

theorem crowd_congr (hstate : s' = s) (hplace : ∀ t, r'.place m t = r.place m t)
    (hheld : r'.count m = r.count m) : r'.crowd M m s' = r.crowd M m s := by
  simp only [crowd, hstate, hheld, hplace]

theorem place_congr {t : ThreadId} (h : r'.world.thread t = r.world.thread t) :
    r'.place m t = r.place m t := by
  simp only [place, h]

theorem not_place_of_missing (ho : r.Orderly) (h : r.world.locks[m]? = none) (t : ThreadId) :
    r.place m t = none := by
  refine Option.eq_none_iff_forall_ne_some.mpr fun p hplace => ?_
  obtain ⟨l, hl, -⟩ := ho.exists_lock_of_place hplace
  cases h.symm.trans hl

theorem count_of_missing (hr : r.HoldsExist) (h : r.world.locks[m]? = none) :
    r.count m = fun _ => 0 := by
  funext mode
  simp only [count, Hold.count, List.countP_eq_zero]
  intro g hg
  have hlt := hr g hg
  have hne : g.lock ≠ m := by
    rintro rfl
    rw [List.getElem?_eq_none_iff] at h
    omega
  simp [hne]

/-- A job of a call is a step of the crowd of its lock. -/
theorem step_of_operates (hM : M.Is a) {t : ThreadId} {job : Job} {op : Operation}
    (h : Operates r e r' t m l job op) (hok : r.ReleasesHeld m e) (hs : l.body = M.body s)
    (hl' : r'.world.locks[m]? = some l') (hs' : l'.body = M.body s') :
    M.Step (r.crowd M m s) (r'.crowd M m s') := by
  have hplaces : ∀ {stand : Stand Pc},
      (r.world.work t m job).stand = stand.lift M.progress →
      (fun u => (r'.place m u).bind M.pc?) =
        Function.update (fun u => (r.place m u).bind M.pc?) t stand.place? := by
    intro stand hstand
    funext u
    by_cases hu : u = t
    · subst hu
      rw [Function.update_self, h.place_self', hstand, Stand.place?_lift]
      cases stand <;> simp [Stand.place?, hM.pc?_progress]
    · rw [Function.update_of_ne hu, h.place_of_ne hu]
  have hstate : ∀ {s'' : State},
      (r.world.work t m job).world.locks = r.world.locks.set m { l with body := M.body s'' } →
        s' = s'' := by
    intro s'' hlocks
    cases hl'.symm.trans (h.lock_of_locks hlocks)
    exact (hM.body_inj _ _ hs').symm
  have hheld : r'.count m = Crowd.settled (Hold.count (Hold.begun r.holds t m job) m) op
      (r.world.work t m job).stand := by
    funext mode
    rw [count, h.holds, Hold.count_settled]
  cases job with
  | start op' =>
    have hop : op' = op := h.serves
    subst hop
    have hpos : ∀ mode, op' = .release mode → 0 < r.count m mode := by
      rintro mode rfl
      rcases h.called _ rfl with ⟨c, rfl, -, hc⟩ | ⟨-, -, -, hnone, -⟩
      · exact hok rfl mode hc
      · cases hnone
    obtain ⟨hlocks, hstand⟩ := hM.start r.world t m l s op' h.lock hs
    have hplace : (r.crowd M m s).place t = none := by
      simp only [crowd, h.place_self]
      rfl
    let begun : Crowd State Pc := { r.crowd M m s with held := Crowd.begun (r.count m) op' }
    have heq : r'.crowd M m s' = begun.turned t op' (M.start op' s) := by
      rw [hstand, Hold.count_begun hpos] at hheld
      simp only [crowd, Crowd.turned, Crowd.mk.injEq]
      refine ⟨hstate hlocks, hplaces hstand, ?_⟩
      rw [hheld]
      simp only [Crowd.settled, Hold.granted?_lift]
      rfl
    rw [heq]
    exact .start hplace hpos
  | resume p =>
    obtain ⟨pc, rfl⟩ := hM.exists_progress p (by
      have := h.suits
      rw [hs] at this
      exact this.trans (hM.body_algorithm s))
    obtain ⟨hlocks, hstand, hobstacle⟩ := hM.resume r.world t m l s pc h.lock hs
    have hplace : (r.crowd M m s).place t = some pc := by
      simp only [crowd, h.place_self, Job.place?, Option.bind_some, hM.pc?_progress]
    have hfree : M.obstacle t (r.crowd M m s).state pc = none :=
      hobstacle.symm.trans (h.free _ rfl)
    have heq : r'.crowd M m s' = (r.crowd M m s).turned t op (M.resume t pc s) := by
      rw [hstand] at hheld
      simp only [crowd, Crowd.turned, Crowd.mk.injEq]
      refine ⟨hstate hlocks, hplaces hstand, ?_⟩
      rw [hheld]
      simp only [Crowd.settled, Hold.granted?_lift]
      rfl
    rw [heq]
    exact .resume hplace ((hM.serves op pc).mp h.serves) hfree
  | depart f => exact h.serves.elim

/-- What a move makes of the crowd of a lock: nothing new, a step of it, or the crowd of a lock that
has just been made. -/
inductive CrowdMoves (M : Machine State Pc) (m : Nat) (r r' : Run) (s' : State) : Prop
  | keeps {l : Lock} {s : State} : r.world.locks[m]? = some l → l.body = M.body s →
      r'.crowd M m s' = r.crowd M m s → CrowdMoves M m r r' s'
  | steps {l : Lock} {s : State} : r.world.locks[m]? = some l → l.body = M.body s →
      M.Step (r.crowd M m s) (r'.crowd M m s') → CrowdMoves M m r r' s'
  | begins (host : Host) (config : Config) : r.world.locks[m]? = none →
      r'.crowd M m s' = M.newCrowd host config → CrowdMoves M m r r' s'

theorem count_of_holds (h : r'.holds = r.holds) : r'.count m = r.count m := by
  funext mode
  simp only [count, h]

/-- A lock that is of this machine after a job was so before. -/
theorem exists_state_of_turned (hM : M.Is a) {t : ThreadId} {job : Job}
    (h : Turned r r' t m l job) (hl' : r'.world.locks[m]? = some l') (hs' : l'.body = M.body s') :
    ∃ s, l.body = M.body s := by
  obtain ⟨body, halg, hlock⟩ := h.exists_lock
  cases hl'.symm.trans hlock
  have halg' : body.algorithm = a := (congrArg Body.algorithm hs').trans (hM.body_algorithm s')
  exact hM.exists_body l.body (halg.symm.trans halg')

theorem crowdMoves_of_operates (hM : M.Is a) {t : ThreadId} {job : Job} {op : Operation}
    (h : Operates r e r' t m l job op) (hok : r.ReleasesHeld m e)
    (hl' : r'.world.locks[m]? = some l') (hs' : l'.body = M.body s') :
    CrowdMoves M m r r' s' := by
  obtain ⟨s, hs⟩ := exists_state_of_turned hM h.toTurned hl' hs'
  exact .steps h.lock hs (step_of_operates hM h hok hs hl' hs')

/-- Ending threads have nothing to do on these locks. -/
theorem ne_of_departs (hM : M.Is a) {t : ThreadId} {n : Nat} {job : Job}
    (h : Departs r r' t n l job) (hl' : r'.world.locks[m]? = some l')
    (hs' : l'.body = M.body s') : m ≠ n := by
  rintro rfl
  obtain ⟨body, halg, hlock⟩ := h.exists_lock
  cases hl'.symm.trans hlock
  have hread := (World.work_departs t h.lock h.suits h.departs).1
  exact hM.not_departs (by rw [← hM.body_algorithm s', ← hs', halg, hread])

theorem crowdMoves_of_wake (hM : M.Is a) {t : ThreadId}
    (h : Stirs r r' (r.world.locks.map (World.wakeIn t)))
    (hl' : r'.world.locks[m]? = some l') (hs' : l'.body = M.body s') :
    CrowdMoves M m r r' s' := by
  obtain ⟨l, hl, rfl⟩ := h.exists_of_wake hl'
  have halg : l.body.algorithm = a := by
    rw [← hM.body_algorithm s', ← hs']
    unfold World.wakeIn
    split <;> simp [Body.algorithm, *]
  obtain ⟨s, hs⟩ := hM.exists_body l.body halg
  have hstate : s' = M.wake t s := hM.body_inj _ _ (hs'.symm.trans (hM.wake t l s hs))
  have heq : r'.crowd M m s' = { r.crowd M m s with state := M.wake t s } := by
    simp only [crowd, Crowd.mk.injEq]
    exact ⟨hstate, funext fun u => by rw [place_congr (h.threads u)], count_of_holds h.holds⟩
  refine .steps hl hs ?_
  rw [heq]
  exact .wake t

theorem crowdMoves_of_make (hM : M.Is a) (ho : r.Orderly) (hexist : r.HoldsExist) {kind : Kind}
    {config : Config} (h : Stirs r r' (r.world.addLock kind config).locks)
    (hl' : r'.world.locks[m]? = some l') (hs' : l'.body = M.body s') :
    CrowdMoves M m r r' s' := by
  rcases h.or_of_make hl' with hl | ⟨hmissing, id, rfl⟩
  · exact .keeps hl hs'
      (crowd_congr rfl (fun u => place_congr (h.threads u)) (count_of_holds h.holds))
  · obtain ⟨config', rfl⟩ := hM.make _ _ _ _ _ hs'
    refine .begins r.world.host config' hmissing ?_
    simp only [crowd, Machine.newCrowd, Crowd.mk.injEq, true_and]
    constructor
    · funext u
      rw [place_congr (h.threads u), not_place_of_missing ho hmissing]
      rfl
    · rw [count_of_holds h.holds, count_of_missing hexist hmissing]

/-- What a move makes of the crowd of a lock, if it is known what the calls on the lock make of
it. -/
theorem crowd_of_move_of (hM : M.Is a) (ho : r.Orderly) (hexist : r.HoldsExist)
    (hmove : Move r e r') (hl' : r'.world.locks[m]? = some l') (hs' : l'.body = M.body s')
    (hoperates : ∀ {t l job op}, Operates r e r' t m l job op → CrowdMoves M m r r' s') :
    CrowdMoves M m r r' s' := by
  -- What leaves the lock, the places on it and the holds of it alone leaves its crowd alone.
  have hsame : r.world.locks[m]? = some l' → (∀ t, r'.place m t = r.place m t) →
      r'.count m = r.count m → CrowdMoves M m r r' s' :=
    fun hl hplace hheld => .keeps hl hs' (crowd_congr rfl hplace hheld)
  cases hmove with
  | @operate t n l job op h =>
    by_cases hn : m = n
    · subst hn
      exact hoperates h
    · refine hsame (h.lock_of_ne hn ▸ hl') (h.place_of_ne_lock hn) (Hold.count_congr ?_)
      rw [h.holds, Hold.on_settled_of_ne hn, Hold.on_begun_of_ne hn]
  | @depart t n l job h =>
    have hn := ne_of_departs hM h hl' hs'
    refine hsame (h.lock_of_ne hn ▸ hl') (h.place_of_ne_lock hn) (Hold.count_congr ?_)
    rw [h.holds, Hold.on_abandoned_of_ne hn]
  | @shift t h =>
    refine hsame (h.locks ▸ hl') (fun u => ?_) (count_of_holds h.holds)
    by_cases hu : u = t
    · subst hu
      simp only [place, h.stint, h.stint']
    · exact place_congr (h.others u hu)
  | drop h =>
    obtain ⟨l₀, hl₀, hbody⟩ := h.exists_body_eq hl'
    exact .keeps hl₀ (hbody.symm.trans hs')
      (crowd_congr rfl (fun u => place_congr (h.threads u)) (count_of_holds h.holds))
  | wake h => exact crowdMoves_of_wake hM h hl' hs'
  | make h => exact crowdMoves_of_make hM ho hexist h hl' hs'
  | rest h =>
    exact hsame (h.locks ▸ hl') (fun u => place_congr (h.threads u)) (count_of_holds h.holds)

theorem crowd_of_move (hM : M.Is a) (ho : r.Orderly) (hexist : r.HoldsExist)
    (hmove : Move r e r') (hok : r.ReleasesHeld m e) (hl' : r'.world.locks[m]? = some l')
    (hs' : l'.body = M.body s') : CrowdMoves M m r r' s' :=
  crowd_of_move_of hM ho hexist hmove hl' hs' fun h => crowdMoves_of_operates hM h hok hl' hs'

/-- Only read-mostly locks dissolve. -/
theorem crowd_of_dissolves (hM : M.Is a) {n : Nat} (h : Dissolves r r' n)
    (hl' : r'.world.locks[m]? = some l') (hs' : l'.body = M.body s') :
    r.world.locks[m]? = some l' ∧ r'.crowd M m s' = r.crowd M m s' := by
  have hlock : r.world.locks[m]? = some l' := by
    obtain ⟨l, hl, rfl | ⟨s, -, rfl⟩⟩ := h.exists_body_eq hl'
    · exact hl
    · exact absurd (by rw [← hM.body_algorithm s', ← hs']; rfl) hM.not_departs
  exact ⟨hlock, crowd_congr rfl (fun u => place_congr (h.threads u)) (count_of_holds h.holds)⟩

/-- What an event makes of the crowd of a lock. -/
theorem crowd_after (hM : M.Is a) (ho : r.Orderly) (hexist : r.HoldsExist)
    (hp : r.world.Permits e) (hok : r.ReleasesHeld m e)
    (hl' : (r.after e).world.locks[m]? = some l') (hs' : l'.body = M.body s') :
    CrowdMoves M m r (r.after e) s' := by
  obtain ⟨⟨r₁, hmove, ⟨heq, -⟩ | ⟨n, -, hdis⟩⟩, -⟩ := after_moves ho hp
  · rw [heq] at hl' ⊢
    exact crowd_of_move hM ho hexist hmove hok hl' hs'
  · obtain ⟨hl₁, hsame⟩ := crowd_of_dissolves hM hdis hl' hs'
    cases crowd_of_move hM ho hexist hmove hok hl₁ hs' with
    | keeps hl hs heq => exact .keeps hl hs (hsame.trans heq)
    | steps hl hs hstep => exact .steps hl hs (hsame ▸ hstep)
    | begins host config hmissing heq => exact .begins host config hmissing (hsame.trans heq)

end Run

/-- Looked at from the lock at an index, if that is one of the machine's, the run is a run of the
machine. -/
def Run.LooksReached {State Pc : Type} (M : Machine State Pc) (okc : Crowd State Pc → Prop)
    (m : Nat) (r : Run) : Prop :=
  ∀ (l : Lock) (s : State), r.world.locks[m]? = some l → l.body = M.body s →
    M.Reachable okc (r.crowd M m s)

/-- A reachable run is a run of the crowd of a lock, if no move does more than to make the lock or
to take a step of its crowd. -/
theorem Reachable.looksReached {State Pc : Type} {M : Machine State Pc} {a : Algorithm}
    (hM : M.Is a) {okc : Crowd State Pc → Prop} {ok : Run → Event → Prop} {m : Nat}
    (hokc : ∀ (r : Run) (e : Event) (l : Lock) (s : State), ok r e → r.world.locks[m]? = some l →
      l.body = M.body s → okc (r.crowd M m s))
    (hmoves : ∀ {r r' : Run} {e : Event} {l' : Lock} {s' : State}, Reachable ok r → ok r e →
      Move r e r' → r.LooksReached M okc m → r'.world.locks[m]? = some l' → l'.body = M.body s' →
      Run.CrowdMoves M m r r' s')
    {r : Run} (h : Reachable ok r) : r.LooksReached M okc m := by
  refine h.of_moves (P := Run.LooksReached M okc m) ?_ ?_ ?_
  · intro host l s hl
    cases hl
  · intro r r' e hreach hok hmove ih l' s' hl' hs'
    cases hmoves hreach hok hmove ih hl' hs' with
    | keeps hl hs heq =>
      rw [heq]
      exact ih _ _ hl hs
    | steps hl hs hstep => exact .step (ih _ _ hl hs) (hokc r e _ _ hok hl hs) hstep
    | begins host config _ heq =>
      rw [heq]
      exact .start host config
  · intro r₀ r r' e n _ _ _ _ hdis _ ih l' s' hl' hs'
    obtain ⟨hl, heq⟩ := Run.crowd_of_dissolves hM hdis hl' hs'
    rw [heq]
    exact ih l' s' hl hs'

/-- A reachable run, looked at from one of its blocking or polling locks, is a run of that lock's
crowd. -/
theorem Reachable.crowd {State Pc : Type} {M : Machine State Pc} {a : Algorithm} (hM : M.Is a)
    {okc : Crowd State Pc → Prop} {ok : Run → Event → Prop} {m : Nat}
    (hok : ∀ r e, ok r e → r.Minds M okc m e) {r : Run} (h : Reachable ok r) :
    ∀ (l : Lock) (s : State), r.world.locks[m]? = some l → l.body = M.body s →
      M.Reachable okc (r.crowd M m s) :=
  h.looksReached hM (fun r e l s hoke => (hok r e hoke).2 l s) fun hreach hoke hmove _ =>
    Run.crowd_of_move hM hreach.orderly hreach.holdsExist hmove (hok _ _ hoke).1

end ReaderWriter
