import ReaderWriter.Proofs.NotifierMarks
import ReaderWriter.Proofs.ReadMostly.Keeping
import ReaderWriter.Proofs.RegistryAndNodes
import ReaderWriter.Proofs.Tallies

/-!
# Notifications

Two notifications of one signal never overlap, and none is dropped by a thread that waits for
another notifier. A thread that is to notify either does so at once, if nobody else does, or touches
nothing. On a read-mostly lock it insists: it yields and tries again until it has made its own
notification, and so makes exactly one each time. On a blocking lock it goes on without.

* `Run.Notifies`, `Run.Defers`: the two outcomes of a try.
* `Run.TakesTurns`: what is so of the notifications of a signal at any time.
* `notifications_take_turns`: in every run, and how often a thread has notified.
-/

namespace ReaderWriter

open ReadMostly (Pc Untold Scene Site)

/-! ## One try -/

namespace ReadMostly

variable {pc : Pc} {mode : Mode} {stage : Notice.Stage} {s : Site}

/-- What a turn of a thread does that is to notify, and has not done so. -/
inductive Tried (mode : Mode) (s : Site) (step : Step) : Prop
  | notifies {pc : Pc} : (s.lock.signal mode).notifying = false → step.stand = .here pc →
      pc.notice? = some (mode, .inside ((s.lock.signal mode).reached (Blocking.wakes mode))) →
      step.state.lock.signal mode = ⟨(s.lock.signal mode).spared (Blocking.wakes mode), true⟩ →
      Tried mode s step
  | defers {pc : Pc} : (s.lock.signal mode).notifying = true → step.stand = .here pc →
      pc.notice? = some (mode, .yielding) → step.state = s → Tried mode s step

theorem tried_notifyWriter {place : Notice.Stage → Pc}
    (h : ∀ n, (place n).notice? = some (.unique, n)) : Tried .unique s (notifyWriter place s) := by
  unfold notifyWriter Notice.begin Signal.notify?
  cases hmark : s.lock.drained.notifying with
  | false => exact .notifies hmark rfl (h _) rfl
  | true => exact .defers hmark rfl (h _) rfl

theorem tried_notifyReaders {place : Notice.Stage → Pc}
    (h : ∀ n, (place n).notice? = some (.shared, n)) : Tried .shared s (notifyReaders place s) := by
  unfold notifyReaders Notice.begin Signal.notify?
  cases hmark : s.lock.reopened.notifying with
  | false => exact .notifies hmark rfl (h _) rfl
  | true => exact .defers hmark rfl (h _) rfl

/-- A thread that is to notify does so, or touches nothing and goes on trying. -/
theorem resume_tried (sc : Scene) (s : Site) (h : pc.notice? = some (mode, stage))
    (hstage : stage.isInside = false) : Tried mode s (resume sc pc s) := by
  cases pc with
  | reopening why n =>
    cases h
    cases stage with
    | announced | yielding => exact tried_notifyReaders fun _ => rfl
    | inside => cases hstage
  | passingOn why n =>
    cases h
    cases stage with
    | announced | yielding => exact tried_notifyWriter fun _ => rfl
    | inside => cases hstage
  | prodding f b n =>
    cases h
    cases stage with
    | announced | yielding => exact tried_notifyWriter fun _ => rfl
    | inside => cases hstage
  | handingOff why stage' b =>
    cases stage' with
    | prodding n =>
      cases h
      cases stage with
      | announced | yielding =>
        simp only [resume, handOff]
        exact tried_notifyWriter fun _ => rfl
      | inside => cases hstage
    | _ => cases h
  | _ => cases h

/-- A thread that comes out of a notification clears the mark, and has nothing more to notify for
the time being. -/
theorem resume_inside (sc : Scene) (s : Site) {woken : List ThreadId}
    (h : pc.notice? = some (mode, .inside woken)) :
    (resume sc pc s).state.lock.signal mode = (s.lock.signal mode).release ∧
      ∀ pc' stage, (resume sc pc s).stand = .here pc' → pc'.notice? ≠ some (mode, stage) := by
  cases pc with
  | reopening why n =>
    cases h
    exact ⟨rfl, by rintro _ _ ⟨⟩; simp [Pc.notice?]⟩
  | passingOn why n =>
    cases h
    cases why with
    | released => exact ⟨rfl, by rintro _ _ ⟨⟩; simp [Pc.notice?]⟩
    | refused => exact ⟨rfl, by rintro _ _ ⟨⟩⟩
  | prodding f b n =>
    cases h
    exact ⟨rfl, by rintro _ _ ⟨⟩; simp [Pc.notice?]⟩
  | handingOff why stage' b =>
    cases stage' with
    | prodding n =>
      cases h
      simp only [resume, handOff, beginRead]
      split
      · split
        · exact ⟨rfl, by rintro _ _ ⟨⟩; simp [Pc.notice?]⟩
        · exact ⟨rfl, by rintro _ _ ⟨⟩; simp [Pc.notice?]⟩
      · exact ⟨rfl, by rintro _ _ ⟨⟩; simp [Pc.notice?]⟩
    | _ => cases h
  | _ => cases h

end ReadMostly

namespace Run

variable {r r' r₁ : Run} {e : Event} {t u : ThreadId} {m : Nat} {mode : Mode} {l : Lock}
  {stage : Notice.Stage} {p : Progress}

/-- A thread has begun a notification: nobody else was in one, and those whom it reaches are no
longer in the queue. -/
structure Notifies (r' : Run) (m : Nat) (mode : Mode) (t : ThreadId) (signal : Signal) : Prop where
  free : signal.notifying = false
  inside : r'.notice? m t = some (mode, .inside (signal.reached (Blocking.wakes mode)))
  signal : ∃ l', r'.world.locks[m]? = some l' ∧
    l'.body.signal mode = ⟨signal.spared (Blocking.wakes mode), true⟩

/-- A thread has found another one notifying, and has touched nothing. On a read-mostly lock it
will try again. -/
structure Defers (r r' : Run) (m : Nat) (mode : Mode) (t : ThreadId) (l : Lock) : Prop where
  taken : (l.body.signal mode).notifying = true
  locks : r'.world.locks = r.world.locks
  flags : r'.world.flags = r.world.flags
  notice : r'.notice? m t =
    if l.body.algorithm = .readMostly then some (mode, .yielding) else none

/-- A thread has ended its notification. -/
structure Ends (r' : Run) (m : Nat) (mode : Mode) (t : ThreadId) (signal : Signal) : Prop where
  signal : ∃ l', r'.world.locks[m]? = some l' ∧ l'.body.signal mode = signal.release
  notice : ∀ stage, r'.notice? m t ≠ some (mode, stage)

theorem notice?_eq_some_iff {n : Mode × Notice.Stage} :
    r.notice? m t = some n ↔ ∃ p, r.place m t = some p ∧ p.notice? = some n :=
  Option.bind_eq_some_iff

theorem tells_iff :
    r.tells m mode t = true ↔ ∃ woken, r.notice? m t = some (mode, .inside woken) := by
  simp only [tells, notice?, Option.any_eq_true, Progress.tells, Bool.and_eq_true, beq_iff_eq]
  constructor
  · rintro ⟨p, hplace, ⟨mode', stage⟩, hn, rfl, hstage⟩
    cases stage with
    | inside woken => exact ⟨woken, by rw [hplace, Option.bind_some, hn]⟩
    | announced | yielding => cases hstage
  · rintro ⟨woken, hn⟩
    obtain ⟨p, hplace, hn⟩ := Option.bind_eq_some_iff.mp hn
    exact ⟨p, hplace, _, hn, rfl, rfl⟩

/-- Nothing keeps a thread that is to notify, or is notifying, from its next turn. -/
theorem Orderly.permits_of_notice (ho : r.Orderly) {n : Mode × Notice.Stage}
    (h : r.notice? m t = some n) : r.world.Permits (.turn t) := by
  obtain ⟨p, hplace, hn⟩ := notice?_eq_some_iff.mp h
  change r.world.obstacle t = none
  rw [(ho.isOn hplace).2, World.operationObstacle]
  split
  · rfl
  · split
    · next pc _ => cases pc <;> first | rfl | cases hn
    · next pc _ =>
      cases pc with
      | handingOff why stage b => cases stage <;> first | rfl | cases hn
      | _ => first | rfl | cases hn
    · rfl

/-- Nothing but its own turn takes a thread from its place. -/
theorem Orderly.place_after_of_ne (ho : r.Orderly) (hp : r.world.Permits e)
    (hplace : r.place m t = some p) (hne : e ≠ .turn t) :
    (r.after e).place m t = r.place m t := by
  obtain ⟨r', hmove, hthreads, -⟩ := exists_move_after ho hp
  rw [place_congr (hthreads t)]
  cases hmove with
  | @operate u n l job op hop =>
    by_cases hu : t = u
    · subst hu
      have hstint := hop.stint
      cases job with
      | start => simp [place, hstint, Job.place?] at hplace
      | resume p => exact absurd (hop.turned p rfl) hne
      | depart => exact hop.serves.elim
    · exact place_congr (hop.others t hu)
  | @depart u n l job hdep heq =>
    refine place_congr (hdep.others t ?_)
    rintro rfl
    exact hne heq
  | @shift u hshift =>
    by_cases hu : t = u
    · subst hu
      simp [place, hshift.stint] at hplace
    · exact place_congr (hshift.others t hu)
  | drop hdrop => exact place_congr (hdrop.threads t)
  | wake hstirs | make hstirs | rest hstirs => exact place_congr (hstirs.threads t)

end Run

/-! ## Turns that notify -/

variable {r r' r₁ : Run} {t : ThreadId} {m : Nat} {mode : Mode} {l : Lock} {stage : Notice.Stage}
  {p : Progress} {woken : List ThreadId}

/-- A thread that looks again has nothing more to notify for the time being. -/
theorem Blocking.recheck_spec (s : Blocking.State) :
    (recheck s).state = s ∧
      ((recheck s).stand.place?.map Progress.blocking).bind Progress.notice? = none := by
  unfold recheck
  split <;> exact ⟨rfl, rfl⟩

/-- On a blocking lock a thread that is to notify tries once. -/
theorem Turned.tries_of_blocking {s : Blocking.State} (h : Turned r r₁ t m l (.resume p))
    (hs : l.body = .blocking s) (hn : p.notice? = some (mode, stage))
    (hstage : stage.isInside = false) :
    r₁.Notifies m mode t (l.body.signal mode) ∨ r.Defers r₁ m mode t l := by
  have hsuits := h.suits
  rw [hs] at hsuits
  obtain rfl : p = .blocking (.notifying mode) := by
    rcases p with pc | pc | pc
    · cases pc <;> cases hn
      · rfl
      · cases hstage
    · cases hsuits
    · cases hsuits
  have hflags : r₁.world.flags = r.world.flags :=
    h.flags.trans (congrArg (·.world.flags) (World.work_blocking h.lock hs hsuits))
  have hplace := h.place_blocking hs
  have hl' := h.lock_blocking hs
  simp only [Job.onBlocking, Blocking.resume, Signal.notify?] at hl' hplace
  cases hmark : (s.group mode).signal.notifying with
  | false =>
    left
    simp only [hmark, Bool.false_eq_true, if_false] at hl' hplace
    rw [hs]
    refine ⟨hmark, ?_, ⟨_, hl', ?_⟩⟩
    · simp only [Run.notice?, hplace]
      rfl
    · simp only [Body.signal, Blocking.group_withGroup_self]
  | true =>
    right
    simp only [hmark, if_true] at hl' hplace
    obtain ⟨hstate, hnone⟩ := Blocking.recheck_spec s
    refine ⟨by rw [hs]; exact hmark, h.locks_eq hl' (by rw [hs, hstate]), hflags, ?_⟩
    · rw [if_neg (by rw [hs]; exact Algorithm.noConfusion), Run.notice?, hplace, hnone]

/-- On a blocking lock a thread comes out of a notification. -/
theorem Turned.ends_of_blocking {s : Blocking.State} (h : Turned r r₁ t m l (.resume p))
    (hs : l.body = .blocking s) (hn : p.notice? = some (mode, .inside woken)) :
    r₁.Ends m mode t (l.body.signal mode) := by
  have hsuits := h.suits
  rw [hs] at hsuits
  obtain rfl : p = .blocking (.notified mode woken) := by
    rcases p with pc | pc | pc
    · cases pc <;> cases hn
      rfl
    · cases hsuits
    · cases hsuits
  have hplace := h.place_blocking hs
  have hl' := h.lock_blocking hs
  simp only [Job.onBlocking, Blocking.resume] at hl' hplace
  obtain ⟨hstate, hnone⟩ := Blocking.recheck_spec (s.withGroup mode
    { s.group mode with signal := (s.group mode).signal.release })
  refine ⟨⟨_, hl', ?_⟩, fun stage => ?_⟩
  · simp only [Body.signal, hs, hstate, Blocking.group_withGroup_self]
  · rw [Run.notice?, hplace, hnone]
    exact Option.some_ne_none _ |>.symm

/-- The notification that a thread on a read-mostly lock makes after a job. -/
theorem Turned.notice?_of_readMostly {s : ReadMostly.State} {job : Job} (h : Turned r r₁ t m l job)
    (hs : l.body = .readMostly s) :
    r₁.notice? m t = (job.onReadMostly ⟨t, m, r.world.isAlive⟩
      ⟨s, r.world.flags, (r.world.thread t).locals⟩).stand.place?.bind Pc.notice? := by
  obtain ⟨-, -, -, hstand⟩ := h.onReadMostly hs rfl
  rw [Run.notice?, h.place_self', hstand, Stand.place?_lift]
  cases (job.onReadMostly _ _).stand <;> rfl

/-- A turn on a read-mostly lock begins at one of its places. -/
theorem Turned.exists_pc {s : ReadMostly.State} (h : Turned r r₁ t m l (.resume p))
    (hs : l.body = .readMostly s) : ∃ pc, p = .readMostly pc := by
  have hsuits := h.suits
  rw [hs] at hsuits
  cases p with
  | readMostly pc => exact ⟨pc, rfl⟩
  | blocking | polling => cases hsuits

/-- On a read-mostly lock a thread that is to notify does so, or goes on trying. -/
theorem Turned.tries_of_readMostly {s : ReadMostly.State} (h : Turned r r₁ t m l (.resume p))
    (hs : l.body = .readMostly s) (hn : p.notice? = some (mode, stage))
    (hstage : stage.isInside = false) :
    r₁.Notifies m mode t (l.body.signal mode) ∨ r.Defers r₁ m mode t l := by
  obtain ⟨pc, rfl⟩ := h.exists_pc hs
  have hnotice := h.notice?_of_readMostly hs
  obtain ⟨⟨l', hl', hs'⟩, hflags, -, -⟩ := h.onReadMostly hs rfl
  have htried := ReadMostly.resume_tried ⟨t, m, r.world.isAlive⟩
    ⟨s, r.world.flags, (r.world.thread t).locals⟩ hn hstage
  simp only [Job.onReadMostly] at hnotice hs' hflags
  cases htried with
  | notifies hfree hstand hinside hsignal =>
    left
    rw [hs]
    refine ⟨hfree, by rw [hnotice, hstand]; exact hinside, l', hl', ?_⟩
    rw [hs']
    exact hsignal
  | defers htaken hstand hyields hstate =>
    right
    rw [hstate] at hflags hs'
    refine ⟨by rw [hs]; exact htaken, h.locks_eq hl' (hs'.trans hs.symm), hflags, ?_⟩
    rw [if_pos (by rw [hs]; rfl), hnotice, hstand]
    exact hyields

/-- On a read-mostly lock a thread comes out of a notification. -/
theorem Turned.ends_of_readMostly {s : ReadMostly.State} (h : Turned r r₁ t m l (.resume p))
    (hs : l.body = .readMostly s) (hn : p.notice? = some (mode, .inside woken)) :
    r₁.Ends m mode t (l.body.signal mode) := by
  obtain ⟨pc, rfl⟩ := h.exists_pc hs
  have hnotice := h.notice?_of_readMostly hs
  obtain ⟨⟨l', hl', hs'⟩, -⟩ := h.onReadMostly hs rfl
  obtain ⟨hsignal, hnone⟩ := ReadMostly.resume_inside ⟨t, m, r.world.isAlive⟩
    ⟨s, r.world.flags, (r.world.thread t).locals⟩ hn
  simp only [Job.onReadMostly] at hnotice hs'
  refine ⟨⟨l', hl', ?_⟩, fun stage hstage => ?_⟩
  · rw [hs, hs']
    exact hsignal
  · rw [hnotice, Option.bind_eq_some_iff] at hstage
    obtain ⟨pc', hpc', hstage⟩ := hstage
    exact hnone pc' stage (stand_eq_of_place? hpc') hstage

/-- Nobody notifies on a polling lock. -/
theorem Turned.not_polling {s : Polling.State} {n : Mode × Notice.Stage}
    (h : Turned r r₁ t m l (.resume p)) (hn : p.notice? = some n) : l.body ≠ .polling s := by
  intro hs
  have hsuits := h.suits
  rw [hs] at hsuits
  cases p with
  | polling => cases hn
  | blocking | readMostly => cases hsuits

namespace Run

variable {e : Event}

/-! ## Notifications in turn -/

/-- A lock on which somebody stands after a turn has not gone with it. -/
theorem EndsIn.eq_of_place (h : r₁.EndsIn m r') (ho : r'.Orderly) (hplace : r₁.place m t = some p) :
    r' = r₁ := by
  refine h.resolve_right fun hdis => ?_
  have hdead : r'.world.isAlive m = false := by
    rw [← Bool.not_eq_true, hdis.isAlive_iff, hdis.dead]
    exact Bool.false_ne_true
  rw [← place_congr (hdis.threads t), ho.place_of_dead hdead] at hplace
  cases hplace

/-- Only read-mostly locks go with a turn. -/
theorem EndsIn.eq_of_locks (h : r₁.EndsIn m r') (hl : r₁.world.locks[m]? = some l)
    (hread : l.body.algorithm ≠ .readMostly) :
    r'.world.locks = r₁.world.locks ∧ r'.world.flags = r₁.world.flags := by
  rcases h with rfl | hdis
  · exact ⟨rfl, rfl⟩
  · rcases World.dissolve_cases r₁.world m with heq | ⟨l', s, hl', hs, -⟩
    · exact ⟨by rw [hdis.locks, heq], by rw [hdis.flags, heq]⟩
    · cases hl.symm.trans hl'
      rw [hs] at hread
      exact absurd rfl hread

theorem EndsIn.notice?_eq (h : r₁.EndsIn m r') : r'.notice? m t = r₁.notice? m t := by
  rw [notice?, place_congr (h.thread_eq t), notice?]

theorem Notifies.endsIn {signal : Signal} (h : r₁.Notifies m mode t signal) (ho : r'.Orderly)
    (hends : r₁.EndsIn m r') : r'.Notifies m mode t signal := by
  obtain ⟨p, hplace, -⟩ := notice?_eq_some_iff.mp h.inside
  rw [hends.eq_of_place ho hplace]
  exact h

theorem Defers.endsIn (h : r.Defers r₁ m mode t l) (hl : r.world.locks[m]? = some l)
    (ho : r'.Orderly) (hends : r₁.EndsIn m r') : r.Defers r' m mode t l := by
  by_cases hread : l.body.algorithm = .readMostly
  · have hnotice := h.notice
    rw [if_pos hread] at hnotice
    obtain ⟨p, hplace, -⟩ := notice?_eq_some_iff.mp hnotice
    rw [hends.eq_of_place ho hplace]
    exact h
  · obtain ⟨hlocks, hflags⟩ := hends.eq_of_locks (h.locks ▸ hl) hread
    exact ⟨h.taken, hlocks.trans h.locks, hflags.trans h.flags, hends.notice?_eq.trans h.notice⟩

theorem Ends.endsIn {signal : Signal} (h : r₁.Ends m mode t signal) (hends : r₁.EndsIn m r') :
    r'.Ends m mode t signal := by
  refine ⟨?_, fun stage => hends.notice?_eq ▸ h.notice stage⟩
  obtain ⟨l₁, hl₁, hsignal⟩ := h.signal
  rcases hends with rfl | hdis
  · exact ⟨l₁, hl₁, hsignal⟩
  · obtain ⟨l', hl', -⟩ := World.Keeps.dissolve r₁.world m m l₁ hl₁
    rw [← hdis.locks] at hl'
    obtain ⟨l₂, hl₂, hsame⟩ := hdis.signal_eq hl'
    cases hl₁.symm.trans hl₂
    exact ⟨l', hl', (hsame mode).trans hsignal⟩

/-- The next turn of a thread that is to notify. -/
theorem Orderly.tries (ho : r.Orderly) (h : r.notice? m t = some (mode, stage))
    (hstage : stage.isInside = false) (hl : r.world.locks[m]? = some l) :
    (r.after (.turn t)).Notifies m mode t (l.body.signal mode) ∨
      r.Defers (r.after (.turn t)) m mode t l := by
  obtain ⟨p, hplace, hn⟩ := notice?_eq_some_iff.mp h
  have hp := ho.permits_of_notice h
  have ho' := (after_moves ho hp).2
  obtain ⟨l₀, r₁, hturned, hends⟩ := ho.turned_of_place hp hplace
  cases hl.symm.trans hturned.lock
  have htries : r₁.Notifies m mode t (l.body.signal mode) ∨ r.Defers r₁ m mode t l := by
    cases hs : l.body with
    | blocking s => exact hs ▸ hturned.tries_of_blocking hs hn hstage
    | polling s => exact absurd hs (hturned.not_polling hn)
    | readMostly s => exact hs ▸ hturned.tries_of_readMostly hs hn hstage
  exact htries.imp (fun h => h.endsIn ho' hends) fun h => h.endsIn hl ho' hends

/-- The next turn of a thread that is inside a notification. -/
theorem Orderly.ends (ho : r.Orderly) (h : r.notice? m t = some (mode, .inside woken))
    (hl : r.world.locks[m]? = some l) :
    (r.after (.turn t)).Ends m mode t (l.body.signal mode) := by
  obtain ⟨p, hplace, hn⟩ := notice?_eq_some_iff.mp h
  have hp := ho.permits_of_notice h
  obtain ⟨l₀, r₁, hturned, hends⟩ := ho.turned_of_place hp hplace
  cases hl.symm.trans hturned.lock
  have hended : r₁.Ends m mode t (l.body.signal mode) := by
    cases hs : l.body with
    | blocking s => exact hs ▸ hturned.ends_of_blocking hs hn
    | polling s => exact absurd hs (hturned.not_polling hn)
    | readMostly s => exact hs ▸ hturned.ends_of_readMostly hs hn
  exact hended.endsIn hends

/-- A mark that counts those who are inside is that of one of them. -/
theorem mark_iff {mark : Bool} {inside : ThreadId → Prop} (h : Tallies mark.toNat inside) :
    (mark = true ↔ ∃ t, inside t) ∧ ∀ t u, inside t → inside u → t = u := by
  constructor
  · rw [← not_iff_not, not_exists, ← h.zero_iff]
    cases mark <;> decide
  · obtain ⟨threads, -, hmem, hlength⟩ := h
    intro t u ht hu
    rw [← hmem] at ht hu
    have hle : threads.length ≤ 1 := hlength ▸ Bool.toNat_le mark
    match threads, hle with
    | [v], _ => exact (List.mem_singleton.mp ht).trans (List.mem_singleton.mp hu).symm

/-- What is so of the notifications on the lock at an index.

* Nobody is in a notification of a signal with somebody else, and the mark of the signal is set
  while somebody is in one.
* A thread that is to notify can go on. It notifies, or another one does and it touches nothing: on
  a blocking lock it leaves that then, on a read-mostly lock it will try again.
* A thread that is in a notification can go on, and comes out of it.
* What others do leaves a thread where it notifies. -/
structure TakesTurns (r : Run) (m : Nat) : Prop where
  alone : ∀ mode t u, r.tells m mode t = true → r.tells m mode u = true → t = u
  marked : ∀ l mode, r.world.locks[m]? = some l →
    ((l.body.signal mode).notifying = true ↔ ∃ t, r.tells m mode t = true)
  tries : ∀ t l mode stage, r.world.locks[m]? = some l → r.notice? m t = some (mode, stage) →
    stage.isInside = false → r.world.Permits (.turn t) ∧
      ((r.after (.turn t)).Notifies m mode t (l.body.signal mode) ∨
        r.Defers (r.after (.turn t)) m mode t l)
  ends : ∀ t l mode woken, r.world.locks[m]? = some l →
    r.notice? m t = some (mode, .inside woken) → r.world.Permits (.turn t) ∧
      (r.after (.turn t)).Ends m mode t (l.body.signal mode)
  stays : ∀ t n e, r.notice? m t = some n → r.world.Permits e → e ≠ .turn t →
    (r.after e).notice? m t = some n

/-- Whoever is in a notification is on a lock. -/
theorem Orderly.exists_lock_of_notice (ho : r.Orderly) {n : Mode × Notice.Stage}
    (h : r.notice? m t = some n) : ∃ l, r.world.locks[m]? = some l := by
  obtain ⟨p, hplace, -⟩ := notice?_eq_some_iff.mp h
  obtain ⟨l, hl, -⟩ := ho.exists_lock_of_place hplace
  exact ⟨l, hl⟩

theorem takesTurns {ok : Run → Event → Prop} (h : Reachable ok r) (m : Nat) : r.TakesTurns m := by
  have ho := h.orderly
  have hlock : ∀ {t mode}, r.tells m mode t = true → ∃ l, r.world.locks[m]? = some l := by
    intro t mode ht
    obtain ⟨woken, hn⟩ := tells_iff.mp ht
    exact ho.exists_lock_of_notice hn
  refine ⟨fun mode t u ht hu => ?_, fun l mode hl => ?_, fun t l mode stage hl hn hstage => ?_,
    fun t l mode woken hl hn => ?_, fun t n e hn hp hne => ?_⟩
  · obtain ⟨l, hl⟩ := hlock ht
    exact (mark_iff (h.marked_all m l hl mode)).2 t u ht hu
  · exact (mark_iff (h.marked_all m l hl mode)).1
  · exact ⟨ho.permits_of_notice hn, ho.tries hn hstage hl⟩
  · exact ⟨ho.permits_of_notice hn, ho.ends hn hl⟩
  · obtain ⟨p, hplace, -⟩ := notice?_eq_some_iff.mp hn
    rw [notice?, ho.place_after_of_ne hp hplace hne]
    exact hn

end Run

/-! ## Notifications that are insisted on -/

namespace ReadMostly.Pc

/-- A thread at this place is in a call that notifies callers of a mode, and comes back only when
it has done so. -/
def insists (mode : Mode) (pc : Pc) : Bool := pc.notice?.any fun n => n.1 == mode

/-- A thread at this place has yet to notify callers of a mode. -/
def isOutside (mode : Mode) (pc : Pc) : Bool := pc.notice?.any fun n => n.1 == mode && !n.2.isInside

/-- A thread at this place is notifying callers of a mode. -/
def isInside (mode : Mode) (pc : Pc) : Bool := pc.notice?.any fun n => n.1 == mode && n.2.isInside

/-- Whoever insists on a notification is making it, or has yet to. -/
theorem insists_toNat (mode : Mode) (pc : Pc) :
    (pc.insists mode).toNat = (pc.isInside mode).toNat + (pc.isOutside mode).toNat := by
  unfold insists isInside isOutside
  cases pc.notice? with
  | none => rfl
  | some n =>
    simp only [Option.any_some]
    cases n.1 == mode <;> cases n.2.isInside <;> rfl

theorem any_insists {pc? : Option Pc} {mode : Mode} (h : pc?.any (isInside mode) = true) :
    pc?.any (insists mode) = true := by
  cases pc? with
  | none => cases h
  | some pc =>
    have hcount := insists_toNat mode pc
    rw [show pc.isInside mode = true from h] at hcount
    cases hinsists : pc.insists mode with
    | true => exact hinsists
    | false =>
      rw [hinsists, Bool.toNat_false, Bool.toNat_true] at hcount
      omega

end ReadMostly.Pc

namespace Run

variable {e : Event} {pc : Pc}

/-- A turn takes a thread from a place of a read-mostly lock to another one. -/
theorem Orderly.readMostly_after (ho : r.Orderly) (hp : r.world.Permits (.turn t))
    (hplace : r.place m t = some (.readMostly pc))
    (hplace' : (r.after (.turn t)).place m t = some p) : ∃ pc', p = .readMostly pc' := by
  obtain ⟨l, r₁, hturned, hends⟩ := ho.turned_of_place hp hplace
  obtain ⟨s, hs⟩ := Body.exists_readMostly hturned.suits.symm
  obtain ⟨-, -, -, hstand⟩ := hturned.onReadMostly hs rfl
  rw [place_congr (hends.thread_eq t), hturned.place_self', hstand, Stand.place?_lift,
    Option.map_eq_some_iff] at hplace'
  obtain ⟨pc', -, rfl⟩ := hplace'
  exact ⟨pc', rfl⟩

theorem place_of_pc? (h : r.pc? m t = some pc) : r.place m t = some (.readMostly pc) := by
  obtain ⟨p, hplace, hpc⟩ := Option.bind_eq_some_iff.mp h
  cases p with
  | readMostly pc' =>
    cases hpc
    exact hplace
  | blocking | polling => cases hpc

theorem notice?_of_pc? (h : r.pc? m t = some pc) : r.notice? m t = pc.notice? := by
  rw [notice?, place_of_pc? h]
  rfl

/-- A turn in a call that notifies ends the call if it ends a notification, and only then. -/
theorem Orderly.insists_after (ho : r.Orderly) (hpc : r.pc? m t = some pc)
    (hn : pc.notice? = some (mode, stage)) :
    ((r.after (.turn t)).pc? m t).any (Pc.insists mode) = !stage.isInside := by
  have hplace := place_of_pc? hpc
  have hnotice := (notice?_of_pc? hpc).trans hn
  obtain ⟨l, hl, halg⟩ := ho.exists_lock_of_place hplace
  cases hstage : stage.isInside with
  | true =>
    cases stage with
    | announced | yielding => cases hstage
    | inside woken =>
      have hended := (ho.ends hnotice hl).notice
      cases hpc' : (r.after (.turn t)).pc? m t with
      | none => rfl
      | some pc' =>
        rw [notice?_of_pc? hpc'] at hended
        cases hn' : pc'.notice? with
        | none => simp [Pc.insists, hn']
        | some n =>
          obtain ⟨mode', stage'⟩ := n
          have hne : mode' ≠ mode := fun heq => hended stage' (heq ▸ hn')
          simp [Pc.insists, hn', hne]
  | false =>
    have hinsists : ∀ stage', (r.after (.turn t)).notice? m t = some (mode, stage') →
        ((r.after (.turn t)).pc? m t).any (Pc.insists mode) = true := by
      intro stage' hn'
      obtain ⟨p, hplace', hn'⟩ := notice?_eq_some_iff.mp hn'
      obtain ⟨pc', rfl⟩ := ho.readMostly_after (ho.permits_of_notice hnotice) hplace hplace'
      have hinsists : pc'.insists mode = true := by
        unfold Pc.insists
        rw [show pc'.notice? = some (mode, stage') from hn']
        exact beq_self_eq_true mode
      rw [pc?, hplace']
      exact hinsists
    rcases ho.tries hnotice hstage hl with hnotifies | hdefers
    · exact hinsists _ hnotifies.inside
    · have hyields := hdefers.notice
      rw [if_pos (show l.body.algorithm = .readMostly from halg.symm)] at hyields
      exact hinsists _ hyields

/-- A thread goes from a call that notifies whenever it comes out of a notification, and only
then. -/
theorem Orderly.goesFrom_insists (ho : r.Orderly) (hp : r.world.Permits e) :
    goesFrom (Pc.insists mode) m t r e = goesFrom (Pc.isInside mode) m t r e := by
  unfold goesFrom comes
  cases hpc : r.pc? m t with
  | none => rfl
  | some pc =>
    by_cases he : e = .turn t
    · subst he
      cases hn : pc.notice? with
      | none => simp [Pc.insists, Pc.isInside, hn]
      | some n =>
        obtain ⟨mode', stage⟩ := n
        by_cases hmode : mode' = mode
        · subst hmode
          have hafter := ho.insists_after hpc hn
          have hinside : pc.isInside mode' = stage.isInside := by simp [Pc.isInside, hn]
          have hinsists : pc.insists mode' = true := by simp [Pc.insists, hn]
          rw [Option.any_some, Option.any_some, hinsists, hinside, hafter]
          cases hstage : stage.isInside with
          | false => rfl
          | true =>
            rw [hstage] at hafter
            rw [Bool.eq_false_iff.mpr fun h => Bool.eq_false_iff.mp hafter (Pc.any_insists h)]
            rfl
        · simp [Pc.insists, Pc.isInside, hn, beq_eq_false_iff_ne.mpr hmode]
    · have hsame : (r.after e).pc? m t = some pc := by
        rw [pc?, ho.place_after_of_ne hp (place_of_pc? hpc) he, ← pc?, hpc]
      rw [hsame]
      simp

/-- A thread on a read-mostly lock has notified as often as it has begun a call that does so, but
for a call that it is in and that has yet to notify. -/
theorem Plays.tally_insists {ok : Run → Event → Prop} {host : Host} {events : List Event}
    (h : (initial host).Plays ok events) (m : Nat) (t : ThreadId) (mode : Mode) :
    (initial host).tally (comesTo (Pc.insists mode) m t) events =
      (initial host).tally (comesTo (Pc.isInside mode) m t) events +
        ((((play (.initial host) events).pc? m t).any (Pc.isOutside mode)).toNat) := by
  have hgoes : (initial host).tally (goesFrom (Pc.insists mode) m t) events =
      (initial host).tally (goesFrom (Pc.isInside mode) m t) events := by
    refine h.induction (P := fun events =>
      (initial host).tally (goesFrom (Pc.insists mode) m t) events =
        (initial host).tally (goesFrom (Pc.isInside mode) m t) events) rfl ?_
    intro events e hplays hp _ ih
    rw [tally_concat, tally_concat, ih,
      (Reachable.start.play hplays).orderly.goesFrom_insists hp]
  have hinsists := tally_comesTo (Pc.insists mode) m t (initial host) events
  have hinside := tally_comesTo (Pc.isInside mode) m t (initial host) events
  have hnow : (((play (.initial host) events).pc? m t).any (Pc.insists mode)).toNat =
      (((play (.initial host) events).pc? m t).any (Pc.isInside mode)).toNat +
        (((play (.initial host) events).pc? m t).any (Pc.isOutside mode)).toNat := by
    cases (play (.initial host) events).pc? m t with
    | none => rfl
    | some pc => exact pc.insists_toNat mode
  have hstart : ∀ kind : Pc → Bool, (((initial host).pc? m t).any kind).toNat = 0 := fun _ => rfl
  rw [hstart] at hinsists hinside
  omega

end Run

/-! ## The main result -/

/-- In every run of any number of threads and locks, whatever the callers do, and wherever a thread
is stopped or ends:

* the notifications of the signals of each lock take turns: at most one thread is in a notification
  of a signal, the mark of the signal is set iff one is, a thread that is to notify does so or
  touches nothing, and a thread that is in a notification clears the mark as it comes out;
* on a read-mostly lock a thread does not give a notification up: it has notified once for each call
  that it has begun, but for one that it is in and that is still trying. -/
theorem notifications_take_turns {host : Host} {events : List Event}
    (h : (Run.initial host).Plays (fun _ _ => True) events) (m : Nat) :
    (Run.play (.initial host) events).TakesTurns m ∧ ∀ t mode,
      (Run.initial host).tally (Run.comesTo (Pc.insists mode) m t) events =
        (Run.initial host).tally (Run.comesTo (Pc.isInside mode) m t) events +
          (((Run.play (.initial host) events).pc? m t).any (Pc.isOutside mode)).toNat :=
  ⟨Run.takesTurns (Reachable.start.play h) m, fun t mode => h.tally_insists m t mode⟩

/-- A writer waits for a reader, which is about to notify it when it gives its lock up. The writer
wakes by itself, and takes and gives up its own lock. As it notifies the next writer, the reader
finds it doing so. -/
def Run.meetingNotifiers : List Event :=
  [.make ⟨.readMostly .packed, false, false⟩ .longWait,
    .call 1 0 (.operate (.acquire .shared)), .turn 1, .turn 1, .turn 1,
    .call 0 0 (.operate (.acquire .unique)), .turn 0, .turn 0, .turn 0, .turn 0,
    .call 1 0 (.operate (.release .shared)), .turn 1, .turn 1, .turn 1,
    .wake 0, .turn 0, .turn 0, .turn 0, .turn 0, .turn 0, .turn 0,
    .call 2 0 (.operate (.acquire .unique)),
    .call 0 0 (.operate (.release .unique)), .turn 0, .turn 0, .turn 0, .turn 1]

/-- The writer is in its notification, and the reader will try again. -/
theorem notifications_take_turns_meeting :
    (∀ t, (Run.play (.initial {}) Run.meetingNotifiers).tells 0 .unique t = true ↔ t = 0) ∧
      (Run.play (.initial {}) Run.meetingNotifiers).notice? 0 1 = some (.unique, .yielding) ∧
      (Run.initial {}).tally (Run.comesTo (Pc.isInside .unique) 0 0) Run.meetingNotifiers = 1 ∧
      (Run.initial {}).tally (Run.comesTo (Pc.isInside .unique) 0 1) Run.meetingNotifiers = 0 := by
  have hplays : (Run.initial {}).Plays (fun _ _ => True) Run.meetingNotifiers := by decide +kernel
  obtain ⟨hturns, htally⟩ := notifications_take_turns hplays 0
  have hinside : (Run.play (.initial {}) Run.meetingNotifiers).tells 0 .unique 0 = true := by
    decide +kernel
  -- The reader has begun a call as well, but has yet to notify.
  have hbegun : ∀ t < 2, (Run.initial {}).tally (Run.comesTo (Pc.insists .unique) 0 t)
      Run.meetingNotifiers = 1 := by
    decide +kernel
  have hnow : ∀ t < 2, (((Run.play (.initial {}) Run.meetingNotifiers).pc? 0 t).any
      (Pc.isOutside .unique)).toNat = t := by
    decide +kernel
  have hrest : ∀ begun notified owed t : Nat, begun = notified + owed → begun = 1 → owed = t →
      notified = 1 - t := by
    omega
  have hnotified : ∀ t < 2,
      (Run.initial {}).tally (Run.comesTo (Pc.isInside .unique) 0 t) Run.meetingNotifiers = 1 - t :=
    fun t ht => hrest _ _ _ _ (htally t .unique) (hbegun t ht) (hnow t ht)
  refine ⟨fun t => ⟨fun ht => hturns.alone .unique t 0 ht hinside, ?_⟩, by decide +kernel,
    hnotified 0 (by decide), hnotified 1 (by decide)⟩
  rintro rfl
  exact hinside

end ReaderWriter
