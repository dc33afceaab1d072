import ReaderWriter.Proofs.ReadMostly.Duties
import ReaderWriter.Proofs.ReadMostly.Exclusion

/-!
# Nobody waits in vain for a read-mostly lock

Whenever a writer is parked, somebody is in charge of it: a writer has the lock, or some thread has
yet to look at the flags or to wake a writer, or a reader's flag is up and its thread will look
after the writers when it lowers it. Whenever a reader is parked, there is a claim, or somebody is
about to wake all readers. A crowd in which nobody can move leaves only the holders.

* `Crowd.Attended`: what always holds of a crowd.
* `Crowd.Reachable.attended`: it does.
* `Crowd.Attended.of_isStill`: what it comes to if nobody can move.
-/

namespace ReaderWriter

namespace ReadMostly

/-- A writer that settles down to wait has the gate. -/
theorem Pc.hasGate_of_settles {pc : Pc} (h : pc.settles = true) :
    pc.hasGate = true ∧ pc.bears = false := by
  cases pc with
  | draining told stage backoff =>
    cases stage with
    | announced | parking => exact ⟨rfl, rfl⟩
    | parked | snoozing | resumed | woken => cases h
  | _ => cases h

/-- A writer that settles down to wait has set the claim to `want`. -/
theorem Pc.Fits.eq_want_of_settles {pc : Pc} {claim : Claim} (hfits : pc.Fits claim)
    (h : pc.settles = true) : claim = .want := by
  cases pc with
  | draining told stage backoff =>
    cases stage with
    | announced | parking => exact hfits
    | parked | snoozing | resumed | woken => cases h
  | _ => cases h

theorem Pc.settles_of_joins? {pc : Pc} (h : pc.joins? = some .unique) : pc.settles = true := by
  cases pc with
  | draining told stage backoff =>
    cases stage with
    | parking => rfl
    | announced | parked | snoozing | resumed | woken => cases h
  | waiting f stage backoff => cases stage <;> cases h
  | _ => cases h

/-- A thread that is about to join a queue has set the claim to `want`, or has seen it set. -/
theorem Pc.Fits.eq_want_of_joins? {pc : Pc} {mode : Mode} {claim : Claim} (hfits : pc.Fits claim)
    (h : pc.joins? = some mode) : claim = .want := by
  cases pc with
  | draining told stage backoff =>
    cases stage with
    | parking => exact hfits
    | announced | parked | snoozing | resumed | woken => cases h
  | waiting f stage backoff =>
    cases stage with
    | parking => exact hfits
    | announced | parked | snoozing | resumed | woken => cases h
  | _ => cases h

namespace Crowd

variable {c c' : Crowd} {t u : ThreadId} {job : Job} {stand : Stand Pc} {gain : Option Mode}
  {mode : Mode} {f : Flag}

/-- The thread is parked in this mode, or has been and was notified. -/
def Parks (c : Crowd) (mode : Mode) (t : ThreadId) : Prop :=
  (c.place t).bind Pc.parks? = some mode

/-- Some thread looks after the writers. -/
def Borne (c : Crowd) : Prop := ∃ t, Bears t c.lock.drained.queue (c.place t)

/-- Some listed flag is up, or its thread has just lowered it and looks after the writers. -/
def Covered (c : Crowd) : Prop :=
  c.lock.registry.allClear c.flags = false ∨ ∃ t, (c.place t).any Pc.covers = true

/-- What always holds of those who wait in a crowd. -/
structure Attended (c : Crowd) : Prop where
  /-- The registry is with the threads that have it. -/
  writer : Gate.HeldBy c.lock.registry.writer fun t => (c.place t).any Pc.isWriting = true
  readers : Seats c.lock.registry.readers fun t => (c.place t).any Pc.isReading = true
  /-- Those in a queue are parked. -/
  drained : Seats c.lock.drained.queue (c.Parks .unique)
  reopened : Seats c.lock.reopened.queue (c.Parks .shared)
  /-- Parked writers are looked after. -/
  borne : c.lock.drained.queue ≠ [] →
    c.lock.claim = .yes ∨ c.Borne ∨ c.lock.claim = .want ∧ c.Covered
  behind : ∀ t, (c.place t).any Pc.settles = true → c.Covered
  /-- A claim is somebody's, and parked readers wait for one. -/
  wanted : c.lock.claim = .want → ∃ t, (c.place t).any Pc.wants = true
  told : c.lock.reopened.queue ≠ [] →
    c.lock.claim ≠ .no ∨ ∃ t, (c.place t).any Pc.reopens = true

/-! ## Turns -/

/-- Flags that are up keep somebody in charge of the writers. -/
theorem Covered.after (hg : c.Guarded) (hclear : c.Clear) (hturn : Turns c c' t job stand gain)
    (hwant : c.lock.claim = .want) (h : c.Covered) :
    c'.Covered ∨ (c'.place t).any Pc.bears = true ∧ EndsGated stand gain := by
  obtain ⟨sc, locals, locals', -, -, htable⟩ := hturn.table
  have hdown : ∀ f wasUp, job = .from (.departing f wasUp .inside) →
      c.flags.isRaised f = false := by
    intro f wasUp hjob
    have hplace := place?_of_from hturn.toActs hjob
    refine Bool.eq_false_iff.mpr fun hraised => ?_
    rcases (hg.up t f (hclear.carried hplace rfl)).mp hraised with hheld | hflies
    · exact hg.apart t (by rw [hplace]; rfl) hheld
    · rw [hplace] at hflies
      cases hflies
  -- Either this thread is concerned, or another one goes on to be.
  have hself : (c.lock.registry.allClear c.flags = false ∨ job.pc?.any Pc.covers = true) ∨
      c'.Covered := by
    rcases h with hflag | ⟨u, hu⟩
    · exact .inl (.inl hflag)
    · by_cases hut : u = t
      · subst hut
        rw [hturn.place] at hu
        exact .inl (.inr hu)
      · exact .inr (.inr ⟨u, by rwa [hturn.places u hut]⟩)
  rcases hself with hself | hcovered
  · rw [hturn.place']
    cases htable.covers hwant hdown hself with
    | flag hflag => exact .inl (.inl hflag)
    | covers hcovers => exact .inl (.inr ⟨t, by rwa [hturn.place']⟩)
    | bears hbears hends => exact .inr ⟨hbears, hends⟩
  · exact .inl hcovered

/-- A writer that is woken looks after the others. -/
theorem Attended.borne_of_drop (h : c.Attended) (hturn : Turns c c' t job stand gain)
    (hjob : job.pc?.bind Pc.parks? = none)
    (heq : c'.lock.drained.queue = c.lock.drained.queue.drop 1)
    (hne : c'.lock.drained.queue ≠ []) : c'.Borne := by
  obtain ⟨hnodup, hparks⟩ := h.drained
  cases hqueue : c.lock.drained.queue with
  | nil =>
    rw [heq, hqueue] at hne
    exact absurd rfl hne
  | cons u rest =>
    rw [hqueue] at hnodup hparks heq
    have hu : u ≠ t := by
      rintro rfl
      have hparked := hparks u List.mem_cons_self
      rw [Parks, hturn.place, hjob] at hparked
      cases hparked
    refine ⟨u, .inr ⟨?_, ?_⟩⟩
    · rw [hturn.places u hu]
      exact hparks u List.mem_cons_self
    · rw [heq]
      exact (List.nodup_cons.mp hnodup).1

theorem Attended.borne_after (h : c.Attended) (hg : c.Guarded) (hclear : c.Clear)
    (hturn : Turns c c' t job stand gain) (hne : c'.lock.drained.queue ≠ []) :
    c'.lock.claim = .yes ∨ c'.Borne ∨ c'.lock.claim = .want ∧ c'.Covered := by
  obtain ⟨sc, locals, locals', hsc, -, htable⟩ := hturn.table
  subst hsc
  have hbears : (c'.place sc.thread).any Pc.bears = true → c'.Borne := fun h => ⟨_, .inl h⟩
  have hclaim : c'.lock.claim = c.lock.claim ∨ c'.Borne := by
    refine htable.claim_eq_or_bears.imp_right fun h => hbears ?_
    rwa [hturn.place']
  have hcovered : c.lock.claim = .want → c.Covered →
      c'.lock.claim = .yes ∨ c'.Borne ∨ c'.lock.claim = .want ∧ c'.Covered := by
    intro hwant hcov
    rcases hclaim with heq | hborne
    · rcases hcov.after hg hclear hturn hwant with hcov' | ⟨hb, -⟩
      · exact .inr (.inr ⟨heq.trans hwant, hcov'⟩)
      · exact .inr (.inl (hbears hb))
    · exact .inr (.inl hborne)
  cases htable.drained_queues with
  | keeps heq =>
    rw [show c'.lock.drained.queue = c.lock.drained.queue from heq] at hne
    rcases h.borne hne with hyes | ⟨u, hu⟩ | ⟨hwant, hcov⟩
    · exact hclaim.imp (fun heq => heq.trans hyes) .inl
    · by_cases hut : u = sc.thread
      · subst hut
        rw [hturn.place] at hu
        cases htable.bears (fun pc hjob => hg.fits _ pc (place?_of_from hturn.toActs hjob)) hu with
        | goesOn hb => exact .inr (.inl ⟨_, by rwa [hturn.place']⟩)
        | wakes hdrop hjob => exact .inr (.inl (h.borne_of_drop hturn hjob hdrop (by rwa [heq])))
        | served hyes => exact .inl hyes
        | blocked hwant hflag => exact .inr (.inr ⟨hwant, .inl hflag⟩)
      · refine .inr (.inl ⟨u, ?_⟩)
        rwa [hturn.places u hut, show c'.lock.drained.queue = c.lock.drained.queue from heq]
    · exact hcovered hwant hcov
  | parks hjoins =>
    obtain ⟨pc, hpc, hjoins⟩ := Option.bind_eq_some_iff.mp hjoins
    have hplace : c.place sc.thread = some pc := hturn.place.trans hpc
    refine hcovered ((hg.fits _ pc hplace).eq_want_of_joins? hjoins) (h.behind sc.thread ?_)
    rw [hplace]
    exact Pc.settles_of_joins? hjoins
  | wakes hjob heq => exact .inr (.inl (h.borne_of_drop hturn hjob heq hne))

theorem Attended.behind_after (h : c.Attended) (hg : c.Guarded) (hclear : c.Clear)
    (hturn : Turns c c' t job stand gain) (u : ThreadId)
    (hsettles : (c'.place u).any Pc.settles = true) : c'.Covered := by
  obtain ⟨sc, locals, locals', -, -, htable⟩ := hturn.table
  -- The writer had settled down before, behind somebody.
  have hbefore : ∀ {u}, (c.place u).any Pc.settles = true →
      c'.Covered ∨ (c'.place t).any Pc.bears = true ∧ EndsGated stand gain := by
    intro u hu
    refine (h.behind u hu).after hg hclear hturn ?_
    obtain ⟨pc, hpc, hsettles⟩ := (Option.any_eq_true _ _).mp hu
    exact (hg.fits u pc hpc).eq_want_of_settles hsettles
  obtain ⟨pc, hpc, hpcs⟩ := (Option.any_eq_true _ _).mp hsettles
  obtain ⟨hgate, hbears⟩ := Pc.hasGate_of_settles hpcs
  by_cases hu : u = t
  · subst hu
    rw [hturn.place'] at hsettles
    rcases htable.settles hsettles with hflag | hjob
    · exact .inl hflag
    · refine (hbefore (by rwa [hturn.place])).resolve_right ?_
      rintro ⟨hb, -⟩
      rw [hpc, Option.any_some, hbears] at hb
      cases hb
  · rw [hturn.places u hu] at hsettles
    refine (hbefore hsettles).resolve_right ?_
    rintro ⟨-, hends⟩
    exact hu (hg.eq_of_endsGated hturn hends (.inl (by rw [hpc]; exact hgate)))

theorem Attended.wanted_after (h : c.Attended) (hturn : Turns c c' t job stand gain)
    (hwant : c'.lock.claim = .want) : ∃ u, (c'.place u).any Pc.wants = true := by
  obtain ⟨sc, locals, locals', -, -, htable⟩ := hturn.table
  rcases htable.wants hwant with hstand | ⟨hwant, hjob⟩
  · exact ⟨t, by rwa [hturn.place']⟩
  · obtain ⟨u, hu⟩ := h.wanted hwant
    have hut : u ≠ t := by
      rintro rfl
      rw [hturn.place, hjob] at hu
      cases hu
    exact ⟨u, by rwa [hturn.places u hut]⟩

theorem Attended.told_after (h : c.Attended) (hg : c.Guarded) (hturn : Turns c c' t job stand gain)
    (hne : c'.lock.reopened.queue ≠ []) :
    c'.lock.claim ≠ .no ∨ ∃ u, (c'.place u).any Pc.reopens = true := by
  obtain ⟨sc, locals, locals', hsc, -, htable⟩ := hturn.table
  subst hsc
  by_cases hno : c'.lock.claim = .no
  · refine .inr ?_
    rcases htable.reopens hno with hstand | hempty | ⟨hno, hjob⟩
    · exact ⟨_, by rwa [hturn.place']⟩
    · exact absurd hempty hne
    · cases htable.reopened_queues with
      | keeps heq =>
        rw [show c'.lock.reopened.queue = c.lock.reopened.queue from heq] at hne
        obtain ⟨u, hu⟩ := (h.told hne).resolve_left (fun hclaim => hclaim hno)
        have hut : u ≠ sc.thread := by
          rintro rfl
          rw [hturn.place, hjob] at hu
          cases hu
        exact ⟨u, by rwa [hturn.places u hut]⟩
      | parks hjoins =>
        obtain ⟨pc, hpc, hjoins⟩ := Option.bind_eq_some_iff.mp hjoins
        have hwant := (hg.fits _ pc (hturn.place.trans hpc)).eq_want_of_joins? hjoins
        cases hno.symm.trans hwant
      | wakes _ heq => exact absurd heq hne
  · exact .inl hno

theorem Attended.of_turns (h : c.Attended) (hg : c.Guarded) (hclear : c.Clear)
    (hturn : Turns c c' t job stand gain) : c'.Attended := by
  obtain ⟨sc, locals, locals', hsc, -, htable⟩ := id hturn.table
  subst hsc
  refine ⟨h.writer.passes (t := sc.thread) ?_ fun u hu => ?_,
    h.readers.passes (t := sc.thread) ?_ fun u hu => ?_,
    h.drained.passes (t := sc.thread) ?_ fun u hu => ?_,
    h.reopened.passes (t := sc.thread) ?_ fun u hu => ?_, h.borne_after hg hclear hturn,
    h.behind_after hg hclear hturn, h.wanted_after hturn, h.told_after hg hturn⟩
  · rw [hturn.place, hturn.place']
    exact htable.writer_passes
  · rw [hturn.places u hu]
  · rw [hturn.place, hturn.place']
    exact htable.readers_reseats
  · rw [hturn.places u hu]
  · unfold Parks
    rw [hturn.place, hturn.place']
    exact htable.drained_queues.reseats
  · unfold Parks
    rw [hturn.places u hu]
  · unfold Parks
    rw [hturn.place, hturn.place']
    exact htable.reopened_queues.reseats
  · unfold Parks
    rw [hturn.places u hu]

/-! ## Every crowd -/

theorem Attended.of_stir (h : c.Attended) (hclear : c.Clear) (hlock : c'.lock = c.lock)
    (hplace : c'.place = c.place)
    (hraised : ∀ t f, c.flag t = some f → c'.flags.isRaised f = c.flags.isRaised f) :
    c'.Attended := by
  have hcovered : c.Covered → c'.Covered := by
    intro h
    unfold Covered at h ⊢
    rw [hplace, hlock]
    refine h.imp_left fun hflag => ?_
    rw [Registry.allClear_eq_false] at hflag ⊢
    obtain ⟨f, hf, hup⟩ := hflag
    obtain ⟨t, ht, -⟩ := (hclear.listed f).mp hf
    exact ⟨f, hf, (hraised t f ht).trans hup⟩
  obtain ⟨writer, readers, drained, reopened, borne, behind, wanted, told⟩ := h
  refine ⟨?_, ?_, ?_, ?_, fun hne => ?_, fun t ht => ?_, ?_, ?_⟩
  · rwa [hlock, hplace]
  · rwa [hlock, hplace]
  · unfold Parks
    rwa [hlock, hplace]
  · unfold Parks
    rwa [hlock, hplace]
  · rw [hlock] at hne
    unfold Borne
    rw [hlock, hplace]
    exact (borne hne).imp_right (Or.imp_right (And.imp_right hcovered))
  · rw [hplace] at ht
    exact hcovered (behind t ht)
  · rwa [hlock, hplace]
  · rwa [hlock, hplace]

theorem Attended.wake (h : c.Attended) (t : ThreadId) :
    Attended { c with lock := ReadMostly.wake t c.lock } := by
  have hsub : ∀ signal : Signal, (signal.forget t).queue.Sublist signal.queue :=
    fun _ => List.filter_sublist
  have hnil : ∀ {signal : Signal}, (signal.forget t).queue ≠ [] → signal.queue ≠ [] := by
    intro signal hne hnil
    exact hne (by simp [Signal.forget, hnil])
  obtain ⟨writer, readers, drained, reopened, borne, behind, wanted, told⟩ := h
  refine ⟨writer, readers, ?_, ?_, fun hne => ?_, behind, wanted, fun hne => told (hnil hne)⟩
  · exact ⟨drained.1.sublist (hsub _), fun u hu => drained.2 u ((hsub _).subset hu)⟩
  · exact ⟨reopened.1.sublist (hsub _), fun u hu => reopened.2 u ((hsub _).subset hu)⟩
  · refine (borne (hnil hne)).imp_right (Or.imp_left ?_)
    rintro ⟨u, hu⟩
    exact ⟨u, hu.imp_right fun ⟨hparks, hnot⟩ => ⟨hparks, fun hmem => hnot ((hsub _).subset hmem)⟩⟩

theorem IsNew.attended (h : c.IsNew) : c.Attended := by
  obtain ⟨⟨id, supply, config, host, hlock⟩, hflag, hplace, hheld⟩ := h
  refine ⟨fun t => ?_, ?_, ?_, ?_, ?_, fun t ht => ?_, ?_, ?_⟩
  · simp [hlock, hplace]
  · simp [hlock, Seats]
  · simp [hlock, Seats]
  · simp [hlock, Seats]
  · simp [hlock]
  · simp [hplace] at ht
  · simp [hlock]
  · simp [hlock]

theorem Attended.of_step (h : c.Attended) (hg : c.Guarded) (hclear : c.Clear)
    (hstep : Step c c') : c'.Attended := by
  cases hstep with
  | call hacts hserves hreleases hasks hheld =>
    exact h.of_turns hg hclear (hg.turns_of_call hacts hserves hreleases hasks hheld)
  | depart hacts hdeparts hheld =>
    exact h.of_turns hg hclear (hg.turns_of_depart hacts hdeparts hheld)
  | stir hlock _ hplace _ hraised => exact h.of_stir hclear hlock hplace hraised
  | wake t heq =>
    subst heq
    exact h.wake t

theorem Reachable.attended (h : Reachable c) : c.Attended := by
  induction h with
  | start hnew => exact hnew.attended
  | step hreach hclear _ hstep ih => exact ih.of_step hreach.guarded hclear hstep

/-! ## Crowds in which nobody can move -/

/-- Nobody in the crowd can move. -/
def IsStill (c : Crowd) : Prop :=
  ∀ t pc, c.place t = some pc → (obstacle t c.lock pc).isSome = true

end Crowd

/-- There are two places at which a thread is parked. -/
theorem Pc.eq_of_parks? {pc : Pc} {mode : Mode} (h : pc.parks? = some mode) :
    mode = .unique ∧ (∃ told backoff, pc = .draining told .parked backoff) ∨
      mode = .shared ∧ ∃ f backoff, pc = .waiting f .parked backoff := by
  cases pc with
  | draining told stage backoff =>
    cases stage with
    | parked =>
      cases h
      exact .inl ⟨rfl, _, _, rfl⟩
    | announced | parking | snoozing | resumed | woken => cases h
  | waiting f stage backoff =>
    cases stage with
    | parked =>
      cases h
      exact .inr ⟨rfl, _, _, rfl⟩
    | announced | parking | snoozing | resumed | woken => cases h
  | _ => cases h

/-- Who reads the registry is not held up. -/
theorem Pc.obstacle_of_isReading {pc : Pc} (h : pc.isReading = true) (t : ThreadId) (s : State) :
    obstacle t s pc = none := by
  cases pc with
  | scanning w a | counting a =>
    cases a with
    | inside => rfl
    | wanted => cases h
  | handingOff why stage backoff =>
    cases stage with
    | checking a | rechecking a =>
      cases a with
      | inside => rfl
      | wanted => cases h
    | begun | prodding n | snoozing | finished => rfl
  | _ => cases h

/-- Who has the registry for writing, or has reserved it, is only held up by those who read it. -/
theorem Pc.obstacle_of_isWriting {pc : Pc} (h : pc.isWriting = true) (t : ThreadId) {s : State}
    (hreaders : s.registry.readers = []) : obstacle t s pc = none := by
  cases pc with
  | registering p f e | departing f wasUp e =>
    cases e with
    | wanted => cases h
    | reserved => simp [obstacle, State.writeObstacle, hreaders]
    | inside => rfl
  | _ => cases h

/-- Who has the gate is only held up by the registry. -/
theorem Pc.obstacle_of_hasGate {pc : Pc} (h : pc.hasGate = true) (t : ThreadId) {s : State}
    (hread : s.registry.canRead = true) : obstacle t s pc = none := by
  cases pc with
  | scanning w a => cases a <;> simp [obstacle, State.readObstacle, hread]
  | draining told stage backoff => cases stage <;> first | rfl | cases h
  | waiting f stage backoff => cases stage <;> first | rfl | cases h
  | _ => first | rfl | cases h

/-- Who is parked has not been notified, and stands at a place where one parks. -/
theorem Pc.parks_of_parked {pc : Pc} {t : ThreadId} {s : State}
    (h : obstacle t s pc = some .parked) : ∃ mode, pc.parks? = some mode := by
  cases pc with
  | draining told stage backoff =>
    cases stage with
    | parked => exact ⟨_, rfl⟩
    | snoozing => simp [obstacle, Wait.obstacle] at h
    | announced | parking | resumed | woken => cases h
  | waiting f stage backoff =>
    cases stage with
    | parked => exact ⟨_, rfl⟩
    | snoozing => simp [obstacle, Wait.obstacle] at h
    | announced | parking | resumed | woken => cases h
  | handingOff why stage backoff =>
    cases stage with
    | checking a | rechecking a => cases a <;> simp [obstacle, State.readObstacle] at h
    | begun | prodding n | snoozing | finished => cases h
  | registering p f e | departing f wasUp e =>
    cases e <;> simp [obstacle, State.writeObstacle] at h
  | scanning w a | counting a => cases a <;> simp [obstacle, State.readObstacle] at h
  | _ => simp [obstacle, State.gateObstacle] at h

/-- If the registry and the gate are free, whoever is held up is parked in a queue. -/
theorem Pc.parked_of_obstacle {pc : Pc} {t : ThreadId} {s : State}
    (hread : s.registry.canRead = true) (hwrite : s.registry.canWrite = true)
    (hgate : s.gate = none) (h : (obstacle t s pc).isSome = true) :
    obstacle t s pc = some .parked ∧ (pc.parks? = some .unique ∧ t ∈ s.drained.queue ∨
      pc.parks? = some .shared ∧ t ∈ s.reopened.queue) := by
  have hreaders : s.registry.readers.isEmpty = true := (Bool.and_eq_true_iff.mp hwrite).2
  cases pc with
  | draining told stage backoff =>
    cases stage <;> simp_all [obstacle, Wait.obstacle, parks?]
  | waiting f stage backoff =>
    cases stage <;> simp_all [obstacle, Wait.obstacle, parks?]
  | handingOff why stage backoff =>
    cases stage with
    | checking a | rechecking a => cases a <;> simp [obstacle, State.readObstacle, hread] at h
    | begun | prodding n | snoozing | finished => simp [obstacle] at h
  | registering p f e | departing f wasUp e =>
    cases e <;>
      simp [obstacle, State.writeObstacle, Registry.canReserve, hwrite, hreaders] at h
  | scanning w a | counting a => cases a <;> simp [obstacle, State.readObstacle, hread] at h
  | _ => simp [obstacle, State.gateObstacle, hgate] at h

namespace Crowd

variable {c : Crowd} {t u : ThreadId} {mode : Mode}

/-- In a crowd in which nobody can move the registry is free. -/
theorem Attended.registry_of_isStill (h : c.Attended) (hstill : c.IsStill) :
    c.lock.registry.canRead = true ∧ c.lock.registry.canWrite = true := by
  have hmoves : ∀ {P : Pc → Bool},
      (∀ t pc, P pc = true → obstacle t c.lock pc = none) → ∀ t, (c.place t).any P ≠ true := by
    intro P hP t ht
    obtain ⟨pc, hpc, hpc'⟩ := (Option.any_eq_true _ _).mp ht
    have hobstacle := hstill t pc hpc
    rw [hP t pc hpc'] at hobstacle
    cases hobstacle
  have hreaders : c.lock.registry.readers = [] :=
    List.eq_nil_iff_forall_not_mem.mpr fun t ht =>
      hmoves (fun u _ h => Pc.obstacle_of_isReading h u _) t (h.readers.2 t ht)
  -- Who has reserved the registry waits for readers only, and there are none.
  have hwriter : c.lock.registry.writer = none :=
    h.writer.eq_none fun t ht => hmoves (fun u _ h => Pc.obstacle_of_isWriting h u hreaders) t ht
  simp [Registry.canRead, Registry.canWrite, hwriter, hreaders]

/-- Everybody who is on the lock is parked in a queue. -/
def AllQueued (c : Crowd) : Prop :=
  ∀ t pc, c.place t = some pc →
    pc.parks? = some .unique ∧ t ∈ c.lock.drained.queue ∨
      pc.parks? = some .shared ∧ t ∈ c.lock.reopened.queue

namespace AllQueued

theorem mem_drained (h : c.AllQueued) (ht : c.Parks .unique t) : t ∈ c.lock.drained.queue := by
  obtain ⟨pc, hpc, hmode⟩ := Option.bind_eq_some_iff.mp ht
  rcases h t pc hpc with ⟨-, hmem⟩ | ⟨heq, -⟩
  · exact hmem
  · cases heq.symm.trans hmode

theorem mem_reopened (h : c.AllQueued) (ht : c.Parks .shared t) : t ∈ c.lock.reopened.queue := by
  obtain ⟨pc, hpc, hmode⟩ := Option.bind_eq_some_iff.mp ht
  rcases h t pc hpc with ⟨heq, -⟩ | ⟨-, hmem⟩
  · cases heq.symm.trans hmode
  · exact hmem

/-- Nobody stands at any place but the two at which one parks. -/
theorem not_any (h : c.AllQueued) {P : Pc → Bool}
    (hdraining : ∀ told b, P (.draining told .parked b) = false)
    (hwaiting : ∀ f b, P (.waiting f .parked b) = false) : ¬ ∃ t, (c.place t).any P = true := by
  rintro ⟨t, ht⟩
  obtain ⟨pc, hpc, hP⟩ := (Option.any_eq_true _ _).mp ht
  have hparks : ∃ mode, pc.parks? = some mode :=
    (h t pc hpc).elim (fun h => ⟨_, h.1⟩) fun h => ⟨_, h.1⟩
  obtain ⟨mode, hmode⟩ := hparks
  rcases Pc.eq_of_parks? hmode with ⟨-, told, b, rfl⟩ | ⟨-, f, b, rfl⟩
  · rw [hdraining] at hP
    cases hP
  · rw [hwaiting] at hP
    cases hP

end AllQueued

/-- If all are parked, a parked writer waits for a reader that holds the lock. -/
theorem Attended.reader_of_parks (h : c.Attended) (hg : c.Guarded) (hclear : c.Clear)
    (hqueued : c.AllQueued) (hyes : c.lock.claim ≠ .yes) (ht : c.Parks .unique t) :
    ∃ u f, u ∈ c.held .shared ∧ c.flag u = some f := by
  have hne : c.lock.drained.queue ≠ [] := List.ne_nil_of_mem (hqueued.mem_drained ht)
  rcases h.borne hne with hclaim | ⟨u, hu | ⟨hu, hnot⟩⟩ | ⟨-, hflag | hcovers⟩
  · exact absurd hclaim hyes
  · exact absurd ⟨u, hu⟩ (hqueued.not_any (fun _ _ => rfl) fun _ _ => rfl)
  · exact absurd (hqueued.mem_drained hu) hnot
  · obtain ⟨f, hf, hup⟩ := Registry.allClear_eq_false.mp hflag
    obtain ⟨u, hu, -⟩ := (hclear.listed f).mp hf
    refine ⟨u, f, ((hg.up u f hu).mp hup).resolve_right fun hflies => ?_, hu⟩
    exact hqueued.not_any (fun _ _ => rfl) (fun _ _ => rfl) ⟨u, hflies⟩
  · exact absurd hcovers (hqueued.not_any (fun _ _ => rfl) fun _ _ => rfl)

/-- If all are parked, a parked reader waits for a writer that waits itself. -/
theorem Attended.writer_of_parks (h : c.Attended) (hqueued : c.AllQueued)
    (hyes : c.lock.claim ≠ .yes) (ht : c.Parks .shared t) : ∃ u, c.Parks .unique u := by
  have hne : c.lock.reopened.queue ≠ [] := List.ne_nil_of_mem (hqueued.mem_reopened ht)
  have hwant : c.lock.claim = .want := by
    rcases h.told hne with hno | hreopens
    · cases hclaim : c.lock.claim with
      | no => exact absurd hclaim hno
      | want => rfl
      | yes => exact absurd hclaim hyes
    · exact absurd hreopens (hqueued.not_any (fun _ _ => rfl) fun _ _ => rfl)
  obtain ⟨u, hu⟩ := h.wanted hwant
  obtain ⟨pc, hpc, hwants⟩ := (Option.any_eq_true _ _).mp hu
  refine ⟨u, ?_⟩
  rcases hqueued u pc hpc with ⟨heq, -⟩ | ⟨heq, -⟩
  · rwa [Parks, hpc]
  · rcases Pc.eq_of_parks? heq with ⟨hmode, -⟩ | ⟨-, f, b, rfl⟩
    · cases hmode
    · cases hwants

/-- A crowd in which nobody can move: a writer has the lock, or all who are on the lock are parked,
the writers behind a reader and the readers behind a writer. -/
theorem Attended.of_isStill (h : c.Attended) (hg : c.Guarded) (hclear : c.Clear)
    (hstill : c.IsStill) :
    c.held .unique ≠ [] ∨
      (∀ t pc, c.place t = some pc → obstacle t c.lock pc = some .parked) ∧
        ((∃ t, c.Parks .unique t) → ∃ u f, u ∈ c.held .shared ∧ c.flag u = some f) ∧
        ((∃ t, c.Parks .shared t) → ∃ u, c.Parks .unique u) := by
  obtain ⟨hread, hwrite⟩ := h.registry_of_isStill hstill
  cases hgate : c.lock.gate with
  | some t =>
    left
    rcases (hg.gate t).mp hgate with hplace | hheld
    · obtain ⟨pc, hpc, hhas⟩ := (Option.any_eq_true _ _).mp hplace
      have hobstacle := hstill t pc hpc
      rw [Pc.obstacle_of_hasGate hhas t hread] at hobstacle
      cases hobstacle
    · exact List.ne_nil_of_mem hheld
  | none =>
    right
    have hparked := fun t pc hpc =>
      Pc.parked_of_obstacle (t := t) hread hwrite hgate (hstill t pc hpc)
    have hqueued : c.AllQueued := fun t pc hpc => (hparked t pc hpc).2
    have hyes : c.lock.claim ≠ .yes := hg.free hgate
    refine ⟨fun t pc hpc => (hparked t pc hpc).1, ?_, ?_⟩
    · rintro ⟨t, ht⟩
      exact h.reader_of_parks hg hclear hqueued hyes ht
    · rintro ⟨t, ht⟩
      exact h.writer_of_parks hqueued hyes ht

end Crowd

end ReadMostly

end ReaderWriter
