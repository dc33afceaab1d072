import ReaderWriter.Proofs.ReadMostly.Quiet

/-!
# Runs in which nobody is on a read-mostly lock

What a run is like in which everyone who has been on a read-mostly lock has left it, and what an
operation comes to that is run alone then.

* `Run.Faces`: the thread is about to make a turn; `Faces.next` tells the turn after it.
* `Walks.goesAlone`: a thread that gets to the end of its operation by its own turns goes there
  alone.
* `Reachable.shows`: the lock shows who holds it.
* `Reachable.goesAlone_readMostly`: an operation that need not wait comes to its end.
* `Returns.not_faulted`: an acquisition that is run alone does not fail.
-/

namespace ReaderWriter

open ReadMostly (Walks Site Flag Transition)

/-! ## From the thread to the run -/

/-- By the event the thread makes this turn of an operation on the read-mostly lock at an index. -/
structure Run.Faces (r : Run) (t : ThreadId) (m : Nat) (op : Operation) (e : Event)
    (step : ReadMostly.Step) : Prop where
  orderly : r.Orderly
  faces : ∃ job l s, r.Bound t m op e job ∧ r.world.lock? m = some l ∧ l.body = .readMostly s ∧
    step = job.onReadMostly ⟨t, m, r.world.isAlive⟩ ⟨s, r.world.flags, (r.world.thread t).locals⟩

namespace Run.Faces

variable {r : Run} {t : ThreadId} {m : Nat} {op : Operation} {e : Event} {step : ReadMostly.Step}

/-- The operation ends if its turn does. -/
theorem finish_eq (h : r.Faces t m op e step) (hp : r.world.Permits e) :
    (r.world.meet e).finish = (step.stand.lift .readMostly).finish? := by
  obtain ⟨job, l, s, hbound, hl, hs, heq⟩ := h.faces
  obtain ⟨l', hop, -, hfinish⟩ := hbound.operates h.orderly hp
  cases ((World.lock?_eq_some _ _).mp hl).1.symm.trans hop.lock
  obtain ⟨-, -, -, hstand⟩ := hop.onReadMostly hs heq
  rw [hfinish, hstand]

/-- Nobody else moves meanwhile, so the thread finds the lock as it has left it, and whatever keeps
it from its next turn it has found itself. Which locks are alive is all that it is told anew. -/
theorem next (h : r.Faces t m op e step) (hp : r.world.Permits e) {pc : ReadMostly.Pc}
    (hhere : step.stand = .here pc) :
    ((r.after e).world.thread t).stint? = some (m, .readMostly pc) ∧
      ((r.after e).world.Permits (.turn t) ↔ ReadMostly.obstacle t step.state.lock pc = none) ∧
      ∃ alive, (r.after e).Faces t m op (.turn t)
        (ReadMostly.resume ⟨t, m, alive⟩ pc step.state) := by
  obtain ⟨job, l, s, hbound, hl, hs, heq⟩ := h.faces
  have hl' := (World.lock?_eq_some _ _).mp hl
  obtain ⟨l', hop, ho', -⟩ := hbound.operates h.orderly hp
  cases hl'.1.symm.trans hop.lock
  obtain ⟨⟨l₁, hl₁, hs₁⟩, hflags, hlocals, hstand⟩ := hop.onReadMostly hs heq
  rw [hhere] at hstand
  have hbound' := hbound.next h.orderly hp hstand
  have hlock : (r.after e).world.lock? m = some l₁ := by
    obtain ⟨l₂, hl₂, -, howned⟩ := hop.keeps m l hl'.1
    cases hl₁.symm.trans hl₂
    exact (World.lock?_eq_some _ _).mpr ⟨hl₁, howned.trans hop.owned⟩
  refine ⟨by rw [hop.stint', hstand]; rfl, ?_, _,
    ho', _, l₁, _, hbound', hlock, hs₁, by rw [hflags, hlocals]; rfl⟩
  cases hbound' with
  | goes hact =>
    simp only [World.Permits, World.obstacle, hact, World.callObstacle, World.operationObstacle,
      hl₁, hs₁]

end Run.Faces

/-- A thread that gets to the end of its operation by its own turns goes there alone, and does not
wait on the way. -/
theorem ReadMostly.Walks.goesAlone {t : ThreadId} {m : Nat} {answer : Answer}
    {step : ReadMostly.Step} (h : Walks t m answer step) :
    ∀ {r : Run} {e : Event} {op : Operation}, r.Faces t m op e step → r.world.Permits e →
      ∃ r', Run.GoesAlone (fun r => ¬ r.Waits t) t r e (.replied (.ofAnswer answer)) r' := by
  -- Each turn of the walk is the next event of the run.
  induction h with
  | done hdone =>
    intro r e op hfaces hp
    refine ⟨_, .ends hp ?_⟩
    rw [hfaces.finish_eq hp, hdone]
    rfl
  | @goes step pc hhere hfree hwaits _ ih =>
    intro r e op hfaces hp
    obtain ⟨hstint, hpermits, alive, hfaces'⟩ := hfaces.next hp hhere
    have hnot : ¬ (r.after e).Waits t := by
      rintro ⟨n, p, hp, hwaits'⟩
      rw [hstint] at hp
      cases hp
      exact Bool.false_ne_true (hwaits.symm.trans hwaits')
    obtain ⟨r', hr'⟩ := ih alive hfaces' (hpermits.mpr hfree)
    refine ⟨r', .goes hp ?_ hnot hr'⟩
    rw [hfaces.finish_eq hp, hhere]
    rfl

/-! ## The lock -/

variable {r r' r₁ : Run} {e : Event} {t : ThreadId} {m : Nat} {s : ReadMostly.State} {l : Lock}
  {op : Operation} {answer : Answer} {next : Holding}

namespace Run

theorem Orderly.crowd_isQuiet (ho : r.Orderly) (hquiet : r.world.IsQuiet m) :
    (r.readMostlyCrowd m s).IsQuiet := by
  intro t
  simp only [readMostlyCrowd, ho.place_of_isQuiet hquiet t, Option.bind_none]

theorem crowd_holding : (r.readMostlyCrowd m s).holding = r.holding m := by
  simp only [ReadMostly.Crowd.holding, readMostlyCrowd, Hold.length_holders]
  rfl

/-- The flag of an idle thread is among its nodes. -/
theorem crowdFlag_of_idle (hidle : (r.world.thread t).activity = .idle) :
    (r.readMostlyCrowd m s).flag t = (r.world.thread t).locals.node? m := by
  have hflags : (r.world.thread t).flags = (r.world.thread t).locals.nodes := by
    simp [Thread.flags, Thread.parting, Thread.inHand?, Thread.stint?, hidle]
  simp only [readMostlyCrowd, hflags]
  rfl

end Run

/-- The lock shows every thread that has not begun to end who holds it. -/
theorem Reachable.shows (h : Reachable (Run.Behaves m) r) (halive : r.world.isAlive m = true)
    (hs : r.world.ReadMostlyAt m s) (hown : s.supply.isOwn = true) (hquiet : r.world.IsQuiet m)
    (hlives : (r.world.thread t).Lives) :
    Site.Shows ⟨s, r.world.flags, (r.world.thread t).locals⟩ (r.holding m) := by
  obtain ⟨hclear, hcrowd⟩ := h.readMostlyCrowd (fun _ _ h => h) halive s hs
  rw [← Run.crowd_holding]
  exact hcrowd.shows hclear (h.orderly.crowd_isQuiet hquiet) hown (h.tended.intact t hlives)

/-- An idle thread that holds a shared lock keeps its flag among its nodes. -/
theorem Reachable.node?_ne_none (h : Reachable (Run.Behaves m) r)
    (halive : r.world.isAlive m = true) (hs : r.world.ReadMostlyAt m s)
    (hidle : (r.world.thread t).activity = .idle) (hheld : ⟨t, m, .shared⟩ ∈ r.holds) :
    (r.world.thread t).locals.node? m ≠ none := by
  obtain ⟨-, hcrowd⟩ := h.readMostlyCrowd (fun _ _ h => h) halive s hs
  exact Run.crowdFlag_of_idle hidle ▸
    hcrowd.guarded.flagged t (.inl (Hold.mem_holders.mpr hheld))

/-! ## An operation that is run alone -/

/-- An operation on a read-mostly lock that need not wait comes to its end, with the answer that the
two fields have for it. -/
theorem Reachable.goesAlone_readMostly (h : Reachable (Run.Behaves m) r)
    (hl : r.world.lock? m = some l) (hs : l.body = .readMostly s) (hown : s.supply.isOwn = true)
    (hquiet : r.world.IsQuiet m) (hidle : (r.world.thread t).activity = .idle)
    (hheld : op = .release .shared → ⟨t, m, .shared⟩ ∈ r.holds)
    (hnext : (r.holding m).next? op = some (answer, next)) :
    ∃ r', Run.GoesAlone (fun r => ¬ r.Waits t) t r (.call t m (.operate op))
      (.replied (.ofAnswer answer)) r' := by
  have hl' := (World.lock?_eq_some _ _).mp hl
  have halive : r.world.isAlive m = true := (World.isAlive_iff _ _).mpr (.inl ⟨l, hl⟩)
  have hbound : r.Bound t m op (.call t m (.operate op)) (.start op) := .begins hidle
  have hshows := h.shows halive ⟨l, hl'.1, hs⟩ hown hquiet (.inl hidle)
  refine (ReadMostly.walks_start hshows (fun hop => ?_) hnext r.world.isAlive).goesAlone
    ⟨h.orderly, _, l, s, hbound, hl, hs, rfl⟩ ?_
  · exact h.node?_ne_none halive ⟨l, hl'.1, hs⟩ hidle (hheld hop)
  · exact hbound.permits (by rw [hl]; rfl) fun p hp => nomatch hp

/-- An acquisition only fails as it begins, for want of a flag. -/
theorem ReadMostly.Transition.no_flag {sc : ReadMostly.Scene} {s s' : Site} {job : Job} {f : Fault}
    {gain : Option Mode} {mode : Mode} (h : Transition sc s job s' (.fault f) gain)
    (hserves : job.Serves (.acquire mode)) (htorn : s.locals.torn = []) :
    job = .start (.acquire .shared) ∧
      s.lock.supply.allocate s.flags (s.locals.touch .nodes) = .error f := by
  generalize hstand : (Stand.fault f : Stand ReadMostly.Pc) = stand at h
  cases h with
  | noFlag f' hasks halloc =>
    cases hstand
    cases hasks with
    | acquire => exact ⟨rfl, halloc⟩
    | tryAcquire => cases hserves
  | noNodes _ hcannot =>
    simp [ReadMostly.Locals.canUse, htorn] at hcannot
  | arrive _ _ hl | enlisted hl =>
    generalize s.lock.claim = claim at hl
    subst hstand
    cases hl
  | look _ _ _ hl | lookAgain hl =>
    subst hstand
    cases hl
  | leaveFault answer =>
    rcases hserves with ⟨hop, -⟩ | ⟨hop, -⟩ <;> cases hop
  | releaseFault => cases hserves
  | _ => cases hstand

/-- On a lock with a supply of this library, an acquisition that is run alone does not fail. -/
theorem Run.Returns.not_faulted {ok : Run → Event → Prop} {job : Job} {mode : Mode} {f : Fault}
    (h : Returns ok r t m (.acquire mode) (.start (.acquire mode)) (.faulted f) r₁ e l job r')
    (hs : l.body = .readMostly s) (hown : r.world.OwnSupplies) : False := by
  obtain ⟨site, stand, hacts, hstand⟩ := h.operates.acts hs
  have hfault : stand = .fault f := by
    have hfinish := h.finish
    rw [hstand] at hfinish
    cases stand <;> cases hfinish
    rfl
  subst hfault
  have htorn := h.before.tended.intact t h.operates.lives
  obtain ⟨rfl, halloc⟩ := hacts.table.no_flag h.operates.serves htorn
  obtain ⟨rfl, -⟩ := h.begins.resolve_right fun ⟨p, hp⟩ => nomatch hp
  obtain ⟨handed, hok⟩ := ReadMostly.Supply.exists_allocate (hown m s hacts.before) r₁.world.flags
    (show ((r₁.world.thread t).locals.touch .nodes).torn = [] from
      ((r₁.world.thread t).locals.torn_touch _).trans htorn)
  cases halloc.symm.trans hok

end ReaderWriter
