import ReaderWriter.Proofs.NoLostWakeup
import ReaderWriter.Proofs.ReadMostly.AtRest
import ReaderWriter.Proofs.ReadMostly.Tries

/-!
# Tries that are run alone

A try to take a read-mostly lock is run alone, with everybody else stopped wherever they happen to
be. It does not park, and before it has been refused it does not wait for anybody. But a try that
has been refused may have to wait for somebody who has been stopped in the middle of something, or
who waits in turn to change the registry, and then it does not come back.

* `Faces.goesAlone_of_comes`, `Faces.not_goesAlone_of_comes`: what a thread comes to by its own
  turns decides whether its call comes back.
* `Reachable.tries`: what a thread finds that may try.
* `Reachable.obstacle_of_trying`: what a thread that is trying may be held up by.
* `tries_alone_may_not_return`: four ways not to come back.
* `readMostly_try_returns`: a try that is run alone comes back iff nothing hinders it.
-/

namespace ReaderWriter

open ReadMostly (Site Comes IsAnswered IsStuck)

/-! ## From the thread to the run -/

namespace Run

variable {r r' : Run} {e : Event} {t : ThreadId} {m : Nat} {op : Operation} {f : Finish}
  {meets : Run → Prop} {step : ReadMostly.Step}

theorem GoesAlone.permits (h : GoesAlone meets t r e f r') : r.world.Permits e := by
  cases h <;> assumption

namespace Faces

theorem finish_of_here (h : r.Faces t m op e step) (hp : r.world.Permits e) {pc : ReadMostly.Pc}
    (hhere : step.stand = .here pc) : (r.world.meet e).finish = none := by
  rw [h.finish_eq hp, hhere]
  rfl

/-- A thread that comes to an answer by its own turns comes back with it. -/
theorem goesAlone_of_comes (h : Comes t m IsAnswered step) :
    ∀ {r : Run} {e : Event}, r.Faces t m op e step → r.world.Permits e →
      ∃ yes r', GoesAlone (fun _ => True) t r e (.replied (.truth yes)) r' := by
  induction h with
  | here hanswered =>
    intro r e hfaces hp
    obtain ⟨yes, hdone⟩ := hanswered
    refine ⟨yes, _, .ends hp ?_⟩
    rw [hfaces.finish_eq hp, hdone]
    rfl
  | goes hhere hfree _ ih =>
    intro r e hfaces hp
    obtain ⟨-, hpermits, alive, hfaces'⟩ := hfaces.next hp hhere
    obtain ⟨yes, r', hr'⟩ := ih alive hfaces' (hpermits.mpr hfree)
    exact ⟨yes, r', .goes hp (hfaces.finish_of_here hp hhere) trivial hr'⟩

/-- A thread that is stuck does not come back. -/
theorem not_goesAlone_of_isStuck (h : GoesAlone meets t r e f r') :
    ∀ {step : ReadMostly.Step}, r.Faces t m op e step → ¬ IsStuck step := by
  -- It would make one turn after the other, and be stuck after each of them.
  induction h with
  | ends hp hfinish =>
    rintro step hfaces ⟨pc, hhere, -⟩
    cases (hfaces.finish_of_here hp hhere).symm.trans hfinish
  | goes hp _ _ hrest ih =>
    rintro step hfaces ⟨pc, hhere, hstuck⟩
    obtain ⟨-, hpermits, alive, hfaces'⟩ := hfaces.next hp hhere
    exact ih hfaces' (hstuck.resume _ (hpermits.mp hrest.permits))

/-- A thread that gets stuck by its own turns does not come back. -/
theorem not_goesAlone_of_comes (h : Comes t m IsStuck step) :
    ∀ {r r' : Run} {e : Event}, r.Faces t m op e step → ¬ GoesAlone meets t r e f r' := by
  induction h with
  | here hstuck => exact fun hfaces halone => not_goesAlone_of_isStuck halone hfaces hstuck
  | goes hhere hfree _ ih =>
    intro r r' e hfaces halone
    obtain ⟨-, -, alive, hfaces'⟩ := hfaces.next halone.permits hhere
    cases halone with
    | ends hp hfinish => cases (hfaces.finish_of_here hp hhere).symm.trans hfinish
    | goes _ _ _ hrest => exact ih alive hfaces' hrest

end Faces

end Run

/-! ## What a try finds -/

variable {r : Run} {t : ThreadId} {m : Nat} {l : Lock} {s : ReadMostly.State} {mode : Mode}

/-- What a thread finds as it calls a read-mostly lock in this state. -/
def Run.site (r : Run) (t : ThreadId) (s : ReadMostly.State) : Site :=
  ⟨s, r.world.flags, (r.world.thread t).locals⟩

theorem ReadMostly.Pc.hasGate_of_tells? {pc : ReadMostly.Pc} (h : pc.tells? = some .shared) :
    pc.hasGate = true := by
  unfold tells? at h
  split at h <;> first | rfl | cases h

/-- Whoever is about to notify the readers has the gate. -/
theorem ReadMostly.Crowd.Reachable.unmarked {c : ReadMostly.Crowd}
    (h : ReadMostly.Crowd.Reachable c) (hfree : c.lock.gate = none) :
    c.lock.reopened.notifying = false := by
  refine Bool.eq_false_iff.mpr fun hmark => ?_
  obtain ⟨u, hu⟩ := h.marked .shared hmark
  obtain ⟨pc, hpc, htells⟩ := Option.bind_eq_some_iff.mp hu
  have hgate := (h.guarded.gate u).mpr
    (.inl (by rw [hpc]; exact ReadMostly.Pc.hasGate_of_tells? htells))
  cases hfree.symm.trans hgate

/-- A call by an idle thread is about to make its first turn. -/
theorem Reachable.faces {ok : Run → Event → Prop} (h : Reachable ok r)
    (hl : r.world.lock? m = some l) (hs : l.body = .readMostly s)
    (hidle : (r.world.thread t).activity = .idle) (op : Operation) :
    r.world.Permits (.call t m (.operate op)) ∧
      r.Faces t m op (.call t m (.operate op))
        (ReadMostly.start ⟨t, m, r.world.isAlive⟩ op (r.site t s)) :=
  have hbound : r.Bound t m op (.call t m (.operate op)) (.start op) := .begins hidle
  ⟨hbound.permits (by rw [hl]; rfl) (fun p hp => nomatch hp),
    h.orderly, _, l, s, hbound, hl, hs, rfl⟩

/-- A thread whose call is that of a behaved caller may try. -/
theorem Reachable.tries (h : Reachable (Run.Behaves m) r) (hl : r.world.lock? m = some l)
    (hs : l.body = .readMostly s) (hidle : (r.world.thread t).activity = .idle)
    (hcall : r.Behaves m (.call t m (.operate (.tryAcquire mode))))
    (hgiven : mode = .shared → (r.world.thread t).locals.node? m = none →
      ∃ handed, s.supply.allocate r.world.flags ((r.world.thread t).locals.touch .nodes) =
        .ok handed) :
    (r.site t s).Tries m mode := by
  have halive : r.world.isAlive m = true := (World.isAlive_iff _ _).mpr (.inl ⟨l, hl⟩)
  obtain ⟨-, hcrowd⟩ := h.readMostlyCrowd (fun _ _ h => h) halive s
    ⟨l, ((World.lock?_eq_some _ _).mp hl).1, hs⟩
  have htorn := h.tended.intact t (.inl hidle)
  refine ⟨htorn, hcrowd.unmarked, ?_, ?_⟩
  · rintro rfl f hnode
    refine Bool.eq_false_iff.mpr fun hup => ?_
    rcases (hcrowd.guarded.up t f ((Run.crowdFlag_of_idle hidle).trans hnode)).mp hup with
      hheld | hplace
    · exact hcall.2.1 rfl rfl (Hold.mem_holders.mp hheld)
    · simp [Run.readMostlyCrowd, Run.place, Thread.stint?, hidle] at hplace
  · rintro rfl hnode
    obtain ⟨handed, halloc⟩ := hgiven rfl hnode
    refine ⟨handed, halloc, fun hwrite => ?_⟩
    -- The flag that is entered is the one in the thread's hand after the call.
    obtain ⟨hp, hfaces⟩ := h.faces hl hs hidle (.tryAcquire .shared)
    obtain ⟨notes, heq⟩ :=
      ReadMostly.acquireShared_of_none htorn hnode halloc hwrite r.world.isAlive
    rw [ReadMostly.start, heq] at hfaces
    obtain ⟨hstint, -⟩ := hfaces.next hp rfl
    refine (hcall.2.2 (m, handed.flag) ?_).1
    have hhand : ((r.after (.call t m (.operate (.tryAcquire .shared)))).world.thread t).inHand? =
        some (m, handed.flag) := by
      simp only [Thread.inHand?, hstint]
      rfl
    exact hhand

/-! ## Whether a try comes back -/

namespace Run

/-- A try that is run alone comes back. -/
def TryReturns (r : Run) (t : ThreadId) (m : Nat) (mode : Mode) : Prop :=
  ∃ yes r', GoesAlone (fun _ => True) t r (.call t m (.operate (.tryAcquire mode)))
    (.replied (.truth yes)) r'

/-- A try that is run alone never comes to an end, be it with an answer or in a fault. -/
def TryGoesOn (r : Run) (t : ThreadId) (m : Nat) (mode : Mode) : Prop :=
  ∀ f r', ¬ GoesAlone (fun _ => True) t r (.call t m (.operate (.tryAcquire mode))) f r'

end Run

/-- A try comes back if nothing hinders it. -/
theorem Reachable.tryReturns (h : Reachable (Run.Behaves m) r) (hl : r.world.lock? m = some l)
    (hs : l.body = .readMostly s) (hidle : (r.world.thread t).activity = .idle)
    (htries : (r.site t s).Tries m mode) (hfree : ¬ (r.site t s).Hinders m mode) :
    r.TryReturns t m mode := by
  obtain ⟨hp, hfaces⟩ := h.faces hl hs hidle (.tryAcquire mode)
  exact Run.Faces.goesAlone_of_comes (ReadMostly.comes_try htries hfree _) hfaces hp

/-- A try that is hindered goes on for ever, or is blocked for ever. -/
theorem Reachable.tryGoesOn (h : Reachable (Run.Behaves m) r) (hl : r.world.lock? m = some l)
    (hs : l.body = .readMostly s) (hidle : (r.world.thread t).activity = .idle)
    (htries : (r.site t s).Tries m mode) (hhindered : (r.site t s).Hinders m mode) :
    r.TryGoesOn t m mode := by
  obtain ⟨-, hfaces⟩ := h.faces hl hs hidle (.tryAcquire mode)
  exact fun _ _ =>
    Run.Faces.not_goesAlone_of_comes (ReadMostly.stuck_try htries hhindered _) hfaces

/-- A try is hindered by somebody else who is on the lock. -/
theorem Reachable.exists_isOn_of_hinders (h : Reachable (Run.Behaves m) r)
    (hl : r.world.lock? m = some l) (hs : l.body = .readMostly s)
    (hidle : (r.world.thread t).activity = .idle) (hhindered : (r.site t s).Hinders m mode) :
    ∃ u, u ≠ t ∧ r.world.IsOn u m := by
  have halive : r.world.isAlive m = true := (World.isAlive_iff _ _).mpr (.inl ⟨l, hl⟩)
  have hl' := (World.lock?_eq_some _ _).mp hl
  obtain ⟨-, hcrowd⟩ := h.readMostlyCrowd (fun _ _ h => h) halive s ⟨l, hl'.1, hs⟩
  have hplaced : ∃ u pc, (r.readMostlyCrowd m s).place u = some pc := by
    cases mode with
    | unique =>
      obtain ⟨u, hu⟩ := hcrowd.marked .unique hhindered.2.2
      obtain ⟨pc, hpc, -⟩ := Option.bind_eq_some_iff.mp hu
      exact ⟨u, pc, hpc⟩
    | shared =>
      obtain ⟨u, hu⟩ := hcrowd.attended.wanted hhindered.1
      obtain ⟨pc, hpc, -⟩ := (Option.any_eq_true _ _).mp hu
      exact ⟨u, pc, hpc⟩
  obtain ⟨u, pc, hpc⟩ := hplaced
  refine ⟨u, ?_, (h.orderly.obstacle_of_crowdPlace hl'.1 hs hpc).1⟩
  rintro rfl
  simp [Run.readMostlyCrowd, Run.place, Thread.stint?, hidle] at hpc

/-- A thread that is trying is never parked, and only ever blocked as a reader that has been
refused, while somebody changes the registry or has reserved it for that. -/
theorem Reachable.obstacle_of_trying (h : Reachable (Run.Behaves m) r)
    (hl : r.world.lock? m = some l) (hs : l.body = .readMostly s) (hon : r.world.IsOn t m)
    (hasked : r.asked t = some (.operate (.tryAcquire mode))) :
    r.world.obstacle t = none ∨ mode = .shared ∧ r.world.obstacle t = some .blocked ∧
      s.registry.canRead = false := by
  cases hheld : r.world.obstacle t with
  | none => exact .inl rfl
  | some o =>
    have hl' := (World.lock?_eq_some _ _).mp hl
    have ho := h.orderly
    obtain ⟨pc, hplace, hobs⟩ := ho.exists_crowdPlace hl'.1 hs hon (by rw [hheld]; rfl)
    have hserves : pc.Serves (.tryAcquire mode) := by
      cases ho.standsAt (Run.place_of_crowdPlace hplace) with
      | working hasked' _ hperf _ _ hserves =>
        cases hasked.symm.trans hasked'
        cases hperf
        exact hserves
      | departing hnone => cases hasked.symm.trans hnone
    obtain ⟨-, hcrowd⟩ := h.readMostlyCrowd (fun _ _ h => h) (ho.isAlive hon) s ⟨l, hl'.1, hs⟩
    have hpresses : pc.lingers = false := by
      have hnot := hcrowd.pressesOn t
      rw [hplace] at hnot
      exact Bool.eq_false_iff.mpr hnot
    rw [← hheld, hobs]
    exact ReadMostly.obstacle_of_try hserves hpresses

/-! ### Threads that have been stopped -/

/-- A reader has a read-mostly lock. A writer that has been refused is stopped while it notifies the
next writer. -/
def Run.notifierStopped : Run :=
  play {} [.make ⟨.readMostly .packed, false, false⟩ .longWait,
    .call 0 0 (.operate (.acquire .shared)), .turn 0, .turn 0, .turn 0,
    .call 1 0 (.operate (.tryAcquire .unique)), .turn 1, .turn 1, .turn 1, .turn 1, .turn 1,
    .turn 1]

theorem Run.notifierStopped_body :
    (Run.notifierStopped.world.lock? 0).map (·.body) =
      some (.readMostly {
        id := 1, supply := .packed, config := .longWait, drained := { notifying := true },
        registry := { entries := [⟨0, ⟨0, by decide⟩⟩] } }) := by
  decide +kernel

/-- A thread has taken and released a shared lock. A writer is stopped before it looks at the flags,
and another reader while it enters its flag into the registry. -/
def Run.registrarStopped : Run :=
  play {} [.make ⟨.readMostly .packed, false, false⟩ .longWait,
    .call 2 0 (.operate (.acquire .shared)), .turn 2, .turn 2, .turn 2,
    .call 2 0 (.operate (.release .shared)), .turn 2,
    .call 1 0 (.operate (.acquire .unique)), .call 0 0 (.operate (.acquire .shared))]

/-- A writer is stopped before it looks at the flags. -/
def Run.writerStopped : Run :=
  play {} [.make ⟨.readMostly .packed, false, false⟩ .longWait,
    .call 1 0 (.operate (.acquire .unique))]

/-- The locks of registries are task-fair. A thread has taken and released a shared lock, and
another one holds one. A writer is stopped while it looks at the flags, and a third reader waits
behind it to enter its flag into the registry. -/
def Run.registrarWaiting : Run :=
  play (.initial { taskFair := true }) [.make ⟨.readMostly .packed, false, false⟩ .longWait,
    .call 2 0 (.operate (.acquire .shared)), .turn 2, .turn 2, .turn 2,
    .call 2 0 (.operate (.release .shared)), .turn 2,
    .call 3 0 (.operate (.acquire .shared)), .turn 3, .turn 3, .turn 3,
    .call 1 0 (.operate (.acquire .unique)), .turn 1, .call 0 0 (.operate (.acquire .shared))]

/-- The thread has nothing under way and holds nothing, and its try never comes to an end. -/
def Run.IsKept (r : Run) (t : ThreadId) (m : Nat) (mode : Mode) : Prop :=
  Reachable (Behaves m) r ∧ (r.world.thread t).activity = .idle ∧ (∀ h ∈ r.holds, h.thread ≠ t) ∧
    r.Behaves m (.call t m (.operate (.tryAcquire mode))) ∧ r.TryGoesOn t m mode

theorem Reachable.isKept (h : Reachable (Run.Behaves m) r)
    (hbody : (r.world.lock? m).map (·.body) = some (.readMostly s)) (hown : s.supply.isOwn = true)
    (hidle : (r.world.thread t).activity = .idle) (hholds : ∀ h ∈ r.holds, h.thread ≠ t)
    (hcall : r.Behaves m (.call t m (.operate (.tryAcquire mode))))
    (hhindered : (r.site t s).Hinders m mode) : r.IsKept t m mode := by
  obtain ⟨l, hl, hs⟩ := Option.map_eq_some_iff.mp hbody
  have htorn : ((r.world.thread t).locals.touch .nodes).torn = [] :=
    ((r.world.thread t).locals.torn_touch _).trans (h.tended.intact t (.inl hidle))
  have htries : (r.site t s).Tries m mode := h.tries hl hs hidle hcall fun _ _ =>
    ReadMostly.Supply.exists_allocate hown _ htorn
  exact ⟨h, hidle, hholds, hcall, h.tryGoesOn hl hs hidle htries hhindered⟩

/-- A try that is run alone need not come back, in either mode. A writer yields to the notifier for
ever, and a reader is blocked by the registry, be it that somebody changes it or waits to do so, or
notifies the writer for ever. -/
theorem tries_alone_may_not_return :
    Run.notifierStopped.IsKept 2 0 .unique ∧ Run.registrarStopped.IsKept 2 0 .shared ∧
      Run.writerStopped.IsKept 2 0 .shared ∧ Run.registrarWaiting.IsKept 2 0 .shared := by
  have hregistrar : (Run.registrarStopped.world.lock? 0).map (·.body) =
      some (.readMostly {
        id := 1, supply := .packed, config := .longWait, claim := .want, gate := some 1,
        registry := { entries := [⟨0, ⟨0, by decide⟩⟩], writer := some 0 } }) := by
    decide +kernel
  have hwriter : (Run.writerStopped.world.lock? 0).map (·.body) =
      some (.readMostly {
        id := 1, supply := .packed, config := .longWait, claim := .want, gate := some 1 }) := by
    decide +kernel
  have hwaiting : (Run.registrarWaiting.world.lock? 0).map (·.body) =
      some (.readMostly {
        id := 1, supply := .packed, config := .longWait, host := { taskFair := true },
        claim := .want, gate := some 1,
        registry := {
          entries := [⟨0, ⟨0, by decide⟩⟩, ⟨1, ⟨0, by decide⟩⟩], writer := some 0,
          readers := [1] } }) := by
    decide +kernel
  refine ⟨?_, ?_, ?_, ?_⟩
  · exact (Reachable.start.play (by decide +kernel)).isKept Run.notifierStopped_body rfl
      (by decide +kernel) (by decide +kernel) (by decide +kernel) (by decide +kernel)
  · exact (Reachable.start.play (by decide +kernel)).isKept hregistrar rfl (by decide +kernel)
      (by decide +kernel) (by decide +kernel) (by decide +kernel)
  · exact (Reachable.start.play (by decide +kernel)).isKept hwriter rfl (by decide +kernel)
      (by decide +kernel) (by decide +kernel) (by decide +kernel)
  · exact (Reachable.start.play (by decide +kernel)).isKept hwaiting rfl (by decide +kernel)
      (by decide +kernel) (by decide +kernel) (by decide +kernel)

/-! ## In every run -/

/-- In every run in which the callers of a read-mostly lock behave, on every host:

* a thread that is trying to take the lock is never parked. As a writer it is never blocked either,
  and as a reader only while somebody changes the registry or has reserved it for that;
* a try by a thread that has nothing under way, run alone with everybody else stopped wherever they
  are, comes back after finitely many turns, and is not held up by anybody on the way, iff nothing
  hinders it: the writer somebody who has been stopped while notifying a writer, the reader somebody
  who has been stopped while changing the registry or waiting to do so, or a writer that wants the
  lock and has been stopped before it has seen that all flags are down;
* if it is hindered it never comes to an end, and somebody else is on the lock then. -/
theorem readMostly_try_returns {r : Run} {m : Nat} {l : Lock} {s : ReadMostly.State}
    (h : Reachable (Run.Behaves m) r) (hl : r.world.lock? m = some l)
    (hs : l.body = .readMostly s) :
    (∀ t mode, r.world.IsOn t m → r.asked t = some (.operate (.tryAcquire mode)) →
        r.world.obstacle t = none ∨ mode = .shared ∧ r.world.obstacle t = some .blocked ∧
          s.registry.canRead = false) ∧
      ∀ t mode, (r.world.thread t).activity = .idle →
        r.Behaves m (.call t m (.operate (.tryAcquire mode))) →
        (mode = .shared → (r.world.thread t).locals.node? m = none →
          ∃ handed, s.supply.allocate r.world.flags ((r.world.thread t).locals.touch .nodes) =
            .ok handed) →
        (r.TryReturns t m mode ↔ ¬ (r.site t s).Hinders m mode) ∧
          ((r.site t s).Hinders m mode →
            r.TryGoesOn t m mode ∧ ∃ u, u ≠ t ∧ r.world.IsOn u m) := by
  refine ⟨fun t mode hon hasked => h.obstacle_of_trying hl hs hon hasked,
    fun t mode hidle hcall hgiven => ?_⟩
  have htries : (r.site t s).Tries m mode := h.tries hl hs hidle hcall hgiven
  have hgoesOn : (r.site t s).Hinders m mode → r.TryGoesOn t m mode :=
    h.tryGoesOn hl hs hidle htries
  refine ⟨⟨?_, h.tryReturns hl hs hidle htries⟩, fun hhindered =>
    ⟨hgoesOn hhindered, h.exists_isOn_of_hinders hl hs hidle hhindered⟩⟩
  rintro ⟨yes, r', halone⟩ hhindered
  exact hgoesOn hhindered _ _ halone

/-- While the notifier is stopped a reader still comes back from its try, and a writer does not. -/
theorem readMostly_try_returns_beside_notifier :
    Run.notifierStopped.world.obstacle 1 = none ∧
      Run.notifierStopped.TryReturns 2 0 .shared ∧ Run.notifierStopped.TryGoesOn 2 0 .unique := by
  have hr : Reachable (Run.Behaves 0) Run.notifierStopped :=
    Reachable.start.play (by decide +kernel)
  obtain ⟨l, hl, hs⟩ := Option.map_eq_some_iff.mp Run.notifierStopped_body
  obtain ⟨htrying, htry⟩ := readMostly_try_returns hr hl hs
  refine ⟨?_, ?_, ?_⟩
  · refine (htrying 1 .unique (by decide +kernel) (by decide +kernel)).resolve_right ?_
    rintro ⟨⟨⟩, -⟩
  · exact (htry 2 .shared (by decide +kernel) (by decide +kernel) fun _ _ => ⟨_, rfl⟩).1.mpr
      (by decide +kernel)
  · exact ((htry 2 .unique (by decide +kernel) (by decide +kernel) nofun).2 (by decide +kernel)).1

end ReaderWriter
