import ReaderWriter.Waiting.Wait

/-!
# Who has a mutex, and who is inside

A mutex names the thread that has it, a count says how many threads are inside, and a list says
which. All agree with where the threads stand as long as every turn changes them together with its
own thread's place.

* `Gate.HeldBy.passes`: what one turn may do to a mutex.
* `Tallies.passes`: what one turn may do to a count.
* `Seats.passes`: what one turn may do to a list.
* `Wait.turn_goes`: what a turn of a wait does to the mutex and the queue.
* `Wait.Stage.place_eq_location`: where a wait is seen.
-/

namespace ReaderWriter

/-- The mutex is held by the thread that is in possession, if there is one. -/
def Gate.HeldBy (gate : Gate) (has : ThreadId → Prop) : Prop := ∀ t, gate = some t ↔ has t

/-- A turn of a thread passes the mutex on: it leaves it alone, takes it, or gives it up. -/
inductive Gate.Passes (t : ThreadId) (gate gate' : Gate) (before after : Prop) : Prop
  | keeps : gate' = gate → (after ↔ before) → Passes t gate gate' before after
  | takes : gate = none → gate' = some t → after → Passes t gate gate' before after
  | gives : before → gate' = none → ¬ after → Passes t gate gate' before after

/-- The count is the number of threads that are inside. -/
def Tallies (n : Nat) (inside : ThreadId → Prop) : Prop :=
  ∃ threads : List ThreadId, threads.Nodup ∧ (∀ t, t ∈ threads ↔ inside t) ∧ threads.length = n

/-- A turn of a thread keeps count: it stays where it is, goes in, or comes out. -/
inductive Recounts (n n' : Nat) (before after : Prop) : Prop
  | keeps : n' = n → (after ↔ before) → Recounts n n' before after
  | enters : n' = n + 1 → ¬ before → after → Recounts n n' before after
  | leaves : n' = n - 1 → before → ¬ after → Recounts n n' before after

/-- The list names threads that are inside, none of them twice. -/
def Seats (threads : List ThreadId) (inside : ThreadId → Prop) : Prop :=
  threads.Nodup ∧ ∀ t ∈ threads, inside t

/-- A turn of a thread changes the list only by its own seat, or takes others off it. -/
inductive Reseats (t : ThreadId) (threads threads' : List ThreadId) (before after : Prop) : Prop
  | thins : threads'.Sublist threads → (t ∈ threads' → before → after) →
      Reseats t threads threads' before after
  | sits : threads'.Perm (t :: threads) → ¬ before → after → Reseats t threads threads' before after
  | rises : threads' = threads.erase t → Reseats t threads threads' before after
  | moves : threads' = t :: threads.erase t → after → Reseats t threads threads' before after

variable {t : ThreadId} {P P' : ThreadId → Prop}

namespace Gate

variable {gate gate' : Gate}

theorem HeldBy.passes (h : gate.HeldBy P) (hpass : gate.Passes t gate' (P t) (P' t))
    (hothers : ∀ u, u ≠ t → (P' u ↔ P u)) : gate'.HeldBy P' := by
  intro u
  cases hpass with
  | keeps hgate hsame =>
    rw [hgate, h u]
    by_cases hu : u = t
    · rw [hu]
      exact hsame.symm
    · exact (hothers u hu).symm
  | takes hfree hgate hafter =>
    rw [hgate, Option.some.injEq]
    by_cases hu : u = t
    · subst hu
      exact ⟨fun _ => hafter, fun _ => rfl⟩
    · refine ⟨fun heq => absurd heq.symm hu, fun hhas => ?_⟩
      have hgate' := (h u).mpr ((hothers u hu).mp hhas)
      rw [hfree] at hgate'
      cases hgate'
  | gives hbefore hgate hafter =>
    rw [hgate]
    refine ⟨nofun, fun hhas => ?_⟩
    by_cases hu : u = t
    · subst hu
      exact absurd hhas hafter
    · have hgate' := (h u).mpr ((hothers u hu).mp hhas)
      rw [(h t).mpr hbefore, Option.some.injEq] at hgate'
      exact absurd hgate'.symm hu

/-- A mutex that nobody is in possession of is free. -/
theorem HeldBy.eq_none (h : gate.HeldBy P) (hnone : ∀ t, ¬ P t) : gate = none := by
  cases hg : gate with
  | none => rfl
  | some t => exact absurd ((h t).mp hg) (hnone t)

end Gate

namespace Tallies

variable {n n' : Nat}

theorem passes (h : Tallies n P) (hrecounts : Recounts n n' (P t) (P' t))
    (hothers : ∀ u, u ≠ t → (P' u ↔ P u)) : Tallies n' P' := by
  obtain ⟨threads, hnodup, hmem, hlength⟩ := h
  cases hrecounts with
  | keeps hn hsame =>
    refine ⟨threads, hnodup, fun u => ?_, by rw [hn, hlength]⟩
    rw [hmem u]
    by_cases hu : u = t
    · rw [hu]
      exact hsame.symm
    · exact (hothers u hu).symm
  | enters hn hbefore hafter =>
    refine ⟨t :: threads, ?_, fun u => ?_, by rw [List.length_cons, hlength, hn]⟩
    · exact List.nodup_cons.mpr ⟨fun hin => hbefore ((hmem t).mp hin), hnodup⟩
    · rw [List.mem_cons, hmem u]
      by_cases hu : u = t
      · subst hu
        exact ⟨fun _ => hafter, fun _ => .inl rfl⟩
      · rw [hothers u hu]
        exact ⟨fun hin => hin.resolve_left hu, .inr⟩
  | leaves hn hbefore hafter =>
    have hin := (hmem t).mpr hbefore
    refine ⟨threads.erase t, hnodup.erase t, fun u => ?_, ?_⟩
    · rw [hnodup.mem_erase_iff, hmem u]
      by_cases hu : u = t
      · subst hu
        exact ⟨fun h => absurd rfl h.1, fun h => absurd h hafter⟩
      · rw [hothers u hu]
        exact ⟨fun h => h.2, fun h => ⟨hu, h⟩⟩
    · rw [List.length_erase_of_mem hin, hlength, hn]

theorem zero_iff (h : Tallies n P) : n = 0 ↔ ∀ t, ¬ P t := by
  obtain ⟨threads, -, hmem, hlength⟩ := h
  rw [← hlength, List.length_eq_zero_iff, List.eq_nil_iff_forall_not_mem]
  exact forall_congr' fun t => not_congr (hmem t)

end Tallies

/-! ## Lists of threads -/

namespace Seats

variable {threads threads' : List ThreadId}

theorem passes (h : Seats threads P) (hreseats : Reseats t threads threads' (P t) (P' t))
    (hothers : ∀ u, u ≠ t → (P' u ↔ P u)) : Seats threads' P' := by
  obtain ⟨hnodup, hinside⟩ := h
  -- Whoever else was on the list is inside still.
  have hmem : ∀ u ∈ threads, u ≠ t → P' u := fun u hu hne => (hothers u hne).mpr (hinside u hu)
  cases hreseats with
  | thins hsub hself =>
    refine ⟨hnodup.sublist hsub, fun u hu => ?_⟩
    by_cases hut : u = t
    · subst hut
      exact hself hu (hinside u (hsub.subset hu))
    · exact hmem u (hsub.subset hu) hut
  | sits hperm hbefore hafter =>
    refine ⟨hperm.nodup_iff.mpr ?_, fun u hu => ?_⟩
    · exact List.nodup_cons.mpr ⟨fun hin => hbefore (hinside t hin), hnodup⟩
    · rcases List.mem_cons.mp (hperm.mem_iff.mp hu) with rfl | hu
      · exact hafter
      · refine hmem u hu ?_
        rintro rfl
        exact hbefore (hinside u hu)
  | rises heq =>
    refine ⟨heq ▸ hnodup.erase t, fun u hu => ?_⟩
    rw [heq, hnodup.mem_erase_iff] at hu
    exact hmem u hu.2 hu.1
  | moves heq hafter =>
    rw [heq]
    refine ⟨List.nodup_cons.mpr ⟨hnodup.not_mem_erase, hnodup.erase t⟩, fun u hu => ?_⟩
    rcases List.mem_cons.mp hu with rfl | hu
    · exact hafter
    · rw [hnodup.mem_erase_iff] at hu
      exact hmem u hu.2 hu.1

end Seats

/-! ## Waits -/

namespace Wait

/-- The thread has the mutex at this stage of a wait. -/
def Stage.hasGate : Stage → Bool
  | .announced | .parking | .resumed | .woken => true
  | .parked | .snoozing _ => false

/-- What a turn of a wait that is not over does to the mutex, the signal and the stage. -/
inductive Goes (t : ThreadId) (gate : Gate) (signal : Signal) :
    Stage → Gate → Signal → Stage → Prop
  | settle : Goes t gate signal .announced gate signal .parking
  | snooze (yields : Bool) : Goes t gate signal .announced none signal (.snoozing yields)
  | park : Goes t gate signal .parking none (signal.park t) .parked
  | stay {stage : Stage} :
      stage = .parked ∨ (∃ yields, stage = .snoozing yields) →
        Goes t gate signal stage gate signal stage
  | resume : t ∉ signal.queue → gate = none → Goes t gate signal .parked (some t) signal .resumed
  | retake (yields : Bool) :
      gate = none → Goes t gate signal (.snoozing yields) (some t) signal .woken
  | wake : Goes t gate signal .resumed gate signal .woken

theorem turn_goes (strategy : Strategy) (t : ThreadId) {w : State} (h : w.stage ≠ .woken) :
    Goes t w.gate w.signal w.stage (turn strategy t w).gate (turn strategy t w).signal
      (turn strategy t w).stage := by
  obtain ⟨gate, signal, stage, backoff⟩ := w
  cases stage with
  | announced =>
    simp only [turn]
    split
    · exact .settle
    · exact .snooze _
  | parking => exact .park
  | parked =>
    simp only [turn]
    split
    · exact .stay (.inl rfl)
    · next hfree =>
      simp only [Bool.or_eq_true, decide_eq_true_eq, not_or, Bool.not_eq_true,
        Option.isSome_eq_false_iff, Option.isNone_iff_eq_none] at hfree
      exact .resume hfree.1 hfree.2
  | snoozing yields =>
    simp only [turn]
    split
    · exact .stay (.inr ⟨yields, rfl⟩)
    · next hfree => exact .retake yields (by simpa using hfree)
  | resumed => exact .wake
  | woken => exact absurd rfl h

variable {gate gate' : Gate} {signal signal' : Signal} {stage stage' : Stage}

theorem Goes.passes (h : Goes t gate signal stage gate' signal' stage') :
    gate.Passes t gate' (stage.hasGate = true) (stage'.hasGate = true) := by
  cases h with
  | settle | wake => exact .keeps rfl (by simp [Stage.hasGate])
  | snooze | park => exact .gives rfl rfl (by simp [Stage.hasGate])
  | stay => exact .keeps rfl Iff.rfl
  | resume _ hfree => exact .takes hfree rfl rfl
  | retake _ hfree => exact .takes hfree rfl rfl

/-- A wait passes four points. -/
theorem Stage.place_eq_location {announced woken seen : Location}
    (h : stage.place announced woken = .location seen) :
    stage = .announced ∧ announced = seen ∨ stage = .parking ∧ .condvarWait = seen ∨
      stage = .resumed ∧ .condvarWoken = seen ∨ stage = .woken ∧ woken = seen := by
  cases stage with
  | snoozing yields => cases yields <;> cases h
  | announced | parking | parked | resumed | woken => simp_all [place]

end Wait

end ReaderWriter
