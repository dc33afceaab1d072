import ReaderWriter.Proofs.Events
import ReaderWriter.Proofs.Machines

/-!
# Holds

What a move makes of the holds that a run has on record.

* `Reachable.holdsExist`: only locks that have been made are held.
* `Hold.count_settled`, `Hold.count_begun`: how often a lock is held in a mode after a job.
* `Hold.on`: the holds of one lock, which jobs on other locks leave alone.
-/

namespace ReaderWriter

/-- A thread holds only locks that there are. -/
def Run.HoldsExist (r : Run) : Prop := ∀ h ∈ r.holds, h.lock < r.world.locks.length

namespace Hold

variable {holds : List Hold} {t : ThreadId} {m : Nat} {mode : Mode}

theorem givenUp_sublist : (givenUp holds t m mode).Sublist holds := by
  unfold givenUp
  split
  · exact List.erase_sublist
  · exact List.eraseP_sublist

theorem begun_sublist {job : Job} : (begun holds t m job).Sublist holds := by
  unfold begun
  split
  · exact givenUp_sublist
  all_goals exact List.Sublist.refl _

theorem mem_settled {op : Operation} {stand : Stand Progress} {h : Hold}
    (hmem : h ∈ settled holds t m op stand) : h ∈ holds ∨ h.lock = m := by
  unfold settled at hmem
  split at hmem
  · rcases List.mem_cons.mp hmem with rfl | hmem
    · exact .inr rfl
    · exact .inl hmem
  · exact .inl hmem

theorem abandoned_sublist {stand : Stand Progress} : (abandoned holds t m stand).Sublist holds := by
  unfold abandoned
  split
  · exact List.filter_sublist
  · exact List.Sublist.refl _

end Hold

namespace Run

variable {r r' : Run} {e : Event}

/-- No move takes a lock away, and only one kind of move adds one. -/
theorem locks_of_move (h : Move r e r') :
    r'.world.locks.length = r.world.locks.length ∨
      ∃ kind config, Stirs r r' (r.world.addLock kind config).locks := by
  have hwork : ∀ {t m l job}, Turned r r' t m l job →
      r'.world.locks.length = r.world.locks.length := by
    intro t m l job h
    obtain ⟨body, -, hlocks⟩ := World.work_locks t h.lock h.suits
    rw [h.locks, hlocks, List.length_set]
  cases h with
  | operate h => exact .inl (hwork h.toTurned)
  | depart h => exact .inl (hwork h.toTurned)
  | shift h => exact .inl (congrArg List.length h.locks)
  | drop h => exact .inl (by simp [h.locks])
  | wake h => exact .inl (by simp [h.locks])
  | make h => exact .inr ⟨_, _, h⟩
  | rest h => exact .inl (congrArg List.length h.locks)

theorem length_locks_of_move (h : Move r e r') : r.world.locks.length ≤ r'.world.locks.length := by
  rcases locks_of_move h with heq | ⟨kind, config, h⟩
  · exact Nat.le_of_eq heq.symm
  · simp [h.locks, World.addLock]

/-- A lock keeps its algorithm. -/
theorem algorithm_of_move (h : Move r e r') {m : Nat} {l : Lock} (hl : r.world.locks[m]? = some l) :
    ∃ l', r'.world.locks[m]? = some l' ∧ l'.body.algorithm = l.body.algorithm := by
  have hkeeps : r.world.Keeps r'.world → ∃ l', r'.world.locks[m]? = some l' ∧
      l'.body.algorithm = l.body.algorithm := fun h =>
    let ⟨l', hl', halg, _⟩ := h m l hl
    ⟨l', hl', halg⟩
  cases h with
  | operate h => exact hkeeps ((World.Keeps.work _ h.lock h.suits).trans (.of_locks_eq h.locks))
  | depart h => exact hkeeps ((World.Keeps.work _ h.lock h.suits).trans (.of_locks_eq h.locks))
  | shift h => exact hkeeps (.of_locks_eq h.locks)
  | drop h =>
    obtain ⟨_, hl'⟩ := h.exists_lock hl
    exact ⟨_, hl', rfl⟩
  | wake h => exact hkeeps (.wake _ _ h.locks)
  | make h => exact hkeeps ((World.Keeps.addLock _ _ _).trans (.of_locks_eq h.locks))
  | rest h => exact hkeeps (.of_locks_eq h.locks)

/-- Whatever happens, a lock keeps its algorithm. -/
theorem algorithm_after (ho : r.Orderly) (hp : r.world.Permits e) {m : Nat} {l : Lock}
    (hl : r.world.locks[m]? = some l) :
    ∃ l', (r.after e).world.locks[m]? = some l' ∧ l'.body.algorithm = l.body.algorithm := by
  obtain ⟨⟨r₁, hmove, hrest⟩, -⟩ := after_moves ho hp
  obtain ⟨l₁, hl₁, halg₁⟩ := algorithm_of_move hmove hl
  rcases hrest with ⟨heq, -⟩ | ⟨n, -, hdis⟩
  · exact heq ▸ ⟨l₁, hl₁, halg₁⟩
  · obtain ⟨l', hl', halg', -⟩ := World.Keeps.dissolve r₁.world n m l₁ hl₁
    exact ⟨l', hdis.locks ▸ hl', halg'.trans halg₁⟩

/-- A thread that is not granted a lock in a mode does not hold it more often than before. -/
theorem count_hold_le_of_move (h : Move r e r') {m : Nat} {mode : Mode} {u : ThreadId}
    (hnone : ∀ {l job op}, Operates r e r' u m l job op →
      Hold.granted? op (r.world.work u m job).stand ≠ some mode) :
    r'.holds.count ⟨u, m, mode⟩ ≤ r.holds.count ⟨u, m, mode⟩ := by
  have hsub : r'.holds.Sublist r.holds →
      r'.holds.count ⟨u, m, mode⟩ ≤ r.holds.count ⟨u, m, mode⟩ := fun hsub => hsub.count_le _
  cases h with
  | @operate t n l job op h =>
    have hbegun : (Hold.begun r.holds t n job).Sublist r.holds := Hold.begun_sublist
    refine Nat.le_trans ?_ (hbegun.count_le _)
    rw [h.holds, Hold.settled]
    cases hg : Hold.granted? op (r.world.work t n job).stand with
    | none => exact Nat.le_refl _
    | some mode' =>
      refine Nat.le_of_eq (List.count_cons_of_ne ?_)
      intro heq
      cases heq
      exact hnone h hg
  | depart h => exact hsub (h.holds ▸ Hold.abandoned_sublist)
  | shift h => exact hsub (h.holds ▸ List.Sublist.refl _)
  | drop h => exact hsub (h.holds ▸ List.Sublist.refl _)
  | wake h => exact hsub (h.holds ▸ List.Sublist.refl _)
  | make h => exact hsub (h.holds ▸ List.Sublist.refl _)
  | rest h => exact hsub (h.holds ▸ List.Sublist.refl _)

theorem HoldsExist.of_move (hr : r.HoldsExist) (h : Move r e r') : r'.HoldsExist := by
  have hlength := length_locks_of_move h
  have hsub : (∀ g ∈ r'.holds, g ∈ r.holds) → r'.HoldsExist := fun hmem g hg =>
    Nat.lt_of_lt_of_le (hr g (hmem g hg)) hlength
  cases h with
  | operate h =>
    intro g hg
    rw [h.holds] at hg
    rcases Hold.mem_settled hg with hg | hg
    · exact Nat.lt_of_lt_of_le (hr g (Hold.begun_sublist.subset hg)) hlength
    · rw [hg]
      exact Nat.lt_of_lt_of_le (List.getElem?_eq_some_iff.mp h.lock).1 hlength
  | depart h => exact hsub fun g hg => Hold.abandoned_sublist.subset (h.holds ▸ hg)
  | shift h => exact hsub fun g hg => h.holds ▸ hg
  | drop h => exact hsub fun g hg => h.holds ▸ hg
  | wake h => exact hsub fun g hg => h.holds ▸ hg
  | make h => exact hsub fun g hg => h.holds ▸ hg
  | rest h => exact hsub fun g hg => h.holds ▸ hg

theorem HoldsExist.of_dissolves (hr : r.HoldsExist) {m : Nat} (h : Dissolves r r' m) :
    r'.HoldsExist := by
  intro g hg
  rw [h.holds] at hg
  rw [h.length_locks]
  exact hr g hg

end Run

theorem Reachable.holdsExist {ok : Run → Event → Prop} {r : Run} (h : Reachable ok r) :
    r.HoldsExist :=
  h.of_moves (fun _ _ hg => nomatch hg) (fun _ _ hmove ih => ih.of_move hmove)
    fun _ _ _ _ hdis _ ih => ih.of_dissolves hdis

/-! ## How often a lock is held -/

namespace Hold

variable {holds : List Hold} {t : ThreadId} {m n : Nat} {mode : Mode}

theorem count_cons (g : Hold) (m : Nat) (mode : Mode) :
    count (g :: holds) m mode =
      count holds m mode + if g.lock = m ∧ g.mode = mode then 1 else 0 := by
  simp [count, List.countP_cons]

/-- Giving up a lock that is held takes one hold in that mode away. -/
theorem givenUp_eq (h : 0 < count holds m mode) (t : ThreadId) :
    ∃ g before after, g.lock = m ∧ g.mode = mode ∧ holds = before ++ g :: after ∧
      givenUp holds t m mode = before ++ after := by
  unfold givenUp
  split
  · next hmem =>
    obtain ⟨before, after, -, heq, herase⟩ := List.exists_erase_eq hmem
    exact ⟨_, before, after, rfl, rfl, heq, herase⟩
  · obtain ⟨g, hg, hp⟩ := List.countP_pos_iff.mp h
    let p : Hold → Bool := fun h => h.lock = m && h.mode = mode
    obtain ⟨g', before, after, -, hp', heq, herase⟩ := List.exists_of_eraseP (p := p) hg hp
    simp only [p, Bool.and_eq_true, decide_eq_true_eq] at hp'
    exact ⟨g', before, after, hp'.1, hp'.2, heq, herase⟩

theorem count_givenUp (h : 0 < count holds m mode) (t : ThreadId) :
    count (givenUp holds t m mode) m =
      Function.update (count holds m) mode (count holds m mode - 1) := by
  obtain ⟨g, before, after, hlock, hmode, heq, hgiven⟩ := givenUp_eq h t
  funext mode'
  rw [hgiven, heq]
  by_cases hm : mode' = mode
  · subst hm
    simp [count, List.countP_append, hlock, hmode]
  · simp [count, List.countP_append, hlock, hmode, hm, Ne.symm hm]

theorem count_settled (op : Operation) (stand : Stand Progress) :
    count (settled holds t m op stand) m = Crowd.settled (count holds m) op stand := by
  unfold settled Crowd.settled
  cases granted? op stand with
  | none => rfl
  | some mode =>
    funext mode'
    rw [count_cons]
    by_cases hm : mode' = mode
    · subst hm
      simp
    · simp [hm, Ne.symm hm]

theorem count_begun {op : Operation} (h : ∀ mode, op = .release mode → 0 < count holds m mode) :
    count (begun holds t m (.start op)) m = Crowd.begun (count holds m) op := by
  cases op with
  | release mode => exact count_givenUp (h mode rfl) t
  | acquire mode | tryAcquire mode => rfl

/-! What is done on one lock leaves the holds on every other alone. -/

/-- The holds on the lock at an index. -/
def on (holds : List Hold) (m : Nat) : List Hold := holds.filter (·.lock = m)

theorem count_on (holds : List Hold) (m : Nat) (mode : Mode) :
    count (on holds m) m mode = count holds m mode := by
  rw [count, on, List.countP_filter, count]
  apply List.countP_congr
  intro g _
  simp +contextual

theorem count_congr {holds' : List Hold} (h : on holds' n = on holds n) :
    count holds' n = count holds n := by
  funext mode
  rw [← count_on holds', h, count_on]

theorem on_givenUp_of_ne (hne : n ≠ m) (t : ThreadId) (mode : Mode) :
    on (givenUp holds t m mode) n = on holds n := by
  unfold givenUp
  have herase : ∀ (p : Hold → Bool) (_ : ∀ g, p g = true → g.lock = m),
      on (holds.eraseP p) n = on holds n := by
    intro p hp
    rcases List.exists_or_eq_self_of_eraseP p holds with heq | ⟨g, before, after, -, hg, heq, her⟩
    · rw [heq]
    · rw [her, heq]
      have hg' : g.lock ≠ n := fun h => hne (h.symm.trans (hp g hg))
      simp [on, List.filter_append, hg']
  split
  · rw [List.erase_eq_eraseP]
    exact herase _ fun g hg => (congrArg Hold.lock (eq_of_beq hg)).symm
  · refine herase _ fun g hg => ?_
    simp only [Bool.and_eq_true, decide_eq_true_eq] at hg
    exact hg.1

theorem on_begun_of_ne (hne : n ≠ m) (job : Job) : on (begun holds t m job) n = on holds n := by
  unfold begun
  split
  · exact on_givenUp_of_ne hne t _
  all_goals rfl

theorem on_settled_of_ne (hne : n ≠ m) (op : Operation) (stand : Stand Progress) :
    on (settled holds t m op stand) n = on holds n := by
  unfold settled
  split
  · simp [on, Ne.symm hne]
  · rfl

/-- An ending thread gives up what it holds on the lock from which it departs, and no other. -/
theorem on_abandoned_of_ne (hne : n ≠ m) (stand : Stand Progress) :
    on (abandoned holds t m stand) n = on holds n := by
  unfold abandoned
  split
  · rw [on, List.filter_filter, on]
    apply List.filter_congr
    intro g _
    by_cases hg : g.lock = n
    · have hne' : g ≠ ⟨t, m, .shared⟩ := by
        rintro rfl
        exact hne hg.symm
      simp [hg, hne']
    · simp [hg]
  · rfl

end Hold

end ReaderWriter
