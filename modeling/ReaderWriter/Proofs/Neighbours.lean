import ReaderWriter.Proofs.ReadMostly.Supplies

/-!
# What is done on one lock leaves the others alone

The flags of several locks can lie in one block. Still, whatever a thread does on one lock leaves
every other lock as it is, and leaves every flag of the other locks up or down as it is, because the
thread writes only the flag that it has on the lock where it works.

* `World.IsFlagOf`: the flags of a lock.
* `Run.WorksOn`: the event is something that a thread does on this lock.
* `Reachable.sparesLock`: it leaves all other locks that have not gone alone.
-/

namespace ReaderWriter

open ReadMostly (Flag Site Pc)

variable {r r' : Run} {e : Event} {t u : ThreadId} {m n : Nat} {l : Lock} {job : Job}
  {op : Operation} {f : Flag}

namespace World

variable {w w' : World}

/-- The flag is on the registry of the lock at an index, or a thread has it for that lock. -/
def IsFlagOf (w : World) (n : Nat) (f : Flag) : Prop :=
  (∃ s, w.ReadMostlyAt n s ∧ f ∈ s.registry.entries) ∨ ∃ u, (n, f) ∈ (w.thread u).flags

/-- Between the worlds the lock at an index stays as it is, and its flags stay up or down. -/
structure SparesLock (w w' : World) (n : Nat) : Prop where
  lock : w'.locks[n]? = w.locks[n]?
  flags : ∀ f, w.IsFlagOf n f → w'.flags.isRaised f = w.flags.isRaised f

/-- A thread is on one lock at most. -/
theorem IsOn.eq (hm : w.IsOn t m) (hn : w.IsOn t n) : m = n := by
  unfold IsOn at hm hn
  generalize w.thread t = th at hm hn
  obtain ⟨activity, locals, armed⟩ := th
  cases activity with
  | idle | gone => simp [Thread.frame?, Thread.departingFrom?] at hm
  | calling frame =>
    simp only [Thread.frame?, Thread.departingFrom?, Option.map_some, Option.some.injEq,
      reduceCtorEq, or_false] at hm hn
    exact hm.symm.trans hn
  | ending e =>
    obtain ⟨chore, armed, nodes⟩ := e
    rcases chore with _ | _ | _ <;>
      simp [Thread.frame?, Thread.departingFrom?, Ending.departingFrom?] at hm hn <;> omega

end World

/-! ## Which lock it is about -/

/-- The event is something that a thread does on the lock at an index: it calls the lock, or takes
its next turn there. -/
def Run.WorksOn (m : Nat) (r : Run) : Event → Prop
  | .call _ m' _ => m' = m
  | .turn t => r.world.IsOn t m
  | .exit _ | .wake _ | .advance _ | .make _ _ => False

instance (m : Nat) (r : Run) : (e : Event) → Decidable (r.WorksOn m e)
  | .call _ _ _ => inferInstanceAs (Decidable (_ = _))
  | .turn t => inferInstanceAs (Decidable (r.world.IsOn t m))
  | .exit _ | .wake _ | .advance _ | .make _ _ => .isFalse id

theorem Operates.lock_eq (h : Operates r e r' t m l job op) (ho : r.Orderly)
    (hworks : r.WorksOn n e) : m = n := by
  cases job with
  | start op' =>
    rcases h.called _ rfl with ⟨c, rfl, -⟩ | ⟨rfl, -, -, hreleases, hawaits⟩
    · exact hworks
    · obtain ⟨mode, hmode⟩ : ∃ mode, op.acquires? = some mode := by
        cases op with
        | acquire mode | tryAcquire mode => exact ⟨mode, rfl⟩
        | release mode => cases hreleases
      obtain ⟨-, frame, hframe, hm⟩ := hawaits mode hmode
      have hon : r.world.IsOn t m := .inl (by rw [hframe, Option.map_some, hm])
      exact hon.eq hworks
  | resume p =>
    rw [h.turned p rfl] at hworks
    exact (ho.isOn h.place_self).1.eq hworks
  | depart f => exact h.serves.elim

theorem Departs.lock_eq (h : Departs r r' t m l job) (ho : r.Orderly) (hon : r.world.IsOn t n) :
    m = n := by
  cases job with
  | start op' => exact h.departs.elim
  | resume p => exact (ho.isOn h.place_self).1.eq hon
  | depart f =>
    -- A thread that is about to turn to a registry is on no lock yet.
    rcases hon with hframe | hdeparting
    · have hparting := ho.parting_of_frame (Option.isSome_map ▸ Option.isSome_of_eq_some hframe)
      rw [h.parting f rfl] at hparting
      cases hparting
    · obtain ⟨pc, hpc⟩ := Thread.stint?_of_departing hdeparting
      cases h.stint.symm.trans hpc

/-! ## Flags of other locks -/

theorem Owns.exists_of_isFlagOf (ho : Owns r r.Live) (halive : r.world.isAlive n = true)
    (hf : r.world.IsFlagOf n f) : ∃ u, (n, f) ∈ (r.world.thread u).flags := by
  rcases hf with ⟨s, hs, hf⟩ | hf
  · obtain ⟨u, hu, -⟩ := ((ho.rolls (.inl halive) hs).2 f).mp hf
    exact ⟨u, hu⟩
  · exact hf

/-- A turn on a read-mostly lock writes no flag of another lock. -/
theorem Acts.isRaised_of_ne {s : ReadMostly.State} {site : Site} {stand : Stand Pc}
    {gain : Option Mode} (h : Acts r r' t m s job site stand gain) (hpart : Partings r r' t m job)
    (ho : Owns r r.Live) (hn : n ≠ m) (hf : (n, f) ∈ (r.world.thread u).flags) :
    r'.world.flags.isRaised f = r.world.flags.isRaised f := by
  rw [h.flags]
  refine h.table.isRaised_eq fun g hg => ?_
  rintro rfl
  exact hn (ho.owner hf (h.carries_mem ho hpart hg)).2

/-- A move on one lock leaves another one that has not gone alone. -/
theorem Move.spares_other (h : Move r e r') (ho : r.Orderly) (howns : Owns r r.Live)
    (hworks : r.WorksOn m e) (hn : n ≠ m) (halive : r.world.isAlive n = true) :
    r'.world.locks[n]? = r.world.locks[n]? ∧ r'.world.isAlive n = true ∧
      ∀ u f, (n, f) ∈ (r.world.thread u).flags →
        r'.world.flags.isRaised f = r.world.flags.isRaised f := by
  cases h with
  | @operate t k l job op h =>
    obtain rfl := h.lock_eq ho hworks
    refine ⟨h.lock_of_ne hn, h.spares n halive, fun u f hf => ?_⟩
    by_cases halg : l.body.algorithm = .readMostly
    · obtain ⟨s, hbody⟩ := Body.exists_readMostly halg
      obtain ⟨site, stand, hacts, -⟩ := h.acts hbody
      exact hacts.isRaised_of_ne h.partings howns hn hf
    · rw [(h.plain halg).1]
  | @depart t k l job h he =>
    subst he
    obtain rfl := h.lock_eq ho hworks
    refine ⟨h.lock_of_ne hn, h.isAlive_of_ne hn halive, fun u f hf => ?_⟩
    obtain ⟨s, hbody⟩ := Body.exists_readMostly (World.work_departs t h.lock h.suits h.departs).1
    obtain ⟨site, stand, hacts, -⟩ := h.acts hbody
    exact hacts.isRaised_of_ne h.partings howns hn hf
  | shift h => exact ⟨by rw [h.locks], h.spares n halive, fun _ _ _ => by rw [h.flags]⟩
  | drop h he =>
    obtain ⟨t, rfl⟩ := he
    obtain rfl : _ = m := hworks
    exact ⟨h.lock_of_ne hn, h.isAlive_of_ne hn halive, fun _ _ _ => by rw [h.flags]⟩
  | wake h he | make h he =>
    subst he
    exact hworks.elim
  | rest h =>
    exact ⟨by rw [h.locks], h.spares (.of_locks_eq h.locks) n halive, fun _ _ _ => by rw [h.flags]⟩

/-- A registry that goes leaves other locks alone, and every flag that nobody has on its lock. -/
theorem Dissolves.spares_other {k : Nat} {live : Nat → Prop} (hdis : Dissolves r r' k)
    (ho : Owns r live) (hlive : live k) (hn : n ≠ k) :
    r'.world.locks[n]? = r.world.locks[n]? ∧
      ∀ f, (∀ v, (k, f) ∉ (r.world.thread v).flags) →
        r'.world.flags.isRaised f = r.world.flags.isRaised f := by
  refine ⟨hdis.lock_of_ne hn, fun f hf => ?_⟩
  rw [hdis.flags]
  rcases World.dissolve_cases r.world k with heq | ⟨l, s, hl, hbody, heq⟩ <;> rw [heq]
  · refine ReadMostly.Registry.isRaised_lowerAll_of_not_mem (fun hmem => ?_) _
    obtain ⟨v, hv, -⟩ := ((ho.rolls hlive ⟨l, hl, hbody⟩).2 f).mp hmem
    exact hf v hv

/-- What a thread does on one lock leaves another one that has not gone alone. -/
theorem Reachable.sparesLock {ok : Run → Event → Prop} (h : Reachable ok r)
    (hown : r.world.OwnSupplies) (hp : r.world.Permits e) (hworks : r.WorksOn m e) (hn : n ≠ m)
    (halive : r.world.isAlive n = true) : r.world.SparesLock (r.after e).world n := by
  obtain ⟨hreach, hs⟩ := h.handsOutFresh hown
  have howns := hreach.owns fun _ _ h => h.2
  obtain ⟨⟨r₁, hmove, hrest⟩, -⟩ := Run.after_moves h.orderly hp
  obtain ⟨hlock, halive₁, hflags⟩ := hmove.spares_other h.orderly howns hworks hn halive
  have howned := fun f => howns.exists_of_isFlagOf (f := f) halive
  rcases hrest with ⟨heq, -⟩ | ⟨k, hk, hdis⟩
  · rw [heq]
    exact ⟨hlock, fun f hf => (howned f hf).elim (hflags · f)⟩
  · have hne : n ≠ k := by
      rintro rfl
      rw [hdis.dead] at halive₁
      cases halive₁
    have howns₁ := howns.of_move (Run.handsOutFresh_of_own h.orderly hp hown hs) hmove
    obtain ⟨hlock₂, hflags₂⟩ := hdis.spares_other howns₁ (.inl hk) hne
    refine ⟨hlock₂.trans hlock, fun f hf => ?_⟩
    obtain ⟨u, hu⟩ := howned f hf
    refine (hflags₂ f fun v hv => ?_).trans (hflags u f hu)
    -- The flag was handed out once, so nobody has it on the lock that goes.
    rcases (hmove.supplies howns hown hs).taken hv with hv | hnew
    · exact hne (howns.owner hu hv).2
    · exact hnew (hs.issued f (.inr ⟨u, n, hu⟩))

end ReaderWriter
