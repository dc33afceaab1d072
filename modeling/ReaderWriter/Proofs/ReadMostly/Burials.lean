import ReaderWriter.Proofs.ReadMostly.Rosters
import ReaderWriter.Proofs.ReadMostly.Supplies

/-!
# No flag stays up behind a lock that has gone

A flag is up only while it is on the list of some registry: it is raised by a thread that has
entered it, and lowered before it is taken off. A lock that goes lowers the flags that are on its
list still, and leaves the list empty. So no flag stays up behind it.

* `Run.Lit`: every flag that is up is on a list, and a flag that is about to be taken off is down.
* `Run.Emptied`: the registries of locks that have gone are empty.
* `Reachable.lit`: both hold in every reachable run, if fresh flags are handed out.
-/

namespace ReaderWriter

open ReadMostly (Flag Site Pc Transition Carries)

/-! ## Transitions -/

namespace ReadMostly

/-- A thread that is about to enter its flag raises and lowers none. -/
theorem Transition.flags_of_registering {sc : Scene} {s s' : Site} {job : Job} {stand : Stand Pc}
    {gain : Option Mode} (h : Transition sc s job s' stand gain)
    (hregisters : job.pc?.any Pc.registers = true) : s'.flags = s.flags := by
  have hnot : job.pc?.any Pc.registers = false → s'.flags = s.flags := by
    intro hno
    rw [hno] at hregisters
    cases hregisters
  cases h with
  | queue henters | claim b henters => exact hnot henters.pc?_inHand.2
  | arrive hasks | register hasks | registerLater hasks | registerNever hasks | noFlag _ hasks
    | noNodes hasks => exact hnot hasks.pc?_inHand.2
  | look b harrives => exact hnot harrives.pc_inHand.2
  | enlist | write | writeLater | await | read | readLater | notify | notifyLater
    | arriveLater => rfl
  | _ => exact hnot rfl

end ReadMostly

variable {r r' : Run} {e : Event} {t u : ThreadId} {m n : Nat} {l : Lock} {job : Job}
  {s : ReadMostly.State} {site : Site} {stand : Stand Pc} {gain : Option Mode} {f : Flag}

/-! ## Flags that are up -/

/-- Every flag that is up is on the list of some registry, and a flag that an ending thread is about
to take off a list is down. -/
structure Run.Lit (r : Run) : Prop where
  listed : ∀ {f}, r.world.flags.isRaised f = true →
    ∃ n s, r.world.ReadMostlyAt n s ∧ f ∈ s.registry.entries
  lowered : ∀ {t m f wasUp a},
    (r.world.thread t).stint? = some (m, .readMostly (.departing f wasUp a)) →
      r.world.flags.isRaised f = false

/-- The registry of a lock that has gone is empty. -/
def Run.Emptied (r : Run) : Prop :=
  ∀ m s, r.world.ReadMostlyAt m s → r.world.isAlive m = false → s.registry.entries = []

theorem Run.Emptied.isAlive (h : r.Emptied) (hs : r.world.ReadMostlyAt m s)
    (hf : f ∈ s.registry.entries) : r.world.isAlive m = true := by
  refine Bool.eq_false_or_eq_true _ |>.resolve_right fun hdead => ?_
  rw [h m s hs hdead] at hf
  cases hf

theorem World.SameRolls.exists_listed {w w' : World} (h : w.SameRolls w' fun _ => True)
    (hs : w.ReadMostlyAt n s) (hf : f ∈ s.registry.entries) :
    ∃ s', w'.ReadMostlyAt n s' ∧ f ∈ s'.registry.entries := by
  obtain ⟨s', hs'⟩ := h.1 n s hs
  rcases h.2 n s' trivial hs' with ⟨s₀, hs₀, hentries⟩ | ⟨hnew, -⟩
  · cases hs.eq hs₀
    exact ⟨s', hs', hentries ▸ hf⟩
  · exact absurd hs (hnew s)

namespace Run.Lit

/-- What keeps the registries and the flags, and brings no thread to a registry, keeps this. -/
theorem of_same (h : r.Lit) (hflags : r'.world.flags = r.world.flags)
    (hlocks : r.world.SameRolls r'.world fun _ => True)
    (hstint : ∀ u n pc, (r'.world.thread u).stint? = some (n, .readMostly pc) →
      (r.world.thread u).stint? = some (n, .readMostly pc)) : r'.Lit where
  listed hf := by
    rw [hflags] at hf
    obtain ⟨n, s, hs, hmem⟩ := h.listed hf
    obtain ⟨s', hs', hmem'⟩ := hlocks.exists_listed hs hmem
    exact ⟨n, s', hs', hmem'⟩
  lowered hpc := by
    rw [hflags]
    exact h.lowered (hstint _ _ _ hpc)

/-- A flag that its thread works with is on the list if it is up. -/
theorem listed_of_carries (h : r.Lit) (hempty : r.Emptied) (ho : Owns r r.Live)
    (ho' : Owns r' r.Live) (hacts : Acts r r' t m s job site stand gain)
    (hpart : Partings r r' t m job) (halive : r.world.isAlive m = true)
    (hf : Carries ⟨t, m, r.world.isAlive⟩ ⟨s, r.world.flags, (r.world.thread t).locals⟩ job f)
    (hup : site.flags.isRaised f = true) : f ∈ site.lock.registry.entries := by
  have hmem := hacts.carries_mem ho hpart hf
  have hlisted := (ho'.rolls (.inl halive) hacts.after).2 f
  refine hlisted.mpr ⟨t, ?_⟩
  cases hacts.restocks hpart with
  | keeps _ hkept _ hregisters =>
    refine ⟨hkept _ hmem halive, fun hregisters' => ?_⟩
    -- A flag that is not on the list yet is down, since it would be on the list of another lock.
    have hbefore := hregisters.mp hregisters'
    rw [hacts.table.flags_of_registering (hacts.registers_before.mp hbefore)] at hup
    obtain ⟨n, s', hs', hin⟩ := h.listed hup
    obtain ⟨u, hu, hnot⟩ := ((ho.rolls (.inl (hempty.isAlive hs' hin)) hs').2 f).mp hin
    obtain ⟨rfl, rfl⟩ := ho.owner hu hmem
    exact hnot hbefore
  | gains _ _ _ hnone => exact absurd (List.mem_map.mpr ⟨_, hmem, rfl⟩) hnone
  | enlists g heq _ _ _ hafter => exact ⟨heq ▸ hmem, hafter⟩
  | @loses g wasUp hjob hstand heq =>
    have hg : (m, g) ∈ (r.world.thread t).flags := by simp [heq]
    cases ho.flag_eq hmem hg
    have hstint := hacts.stint
    rw [hjob] at hstint
    have hdown := h.lowered hstint
    cases hacts.table.parts with
    | strikes _ _ hflags =>
      rw [hflags, hdown] at hup
      cases hup
    | apart hbefore =>
      rw [hjob] at hbefore
      cases hbefore
    | waits hjob' hne =>
      cases hjob.symm.trans hjob'
      exact absurd rfl hne
    | turns hjob' | tells hjob' | ends hjob' | said hjob' => cases hjob.symm.trans hjob'

/-- A flag that is on the list of a lock stays there while another flag is worked with. -/
theorem mem_entries_of_not_carries (hacts : Acts r r' t m s job site stand gain)
    (hpart : Partings r r' t m job)
    (hf : ¬ Carries ⟨t, m, r.world.isAlive⟩ ⟨s, r.world.flags, (r.world.thread t).locals⟩ job f)
    (hin : f ∈ s.registry.entries) : f ∈ site.lock.registry.entries := by
  cases hacts.restocks hpart with
  | keeps _ _ hentries | gains _ _ _ _ hentries => rwa [hentries]
  | enlists g _ _ hentries =>
    rw [hentries]
    exact List.mem_append_left _ hin
  | @loses g wasUp hjob _ _ hentries =>
    rw [hentries]
    refine (List.mem_erase_of_ne ?_).mpr hin
    rintro rfl
    subst hjob
    exact hf (.place rfl)

theorem of_acts (h : r.Lit) (hempty : r.Emptied) (ho : Owns r r.Live) (ho' : Owns r' r.Live)
    (hacts : Acts r r' t m s job site stand gain) (hpart : Partings r r' t m job)
    (halive : r.world.isAlive m = true) : r'.Lit where
  listed {f} hf := by
    rw [hacts.flags] at hf
    by_cases hcarries :
        Carries ⟨t, m, r.world.isAlive⟩ ⟨s, r.world.flags, (r.world.thread t).locals⟩ job f
    · exact ⟨m, _, hacts.after, h.listed_of_carries hempty ho ho' hacts hpart halive hcarries hf⟩
    · have hsame : site.flags.isRaised f = r.world.flags.isRaised f := by
        refine hacts.table.isRaised_eq fun g hg => ?_
        rintro rfl
        exact hcarries hg
      rw [hsame] at hf
      obtain ⟨n, s', hs', hin⟩ := h.listed hf
      by_cases hn : n = m
      · subst hn
        cases hs'.eq hacts.before
        exact ⟨n, _, hacts.after, mem_entries_of_not_carries hacts hpart hcarries hin⟩
      · obtain ⟨l, hl, hbody⟩ := hs'
        exact ⟨n, s', ⟨l, (hacts.locks n hn).trans hl, hbody⟩, hin⟩
  lowered {u k f wasUp e} hpc := by
    rw [hacts.flags]
    by_cases hu : u = t
    · subst hu
      rw [hacts.stint'] at hpc
      obtain ⟨pc, hplace, heq⟩ := Option.map_eq_some_iff.mp hpc
      cases heq
      have hstand : stand = .here (.departing f wasUp e) := by
        cases stand with
        | here pc => exact congrArg Stand.here (Option.some.inj hplace)
        | done | fault => cases hplace
      subst hstand
      cases hacts.table.parts with
      | turns _ hstand hdown =>
        cases hstand
        exact hdown
      | waits hjob _ hstand hflags =>
        cases hstand
        have hstint := hacts.stint
        rw [hjob] at hstint
        rw [hflags]
        exact h.lowered hstint
      | apart _ hafter => cases hafter
      | strikes _ hstand | tells _ hstand | ends _ hstand => cases hstand
      | said _ hafter => cases hafter
    · rw [hacts.others u hu] at hpc
      have hmem := ho.carried hpc rfl
      have hsame : site.flags.isRaised f = r.world.flags.isRaised f := by
        refine hacts.table.isRaised_eq fun g hg => ?_
        rintro rfl
        exact hu (ho.owner hmem (hacts.carries_mem ho hpart hg)).1
      rw [hsame]
      exact h.lowered hpc

/-- Every move keeps the flags that are up on lists. -/
theorem of_move (h : r.Lit) (hempty : r.Emptied) (ho : Owns r r.Live) (ho' : Owns r' r.Live)
    (hmove : Move r e r') : r'.Lit := by
  cases hmove with
  | @operate t m l job op hop =>
    by_cases halg : l.body.algorithm = .readMostly
    · obtain ⟨s, hs⟩ := Body.exists_readMostly halg
      obtain ⟨site, stand, hacts, -⟩ := hop.acts hs
      exact h.of_acts hempty ho ho' hacts hop.partings hop.isAlive
    · obtain ⟨hflags, -, -, hstint'⟩ := hop.plain halg
      refine h.of_same hflags (hop.sameRolls_of_plain halg _) fun u n pc hpc => ?_
      by_cases hu : u = t
      · subst hu
        exact absurd hpc (hstint' n pc)
      · rwa [hop.others u hu] at hpc
  | @depart t m l job hdep =>
    obtain ⟨s, hs⟩ :=
      Body.exists_readMostly (World.work_departs t hdep.lock hdep.suits hdep.departs).1
    obtain ⟨site, stand, hacts, -⟩ := hdep.acts hs
    exact h.of_acts hempty ho ho' hacts hdep.partings hdep.alive
  | @shift t hs =>
    refine h.of_same hs.flags (.of_locks_eq hs.locks _) fun u n pc hpc => ?_
    by_cases hu : u = t
    · subst hu
      rw [hs.stint'] at hpc
      cases hpc
    · rwa [hs.others u hu] at hpc
  | drop hs =>
    exact h.of_same hs.flags (hs.sameRolls _) fun u n pc hpc => by rwa [hs.threads] at hpc
  | wake hs =>
    exact h.of_same hs.flags (hs.sameRolls_of_wake _) fun u n pc hpc => by rwa [hs.threads] at hpc
  | make hs =>
    exact h.of_same hs.flags (hs.sameRolls_of_make _) fun u n pc hpc => by rwa [hs.threads] at hpc
  | rest hs =>
    exact h.of_same hs.flags (.of_locks_eq hs.locks _) fun u n pc hpc => by rwa [hs.threads] at hpc

end Run.Lit

/-! ## Locks that go -/

theorem World.dissolve_eq {w : World} (h : w.ReadMostlyAt m s) :
    ∃ l, w.locks[m]? = some l ∧ (w.dissolve m).1 =
      { w.withLock m { l with body := .readMostly { s with registry := {} } } with
        flags := s.registry.lowerAll w.flags } := by
  obtain ⟨l, hl, hs⟩ := h
  exact ⟨l, hl, by simp only [dissolve, hl, hs]⟩

namespace Dissolves

theorem entries_eq_nil (h : Dissolves r r' m) (hs : r'.world.ReadMostlyAt m s) :
    s.registry.entries = [] := by
  obtain ⟨l', hl', hbody'⟩ := hs
  rw [h.locks] at hl'
  by_cases hread : ∃ s₀, r.world.ReadMostlyAt m s₀
  · obtain ⟨s₀, hs₀⟩ := hread
    obtain ⟨l, hl, heq⟩ := World.dissolve_eq hs₀
    have hlt : m < r.world.locks.length := (List.getElem?_eq_some_iff.mp hl).1
    simp only [heq, World.withLock, List.getElem?_set_self hlt, Option.some.injEq] at hl'
    subst hl'
    cases hbody'
    rfl
  · rcases World.dissolve_cases r.world m with heq | ⟨l, s₀, hl, hs₀, -⟩
    · rw [heq] at hl'
      exact absurd ⟨s, l', hl', hbody'⟩ hread
    · exact absurd ⟨s₀, l, hl, hs₀⟩ hread

/-- A flag that is up after a lock has gone was not on its list. -/
theorem of_isRaised (h : Dissolves r r' m) (hf : r'.world.flags.isRaised f = true) :
    r.world.flags.isRaised f = true ∧
      ∀ s, r.world.ReadMostlyAt m s → f ∉ s.registry.entries := by
  rw [h.flags] at hf
  by_cases hread : ∃ s, r.world.ReadMostlyAt m s
  · obtain ⟨s, hs⟩ := hread
    obtain ⟨l, hl, heq⟩ := World.dissolve_eq hs
    rw [heq] at hf
    obtain ⟨hup, hnot⟩ := ReadMostly.Registry.of_isRaised_lowerAll hf
    exact ⟨hup, fun s' hs' => hs.eq hs' ▸ hnot⟩
  · rcases World.dissolve_cases r.world m with heq | ⟨l, s, hl, hs, -⟩
    · rw [heq] at hf
      exact ⟨hf, fun s hs => absurd ⟨s, hs⟩ hread⟩
    · exact absurd ⟨s, l, hl, hs⟩ hread

theorem lit (h : Dissolves r r' m) (hlit : r.Lit) : r'.Lit where
  listed hf := by
    obtain ⟨hup, hnot⟩ := h.of_isRaised hf
    obtain ⟨n, s, hs, hin⟩ := hlit.listed hup
    have hn : n ≠ m := by
      rintro rfl
      exact hnot s hs hin
    exact ⟨n, s, (h.readMostlyAt.1 n hn s).mpr hs, hin⟩
  lowered hpc := by
    rw [h.threads] at hpc
    refine Bool.eq_false_iff.mpr fun hup => ?_
    have hdown := hlit.lowered hpc
    rw [(h.of_isRaised hup).1] at hdown
    cases hdown

end Dissolves

namespace Run

/-- The list of a read-mostly lock after a move: the lock had it before, or is new and has an empty
one, or a thread has done a job on the lock. -/
theorem roll_of_move (hmove : Move r e r') (hs : r'.world.ReadMostlyAt n s) :
    (∃ s₀, r.world.ReadMostlyAt n s₀ ∧ s.registry.entries = s₀.registry.entries) ∨
      ((∀ s₀, ¬ r.world.ReadMostlyAt n s₀) ∧ s.registry.entries = []) ∨
      ∃ t s₀ job site stand gain, Acts r r' t n s₀ job site stand gain ∧ Partings r r' t n job ∧
        r.world.isAlive n = true ∧ s = site.lock := by
  have hacts : ∀ {t m s₀ job site stand gain}, Acts r r' t m s₀ job site stand gain →
      Partings r r' t m job → r.world.isAlive m = true →
      (∃ s₀, r.world.ReadMostlyAt n s₀ ∧ s.registry.entries = s₀.registry.entries) ∨
        ∃ t s₀ job site stand gain, Acts r r' t n s₀ job site stand gain ∧ Partings r r' t n job ∧
          r.world.isAlive n = true ∧ s = site.lock := by
    intro t m s₀ job site stand gain hacts hpart halive
    by_cases hn : n = m
    · subst hn
      exact .inr ⟨t, s₀, job, site, stand, gain, hacts, hpart, halive, hs.eq hacts.after⟩
    · obtain ⟨l, hl, hbody⟩ := hs
      exact .inl ⟨s, ⟨l, (hacts.locks n hn).symm.trans hl, hbody⟩, rfl⟩
  have hrolls : r.world.SameRolls r'.world (fun _ => True) →
      (∃ s₀, r.world.ReadMostlyAt n s₀ ∧ s.registry.entries = s₀.registry.entries) ∨
        (∀ s₀, ¬ r.world.ReadMostlyAt n s₀) ∧ s.registry.entries = [] :=
    fun hrolls => hrolls.2 n s trivial hs
  cases hmove with
  | @operate t m l job op hop =>
    by_cases halg : l.body.algorithm = .readMostly
    · obtain ⟨s₀, hs₀⟩ := Body.exists_readMostly halg
      obtain ⟨site, stand, h, -⟩ := hop.acts hs₀
      exact (hacts h hop.partings hop.isAlive).imp_right .inr
    · exact (hrolls (hop.sameRolls_of_plain halg _)).imp_right .inl
  | @depart t m l job hdep =>
    obtain ⟨s₀, hs₀⟩ :=
      Body.exists_readMostly (World.work_departs t hdep.lock hdep.suits hdep.departs).1
    obtain ⟨site, stand, h, -⟩ := hdep.acts hs₀
    exact (hacts h hdep.partings hdep.alive).imp_right .inr
  | shift h => exact (hrolls (.of_locks_eq h.locks _)).imp_right .inl
  | drop h => exact (hrolls (h.sameRolls _)).imp_right .inl
  | wake h => exact (hrolls (h.sameRolls_of_wake _)).imp_right .inl
  | make h => exact (hrolls (h.sameRolls_of_make _)).imp_right .inl
  | rest h => exact (hrolls (.of_locks_eq h.locks _)).imp_right .inl

/-- A lock goes with its list. -/
theorem Emptied.after (h : r.Emptied) (ho : r.Orderly) (hp : r.world.Permits e) :
    (r.after e).Emptied := by
  intro n s hs hdead'
  obtain ⟨⟨r₁, hmove, hrest⟩, -⟩ := after_moves ho hp
  by_cases halive : r.world.isAlive n = true
  · rcases hrest with ⟨heq, hspares⟩ | ⟨m, hm, hdis⟩
    · rw [heq, hspares n halive] at hdead'
      cases hdead'
    · have hdead₁ : r₁.world.isAlive n = false := by
        rw [← Bool.not_eq_true, ← hdis.isAlive_iff, Bool.not_eq_true]
        exact hdead'
      cases hmove.eq_of_dead halive hm hdead₁ hdis.dead
      exact hdis.entries_eq_nil hs
  · rw [Bool.not_eq_true] at halive
    have hmoved : ∀ {s₁}, r₁.world.ReadMostlyAt n s₁ → s₁.registry.entries = [] := by
      intro s₁ hs₁
      rcases roll_of_move hmove hs₁ with
        ⟨s₀, hs₀, hentries⟩ | ⟨-, hentries⟩ | ⟨_, _, _, _, _, _, _, _, hlive, -⟩
      · rw [hentries]
        exact h n s₀ hs₀ halive
      · exact hentries
      · rw [halive] at hlive
        cases hlive
    rcases hrest with ⟨heq, -⟩ | ⟨m, -, hdis⟩
    · exact hmoved (heq ▸ hs)
    · by_cases hn : n = m
      · subst hn
        exact hdis.entries_eq_nil hs
      · exact hmoved ((hdis.readMostlyAt.1 n hn s).mp hs)

end Run

/-- Flags that are up are on the lists of locks that have not gone. -/
theorem Reachable.lit {ok : Run → Event → Prop} (hok : ∀ r e, ok r e → r.HandsOutFresh e)
    (h : Reachable ok r) : r.Lit ∧ r.Emptied := by
  induction h with
  | start =>
    refine ⟨⟨fun hf => ?_, fun hpc => ?_⟩, fun _ _ hs => ?_⟩
    · cases hf
    · cases hpc
    · obtain ⟨l, hl, -⟩ := hs
      cases hl
  | @step r e hreach hp hoke ih =>
    obtain ⟨hlit, hempty⟩ := ih
    refine ⟨?_, hempty.after hreach.orderly hp⟩
    have ho := hreach.owns hok
    obtain ⟨⟨r₁, hmove, hrest⟩, -⟩ := Run.after_moves hreach.orderly hp
    have hlit₁ := hlit.of_move hempty ho (ho.of_move (hok r e hoke) hmove) hmove
    rcases hrest with ⟨heq, -⟩ | ⟨m, -, hdis⟩
    · rwa [heq]
    · exact hdis.lit hlit₁

/-- A flag that is up is on the list of a lock that has not gone, and belongs to a thread that has
entered it there. -/
theorem Reachable.owner_of_raised {ok : Run → Event → Prop}
    (hok : ∀ r e, ok r e → r.HandsOutFresh e) (h : Reachable ok r)
    (hf : r.world.flags.isRaised f = true) :
    ∃ t n, r.world.isAlive n = true ∧ (n, f) ∈ (r.world.thread t).flags := by
  obtain ⟨hlit, hempty⟩ := h.lit hok
  obtain ⟨n, s, hs, hin⟩ := hlit.listed hf
  have halive := hempty.isAlive hs hin
  obtain ⟨t, ht, -⟩ := (((h.owns hok).rolls (.inl halive) hs).2 f).mp hin
  exact ⟨t, n, halive, ht⟩

end ReaderWriter
