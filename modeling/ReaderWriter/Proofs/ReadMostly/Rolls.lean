import Mathlib.Data.List.Nodup
import Mathlib.Data.List.Perm.Subperm
import ReaderWriter.Proofs.ReadMostly.Acts

/-!
# Whose flag is it

A flag belongs to one thread, on one lock, from the moment it is handed out until it is taken off
the registry or its lock goes. All this time the thread has it somewhere: among its nodes, among the
nodes that it has yet to take off their registries, or in hand.

* `Owns`: nobody has two flags on a lock, no flag has two owners, and the registry of a lock lists
  the flags that are owned on it.
* `Acts.restocks`: what a turn does to the flags of its thread and to the registry.
* `Acts.owns`: a turn keeps the ownership of flags, if a flag that is handed out is fresh.
-/

namespace ReaderWriter

open ReadMostly (Flag Site Scene Pc Transition Stocks Carries)

variable {r r' : Run} {e : Event} {t u : ThreadId} {m n : Nat} {l : Lock} {job : Job}
  {s : ReadMostly.State} {site : Site} {stand : Stand Pc} {gain : Option Mode} {f : Flag}

/-- What a job on a read-mostly lock does to the flags of its thread and to the registry. -/
inductive Restocks (r r' : Run) (t : ThreadId) (m : Nat) (entries entries' : List Flag) (job : Job)
    (stand : Stand Pc) : Prop
  /-- No flag comes or goes, save those of locks that have gone. -/
  | keeps : (r'.world.thread t).flags.Subperm (r.world.thread t).flags →
      (∀ x ∈ (r.world.thread t).flags, r.world.isAlive x.1 = true →
        x ∈ (r'.world.thread t).flags) →
      entries' = entries → ((r'.world.thread t).Registers m ↔ (r.world.thread t).Registers m) →
      Restocks r r' t m entries entries' job stand
  | gains {p : ReadMostly.Patience} {f : Flag} {e : ReadMostly.Edit} : ReadMostly.Asks job p →
      stand = .here (.registering p f e) →
      (r'.world.thread t).flags = (r.world.thread t).flags ++ [(m, f)] →
      m ∉ (r.world.thread t).flags.map Prod.fst → entries' = entries →
      (r'.world.thread t).Registers m → Restocks r r' t m entries entries' job stand
  | enlists (f : Flag) : (r'.world.thread t).flags = (r.world.thread t).flags →
      (m, f) ∈ (r.world.thread t).flags → entries' = entries ++ [f] →
      (r.world.thread t).Registers m → ¬ (r'.world.thread t).Registers m →
      Restocks r r' t m entries entries' job stand
  | loses {f : Flag} {wasUp : Bool} : job = .from (.departing f wasUp .inside) →
      stand = .here (.departed wasUp) →
      (r.world.thread t).flags = (r'.world.thread t).flags ++ [(m, f)] →
      entries' = entries.erase f →
      Restocks r r' t m entries entries' job stand

/-- The list names the flags that are owned on a lock and have been entered into its registry, each
once. -/
def World.Rolls (w : World) (m : Nat) (entries : List Flag) : Prop :=
  entries.Nodup ∧
    ∀ f, f ∈ entries ↔ ∃ t, (m, f) ∈ (w.thread t).flags ∧ ¬ (w.thread t).Registers m

/-- Nobody has two flags on a lock, no flag has two owners, and the registry of a live lock lists
the flags that are owned on it. -/
structure Owns (r : Run) (live : Nat → Prop) : Prop where
  keys : ∀ t, ((r.world.thread t).flags.map Prod.fst).Nodup
  owner : ∀ {t u m n f}, (m, f) ∈ (r.world.thread t).flags → (n, f) ∈ (r.world.thread u).flags →
    t = u ∧ m = n
  carried : ∀ {t m pc f}, (r.world.thread t).stint? = some (m, .readMostly pc) →
    pc.flag? = some f → (m, f) ∈ (r.world.thread t).flags
  placed : ∀ {t m f}, (m, f) ∈ (r.world.thread t).flags → ∃ s, r.world.ReadMostlyAt m s
  rolls : ∀ {m s}, live m → r.world.ReadMostlyAt m s → r.world.Rolls m s.registry.entries

/-- The lock at an index has not gone. Locks that are yet to be made count, as nothing is on
them. -/
def Run.Live (r : Run) (m : Nat) : Prop :=
  r.world.isAlive m = true ∨ r.world.locks[m]? = none

namespace Owns

variable {live live' : Nat → Prop}

theorem mono (h : Owns r live) (hlive : ∀ m, live' m → live m) : Owns r live' :=
  ⟨h.keys, h.owner, h.carried, h.placed, fun hm => h.rolls (hlive _ hm)⟩

/-- What a thread has on a lock is one flag. -/
theorem flag_eq (h : Owns r live) {f g : Flag} (hf : (m, f) ∈ (r.world.thread t).flags)
    (hg : (m, g) ∈ (r.world.thread t).flags) : f = g := by
  have heq := List.inj_on_of_nodup_map (h.keys t) hf hg rfl
  exact (Prod.mk.inj heq).2

/-- The roll of a lock stays when what its flags are and where they are kept stays. -/
theorem rolls_of_same (h : Owns r live) (hlive : live n) (hs : r.world.ReadMostlyAt n s)
    (hothers : ∀ u, u ≠ t → r'.world.thread u = r.world.thread u)
    (hmem : ∀ f, (n, f) ∈ (r'.world.thread t).flags ↔ (n, f) ∈ (r.world.thread t).flags)
    (hregisters : (r'.world.thread t).Registers n ↔ (r.world.thread t).Registers n) :
    r'.world.Rolls n s.registry.entries := by
  obtain ⟨hnodup, hlisted⟩ := h.rolls hlive hs
  refine ⟨hnodup, fun f => (hlisted f).trans (exists_congr fun u => ?_)⟩
  by_cases hu : u = t
  · subst hu
    rw [hmem, hregisters]
  · rw [hothers u hu]

/-- Who owns what is clear after a turn of one thread if it was before, and if the thread takes no
flag but a fresh one. -/
theorem of_thread (h : Owns r live)
    (hothers : ∀ u, u ≠ t → r'.world.thread u = r.world.thread u)
    (hkeys : ((r'.world.thread t).flags.map Prod.fst).Nodup)
    (hmem : ∀ {n g}, (n, g) ∈ (r'.world.thread t).flags → (n, g) ∈ (r.world.thread t).flags ∨
      n = m ∧ (∃ s, r.world.ReadMostlyAt m s) ∧ ∀ u k, (k, g) ∉ (r.world.thread u).flags)
    (hcarried : ∀ {m pc f}, (r'.world.thread t).stint? = some (m, .readMostly pc) →
      pc.flag? = some f → (m, f) ∈ (r'.world.thread t).flags)
    (hplaced : ∀ n s, r.world.ReadMostlyAt n s → ∃ s', r'.world.ReadMostlyAt n s')
    (hrolls : ∀ {n s}, live n → r'.world.ReadMostlyAt n s →
      r'.world.Rolls n s.registry.entries) : Owns r' live := by
  refine ⟨fun u => ?_, fun {u v j k f} hf hf' => ?_, fun {u j pc f} hpc hf => ?_,
    fun {u k f} hf => ?_, hrolls⟩
  · by_cases hu : u = t
    · subst hu
      exact hkeys
    · rw [hothers u hu]
      exact h.keys u
  · by_cases hu : u = t <;> by_cases hv : v = t
    · subst hu
      subst hv
      rcases hmem hf with hf | ⟨rfl, -, hf⟩ <;> rcases hmem hf' with hf' | ⟨rfl, -, hf'⟩
      · exact h.owner hf hf'
      · exact absurd ‹_› (hf' _ _)
      · exact absurd ‹_› (hf _ _)
      · exact ⟨rfl, rfl⟩
    · subst hu
      rw [hothers v hv] at hf'
      rcases hmem hf with hf | ⟨-, -, hf⟩
      · exact h.owner hf hf'
      · exact absurd hf' (hf _ _)
    · subst hv
      rw [hothers u hu] at hf
      rcases hmem hf' with hf' | ⟨-, -, hf'⟩
      · exact h.owner hf hf'
      · exact absurd hf (hf' _ _)
    · rw [hothers u hu] at hf
      rw [hothers v hv] at hf'
      exact h.owner hf hf'
  · by_cases hu : u = t
    · subst hu
      exact hcarried hpc hf
    · rw [hothers u hu] at hpc ⊢
      exact h.carried hpc hf
  · by_cases hu : u = t
    · subst hu
      rcases hmem hf with hf | ⟨rfl, ⟨s, hs⟩, -⟩
      · obtain ⟨s, hs⟩ := h.placed hf
        exact hplaced k s hs
      · exact hplaced k s hs
    · rw [hothers u hu] at hf
      obtain ⟨s, hs⟩ := h.placed hf
      exact hplaced k s hs

end Owns

/-! ## A turn on a read-mostly lock -/

theorem World.IsFresh.not_mem {w : World} (h : w.IsFresh f) (u : ThreadId) (n : Nat) :
    (n, f) ∉ (w.thread u).flags := by
  intro hmem
  rcases Table.get_mem_or_eq_default w.threads u with hin | hdefault
  · exact h.2 _ hin (List.mem_map.mpr ⟨_, hmem, rfl⟩)
  · have hempty : (w.thread u).flags = [] := by
      rw [World.thread, hdefault]
      rfl
    rw [hempty] at hmem
    cases hmem

theorem mem_of_lookup {nodes : List (Nat × Flag)} (h : nodes.lookup m = some f) :
    (m, f) ∈ nodes := by
  obtain ⟨before, after, rfl, -⟩ := List.lookup_eq_some_iff.mp h
  simp

namespace Acts

theorem flags_before (h : Acts r r' t m s job site stand gain) :
    (r.world.thread t).flags = (r.world.thread t).locals.nodes ++ (r.world.thread t).parting ++
      ((job.pc?.bind Pc.flagInHand?).map (m, ·)).toList :=
  Thread.flags_of_stint? h.stint

theorem flags_after (h : Acts r r' t m s job site stand gain) :
    (r'.world.thread t).flags = site.locals.nodes ++ (r'.world.thread t).parting ++
      ((stand.place?.bind Pc.flagInHand?).map (m, ·)).toList := by
  rw [← h.locals]
  exact Thread.flags_of_stint? h.stint'

/-- The flag that a job works with is the thread's own. -/
theorem carries_mem (h : Acts r r' t m s job site stand gain) {live : Nat → Prop}
    (ho : Owns r live) (hpart : Partings r r' t m job)
    (hf : Carries ⟨t, m, r.world.isAlive⟩ ⟨s, r.world.flags, (r.world.thread t).locals⟩ job f) :
    (m, f) ∈ (r.world.thread t).flags := by
  cases hf with
  | @place pc f hpc => exact ho.carried h.stint hpc
  | depart f =>
    rw [h.flags_before]
    cases hpart with
    | call hserves => exact hserves.elim
    | turns heq hparting =>
      cases heq
      simp [hparting]
    | goes heq => cases heq
  | node _ hnode =>
    rw [h.flags_before, List.append_assoc]
    exact List.mem_append_left _ (mem_of_lookup hnode)

/-- A flag that is being entered into the registry is in hand. -/
theorem inHand_of_registering (h : Acts r r' t m s job site stand gain) {p : ReadMostly.Patience}
    {edit : ReadMostly.Edit} (hstand : stand = .here (.registering p f edit)) :
    (r'.world.thread t).inHand? = some (m, f) := by
  simp only [Thread.inHand?, h.stint', hstand]
  rfl

theorem restocks (h : Acts r r' t m s job site stand gain) (hpart : Partings r r' t m job) :
    Restocks r r' t m s.registry.entries site.lock.registry.entries job stand := by
  have hbefore := h.flags_before
  have hafter := h.flags_after
  have hregisters := Thread.registers_iff (n := m) h.stint
  have hregisters' := Thread.registers_iff (n := m) h.stint'
  cases h.table.stocks with
  | keeps hnodes hentries hhand hsame hjob =>
    have hflags : (r'.world.thread t).flags = (r.world.thread t).flags := by
      rw [hafter, hbefore, hnodes, hhand, hpart.of_ne_depart hjob]
    refine .keeps (hflags ▸ .refl _) (fun _ hx _ => hflags ▸ hx) hentries ?_
    rw [hregisters, hregisters', hsame]
  | @begins p f a hnodes hentries hasks hnone _ hstand =>
    have hdeparts : ¬ job.Departs := by cases hasks <;> exact id
    obtain ⟨hp, hp'⟩ := hpart.of_not_departs hdeparts
    rw [hp, hasks.pc?_eq] at hbefore
    rw [hp', hstand, hnodes] at hafter
    have hbefore' : (r.world.thread t).flags = (r.world.thread t).locals.nodes := by
      simpa using hbefore
    refine .gains hasks hstand ?_ ?_ hentries ?_
    · rw [hbefore', hafter, List.append_nil]
      rfl
    · rw [hbefore', List.mem_map]
      rintro ⟨⟨k, g⟩, hmem, rfl⟩
      have hall : ∀ x ∈ (r.world.thread t).locals.nodes, (k == x.1) = false := by
        simpa [ReadMostly.Locals.node?, List.lookup_eq_none_iff] using hnone
      simpa using hall _ hmem
    · rw [hregisters', hstand]
      exact ⟨rfl, rfl⟩
  | @enlists p f hnodes hentries hjob hstand =>
    subst hjob
    have hflags : (r'.world.thread t).flags = (r.world.thread t).flags := by
      rw [hafter, hbefore, hnodes, hstand, hpart.of_ne_depart (by simp)]
      rfl
    refine .enlists f hflags ?_ hentries (hregisters.mpr ⟨rfl, rfl⟩) ?_
    · rw [hbefore]
      simp [Job.pc?, Pc.flagInHand?]
    · rw [hregisters', hstand]
      simp [Stand.place?, Pc.registers]
  | @remembers p f hnodes hentries hjob hhand hnot =>
    subst hjob
    obtain ⟨hp, hp'⟩ := hpart.of_not_departs id
    rw [hp, List.append_nil] at hbefore
    rw [hp', hhand, hnodes] at hafter
    let kept := (r.world.thread t).locals.nodes.filter fun node => r.world.isAlive node.1
    have hafter' : (r'.world.thread t).flags = kept ++ [(m, f)] := by simpa using hafter
    refine .keeps ?_ (fun x hx hlive => ?_) hentries ?_
    · rw [hbefore, hafter']
      exact (List.filter_sublist.append_right _).subperm
    · rw [hbefore] at hx
      rw [hafter']
      rcases List.mem_append.mp hx with hx | hx
      · exact List.mem_append_left _ (List.mem_filter.mpr ⟨hx, hlive⟩)
      · exact List.mem_append_right _ hx
    · rw [hregisters, hregisters', hnot]
      rfl
  | @departs f wasUp a hnodes hentries hjob hstand =>
    subst hjob
    cases hpart with
    | call hserves => exact hserves.elim
    | turns heq hparting =>
      cases heq
      have hperm : (r'.world.thread t).flags.Perm (r.world.thread t).flags := by
        rw [hafter, hbefore, hnodes, hstand, hparting]
        simpa [Stand.place?, Job.pc?, Pc.flagInHand?] using
          (List.perm_append_singleton (m, f) (r'.world.thread t).parting).append_left _
      refine .keeps hperm.subperm (fun x hx _ => hperm.mem_iff.mpr hx) hentries ?_
      rw [hregisters, hregisters', hstand]
      rfl
    | goes heq => cases heq
  | @strikes f wasUp hnodes hentries hjob hstand =>
    subst hjob
    refine .loses rfl hstand ?_ hentries
    rw [hafter, hbefore, hnodes, hstand, hpart.of_ne_depart (by simp)]
    simp [Stand.place?, Job.pc?, Pc.flagInHand?]

/-- A turn keeps the roll of every other lock. -/
theorem rolls_of_ne (h : Acts r r' t m s job site stand gain) {live : Nat → Prop}
    (ho : Owns r live) (hpart : Partings r r' t m job) (hn : n ≠ m) (hlive : live n)
    (halive : r.world.isAlive n = true) {s' : ReadMostly.State}
    (hs' : r'.world.ReadMostlyAt n s') : r'.world.Rolls n s'.registry.entries := by
  have hs : r.world.ReadMostlyAt n s' := by
    obtain ⟨l, hl, hbody⟩ := hs'
    exact ⟨l, h.locks n hn ▸ hl, hbody⟩
  refine ho.rolls_of_same hlive hs h.others (fun f => ?_) ?_
  · cases h.restocks hpart with
    | keeps hsub hkept => exact ⟨fun h => hsub.subset h, fun h => hkept _ h halive⟩
    | gains _ _ heq | loses _ _ heq => simp [heq, hn]
    | enlists g heq => rw [heq]
  · rw [Thread.registers_iff h.stint, Thread.registers_iff h.stint']
    simp [hn]

/-- A thread enters its flag into the registry. -/
theorem rolls_of_enlists {live : Nat → Prop} (ho : Owns r live) (hlive : live m)
    (hs : r.world.ReadMostlyAt m s)
    (hothers : ∀ u, u ≠ t → r'.world.thread u = r.world.thread u)
    (heq : (r'.world.thread t).flags = (r.world.thread t).flags)
    (hmem : (m, f) ∈ (r.world.thread t).flags) (hbefore : (r.world.thread t).Registers m)
    (hafter : ¬ (r'.world.thread t).Registers m) :
    r'.world.Rolls m (s.registry.entries ++ [f]) := by
  obtain ⟨hnodup, hlisted⟩ := ho.rolls hlive hs
  have hnew : f ∉ s.registry.entries := by
    intro hf
    obtain ⟨u, hu, hnot⟩ := (hlisted f).mp hf
    obtain ⟨rfl, -⟩ := ho.owner hu hmem
    exact hnot hbefore
  refine ⟨?_, fun g => ?_⟩
  · rw [List.nodup_append]
    refine ⟨hnodup, List.nodup_singleton _, ?_⟩
    rintro a ha b hb rfl
    rw [List.mem_singleton] at hb
    exact hnew (hb ▸ ha)
  · rw [List.mem_append, List.mem_singleton, hlisted g]
    constructor
    · rintro (⟨u, hu, hnot⟩ | rfl)
      · have hut : u ≠ t := by
          rintro rfl
          exact hnot hbefore
        exact ⟨u, by rwa [hothers u hut], by rwa [hothers u hut]⟩
      · exact ⟨t, heq ▸ hmem, hafter⟩
    · rintro ⟨u, hu, hnot⟩
      by_cases hut : u = t
      · subst hut
        rw [heq] at hu
        exact .inr (ho.flag_eq hu hmem)
      · rw [hothers u hut] at hu hnot
        exact .inl ⟨u, hu, hnot⟩

/-- A thread takes its flag off the registry. -/
theorem rolls_of_loses {live : Nat → Prop} (ho : Owns r live) (hlive : live m)
    (hs : r.world.ReadMostlyAt m s)
    (hothers : ∀ u, u ≠ t → r'.world.thread u = r.world.thread u)
    (heq : (r.world.thread t).flags = (r'.world.thread t).flags ++ [(m, f)]) :
    r'.world.Rolls m (s.registry.entries.erase f) := by
  obtain ⟨hnodup, hlisted⟩ := ho.rolls hlive hs
  have hmem : (m, f) ∈ (r.world.thread t).flags := by simp [heq]
  have hgone : (m, f) ∉ (r'.world.thread t).flags := by
    have hkeys := ho.keys t
    rw [heq, List.map_append, List.nodup_append] at hkeys
    intro hin
    exact hkeys.2.2 m (List.mem_map.mpr ⟨_, hin, rfl⟩) m (by simp) rfl
  refine ⟨hnodup.erase f, fun g => ?_⟩
  rw [hnodup.mem_erase_iff, hlisted g]
  constructor
  · rintro ⟨hne, u, hu, hnot⟩
    have hut : u ≠ t := by
      rintro rfl
      exact hne (ho.flag_eq hu hmem)
    exact ⟨u, by rwa [hothers u hut], by rwa [hothers u hut]⟩
  · rintro ⟨u, hu, hnot⟩
    have hut : u ≠ t := by
      rintro rfl
      have hu' : (m, g) ∈ (r.world.thread u).flags := by
        rw [heq]
        exact List.mem_append_left _ hu
      exact hgone (ho.flag_eq hu' hmem ▸ hu)
    rw [hothers u hut] at hu hnot
    refine ⟨?_, u, hu, hnot⟩
    rintro rfl
    exact hut (ho.owner hu hmem).1

/-- A turn keeps the roll of its own lock. -/
theorem rolls_self (h : Acts r r' t m s job site stand gain) {live : Nat → Prop}
    (ho : Owns r live) (hpart : Partings r r' t m job) (halive : r.world.isAlive m = true)
    (hlive : live m) : r'.world.Rolls m site.lock.registry.entries := by
  cases h.restocks hpart with
  | keeps hsub hkept hentries hregisters =>
    rw [hentries]
    exact ho.rolls_of_same hlive h.before h.others
      (fun f => ⟨fun h => hsub.subset h, fun h => hkept _ h halive⟩) hregisters
  | gains _ _ heq hnone hentries hregisters =>
    -- The thread had no flag on the lock, and the one that it has now does not count yet.
    obtain ⟨hnodup, hlisted⟩ := ho.rolls hlive h.before
    rw [hentries]
    refine ⟨hnodup, fun g => (hlisted g).trans (exists_congr fun u => ?_)⟩
    by_cases hu : u = t
    · subst hu
      refine iff_of_false ?_ fun h => h.2 hregisters
      rintro ⟨hmem, -⟩
      exact hnone (List.mem_map.mpr ⟨_, hmem, rfl⟩)
    · rw [h.others u hu]
  | enlists f heq hmem hentries hbefore hafter =>
    rw [hentries]
    exact rolls_of_enlists ho hlive h.before h.others heq hmem hbefore hafter
  | loses _ _ heq hentries =>
    rw [hentries]
    exact rolls_of_loses ho hlive h.before h.others heq

/-- A flag that goes with the place of a thread is the thread's own. -/
theorem carried (h : Acts r r' t m s job site stand gain) {live : Nat → Prop} (ho : Owns r live)
    (hpart : Partings r r' t m job) (halive : r.world.isAlive m = true) {pc : Pc}
    (hstand : stand = .here pc) (hf : pc.flag? = some f) : (m, f) ∈ (r'.world.thread t).flags := by
  rcases h.table.carried hstand hf with hcarries | hhand
  · have hmem := h.carries_mem ho hpart hcarries
    cases h.restocks hpart with
    | keeps _ hkept => exact hkept _ hmem halive
    | gains _ _ heq => exact heq ▸ List.mem_append_left _ hmem
    | enlists g heq => exact heq ▸ hmem
    | loses _ heq =>
      cases hstand.symm.trans heq
      cases hf
  · rw [h.flags_after, hstand]
    simp [Stand.place?, hhand]

theorem owns (h : Acts r r' t m s job site stand gain) (ho : Owns r r.Live)
    (hpart : Partings r r' t m job) (halive : r.world.isAlive m = true)
    (hfresh : (∃ p, ReadMostly.Asks job p) → ∀ f, (r'.world.thread t).inHand? = some (m, f) →
      r.world.IsFresh f) : Owns r' r.Live := by
  refine ho.of_thread h.others ?_ (m := m) ?_ ?_ ?_ ?_
  · have hkeys := ho.keys t
    cases h.restocks hpart with
    | keeps hsub =>
      obtain ⟨flags, hperm, hsublist⟩ := hsub
      exact (hperm.map Prod.fst).nodup_iff.mp (hkeys.sublist (hsublist.map Prod.fst))
    | gains _ _ heq hm =>
      rw [heq, List.map_append, List.nodup_append]
      refine ⟨hkeys, List.nodup_singleton _, ?_⟩
      rintro k hk _ hm' rfl
      rw [List.map_singleton, List.mem_singleton] at hm'
      rw [hm'] at hk
      exact hm hk
    | enlists f heq => rwa [heq]
    | loses _ _ heq =>
      rw [heq, List.map_append] at hkeys
      exact hkeys.of_append_left
  · intro n g hg
    cases h.restocks hpart with
    | keeps hsub => exact .inl (hsub.subset hg)
    | gains hasks hstand heq =>
      rw [heq, List.mem_append, List.mem_singleton] at hg
      rcases hg with hg | hg
      · exact .inl hg
      · cases hg
        have hnew := hfresh ⟨_, hasks⟩ _ (h.inHand_of_registering hstand)
        exact .inr ⟨rfl, ⟨s, h.before⟩, hnew.not_mem⟩
    | enlists f heq => exact .inl (heq ▸ hg)
    | loses _ _ heq =>
      rw [heq]
      exact .inl (List.mem_append_left _ hg)
  · intro k pc f hpc hf
    rw [h.stint'] at hpc
    obtain ⟨pc', hpc', heq⟩ := Option.map_eq_some_iff.mp hpc
    cases heq
    refine h.carried ho hpart halive ?_ hf
    cases stand with
    | here pc'' =>
      cases hpc'
      rfl
    | done answer | fault f => cases hpc'
  · rintro n s₀ ⟨l, hl, hs⟩
    by_cases hn : n = m
    · exact ⟨_, hn ▸ h.after⟩
    · exact ⟨s₀, l, (h.locks n hn).trans hl, hs⟩
  · intro n s' hlive hs'
    by_cases hn : n = m
    · subst hn
      rw [hs'.eq h.after]
      exact h.rolls_self ho hpart halive hlive
    · refine h.rolls_of_ne ho hpart hn hlive (hlive.resolve_right fun hnone => ?_) hs'
      obtain ⟨l, hl, -⟩ := hs'
      rw [h.locks n hn, hnone] at hl
      cases hl

end Acts

end ReaderWriter
