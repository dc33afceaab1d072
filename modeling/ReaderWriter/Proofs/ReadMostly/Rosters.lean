import ReaderWriter.Proofs.ReadMostly.Duties
import ReaderWriter.Proofs.Tallies

/-!
# On the list and off it

A thread comes on the list of a registry when its flag is entered, in a call for a shared lock, and
goes off it as the thread ends. If its flag is up when it begins to leave, it says so once it has
left.

* `Transition.registered_iff`, `Transition.parts`: the table of transitions, read for how a thread
  comes on the list and goes off it.
* `Move.bears`: what a move is for one thread on one lock.
* `Ledger`: how often a thread has come on the list, gone off it, and what it has said.
* `Run.Plays.ledger`: the ledger is right after any events.
-/

namespace ReaderWriter

/-! ## Transitions -/

namespace ReadMostly

namespace Pc

/-- The flag has just been entered into the registry. -/
@[simp]
def isRegistered : Pc → Bool
  | .registered _ _ => true
  | _ => false

/-- The ending thread is about to take its flag off the registry. -/
@[simp]
def isDeparting : Pc → Bool
  | .departing _ _ _ => true
  | _ => false

/-- The flag has just been taken off the registry. -/
@[simp]
def isDeparted : Pc → Bool
  | .departed _ => true
  | _ => false

/-- The thread says that it has left the registry with its flag up. -/
@[simp]
def isAbandoned : Pc → Bool
  | .abandoned => true
  | _ => false

/-- The thread leaves the registry with its flag up, and has not said so yet. -/
@[simp]
def owes : Pc → Bool
  | .departing _ true _ | .departed true => true
  | _ => false

/-- The thread is busy with leaving the registry. -/
def parts : Pc → Bool
  | .departing _ _ _ | .departed _ | .abandoned => true
  | _ => false

theorem parts_eq_false {pc? : Option Pc} (h : pc?.any parts = false) :
    pc?.any isDeparting = false ∧ pc?.any isDeparted = false ∧ pc?.any isAbandoned = false ∧
      pc?.any owes = false := by
  cases pc? with
  | none => exact ⟨rfl, rfl, rfl, rfl⟩
  | some pc => cases pc <;> first | exact ⟨rfl, rfl, rfl, rfl⟩ | cases h

end Pc

variable {sc : Scene} {s s' : Site} {job : Job} {stand : Stand Pc} {gain : Option Mode}

theorem Alike.isRegistered_eq {pc pc' : Pc} (h : Alike pc pc') : pc'.isRegistered = false := by
  cases h with
  | reads h | writes h | reserves h | notifies h => cases h <;> rfl

/-- A flag has just been entered iff the thread was about to enter it and is no longer. -/
theorem Transition.registered_iff (h : Transition sc s job s' stand gain) :
    stand.place?.any Pc.isRegistered = true ↔
      job.pc?.any Pc.registers = true ∧ stand.place?.any Pc.registers = false := by
  have hneither : job.pc?.any Pc.registers = false → stand.place?.any Pc.isRegistered = false →
      (stand.place?.any Pc.isRegistered = true ↔
        job.pc?.any Pc.registers = true ∧ stand.place?.any Pc.registers = false) := by
    intro hjob hstand
    simp [hjob, hstand]
  have hland : ∀ {f p c}, Landing f p c stand gain → stand.place?.any Pc.isRegistered = false :=
    fun hland => hland.any_eq_false rfl rfl rfl
  have hlook : ∀ {f b s₀}, Look f b s₀ s' stand gain →
      stand.place?.any Pc.isRegistered = false :=
    fun hl => hl.any_eq_false rfl rfl
  have halike : ∀ {pc pc' : Pc}, Alike pc pc' →
      (pc'.isRegistered = true ↔ pc.registers = true ∧ pc'.registers = false) := by
    intro pc pc' halike
    rw [halike.isRegistered_eq, halike.inHand.2]
    simp
  cases h with
  | queue henters | claim b henters => exact hneither henters.pc?_inHand.2 rfl
  | arrive hasks _ hl => exact hneither hasks.pc?_inHand.2 (hland hl)
  | register hasks | registerLater hasks | registerNever hasks | noFlag _ hasks =>
    exact hneither hasks.pc?_inHand.2 rfl
  | noNodes hasks _ hplace => exact hneither hasks.pc?_inHand.2 (by rw [hplace]; rfl)
  | enlist p f => exact iff_of_true rfl ⟨rfl, rfl⟩
  | enlisted hl => exact hneither rfl (hland hl)
  | arriveLater harrives => exact hneither harrives.pc_inHand.2 rfl
  | look b harrives _ hl => exact hneither harrives.pc_inHand.2 (hlook hl)
  | lookAgain hl => exact hneither rfl (hlook hl)
  | read h | readLater h | write h | writeLater h | await h | notify _ h | notifyLater h =>
    exact halike (h.alike _)
  | _ => exact hneither rfl rfl

theorem Transition.of_registered (h : Transition sc s job s' stand gain)
    (hregistered : stand.place?.any Pc.isRegistered = true) :
    ∃ p f e, job = .from (.registering p f e) := by
  obtain ⟨pc, hjob, hpc⟩ := (from_iff _).mpr (h.registered_iff.mp hregistered).1
  cases pc with
  | registering p f e => exact ⟨p, f, e, hjob⟩
  | _ => cases hpc

/-- What a transition has to do with the end of its thread. -/
inductive Parts (s s' : Site) (job : Job) (stand : Stand Pc) : Prop
  | apart : job.pc?.any Pc.parts = false → stand.place?.any Pc.parts = false →
      (∀ f, job ≠ .depart f) → Parts s s' job stand
  | turns {f : Flag} {e : Edit} : job = .depart f →
      stand = .here (.departing f (s.flags.isRaised f) e) → s'.flags.isRaised f = false →
      Parts s s' job stand
  | waits {f : Flag} {wasUp : Bool} {e e' : Edit} : job = .from (.departing f wasUp e) →
      e ≠ .inside → stand = .here (.departing f wasUp e') → s'.flags = s.flags →
      Parts s s' job stand
  | strikes {f : Flag} {wasUp : Bool} : job = .from (.departing f wasUp .inside) →
      stand = .here (.departed wasUp) → s'.flags = s.flags → Parts s s' job stand
  | tells : job = .from (.departed true) → stand = .here .abandoned → Parts s s' job stand
  | ends : job = .from (.departed false) → stand = .done .unit → Parts s s' job stand
  | said : job = .from .abandoned → stand.place?.any Pc.parts = false → Parts s s' job stand

theorem Transition.parts (h : Transition sc s job s' stand gain) : Parts s s' job stand := by
  have hasks : ∀ {p}, Asks job p → stand.place?.any Pc.parts = false → Parts s s' job stand :=
    fun hasks hstand => .apart (by rw [hasks.pc?_eq]; rfl) hstand hasks.ne_depart
  have hfrom : ∀ {pc : Pc}, job = .from pc → pc.parts = false →
      stand.place?.any Pc.parts = false → Parts s s' job stand := by
    rintro pc rfl hpc hstand
    exact .apart hpc hstand (by rintro _ ⟨⟩)
  cases h with
  | queue henters | claim b henters =>
    refine .apart ?_ rfl henters.ne_depart
    cases henters <;> rfl
  | arrive h _ hl => exact hasks h (hl.any_eq_false rfl rfl rfl)
  | register h | registerLater h | registerNever h | noFlag _ h => exact hasks h rfl
  | noNodes h _ hplace => exact hasks h (by rw [hplace]; rfl)
  | enlisted hl => exact hfrom rfl rfl (hl.any_eq_false rfl rfl rfl)
  | arriveLater harrives => exact hfrom rfl (by cases harrives <;> rfl) rfl
  | look b harrives _ hl =>
    exact hfrom rfl (by cases harrives <;> rfl) (hl.any_eq_false rfl rfl)
  | lookAgain hl => exact hfrom rfl rfl (hl.any_eq_false rfl rfl)
  | lowerAndWrite hup | lowerAndWait hup =>
    exact .turns rfl (by rw [hup]) (by simp [Site.writing, Site.withRegistry, Site.put])
  | departAndWrite hdown | departAndWait hdown => exact .turns rfl (by rw [hdown]) hdown
  | strike f wasUp => exact .strikes rfl rfl rfl
  | struckUp => exact .tells rfl rfl
  | struckDown => exact .ends rfl rfl
  | abandonTo | abandonFree => exact .said rfl rfl
  | write h | writeLater h | await h =>
    cases h with
    | registering => exact hfrom rfl rfl rfl
    | departing => exact .waits rfl (by rintro ⟨⟩) rfl rfl
  | read h | readLater h | notify _ h | notifyLater h =>
    exact hfrom rfl (by cases h <;> rfl) (by cases h <;> rfl)
  | giveUp | claimHastily | release | releaseFault | leave => exact .apart rfl rfl (by rintro _ ⟨⟩)
  | _ => exact hfrom rfl rfl rfl

end ReadMostly

/-! ## Moves -/

open ReadMostly (Flag Site Pc Parts)

variable {r r' : Run} {e : Event} {t u : ThreadId} {m n : Nat} {l : Lock} {job : Job}
  {s : ReadMostly.State} {site : Site} {stand : Stand Pc} {gain : Option Mode} {f : Flag}

theorem Run.registers_iff_pc? :
    (r.world.thread t).Registers m ↔ (r.pc? m t).any Pc.registers = true := by
  rw [Option.any_eq_true]
  exact exists_congr fun pc => and_congr_left fun _ => Run.pc?_eq_some_iff.symm

/-- The thread has a flag on the lock that has been entered into its registry. -/
def Run.Lists (r : Run) (m : Nat) (t : ThreadId) : Prop :=
  ∃ f, (m, f) ∈ (r.world.thread t).flags ∧ ¬ (r.world.thread t).Registers m

namespace Acts

theorem pc?_before (h : Acts r r' t m s job site stand gain) : r.pc? m t = job.pc? :=
  Run.crowdPlace_eq (s := s) h.stint

theorem pc?_after (h : Acts r r' t m s job site stand gain) : r'.pc? m t = stand.place? :=
  Run.crowdPlace_eq (s := s) h.stint'

theorem mem_flags_of_ne (h : Acts r r' t m s job site stand gain) (hpart : Partings r r' t m job)
    (hn : n ≠ m) :
    ((n, f) ∈ (r'.world.thread t).flags → (n, f) ∈ (r.world.thread t).flags) ∧
      (r.world.isAlive n = true → (n, f) ∈ (r.world.thread t).flags →
        (n, f) ∈ (r'.world.thread t).flags) := by
  cases h.restocks hpart with
  | keeps hsub hkept => exact ⟨fun h => hsub.subset h, fun halive h => hkept _ h halive⟩
  | gains _ _ heq | loses _ _ heq => simp [heq, hn]
  | enlists g heq => simp [heq]

/-- A flag that is taken off the registry is its thread's no longer. -/
theorem flags_of_departed (h : Acts r r' t m s job site stand gain)
    (hpart : Partings r r' t m job) {wasUp : Bool} (hjob : job = .from (.departing f wasUp .inside))
    (hstand : stand = .here (.departed wasUp)) :
    (r.world.thread t).flags = (r'.world.thread t).flags ++ [(m, f)] ∧
      site.lock.registry.entries = s.registry.entries.erase f := by
  have hbefore := h.flags_before
  have hafter := h.flags_after
  subst hjob
  subst hstand
  cases h.table.stocks with
  | keeps _ _ hhand => cases hhand
  | begins _ _ _ _ _ hstand | enlists _ _ _ hstand | departs _ _ _ hstand => cases hstand
  | remembers _ _ hjob => cases hjob
  | strikes hnodes hentries hjob =>
    cases hjob
    refine ⟨?_, hentries⟩
    rw [hafter, hbefore, hnodes, hpart.of_ne_depart (by simp)]
    simp [Stand.place?, Job.pc?, Pc.flagInHand?]

end Acts

/-- What a move is for one thread on one lock: a job of a call, a job of its end, or nothing. -/
inductive Bears (r : Run) (e : Event) (r' : Run) (m : Nat) (t : ThreadId) : Prop
  | calls {l : Lock} {s : ReadMostly.State} {job : Job} {op : Operation} {site : Site}
      {stand : Stand Pc} : Operates r e r' t m l job op →
      Acts r r' t m s job site stand (Hold.granted? op stand) → Bears r e r' m t
  | departs {l : Lock} {s : ReadMostly.State} {job : Job} {site : Site} {stand : Stand Pc} :
      Departs r r' t m l job → Acts r r' t m s job site stand none → Bears r e r' m t
  | rests : r'.pc? m t = r.pc? m t →
      (∀ f, (m, f) ∈ (r'.world.thread t).flags → (m, f) ∈ (r.world.thread t).flags) →
      (r.world.isAlive m = true → ∀ f, (m, f) ∈ (r.world.thread t).flags →
        (m, f) ∈ (r'.world.thread t).flags) →
      ((r'.world.thread t).Lives → (r.world.thread t).Lives) → Bears r e r' m t

theorem Bears.of_thread (h : r'.world.thread t = r.world.thread t) : Bears r e r' m t :=
  .rests (Run.pc?_congr h) (fun f hf => by rwa [h] at hf) (fun _ f hf => by rwa [h])
    (fun hlives => by rwa [h] at hlives)

theorem Run.pc?_eq_none (h : ∀ n pc, (r.world.thread t).stint? ≠ some (n, .readMostly pc)) :
    r.pc? m t = none :=
  Option.eq_none_iff_forall_ne_some.mpr fun pc hpc => h m pc (Run.pc?_eq_some_iff.mp hpc)

theorem Operates.bears {op : Operation} (h : Operates r e r' t n l job op) (m : Nat) :
    Bears r e r' m t := by
  by_cases halg : l.body.algorithm = .readMostly
  · obtain ⟨s, hs⟩ := Body.exists_readMostly halg
    obtain ⟨site, stand, hacts, -⟩ := h.acts hs
    by_cases hn : m = n
    · subst hn
      exact .calls h hacts
    · refine .rests ?_ (fun f => (hacts.mem_flags_of_ne h.partings hn).1)
        (fun halive f => (hacts.mem_flags_of_ne h.partings hn).2 halive) fun _ => h.lives
      rw [Run.pc?, h.place_of_ne_lock hn, Run.pc?]
  · obtain ⟨-, -, hstint, hstint'⟩ := h.plain halg
    have hflags := h.flags_eq_of_plain halg
    exact .rests ((Run.pc?_eq_none hstint').trans (Run.pc?_eq_none hstint).symm)
      (fun f hf => hflags ▸ hf) (fun _ f hf => hflags ▸ hf) fun _ => h.lives

theorem Departs.bears (h : Departs r r' t n l job) (m : Nat) : Bears r e r' m t := by
  obtain ⟨s, hs⟩ := Body.exists_readMostly (World.work_departs t h.lock h.suits h.departs).1
  obtain ⟨site, stand, hacts, -⟩ := h.acts hs
  by_cases hn : m = n
  · subst hn
    exact .departs h hacts
  · refine .rests ?_ (fun f => (hacts.mem_flags_of_ne h.partings hn).1)
      (fun halive f => (hacts.mem_flags_of_ne h.partings hn).2 halive) fun hlives => ?_
    · rw [Run.pc?, h.place_of_ne_lock hn, Run.pc?]
    · obtain ⟨ending, hact⟩ := h.ends
      exact absurd hlives (Run.not_lives_of_ending hact)

theorem Shifts.bears {live : Nat → Prop} (h : Shifts r r' t) (ho : Owns r live) (m : Nat) :
    Bears r e r' m t := by
  refine .rests ?_ (fun f hf => h.sublist.subset hf) (fun halive f hf => ?_)
    fun hlives => absurd hlives h.ends
  · rw [Run.pc?, Run.place, h.stint', Run.pc?, Run.place, h.stint]
  · obtain ⟨s, l, hl, hs⟩ := ho.placed hf
    exact h.kept m f l hf hl (by rw [hs]; rfl) halive

/-- What a move is for one thread on one lock. -/
theorem Move.bears {live : Nat → Prop} (h : Move r e r') (ho : Owns r live) (m : Nat)
    (t : ThreadId) : Bears r e r' m t := by
  cases h with
  | @operate u n l job op h =>
    by_cases hu : t = u
    · subst hu
      exact h.bears m
    · exact .of_thread (h.others t hu)
  | @depart u n l job h =>
    by_cases hu : t = u
    · subst hu
      exact h.bears m
    · exact .of_thread (h.others t hu)
  | @shift u h =>
    by_cases hu : t = u
    · subst hu
      exact h.bears ho m
    · exact .of_thread (h.others t hu)
  | drop h => exact .of_thread (h.threads t)
  | wake h => exact .of_thread (h.threads t)
  | make h => exact .of_thread (h.threads t)
  | rest h => exact .of_thread (h.threads t)

/-! ## Being on the list -/

namespace Acts

theorem registers_before (h : Acts r r' t m s job site stand gain) :
    (r.world.thread t).Registers m ↔ job.pc?.any Pc.registers = true := by
  rw [Run.registers_iff_pc?, h.pc?_before]

theorem registers_after (h : Acts r r' t m s job site stand gain) :
    (r'.world.thread t).Registers m ↔ stand.place?.any Pc.registers = true := by
  rw [Run.registers_iff_pc?, h.pc?_after]

theorem lists_iff (h : Acts r r' t m s job site stand gain) (hpart : Partings r r' t m job)
    (halive : r.world.isAlive m = true) (hregistered : stand.place?.any Pc.isRegistered = false)
    (hdeparted : stand.place?.any Pc.isDeparted = false) : r'.Lists m t ↔ r.Lists m t := by
  unfold Run.Lists
  cases h.restocks hpart with
  | keeps hsub hkept _ hregisters =>
    exact exists_congr fun f => and_congr ⟨fun hf => hsub.subset hf, fun hf => hkept _ hf halive⟩
      (not_congr hregisters)
  | gains _ _ _ hnone _ hregisters =>
    refine iff_of_false (fun ⟨_, _, hnot⟩ => hnot hregisters) ?_
    rintro ⟨f, hf, -⟩
    exact hnone (List.mem_map.mpr ⟨_, hf, rfl⟩)
  | enlists _ _ _ _ hbefore hafter =>
    rw [h.registers_after, Bool.not_eq_true] at hafter
    have hnew := h.table.registered_iff.mpr ⟨h.registers_before.mp hbefore, hafter⟩
    rw [hregistered] at hnew
    cases hnew
  | loses _ hstand =>
    rw [hstand] at hdeparted
    cases hdeparted

theorem lists_of_registered (h : Acts r r' t m s job site stand gain)
    (hpart : Partings r r' t m job) (hregistered : stand.place?.any Pc.isRegistered = true) :
    ¬ r.Lists m t ∧ r'.Lists m t := by
  obtain ⟨hbefore, hafter⟩ := h.table.registered_iff.mp hregistered
  have hregisters := h.registers_before.mpr hbefore
  have hdone : ¬ (r'.world.thread t).Registers m := by
    rw [h.registers_after, hafter]
    exact Bool.false_ne_true
  refine ⟨fun ⟨_, _, hnot⟩ => hnot hregisters, ?_⟩
  cases h.restocks hpart with
  | keeps _ _ _ hsame => exact absurd (hsame.mpr hregisters) hdone
  | gains _ _ _ _ _ hregisters' => exact absurd hregisters' hdone
  | enlists f heq hmem => exact ⟨f, heq ▸ hmem, hdone⟩
  | loses hjob =>
    rw [hjob] at hbefore
    cases hbefore

theorem lists_of_departed (h : Acts r r' t m s job site stand gain)
    (hpart : Partings r r' t m job) {live : Nat → Prop} (ho : Owns r live) {wasUp : Bool}
    (hjob : job = .from (.departing f wasUp .inside)) (hstand : stand = .here (.departed wasUp)) :
    r.Lists m t ∧ ¬ r'.Lists m t := by
  obtain ⟨hflags, -⟩ := h.flags_of_departed hpart hjob hstand
  refine ⟨⟨f, by simp [hflags], ?_⟩, ?_⟩
  · rw [h.registers_before, hjob]
    exact Bool.false_ne_true
  · rintro ⟨g, hg, -⟩
    have hkeys := ho.keys t
    rw [hflags, List.map_append, List.nodup_append] at hkeys
    exact hkeys.2.2 m (List.mem_map.mpr ⟨_, hg, rfl⟩) m (by simp) rfl

end Acts

/-- Whether the thread has a flag on the lock that is up. -/
def Run.hasFlagUp (r : Run) (m : Nat) (t : ThreadId) : Bool :=
  (r.world.thread t).flags.any fun x => x.1 == m && r.world.flags.isRaised x.2

theorem Owns.hasFlagUp_eq {live : Nat → Prop} (ho : Owns r live)
    (hf : (m, f) ∈ (r.world.thread t).flags) :
    r.hasFlagUp m t = r.world.flags.isRaised f := by
  rw [Bool.eq_iff_iff, Run.hasFlagUp, List.any_eq_true]
  constructor
  · rintro ⟨⟨n, g⟩, hg, hup⟩
    simp only [Bool.and_eq_true, beq_iff_eq] at hup
    obtain ⟨rfl, hup⟩ := hup
    rwa [ho.flag_eq hf hg]
  · intro hup
    exact ⟨_, hf, by simpa using hup⟩

/-! ## The ledger -/

/-- How often a thread has been entered into the registry of a lock and taken off it, how often it
has begun to leave the registry with its flag up, and how often it has said so. -/
structure Ledger (r : Run) (m : Nat) (t : ThreadId) (live : Prop)
    (entered left raised said : Nat) : Prop where
  listed : live → (r.Lists m t → entered = left + 1) ∧ (¬ r.Lists m t → entered = left)
  once : entered ≤ 1
  left_le : left ≤ entered
  ends : 0 < left → ¬ (r.world.thread t).Lives
  owed : raised = said + ((r.pc? m t).any Pc.owes).toNat
  told : said + ((r.pc? m t).any Pc.isDeparted).toNat ≤ left

namespace Ledger

variable {entered left raised said : Nat}

theorem of_rests (h : Ledger r m t (r.Live m) entered left raised said) (ho : Owns r r.Live)
    (hpc : r'.pc? m t = r.pc? m t)
    (hsub : ∀ f, (m, f) ∈ (r'.world.thread t).flags → (m, f) ∈ (r.world.thread t).flags)
    (hkept : r.world.isAlive m = true → ∀ f, (m, f) ∈ (r.world.thread t).flags →
      (m, f) ∈ (r'.world.thread t).flags)
    (hlives : (r'.world.thread t).Lives → (r.world.thread t).Lives) :
    Ledger r' m t (r.Live m) entered left raised said := by
  have hregisters : (r'.world.thread t).Registers m ↔ (r.world.thread t).Registers m := by
    rw [Run.registers_iff_pc?, hpc, Run.registers_iff_pc?]
  refine ⟨fun hlive => ?_, h.once, h.left_le, fun hleft => mt hlives (h.ends hleft), ?_, ?_⟩
  · have hlists : r'.Lists m t ↔ r.Lists m t := by
      refine exists_congr fun f => and_congr ⟨hsub f, fun hf => ?_⟩ (not_congr hregisters)
      -- Nobody has a flag on a lock that has not been made.
      refine hkept (hlive.resolve_right fun hnone => ?_) f hf
      obtain ⟨s, l, hl, -⟩ := ho.placed hf
      cases hl.symm.trans hnone
    rw [hlists]
    exact h.listed hlive
  · rw [hpc]
    exact h.owed
  · rw [hpc]
    exact h.told

theorem of_calls (h : Ledger r m t (r.Live m) entered left raised said) {op : Operation}
    (hop : Operates r e r' t m l job op) (hacts : Acts r r' t m s job site stand gain) :
    Ledger r' m t (r.Live m) (entered + (r.comes r' m t Pc.isRegistered).toNat) left raised said ∧
      r.comes r' m t Pc.isDeparted = false ∧ r.comes r' m t Pc.isDeparting = false ∧
      r.comes r' m t Pc.isAbandoned = false := by
  have halive := hop.isAlive
  have hserves := hop.serves
  -- No job of a call has to do with the end of a thread.
  obtain ⟨hbefore, hafter⟩ : job.pc?.any Pc.parts = false ∧ stand.place?.any Pc.parts = false := by
    cases hacts.table.parts with
    | apart hbefore hafter => exact ⟨hbefore, hafter⟩
    | turns hjob | waits hjob | strikes hjob | tells hjob | ends hjob | said hjob =>
      rw [hjob] at hserves
      exact hserves.elim
  obtain ⟨hdeparting, hdeparted, habandoned, howes⟩ := ReadMostly.Pc.parts_eq_false hafter
  obtain ⟨-, hdeparted₀, -, howes₀⟩ := ReadMostly.Pc.parts_eq_false hbefore
  have howed := h.owed
  have htold := h.told
  simp only [Run.comes, hacts.pc?_before, hacts.pc?_after, hdeparting, hdeparted, habandoned,
    Bool.false_and, and_self, and_true]
  rw [hacts.pc?_before] at howed htold
  have hnone : left = 0 := Nat.eq_zero_of_not_pos fun hpos => h.ends hpos hop.lives
  cases hregistered : stand.place?.any Pc.isRegistered with
  | true =>
    obtain ⟨hnot, hlists⟩ := hacts.lists_of_registered hop.partings hregistered
    have hentered : entered = left := (h.listed (.inl halive)).2 hnot
    have hold : job.pc?.any Pc.isRegistered = false := by
      obtain ⟨p, f, a, rfl⟩ := hacts.table.of_registered hregistered
      rfl
    rw [hold]
    refine ⟨fun _ => ⟨fun _ => by simp [hentered], fun h => absurd hlists h⟩, ?_, ?_, ?_, ?_, ?_⟩
    · simp [hentered, hnone]
    · simp [hnone]
    · exact fun hpos => absurd hpos (by omega)
    · rw [hacts.pc?_after, howes]
      rwa [howes₀] at howed
    · rw [hacts.pc?_after, hdeparted]
      rwa [hdeparted₀] at htold
  | false =>
    rw [Bool.false_and, Bool.toNat_false, Nat.add_zero]
    refine ⟨fun hlive => ?_, h.once, h.left_le, fun hpos => absurd hpos (by omega), ?_, ?_⟩
    · rw [hacts.lists_iff hop.partings halive hregistered hdeparted]
      exact h.listed hlive
    · rw [hacts.pc?_after, howes]
      rwa [howes₀] at howed
    · rw [hacts.pc?_after, hdeparted]
      rwa [hdeparted₀] at htold

theorem of_departs (h : Ledger r m t (r.Live m) entered left raised said) (ho : Owns r r.Live)
    (hdep : Departs r r' t m l job) (hacts : Acts r r' t m s job site stand gain) :
    Ledger r' m t (r.Live m) entered (left + (r.comes r' m t Pc.isDeparted).toNat)
        (raised + (r.comes r' m t Pc.isDeparting && r.hasFlagUp m t).toNat)
        (said + (r.comes r' m t Pc.isAbandoned).toNat) ∧
      r.comes r' m t Pc.isRegistered = false := by
  have hpart := hdep.partings
  have hends : ¬ (r'.world.thread t).Lives := by
    obtain ⟨ending, hact⟩ := hdep.ends
    exact Run.not_lives_of_ending hact
  have hregistered : stand.place?.any Pc.isRegistered = false := by
    refine Bool.eq_false_iff.mpr fun hregistered => ?_
    obtain ⟨p, f, a, rfl⟩ := hacts.table.of_registered hregistered
    exact hdep.departs
  have hlisted : stand.place?.any Pc.isDeparted = false → r.Live m →
      (r'.Lists m t → entered = left + 1) ∧ (¬ r'.Lists m t → entered = left) := by
    intro hdeparted hlive
    rw [hacts.lists_iff hpart hdep.alive hregistered hdeparted]
    exact h.listed hlive
  have howed := h.owed
  have htold := h.told
  simp only [Run.comes, hacts.pc?_before, hacts.pc?_after, hregistered, Bool.false_and, and_true]
  rw [hacts.pc?_before] at howed htold
  cases hacts.table.parts with
  | apart hbefore hafter =>
    obtain ⟨hdeparting, hdeparted, habandoned, howes⟩ := ReadMostly.Pc.parts_eq_false hafter
    obtain ⟨-, hdeparted₀, -, howes₀⟩ := ReadMostly.Pc.parts_eq_false hbefore
    simp only [hdeparting, hdeparted, habandoned, Bool.false_and, Bool.toNat_false, Nat.add_zero]
    refine ⟨hlisted hdeparted, h.once, h.left_le, fun _ => hends, ?_, ?_⟩
    · rw [hacts.pc?_after, howes]
      rwa [howes₀] at howed
    · rw [hacts.pc?_after, hdeparted]
      rwa [hdeparted₀] at htold
  | @turns f e hjob hstand =>
    subst hjob hstand
    have hmem : (m, f) ∈ (r.world.thread t).flags := hacts.carries_mem ho hpart (.depart f)
    rw [ho.hasFlagUp_eq hmem]
    refine ⟨hlisted rfl, h.once, h.left_le, fun _ => hends, ?_, ?_⟩ <;> rw [hacts.pc?_after]
    · cases hup : r.world.flags.isRaised f <;> simp [Job.pc?, Stand.place?, howed]
    · simpa [Job.pc?, Stand.place?] using htold
  | @waits f wasUp e e' hjob _ hstand =>
    subst hjob hstand
    refine ⟨hlisted rfl, h.once, h.left_le, fun _ => hends, ?_, ?_⟩ <;> rw [hacts.pc?_after]
    · cases wasUp <;> simpa [Job.pc?, Stand.place?] using howed
    · simpa [Job.pc?, Stand.place?] using htold
  | @strikes f wasUp hjob hstand =>
    subst hjob hstand
    obtain ⟨hlists, hnot⟩ := hacts.lists_of_departed hpart ho rfl rfl
    have hentered := (h.listed (.inl hdep.alive)).1 hlists
    refine ⟨fun _ => ⟨fun h => absurd h hnot, fun _ => hentered⟩, h.once, ?_, fun _ => hends,
      ?_, ?_⟩ <;> try rw [hacts.pc?_after]
    · exact Nat.le_of_eq hentered.symm
    · cases wasUp <;> simpa [Job.pc?, Stand.place?] using howed
    · simpa [Job.pc?, Stand.place?] using htold
  | tells hjob hstand =>
    subst hjob hstand
    refine ⟨hlisted rfl, h.once, h.left_le, fun _ => hends, ?_, ?_⟩ <;> rw [hacts.pc?_after]
    · simpa [Job.pc?, Stand.place?] using howed
    · simpa [Job.pc?, Stand.place?] using htold
  | ends hjob hstand =>
    subst hjob hstand
    refine ⟨hlisted rfl, h.once, h.left_le, fun _ => hends, ?_, ?_⟩ <;> rw [hacts.pc?_after]
    · simpa [Job.pc?, Stand.place?] using howed
    · simpa [Job.pc?, Stand.place?] using Nat.le_of_succ_le htold
  | said hjob hafter =>
    obtain ⟨hdeparting, hdeparted, habandoned, howes⟩ := ReadMostly.Pc.parts_eq_false hafter
    subst hjob
    simp only [hdeparting, hdeparted, habandoned, Bool.false_and, Bool.toNat_false, Nat.add_zero]
    refine ⟨hlisted hdeparted, h.once, h.left_le, fun _ => hends, ?_, ?_⟩
    · rw [hacts.pc?_after, howes]
      exact howed
    · rw [hacts.pc?_after, hdeparted]
      exact htold

/-- A move is entered into the ledger. -/
theorem of_move (h : Ledger r m t (r.Live m) entered left raised said) (ho : Owns r r.Live)
    (hmove : Move r e r') :
    Ledger r' m t (r.Live m) (entered + (r.comes r' m t Pc.isRegistered).toNat)
      (left + (r.comes r' m t Pc.isDeparted).toNat)
      (raised + (r.comes r' m t Pc.isDeparting && r.hasFlagUp m t).toNat)
      (said + (r.comes r' m t Pc.isAbandoned).toNat) := by
  cases hmove.bears ho m t with
  | calls hop hacts =>
    obtain ⟨hledger, hdeparted, hdeparting, habandoned⟩ := h.of_calls hop hacts
    simpa [hdeparted, hdeparting, habandoned] using hledger
  | departs hdep hacts =>
    obtain ⟨hledger, hregistered⟩ := h.of_departs ho hdep hacts
    simpa [hregistered] using hledger
  | rests hpc hsub hkept hlives =>
    simpa [Run.comes, hpc] using h.of_rests ho hpc hsub hkept hlives

theorem congr {live live' : Prop} (h : Ledger r m t live entered left raised said)
    (hthread : r'.world.thread t = r.world.thread t) (hlive : live' → live) :
    Ledger r' m t live' entered left raised said := by
  have hpc : r'.pc? m t = r.pc? m t := Run.pc?_congr hthread
  refine ⟨fun hl => ?_, h.once, h.left_le, ?_, ?_, ?_⟩
  · have hlists : r'.Lists m t ↔ r.Lists m t := by
      unfold Run.Lists
      rw [hthread]
    rw [hlists]
    exact h.listed (hlive hl)
  · rw [hthread]
    exact h.ends
  · rw [hpc]
    exact h.owed
  · rw [hpc]
    exact h.told

theorem initial (host : Host) :
    Ledger (.initial host) m t ((Run.initial host).Live m) 0 0 0 0 where
  listed := fun _ => ⟨fun ⟨_, hf, _⟩ => (nomatch hf), fun _ => rfl⟩
  once := Nat.zero_le 1
  left_le := Nat.le_refl 0
  ends h := absurd h (Nat.lt_irrefl 0)
  owed := rfl
  told := Nat.le_refl 0

end Ledger

namespace Run

/-- The thread enters its flag into the registry of the lock. -/
def enrols (m : Nat) (t : ThreadId) : Run → Event → Bool := comesTo Pc.isRegistered m t

/-- The thread takes its flag off the registry of the lock. -/
def withdraws (m : Nat) (t : ThreadId) : Run → Event → Bool := comesTo Pc.isDeparted m t

/-- The thread begins to leave the registry of the lock with its flag up. -/
def breaksOff (m : Nat) (t : ThreadId) (r : Run) (e : Event) : Bool :=
  comesTo Pc.isDeparting m t r e && r.hasFlagUp m t

/-- An event is a move from the point of view of the threads. -/
theorem after_threads (ho : r.Orderly) (hp : r.world.Permits e) :
    ∃ r₁, Move r e r₁ ∧ (∀ u, (r.after e).world.thread u = r₁.world.thread u) ∧
      ∀ n, (r.after e).Live n → r₁.Live n := by
  obtain ⟨⟨r₁, hmove, ⟨heq, -⟩ | ⟨n, -, hdis⟩⟩, -⟩ := after_moves ho hp
  · exact ⟨r₁, hmove, fun u => by rw [heq], fun n hn => heq ▸ hn⟩
  · exact ⟨r₁, hmove, hdis.threads, fun n hn => hdis.live hn⟩

theorem comesTo_eq {r₁ : Run} (h : (r.after e).world.thread t = r₁.world.thread t)
    (kind : Pc → Bool) : comesTo kind m t r e = r.comes r₁ m t kind := by
  simp only [comesTo, comes, pc?_congr h]

/-- The ledger is right after any events. -/
theorem Plays.ledger {host : Host} {events : List Event}
    (h : (initial host).Plays HandsOutFresh events) (m : Nat) (t : ThreadId) :
    Ledger (play (.initial host) events) m t ((play (.initial host) events).Live m)
      (tally (enrols m t) (.initial host) events) (tally (withdraws m t) (.initial host) events)
      (tally (breaksOff m t) (.initial host) events)
      (tally (comesTo Pc.isAbandoned m t) (.initial host) events) := by
  refine h.induction (P := fun events =>
    Ledger (play (.initial host) events) m t ((play (.initial host) events).Live m)
      (tally (enrols m t) (.initial host) events) (tally (withdraws m t) (.initial host) events)
      (tally (breaksOff m t) (.initial host) events)
      (tally (comesTo Pc.isAbandoned m t) (.initial host) events)) (.initial host) ?_
  intro events e hplays hp _ ih
  have hreach : Reachable HandsOutFresh (play (.initial host) events) := Reachable.start.play hplays
  obtain ⟨r₁, hmove, hthreads, hlive⟩ := after_threads hreach.orderly hp
  have hledger := ih.of_move (hreach.owns fun _ _ h => h) hmove
  simp only [tally_concat, play_concat, enrols, withdraws, breaksOff, comesTo_eq (hthreads t)]
  exact hledger.congr (hthreads t) fun hl => hmove.live m (hlive m hl)

end Run

end ReaderWriter
