import ReaderWriter.Proofs.ReadMostly.Crowd

/-!
# Exclusion in a read-mostly lock

Readers and writers exclude each other although they share no word. The gate admits one writer at a
time; only the thread that has the gate changes the claim; and a flag is up iff its thread holds a
shared lock or is about to look at the claim. So a writer that finds every listed flag down may set
the claim to `yes`: nobody holds a shared lock then, and whoever looks at the claim later sees it.

* `Crowd.Guarded`: what always holds of a crowd.
* `Crowd.Reachable.guarded`: it does.
-/

namespace ReaderWriter

namespace ReadMostly

/-- What the claim has to do with a place concerns only the thread that has the gate. -/
theorem Pc.fits_of_not_hasGate {pc : Pc} (h : pc.hasGate = false) (claim : Claim) :
    pc.Fits claim := by
  cases pc with
  | draining told stage backoff => cases stage <;> trivial
  | waiting f stage backoff => cases stage <;> trivial
  | _ => trivial

namespace Crowd

variable {c c' : Crowd} {t u : ThreadId} {job : Job} {stand : Stand Pc} {gain : Option Mode}
  {mode : Mode} {f : Flag}

/-- The thread has the gate: it holds the unique lock, or stands at a place that goes with it. -/
def HasGate (c : Crowd) (t : ThreadId) : Prop :=
  (c.place t).any Pc.hasGate = true ∨ t ∈ c.held .unique

/-- The thread's flag has to be up: it holds a shared lock, or stands at a place at which the flag
flies. -/
def Flies (c : Crowd) (t : ThreadId) : Prop :=
  t ∈ c.held .shared ∨ (c.place t).any Pc.flies = true

/-- The thread has been let in for reading. -/
def IsIn (c : Crowd) (t : ThreadId) : Prop :=
  t ∈ c.held .shared ∨ c.place t = some .fastPath

/-- What always holds of a crowd. -/
structure Guarded (c : Crowd) : Prop where
  nodup : ∀ mode, (c.held mode).Nodup
  /-- The gate is with the thread that has it, which holds the unique lock or is on its way. -/
  gate : c.lock.gate.HeldBy c.HasGate
  onWay : ∀ t, (c.place t).any Pc.hasGate = true → t ∉ c.held .unique
  /-- The claim is what the places of the threads say. -/
  fits : ∀ t pc, c.place t = some pc → pc.Fits c.lock.claim
  claimed : ∀ t ∈ c.held .unique, c.lock.claim = .yes
  free : c.lock.gate = none → c.lock.claim ≠ .yes
  /-- The flags are up that have to be. -/
  up : ∀ t f, c.flag t = some f → (c.flags.isRaised f = true ↔ c.Flies t)
  flagged : ∀ t, c.Flies t → c.flag t ≠ none
  apart : ∀ t, (c.place t).any Pc.apart = true → t ∉ c.held .shared
  /-- Nobody is in for reading while a writer has the lock. -/
  alone : ∀ t, c.IsIn t → c.lock.claim ≠ .yes

/-! ## Turns -/

/-- A thread holds the lock still when its job has begun. -/
def Retains (c : Crowd) (t : ThreadId) (job : Job) (mode : Mode) : Prop :=
  t ∈ c.held mode ∧ job ≠ .start (.release mode)

/-- A turn of a thread, be it in a call or at its end: who holds the lock afterwards. -/
structure Turns (c c' : Crowd) (t : ThreadId) (job : Job) (stand : Stand Pc) (gain : Option Mode) :
    Prop extends Acts c c' t job stand gain where
  releases : ∀ mode, job = .start (.release mode) → t ∈ c.held mode
  asks : ∀ p, Asks job p → t ∉ c.held .shared
  nodup : ∀ mode, (c'.held mode).Nodup
  keeps : ∀ u, u ≠ t → ∀ mode, u ∈ c'.held mode ↔ u ∈ c.held mode
  unique : t ∈ c'.held .unique ↔ gain = some .unique ∨ c.Retains t job .unique
  shared : t ∈ c'.held .shared ↔
    gain = some .shared ∨ c.Retains t job .shared ∧ ∀ f, job ≠ .depart f

theorem place?_of_from {pc : Pc} (hacts : Acts c c' t job stand gain) (hjob : job = .from pc) :
    c.place t = some pc := by
  rw [hacts.place, hjob]
  rfl

theorem mem_begun (hnodup : (c.held mode).Nodup) :
    t ∈ begun c.held t job mode ↔ c.Retains t job mode := by
  unfold begun Retains
  split
  · next hjob => simp [hnodup.mem_erase_iff, hjob]
  · next hjob => simp [hjob]

/-- A thread is granted nothing that it holds. -/
theorem Guarded.not_retains (h : c.Guarded) (hacts : Acts c c' t job stand gain)
    (hasks : ∀ p, Asks job p → t ∉ c.held .shared) (hgain : gain = some mode) :
    ¬ c.Retains t job mode := by
  rintro ⟨hheld, -⟩
  obtain ⟨sc, locals, locals', -, -, htable⟩ := hacts.table
  rcases htable.gained with hnone | ⟨hunique, answer, hjob⟩ | ⟨hshared, ⟨p, hp⟩ | ⟨pc, hjob, hpc⟩⟩
  · rw [hgain] at hnone
    cases hnone
  · cases hgain.symm.trans hunique
    refine h.onWay t ?_ hheld
    rw [place?_of_from hacts hjob]
    rfl
  · cases hgain.symm.trans hshared
    exact hasks p hp hheld
  · cases hgain.symm.trans hshared
    refine h.apart t ?_ hheld
    rw [place?_of_from hacts hjob]
    exact hpc

/-- A job of a call is a turn. -/
theorem Guarded.turns_of_call (h : c.Guarded) {op : Operation}
    (hacts : Acts c c' t job stand gain) (hserves : job.Serves op)
    (hreleases : ∀ mode, job = .start (.release mode) → t ∈ c.held mode)
    (hasks : ∀ p, Asks job p → t ∉ c.held .shared)
    (hheld : c'.held = settled (begun c.held t job) t gain) : Turns c c' t job stand gain := by
  have hnodup : ∀ mode, (begun c.held t job mode).Nodup := by
    intro mode
    unfold begun
    split
    · exact (h.nodup mode).erase t
    · exact h.nodup mode
  have hself : ∀ mode, t ∈ c'.held mode ↔ gain = some mode ∨ c.Retains t job mode := by
    intro mode
    rw [hheld, settled]
    split
    · next hgain => simp [hgain]
    · next hgain => simp [hgain, mem_begun (h.nodup mode)]
  refine ⟨hacts, hreleases, hasks, fun mode => ?_, fun u hu mode => ?_, hself .unique, ?_⟩
  · rw [hheld, settled]
    split
    · next hgain =>
      refine List.nodup_cons.mpr ⟨fun hmem => ?_, hnodup mode⟩
      exact h.not_retains hacts hasks hgain ((mem_begun (h.nodup mode)).mp hmem)
    · exact hnodup mode
  · rw [hheld, settled, begun]
    split <;> split <;> simp [hu, List.mem_erase_of_ne]
  · rw [hself]
    have hne : ∀ f, job ≠ .depart f := by
      rintro f rfl
      exact hserves.elim
    simp [hne]

/-- A job of an ending thread is a turn. -/
theorem Guarded.turns_of_depart (h : c.Guarded) (hacts : Acts c c' t job stand none)
    (hdeparts : job.Departs) (hheld : c'.held = abandoned c.held t stand.place?.isSome) :
    Turns c c' t job stand none := by
  have hasks : ∀ p, ¬ Asks job p := by
    intro p hp
    cases hp <;> exact hdeparts.elim
  have hne : ∀ mode, job ≠ .start (.release mode) := by
    rintro mode rfl
    exact hdeparts.elim
  -- Only at its first job does an ending thread give a lock up.
  have hapart : (∀ f, job ≠ .depart f) → t ∉ c.held .shared := by
    intro hjob
    refine h.apart t ?_
    cases job with
    | start op => exact hdeparts.elim
    | resume p =>
      cases p with
      | readMostly pc =>
        rw [place?_of_from hacts rfl]
        cases pc <;> first | rfl | exact hdeparts.elim
      | blocking | polling => exact hdeparts.elim
    | depart f => exact absurd rfl (hjob f)
  obtain ⟨sc, locals, locals', -, -, htable⟩ := hacts.table
  refine ⟨hacts, fun mode hjob => absurd hjob (hne mode), fun p hp => absurd hp (hasks p),
    fun mode => ?_, fun u hu mode => ?_, ?_, ?_⟩
  · rw [hheld, abandoned]
    split
    · exact (h.nodup mode).filter _
    · exact h.nodup mode
  · rw [hheld, abandoned]
    split <;> simp [hu]
  · simp [hheld, abandoned, Retains, hne]
  · simp only [hheld, abandoned, Retains]
    by_cases hjob : ∃ f, job = .depart f
    · obtain ⟨f, hjob⟩ := hjob
      simp [htable.goesOn_of_depart hjob, hjob]
    · rw [not_exists] at hjob
      split <;> simp [hapart hjob]

/-! ## The gate and the claim -/

namespace Turns

theorem gated_iff (hturn : Turns c c' t job stand gain) : Gated job ↔
    job = .start (.release .unique) ∨ (c.place t).any Pc.hasGate = true := by
  rw [hturn.place, Gated, from_iff]

theorem endsGated_iff (hturn : Turns c c' t job stand gain) : EndsGated stand gain ↔
    (c'.place t).any Pc.hasGate = true ∨ gain = some .unique := by
  rw [hturn.place', EndsGated]

theorem hasGate_of_ne (hturn : Turns c c' t job stand gain) (hu : u ≠ t) :
    c'.HasGate u ↔ c.HasGate u := by
  unfold HasGate
  rw [hturn.places u hu, hturn.keeps u hu]

end Turns

theorem Guarded.gate_passes (h : c.Guarded) (hturn : Turns c c' t job stand gain) :
    c.lock.gate.Passes t c'.lock.gate (Gated job) (EndsGated stand gain) := by
  obtain ⟨sc, locals, locals', hsc, -, htable⟩ := hturn.table
  subst hsc
  exact htable.gate_passes fun hjob => h.claimed _ (hturn.releases _ hjob)

/-- A holder that does not give the unique lock up never comes to a place that goes with the gate,
and is not granted the lock again. -/
theorem Guarded.not_endsGated (h : c.Guarded) (hturn : Turns c c' t job stand gain)
    (hretains : c.Retains t job .unique) : ¬ Gated job ∧ ¬ EndsGated stand gain := by
  have hgate : c.lock.gate = some t := (h.gate t).mpr (.inr hretains.1)
  have hbefore : ¬ Gated job := by
    rw [hturn.gated_iff]
    rintro (hjob | hplace)
    · exact hretains.2 hjob
    · exact h.onWay t hplace hretains.1
  refine ⟨hbefore, fun hafter => ?_⟩
  cases h.gate_passes hturn with
  | keeps _ hsame => exact hbefore (hsame.mp hafter)
  | takes hfree => cases hgate.symm.trans hfree
  | gives hbefore' => exact hbefore hbefore'

theorem Guarded.passes (h : c.Guarded) (hturn : Turns c c' t job stand gain) :
    c.lock.gate.Passes t c'.lock.gate (c.HasGate t) (c'.HasGate t) := by
  have hpass := h.gate_passes hturn
  by_cases hretains : c.Retains t job .unique
  · obtain ⟨hbefore, hafter⟩ := h.not_endsGated hturn hretains
    have hgate : c.lock.gate = some t := (h.gate t).mpr (.inr hretains.1)
    cases hpass with
    | keeps heq =>
      exact .keeps heq (iff_of_true (.inr (hturn.unique.mpr (.inr hretains))) (.inr hretains.1))
    | takes hfree => cases hgate.symm.trans hfree
    | gives hbefore' => exact absurd hbefore' hbefore
  · have hbefore : Gated job ↔ c.HasGate t := by
      rw [hturn.gated_iff, HasGate, or_comm]
      refine or_congr_right ⟨hturn.releases _, fun hheld => ?_⟩
      by_contra hjob
      exact hretains ⟨hheld, hjob⟩
    have hafter : EndsGated stand gain ↔ c'.HasGate t := by
      rw [hturn.endsGated_iff, HasGate, hturn.unique]
      simp [hretains]
    rwa [hbefore, hafter] at hpass

theorem Guarded.heldBy (h : c.Guarded) (hturn : Turns c c' t job stand gain) :
    c'.lock.gate.HeldBy c'.HasGate :=
  h.gate.passes (h.passes hturn) fun _ hu => hturn.hasGate_of_ne hu

/-- A thread that ends with the gate is the only one that has it. -/
theorem Guarded.eq_of_endsGated (h : c.Guarded) (hturn : Turns c c' t job stand gain)
    (hends : EndsGated stand gain) (hu : c'.HasGate u) : u = t := by
  have ht : c'.HasGate t := by
    rw [hturn.endsGated_iff] at hends
    exact hends.imp_right fun hgain => hturn.unique.mpr (.inl hgain)
  have heq := (h.heldBy hturn t).mpr ht
  rw [(h.heldBy hturn u).mpr hu] at heq
  exact Option.some.inj heq

theorem Guarded.claimTold (h : c.Guarded) (hturn : Turns c c' t job stand gain) :
    (∀ pc, stand = .here pc → pc.Fits c'.lock.claim) ∧
      (gain = some .unique → c'.lock.claim = .yes) ∧
      (c'.lock.gate = none → c'.lock.claim ≠ .yes) ∧
      (¬ EndsGated stand gain → c'.lock.claim = c.lock.claim) := by
  obtain ⟨sc, locals, locals', -, -, htable⟩ := hturn.table
  have htold := htable.claimTold ?_ ?_ h.free
  · exact ⟨htold.fits, htold.granted, htold.free, htable.claim_eq⟩
  · intro hgated
    have hhas : c.HasGate t := (hturn.gated_iff.mp hgated).elim
      (fun hjob => .inr (hturn.releases _ hjob)) .inl
    rw [(h.gate t).mpr hhas]
    simp
  · exact fun pc hjob => h.fits t pc (place?_of_from hturn.toActs hjob)

theorem Guarded.fits_after (h : c.Guarded) (hturn : Turns c c' t job stand gain) (u : ThreadId)
    (pc : Pc) (hpc : c'.place u = some pc) : pc.Fits c'.lock.claim := by
  obtain ⟨hfits, -, -, hclaim⟩ := h.claimTold hturn
  by_cases hu : u = t
  · subst hu
    rw [hturn.place'] at hpc
    cases stand with
    | here pc' =>
      cases hpc
      exact hfits _ rfl
    | done answer | fault f => cases hpc
  · by_cases hends : EndsGated stand gain
    · refine Pc.fits_of_not_hasGate (Bool.eq_false_iff.mpr fun hgate => hu ?_) _
      exact h.eq_of_endsGated hturn hends (.inl (by rw [hpc]; exact hgate))
    · rw [hclaim hends]
      exact h.fits u pc (hturn.places u hu ▸ hpc)

theorem Guarded.claimed_after (h : c.Guarded) (hturn : Turns c c' t job stand gain)
    (hheld : u ∈ c'.held .unique) : c'.lock.claim = .yes := by
  obtain ⟨-, hgranted, -, hclaim⟩ := h.claimTold hturn
  by_cases hu : u = t
  · subst hu
    rcases hturn.unique.mp hheld with hgain | hretains
    · exact hgranted hgain
    · rw [hclaim (h.not_endsGated hturn hretains).2]
      exact h.claimed u hretains.1
  · rw [hclaim fun hends => hu (h.eq_of_endsGated hturn hends (.inr hheld))]
    exact h.claimed u ((hturn.keeps u hu _).mp hheld)

theorem Guarded.onWay_after (h : c.Guarded) (hturn : Turns c c' t job stand gain)
    (hplace : (c'.place u).any Pc.hasGate = true) : u ∉ c'.held .unique := by
  by_cases hu : u = t
  · subst hu
    intro hheld
    have hends : EndsGated stand gain := hturn.endsGated_iff.mpr (.inl hplace)
    rcases hturn.unique.mp hheld with hgain | hretains
    · obtain ⟨sc, locals, locals', -, -, htable⟩ := hturn.table
      rw [hturn.place'] at hplace
      cases stand with
      | here pc =>
        rw [htable.gain_eq_none rfl] at hgain
        cases hgain
      | done answer | fault f => cases hplace
    · exact (h.not_endsGated hturn hretains).2 hends
  · rw [hturn.keeps u hu]
    exact h.onWay u (hturn.places u hu ▸ hplace)

/-! ## The flags -/

/-- The flag that a job works with is the thread's own. -/
theorem Clear.carries (hclear : c.Clear) (hacts : Acts c c' t job stand gain) {sc : Scene}
    {locals : Locals} (hnode : Looks job → locals.node? sc.key = c.flag t)
    (hf : Carries sc ⟨c.lock, c.flags, locals⟩ job f) : c.flag t = some f := by
  cases hf with
  | place hpc => exact hclear.carried (place?_of_from hacts rfl) hpc
  | depart f => exact hacts.departs f rfl
  | node hlooks heq => exact (hnode hlooks).symm.trans heq

theorem Guarded.not_shared_of_apart (h : c.Guarded) (hturn : Turns c c' t job stand gain)
    (hapart : Apart job) : ¬ c.Retains t job .shared := by
  rintro ⟨hheld, hjob⟩
  rcases hapart with ⟨p, hp⟩ | hjob' | hpc
  · exact hturn.asks p hp hheld
  · exact hjob hjob'
  · rw [from_iff, ← hturn.place] at hpc
    exact h.apart t hpc hheld

theorem flies_iff (hturn : Turns c c' t job stand gain) :
    c.Flies t ↔ c.Retains t job .shared ∨ ReadMostly.Flies job := by
  unfold Crowd.Flies ReadMostly.Flies Retains
  rw [from_iff, ← hturn.place]
  by_cases hjob : job = .start (.release .shared)
  · simp [hjob, hturn.releases _ hjob]
  · simp [hjob]

theorem flies_after_iff (hturn : Turns c c' t job stand gain) : c'.Flies t ↔
    (c.Retains t job .shared ∧ ∀ f, job ≠ .depart f) ∨ EndsFlying stand gain := by
  unfold Crowd.Flies EndsFlying
  rw [hturn.shared, hturn.place']
  tauto

theorem flies_of_ne (hturn : Turns c c' t job stand gain) (hu : u ≠ t) :
    c'.Flies u ↔ c.Flies u := by
  unfold Crowd.Flies
  rw [hturn.places u hu, hturn.keeps u hu]

theorem Guarded.up_after (h : c.Guarded) (hclear : c.Clear) (hturn : Turns c c' t job stand gain)
    (u : ThreadId) (f : Flag) (hf : c'.flag u = some f) :
    c'.flags.isRaised f = true ↔ c'.Flies u := by
  obtain ⟨sc, locals, locals', -, hlooks, htable⟩ := hturn.table
  have hcarries : ∀ {g}, Carries sc ⟨c.lock, c.flags, locals⟩ job g → c.flag t = some g :=
    hclear.carries hturn.toActs fun hl => (hlooks hl).2
  by_cases hu : u = t
  · subst hu
    cases hturn.flagged with
    | keeps heq =>
      rw [heq] at hf
      rw [flies_after_iff hturn]
      refine htable.flagTold (fun g hg => ?_) (fun hl => ?_) (h.not_shared_of_apart hturn) ?_
      · exact Option.some.inj ((hcarries hg).symm.trans hf)
      · exact ⟨(hlooks hl).1, (hlooks hl).2.trans hf⟩
      · rw [h.up u f hf]
        exact flies_iff hturn
    | @gains p p' g a hasks hstand hnone heq hdown =>
      cases heq.symm.trans hf
      have hsame : c'.flags.isRaised f = c.flags.isRaised f := by
        refine htable.isRaised_eq fun g hg => ?_
        cases (hcarries hg).symm.trans hnone
      rw [hsame, hdown]
      refine iff_of_false (by simp) ?_
      rw [flies_after_iff hturn]
      rintro (⟨hretains, -⟩ | hends)
      · exact h.not_shared_of_apart hturn (.inl ⟨p, hasks⟩) hretains
      · rw [hstand, htable.gain_eq_none hstand] at hends
        simp [EndsFlying, Stand.place?, Pc.flies] at hends
    | loses _ _ hnone => cases hnone.symm.trans hf
  · rw [hturn.flag u hu] at hf
    have hsame : c'.flags.isRaised f = c.flags.isRaised f := by
      refine htable.isRaised_eq fun g hg => ?_
      rintro rfl
      exact hu (hclear.owner hf (hcarries hg))
    rw [hsame, flies_of_ne hturn hu]
    exact h.up u f hf

theorem Guarded.flagged_after (h : c.Guarded) (hclear : c.Clear)
    (hturn : Turns c c' t job stand gain) (u : ThreadId) (hflies : c'.Flies u) :
    c'.flag u ≠ none := by
  obtain ⟨sc, locals, locals', -, hlooks, htable⟩ := hturn.table
  by_cases hu : u = t
  · subst hu
    cases hturn.flagged with
    | keeps heq =>
      rw [heq]
      rcases (flies_after_iff hturn).mp hflies with ⟨hretains, -⟩ | hends
      · exact h.flagged u ((flies_iff hturn).mpr (.inl hretains))
      · rcases htable.carries_or_flies hends with ⟨g, hg⟩ | hbefore
        · rw [hclear.carries hturn.toActs (fun hl => (hlooks hl).2) hg]
          simp
        · exact h.flagged u ((flies_iff hturn).mpr (.inr hbefore))
    | gains _ _ _ heq => simp [heq]
    | loses hjob hstand =>
      rcases (flies_after_iff hturn).mp hflies with ⟨hretains, -⟩ | hends
      · exact absurd hretains (h.not_shared_of_apart hturn (.inr (.inr ⟨_, hjob, rfl⟩)))
      · rw [hstand, htable.gain_eq_none hstand] at hends
        simp [EndsFlying, Stand.place?, Pc.flies] at hends
  · rw [hturn.flag u hu]
    exact h.flagged u ((flies_of_ne hturn hu).mp hflies)

theorem Guarded.apart_after (h : c.Guarded) (hturn : Turns c c' t job stand gain) (u : ThreadId)
    (hapart : (c'.place u).any Pc.apart = true) : u ∉ c'.held .shared := by
  by_cases hu : u = t
  · subst hu
    obtain ⟨sc, locals, locals', -, -, htable⟩ := hturn.table
    rw [hturn.place'] at hapart
    rw [hturn.shared]
    cases stand with
    | here pc =>
      rintro (hgain | ⟨hretains, hjob⟩)
      · rw [htable.gain_eq_none rfl] at hgain
        cases hgain
      · rcases htable.apart rfl hapart with hbefore | ⟨f, hf⟩
        · exact h.not_shared_of_apart hturn hbefore hretains
        · exact hjob f hf
    | done answer | fault f => cases hapart
  · rw [hturn.keeps u hu]
    exact h.apart u (hturn.places u hu ▸ hapart)

/-- The flag of a thread that is in for reading is up, and on the registry's list. -/
theorem Guarded.not_allClear (h : c.Guarded) (hclear : c.Clear) (hin : c.IsIn t) :
    c.lock.registry.allClear c.flags = false := by
  have hflies : c.Flies t := hin.imp_right fun hplace => by rw [hplace]; rfl
  obtain ⟨f, hf⟩ := Option.ne_none_iff_exists'.mp (h.flagged t hflies)
  have hlisted : f ∈ c.lock.registry.entries := by
    refine (hclear.listed f).mpr ⟨t, hf, ?_⟩
    rcases hin with hheld | hplace
    · cases hplace : c.place t with
      | none => rfl
      | some pc =>
        have hapart : pc.apart = false := Bool.eq_false_iff.mpr fun hpc =>
          h.apart t (by rw [hplace]; exact hpc) hheld
        cases pc <;> first | rfl | cases hapart
    · rw [hplace]
      rfl
  rw [Registry.allClear, List.all_eq_false]
  exact ⟨f, hlisted, by simp [(h.up t f hf).mpr hflies]⟩

theorem Guarded.alone_after (h : c.Guarded) (hclear : c.Clear)
    (hturn : Turns c c' t job stand gain) (u : ThreadId) (hin : c'.IsIn u) :
    c'.lock.claim ≠ .yes := by
  obtain ⟨sc, locals, locals', -, -, htable⟩ := hturn.table
  -- Whoever was in before is in the way of a writer.
  have hkeep : c.IsIn u → c'.lock.claim ≠ .yes := by
    intro hbefore hyes
    rcases htable.claim_yes hyes with hyes | ⟨hall, -⟩
    · exact h.alone u hbefore hyes
    · have hall' : c.lock.registry.allClear c.flags = true := hall
      rw [h.not_allClear hclear hbefore] at hall'
      cases hall'
  by_cases hu : u = t
  · subst hu
    -- It is let in now, or has been in before.
    have hcases : (gain = some .shared ∨ stand = .here .fastPath) ∨ c.IsIn u := by
      rcases hin with hheld | hplace
      · rcases hturn.shared.mp hheld with hgain | ⟨hretains, -⟩
        · exact .inl (.inl hgain)
        · exact .inr (.inl hretains.1)
      · rw [hturn.place'] at hplace
        cases stand with
        | here pc =>
          cases hplace
          exact .inl (.inr rfl)
        | done answer | fault f => cases hplace
    rcases hcases with hnow | hbefore
    · rcases htable.letIn hnow with hno | hjob
      · have hno' : c'.lock.claim = .no := hno
        rw [hno']
        simp
      · exact hkeep (.inr (place?_of_from hturn.toActs hjob))
    · exact hkeep hbefore
  · unfold IsIn at hin
    rw [hturn.keeps u hu, hturn.places u hu] at hin
    exact hkeep hin

/-! ## Every crowd -/

theorem Guarded.of_turns (h : c.Guarded) (hclear : c.Clear)
    (hturn : Turns c c' t job stand gain) : c'.Guarded where
  nodup := hturn.nodup
  gate := h.heldBy hturn
  onWay _ := h.onWay_after hturn
  fits := h.fits_after hturn
  claimed _ := h.claimed_after hturn
  free := (h.claimTold hturn).2.2.1
  up := h.up_after hclear hturn
  flagged := h.flagged_after hclear hturn
  apart := h.apart_after hturn
  alone := h.alone_after hclear hturn

/-- What is told of one crowd is told of another that differs only in who waits. -/
theorem Guarded.congr (h : c.Guarded) (hgate : c'.lock.gate = c.lock.gate)
    (hclaim : c'.lock.claim = c.lock.claim) (hflag : c'.flag = c.flag)
    (hplace : c'.place = c.place) (hheld : c'.held = c.held)
    (hraised : ∀ t f, c.flag t = some f → c'.flags.isRaised f = c.flags.isRaised f) :
    c'.Guarded := by
  obtain ⟨nodup, gate, onWay, fits, claimed, free, up, flagged, apart, alone⟩ := h
  refine ⟨?_, ?_, ?_, ?_, ?_, ?_, fun t f hf => ?_, ?_, ?_, ?_⟩
  · rwa [hheld]
  · unfold HasGate
    rwa [hgate, hplace, hheld]
  · rwa [hplace, hheld]
  · rwa [hplace, hclaim]
  · rwa [hheld, hclaim]
  · rwa [hgate, hclaim]
  · unfold Crowd.Flies
    rw [hflag] at hf
    rw [hraised t f hf, hheld, hplace]
    exact up t f hf
  · unfold Crowd.Flies
    rwa [hheld, hplace, hflag]
  · rwa [hplace, hheld]
  · unfold IsIn
    rwa [hheld, hplace, hclaim]

theorem IsNew.guarded (h : c.IsNew) : c.Guarded := by
  obtain ⟨⟨id, supply, config, host, hlock⟩, hflag, hplace, hheld⟩ := h
  refine ⟨fun mode => ?_, fun t => ?_, fun t ht => ?_, fun t pc hpc => ?_, fun t ht => ?_, ?_,
    fun t f hf => ?_, fun t ht => ?_, fun t ht => ?_, ?_⟩
  · rw [hheld]
    exact List.nodup_nil
  · simp [HasGate, hlock, hplace, hheld]
  · simp [hplace] at ht
  · simp [hplace] at hpc
  · simp [hheld] at ht
  · simp [hlock]
  · simp [hflag] at hf
  · simp [Crowd.Flies, hplace, hheld] at ht
  · simp [hplace] at ht
  · simp [hlock]

theorem Guarded.of_step (h : c.Guarded) (hclear : c.Clear) (hstep : Step c c') : c'.Guarded := by
  cases hstep with
  | call hacts hserves hreleases hasks hheld =>
    exact h.of_turns hclear (h.turns_of_call hacts hserves hreleases hasks hheld)
  | depart hacts hdeparts hheld =>
    exact h.of_turns hclear (h.turns_of_depart hacts hdeparts hheld)
  | stir hlock hflag hplace hheld hraised =>
    exact h.congr (by rw [hlock]) (by rw [hlock]) hflag hplace hheld hraised
  | wake t heq =>
    subst heq
    exact h.congr rfl rfl rfl rfl rfl fun _ _ _ => rfl

theorem Reachable.guarded (h : Reachable c) : c.Guarded := by
  induction h with
  | start hnew => exact hnew.guarded
  | step _ hclear _ hstep ih => exact ih.of_step hclear hstep

/-- Writers exclude each other, and readers. -/
theorem Guarded.excludes (h : c.Guarded) :
    (c.held .unique).length ≤ 1 ∧
      (0 < (c.held .unique).length → (c.held .shared).length = 0) := by
  constructor
  · have hnodup := h.nodup .unique
    have hgate : ∀ t ∈ c.held .unique, c.lock.gate = some t := fun t ht => (h.gate t).mpr (.inr ht)
    match hheld : c.held .unique with
    | [] | [_] => simp
    | t :: u :: rest =>
      rw [hheld] at hnodup hgate
      have heq := (hgate t (by simp)).symm.trans (hgate u (by simp))
      simp [Option.some.inj heq] at hnodup
  · intro hpos
    obtain ⟨t, ht⟩ := List.exists_mem_of_length_pos hpos
    rw [List.length_eq_zero_iff]
    refine List.eq_nil_iff_forall_not_mem.mpr fun u hu => ?_
    exact h.alone u (.inl hu) (h.claimed t ht)

end Crowd

end ReadMostly

end ReaderWriter
