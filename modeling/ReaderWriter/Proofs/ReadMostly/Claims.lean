import ReaderWriter.Proofs.ReadMostly.Transitions

/-!
# The gate and the claim of the read-mostly lock

The table of transitions, read for the mutex that writers pass on to each other and for the claim
that it guards.

* `Transition.gate_passes`: a transition leaves the gate alone, takes it, or gives it up.
* `Transition.claimTold`: the claim is what the places of the threads say.
* `Transition.claim_eq`: only the thread that has the gate changes the claim.
-/

namespace ReaderWriter

namespace ReadMostly

/-- The thread has the gate at this place. -/
def Pc.hasGate : Pc → Bool
  | .claimed _ | .scanning _ _ | .acquired _ | .refused | .reopening _ _ | .prodding _ _ _ => true
  | .draining _ stage _ | .waiting _ stage _ => stage.hasGate
  | _ => false

/-- The job is done with the gate. -/
def Gated (job : Job) : Prop :=
  job = .start (.release .unique) ∨ ∃ pc, job = .from pc ∧ pc.hasGate = true

/-- The job has ended with the gate, at a place or in the hands of a holder. -/
def EndsGated (stand : Stand Pc) (gain : Option Mode) : Prop :=
  stand.place?.any Pc.hasGate = true ∨ gain = some .unique

/-- The claim that goes with a stage of a wait. -/
def WaitFits (claim : Claim) : Wait.Stage → Prop
  | .announced | .parking => claim = .want
  | .resumed | .woken => claim ≠ .yes
  | .parked | .snoozing _ => True

/-- The claim that goes with a place: only the thread that has the gate knows it. -/
def Pc.Fits (claim : Claim) : Pc → Prop
  | .claimed _ | .scanning _ _ | .refused | .prodding _ _ _ => claim = .want
  | .draining _ stage _ | .waiting _ stage _ => WaitFits claim stage
  | .acquired _ => claim = .yes
  | .reopening _ _ => claim = .no
  | _ => True

variable {sc : Scene} {s s' : Site} {job : Job} {stand : Stand Pc} {gain : Option Mode}

theorem gated_from {pc : Pc} : Gated (.from pc) ↔ pc.hasGate = true := by
  constructor
  · rintro (h | ⟨pc', h, hgate⟩)
    · cases h
    · cases h
      exact hgate
  · exact fun h => .inr ⟨pc, rfl, h⟩

theorem not_gated_start {op : Operation} (h : op ≠ .release .unique) : ¬ Gated (.start op) := by
  rintro (heq | ⟨pc, heq, -⟩)
  · exact h (Job.start.inj heq)
  · cases heq

theorem not_gated_depart (f : Flag) : ¬ Gated (.depart f) := by
  rintro (heq | ⟨pc, heq, -⟩) <;> cases heq

theorem Enters.not_gated (h : Enters job) : ¬ Gated job := by
  cases h with
  | first => exact not_gated_start (by simp)
  | again => simp [gated_from, Pc.hasGate]

theorem Asks.not_gated {p : Patience} (h : Asks job p) : ¬ Gated job := by
  cases h <;> exact not_gated_start (by simp)

theorem Arrives.not_gated {pc : Pc} {f : Flag} (h : Arrives pc f) : ¬ Gated (.from pc) := by
  cases h <;> simp [gated_from, Pc.hasGate]

theorem Alike.hasGate_eq {pc pc' : Pc} (h : Alike pc pc') : pc'.hasGate = pc.hasGate := by
  cases h with
  | reads h | writes h | reserves h | notifies h => cases h <;> rfl

theorem Landing.not_endsGated {f : Flag} {p : Patience} {claim : Claim}
    (h : Landing f p claim stand gain) : ¬ EndsGated stand gain := by
  cases h <;> simp [EndsGated, Stand.place?, Pc.hasGate]

theorem endsGated_here {pc : Pc} : EndsGated (.here pc) none ↔ pc.hasGate = true := by
  simp [EndsGated, Stand.place?]

theorem not_endsGated_done (answer : Answer) : ¬ EndsGated (.done answer) none := by
  simp [EndsGated, Stand.place?]

theorem not_endsGated_fault (f : Fault) : ¬ EndsGated (.fault f) none := by
  simp [EndsGated, Stand.place?]

theorem not_endsGated_of_place?_none (h : stand.place? = none) : ¬ EndsGated stand none := by
  simp [EndsGated, h]

/-- A transition passes the gate on: it leaves it alone, takes it, or gives it up. -/
theorem Transition.gate_passes (h : Transition sc s job s' stand gain)
    (hrelease : job = .start (.release .unique) → s.lock.claim = .yes) :
    Gate.Passes sc.thread s.lock.gate s'.lock.gate (Gated job) (EndsGated stand gain) := by
  -- Most transitions leave the gate alone, and their thread has it before and after or not at all.
  have hout : s'.lock.gate = s.lock.gate → ¬ Gated job → ¬ EndsGated stand gain →
      Gate.Passes sc.thread s.lock.gate s'.lock.gate (Gated job) (EndsGated stand gain) :=
    fun hgate hbefore hafter => .keeps hgate (iff_of_false hafter hbefore)
  have hin : s'.lock.gate = s.lock.gate → Gated job → EndsGated stand gain →
      Gate.Passes sc.thread s.lock.gate s'.lock.gate (Gated job) (EndsGated stand gain) :=
    fun hgate hbefore hafter => .keeps hgate (iff_of_true hafter hbefore)
  cases h with
  | queue henters => exact hout rfl henters.not_gated (by simp [endsGated_here, Pc.hasGate])
  | claim b henters hfree => exact .takes hfree rfl (endsGated_here.mpr rfl)
  | giveUp => exact hout rfl (not_gated_start (by simp)) (not_endsGated_done _)
  | claimHastily hfree => exact .takes hfree rfl (endsGated_here.mpr rfl)
  | scanHastily | turnAway | succeed | fail | drain | reclaim | unclaim | tellReaders
    | tellReadersLater | prodded => exact hin rfl (gated_from.mpr rfl) (endsGated_here.mpr rfl)
  | drainOn told b b' hgoes =>
    simp only [gated_from, endsGated_here]
    exact hgoes.passes
  | waitOn f b b' hgoes =>
    simp only [gated_from, endsGated_here]
    exact hgoes.passes
  | acquire => exact hin rfl (gated_from.mpr rfl) (.inr rfl)
  | release => exact hin rfl (.inl rfl) (endsGated_here.mpr rfl)
  | releaseFault f hclaim => exact absurd (hrelease rfl) hclaim
  | readersTold =>
    exact .gives (gated_from.mpr rfl) rfl (by simp [endsGated_here, Pc.hasGate])
  | arrive hasks _ hland => exact hout rfl hasks.not_gated hland.not_endsGated
  | register hasks | registerLater hasks =>
    exact hout rfl hasks.not_gated (by simp [endsGated_here, Pc.hasGate])
  | registerNever hasks => exact hout rfl hasks.not_gated (not_endsGated_done _)
  | noFlag f hasks => exact hout rfl hasks.not_gated (not_endsGated_fault _)
  | noNodes hasks _ hplace => exact hout rfl hasks.not_gated (not_endsGated_of_place?_none hplace)
  | enlisted hland => exact hout rfl (by simp [gated_from, Pc.hasGate]) hland.not_endsGated
  | enjoy => exact hout rfl (by simp [gated_from, Pc.hasGate]) (by simp [EndsGated, Stand.place?])
  | arriveLater harrives =>
    exact hout rfl harrives.not_gated (by simp [endsGated_here, Pc.hasGate])
  | look b harrives hfree hlook =>
    cases hlook with
    | granted =>
      exact hout hfree.symm harrives.not_gated (by simp [EndsGated, Stand.place?])
    | wanted | taken => exact .takes hfree rfl (endsGated_here.mpr rfl)
  | lookAgain hlook =>
    cases hlook with
    | granted => exact .gives (gated_from.mpr rfl) rfl (by simp [EndsGated, Stand.place?])
    | wanted | taken => exact hin rfl (gated_from.mpr rfl) (endsGated_here.mpr rfl)
  | leave => exact hout rfl (not_gated_start (by simp)) (by simp [endsGated_here, Pc.hasGate])
  | lowerAndWrite | lowerAndWait | departAndWrite | departAndWait =>
    exact hout rfl (not_gated_depart _) (by simp [endsGated_here, Pc.hasGate])
  | read h | readLater h | write h | writeLater h | await h | notify _ h | notifyLater h =>
    exact .keeps rfl (by rw [gated_from, endsGated_here, (h.alike _).hasGate_eq])
  | _ =>
    exact hout rfl (by simp [gated_from, Pc.hasGate])
      (by simp [EndsGated, Stand.place?, Pc.hasGate])

theorem Alike.fits_iff {pc pc' : Pc} (h : Alike pc pc') (c : Claim) :
    pc'.Fits c ↔ pc.Fits c := by
  cases h with
  | reads h | writes h | reserves h | notifies h => cases h <;> rfl

theorem Landing.gain_ne {f : Flag} {p : Patience} {claim : Claim}
    (h : Landing f p claim stand gain) : gain ≠ some .unique := by
  cases h <;> simp

theorem Landing.fits {f : Flag} {p : Patience} {claim : Claim} {pc : Pc} {c : Claim}
    (h : Landing f p claim (.here pc) gain) : pc.Fits c := by
  cases h <;> trivial

theorem waitFits_of_goes {t : ThreadId} {gate gate' : Gate} {signal signal' : Signal}
    {stage stage' : Wait.Stage} {claim : Claim}
    (h : Wait.Goes t gate signal stage gate' signal' stage') (hfits : WaitFits claim stage)
    (hfree : gate = none → claim ≠ .yes) :
    WaitFits claim stage' ∧ (gate' = none → claim ≠ .yes) := by
  cases h with
  | settle => exact ⟨hfits, hfree⟩
  | snooze | park =>
    refine ⟨trivial, fun _ => ?_⟩
    rw [show claim = .want from hfits]
    simp
  | stay | wake => exact ⟨hfits, hfree⟩
  | resume _ hnone => exact ⟨hfree hnone, nofun⟩
  | retake _ hnone => exact ⟨hfree hnone, nofun⟩

/-- What the claim and the gate say after a transition, given that they said it before: the claim
goes with the thread's place, a writer that is let in has set it, and it is `yes` only while the
gate is taken. -/
structure ClaimTold (s : Site) (stand : Stand Pc) (gain : Option Mode) : Prop where
  fits : ∀ pc, stand = .here pc → pc.Fits s.lock.claim
  granted : gain = some .unique → s.lock.claim = .yes
  free : s.lock.gate = none → s.lock.claim ≠ .yes

theorem Transition.claimTold (h : Transition sc s job s' stand gain)
    (hgated : Gated job → s.lock.gate ≠ none)
    (hfits : ∀ pc, job = .from pc → pc.Fits s.lock.claim)
    (hfree : s.lock.gate = none → s.lock.claim ≠ .yes) : ClaimTold s' stand gain := by
  -- Most transitions leave the gate and the claim alone.
  have hsame : s'.lock.gate = s.lock.gate → s'.lock.claim = s.lock.claim →
      (∀ pc, stand = .here pc → pc.Fits s.lock.claim) → gain ≠ some .unique →
      ClaimTold s' stand gain := by
    intro hgate hclaim hplace hgain
    refine ⟨fun pc hpc => ?_, fun h => absurd h hgain, ?_⟩
    · rw [hclaim]
      exact hplace pc hpc
    · rw [hgate, hclaim]
      exact hfree
  have hset : ∀ {pc : Pc}, stand = .here pc → pc.Fits s'.lock.claim → gain = none →
      (s'.lock.gate = none → s'.lock.claim ≠ .yes) → ClaimTold s' stand gain := by
    intro pc hpc hplace hgain hgate
    refine ⟨fun pc' hpc' => ?_, fun h => ?_, hgate⟩
    · rw [hpc] at hpc'
      cases hpc'
      exact hplace
    · rw [hgain] at h
      cases h
  -- A reader that has the gate never finds the claim taken.
  have hlook : ∀ {f : Flag} {b : Backoff} {s₀ : Site}, Look f b s₀ s' stand gain →
      s₀.lock.claim ≠ .yes → ClaimTold s' stand gain := by
    intro f b s₀ hl hne
    cases hl with
    | granted => exact ⟨nofun, nofun, fun _ => hne⟩
    | wanted hclaim => exact hset rfl hclaim rfl fun _ => hne
    | taken hclaim => exact absurd hclaim hne
  cases h with
  | claim | claimHastily | reclaim => exact hset rfl rfl rfl fun _ => by simp [Site.claim]
  | scanHastily | turnAway | fail | drain | tellReaders | tellReadersLater | prodded =>
    have hbefore := hfits _ rfl
    exact hset rfl hbefore rfl hfree
  | succeed w => exact hset rfl rfl rfl fun hgate => absurd hgate (hgated (gated_from.mpr rfl))
  | drainOn told b b' hgoes =>
    obtain ⟨hstage, hgate⟩ := waitFits_of_goes hgoes (hfits _ rfl) hfree
    exact hset rfl hstage rfl hgate
  | waitOn f b b' hgoes =>
    obtain ⟨hstage, hgate⟩ := waitFits_of_goes hgoes (hfits _ rfl) hfree
    exact hset rfl hstage rfl hgate
  | acquire answer => exact ⟨nofun, fun _ => hfits _ rfl, hfree⟩
  | release | unclaim => exact hset rfl rfl rfl fun _ => by simp [Site.claim]
  | readersTold =>
    refine hset rfl trivial rfl fun _ => ?_
    change s.lock.claim ≠ .yes
    rw [show s.lock.claim = .no from hfits _ rfl]
    simp
  | arrive _ _ hland => exact hsame rfl rfl (fun pc hpc => (hpc ▸ hland).fits) hland.gain_ne
  | enlisted hland => exact hsame rfl rfl (fun pc hpc => (hpc ▸ hland).fits) hland.gain_ne
  | noNodes hasks _ hplace =>
    refine hsame rfl rfl (fun pc hpc => ?_) (by simp)
    rw [hpc] at hplace
    cases hplace
  | look b harrives hgate hl => exact hlook hl (hfree hgate)
  | lookAgain hl => exact hlook hl (hfits _ rfl)
  | read h | readLater h | write h | writeLater h | await h | notify _ h | notifyLater h =>
    exact hset rfl (((h.alike _).fits_iff _).mpr (hfits _ rfl)) rfl hfree
  | _ => exact hsame rfl rfl (by rintro pc ⟨⟩ <;> trivial) (by simp)

/-- Only a thread that has the gate afterwards has changed the claim. -/
theorem Transition.claim_eq (h : Transition sc s job s' stand gain)
    (hout : ¬ EndsGated stand gain) : s'.lock.claim = s.lock.claim := by
  have hlook : ∀ {f : Flag} {b : Backoff} {s₀ : Site}, Look f b s₀ s' stand gain →
      s'.lock.claim = s₀.lock.claim := by
    intro f b s₀ hl
    cases hl <;> rfl
  cases h with
  | claim | claimHastily | reclaim | succeed | release | unclaim =>
    exact absurd (endsGated_here.mpr rfl) hout
  | look b harrives hgate hl => exact (hlook hl).trans rfl
  | lookAgain hl => exact (hlook hl).trans rfl
  | _ => rfl

end ReadMostly

end ReaderWriter
