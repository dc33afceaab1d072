import ReaderWriter.Proofs.ReadMostly.Claims

/-!
# The flags of the read-mostly lock

The table of transitions, read for the flags of the readers and for what is granted.

* `Transition.isRaised_eq`: a thread raises and lowers no flag but its own.
* `Transition.flagTold`: a thread's flag is up iff the thread holds a shared lock or is on its way
  to or from one.
* `Transition.letIn`: a reader is let in only if there is no claim.
-/

namespace ReaderWriter

namespace ReadMostly

/-- The flag that goes with a place. -/
def Pc.flag? : Pc → Option Flag
  | .registering _ f _ | .registered _ f | .contended f | .arriving f | .prodding f _ _
    | .waiting f _ _ | .departing f _ _ => some f
  | _ => none

/-- The thread's flag is up at this place, though the thread holds no shared lock. -/
def Pc.flies : Pc → Bool
  | .fastPath | .contended _ | .arriving _ | .sharedRefused | .leaving _ => true
  | _ => false

/-- A thread at this place holds no shared lock: it asks for one, has given one up, or ends. -/
def Pc.apart : Pc → Bool
  | .entering | .claimed _ | .scanning _ _ | .draining _ _ _ | .acquired _ | .refused
    | .reopening _ _ | .passingOn _ _ | .released | .counting _ => false
  | _ => true

/-- The job begins with the thread's flag up, though the thread holds no shared lock. -/
def Flies (job : Job) : Prop :=
  job = .start (.release .shared) ∨ ∃ pc, job = .from pc ∧ pc.flies = true

/-- A thread that does this job holds no shared lock. -/
def Apart (job : Job) : Prop :=
  (∃ p, Asks job p) ∨ job = .start (.release .shared) ∨ ∃ pc, job = .from pc ∧ pc.apart = true

/-- The job looks for the thread's flag among its nodes. -/
def Looks (job : Job) : Prop := (∃ p, Asks job p) ∨ ∃ answer, job = .from (.leaving answer)

variable {sc : Scene} {s s' : Site} {job : Job} {stand : Stand Pc} {gain : Option Mode}

/-- The flag that a job works with. -/
inductive Carries (sc : Scene) (s : Site) : Job → Flag → Prop
  | place {pc : Pc} {f : Flag} : pc.flag? = some f → Carries sc s (.from pc) f
  | depart (f : Flag) : Carries sc s (.depart f) f
  | node {job : Job} {f : Flag} : Looks job → s.locals.node? sc.key = some f → Carries sc s job f

namespace Locals

/-- As long as nothing has been torn down everything can be used. -/
theorem canUse_of_intact {l : Locals} (h : l.torn = []) (i : Item) : l.canUse i = true := by
  simp [canUse, h]

theorem nodes_touch (l : Locals) (i : Item) : (l.touch i).nodes = l.nodes := by
  unfold touch
  split <;> rfl

theorem torn_touch (l : Locals) (i : Item) : (l.touch i).torn = l.torn := by
  unfold touch
  split <;> rfl

theorem inUse_touch_subset (l : Locals) (i : Item) : l.inUse ⊆ (l.touch i).inUse := by
  unfold touch
  split
  · exact fun _ h => h
  · exact fun _ h => List.mem_cons_of_mem _ h

end Locals

/-- What the handing out of a flag leaves alone: no flag goes up or down, and the thread's nodes
stay. -/
structure Supply.Handed.Keeps (handed : Supply.Handed) (m : Flags) (l : Locals) : Prop where
  raised : handed.flags.raised = m.raised
  nodes : handed.locals.nodes = l.nodes
  torn : handed.locals.torn = l.torn
  inUse : l.inUse ⊆ handed.locals.inUse

theorem Supply.allocate_keeps {supply : Supply} {m : Flags} {l : Locals} {handed : Supply.Handed}
    (h : supply.allocate m l = .ok handed) : handed.Keeps m l := by
  have hblock : (pack m (l.touch .block)).Keeps m l := by
    unfold pack
    split
    · split <;>
        exact ⟨rfl, l.nodes_touch _, l.torn_touch _, l.inUse_touch_subset _⟩
    · exact ⟨rfl, l.nodes_touch _, l.torn_touch _, l.inUse_touch_subset _⟩
  have hpair : (pair m (l.touch .pair)).Keeps m l := by
    unfold pair
    split <;> exact ⟨rfl, l.nodes_touch _, l.torn_touch _, l.inUse_touch_subset _⟩
  have hown : (ofOwnBlock m l).Keeps m l := ⟨rfl, rfl, rfl, fun _ h => h⟩
  cases supply with
  | isolated =>
    cases h
    exact hown
  | packed =>
    simp only [allocate, Except.ok.injEq] at h
    rw [← h]
    split
    · exact hblock
    · exact hown
  | paired =>
    simp only [allocate] at h
    split at h
    · cases h
      exact hpair
    · cases h
  | listed flags =>
    simp only [allocate] at h
    split at h
    · cases h
      exact ⟨rfl, rfl, rfl, fun _ h => h⟩
    · cases h

theorem isRaised_eq_of_raised_eq {m m' : Flags} (h : m'.raised = m.raised) (f : Flag) :
    m'.isRaised f = m.isRaised f := by
  simp only [Flags.isRaised, h]

theorem Arrives.flag?_eq {pc : Pc} {f : Flag} (h : Arrives pc f) : pc.flag? = some f := by
  cases h <;> rfl

/-- A transition raises and lowers no flag but its own. -/
theorem Transition.isRaised_eq (h : Transition sc s job s' stand gain) {g : Flag}
    (hg : ∀ f, Carries sc s job f → g ≠ f) : s'.flags.isRaised g = s.flags.isRaised g := by
  have hput : ∀ {f : Flag}, Carries sc s job f → ∀ (m : Flags) (up : Bool),
      (m.put f up).isRaised g = m.isRaised g :=
    fun hf m up => m.isRaised_put_of_ne up (hg _ hf)
  have hhand : ∀ {handed : Supply.Handed},
      s.lock.supply.allocate s.flags (s.locals.touch .nodes) = .ok handed →
      handed.flags.isRaised g = s.flags.isRaised g :=
    fun halloc => isRaised_eq_of_raised_eq (Supply.allocate_keeps halloc).raised g
  have hlook : ∀ {f : Flag} {b : Backoff} {s₀ : Site}, Look f b s₀ s' stand gain →
      Carries sc s job f → s'.flags.isRaised g = s₀.flags.isRaised g := by
    intro f b s₀ hl hf
    cases hl with
    | granted => rfl
    | wanted | taken => exact hput hf _ _
  cases h with
  | arrive hasks hnode => exact hput (.node (.inl ⟨_, hasks⟩) hnode) _ _
  | register _ _ halloc | registerLater _ _ halloc | registerNever _ _ halloc => exact hhand halloc
  | enlisted => exact hput (.place rfl) _ _
  | look b harrives _ hl => exact (hlook hl (.place harrives.flag?_eq)).trans rfl
  | lookAgain hl => exact (hlook hl (.place rfl)).trans (hput (.place rfl) _ _)
  | leaveTo answer b hnode => exact hput (.node (.inr ⟨_, rfl⟩) hnode) _ _
  | leaveFree answer hnode => exact hput (.node (.inr ⟨_, rfl⟩) hnode) _ _
  | lowerAndWrite => exact hput (.depart _) _ _
  | lowerAndWait => exact hput (.depart _) _ _
  | _ => rfl

/-- After the job the flag is up although it was down before, or its thread did not hold a shared
lock. -/
def EndsFlying (stand : Stand Pc) (gain : Option Mode) : Prop :=
  stand.place?.any Pc.flies = true ∨ gain = some .shared

theorem flies_from {pc : Pc} : Flies (.from pc) ↔ pc.flies = true := by
  constructor
  · rintro (h | ⟨pc', h, hflies⟩)
    · cases h
    · cases h
      exact hflies
  · exact fun h => .inr ⟨pc, rfl, h⟩

theorem Enters.ne_depart (h : Enters job) (f : Flag) : job ≠ .depart f := by
  cases h <;> simp

theorem Asks.ne_depart {p : Patience} (h : Asks job p) (f : Flag) : job ≠ .depart f := by
  cases h <;> simp

theorem Enters.not_flies (h : Enters job) : ¬ Flies job := by
  cases h with
  | first => rintro (heq | ⟨pc, heq, -⟩) <;> cases heq
  | again => simp [flies_from, Pc.flies]

theorem Asks.not_flies {p : Patience} (h : Asks job p) : ¬ Flies job := by
  cases h <;> rintro (heq | ⟨pc, heq, -⟩) <;> cases heq

theorem Arrives.flies {pc : Pc} {f : Flag} (h : Arrives pc f) : pc.flies = true := by
  cases h <;> rfl

theorem Alike.flies_eq {pc pc' : Pc} (h : Alike pc pc') :
    pc.flies = false ∧ pc'.flies = false := by
  cases h with
  | reads h | writes h | reserves h | notifies h => cases h <;> exact ⟨rfl, rfl⟩

theorem Alike.not_flies {pc pc' : Pc} (h : Alike pc pc') :
    ¬ Flies (.from pc) ∧ ¬ EndsFlying (.here pc') none := by
  obtain ⟨hbefore, hafter⟩ := h.flies_eq
  exact ⟨by simp [flies_from, hbefore], by simp [EndsFlying, Stand.place?, hafter]⟩

theorem Alike.apart_eq {pc pc' : Pc} (h : Alike pc pc') : pc'.apart = pc.apart := by
  cases h with
  | reads h | writes h | reserves h | notifies h => cases h <;> rfl

theorem Alike.ne_fastPath {pc pc' : Pc} (h : Alike pc pc') : pc' ≠ .fastPath := by
  cases h with
  | reads h | writes h | reserves h | notifies h => cases h <;> nofun

theorem Landing.endsFlying {f : Flag} {p : Patience} {claim : Claim}
    (h : Landing f p claim stand gain) : EndsFlying stand gain := by
  cases h <;> simp [EndsFlying, Stand.place?, Pc.flies]

/-- The flag is up after the job iff its thread holds a shared lock still, or the flag flies. An
ending thread that turns to the flag lowers it, be it that of a holder or not. -/
def FlagTold (s' : Site) (job : Job) (stand : Stand Pc) (gain : Option Mode) (f : Flag)
    (held : Prop) : Prop :=
  s'.flags.isRaised f = true ↔ (held ∧ ∀ g, job ≠ .depart g) ∨ EndsFlying stand gain

namespace FlagTold

variable {f g : Flag} {held : Prop} {m : Flags}

/-- The flag is left alone, and so is what it stands for. -/
theorem same (hlaw : s.flags.isRaised f = true ↔ held ∨ Flies job)
    (hflag : s'.flags.isRaised f = s.flags.isRaised f) (hjob : ∀ g, job ≠ .depart g)
    (hflies : EndsFlying stand gain ↔ Flies job) : FlagTold s' job stand gain f held := by
  unfold FlagTold
  rw [hflag, hlaw, hflies]
  simp [hjob]

theorem up (hg : g = f) (hput : s'.flags = m.put g true) (hends : EndsFlying stand gain) :
    FlagTold s' job stand gain f held := by
  refine iff_of_true ?_ (.inr hends)
  rw [hput, ← hg, Flags.isRaised_put_self]

theorem down (hg : g = f) (hput : s'.flags = m.put g false)
    (hjob : ¬ held ∨ job = .depart g) (hends : ¬ EndsFlying stand gain) :
    FlagTold s' job stand gain f held := by
  refine iff_of_false ?_ ?_
  · rw [hput, ← hg, Flags.isRaised_put_self]
    simp
  · rintro (⟨hheld, hne⟩ | hends')
    · exact hjob.elim (fun hnot => hnot hheld) (hne g)
    · exact hends hends'

theorem look {b : Backoff} {s₀ : Site} (hg : g = f) (hlook : Look g b s₀ s' stand gain)
    (hnot : ¬ held) (hraised : s₀.flags.isRaised f = true) :
    FlagTold s' job stand gain f held := by
  cases hlook with
  | granted => exact iff_of_true hraised (.inr (.inr rfl))
  | wanted | taken =>
    exact down hg rfl (.inl hnot) (by simp [EndsFlying, Stand.place?, Pc.flies])

end FlagTold

/-- A flag is up iff its thread holds a shared lock or stands at a place where the flag flies: a
transition keeps this so for the thread's own flag. -/
theorem Transition.flagTold (h : Transition sc s job s' stand gain) {f : Flag} {held : Prop}
    (hown : ∀ g, Carries sc s job g → g = f)
    (hnode : Looks job → s.locals.canUse .nodes = true ∧ s.locals.node? sc.key = some f)
    (hapart : Apart job → ¬ held) (hlaw : s.flags.isRaised f = true ↔ held ∨ Flies job) :
    FlagTold s' job stand gain f held := by
  have hquiet : s'.flags.isRaised f = s.flags.isRaised f → (∀ g, job ≠ .depart g) →
      ¬ Flies job → ¬ EndsFlying stand gain → FlagTold s' job stand gain f held :=
    fun hflag hjob hbefore hafter => .same hlaw hflag hjob (iff_of_false hafter hbefore)
  cases h with
  | queue henters | claim b henters =>
    exact hquiet rfl henters.ne_depart henters.not_flies
      (by simp [EndsFlying, Stand.place?, Pc.flies])
  | arrive hasks hnode' hland =>
    exact .up (hown _ (.node (.inl ⟨_, hasks⟩) hnode')) rfl hland.endsFlying
  | enlisted hland => exact .up (hown _ (.place rfl)) rfl hland.endsFlying
  | look b harrives _ hl =>
    have hnot : ¬ held := hapart (.inr (.inr ⟨_, rfl, by cases harrives <;> rfl⟩))
    refine .look (hown _ (.place harrives.flag?_eq)) hl hnot ?_
    exact hlaw.mpr (.inr (flies_from.mpr harrives.flies))
  | lookAgain hl =>
    refine .look (hown _ (.place rfl)) hl (hapart (.inr (.inr ⟨_, rfl, rfl⟩))) ?_
    rw [hown _ (.place rfl)]
    exact Flags.isRaised_put_self _ _ _
  | leaveTo answer b hnode' =>
    exact .down (hown _ (.node (.inr ⟨_, rfl⟩) hnode')) rfl
      (.inl (hapart (.inr (.inr ⟨_, rfl, rfl⟩)))) (by simp [EndsFlying, Stand.place?, Pc.flies])
  | leaveFree answer hnode' =>
    exact .down (hown _ (.node (.inr ⟨_, rfl⟩) hnode')) rfl
      (.inl (hapart (.inr (.inr ⟨_, rfl, rfl⟩)))) (by simp [EndsFlying, Stand.place?])
  | leaveFault answer _ hmissing =>
    obtain ⟨hcan, hnode'⟩ := hnode (.inr ⟨_, rfl⟩)
    rcases hmissing with hmissing | hmissing
    · rw [hcan] at hmissing
      cases hmissing
    · rw [hnode'] at hmissing
      cases hmissing
  | register hasks hmissing | registerLater hasks hmissing | registerNever hasks hmissing =>
    rw [(hnode (.inl ⟨_, hasks⟩)).2] at hmissing
    cases hmissing
  | noFlag _ hasks =>
    exact hquiet rfl hasks.ne_depart hasks.not_flies (by simp [EndsFlying, Stand.place?])
  | noNodes hasks _ hplace =>
    exact hquiet rfl hasks.ne_depart hasks.not_flies (by simp [EndsFlying, hplace])
  | lowerAndWrite | lowerAndWait =>
    exact .down (hown _ (.depart _)) rfl (.inr rfl) (by simp [EndsFlying, Stand.place?, Pc.flies])
  | departAndWrite hlowered | departAndWait hlowered =>
    refine iff_of_false ?_ ?_
    · rw [hown _ (.depart _)] at hlowered
      exact Bool.eq_false_iff.mp hlowered
    · rintro (⟨-, hne⟩ | hends)
      · exact hne _ rfl
      · simp [EndsFlying, Stand.place?, Pc.flies] at hends
  | enjoy => exact .same hlaw rfl (by simp) (iff_of_true (.inr rfl) (flies_from.mpr rfl))
  | arriveLater harrives =>
    exact .same hlaw rfl (by simp) (iff_of_true (.inl rfl) (flies_from.mpr harrives.flies))
  | backOut => exact .same hlaw rfl (by simp) (iff_of_true (.inl rfl) (flies_from.mpr rfl))
  | leave => exact .same hlaw rfl (by simp) (iff_of_true (.inl rfl) (.inl rfl))
  | read h | readLater h | write h | writeLater h | await h | notify _ h | notifyLater h =>
    exact (h.alike _).not_flies.elim (hquiet rfl (by simp))
  | giveUp | claimHastily | release | releaseFault =>
    exact hquiet rfl (by simp) (by simp [Flies]) (by simp [EndsFlying, Stand.place?, Pc.flies])
  | _ =>
    exact hquiet rfl (by simp) (by simp [flies_from, Pc.flies])
      (by simp [EndsFlying, Stand.place?, Pc.flies])

/-! ## What is granted -/

theorem Landing.gain_eq_none {f : Flag} {p : Patience} {claim : Claim} {pc : Pc}
    (h : Landing f p claim stand gain) (hstand : stand = .here pc) : gain = none := by
  cases h with
  | granted => cases hstand
  | fastPath | contended | refused => rfl

/-- A reader that has raised its flag is let in, now or at its next turn, only if there is no
claim. -/
theorem Landing.letIn {f : Flag} {p : Patience} {claim : Claim}
    (h : Landing f p claim stand gain) :
    (gain = none ∨ gain = some .shared) ∧
      (gain = some .shared ∨ stand = .here .fastPath → claim = .no) := by
  cases h <;> simp

theorem Look.gain_eq_none {f : Flag} {b : Backoff} {s₀ : Site} {pc : Pc}
    (h : Look f b s₀ s' stand gain) (hstand : stand = .here pc) : gain = none := by
  cases h with
  | granted => cases hstand
  | wanted | taken => rfl

theorem Look.letIn {f : Flag} {b : Backoff} {s₀ : Site} (h : Look f b s₀ s' stand gain) :
    (gain = none ∨ gain = some .shared) ∧
      (gain = some .shared ∨ stand = .here .fastPath → s'.lock.claim = .no) := by
  cases h with
  | granted hclaim => exact ⟨.inr rfl, fun _ => hclaim⟩
  | wanted | taken => simp

/-- A job that ends at a place grants nothing. -/
theorem Transition.gain_eq_none (h : Transition sc s job s' stand gain) {pc : Pc}
    (hstand : stand = .here pc) : gain = none := by
  cases h with
  | arrive _ _ hland | enlisted hland => exact hland.gain_eq_none hstand
  | look b _ _ hl | lookAgain hl => exact hl.gain_eq_none hstand
  | acquire | enjoy => cases hstand
  | _ => rfl

/-- The unique lock is granted to a writer that has it, a shared lock to a reader that asks for one
or goes on to take it. -/
theorem Transition.gained (h : Transition sc s job s' stand gain) :
    gain = none ∨ gain = some .unique ∧ (∃ answer, job = .from (.acquired answer)) ∨
      gain = some .shared ∧ ((∃ p, Asks job p) ∨ ∃ pc, job = .from pc ∧ pc.apart = true) := by
  cases h with
  | arrive hasks _ hland => exact hland.letIn.1.imp_right fun h => .inr ⟨h, .inl ⟨_, hasks⟩⟩
  | enlisted hland => exact hland.letIn.1.imp_right fun h => .inr ⟨h, .inr ⟨_, rfl, rfl⟩⟩
  | look b harrives _ hl =>
    exact hl.letIn.1.imp_right fun h => .inr ⟨h, .inr ⟨_, rfl, by cases harrives <;> rfl⟩⟩
  | lookAgain hl => exact hl.letIn.1.imp_right fun h => .inr ⟨h, .inr ⟨_, rfl, rfl⟩⟩
  | acquire answer => exact .inr (.inl ⟨rfl, _, rfl⟩)
  | enjoy => exact .inr (.inr ⟨rfl, .inr ⟨_, rfl, rfl⟩⟩)
  | _ => exact .inl rfl

/-- A reader is let in, now or at its next turn, only if there is no claim, or if it has been let in
before. -/
theorem Transition.letIn (h : Transition sc s job s' stand gain)
    (hin : gain = some .shared ∨ stand = .here .fastPath) :
    s'.lock.claim = .no ∨ job = .from .fastPath := by
  cases h with
  | arrive _ _ hland | enlisted hland => exact .inl (hland.letIn.2 hin)
  | look b _ _ hl | lookAgain hl => exact .inl (hl.letIn.2 hin)
  | enjoy => exact .inr rfl
  | read h | readLater h | write h | writeLater h | await h | notify _ h | notifyLater h =>
    rcases hin with hin | hin
    · cases hin
    · exact absurd (Stand.here.inj hin) (h.alike _).ne_fastPath
  | noNodes _ _ hplace =>
    rcases hin with hin | rfl
    · cases hin
    · cases hplace
  | _ => simp at hin

/-- Only a writer that finds all flags down sets the claim to `yes`. -/
theorem Transition.claim_yes (h : Transition sc s job s' stand gain)
    (hclaim : s'.lock.claim = .yes) : s.lock.claim = .yes ∨
      s.allClear = true ∧ s'.flags = s.flags ∧ ∃ answer, stand = .here (.acquired answer) := by
  cases h with
  | claim | claimHastily | reclaim | release | unclaim => cases hclaim
  | succeed w hclear => exact .inr ⟨hclear, rfl, _, rfl⟩
  | look b _ _ hl | lookAgain hl => cases hl <;> exact .inl hclaim
  | _ => exact .inl hclaim

/-- An ending thread that turns to its flag has more to do. -/
theorem Transition.goesOn_of_depart (h : Transition sc s job s' stand gain) {f : Flag}
    (hjob : job = .depart f) : stand.place?.isSome = true := by
  have hasks : ∀ {p}, ¬ Asks job p := fun h => by
    subst hjob
    cases h
  cases h with
  | arrive h | registerNever h | noFlag _ h | noNodes h => exact absurd h hasks
  | _ => first | rfl | cases hjob

/-- A thread comes to a place at which it holds no shared lock from another one, or as it asks for
the lock, gives it up, or ends. -/
theorem Transition.apart (h : Transition sc s job s' stand gain) {pc : Pc}
    (hstand : stand = .here pc) (hpc : pc.apart = true) : Apart job ∨ ∃ f, job = .depart f := by
  have hfrom : ∀ {pc₀ : Pc}, pc₀.apart = true → job = .from pc₀ →
      Apart job ∨ ∃ f, job = .depart f :=
    fun h heq => .inl (.inr (.inr ⟨_, heq, h⟩))
  cases h with
  | arrive hasks | register hasks | registerLater hasks => exact .inl (.inl ⟨_, hasks⟩)
  | enlisted | lookAgain | enlist | prodded | waitOn | backOut | leaveTo | found | missed | lookOn
    | lookLater | served | replaced | pause | strike | struckUp
    | abandonTo => exact hfrom rfl rfl
  | look b harrives | arriveLater harrives => exact hfrom (by cases harrives <;> rfl) rfl
  | leave => exact .inl (.inr (.inl rfl))
  | lowerAndWrite | lowerAndWait | departAndWrite | departAndWait => exact .inr ⟨_, rfl⟩
  | read h | readLater h | write h | writeLater h | await h | notify _ h | notifyLater h =>
    cases hstand
    exact hfrom ((h.alike _).apart_eq.symm.trans hpc) rfl
  | noNodes _ _ hplace =>
    rw [hstand] at hplace
    cases hplace
  | _ => cases hstand <;> cases hpc

/-- A thread whose flag flies afterwards works with a flag, or its flag has flown before. -/
theorem Transition.carries_or_flies (h : Transition sc s job s' stand gain)
    (hends : EndsFlying stand gain) : (∃ f, Carries sc s job f) ∨ Flies job := by
  have hno : ∀ {pc : Pc}, stand = .here pc → gain = none → pc.flies = false → False := by
    rintro pc rfl rfl hflies
    simp [EndsFlying, Stand.place?, hflies] at hends
  have hplace : stand.place? = none → gain = none → False := by
    rintro hplace rfl
    simp [EndsFlying, hplace] at hends
  cases h with
  | arrive hasks hnode => exact .inl ⟨_, .node (.inl ⟨_, hasks⟩) hnode⟩
  | enlisted | lookAgain => exact .inl ⟨_, .place rfl⟩
  | look b harrives | arriveLater harrives => exact .inl ⟨_, .place harrives.flag?_eq⟩
  | enjoy | backOut => exact .inr (flies_from.mpr rfl)
  | leave => exact .inr (.inl rfl)
  | noNodes _ _ hnone => exact (hplace hnone rfl).elim
  | read h | readLater h | write h | writeLater h | await h | notify _ h | notifyLater h =>
    exact absurd hends (h.alike _).not_flies.2
  | acquire => simp [EndsFlying, Stand.place?] at hends
  | _ => first | exact (hno rfl rfl rfl).elim | exact (hplace rfl rfl).elim

end ReadMostly

end ReaderWriter
