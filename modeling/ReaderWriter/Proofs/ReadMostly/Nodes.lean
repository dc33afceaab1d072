import ReaderWriter.Proofs.ReadMostly.Flags

/-!
# The registry of the read-mostly lock and the nodes of its readers

The table of transitions, read for where a thread keeps its flag.

* `Transition.stocks`: how a flag is handed out, entered into the registry, remembered, and taken
  off the registry again.
* `Transition.carried`: a thread goes on with the flag that it has worked with.
* `Transition.keeps`: what a thread keeps for itself is not torn down while it works.
-/

namespace ReaderWriter

namespace ReadMostly

/-- The thread has a flag that is not in the registry yet. -/
def Pc.registers : Pc → Bool
  | .registering _ _ _ => true
  | _ => false

variable {sc : Scene} {s s' : Site} {job : Job} {stand : Stand Pc} {gain : Option Mode}

/-- What a transition does to the flag that its thread has on the lock: where it is kept, and
whether it is in the registry. -/
inductive Stocks (sc : Scene) (s s' : Site) (job : Job) (stand : Stand Pc) : Prop
  | keeps : s'.locals.nodes = s.locals.nodes →
      s'.lock.registry.entries = s.lock.registry.entries →
      stand.place?.bind Pc.flagInHand? = job.pc?.bind Pc.flagInHand? →
      stand.place?.any Pc.registers = job.pc?.any Pc.registers → (∀ f, job ≠ .depart f) →
      Stocks sc s s' job stand
  /-- The thread is handed a flag. -/
  | begins {p : Patience} {f : Flag} {e : Edit} : s'.locals.nodes = s.locals.nodes →
      s'.lock.registry.entries = s.lock.registry.entries → Asks job p →
      s.locals.node? sc.key = none → s'.flags.raised = s.flags.raised →
      stand = .here (.registering p f e) → Stocks sc s s' job stand
  /-- The flag is entered into the registry. -/
  | enlists {p : Patience} {f : Flag} : s'.locals.nodes = s.locals.nodes →
      s'.lock.registry.entries = s.lock.registry.entries ++ [f] →
      job = .from (.registering p f .inside) → stand = .here (.registered p f) →
      Stocks sc s s' job stand
  /-- The thread remembers the flag. -/
  | remembers {p : Patience} {f : Flag} :
      s'.locals.nodes = s.locals.nodes.filter (fun node => sc.alive node.1) ++ [(sc.key, f)] →
      s'.lock.registry.entries = s.lock.registry.entries → job = .from (.registered p f) →
      stand.place?.bind Pc.flagInHand? = none → stand.place?.any Pc.registers = false →
      Stocks sc s s' job stand
  /-- The ending thread turns to the flag. -/
  | departs {f : Flag} {wasUp : Bool} {e : Edit} : s'.locals.nodes = s.locals.nodes →
      s'.lock.registry.entries = s.lock.registry.entries → job = .depart f →
      stand = .here (.departing f wasUp e) → Stocks sc s s' job stand
  /-- The flag is taken off the registry. -/
  | strikes {f : Flag} {wasUp : Bool} : s'.locals.nodes = s.locals.nodes →
      s'.lock.registry.entries = s.lock.registry.entries.erase f →
      job = .from (.departing f wasUp .inside) → stand = .here (.departed wasUp) →
      Stocks sc s s' job stand

theorem Enters.pc?_inHand (h : Enters job) :
    job.pc?.bind Pc.flagInHand? = none ∧ job.pc?.any Pc.registers = false := by
  cases h <;> exact ⟨rfl, rfl⟩

theorem Asks.pc?_eq {p : Patience} (h : Asks job p) : job.pc? = none := by
  cases h <;> rfl

theorem Asks.pc?_inHand {p : Patience} (h : Asks job p) :
    job.pc?.bind Pc.flagInHand? = none ∧ job.pc?.any Pc.registers = false := by
  rw [h.pc?_eq]
  exact ⟨rfl, rfl⟩

theorem Arrives.pc_inHand {pc : Pc} {f : Flag} (h : Arrives pc f) :
    pc.flagInHand? = none ∧ pc.registers = false := by
  cases h <;> exact ⟨rfl, rfl⟩

theorem Alike.inHand {pc pc' : Pc} (h : Alike pc pc') :
    pc'.flagInHand? = pc.flagInHand? ∧ pc'.registers = pc.registers := by
  cases h with
  | reads h | writes h | reserves h | notifies h => cases h <;> exact ⟨rfl, rfl⟩

theorem Landing.inHand {f : Flag} {p : Patience} {claim : Claim}
    (h : Landing f p claim stand gain) :
    stand.place?.bind Pc.flagInHand? = none ∧ stand.place?.any Pc.registers = false := by
  cases h <;> exact ⟨rfl, rfl⟩

theorem Look.inHand {f : Flag} {b : Backoff} {s₀ : Site} (h : Look f b s₀ s' stand gain) :
    s'.lock.registry = s₀.lock.registry ∧ s'.locals = s₀.locals ∧
      stand.place?.bind Pc.flagInHand? = none ∧ stand.place?.any Pc.registers = false := by
  cases h <;> exact ⟨rfl, rfl, rfl, rfl⟩

theorem Transition.stocks (h : Transition sc s job s' stand gain) : Stocks sc s s' job stand := by
  -- Most threads have no flag in hand, before or after.
  have hquiet : s'.locals.nodes = s.locals.nodes →
      s'.lock.registry.entries = s.lock.registry.entries → (∀ f, job ≠ .depart f) →
      job.pc?.bind Pc.flagInHand? = none ∧ job.pc?.any Pc.registers = false →
      stand.place?.bind Pc.flagInHand? = none ∧ stand.place?.any Pc.registers = false →
      Stocks sc s s' job stand :=
    fun hnodes hentries hjob hbefore hafter =>
      .keeps hnodes hentries (hafter.1.trans hbefore.1.symm) (hafter.2.trans hbefore.2.symm) hjob
  cases h with
  | queue henters | claim b henters =>
    exact hquiet rfl rfl henters.ne_depart henters.pc?_inHand ⟨rfl, rfl⟩
  | arrive hasks hnode hland =>
    exact hquiet (s.locals.nodes_touch _) rfl hasks.ne_depart hasks.pc?_inHand hland.inHand
  | register hasks hnode halloc | registerLater hasks hnode halloc =>
    have hkeeps := Supply.allocate_keeps halloc
    exact .begins (hkeeps.nodes.trans (s.locals.nodes_touch _)) rfl hasks hnode hkeeps.raised rfl
  | registerNever hasks hnode halloc =>
    have hkeeps := Supply.allocate_keeps halloc
    exact hquiet (hkeeps.nodes.trans (s.locals.nodes_touch _)) rfl hasks.ne_depart hasks.pc?_inHand
      ⟨rfl, rfl⟩
  | noFlag f hasks =>
    exact hquiet (s.locals.nodes_touch _) rfl hasks.ne_depart hasks.pc?_inHand ⟨rfl, rfl⟩
  | noNodes hasks _ hplace =>
    refine hquiet rfl rfl hasks.ne_depart hasks.pc?_inHand ?_
    rw [hplace]
    exact ⟨rfl, rfl⟩
  | enlist p f => exact .enlists rfl rfl rfl rfl
  | enlisted hland => exact .remembers rfl rfl rfl hland.inHand.1 hland.inHand.2
  | arriveLater harrives => exact hquiet rfl rfl (by simp) harrives.pc_inHand ⟨rfl, rfl⟩
  | look b harrives _ hl =>
    obtain ⟨hregistry, hlocals, hafter⟩ := hl.inHand
    exact hquiet (by rw [hlocals]; rfl) (by rw [hregistry]; rfl) (by simp) harrives.pc_inHand hafter
  | lookAgain hl =>
    obtain ⟨hregistry, hlocals, hafter⟩ := hl.inHand
    exact hquiet (by rw [hlocals]; rfl) (by rw [hregistry]; rfl) (by simp) ⟨rfl, rfl⟩ hafter
  | leaveTo | leaveFree => exact hquiet (s.locals.nodes_touch _) rfl (by simp) ⟨rfl, rfl⟩ ⟨rfl, rfl⟩
  | leaveFault _ _ _ hlocals =>
    refine hquiet ?_ rfl (by simp) ⟨rfl, rfl⟩ ⟨rfl, rfl⟩
    rcases hlocals with rfl | rfl
    · rfl
    · exact s.locals.nodes_touch _
  | lowerAndWrite | lowerAndWait | departAndWrite | departAndWait => exact .departs rfl rfl rfl rfl
  | strike f wasUp => exact .strikes rfl rfl rfl rfl
  | read h | readLater h | write h | writeLater h | await h | notify _ h | notifyLater h =>
    exact .keeps rfl rfl (h.alike _).inHand.1 (h.alike _).inHand.2 (by simp)
  | _ => exact hquiet rfl rfl (by simp) ⟨rfl, rfl⟩ ⟨rfl, rfl⟩

theorem Alike.flag?_eq {pc pc' : Pc} (h : Alike pc pc') : pc'.flag? = pc.flag? := by
  cases h with
  | reads h | writes h | reserves h | notifies h => cases h <;> rfl

theorem Landing.flag?_eq {f g : Flag} {p : Patience} {claim : Claim} {pc : Pc}
    (h : Landing f p claim stand gain) (hstand : stand = .here pc) (hg : pc.flag? = some g) :
    g = f := by
  cases h <;> cases hstand <;> simp_all [Pc.flag?]

theorem Look.flag?_eq {f g : Flag} {b : Backoff} {s₀ : Site} {pc : Pc}
    (h : Look f b s₀ s' stand gain) (hstand : stand = .here pc) (hg : pc.flag? = some g) :
    g = f := by
  cases h <;> cases hstand <;> simp_all [Pc.flag?]

/-- A thread goes on with the flag that it has carried, or that it has been handed. -/
theorem Transition.carried (h : Transition sc s job s' stand gain) {pc : Pc} {f : Flag}
    (hstand : stand = .here pc) (hf : pc.flag? = some f) :
    Carries sc s job f ∨ pc.flagInHand? = some f := by
  have hsame : ∀ {pc' : Pc}, job = .from pc' → pc.flag? = pc'.flag? → Carries sc s job f := by
    rintro pc' rfl heq
    exact .place (heq.symm.trans hf)
  cases h with
  | arrive hasks hnode hland =>
    rw [hland.flag?_eq hstand hf]
    exact .inl (.node (.inl ⟨_, hasks⟩) hnode)
  | enlisted hland =>
    rw [hland.flag?_eq hstand hf]
    exact .inl (.place rfl)
  | look b harrives _ hl =>
    rw [hl.flag?_eq hstand hf]
    exact .inl (.place harrives.flag?_eq)
  | lookAgain hl =>
    rw [hl.flag?_eq hstand hf]
    exact .inl (.place rfl)
  | noNodes _ _ hplace =>
    rw [hstand] at hplace
    cases hplace
  | arriveLater harrives =>
    cases hstand
    exact .inl (hsame rfl harrives.flag?_eq.symm)
  | prodded | waitOn =>
    cases hstand
    exact .inl (hsame rfl rfl)
  | register | registerLater | enlist | lowerAndWrite | lowerAndWait | departAndWrite
    | departAndWait =>
    cases hstand
    exact .inr hf
  | read h | readLater h | write h | writeLater h | await h | notify _ h | notifyLater h =>
    cases hstand
    exact .inl (hsame rfl (h.alike _).flag?_eq)
  | _ => cases hstand <;> cases hf

/-- What a transition leaves of the things that the thread keeps: nothing is torn down, and the
nodes are in use once the thread has been handed a flag. -/
structure Keeps (s s' : Site) (job : Job) (stand : Stand Pc) : Prop where
  torn : s'.locals.torn = s.locals.torn
  inUse : s.locals.inUse ⊆ s'.locals.inUse
  nodes : (∃ p, Asks job p) → s.locals.torn = [] → stand.place?.isSome = true →
    .nodes ∈ s'.locals.inUse

theorem mem_inUse_touch {l : Locals} {i : Item} (h : l.torn = []) : i ∈ (l.touch i).inUse := by
  unfold Locals.touch
  split
  · next hused => exact hused.resolve_left (by simp [h])
  · exact List.mem_cons_self

theorem Transition.keeps (h : Transition sc s job s' stand gain) : Keeps s s' job stand := by
  have hsame : s'.locals = s.locals → (¬ ∃ p, Asks job p) → Keeps s s' job stand := by
    intro hlocals hjob
    refine ⟨by rw [hlocals], ?_, fun h => absurd h hjob⟩
    rw [hlocals]
    exact fun _ h => h
  have htouch : s'.locals = s.locals.touch .nodes → Keeps s s' job stand := by
    intro hlocals
    refine ⟨?_, ?_, fun _ htorn _ => ?_⟩ <;> rw [hlocals]
    · exact s.locals.torn_touch _
    · exact s.locals.inUse_touch_subset _
    · exact mem_inUse_touch htorn
  have hhand : ∀ {handed : Supply.Handed}, s'.locals = handed.locals →
      s.lock.supply.allocate s.flags (s.locals.touch .nodes) = .ok handed →
      Keeps s s' job stand := by
    intro handed hlocals halloc
    have hkeeps := Supply.allocate_keeps halloc
    refine ⟨?_, ?_, fun _ htorn _ => ?_⟩ <;> rw [hlocals]
    · exact hkeeps.torn.trans (s.locals.torn_touch _)
    · exact fun _ h => hkeeps.inUse (s.locals.inUse_touch_subset _ h)
    · exact hkeeps.inUse (mem_inUse_touch htorn)
  have hfrom : ∀ {pc : Pc}, job = .from pc → ¬ ∃ p, Asks job p := by
    rintro pc rfl ⟨p, hasks⟩
    cases hasks
  cases h with
  | queue henters | claim b henters =>
    refine hsame rfl ?_
    rintro ⟨p, hasks⟩
    cases hasks <;> cases henters
  | arrive | noFlag => exact htouch rfl
  | register _ _ halloc | registerLater _ _ halloc | registerNever _ _ halloc =>
    exact hhand rfl halloc
  | noNodes _ _ hplace =>
    exact ⟨rfl, fun _ h => h, fun _ _ h => by rw [hplace] at h; cases h⟩
  | enlisted => exact ⟨rfl, fun _ h => h, fun h => absurd h (hfrom rfl)⟩
  | look b _ _ hl => exact hsame hl.inHand.2.1 (hfrom rfl)
  | lookAgain hl => exact hsame hl.inHand.2.1 (hfrom rfl)
  | leaveTo | leaveFree => exact htouch rfl
  | leaveFault _ _ _ hlocals =>
    rcases hlocals with rfl | rfl
    · exact hsame rfl (hfrom rfl)
    · exact htouch rfl
  | giveUp | claimHastily | release | releaseFault | leave | lowerAndWrite | lowerAndWait
    | departAndWrite | departAndWait =>
    refine hsame rfl ?_
    rintro ⟨p, hasks⟩
    cases hasks
  | _ => exact hsame rfl (hfrom rfl)

end ReadMostly

end ReaderWriter
