import ReaderWriter.Proofs.ReadMostly.Ownership

/-!
# What a thread keeps while it lives

A thread that has not begun to end can use all the things that it keeps, and a thread that has a
flag on some lock has not gone. So a shared lock is always given up by somebody who still finds the
flag to lower.

* `Reachable.tended`: both hold in every reachable run.
-/

namespace ReaderWriter

open ReadMostly (Flag Pc)

/-- What the threads of a run keep. -/
structure Run.Tended (r : Run) : Prop where
  /-- Nothing is torn down before the end. -/
  intact : ∀ t, (r.world.thread t).Lives → (r.world.thread t).locals.torn = []
  /-- The nodes are in use while there are any, and already while the first one is on its way. -/
  tends : ∀ t, (r.world.thread t).Tends
  awaits : ∀ t m pc, (r.world.thread t).stint? = some (m, .readMostly pc) → ¬ pc.Departs →
    pc.flagInHand? ≠ none → .nodes ∈ (r.world.thread t).locals.inUse
  gone : ∀ t, (r.world.thread t).activity = .gone → (r.world.thread t).flags = []

theorem stand_eq_of_place? {stand : Stand Pc} {pc : Pc} (h : stand.place? = some pc) :
    stand = .here pc := by
  cases stand with
  | here pc' =>
    cases h
    rfl
  | done answer | fault f => cases h

namespace Run.Tended

variable {r r' : Run} {e : Event} {t : ThreadId} {m : Nat} {l : Lock} {job : Job}

/-- What holds of the thread that has moved holds of all. -/
theorem of_thread (h : r.Tended) (hothers : ∀ u, u ≠ t → r'.world.thread u = r.world.thread u)
    (hintact : (r'.world.thread t).Lives → (r'.world.thread t).locals.torn = [])
    (htends : (r'.world.thread t).Tends)
    (hawaits : ∀ m pc, (r'.world.thread t).stint? = some (m, .readMostly pc) → ¬ pc.Departs →
      pc.flagInHand? ≠ none → .nodes ∈ (r'.world.thread t).locals.inUse)
    (hgone : (r'.world.thread t).activity = .gone → (r'.world.thread t).flags = []) :
    r'.Tended := by
  refine ⟨fun u => ?_, fun u => ?_, fun u => ?_, fun u => ?_⟩ <;> by_cases hu : u = t
  · exact hu ▸ hintact
  · exact hothers u hu ▸ h.intact u
  · exact hu ▸ htends
  · exact hothers u hu ▸ h.tends u
  · exact hu ▸ hawaits
  · exact hothers u hu ▸ h.awaits u
  · exact hu ▸ hgone
  · exact hothers u hu ▸ h.gone u

theorem of_threads (h : r.Tended) (hthreads : ∀ u, r'.world.thread u = r.world.thread u) :
    r'.Tended := by
  refine ⟨fun u => ?_, fun u => ?_, fun u => ?_, fun u => ?_⟩
  · exact hthreads u ▸ h.intact u
  · exact hthreads u ▸ h.tends u
  · exact hthreads u ▸ h.awaits u
  · exact hthreads u ▸ h.gone u

/-- A turn on a read-mostly lock keeps the nodes in use. -/
theorem tends_of_acts (h : r.Tended) {s : ReadMostly.State} {site : ReadMostly.Site}
    {stand : Stand Pc} {gain : Option Mode} (hacts : Acts r r' t m s job site stand gain) :
    (r'.world.thread t).Tends := by
  have hinUse := hacts.table.keeps.inUse
  rw [← hacts.locals] at hinUse
  have hsame : site.locals.nodes = (r.world.thread t).locals.nodes →
      (r'.world.thread t).Tends := by
    intro hnodes hne
    rw [hacts.locals, hnodes] at hne
    exact hinUse (h.tends t hne)
  cases hacts.table.stocks with
  | keeps hnodes | begins hnodes | enlists hnodes | departs hnodes | strikes hnodes =>
    exact hsame hnodes
  | @remembers p f _ _ hjob =>
    intro _
    have hstint := hacts.stint
    rw [hjob] at hstint
    exact hinUse (h.awaits t m (.registered p f) hstint id (by simp [Pc.flagInHand?]))

/-- A thread that has been handed a flag in a call has its nodes in use. -/
theorem awaits_of_acts (h : r.Tended) {s : ReadMostly.State} {site : ReadMostly.Site}
    {stand : Stand Pc} {gain : Option Mode} (hacts : Acts r r' t m s job site stand gain)
    (hintact : (r.world.thread t).locals.torn = []) (hjob : ∀ pc, job = .from pc → ¬ pc.Departs)
    {pc : Pc} (hstand : stand = .here pc) (hpc : ¬ pc.Departs) (hhand : pc.flagInHand? ≠ none) :
    .nodes ∈ (r'.world.thread t).locals.inUse := by
  have hinUse := hacts.table.keeps.inUse
  rw [← hacts.locals] at hinUse
  have hbefore : ∀ {pc₀ : Pc}, job.pc? = some pc₀ → pc₀.flagInHand? ≠ none →
      .nodes ∈ (r'.world.thread t).locals.inUse := by
    intro pc₀ hpc₀ hhand₀
    refine hinUse (h.awaits t m pc₀ (by rw [hacts.stint, hpc₀]; rfl) (hjob pc₀ ?_) hhand₀)
    cases job with
    | resume p =>
      cases p with
      | readMostly pc₁ =>
        cases hpc₀
        rfl
      | blocking | polling => cases hpc₀
    | start op | depart f => cases hpc₀
  cases hacts.table.stocks with
  | keeps _ _ hsame =>
    rw [hstand] at hsame
    cases hpc₀ : job.pc? with
    | none =>
      rw [hpc₀] at hsame
      exact absurd hsame hhand
    | some pc₀ =>
      rw [hpc₀] at hsame
      exact hbefore hpc₀ fun hnone => hhand (hsame.trans hnone)
  | begins _ _ hasks =>
    have hnodes := hacts.table.keeps.nodes ⟨_, hasks⟩ hintact (by rw [hstand]; rfl)
    rwa [← hacts.locals] at hnodes
  | enlists _ _ heq =>
    rw [heq] at hbefore
    exact hbefore rfl (by simp [Pc.flagInHand?])
  | remembers _ _ _ hnone =>
    rw [hstand] at hnone
    exact absurd hnone hhand
  | departs _ _ _ heq =>
    cases hstand.symm.trans heq
    exact absurd trivial hpc
  | strikes _ _ _ heq =>
    cases hstand.symm.trans heq
    exact absurd rfl hhand

theorem of_operates {op : Operation} (h : r.Tended) (hop : Operates r e r' t m l job op) :
    r'.Tended := by
  have hintact := h.intact t hop.lives
  have hgone : (r'.world.thread t).activity = .gone → (r'.world.thread t).flags = [] := by
    intro hgone
    rcases hop.lives' with hlives | ⟨frame, hlives⟩ <;> cases hlives.symm.trans hgone
  by_cases halg : l.body.algorithm = .readMostly
  · obtain ⟨s, hs⟩ := Body.exists_readMostly halg
    obtain ⟨site, stand, hacts, -⟩ := hop.acts hs
    refine h.of_thread hop.others (fun _ => ?_) (h.tends_of_acts hacts)
      (fun n pc hpc hends hhand => ?_) hgone
    · rw [hacts.locals, hacts.table.keeps.torn]
      exact hintact
    · rw [hacts.stint'] at hpc
      obtain ⟨pc', hpc', heq⟩ := Option.map_eq_some_iff.mp hpc
      cases heq
      refine h.awaits_of_acts hacts hintact ?_ (stand_eq_of_place? hpc') hends hhand
      rintro pc₀ rfl
      exact ReadMostly.Pc.not_departs_of_serves hop.serves
  · obtain ⟨-, hlocals, -, hstint'⟩ := hop.plain halg
    refine h.of_thread hop.others (fun _ => ?_) ?_ (fun n pc hpc => absurd hpc (hstint' n pc)) hgone
    · rw [hlocals]
      exact hintact
    · unfold Thread.Tends
      rw [hlocals]
      exact h.tends t

theorem of_departs (h : r.Tended) (hdep : Departs r r' t m l job) : r'.Tended := by
  obtain ⟨e, hends⟩ := hdep.ends
  obtain ⟨halg, hstand⟩ := World.work_departs t hdep.lock hdep.suits hdep.departs
  obtain ⟨s, hs⟩ := Body.exists_readMostly halg
  obtain ⟨site, stand, hacts, -⟩ := hdep.acts hs
  refine h.of_thread hdep.others (fun hlives => absurd hlives (Run.not_lives_of_ending hends))
    (h.tends_of_acts hacts) (fun n pc hpc hdeparts _ => ?_) fun hgone => ?_
  · rw [hdep.stint'] at hpc
    rcases hstand with ⟨pc', hpc', heq⟩ | ⟨answer, heq⟩
    · rw [heq] at hpc
      cases hpc
      exact absurd hpc' hdeparts
    · rw [heq] at hpc
      cases hpc
  · cases hends.symm.trans hgone

theorem of_shifts (h : r.Tended) (hshift : Shifts r r' t) : r'.Tended := by
  obtain ⟨htends, hgone⟩ := hshift.tends (h.tends t)
  refine h.of_thread hshift.others (fun hlives => absurd hlives hshift.ends) htends
    (fun n pc hpc => ?_) hgone
  rw [hshift.stint'] at hpc
  cases hpc

end Run.Tended

/-- Threads keep what they need, in every reachable run. -/
theorem Reachable.tended {ok : Run → Event → Prop} {r : Run} (h : Reachable ok r) : r.Tended := by
  refine h.of_moves (P := Run.Tended) (fun _ => ?_) ?_ ?_
  · exact ⟨fun _ _ => rfl, fun _ hne => absurd rfl hne, fun _ _ _ hpc => (nomatch hpc),
      fun _ _ => rfl⟩
  · intro r r' e _ _ hmove ih
    cases hmove with
    | operate h => exact ih.of_operates h
    | depart h => exact ih.of_departs h
    | shift h => exact ih.of_shifts h
    | drop h => exact ih.of_threads h.threads
    | wake h => exact ih.of_threads h.threads
    | make h => exact ih.of_threads h.threads
    | rest h => exact ih.of_threads h.threads
  · intro r r₁ r' e m _ _ _ _ hdis _ ih
    exact ih.of_threads hdis.threads

end ReaderWriter
