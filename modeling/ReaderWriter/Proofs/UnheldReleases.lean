import ReaderWriter.Proofs.Holders
import ReaderWriter.Proofs.ReadMostly.Acts

/-!
# Releases of locks that nobody holds

A release of a lock that is not held faults, and touches nothing. This is so in every run, also in
one whose callers have broken the contract of the lock before: such a call has not made the lock
forget who holds it.

* `Machine.RefusesReleases`: a lock refuses a release that its control word says is of nothing.
* `Reachable.crowd_anyway`: a control word counts the holders whatever the callers do.
* `Reachable.backed`: the claim of a read-mostly lock is `yes` only while somebody has the lock.
* `Run.Fails`: a call comes to a fault whatever other threads do meanwhile, and touches nothing.
* `unheldRelease_fails`: a release of what nobody has fails, on every lock.
* `double_release_is_answered`: a thread whose flag is down, but still on a read-mostly lock, can
  give a shared lock up that it does not have.
-/

namespace ReaderWriter

open ReadMostly (Pc Site)

/-! ## Locks with a control word -/

/-- The fault of a release of a lock that is not held, where a control word tells. -/
def Fault.notHeld : Mode → Fault
  | .unique => .uniqueNotHeld
  | .shared => .sharedNotHeld

/-- The word says that the lock is not held in this mode. -/
def Word.Lacks (w : Word) : Mode → Prop
  | .unique => w.fields.uniqueLocked = false
  | .shared => w.fields.holders = 0

theorem Word.Counts.lacks {w : Word} {held : Mode → Nat} {mode : Mode} (h : w.Counts held)
    (hnone : held mode = 0) : w.Lacks mode := by
  cases mode with
  | unique => exact Bool.toNat_eq_zero.mp (h.unique.symm.trans hnone)
  | shared => exact h.shared.symm.trans hnone

theorem Word.withUniqueReleased_eq_error {w : Word} (h : w.Lacks .unique) :
    w.withUniqueReleased = .error .uniqueNotHeld :=
  if_neg (Bool.eq_false_iff.mp h)

theorem Word.withSharedReleased_eq_error {w : Word} (h : w.Lacks .shared) :
    w.withSharedReleased = .error .sharedNotHeld :=
  if_pos (UInt32.toNat.inj (show w.sharedCount.toNat = 0 from h))

/-- A release of a lock that the word says is not held faults, and leaves the lock as it is. -/
def Machine.RefusesReleases {State Pc : Type} (M : Machine State Pc) (word : State → Word) : Prop :=
  ∀ (mode : Mode) (s : State), (word s).Lacks mode →
    M.start (.release mode) s = { state := s, stand := .fault (.notHeld mode) }

theorem Blocking.machine_refusesReleases : machine.RefusesReleases State.word := by
  intro mode s hlacks
  cases mode with
  | unique => simp only [machine, start, Word.withUniqueReleased_eq_error hlacks]; rfl
  | shared => simp only [machine, start, Word.withSharedReleased_eq_error hlacks]; rfl

theorem Polling.machine_refusesReleases : machine.RefusesReleases State.word := by
  intro mode s hlacks
  cases mode with
  | unique => simp only [machine, start, Word.withUniqueReleased_eq_error hlacks]; rfl
  | shared => simp only [machine, start, Word.withSharedReleased_eq_error hlacks]; rfl

/-- Nothing is given up where nothing is held. -/
theorem Hold.givenUp_of_none {holds : List Hold} {m : Nat} {mode : Mode}
    (h : count holds m mode = 0) (t : ThreadId) : givenUp holds t m mode = holds := by
  have hnone : ∀ g ∈ holds, ¬ (g.lock = m && g.mode = mode) = true :=
    fun g hg => List.countP_eq_zero.mp h g hg
  unfold givenUp
  rw [if_neg, List.eraseP_of_forall_not hnone]
  exact fun hmem => hnone _ hmem (by simp)

/-- Who gives a lock up in one mode keeps it in the other. -/
theorem Hold.count_givenUp_of_ne {holds : List Hold} {m : Nat} {mode mode' : Mode}
    (hne : mode' ≠ mode) (t : ThreadId) :
    count (givenUp holds t m mode) m mode' = count holds m mode' := by
  by_cases hpos : 0 < count holds m mode
  · rw [count_givenUp hpos, Function.update_of_ne hne]
  · rw [givenUp_of_none (Nat.eq_zero_of_not_pos hpos)]

namespace Run

variable {State Pc : Type} {M : Machine State Pc} {a : Algorithm} {word : State → Word}
  {r r' : Run} {e : Event} {t : ThreadId} {m : Nat} {l l' : Lock} {job : Job} {op : Operation}
  {s s' : State}

/-- A job of a call either gives up what is held only, or is a release of a lock that nobody holds
in that mode. -/
theorem releasesHeld_or (h : Operates r e r' t m l job op) :
    r.ReleasesHeld m e ∨ ∃ mode, job = .start (.release mode) ∧ r.count m mode = 0 := by
  cases job with
  | start op' =>
    obtain rfl : op' = op := h.serves
    rcases h.called op' rfl with ⟨c, rfl, -, hc⟩ | ⟨rfl, -⟩
    · cases op' with
      | release mode =>
        by_cases hpos : 0 < r.count m mode
        · refine .inl fun _ mode' hmode' => ?_
          cases (hc.symm.trans hmode' : some mode = some mode')
          exact hpos
        · exact .inr ⟨mode, rfl, by omega⟩
      | acquire | tryAcquire =>
        refine .inl fun _ mode' hmode' => ?_
        cases (hc.symm.trans hmode' : none = some mode')
    · exact .inl trivial
  | resume p =>
    rw [h.turned p rfl]
    exact .inl trivial
  | depart f => exact h.serves.elim

/-- A refused release leaves the crowd as it is. -/
theorem crowdMoves_of_refused (hM : M.Is a) (hrefuses : M.RefusesReleases word) {mode : Mode}
    (h : Operates r e r' t m l (.start (.release mode)) op) (hnone : r.count m mode = 0)
    (hs : l.body = M.body s) (hlacks : (word s).Lacks mode)
    (hl' : r'.world.locks[m]? = some l') (hs' : l'.body = M.body s') : CrowdMoves M m r r' s' := by
  obtain ⟨hlocks, hstand⟩ := hM.start r.world t m l s (.release mode) h.lock hs
  rw [hrefuses mode s hlacks] at hlocks hstand
  have hstate : s' = s := by
    cases hl'.symm.trans (h.lock_of_locks hlocks)
    exact hM.body_inj _ _ hs'.symm
  refine .keeps h.lock hs (crowd_congr hstate (fun u => ?_) ?_)
  · by_cases hu : u = t
    · subst hu
      rw [h.place_self, h.place_self', hstand]
      rfl
    · exact h.place_of_ne hu
  · refine count_of_holds ?_
    rw [h.holds, hstand]
    exact Hold.givenUp_of_none hnone t

end Run

/-- A reachable run, looked at from one of its blocking or polling locks, is a run of that lock's
crowd, whatever the callers do. -/
theorem Reachable.crowd_anyway {State Pc : Type} {M : Machine State Pc} {a : Algorithm}
    {word : State → Word} (hM : M.Is a) (hcounts : M.CountsHolders word)
    (hrefuses : M.RefusesReleases word) {ok : Run → Event → Prop} {m : Nat} {r : Run}
    (h : Reachable ok r) : ∀ (l : Lock) (s : State), r.world.locks[m]? = some l →
      l.body = M.body s → M.Reachable (fun _ => True) (r.crowd M m s) := by
  refine h.looksReached hM (fun _ _ _ _ _ _ _ => trivial) fun hreach _ hmove ih hl' hs' => ?_
  refine Run.crowd_of_move_of hM hreach.orderly hreach.holdsExist hmove hl' hs' fun h => ?_
  rcases Run.releasesHeld_or h with hok | ⟨mode, rfl, hnone⟩
  · exact Run.crowdMoves_of_operates hM h hok hl' hs'
  · obtain ⟨s, hs⟩ := Run.exists_state_of_turned hM h.toTurned hl' hs'
    have hlacks : (word s).Lacks mode := ((ih _ s h.lock hs).counts hcounts).lacks hnone
    exact Run.crowdMoves_of_refused hM hrefuses h hnone hs hlacks hl' hs'

/-! ## The claim of a read-mostly lock -/

namespace ReadMostly

variable {sc : Scene} {s s' : Site} {job : Job} {stand : Stand Pc} {gain : Option Mode}

/-- The job neither gives the unique lock up nor comes back with it. -/
def Aside (job : Job) : Prop :=
  job ≠ .start (.release .unique) ∧ ∀ answer, job ≠ .from (.acquired answer)

theorem Enters.aside (h : Enters job) : Aside job := by
  cases h <;> exact ⟨nofun, nofun⟩

theorem Asks.aside {p : Patience} (h : Asks job p) : Aside job := by
  cases h <;> exact ⟨nofun, nofun⟩

theorem Arrives.aside {pc : Pc} {f : Flag} (h : Arrives pc f) : Aside (.from pc) := by
  cases h <;> exact ⟨nofun, nofun⟩

theorem Alike.aside {pc pc' : Pc} (h : Alike pc pc') : Aside (.from pc) := by
  cases h with
  | reads h | writes h | reserves h | notifies h => cases h <;> exact ⟨nofun, nofun⟩

/-- The claim is `yes` after a turn if a writer has just set it, or if it was `yes` before and the
turn neither gave the unique lock up nor came back with it. -/
theorem Transition.yes (h : Transition sc s job s' stand gain) (hyes : s'.lock.claim = .yes) :
    (∃ answer, stand = .here (.acquired answer)) ∨
      s.lock.claim = .yes ∧ (Aside job ∨ gain = some .unique) := by
  have hlook : ∀ {f : Flag} {b : Backoff} {s₀ : Site}, Look f b s₀ s' stand gain →
      s₀.lock.claim = .yes := by
    intro f b s₀ hl
    cases hl <;> exact hyes
  cases h with
  | claim | claimHastily | reclaim | release | unclaim => cases hyes
  | succeed w => exact .inl ⟨_, rfl⟩
  | releaseFault f hclaim => exact absurd hyes hclaim
  | acquire answer => exact .inr ⟨hyes, .inr rfl⟩
  | queue h => exact .inr ⟨hyes, .inl h.aside⟩
  | arrive h | register h | registerLater h | registerNever h | noFlag _ h | noNodes h =>
    exact .inr ⟨hyes, .inl h.aside⟩
  | look b harrives _ hl =>
    have hclaim := hlook hl
    exact .inr ⟨hclaim, .inl harrives.aside⟩
  | lookAgain hl =>
    have hclaim := hlook hl
    exact .inr ⟨hclaim, .inl ⟨nofun, nofun⟩⟩
  | arriveLater h => exact .inr ⟨hyes, .inl h.aside⟩
  | read h | readLater h => exact .inr ⟨hyes, .inl (h.alike .wanted).aside⟩
  | write h | writeLater h | await h => exact .inr ⟨hyes, .inl (h.alike .wanted).aside⟩
  | notify _ h | notifyLater h => exact .inr ⟨hyes, .inl (h.alike .yielding).aside⟩
  | _ => exact .inr ⟨hyes, .inl ⟨nofun, nofun⟩⟩

end ReadMostly

namespace Run

/-- Somebody has the unique lock at an index, or has taken it and is about to come back with it. -/
def Wielded (r : Run) (m : Nat) : Prop :=
  0 < r.count m .unique ∨ ∃ t answer, r.place m t = some (.readMostly (.acquired answer))

/-- The claim of a read-mostly lock is `yes` only while somebody has the unique lock. -/
def Backed (r : Run) (m : Nat) : Prop :=
  ∀ s, r.world.ReadMostlyAt m s → s.claim = .yes → r.Wielded m

variable {r r' : Run} {e : Event} {t : ThreadId} {m n : Nat} {l : Lock} {job : Job}
  {op : Operation} {s : ReadMostly.State} {site : Site} {stand : Stand Pc} {gain : Option Mode}

/-- Whoever has the unique lock keeps it while others come and go. -/
theorem Wielded.mono (h : r.Wielded m) (hcount : r.count m .unique ≤ r'.count m .unique)
    (hplaces : ∀ t answer, r.place m t = some (.readMostly (.acquired answer)) →
      r'.place m t = some (.readMostly (.acquired answer)) ∨ 0 < r'.count m .unique) :
    r'.Wielded m := by
  rcases h with hpos | ⟨t, answer, hplace⟩
  · exact .inl (Nat.lt_of_lt_of_le hpos hcount)
  · exact (hplaces t answer hplace).symm.imp id fun h => ⟨t, answer, h⟩

theorem Backed.mono (h : r.Backed m) (hcount : r.count m .unique = r'.count m .unique)
    (hplaces : ∀ t, r'.place m t = r.place m t)
    (hclaims : ∀ s', r'.world.ReadMostlyAt m s' → s'.claim = .yes →
      ∃ s, r.world.ReadMostlyAt m s ∧ s.claim = .yes) : r'.Backed m := by
  intro s' hs' hyes
  obtain ⟨s, hs, hyes⟩ := hclaims s' hs' hyes
  exact (h s hs hyes).mono (Nat.le_of_eq hcount) fun t answer hplace =>
    .inl ((hplaces t).trans hplace)

/-- A thread that stands at a place of a read-mostly lock before a turn goes on from there. -/
theorem job_eq_of_acts {pc : Pc} (h : Acts r r' t m s job site stand gain)
    (hplace : r.place m t = some (.readMostly pc)) : job = .from pc := by
  have hjob : job.pc?.any (fun pc' => decide (pc' = pc)) = true := by
    rw [place, h.stint] at hplace
    cases hpc : job.pc? with
    | none => simp [hpc] at hplace
    | some pc' => simpa [hpc] using hplace
  obtain ⟨pc', rfl, hpc⟩ := (ReadMostly.from_iff _).mpr hjob
  rw [of_decide_eq_true hpc]

/-- A turn on a read-mostly lock. -/
theorem Backed.of_acts (h : r.Backed m) (hacts : Acts r r' t m s job site stand gain)
    (hcount : job ≠ .start (.release .unique) → r.count m .unique ≤ r'.count m .unique)
    (hgain : gain = some .unique → 0 < r'.count m .unique) : r'.Backed m := by
  intro s' hs' hyes
  cases hs'.eq hacts.after
  rcases hacts.table.yes hyes with ⟨answer, rfl⟩ | ⟨hyes, haside | hgained⟩
  · exact .inr ⟨t, answer, by simp [place, hacts.stint', Stand.place?]⟩
  · refine (h s hacts.before hyes).mono (hcount haside.1) fun u answer hplace => .inl ?_
    have hu : u ≠ t := by
      rintro rfl
      exact haside.2 answer (job_eq_of_acts hacts hplace)
    exact (place_congr (hacts.others u hu)).trans hplace
  · exact .inl (hgain hgained)

/-- A job that is no release of the unique lock takes the unique lock from nobody, and one that is
granted it adds a holder. -/
theorem count_unique_of_operates (h : Operates r e r' t m l job op) :
    (job ≠ .start (.release .unique) → r.count m .unique ≤ r'.count m .unique) ∧
      (Hold.granted? op (r.world.work t m job).stand = some .unique → 0 < r'.count m .unique) := by
  have hcount : r'.count m .unique = Crowd.settled (Hold.count (Hold.begun r.holds t m job) m) op
      (r.world.work t m job).stand .unique := by
    rw [count, h.holds, Hold.count_settled]
  have hbegun : job ≠ .start (.release .unique) →
      Hold.count (Hold.begun r.holds t m job) m .unique = r.count m .unique := by
    intro hjob
    cases job with
    | start op' =>
      cases op' with
      | release mode =>
        have hne : Mode.unique ≠ mode := fun heq => hjob (heq ▸ rfl)
        exact Hold.count_givenUp_of_ne hne t
      | acquire | tryAcquire => rfl
    | resume | depart => rfl
  rw [hcount, Crowd.settled]
  cases Hold.granted? op (r.world.work t m job).stand with
  | none => exact ⟨fun hjob => Nat.le_of_eq (hbegun hjob).symm, by rintro ⟨⟩⟩
  | some mode =>
    refine ⟨fun hjob => ?_, fun hmode => ?_⟩
    · dsimp only
      rw [← hbegun hjob, Function.update_apply]
      split
      · next heq =>
        rw [heq]
        exact Nat.le_succ _
      · exact Nat.le_refl _
    · cases hmode
      simp

/-- An ending thread gives up no unique lock. -/
theorem count_unique_of_departs (h : Departs r r' t n l job) (m : Nat) :
    r'.count m .unique = r.count m .unique := by
  rw [count, h.holds, Hold.abandoned]
  split
  · rw [Hold.count, List.countP_filter, count, Hold.count]
    refine List.countP_congr fun g _ => ?_
    obtain ⟨u, k, mode⟩ := g
    cases mode <;> simp
  · rfl

theorem Backed.of_operates (h : r.Backed m) (hop : Operates r e r' t n l job op) :
    r'.Backed m := by
  by_cases hn : m = n
  · subst hn
    intro s' hs' hyes
    obtain ⟨s, hs⟩ := hop.exists_readMostly hs'
    obtain ⟨site, stand, hacts, hstand⟩ := hop.acts hs
    obtain ⟨hcount, hgain⟩ := count_unique_of_operates hop
    rw [hstand, Hold.granted?_lift] at hgain
    exact h.of_acts hacts hcount hgain s' hs' hyes
  · refine h.mono (congrFun (Hold.count_congr ?_) _) (hop.place_of_ne_lock hn)
      fun s' ⟨l', hl', hs'⟩ hyes => ⟨s', ⟨l', hop.lock_of_ne hn ▸ hl', hs'⟩, hyes⟩
    rw [hop.holds, Hold.on_settled_of_ne hn, Hold.on_begun_of_ne hn]

theorem Backed.of_departs (h : r.Backed m) (hdep : Departs r r' t n l job) : r'.Backed m := by
  have hcount := count_unique_of_departs hdep m
  by_cases hn : m = n
  · subst hn
    obtain ⟨s, hs⟩ :=
      Body.exists_readMostly (World.work_departs t hdep.lock hdep.suits hdep.departs).1
    obtain ⟨site, stand, hacts, -⟩ := hdep.acts hs
    exact h.of_acts hacts (fun _ => Nat.le_of_eq hcount.symm) nofun
  · exact h.mono hcount.symm (hdep.place_of_ne_lock hn)
      fun s' ⟨l', hl', hs'⟩ hyes => ⟨s', ⟨l', hdep.lock_of_ne hn ▸ hl', hs'⟩, hyes⟩

/-- What happens to the locks alone sets no claim to `yes`. -/
theorem Backed.of_stirs {locks : List Lock} (h : r.Backed m) (hstirs : Stirs r r' locks)
    (hclaims : ∀ s', r'.world.ReadMostlyAt m s' → s'.claim = .yes →
      ∃ s, r.world.ReadMostlyAt m s ∧ s.claim = .yes) : r'.Backed m :=
  h.mono (congrFun (count_of_holds hstirs.holds) _).symm
    (fun u => place_congr (hstirs.threads u)) hclaims

end Run

theorem claim_eq_of_wakeIn {t : ThreadId} {l : Lock} {s' : ReadMostly.State}
    (h : (World.wakeIn t l).body = .readMostly s') :
    ∃ s, l.body = .readMostly s ∧ s'.claim = s.claim := by
  unfold World.wakeIn at h
  split at h
  · cases h
  · next s hs => exact ⟨s', h, rfl⟩
  · next s hs =>
    cases h
    exact ⟨s, hs, rfl⟩

theorem claim_make {kind : Kind} {config : Config} {id : Nat} {host : Host} {s : ReadMostly.State}
    (h : (Lock.make kind config id host).body = .readMostly s) : s.claim = .no := by
  cases hf : kind.family <;> simp only [Lock.make, hf] at h <;> cases h
  rfl

/-- In every run, whatever the callers do, the claim of a read-mostly lock is `yes` only while
somebody has the unique lock. -/
theorem Reachable.backed {ok : Run → Event → Prop} {r : Run} (h : Reachable ok r) (m : Nat) :
    r.Backed m := by
  refine h.of_moves (P := fun r => r.Backed m) ?_ ?_ ?_
  · rintro host s ⟨l, hl, -⟩
    cases hl
  · intro r r' e hreach _ hmove hbacked
    cases hmove with
    | operate h => exact hbacked.of_operates h
    | depart h => exact hbacked.of_departs h
    | @shift t h =>
      refine hbacked.mono (congrFun (Run.count_of_holds h.holds) _).symm (fun u => ?_)
        fun s' ⟨l', hl', hs'⟩ hyes => ⟨s', ⟨l', h.locks ▸ hl', hs'⟩, hyes⟩
      by_cases hu : u = t
      · subst hu
        simp only [Run.place, h.stint, h.stint']
      · exact Run.place_congr (h.others u hu)
    | drop h =>
      refine hbacked.mono (congrFun (Run.count_of_holds h.holds) _).symm
        (fun u => Run.place_congr (h.threads u)) fun s' ⟨l', hl', hs'⟩ hyes => ?_
      obtain ⟨l, hl, hbody⟩ := h.exists_body_eq hl'
      exact ⟨s', ⟨l, hl, hbody.symm.trans hs'⟩, hyes⟩
    | wake h =>
      refine hbacked.of_stirs h fun s' ⟨l', hl', hs'⟩ hyes => ?_
      obtain ⟨l, hl, rfl⟩ := h.exists_of_wake hl'
      obtain ⟨s, hs, hclaim⟩ := claim_eq_of_wakeIn hs'
      exact ⟨s, ⟨l, hl, hs⟩, hclaim.symm.trans hyes⟩
    | make h =>
      refine hbacked.of_stirs h fun s' ⟨l', hl', hs'⟩ hyes => ?_
      rcases h.or_of_make hl' with hl | ⟨-, id, rfl⟩
      · exact ⟨s', ⟨l', hl, hs'⟩, hyes⟩
      · rw [claim_make hs'] at hyes
        cases hyes
    | rest h =>
      exact hbacked.of_stirs h fun s' ⟨l', hl', hs'⟩ hyes => ⟨s', ⟨l', h.locks ▸ hl', hs'⟩, hyes⟩
  · intro r₀ r r' e n _ _ _ _ hdis _ hbacked
    refine hbacked.mono (congrFun (Run.count_of_holds hdis.holds) _).symm
      (fun u => Run.place_congr (hdis.threads u)) fun s' ⟨l', hl', hs'⟩ hyes => ?_
    obtain ⟨l, hl, rfl | ⟨s, hs, rfl⟩⟩ := hdis.exists_body_eq hl'
    · exact ⟨s', ⟨l', hl, hs'⟩, hyes⟩
    · cases hs'
      exact ⟨s, ⟨l, hl, hs⟩, hyes⟩

/-- A reader that gives a lock up for which it has no flag runs into a fault. -/
theorem ReadMostly.leave_of_none (sc : ReadMostly.Scene) (s : Site) (answer : Answer)
    (h : s.locals.node? sc.key = none) : ∃ locals, locals.nodes = s.locals.nodes ∧
      leave sc answer s = ⟨⟨s.lock, s.flags, locals⟩, .fault .sharedNotHeld, []⟩ := by
  have hnodes := s.locals.nodes_touch .nodes
  have hnode : (s.locals.touch .nodes).node? sc.key = none := by
    rw [Locals.node?, hnodes]
    exact h
  unfold leave
  split
  · exact ⟨s.locals.touch .nodes, hnodes, by simp only [hnode]; rfl⟩
  · exact ⟨s.locals, rfl, rfl⟩

/-! ## Calls that fail -/

namespace World

variable {t : ThreadId} {m : Nat} {task : Task} {worked : Worked}

/-- A job on a lock with a control word changes nothing but that lock. -/
theorem work_withLock {w : World} {l : Lock} {job : Job} (t : ThreadId) (h : w.locks[m]? = some l)
    (hsuits : job.Suits l.body.algorithm) (hread : l.body.algorithm ≠ .readMostly) :
    ∃ body, (w.work t m job).world = w.withLock m { l with body := body } := by
  cases hs : l.body with
  | blocking s =>
    rw [hs] at hsuits
    exact ⟨_, congrArg Worked.world (work_blocking h hs hsuits)⟩
  | polling s =>
    rw [hs] at hsuits
    exact ⟨_, congrArg Worked.world (work_polling h hs hsuits)⟩
  | readMostly s => exact absurd (by rw [hs]; rfl) hread

theorem finish_settle_fault {f : Fault} (h : worked.stand = .fault f) :
    (settleCall t (settle t m task worked)).finish = some (.faulted f) := by
  simp only [settle, h, settleCall]

theorem finish_settle_here {p : Progress} (h : worked.stand = .here p) :
    (settleCall t (settle t m task worked)).finish = none := by
  simp only [settle, h, settleCall]

end World

namespace Run

variable {r r' : Run} {e : Event} {t : ThreadId} {m : Nat} {l l' : Lock} {job : Job} {c : Call}
  {mode : Mode} {f : Fault}

/-- All locks are as before, with their words, claims, counts, queues and registries, and so are the
flags, the nodes of the thread, and all other threads. -/
structure Untouched (r r' : Run) (t : ThreadId) : Prop where
  locks : r'.world.locks = r.world.locks
  flags : r'.world.flags = r.world.flags
  nodes : (r'.world.thread t).locals.nodes = (r.world.thread t).locals.nodes
  others : ∀ u, u ≠ t → r'.world.thread u = r.world.thread u

/-- The event is a turn of a call that comes to a fault, whatever other threads do meanwhile. None
of its turns touches anything. -/
inductive Fails (t : ThreadId) (f : Fault) : Run → Event → Prop
  | now {r : Run} {e : Event} : (r.world.meet e).finish = some (.faulted f) →
      r.Untouched (r.after e) t → Fails t f r e
  | next {r : Run} {e : Event} : (r.world.meet e).finish = none → r.Untouched (r.after e) t →
      (∀ r', (r.after e).Leads (fun _ e => e ≠ .turn t) r' → r'.world.Permits (.turn t)) →
      (∀ r', (r.after e).Leads (fun _ e => e ≠ .turn t) r' → Fails t f r' (.turn t)) → Fails t f r e

/-- A call that gives a lock up begins with the release. -/
theorem Orderly.release_begins (ho : r.Orderly) (hp : r.world.Permits (.call t m c))
    (hc : c.releases? = some mode) (hl : r.world.locks[m]? = some l) :
    ∃ task, Operates r (.call t m c) (r.after (.call t m c)) t m l (.start (.release mode))
        (.release mode) ∧ c.Performs (.release mode) task ∧
      r.world.meet (.call t m c) = World.settleCall t
        (World.settle t m task (r.world.work t m (.start (.release mode)))) := by
  have hlocking : c.isLocking = true := by simp [Call.isLocking, hc]
  obtain ⟨op, task, hperf, hbegin⟩ := World.beginCallOn_performs r.world t m l hlocking
  have hop : op = .release mode := by
    have hreleases := hperf.releases?_eq.symm.trans hc
    cases op with
    | release mode' => exact congrArg Operation.release (Option.some.inj hreleases)
    | acquire | tryAcquire => cases hreleases
  subst hop
  obtain ⟨hidle, hsome, -⟩ := hp
  obtain ⟨l', hl'⟩ := Option.isSome_iff_exists.mp hsome
  cases hl.symm.trans ((r.world.lock?_eq_some m).mp hl').1
  refine ⟨task, (call_operates ho hidle hl' hperf hbegin).1, hperf, ?_⟩
  simp only [World.meet, World.call, World.beginCall, hl, hbegin]

theorem Untouched.of_turned (h : Turned r r' t m l job) (hl' : r'.world.locks[m]? = some l')
    (hbody : l'.body = l.body) (hflags : r'.world.flags = r.world.flags)
    (hnodes : (r'.world.thread t).locals.nodes = (r.world.thread t).locals.nodes) :
    r.Untouched r' t :=
  ⟨h.locks_eq hl' hbody, hflags, hnodes, h.others⟩

/-- A turn that leaves a lock with a control word touches nothing. -/
theorem Untouched.of_word (h : Turned r r' t m l job) (hread : l.body.algorithm ≠ .readMostly)
    (hl' : (r.world.work t m job).world.locks[m]? = some l) : r.Untouched r' t := by
  obtain ⟨body, hwork⟩ := World.work_withLock t h.lock h.suits hread
  refine .of_turned h (h.locks ▸ hl') rfl ?_ ?_
  · rw [h.flags, hwork]
    rfl
  · rw [h.locals, hwork]
    rfl

/-- A turn that leaves a read-mostly lock, the flags and the nodes touches nothing. -/
theorem Untouched.of_readMostly {s : ReadMostly.State} {locals : ReadMostly.Locals}
    {stand : Stand Pc} {notes : List Note} (h : Turned r r' t m l job) (hs : l.body = .readMostly s)
    (hstep : job.onReadMostly ⟨t, m, r.world.isAlive⟩
        ⟨s, r.world.flags, (r.world.thread t).locals⟩ =
      ⟨⟨s, r.world.flags, locals⟩, stand, notes⟩)
    (hnodes : locals.nodes = (r.world.thread t).locals.nodes) :
    r.Untouched r' t ∧ (r.world.work t m job).stand = stand.lift .readMostly := by
  obtain ⟨⟨l', hl', hs'⟩, hflags, hlocals, hstand⟩ := h.onReadMostly hs hstep.symm
  exact ⟨.of_turned h hl' (hs'.trans hs.symm) hflags (by rw [hlocals, hnodes]), hstand⟩

/-- The release of a lock fails whose control word says that it is not held. -/
theorem Orderly.fails_of_lacks {State Pc : Type} {M : Machine State Pc} {a : Algorithm}
    {word : State → Word} {s : State} (ho : r.Orderly) (hM : M.Is a)
    (hrefuses : M.RefusesReleases word) (hp : r.world.Permits (.call t m c))
    (hc : c.releases? = some mode) (hl : r.world.locks[m]? = some l) (hs : l.body = M.body s)
    (hlacks : (word s).Lacks mode) : Fails t (.notHeld mode) r (.call t m c) := by
  obtain ⟨task, hop, -, hmeet⟩ := ho.release_begins hp hc hl
  obtain ⟨hlocks, hstand⟩ := hM.start r.world t m l s (.release mode) hl hs
  rw [hrefuses mode s hlacks] at hlocks hstand
  refine .now (hmeet ▸ World.finish_settle_fault hstand) (.of_word hop.toTurned ?_ ?_)
  · rw [hs, hM.body_algorithm]
    exact hM.not_departs
  · rw [← hop.locks, hop.lock_of_locks hlocks, ← hs]

/-- The release of the unique lock fails on a read-mostly lock whose claim is not `yes`. -/
theorem Orderly.fails_of_claim (ho : r.Orderly) (hp : r.world.Permits (.call t m c))
    (hc : c.releases? = some .unique) (hl : r.world.locks[m]? = some l) {s : ReadMostly.State}
    (hs : l.body = .readMostly s) (hclaim : s.claim ≠ .yes) :
    Fails t (.claimNotHeld s.claim) r (.call t m c) := by
  obtain ⟨task, hop, -, hmeet⟩ := ho.release_begins hp hc hl
  obtain ⟨huntouched, hstand⟩ := Untouched.of_readMostly hop.toTurned hs (if_neg hclaim) rfl
  exact .now (hmeet ▸ World.finish_settle_fault hstand) huntouched

/-- A thread goes on with its call where others have left it. -/
theorem Leads.caller {ok : Run → Event → Prop} (h : r.Leads ok r')
    (hok : ∀ r e, ok r e → e ≠ .turn t) (ho : r.Orderly) (hasked : r.asked t ≠ none) :
    r'.Orderly ∧ r'.world.thread t = r.world.thread t ∧ r'.asked t = r.asked t := by
  induction h with
  | refl => exact ⟨ho, rfl, rfl⟩
  | step _ hp hoke ih =>
    obtain ⟨ho', hthread, hcall⟩ := ih
    obtain ⟨hthread', hcall'⟩ := ho'.caller_after hp (hcall ▸ hasked) (hok _ _ hoke)
    exact ⟨(after_moves ho' hp).2, hthread'.trans hthread, hcall'.trans hcall⟩

/-- A reader that is about to lower its flag on a read-mostly lock, for which it has none, can go on
and runs into a fault. -/
theorem Orderly.fails_of_leaving (ho : r.Orderly) {answer : Answer}
    (hplace : r.place m t = some (.readMostly (.leaving answer)))
    (hnode : (r.world.thread t).locals.node? m = none) :
    r.world.Permits (.turn t) ∧ Fails t .sharedNotHeld r (.turn t) := by
  obtain ⟨c, op, task, l, hasked, hact, hperf, hl, halg, hserves⟩ :=
    (ho.works_of_place hplace).resolve_right fun h => h.1.elim
  obtain ⟨s, hs⟩ := Body.exists_readMostly halg.symm
  have hlock := ((r.world.lock?_eq_some m).mp hl).1
  have hp : r.world.obstacle t = none := by
    rw [(ho.isOn hplace).2]
    simp only [World.operationObstacle, hlock, hs]
    rfl
  obtain ⟨hop, -⟩ := turn_operates ho hasked hp hact hperf hl halg hserves
  obtain ⟨locals, hnodes, hleave⟩ := ReadMostly.leave_of_none ⟨t, m, r.world.isAlive⟩
    ⟨s, r.world.flags, (r.world.thread t).locals⟩ answer hnode
  obtain ⟨huntouched, hstand⟩ := Untouched.of_readMostly hop.toTurned hs hleave hnodes
  exact ⟨hp, .now (meet_turn hact ▸ World.finish_settle_fault hstand) huntouched⟩

/-- The release of a shared lock fails on a read-mostly lock for which the thread has no flag. -/
theorem Orderly.fails_of_node (ho : r.Orderly) (hp : r.world.Permits (.call t m c))
    (hc : c.releases? = some .shared) (hl : r.world.locks[m]? = some l) {s : ReadMostly.State}
    (hs : l.body = .readMostly s) (hnode : (r.world.thread t).locals.node? m = none) :
    Fails t .sharedNotHeld r (.call t m c) := by
  obtain ⟨task, hop, -, hmeet⟩ := ho.release_begins hp hc hl
  obtain ⟨huntouched, hstand⟩ := Untouched.of_readMostly hop.toTurned hs rfl rfl
  have ho' := (after_moves ho hp).2
  have hplace : (r.after (.call t m c)).place m t = some (.readMostly (.leaving .unit)) := by
    rw [hop.place_self', hstand]
    rfl
  obtain ⟨c', hasked⟩ : ∃ c', (r.after (.call t m c)).asked t = some c' := by
    obtain ⟨c', -, -, -, hasked, -⟩ := (ho'.works_of_place hplace).resolve_right fun h => h.1.elim
    exact ⟨c', hasked⟩
  have hlater : ∀ r', (r.after (.call t m c)).Leads (fun _ e => e ≠ .turn t) r' →
      r'.world.Permits (.turn t) ∧ Fails t .sharedNotHeld r' (.turn t) := by
    intro r' hleads
    obtain ⟨ho'', hthread, -⟩ :=
      hleads.caller (fun _ _ h => h) ho' (by rw [hasked]; exact Option.some_ne_none _)
    refine ho''.fails_of_leaving ((place_congr hthread).trans hplace) ?_
    rw [hthread, ReadMostly.Locals.node?, huntouched.nodes]
    exact hnode
  exact .next (hmeet ▸ World.finish_settle_here hstand) huntouched (fun r' h => (hlater r' h).1)
    fun r' h => (hlater r' h).2

end Run

/-! ## The main result -/

/-- The fault of a release of a lock that is not held. -/
def Body.notHeld : Body → Mode → Fault
  | .readMostly s, .unique => .claimNotHeld s.claim
  | .readMostly _, .shared => .sharedNotHeld
  | .blocking _, mode | .polling _, mode => .notHeld mode

/-- There is nothing in this mode that the thread could give up on the lock at an index. A shared
lock on a read-mostly lock is the thread's own: it can have none if it has no flag there. -/
def Run.Lacks (r : Run) (t : ThreadId) (m : Nat) (l : Lock) : Mode → Prop
  | .unique => ¬ r.Wielded m
  | .shared =>
      if l.body.algorithm = .readMostly then (r.world.thread t).locals.node? m = none
      else r.count m .shared = 0

/-- In every run, whatever the callers have done before, a call fails that gives up what nobody has:
the unique lock, if nobody has it or is about to come back with it; a shared lock of a blocking or
polling lock, if nobody holds one; a shared lock of a read-mostly lock, if the thread has no flag on
it. The call touches nothing, and on a read-mostly lock it fails whatever others do meanwhile. -/
theorem unheldRelease_fails {ok : Run → Event → Prop} {r : Run} {t : ThreadId} {m : Nat} {l : Lock}
    {c : Call} {mode : Mode} (h : Reachable ok r) (hp : r.world.Permits (.call t m c))
    (hc : c.releases? = some mode) (hl : r.world.locks[m]? = some l) (hlacks : r.Lacks t m l mode) :
    Run.Fails t (l.body.notHeld mode) r (.call t m c) := by
  have ho := h.orderly
  -- On a lock with a control word there is nobody about to come back with the unique lock.
  have hnone : l.body.algorithm ≠ .readMostly → r.count m mode = 0 := by
    intro hread
    cases mode with
    | unique => exact Nat.eq_zero_of_not_pos fun hpos => hlacks (.inl hpos)
    | shared => exact (if_neg hread).mp hlacks
  cases hs : l.body with
  | blocking s =>
    have hcounts := h.crowd_anyway Blocking.machine_is Blocking.machine_countsHolders
      Blocking.machine_refusesReleases l s hl hs
    exact ho.fails_of_lacks Blocking.machine_is Blocking.machine_refusesReleases hp hc hl hs
      ((hcounts.counts Blocking.machine_countsHolders).lacks (hnone (by rw [hs]; nofun)))
  | polling s =>
    have hcounts := h.crowd_anyway Polling.machine_is Polling.machine_countsHolders
      Polling.machine_refusesReleases l s hl hs
    exact ho.fails_of_lacks Polling.machine_is Polling.machine_refusesReleases hp hc hl hs
      ((hcounts.counts Polling.machine_countsHolders).lacks (hnone (by rw [hs]; nofun)))
  | readMostly s =>
    cases mode with
    | unique =>
      have hbacked := h.backed m s ⟨l, hl, hs⟩
      exact ho.fails_of_claim hp hc hl hs fun hyes => hlacks (hbacked hyes)
    | shared => exact ho.fails_of_node hp hc hl hs ((if_pos (by rw [hs]; rfl)).mp hlacks)

/-- A thread reads. -/
def Run.loneReader : Run :=
  play {} [.make ⟨.readMostly .isolated, false, false⟩ .standard,
    .call 0 0 (.operate (.acquire .shared)), .turn 0, .turn 0, .turn 0]

/-- Another thread gives a shared lock up that it does not have. -/
theorem unheldRelease_fails_beside_reader :
    Run.Fails 1 .sharedNotHeld Run.loneReader (.call 1 0 (.operate (.release .shared))) := by
  have hr : Reachable (fun _ _ => True) Run.loneReader := Reachable.start.play (by decide +kernel)
  have hread : Run.loneReader.world.locks[0]?.map (·.body.algorithm) = some .readMostly := by
    decide +kernel
  have hnode : (Run.loneReader.world.thread 1).locals.node? 0 = none := by decide +kernel
  obtain ⟨l, hl, halg⟩ := Option.map_eq_some_iff.mp hread
  obtain ⟨s, hs⟩ := Body.exists_readMostly halg
  have hlacks : Run.loneReader.Lacks 1 0 l .shared := (if_pos halg).mpr hnode
  have hp : Run.loneReader.world.Permits (.call 1 0 (.operate (.release .shared))) := by
    decide +kernel
  have hfails := unheldRelease_fails hr hp rfl hl hlacks
  rw [hs] at hfails
  exact hfails

/-- The thread gives its shared lock up. -/
def Run.spentReader : Run := loneReader.play [.call 0 0 (.operate (.release .shared)), .turn 0]

/-- A thread that has given its shared lock up has its flag still. It can give the lock up once
more, though nobody has it, and does not fail: the call comes back as if it had held it. -/
theorem double_release_is_answered :
    Reachable (fun _ _ => True) Run.spentReader ∧ Run.spentReader.holds = [] ∧
      Run.spentReader.world.Permits (.call 0 0 (.operate (.release .shared))) ∧
      ∀ f, ¬ Run.Fails 0 f Run.spentReader (.call 0 0 (.operate (.release .shared))) := by
  have hr : Reachable (fun _ _ => True) Run.loneReader := Reachable.start.play (by decide +kernel)
  have hbegins : (Run.spentReader.world.meet (.call 0 0 (.operate (.release .shared)))).finish =
      none := by
    decide +kernel
  have hends : ((Run.spentReader.after (.call 0 0 (.operate (.release .shared)))).world.meet
      (.turn 0)).finish = some (.replied (.ofAnswer .unit)) := by
    decide +kernel
  refine ⟨hr.play (by decide +kernel), by decide +kernel, by decide +kernel, fun f hfails => ?_⟩
  cases hfails with
  | now hfinish => cases hbegins.symm.trans hfinish
  | next _ _ _ hlater =>
    cases hlater _ .refl with
    | now hfinish => cases hends.symm.trans hfinish
    | next hfinish => cases hends.symm.trans hfinish

end ReaderWriter
