import ReaderWriter.Proofs.ReadMostly.Burials

/-!
# The registries and the nodes of the threads agree

Each thread keeps, for every read-mostly lock that it has used, the flag that it was given, and each
lock keeps the list of those flags. The two are changed apart from each other, and threads and locks
end in any order. They agree all the same, whatever the threads do, as long as the suppliers hand
out fresh flags.

* `Run.entries_after`: how an event changes the list of a lock.
* `Run.after_busy_attempt`: an attempt that finds the registry busy leaves everything as it was.
* `readMostly_registry_agrees`: what the lists and the nodes say, in every run.
-/

namespace ReaderWriter

open ReadMostly (Flag Site Pc Transition)

variable {r r' : Run} {e : Event} {t u : ThreadId} {m n : Nat} {l : Lock} {job : Job}
  {s s' : ReadMostly.State} {site : Site} {stand : Stand Pc} {gain : Option Mode} {f : Flag}

/-! ## The list of a lock -/

namespace Owns

variable {live : Nat → Prop}

/-- A node of a live lock is on the lock's list. -/
theorem listed_of_node (ho : Owns r live) (hlive : live m) (hs : r.world.ReadMostlyAt m s)
    (hf : (m, f) ∈ (r.world.thread t).locals.nodes) : f ∈ s.registry.entries := by
  have hflags : ∀ {g}, (r.world.thread t).inHand? = some (m, g) → False := by
    intro g hg
    have hkeys := ho.keys t
    simp only [Thread.flags, hg, Option.toList_some, List.map_append, List.nodup_append,
      List.map_cons, List.map_nil] at hkeys
    refine hkeys.2.2 m ?_ m (List.mem_singleton.mpr rfl) rfl
    exact List.mem_append_left _ (List.mem_map.mpr ⟨_, hf, rfl⟩)
  refine ((ho.rolls hlive hs).2 f).mpr ⟨t, by simp [Thread.flags, hf], ?_⟩
  rintro ⟨pc, hstint, hregisters⟩
  cases pc with
  | registering p g a => exact hflags (by simp only [Thread.inHand?, hstint]; rfl)
  | _ => cases hregisters

/-- A flag on a list is the flag of one thread. -/
theorem existsUnique_owner (ho : Owns r live) (hlive : live m) (hs : r.world.ReadMostlyAt m s)
    (hf : f ∈ s.registry.entries) : ∃! t, (m, f) ∈ (r.world.thread t).flags := by
  obtain ⟨t, ht, -⟩ := ((ho.rolls hlive hs).2 f).mp hf
  exact ⟨t, ht, fun u hu => (ho.owner hu ht).1⟩

/-- A thread has one flag on the list, or none. -/
theorem countP_entries (ho : Owns r live) (hlive : live m) (hs : r.world.ReadMostlyAt m s) :
    (r.Lists m t →
        (s.registry.entries.countP fun f => decide ((m, f) ∈ (r.world.thread t).flags)) = 1) ∧
      (¬ r.Lists m t →
        (s.registry.entries.countP fun f => decide ((m, f) ∈ (r.world.thread t).flags)) = 0) := by
  obtain ⟨hnodup, hlisted⟩ := ho.rolls hlive hs
  constructor
  · rintro ⟨f, hf, hnot⟩
    have hsame : (s.registry.entries.countP fun g => decide ((m, g) ∈ (r.world.thread t).flags)) =
        s.registry.entries.countP (· == f) := by
      refine List.countP_congr fun g _ => ?_
      simp only [decide_eq_true_eq, beq_iff_eq]
      exact ⟨fun hg => ho.flag_eq hg hf, fun heq => heq ▸ hf⟩
    rw [hsame]
    exact List.count_eq_one_of_mem hnodup ((hlisted f).mpr ⟨t, hf, hnot⟩)
  · intro hnot
    rw [List.countP_eq_zero]
    intro f hf hmem
    obtain ⟨u, hu, hregisters⟩ := (hlisted f).mp hf
    obtain ⟨rfl, -⟩ := ho.owner hu (of_decide_eq_true hmem)
    exact hnot ⟨f, hu, hregisters⟩

end Owns

namespace Run

/-- What the lock does for a thread that has left its registry with the flag up begins. -/
def runsHook (m : Nat) (t : ThreadId) : Run → Event → Bool := goesFrom Pc.isAbandoned m t

/-- How an event changes the list of a lock that does not go: a thread enters its flag, or takes its
flag off, which is down then. -/
theorem entries_after {ok : Run → Event → Prop} (hok : ∀ r e, ok r e → r.HandsOutFresh e)
    (hreach : Reachable ok r) (hp : r.world.Permits e)
    (halive : (r.after e).world.isAlive m = true) (hs : r.world.ReadMostlyAt m s)
    (hs' : (r.after e).world.ReadMostlyAt m s') :
    s'.registry.entries = s.registry.entries ∨
      (∃ t f, enrols m t r e = true ∧ (m, f) ∈ ((r.after e).world.thread t).flags ∧
        s'.registry.entries = s.registry.entries ++ [f]) ∨
      ∃ t f, withdraws m t r e = true ∧ (m, f) ∈ (r.world.thread t).flags ∧
        r.world.flags.isRaised f = false ∧ s'.registry.entries = s.registry.entries.erase f := by
  obtain ⟨⟨r₁, hmove, hrest⟩, -⟩ := after_moves hreach.orderly hp
  obtain ⟨hthreads, hs₁⟩ : (∀ u, (r.after e).world.thread u = r₁.world.thread u) ∧
      r₁.world.ReadMostlyAt m s' := by
    rcases hrest with ⟨heq, -⟩ | ⟨n, -, hdis⟩
    · rw [← heq]
      exact ⟨fun _ => rfl, hs'⟩
    · have hn : m ≠ n := by
        rintro rfl
        have hdead := hdis.dead
        rw [hdis.isAlive_iff.mp halive] at hdead
        cases hdead
      exact ⟨hdis.threads, (hdis.readMostlyAt.1 m hn s').mp hs'⟩
  rcases roll_of_move hmove hs₁ with
    ⟨s₀, hs₀, hentries⟩ | ⟨hnew, -⟩ | ⟨t, s₀, job, site, stand, gain, hacts, hpart, -, rfl⟩
  · cases hs.eq hs₀
    exact .inl hentries
  · exact absurd hs (hnew s)
  · cases hs.eq hacts.before
    have hcomes : ∀ kind, comesTo kind m t r e =
        (stand.place?.any kind && !job.pc?.any kind) := by
      intro kind
      rw [comesTo_eq (hthreads t), comes, hacts.pc?_before, hacts.pc?_after]
    cases hacts.restocks hpart with
    | keeps _ _ hentries | gains _ _ _ _ hentries => exact .inl hentries
    | enlists f heq hmem hentries hbefore hafter =>
      refine .inr (.inl ⟨t, f, ?_, by rwa [hthreads, heq], hentries⟩)
      rw [hacts.registers_before] at hbefore
      rw [hacts.registers_after, Bool.not_eq_true] at hafter
      have hregistered := hacts.table.registered_iff.mpr ⟨hbefore, hafter⟩
      obtain ⟨p, g, e, hjob⟩ := hacts.table.of_registered hregistered
      rw [enrols, hcomes, hregistered, hjob]
      rfl
    | @loses f wasUp hjob hstand heq hentries =>
      refine .inr (.inr ⟨t, f, ?_, by simp [heq], ?_, hentries⟩)
      · rw [withdraws, hcomes, hjob, hstand]
        rfl
      · have hstint := hacts.stint
        rw [hjob] at hstint
        exact (hreach.lit hok).1.lowered hstint

/-- A thread enters its flag only in a call for a shared lock. -/
theorem awaits_of_enrols {live : Nat → Prop} (ho : r.Orderly) (howns : Owns r live)
    (hp : r.world.Permits e) (h : enrols m t r e = true) : r.Awaits t m .shared := by
  obtain ⟨r₁, hmove, hthreads, -⟩ := after_threads ho hp
  rw [enrols, comesTo_eq (hthreads t)] at h
  have hregisters : ∀ {s job site stand gain}, Acts r r₁ t m s job site stand gain →
      ∃ p f e, job = .from (.registering p f e) := by
    intro s job site stand gain hacts
    rw [comes, hacts.pc?_after, Bool.and_eq_true] at h
    exact hacts.table.of_registered h.1
  cases hmove.bears howns m t with
  | @calls l s job op site stand hop hacts =>
    obtain ⟨p, f, e, rfl⟩ := hregisters hacts
    have hserves : op = p.operation := hop.serves
    refine hop.awaited _ rfl _ ?_
    rw [hserves]
    cases p <;> rfl
  | departs hdep hacts =>
    obtain ⟨p, f, e, rfl⟩ := hregisters hacts
    exact hdep.departs.elim
  | rests hpc =>
    simp [comes, hpc] at h

end Run

/-! ## An attempt that finds the registry busy -/

/-- A hasty reader without a flag that finds the registry busy gives up, if its supplier does not
fail, and changes nothing but the supplier's stock. -/
theorem ReadMostly.Transition.of_busy {sc : ReadMostly.Scene} {s s' : Site}
    (h : Transition sc s job s' stand gain) (hjob : job = .start (.tryAcquire .shared))
    (hnode : s.locals.node? sc.key = none) (hcan : s.locals.canUse .nodes = true)
    (hbusy : s.lock.registry.canWrite = false) :
    s'.lock = s.lock ∧ s'.locals.nodes = s.locals.nodes ∧ s'.flags.raised = s.flags.raised ∧
      (stand = .done (.granted false) ∨
        ∃ f, s.lock.supply.allocate s.flags (s.locals.touch .nodes) = .error f ∧
          stand = .fault f) := by
  subst hjob
  cases h with
  | arrive _ hsome =>
    rw [hnode] at hsome
    cases hsome
  | register hasks _ _ hadmits hinside =>
    cases hasks
    cases hinside rfl
    cases hbusy.symm.trans hadmits
  | registerNever _ _ halloc =>
    have hkeeps := ReadMostly.Supply.allocate_keeps halloc
    exact ⟨rfl, hkeeps.nodes.trans (s.locals.nodes_touch _), hkeeps.raised, .inl rfl⟩
  | noFlag f _ halloc => exact ⟨rfl, s.locals.nodes_touch _, rfl, .inr ⟨f, halloc, rfl⟩⟩
  | noNodes _ hcannot =>
    rw [hcan] at hcannot
    cases hcannot
  | registerLater hasks => cases hasks
  | queue henters | claim _ henters => cases henters

/-- An attempt that finds the registry busy leaves the registry and the nodes as they were. -/
theorem Run.after_busy_attempt (ho : r.Orderly) (htended : r.Tended)
    (hp : r.world.Permits (.call t m (.operate (.tryAcquire .shared))))
    (hs : r.world.ReadMostlyAt m s) (hbusy : s.registry.canWrite = false)
    (hnode : ∀ f, (m, f) ∉ (r.world.thread t).locals.nodes) :
    let r' := r.after (.call t m (.operate (.tryAcquire .shared)))
    r'.world.ReadMostlyAt m s ∧
      (r'.world.thread t).locals.nodes = (r.world.thread t).locals.nodes ∧
      r'.world.flags.raised = r.world.flags.raised ∧ r'.holds = r.holds ∧
      ((r.world.meet (.call t m (.operate (.tryAcquire .shared)))).finish =
          some (.replied (.truth false)) ∨
        ∃ f, s.supply.allocate r.world.flags ((r.world.thread t).locals.touch .nodes) = .error f ∧
          (r.world.meet (.call t m (.operate (.tryAcquire .shared)))).finish =
            some (.faulted f)) := by
  obtain ⟨hidle, hlock, -⟩ := hp
  obtain ⟨l, hl⟩ := Option.isSome_iff_exists.mp hlock
  obtain ⟨l', hl', hbody⟩ := hs
  have hlock := ((r.world.lock?_eq_some m).mp hl).1
  cases hlock.symm.trans hl'
  obtain ⟨hop, -⟩ := call_operates ho hidle hl (.operate (.tryAcquire .shared)) rfl
  obtain ⟨site, stand, hacts, hstand⟩ := hop.acts hbody
  have hnone : (r.world.thread t).locals.node? m = none := by
    refine List.lookup_eq_none_iff.mpr fun entry hmem => ?_
    obtain ⟨n, f⟩ := entry
    have hne : m ≠ n := by
      rintro rfl
      exact hnode f hmem
    simpa using hne
  have hcan : (r.world.thread t).locals.canUse .nodes = true := by
    simp [ReadMostly.Locals.canUse, htended.intact t hop.lives]
  obtain ⟨hsame, hnodes, hraised, hends⟩ := hacts.table.of_busy rfl hnone hcan hbusy
  have hfinish : (r.world.meet (.call t m (.operate (.tryAcquire .shared)))).finish =
      (r.world.work t m (.start (.tryAcquire .shared))).stand.finish? := by
    rw [← World.finish_settle_answer t m]
    simp only [World.meet, World.call, World.beginCall, hlock]
    rfl
  have hgranted : Hold.granted? (.tryAcquire .shared) stand = none := by
    rcases hends with rfl | ⟨f, -, rfl⟩ <;> rfl
  have hafter : site.lock = s := hsame
  refine ⟨hafter ▸ hacts.after, by rw [hacts.locals, hnodes], by rw [hacts.flags, hraised], ?_, ?_⟩
  · rw [hop.holds, hstand, Hold.settled, Hold.granted?_lift, hgranted]
    rfl
  · rw [hfinish, hstand]
    rcases hends with rfl | ⟨f, halloc, rfl⟩
    · exact .inl rfl
    · exact .inr ⟨f, halloc, rfl⟩

/-! ## Locks that have gone -/

/-- Nobody stands at a place of a lock that has gone. -/
theorem Run.Orderly.place_of_dead (ho : r.Orderly) (hdead : r.world.isAlive m = false)
    (t : ThreadId) : r.place m t = none := by
  refine Option.eq_none_iff_forall_ne_some.mpr fun p hplace => ?_
  rw [← Bool.not_eq_true, World.isAlive_iff] at hdead
  cases ho.standsAt hplace with
  | working _ _ _ hl => exact hdead (.inl ⟨_, hl⟩)
  | departing _ hact _ hchore =>
    refine hdead (.inr ⟨t, ?_⟩)
    simp only [Thread.departingFrom?, hact, Ending.departingFrom?, hchore]

/-- An ending thread that comes to a lock that has gone passes it by, and tells nothing. -/
theorem World.turn_of_dead {w : World} {ending : Ending} {rest : List (Nat × Flag)}
    (hact : (w.thread t).activity = .ending ending) (hchore : ending.chore = none)
    (hnodes : ending.nodes = (m, f) :: rest) (hdead : w.isAlive m = false) :
    w.meet (.turn t) =
      { world := w.withActivity t (.ending { ending with nodes := rest }) } := by
  simp [meet, turn, hact, resumeEnding, hchore, hnodes, beginNode, hdead, settleEnding]

namespace Run

variable {host : Host} {events before : List Event}

/-- A flag that has been on the list of a lock that has gone is down, or has been handed out for
another lock since. A supplier of this library never does that. -/
theorem Plays.down_of_dead (h : (initial host).Plays HandsOutFresh (before ++ events))
    (hs : (play (.initial host) before).world.ReadMostlyAt m s) (hf : f ∈ s.registry.entries)
    (hdead : (play (.initial host) (before ++ events)).world.isAlive m = false) :
    ((play (.initial host) (before ++ events)).world.flags.isRaised f = false ∨
        ∃ t n, n ≠ m ∧ (play (.initial host) (before ++ events)).world.isAlive n = true ∧
          (n, f) ∈ ((play (.initial host) (before ++ events)).world.thread t).flags) ∧
      ((play (.initial host) (before ++ events)).world.OwnSupplies →
        (play (.initial host) (before ++ events)).world.flags.isRaised f = false) := by
  have hok : ∀ r e, HandsOutFresh r e → HandsOutFresh r e := fun _ _ h => h
  obtain ⟨hbefore, hafter⟩ := plays_append.mp h
  have hreach : Reachable HandsOutFresh (play (.initial host) before) :=
    Reachable.start.play hbefore
  have hreach' : Reachable HandsOutFresh (play (.initial host) (before ++ events)) :=
    Reachable.start.play h
  have hother : (play (.initial host) (before ++ events)).world.flags.isRaised f = true →
      ∃ t n, n ≠ m ∧ (play (.initial host) (before ++ events)).world.isAlive n = true ∧
        (n, f) ∈ ((play (.initial host) (before ++ events)).world.thread t).flags := by
    intro hup
    obtain ⟨t, n, halive, hmem⟩ := hreach'.owner_of_raised hok hup
    refine ⟨t, n, ?_, halive, hmem⟩
    rintro rfl
    rw [hdead] at halive
    cases halive
  refine ⟨?_, fun hown => Bool.eq_false_iff.mpr fun hup => ?_⟩
  · cases hup : (play (.initial host) (before ++ events)).world.flags.isRaised f with
    | false => exact .inl rfl
    | true => exact .inr (hother hup)
  · obtain ⟨t, n, hn, -, hmem⟩ := hother hup
    have halive := (hreach.lit hok).2.isAlive hs hf
    obtain ⟨u, hu, -⟩ := (((hreach.owns hok).rolls (.inl halive) hs).2 f).mp hf
    rw [play_append] at hown hmem
    exact hn ((hafter.keptFor hok hreach hu hown).lock hmem)

/-- What a thread that has left a registry with its flag up owes it is done once, and after the flag
has been taken off. -/
theorem Plays.runsHook_eq (h : (initial host).Plays HandsOutFresh events) (m : Nat) (t : ThreadId) :
    tally (runsHook m t) (.initial host) events +
        (((play (.initial host) events).pc? m t).any fun pc => pc.owes || pc.isAbandoned).toNat =
      tally (breaksOff m t) (.initial host) events := by
  have howed := (h.ledger m t).owed
  have htally := tally_comesTo Pc.isAbandoned m t (initial host) events
  have hstart : ((initial host).pc? m t).any Pc.isAbandoned = false := rfl
  have hplace : (((play (.initial host) events).pc? m t).any fun pc =>
        pc.owes || pc.isAbandoned).toNat =
      (((play (.initial host) events).pc? m t).any Pc.owes).toNat +
        (((play (.initial host) events).pc? m t).any Pc.isAbandoned).toNat := by
    cases (play (.initial host) events).pc? m t with
    | none => rfl
    | some pc =>
      cases pc with
      | departing f wasUp a | departed wasUp => cases wasUp <;> rfl
      | _ => rfl
  rw [hstart, Bool.toNat_false, Nat.add_zero] at htally
  rw [hplace, howed, htally]
  simp only [runsHook]
  omega

/-- The lock looks after a thread that has left the registry once it is off the list. -/
theorem Plays.off_of_runsHook (h : (initial host).Plays HandsOutFresh events)
    (he : runsHook m t (play (.initial host) events) e = true) :
    0 < tally (withdraws m t) (.initial host) events ∧
      ∀ f, (m, f) ∉ ((play (.initial host) events).world.thread t).flags := by
  have hledger := h.ledger m t
  have hreach : Reachable HandsOutFresh (play (.initial host) events) := Reachable.start.play h
  rw [runsHook, goesFrom, comes, Bool.and_eq_true] at he
  obtain ⟨pc, hpc, habandoned⟩ := (Option.any_eq_true _ _).mp he.1
  have htally := tally_comesTo Pc.isAbandoned m t (initial host) events
  have hstart : ((initial host).pc? m t).any Pc.isAbandoned = false := rfl
  rw [hstart, he.1, Bool.toNat_false, Bool.toNat_true] at htally
  have htold := hledger.told
  have hleft := hledger.left_le
  have honce := hledger.once
  refine ⟨by omega, fun f hf => ?_⟩
  have halive : (play (.initial host) events).world.isAlive m = true := by
    refine Bool.eq_false_or_eq_true _ |>.resolve_right fun hdead => ?_
    rw [pc?, hreach.orderly.place_of_dead hdead] at hpc
    cases hpc
  have hregisters : ¬ ((play (.initial host) events).world.thread t).Registers m := by
    rw [registers_iff_pc?, hpc]
    cases pc with
    | abandoned => exact Bool.false_ne_true
    | _ => cases habandoned
  have hlisted := (hledger.listed (.inl halive)).1 ⟨f, hf, hregisters⟩
  omega

end Run

/-! ## In every run -/

/-- The lists of the read-mostly locks agree with what the threads keep, whatever the callers do, as
long as only fresh flags are handed out; the suppliers of this library hand out no others.

* The list of a lock that has not gone names no flag twice, and only flags of which each belongs to
  one thread. It names every node that a thread keeps for the lock. A thread has as many flags on it
  as it has entered and not taken off; once the thread has gone, it has taken off what it has
  entered.
* A thread enters its flag once at most, in a call for a shared lock.
* An attempt that finds the registry busy comes back at once and changes neither the lock nor the
  nodes nor a flag.
* The list changes only as a thread enters its flag, or takes its own flag off, which is down then.
* What the lock does for a thread that leaves the registry with its flag up happens once for each
  such thread, after its flag has been taken off, and for no other thread.
* A lock that has gone has nobody on its list and nobody at its places. A flag that has been on the
  list is down, unless the supplier has handed it out anew for another lock, and an ending thread
  passes the lock by and tells nothing. -/
theorem readMostly_registry_agrees {ok : Run → Event → Prop} {host : Host} {events : List Event}
    (h : (Run.initial host).Plays ok events) {r : Run} (hr : r = Run.play (.initial host) events)
    (hfresh : (∀ r e, ok r e → r.HandsOutFresh e) ∨ r.world.OwnSupplies) (m : Nat) :
    (∀ s, r.world.isAlive m = true → r.world.ReadMostlyAt m s →
        s.registry.entries.Nodup ∧
          (∀ f ∈ s.registry.entries, ∃! t, (m, f) ∈ (r.world.thread t).flags) ∧
          (∀ t f, (m, f) ∈ (r.world.thread t).locals.nodes → f ∈ s.registry.entries) ∧
          (∀ t, (s.registry.entries.countP fun f => decide ((m, f) ∈ (r.world.thread t).flags)) +
              Run.tally (Run.withdraws m t) (.initial host) events =
            Run.tally (Run.enrols m t) (.initial host) events) ∧
          ∀ t, (r.world.thread t).activity = .gone →
            Run.tally (Run.withdraws m t) (.initial host) events =
              Run.tally (Run.enrols m t) (.initial host) events) ∧
      (∀ t, Run.tally (Run.enrols m t) (.initial host) events ≤ 1) ∧
      (∀ t e, r.world.Permits e → Run.enrols m t r e = true → r.Awaits t m .shared) ∧
      (∀ t s e, e = .call t m (.operate (.tryAcquire .shared)) → r.world.Permits e →
        r.world.ReadMostlyAt m s → s.registry.canWrite = false →
        (∀ f, (m, f) ∉ (r.world.thread t).locals.nodes) →
          (r.after e).world.ReadMostlyAt m s ∧
            ((r.after e).world.thread t).locals.nodes = (r.world.thread t).locals.nodes ∧
            (r.after e).world.flags.raised = r.world.flags.raised ∧ (r.after e).holds = r.holds ∧
            ((r.world.meet e).finish = some (.replied (.truth false)) ∨
              ∃ f, s.supply.allocate r.world.flags ((r.world.thread t).locals.touch .nodes) =
                  .error f ∧ (r.world.meet e).finish = some (.faulted f))) ∧
      (∀ e s s', r.world.Permits e → (r.after e).world.isAlive m = true →
        r.world.ReadMostlyAt m s → (r.after e).world.ReadMostlyAt m s' →
          s'.registry.entries = s.registry.entries ∨
            (∃ t f, Run.enrols m t r e = true ∧ (m, f) ∈ ((r.after e).world.thread t).flags ∧
              s'.registry.entries = s.registry.entries ++ [f]) ∨
            ∃ t f, Run.withdraws m t r e = true ∧ (m, f) ∈ (r.world.thread t).flags ∧
              r.world.flags.isRaised f = false ∧
              s'.registry.entries = s.registry.entries.erase f) ∧
      (∀ t, Run.tally (Run.runsHook m t) (.initial host) events ≤ 1 ∧
        ((r.world.thread t).activity = .gone →
          Run.tally (Run.runsHook m t) (.initial host) events =
            Run.tally (Run.breaksOff m t) (.initial host) events) ∧
        ∀ e, Run.runsHook m t r e = true →
          0 < Run.tally (Run.withdraws m t) (.initial host) events ∧
            ∀ f, (m, f) ∉ (r.world.thread t).flags) ∧
      (r.world.isAlive m = false → ∀ s, r.world.ReadMostlyAt m s →
        s.registry.entries = [] ∧ (∀ t, r.place m t = none) ∧
          (∀ before after s₀ f, events = before ++ after →
            (Run.play (.initial host) before).world.ReadMostlyAt m s₀ → f ∈ s₀.registry.entries →
              (r.world.flags.isRaised f = false ∨ ∃ t n, n ≠ m ∧ r.world.isAlive n = true ∧
                (n, f) ∈ (r.world.thread t).flags) ∧
              (r.world.OwnSupplies → r.world.flags.isRaised f = false)) ∧
          ∀ t ending f rest, (r.world.thread t).activity = .ending ending →
            ending.chore = none → ending.nodes = (m, f) :: rest →
              r.world.meet (.turn t) =
                { world := r.world.withActivity t (.ending { ending with nodes := rest }) }) := by
  have hplays : (Run.initial host).Plays Run.HandsOutFresh events := by
    rcases hfresh with hfresh | hown
    · exact h.mono hfresh
    · exact h.handsOutFresh (hr ▸ hown)
  have hok : ∀ r e, Run.HandsOutFresh r e → Run.HandsOutFresh r e := fun _ _ h => h
  have hreach : Reachable Run.HandsOutFresh r := hr ▸ Reachable.start.play hplays
  have howns := hreach.owns hok
  have hempty := (hreach.lit hok).2
  have hledger := fun t => hplays.ledger m t
  rw [← hr] at hledger
  have hgone : ∀ {t}, (r.world.thread t).activity = .gone → r.pc? m t = none := by
    intro t hact
    refine Run.pc?_eq_none fun n pc hpc => ?_
    simp [Thread.stint?, hact] at hpc
  refine ⟨fun s halive hs => ?_, fun t => (hledger t).once, fun t e hp he =>
    Run.awaits_of_enrols hreach.orderly howns hp he, ?_, fun e s s' hp halive hs hs' =>
    Run.entries_after hok hreach hp halive hs hs', fun t => ?_, fun hdead s hs => ?_⟩
  · have hcounts : ∀ t,
        (s.registry.entries.countP fun f => decide ((m, f) ∈ (r.world.thread t).flags)) +
            Run.tally (Run.withdraws m t) (.initial host) events =
          Run.tally (Run.enrols m t) (.initial host) events := by
      intro t
      obtain ⟨hon, hoff⟩ := howns.countP_entries (t := t) (.inl halive) hs
      obtain ⟨hon', hoff'⟩ := (hledger t).listed (.inl halive)
      by_cases hlists : r.Lists m t
      · rw [hon hlists, hon' hlists, Nat.add_comm]
      · rw [hoff hlists, hoff' hlists, Nat.zero_add]
    refine ⟨(howns.rolls (.inl halive) hs).1,
      fun f hf => howns.existsUnique_owner (.inl halive) hs hf,
      fun t f hf => howns.listed_of_node (.inl halive) hs hf, hcounts, fun t hact => ?_⟩
    refine ((hledger t).listed (.inl halive)).2 ?_ |>.symm
    rintro ⟨f, hf, -⟩
    rw [hreach.tended.gone t hact] at hf
    cases hf
  · rintro t s e rfl hp hs hbusy hnode
    exact Run.after_busy_attempt hreach.orderly hreach.tended hp hs hbusy hnode
  · have hhook := hplays.runsHook_eq m t
    have htally := Run.tally_comesTo Pc.isAbandoned m t (.initial host) events
    have hstart : ((Run.initial host).pc? m t).any Pc.isAbandoned = false := rfl
    rw [hstart, Bool.toNat_false, Nat.add_zero] at htally
    have htold := (hledger t).told
    have hleft := (hledger t).left_le
    have honce := (hledger t).once
    refine ⟨?_, fun hact => ?_, fun e he => ?_⟩
    · have hle : Run.tally (Run.runsHook m t) (.initial host) events ≤
          Run.tally (Run.comesTo Pc.isAbandoned m t) (.initial host) events := by
        rw [htally, Run.runsHook]
        exact Nat.le_add_right _ _
      omega
    · rw [← hr, hgone hact] at hhook
      exact hhook
    · rw [hr] at he ⊢
      exact hplays.off_of_runsHook he
  · refine ⟨hempty m s hs hdead, hreach.orderly.place_of_dead hdead, ?_,
      fun t ending f rest hact hchore hnodes => World.turn_of_dead hact hchore hnodes hdead⟩
    rintro before after s₀ f rfl hs₀ hf
    rw [hr] at hdead ⊢
    exact hplays.down_of_dead hs₀ hf hdead

/-- A thread takes a shared lock. -/
def Run.enteringReader : List Event :=
  [.make ⟨.readMostly .packed, false, false⟩ .longWait, .call 0 0 (.operate (.acquire .shared)),
    .turn 0, .turn 0, .turn 0]

/-- A thread that holds a shared lock ends, and then the lock is dropped. -/
def Run.leavingReader : List Event :=
  [.exit 0, .turn 0, .turn 0, .turn 0, .turn 0, .turn 0, .turn 0, .call 1 0 .drop]

theorem readMostly_registry_agrees_leaving :
    Run.tally (Run.runsHook 0 0) (.initial {}) (Run.enteringReader ++ Run.leavingReader) = 1 ∧
      (Run.play (.initial {}) (Run.enteringReader ++ Run.leavingReader)).world.flags.isRaised
        ⟨0, ⟨0, by decide⟩⟩ = false := by
  have hplays : (Run.initial {}).Plays Run.HandsOutFresh
      (Run.enteringReader ++ Run.leavingReader) := by
    decide +kernel
  have hlisted : (Run.play (.initial {}) Run.enteringReader).world.locks[0]?.map (·.body) =
      some (.readMostly {
        id := 1, supply := .packed, config := .longWait,
        registry := { entries := [⟨0, ⟨0, by decide⟩⟩] } }) := by
    decide +kernel
  have hgone :
      (Run.play (.initial {}) (Run.enteringReader ++ Run.leavingReader)).world.locks[0]?.map
        (·.body) = some (.readMostly { id := 1, supply := .packed, config := .longWait }) := by
    decide +kernel
  obtain ⟨l₀, hl₀, hs₀⟩ := Option.map_eq_some_iff.mp hlisted
  obtain ⟨l, hl, hs⟩ := Option.map_eq_some_iff.mp hgone
  obtain ⟨-, -, -, -, -, hexit, hdead⟩ :=
    readMostly_registry_agrees hplays rfl (.inl fun _ _ h => h) 0
  obtain ⟨-, -, hdown, -⟩ := hdead (by decide +kernel) _ ⟨l, hl, hs⟩
  refine ⟨((hexit 0).2.1 (by decide +kernel)).trans (by decide +kernel), ?_⟩
  exact (hdown _ _ _ _ rfl ⟨l₀, hl₀, hs₀⟩ (List.mem_singleton.mpr rfl)).2 (by decide +kernel)

end ReaderWriter
