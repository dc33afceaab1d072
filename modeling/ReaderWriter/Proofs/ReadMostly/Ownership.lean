import ReaderWriter.Proofs.ReadMostly.Rolls

/-!
# Flags are owned in every run

What keeps the ownership of flags from move to move, whatever happens to other locks, and as locks
go.

* `Move.live`: no lock comes back.
* `Owns.of_move`, `Owns.of_dissolves`: moves and dissolutions keep the ownership of flags.
* `Reachable.owns`: if fresh flags are handed out, flags are owned in every reachable run.
-/

namespace ReaderWriter

open ReadMostly (Flag Site Scene Pc Transition Stocks Carries)

variable {r r' : Run} {e : Event} {t u : ThreadId} {m n : Nat} {l : Lock} {job : Job}
  {s : ReadMostly.State} {site : Site} {stand : Stand Pc} {gain : Option Mode} {f : Flag}

/-! ## Locks that live -/

theorem Turned.departing (h : Turned r r' t m l job)
    (hdeparting : (r'.world.thread u).departingFrom? = some n) :
    (r.world.thread u).departingFrom? = some n ∨ n = m := by
  by_cases hu : u = t
  · subst hu
    obtain ⟨pc, hpc⟩ := Thread.stint?_of_departing hdeparting
    rw [h.stint'] at hpc
    obtain ⟨p, -, heq⟩ := Option.map_eq_some_iff.mp hpc
    exact .inr (congrArg Prod.fst heq).symm
  · rw [h.others u hu] at hdeparting
    exact .inl hdeparting

theorem Turned.lock? (h : Turned r r' t m l job) {l' : Lock}
    (hl' : r'.world.lock? n = some l') : ∃ l, r.world.lock? n = some l := by
  rw [World.lock?_eq_some] at hl'
  by_cases hn : n = m
  · subst hn
    obtain ⟨body, -, hlock⟩ := h.exists_lock
    cases hl'.1.symm.trans hlock
    exact ⟨l, (World.lock?_eq_some _ _).mpr ⟨h.lock, hl'.2⟩⟩
  · exact ⟨l', (World.lock?_eq_some _ _).mpr ⟨h.lock_of_ne hn ▸ hl'.1, hl'.2⟩⟩

/-- No lock comes back to life. -/
theorem Move.live (h : Move r e r') (n : Nat) (hlive : r'.Live n) : r.Live n := by
  rcases hlive with halive | hnone
  · rw [World.isAlive_iff] at halive
    have hturned : ∀ {t m l job}, Turned r r' t m l job → r.world.isAlive m = true →
        r.world.isAlive n = true := by
      intro t m l job h hm
      rcases halive with ⟨l', hl'⟩ | ⟨u, hu⟩
      · exact (World.isAlive_iff _ _).mpr (.inl (h.lock? hl'))
      · rcases h.departing hu with hu | rfl
        · exact (World.isAlive_iff _ _).mpr (.inr ⟨u, hu⟩)
        · exact hm
    have hthreads : (∀ u, r'.world.thread u = r.world.thread u) →
        (∀ l', r'.world.lock? n = some l' → r.Live n) → r.Live n := by
      intro hsame hlock
      rcases halive with ⟨l', hl'⟩ | ⟨u, hu⟩
      · exact hlock l' hl'
      · rw [hsame] at hu
        exact .inl ((World.isAlive_iff _ _).mpr (.inr ⟨u, hu⟩))
    have hstays : ∀ {l : Lock}, r.world.lock? n = some l → r.Live n :=
      fun hl => .inl ((World.isAlive_iff _ _).mpr (.inl ⟨_, hl⟩))
    cases h with
    | @operate t m l job op h =>
      exact .inl (hturned h.toTurned h.isAlive)
    | depart h => exact .inl (hturned h.toTurned h.alive)
    | @shift t h =>
      rcases halive with ⟨l', hl'⟩ | ⟨u, hu⟩
      · refine hstays (l := l') ?_
        rwa [World.lock?, ← h.locks]
      · by_cases hut : u = t
        · subst hut
          obtain ⟨pc, hpc⟩ := Thread.stint?_of_departing hu
          rw [h.stint'] at hpc
          cases hpc
        · rw [h.others u hut] at hu
          exact .inl ((World.isAlive_iff _ _).mpr (.inr ⟨u, hu⟩))
    | @drop m l h =>
      refine hthreads h.threads fun l' hl' => ?_
      have hlock := (World.lock?_eq_some _ _).mp h.lock
      have hlt : m < r.world.locks.length := (List.getElem?_eq_some_iff.mp hlock.1).1
      rw [World.lock?_eq_some, h.locks] at hl'
      by_cases hn : m = n
      · subst hn
        exact hstays h.lock
      · rw [List.getElem?_set_ne hn] at hl'
        exact hstays ((World.lock?_eq_some _ _).mpr hl')
    | @wake t h =>
      refine hthreads h.threads fun l' hl' => ?_
      rw [World.lock?_eq_some, h.locks, List.getElem?_map, Option.map_eq_some_iff] at hl'
      obtain ⟨⟨l, hl, rfl⟩, howned⟩ := hl'
      refine hstays ((World.lock?_eq_some _ _).mpr ⟨hl, ?_⟩)
      unfold World.wakeIn at howned
      split at howned <;> exact howned
    | @make kind config h =>
      refine hthreads h.threads fun l' hl' => ?_
      by_cases hlt : n < r.world.locks.length
      · rw [World.lock?_eq_some, h.locks, World.addLock, List.getElem?_append_left hlt] at hl'
        exact hstays ((World.lock?_eq_some _ _).mpr hl')
      · exact .inr (List.getElem?_eq_none (Nat.le_of_not_lt hlt))
    | rest h =>
      refine hthreads h.threads fun l' hl' => hstays (l := l') ?_
      rwa [World.lock?, ← h.locks]
  · refine .inr (List.getElem?_eq_none ?_)
    exact Nat.le_trans (Run.length_locks_of_move h) (List.getElem?_eq_none_iff.mp hnone)

/-! ## Every move -/

/-- Every read-mostly lock of the second world is one of the first, with the same flags in its
registry, or a new one. -/
def World.SameRolls (w w' : World) (live : Nat → Prop) : Prop :=
  (∀ m s, w.ReadMostlyAt m s → ∃ s', w'.ReadMostlyAt m s') ∧
    ∀ m s', live m → w'.ReadMostlyAt m s' →
      (∃ s, w.ReadMostlyAt m s ∧ s'.registry.entries = s.registry.entries) ∨
        (∀ s, ¬ w.ReadMostlyAt m s) ∧ s'.registry.entries = []

theorem World.SameRolls.of_readMostlyAt_iff {w w' : World}
    (h : ∀ m s, w'.ReadMostlyAt m s ↔ w.ReadMostlyAt m s) (live : Nat → Prop) :
    w.SameRolls w' live :=
  ⟨fun m s hs => ⟨s, (h m s).mpr hs⟩, fun m s' _ hs' => .inl ⟨s', (h m s').mp hs', rfl⟩⟩

theorem World.SameRolls.of_locks_eq {w w' : World} (h : w'.locks = w.locks)
    (live : Nat → Prop) : w.SameRolls w' live := by
  refine .of_readMostlyAt_iff (fun m s => ?_) live
  unfold ReadMostlyAt
  rw [h]

namespace Owns

variable {live : Nat → Prop}

/-- Who owns what stays clear when no thread's flags change. -/
theorem of_threads (h : Owns r live)
    (hflags : ∀ u, (r'.world.thread u).flags = (r.world.thread u).flags)
    (hstint : ∀ u n pc, (r'.world.thread u).stint? = some (n, .readMostly pc) ↔
      (r.world.thread u).stint? = some (n, .readMostly pc))
    (hlocks : r.world.SameRolls r'.world live) : Owns r' live where
  keys u := by
    rw [hflags]
    exact h.keys u
  owner {u v _ _ _} hf hf' := by
    rw [hflags] at hf hf'
    exact h.owner hf hf'
  carried {u _ _ _} hpc hf := by
    rw [hflags]
    exact h.carried ((hstint _ _ _).mp hpc) hf
  placed {u k _} hf := by
    rw [hflags] at hf
    obtain ⟨s, hs⟩ := h.placed hf
    exact hlocks.1 k s hs
  rolls {k s'} hlive hs' := by
    have hregisters : ∀ u, (r'.world.thread u).Registers k ↔ (r.world.thread u).Registers k :=
      fun u => exists_congr fun pc => and_congr_left fun _ => hstint u k pc
    rcases hlocks.2 k s' hlive hs' with ⟨s, hs, hentries⟩ | ⟨hnew, hentries⟩
    · rw [hentries]
      refine ⟨(h.rolls hlive hs).1, fun f => ?_⟩
      simp only [hflags, hregisters]
      exact (h.rolls hlive hs).2 f
    · rw [hentries]
      refine ⟨List.nodup_nil, fun f => iff_of_false (List.not_mem_nil) ?_⟩
      rintro ⟨u, hu, -⟩
      rw [hflags] at hu
      obtain ⟨s, hs⟩ := h.placed hu
      exact hnew s hs

theorem of_stirs {locks : List Lock} (h : Owns r live) (hs : Stirs r r' locks)
    (hlocks : r.world.SameRolls r'.world live) : Owns r' live :=
  h.of_threads (fun u => by rw [hs.threads]) (fun u n pc => by rw [hs.threads]) hlocks

end Owns

/-- A turn on a blocking or polling lock leaves the flags of its thread alone. -/
theorem Operates.plain {op : Operation} (h : Operates r e r' t m l job op)
    (halg : l.body.algorithm ≠ .readMostly) :
    r'.world.flags = r.world.flags ∧ (r'.world.thread t).locals = (r.world.thread t).locals ∧
      (∀ n pc, (r.world.thread t).stint? ≠ some (n, .readMostly pc)) ∧
      ∀ n pc, (r'.world.thread t).stint? ≠ some (n, .readMostly pc) := by
  have hends := World.work_serves t h.lock h.suits h.serves
  have hwork : (r.world.work t m job).world.flags = r.world.flags ∧
      ((r.world.work t m job).world.thread t).locals = (r.world.thread t).locals := by
    have hsuits := h.suits
    cases hs : l.body with
    | blocking s =>
      rw [hs] at hsuits
      rw [World.work_blocking h.lock hs hsuits]
      exact ⟨rfl, rfl⟩
    | polling s =>
      rw [hs] at hsuits
      rw [World.work_polling h.lock hs hsuits]
      exact ⟨rfl, rfl⟩
    | readMostly s =>
      rw [hs] at halg
      exact absurd rfl halg
  refine ⟨h.flags.trans hwork.1, h.locals.trans hwork.2, fun n pc heq => ?_, fun n pc heq => ?_⟩
  · rw [h.stint] at heq
    obtain ⟨p, hp, heq⟩ := Option.map_eq_some_iff.mp heq
    cases heq
    cases job with
    | resume p =>
      cases hp
      exact halg h.suits.symm
    | start op' | depart f => cases hp
  · rw [h.stint'] at heq
    obtain ⟨p, hp, heq⟩ := Option.map_eq_some_iff.mp heq
    cases heq
    cases hstand : (r.world.work t m job).stand with
    | here q =>
      rw [hstand] at hp hends
      cases hp
      exact halg hends.1.symm
    | done answer | fault f =>
      rw [hstand] at hp
      cases hp

theorem Thread.inHand?_of_plain {th : Thread}
    (h : ∀ n pc, th.stint? ≠ some (n, .readMostly pc)) : th.inHand? = none := by
  unfold inHand?
  split
  · next n pc heq => exact absurd heq (h n pc)
  · rfl

theorem Operates.flags_eq_of_plain {op : Operation} (h : Operates r e r' t m l job op)
    (halg : l.body.algorithm ≠ .readMostly) :
    (r'.world.thread t).flags = (r.world.thread t).flags := by
  obtain ⟨-, hlocals, hstint, hstint'⟩ := h.plain halg
  simp only [Thread.flags, hlocals, h.parting, h.parting', Thread.inHand?_of_plain hstint,
    Thread.inHand?_of_plain hstint']

/-- A turn on a lock leaves the read-mostly locks other than its own alone. -/
theorem Turned.readMostlyAt_of_ne (h : Turned r r' t m l job) (hn : n ≠ m) :
    r'.world.ReadMostlyAt n s ↔ r.world.ReadMostlyAt n s := by
  unfold World.ReadMostlyAt
  rw [h.lock_of_ne hn]

/-- A new read-mostly lock is in its first state. -/
theorem Lock.eq_new_of_make {kind : Kind} {config : Config} {id : Nat} {host : Host}
    (h : (Lock.make kind config id host).body = .readMostly s) :
    ∃ id supply config, s = { id := id, supply := supply, config := config, host := host } := by
  cases hf : kind.family with
  | readMostly supply =>
    simp only [Lock.make, hf] at h
    exact ⟨_, _, _, (Body.readMostly.inj h).symm⟩
  | blocking | polling =>
    simp only [Lock.make, hf] at h
    cases h

/-- A turn on a blocking or polling lock leaves all read-mostly locks alone. -/
theorem Operates.sameRolls_of_plain {op : Operation} (h : Operates r e r' t m l job op)
    (halg : l.body.algorithm ≠ .readMostly) (live : Nat → Prop) :
    r.world.SameRolls r'.world live := by
  refine .of_readMostlyAt_iff (fun n s => ?_) live
  by_cases hn : n = m
  · subst hn
    refine iff_of_false ?_ ?_
    · intro hs
      obtain ⟨s₀, hs₀⟩ := h.exists_readMostly hs
      exact halg (congrArg Body.algorithm hs₀)
    · rintro ⟨l', hl', hs⟩
      cases h.lock.symm.trans hl'
      exact halg (congrArg Body.algorithm hs)
  · exact h.toTurned.readMostlyAt_of_ne hn

/-- A lock that is dropped keeps its registry until it goes. -/
theorem Drops.sameRolls (h : Drops r r' m l) (live : Nat → Prop) :
    r.world.SameRolls r'.world live := by
  have hlock := ((World.lock?_eq_some _ _).mp h.lock).1
  refine .of_readMostlyAt_iff (fun n s => ?_) live
  unfold World.ReadMostlyAt
  by_cases hn : n = m
  · subst hn
    rw [h.lock_self, hlock]
    simp
  · rw [h.lock_of_ne hn]

/-- A thread that wakes leaves all registries alone. -/
theorem Stirs.sameRolls_of_wake (h : Stirs r r' (r.world.locks.map (World.wakeIn t)))
    (live : Nat → Prop) : r.world.SameRolls r'.world live := by
  refine ⟨?_, ?_⟩
  · rintro n s ⟨l, hl, hs⟩
    refine ⟨ReadMostly.wake t s, World.wakeIn t l, ?_, ?_⟩
    · rw [h.locks, List.getElem?_map, hl]
      rfl
    · simp only [World.wakeIn, hs]
  · rintro n s' - ⟨l', hl', hs'⟩
    rw [h.locks, List.getElem?_map, Option.map_eq_some_iff] at hl'
    obtain ⟨l, hl, rfl⟩ := hl'
    cases hs : l.body with
    | readMostly s =>
      simp only [World.wakeIn, hs, Body.readMostly.injEq] at hs'
      refine .inl ⟨s, ⟨l, hl, hs⟩, ?_⟩
      rw [← hs']
      rfl
    | blocking s | polling s =>
      simp only [World.wakeIn, hs] at hs'
      cases hs'

/-- A new lock has an empty registry. -/
theorem Stirs.sameRolls_of_make {kind : Kind} {config : Config}
    (h : Stirs r r' (r.world.addLock kind config).locks) (live : Nat → Prop) :
    r.world.SameRolls r'.world live := by
  refine ⟨?_, ?_⟩
  · rintro n s ⟨l, hl, hs⟩
    have hlt : n < r.world.locks.length := (List.getElem?_eq_some_iff.mp hl).1
    refine ⟨s, l, ?_, hs⟩
    rwa [h.locks, World.addLock, List.getElem?_append_left hlt]
  · rintro n s' - ⟨l', hl', hs'⟩
    by_cases hlt : n < r.world.locks.length
    · rw [h.locks, World.addLock, List.getElem?_append_left hlt] at hl'
      exact .inl ⟨s', ⟨l', hl', hs'⟩, rfl⟩
    · rw [h.locks, World.addLock, List.getElem?_append_right (Nat.le_of_not_lt hlt),
        List.getElem?_singleton] at hl'
      refine .inr ⟨?_, ?_⟩
      · rintro s ⟨l, hl, -⟩
        exact hlt (List.getElem?_eq_some_iff.mp hl).1
      · split at hl'
        · cases hl'
          obtain ⟨id, supply, config', rfl⟩ := Lock.eq_new_of_make hs'
          rfl
        · cases hl'

/-- The flag that a supply hands out is fresh. -/
theorem Operates.fresh {op : Operation} (h : Operates r e r' t m l job op)
    (hok : r.HandsOutFresh e) (hjob : ∃ op', job = .start op') {p : Nat × Flag}
    (hp : (r'.world.thread t).inHand? = some p) : r.world.IsFresh p.2 := by
  obtain ⟨op', rfl⟩ := hjob
  rw [h.met] at hp
  rcases h.called op' rfl with ⟨c, rfl, -⟩ | ⟨rfl, hstint, hframe, -⟩
  · exact hok p hp
  · exact hok hstint hframe p hp

namespace Owns

theorem of_operates {op : Operation} (ho : Owns r r.Live) (h : Operates r e r' t m l job op)
    (hok : r.HandsOutFresh e) : Owns r' r.Live := by
  by_cases halg : l.body.algorithm = .readMostly
  · obtain ⟨s, hs⟩ := Body.exists_readMostly halg
    obtain ⟨site, stand, hacts, -⟩ := h.acts hs
    refine hacts.owns ho h.partings h.isAlive fun hasks f hf => ?_
    obtain ⟨p, hasks⟩ := hasks
    exact h.fresh hok (by cases hasks <;> exact ⟨_, rfl⟩) hf
  · obtain ⟨-, -, hstint, hstint'⟩ := h.plain halg
    refine ho.of_threads (fun u => ?_) (fun u n pc => ?_) ?_
    · by_cases hu : u = t
      · subst hu
        exact h.flags_eq_of_plain halg
      · rw [h.others u hu]
    · by_cases hu : u = t
      · subst hu
        exact iff_of_false (hstint' n pc) (hstint n pc)
      · rw [h.others u hu]
    · exact h.sameRolls_of_plain halg _

theorem of_departs (ho : Owns r r.Live) (h : Departs r r' t m l job) : Owns r' r.Live := by
  have halg := (World.work_departs t h.lock h.suits h.departs).1
  obtain ⟨s, hs⟩ := Body.exists_readMostly halg
  obtain ⟨site, stand, hacts, -⟩ := h.acts hs
  refine hacts.owns ho h.partings h.alive ?_
  rintro ⟨p, hasks⟩
  have hdeparts := h.departs
  cases hasks <;> exact hdeparts.elim

theorem of_shifts (ho : Owns r r.Live) (h : Shifts r r' t) : Owns r' r.Live := by
  have hsame : ∀ n s, r'.world.ReadMostlyAt n s ↔ r.world.ReadMostlyAt n s := by
    intro n s
    unfold World.ReadMostlyAt
    rw [h.locks]
  refine ho.of_thread h.others ((ho.keys t).sublist (h.sublist.map Prod.fst))
    (m := 0) (fun hg => .inl (h.sublist.subset hg)) ?_ (fun n s hs => ⟨s, (hsame n s).mpr hs⟩) ?_
  · intro k pc f hpc
    rw [h.stint'] at hpc
    cases hpc
  · intro n s hlive hs
    have hs' := (hsame n s).mp hs
    refine ho.rolls_of_same hlive hs' h.others (fun f => ?_) ?_
    · refine ⟨fun hf => h.sublist.subset hf, fun hf => ?_⟩
      obtain ⟨l, hl, hbody⟩ := hs'
      refine h.kept n f l hf hl (by rw [hbody]; rfl) (hlive.resolve_right fun hnone => ?_)
      cases hl.symm.trans hnone
    · unfold Thread.Registers
      rw [h.stint, h.stint']

/-- Every move keeps it clear who owns what, as long as only fresh flags are handed out. -/
theorem of_move (ho : Owns r r.Live) (hok : r.HandsOutFresh e) (h : Move r e r') :
    Owns r' r.Live := by
  cases h with
  | operate h => exact ho.of_operates h hok
  | depart h => exact ho.of_departs h
  | shift h => exact ho.of_shifts h
  | drop h =>
    exact ho.of_threads (fun u => by rw [h.threads]) (fun u n pc => by rw [h.threads])
      (h.sameRolls _)
  | wake h => exact ho.of_stirs h (h.sameRolls_of_wake _)
  | make h => exact ho.of_stirs h (h.sameRolls_of_make _)
  | rest h => exact ho.of_stirs h (.of_locks_eq h.locks _)

end Owns

namespace Dissolves

/-- A dissolution changes one lock at most: its registry is empty then. -/
theorem readMostlyAt (h : Dissolves r r' m) :
    (∀ n, n ≠ m → ∀ s, r'.world.ReadMostlyAt n s ↔ r.world.ReadMostlyAt n s) ∧
      ∀ s, r.world.ReadMostlyAt m s → ∃ s', r'.world.ReadMostlyAt m s' := by
  refine ⟨fun n hn s => by rw [World.ReadMostlyAt, h.lock_of_ne hn]; rfl, ?_⟩
  rintro s ⟨l, hl, hs⟩
  rcases h.lock_cases hl with hl' | ⟨-, s₀, -, hl'⟩
  · exact ⟨s, l, hl', hs⟩
  · exact ⟨_, _, hl', rfl⟩

/-- A dissolution brings no lock to life and ends none. -/
theorem isAlive_iff (h : Dissolves r r' m) {n : Nat} :
    r'.world.isAlive n = true ↔ r.world.isAlive n = true := by
  rw [World.isAlive_iff, World.isAlive_iff]
  refine or_congr ?_ (exists_congr fun u => by rw [h.threads])
  simp only [World.lock?_eq_some, h.locks]
  rcases World.dissolve_cases r.world m with heq | ⟨l, s, hl, hs, heq⟩
  · rw [heq]
  · rw [heq]
    by_cases hn : m = n
    · subst hn
      have hlt : m < r.world.locks.length := (List.getElem?_eq_some_iff.mp hl).1
      simp [World.withLock, List.getElem?_set_self hlt, hl]
    · simp only [World.withLock, List.getElem?_set_ne hn]

/-- A dissolution makes no lock. -/
theorem live (h : Dissolves r r' m) {n : Nat} (hlive : r'.Live n) : r.Live n := by
  rcases hlive with halive | hnone
  · exact .inl (h.isAlive_iff.mp halive)
  · refine .inr ?_
    rw [List.getElem?_eq_none_iff] at hnone ⊢
    rwa [h.length_locks] at hnone

end Dissolves

/-- A registry that goes takes its list with it. -/
theorem Owns.of_dissolves {live : Nat → Prop} (ho : Owns r live) (hlive : ∀ n, r.Live n → live n)
    (h : Dissolves r r' m) : Owns r' r'.Live := by
  obtain ⟨hothers, hself⟩ := h.readMostlyAt
  have hsame : r.world.SameRolls r'.world r'.Live := by
    refine ⟨fun n s hs => ?_, fun n s' hn hs' => ?_⟩
    · by_cases hnm : n = m
      · subst hnm
        exact hself s hs
      · exact ⟨s, (hothers n hnm s).mpr hs⟩
    · have hnm : n ≠ m := by
        rintro rfl
        obtain ⟨l, hl, -⟩ := hs'
        rcases hn with hn | hn
        · have halive := h.isAlive_iff.mp hn
          rw [h.dead] at halive
          cases halive
        · cases hn.symm.trans hl
      exact .inl ⟨s', (hothers n hnm s').mp hs', rfl⟩
  exact (ho.mono fun n hn => hlive n (h.live hn)).of_threads (fun u => by rw [h.threads])
    (fun u n pc => by rw [h.threads]) hsame

/-- If only fresh flags are handed out, it is always clear who owns what. -/
theorem Reachable.owns {ok : Run → Event → Prop} (hok : ∀ r e, ok r e → r.HandsOutFresh e)
    (h : Reachable ok r) : Owns r r.Live := by
  refine h.of_moves (P := fun r => Owns r r.Live) (fun host => ?_) ?_ ?_
  · have hflags : ∀ t, ((Run.initial host).world.thread t).flags = [] := fun _ => rfl
    refine ⟨fun t => ?_, fun hf => ?_, fun hpc => ?_, fun hf => ?_, fun _ hs => ?_⟩
    · rw [hflags]
      exact List.nodup_nil
    · rw [hflags] at hf
      cases hf
    · cases hpc
    · rw [hflags] at hf
      cases hf
    · obtain ⟨l, hl, -⟩ := hs
      cases hl
  · intro r r' e _ hoke hmove ho
    exact (ho.of_move (hok r e hoke) hmove).mono fun m hm => hmove.live m hm
  · intro r r₁ r' e m _ hoke hmove _ hdis ho _
    exact (ho.of_move (hok r e hoke) hmove).of_dissolves hmove.live hdis

end ReaderWriter
