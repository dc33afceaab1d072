import ReaderWriter.Proofs.WaitBits

/-!
# Readers that have gone

A reader in the slow path of a blocking lock that finds it full gives up the mutex of the readers'
group, but is not taken off the count. The group goes on counting a reader that has gone.

* `Blocking.Happens`, `Run.Orderly.happens`: what an event makes of a blocking lock and of those who
  are on it.
* `Blocking.Overcounts`: the readers' group counts the readers that wait, and so many more.
* `Blocking.Overcounts.happens`: the others are those that have found the lock full.
* `Blocking.start_full`, `Blocking.resume_full`: what a reader leaves that finds the lock full.
-/

namespace ReaderWriter

/-! ## What happens to a blocking lock -/

/-- The operation has ended because the word can count no more shared holders. -/
def Stand.isFull {Pc : Type} : Stand Pc → Bool
  | .fault .holderOverflow => true
  | _ => false

theorem Stand.isFull_iff {Pc : Type} {stand : Stand Pc} :
    stand.isFull = true ↔ stand = .fault .holderOverflow := by
  cases stand with
  | here | done => simp [isFull]
  | fault f => cases f <;> simp [isFull]

@[simp]
theorem Stand.isFull_lift {Pc : Type} (f : Pc → Progress) (stand : Stand Pc) :
    (stand.lift f).isFull = stand.isFull := by
  cases stand with
  | here | done => rfl
  | fault e => cases e <;> rfl

namespace Blocking

/-- What an event makes of a lock and of the places where threads stand on it, and whether a reader
has found the lock full in the slow path. -/
inductive Happens (s : State) (place : ThreadId → Option Pc) :
    Bool → State → (ThreadId → Option Pc) → Prop
  | rests : Happens s place false s place
  | starts {t : ThreadId} (op : Operation) : place t = none →
      Happens s place false (start op s).state
        (Function.update place t (start op s).stand.place?)
  | resumes {t : ThreadId} {pc : Pc} : place t = some pc →
      Happens s place (resume t pc s).stand.isFull (resume t pc s).state
        (Function.update place t (resume t pc s).stand.place?)
  | wakes (t : ThreadId) : Happens s place false (wake t s) place

end Blocking

namespace Run

variable {r r' : Run} {e : Event} {t : ThreadId} {m : Nat} {l : Lock} {job : Job} {op : Operation}
  {s : Blocking.State} {p : Progress}

/-- Where a thread stands on the blocking lock at an index. -/
def blockingPc? (r : Run) (m : Nat) (t : ThreadId) : Option Blocking.Pc :=
  (r.place m t).bind Blocking.machine.pc?

/-- By the event a reader in the slow path of the blocking lock at an index finds it full. -/
def turnsAway (m : Nat) (r : Run) : Event → Bool
  | .turn t =>
      (r.blockingPc? m t).isSome &&
        decide ((r.world.meet (.turn t)).finish = some (.faulted .holderOverflow))
  | _ => false

theorem waits?_blockingPc?_iff {mode : Mode} :
    (r.blockingPc? m t).bind Blocking.Pc.waits? = some mode ↔ r.WaitsFor t m mode :=
  waits?_crowd_iff (s := Blocking.machine.initial {} .standard)

theorem blockingPc?_congr (h : r'.place m t = r.place m t) :
    r'.blockingPc? m t = r.blockingPc? m t :=
  congrArg (Option.bind · Blocking.machine.pc?) h

/-- A job on a blocking lock is a turn of its own. -/
theorem blocking_of_operates (h : Operates r e r' t m l job op) (hs : l.body = .blocking s) :
    r'.world.locks[m]? = some { l with body := .blocking (job.onBlocking t s).state } ∧
      r'.blockingPc? m = Function.update (r.blockingPc? m) t (job.onBlocking t s).stand.place? := by
  refine ⟨h.lock_blocking hs, funext fun u => ?_⟩
  by_cases hu : u = t
  · subst hu
    rw [Function.update_self, blockingPc?, h.place_blocking hs]
    cases (job.onBlocking u s).stand.place? <;> rfl
  · rw [Function.update_of_ne hu, blockingPc?_congr (h.place_of_ne hu)]

/-- What is left of a blocking lock by an event that is no turn of a thread on it. -/
theorem happens_of_move (hmove : Move r e r') (hl : r.world.locks[m]? = some l)
    (hs : l.body = .blocking s) (hoff : ∀ t, e = .turn t → r.place m t = none) :
    ∃ l' s', r'.world.locks[m]? = some l' ∧ l'.body = .blocking s' ∧
      Blocking.Happens s (r.blockingPc? m) false s' (r'.blockingPc? m) := by
  have hrests : ∀ {l'}, r'.world.locks[m]? = some l' → l'.body = l.body →
      (∀ t, r'.place m t = r.place m t) → ∃ l' s', r'.world.locks[m]? = some l' ∧
        l'.body = .blocking s' ∧
        Blocking.Happens s (r.blockingPc? m) false s' (r'.blockingPc? m) := by
    intro l' hl' hbody hplaces
    have hplace : r'.blockingPc? m = r.blockingPc? m :=
      funext fun t => blockingPc?_congr (hplaces t)
    exact ⟨l', s, hl', hbody.trans hs, hplace ▸ .rests⟩
  cases id hmove with
  | @operate t n k job op h =>
    by_cases hn : m = n
    · subst hn
      cases hl.symm.trans h.lock
      cases job with
      | start op' =>
        obtain ⟨hl', hplace⟩ := blocking_of_operates h hs
        refine ⟨_, _, hl', rfl, ?_⟩
        rw [hplace]
        exact .starts op' (by rw [blockingPc?, h.place_self]; rfl)
      | resume p =>
        have hnone := hoff t (h.turned p rfl)
        rw [h.place_self] at hnone
        cases hnone
      | depart f => exact h.serves.elim
    · exact hrests (h.lock_of_ne hn ▸ hl) rfl (h.place_of_ne_lock hn)
  | @depart t n k job h =>
    have hn : m ≠ n := by
      rintro rfl
      cases hl.symm.trans h.lock
      have halg := (World.work_departs t h.lock h.suits h.departs).1
      rw [hs] at halg
      cases halg
    exact hrests (h.lock_of_ne hn ▸ hl) rfl (h.place_of_ne_lock hn)
  | @shift t h =>
    refine hrests (h.locks ▸ hl) rfl fun u => ?_
    by_cases hu : u = t
    · subst hu
      simp only [place, h.stint, h.stint']
    · exact place_congr (h.others u hu)
  | drop h =>
    obtain ⟨l', hl', -⟩ := algorithm_of_move hmove hl
    obtain ⟨k, hk, hbody⟩ := h.exists_body_eq hl'
    cases hl.symm.trans hk
    exact hrests hl' hbody fun u => place_congr (h.threads u)
  | @wake t h =>
    refine ⟨World.wakeIn t l, Blocking.wake t s, ?_, Blocking.machine_is.wake t l s hs, ?_⟩
    · rw [h.locks, List.getElem?_map, hl]
      rfl
    · have hplace : r'.blockingPc? m = r.blockingPc? m :=
        funext fun u => blockingPc?_congr (place_congr (h.threads u))
      exact hplace ▸ .wakes t
  | make h =>
    refine hrests ?_ rfl fun u => place_congr (h.threads u)
    rw [h.locks, World.addLock, List.getElem?_append_left (List.getElem?_eq_some_iff.mp hl).1, hl]
  | rest h => exact hrests (h.locks ▸ hl) rfl fun u => place_congr (h.threads u)

/-- A thread that stands on a blocking lock goes on there, and finds it full if its turn does. -/
theorem Orderly.resumes_blocking {pc : Blocking.Pc} (ho : r.Orderly)
    (hp : r.world.Permits (.turn t)) (hl : r.world.locks[m]? = some l) (hs : l.body = .blocking s)
    (hplace : r.place m t = some (.blocking pc)) :
    ∃ op, Operates r (.turn t) (r.after (.turn t)) t m l (.resume (.blocking pc)) op ∧
      ((r.world.meet (.turn t)).finish = some (.faulted .holderOverflow) ↔
        (Blocking.resume t pc s).stand.isFull = true) := by
  obtain ⟨c, op, task, k, hasked, hact, hperf, hk, halg, hserves⟩ :=
    (ho.works_of_place hplace).resolve_right fun h => h.1.elim
  cases hl.symm.trans ((r.world.lock?_eq_some m).mp hk).1
  obtain ⟨hop, -⟩ := turn_operates ho hasked hp hact hperf hk halg hserves
  refine ⟨op, hop, ?_⟩
  have hfinish := World.finish_settle_eq_faulted t m hperf
    (World.work_serves t hl hop.suits hserves) (f := .holderOverflow)
  have hsuits : (Job.resume (.blocking pc)).Suits .blocking := rfl
  rw [← meet_turn hact, ← Stand.isFull_iff, World.work_blocking hl hs hsuits,
    Stand.isFull_lift] at hfinish
  exact hfinish

/-- What a turn of a thread on a blocking lock leaves of it. -/
theorem Orderly.happens_of_turn (ho : r.Orderly) (hp : r.world.Permits (.turn t))
    (hl : r.world.locks[m]? = some l) (hs : l.body = .blocking s) (hplace : r.place m t = some p) :
    ∃ l' s', (r.after (.turn t)).world.locks[m]? = some l' ∧ l'.body = .blocking s' ∧
      Blocking.Happens s (r.blockingPc? m) (r.turnsAway m (.turn t)) s'
        ((r.after (.turn t)).blockingPc? m) := by
  have halg := ho.algorithm_of_place hplace hl
  rw [hs] at halg
  obtain ⟨pc, rfl⟩ := Blocking.machine_is.exists_progress p halg
  obtain ⟨op, hop, hfinish⟩ := ho.resumes_blocking hp hl hs hplace
  obtain ⟨hl', hplace'⟩ := blocking_of_operates hop hs
  have hpc : r.blockingPc? m t = some pc := by
    rw [blockingPc?, hplace]
    rfl
  have haway : r.turnsAway m (.turn t) = (Blocking.resume t pc s).stand.isFull := by
    rw [turnsAway, hpc, Option.isSome_some, Bool.true_and, Bool.eq_iff_iff, decide_eq_true_eq]
    exact hfinish
  refine ⟨_, _, hl', rfl, ?_⟩
  rw [hplace', haway]
  exact .resumes hpc

/-- A blocking lock stays one, and whatever happens is something that can happen to it. -/
theorem Orderly.happens (ho : r.Orderly) (hp : r.world.Permits e)
    (hl : r.world.locks[m]? = some l) (hs : l.body = .blocking s) :
    ∃ l' s', (r.after e).world.locks[m]? = some l' ∧ l'.body = .blocking s' ∧
      Blocking.Happens s (r.blockingPc? m) (r.turnsAway m e) s' ((r.after e).blockingPc? m) := by
  by_cases hon : ∃ t p, e = .turn t ∧ r.place m t = some p
  · obtain ⟨t, p, rfl, hplace⟩ := hon
    exact ho.happens_of_turn hp hl hs hplace
  · have hoff : ∀ t, e = .turn t → r.place m t = none := fun t he =>
      Option.eq_none_iff_forall_ne_some.mpr fun p hplace => hon ⟨t, p, he, hplace⟩
    have haway : r.turnsAway m e = false := by
      cases e with
      | turn t =>
        rw [turnsAway, blockingPc?, hoff t rfl]
        rfl
      | call | exit | wake | advance | make => rfl
    obtain ⟨⟨r₁, hmove, hrest⟩, -⟩ := after_moves ho hp
    obtain ⟨l', s', hl', hs', hhappens⟩ := happens_of_move hmove hl hs hoff
    rw [haway]
    rcases hrest with ⟨heq, -⟩ | ⟨n, -, hdis⟩
    · exact heq ▸ ⟨l', s', hl', hs', hhappens⟩
    · -- Only read-mostly locks dissolve.
      rcases hdis.lock_cases hl' with hk | ⟨-, s₀, hs₀, -⟩
      · have hplace : (r.after e).blockingPc? m = r₁.blockingPc? m :=
          funext fun t => blockingPc?_congr (place_congr (hdis.threads t))
        exact ⟨_, s', hk, hs', hplace ▸ hhappens⟩
      · cases hs'.symm.trans hs₀

end Run

/-! ## The readers' group -/

/-- What is kept count of is kept count of when some more are counted. -/
theorem Recounts.sub {k k' n : Nat} {before after : Prop} (h : Recounts k k' before after)
    (hn : n ≤ k) : Recounts (k - n) (k' - n) before after := by
  cases h with
  | keeps heq hsame => exact .keeps (by rw [heq]) hsame
  | enters heq hbefore hafter => exact .enters (by omega) hbefore hafter
  | leaves heq hbefore hafter => exact .leaves (by omega) hbefore hafter

namespace Blocking

variable {t : ThreadId} {n k : Nat} {s s' : State} {p p' : Option Pc} {pc : Pc}
  {place place' : ThreadId → Option Pc} {full : Bool}

/-- The count of the readers' group and its bit, if the group counts so many readers too many. Such
a reader may have set the bit before it went. -/
structure State.Owes (s : State) (n : Nat) : Prop where
  le : n ≤ (s.group .shared).pending
  counted : s.word.fields.waits .shared = true → (s.group .shared).pending ≠ 0
  silent : s.word.fields.waits .shared = false → (s.group .shared).pending = n

/-- The readers' group counts the readers that wait, and so many more. -/
structure Overcounts (n : Nat) (s : State) (place : ThreadId → Option Pc) : Prop where
  gate : (s.group .shared).gate.HeldBy fun t => (place t).bind Pc.gate? = some .shared
  pending : Tallies ((s.group .shared).pending - n) fun t =>
    (place t).bind Pc.waits? = some .shared
  owes : s.Owes n

/-- What a turn of a thread that stood at `p` does to the readers' group, which counts `n` readers
too many before it and `n'` after it. -/
structure Bears (t : ThreadId) (n n' : Nat) (s s' : State) (p p' : Option Pc) : Prop where
  gate : Gate.Passes t (s.group .shared).gate (s'.group .shared).gate
    (p.bind Pc.gate? = some .shared) (p'.bind Pc.gate? = some .shared)
  pending : Recounts ((s.group .shared).pending - n) ((s'.group .shared).pending - n')
    (p.bind Pc.waits? = some .shared) (p'.bind Pc.waits? = some .shared)
  owes : s'.Owes n'
  /-- The last reader never comes out, so nobody clears the bit. -/
  stays : 0 < n → s.word.fields.waits .shared = true → s'.word.fields.waits .shared = true

theorem State.Owes.congr (h : s.Owes n)
    (hpending : (s'.group .shared).pending = (s.group .shared).pending)
    (hwaits : s'.word.fields.waits .shared = s.word.fields.waits .shared) : s'.Owes n where
  le := hpending ▸ h.le
  counted hbit := hpending ▸ h.counted (hwaits ▸ hbit)
  silent hbit := hpending ▸ h.silent (hwaits ▸ hbit)

/-- A group whose bit says whether it counts anybody owes nothing but what it counts. -/
theorem State.TellsBit.owes (h : s.TellsBit .shared) (hle : n ≤ (s.group .shared).pending) :
    s.Owes n where
  le := hle
  counted hbit := by
    rw [h, decide_eq_true_eq] at hbit
    exact hbit
  silent hbit := by
    rw [h, decide_eq_false_iff_not, not_not] at hbit
    omega

/-- A group that tells the truth after a turn owes no more than before. -/
theorem Heeds.bears (h : Heeds t .shared s s' p p') (howes : s.Owes n)
    (hle : n ≤ (s'.group .shared).pending) : Bears t n n s s' p p' where
  gate := h.gate
  pending := h.pending.sub howes.le
  owes := h.bit.owes hle
  stays hpos _ := by
    rw [h.bit, decide_eq_true_eq]
    omega

/-- A turn outside the group. -/
theorem State.Spares.bears (h : s.Spares s' .shared) (howes : s.Owes n)
    (hp : p.bind Pc.waits? ≠ some .shared) (hp' : p'.bind Pc.waits? ≠ some .shared) :
    Bears t n n s s' p p' where
  gate := .keeps h.gate (iff_of_false (gate_ne_of_waits_ne hp') (gate_ne_of_waits_ne hp))
  pending := .keeps (by rw [h.pending]) (iff_of_false hp' hp)
  owes := howes.congr h.pending h.waits
  stays _ hbit := by rwa [h.waits]

/-- An attempt comes to a fault only if the word can count no more readers. -/
theorem eq_holderOverflow_of_attempt {mode : Mode} {backoff : Backoff} {f : Fault}
    (h : (attempt mode backoff s).stand = .fault f) : f = .holderOverflow := by
  unfold attempt at h
  dsimp only at h
  split at h
  · next hadmits =>
    split at h
    · cases h
    · next f' hf =>
      cases h
      exact Word.eq_holderOverflow_of_grantWaiter hadmits hf
  · cases h

/-- A reader that finds the lock full is gone, and counted. -/
theorem Attempts.full_bears (h : Attempts t s .shared p k) (hk : n < k) (howes : s.Owes n)
    (hgate : (s'.group .shared).gate = none) (hpending : (s'.group .shared).pending = k)
    (hwaits : s'.word.fields.waits .shared = s.word.fields.waits .shared) :
    Bears t n (n + 1) s s' p none := by
  have hle := howes.le
  refine ⟨?_, ?_, ⟨?_, fun _ => ?_, fun hbit => ?_⟩, fun _ hbit => hwaits.trans hbit⟩
  · rw [hgate]
    cases h with
    | back hgate => exact .gives hgate rfl nofun
    | enters hwaits hmutex =>
      exact .keeps hmutex.symm (iff_of_false nofun (gate_ne_of_waits_ne hwaits))
  · rw [hpending]
    cases h with
    | back _ hwaits _ _ heq => exact .leaves (by omega) hwaits nofun
    | enters hwaits _ heq => exact .keeps (by omega) (iff_of_false nofun hwaits)
  · rw [hpending]
    exact hk
  · rw [hpending]
    exact Nat.ne_of_gt (Nat.zero_lt_of_lt hk)
  · have hsilent := howes.silent (hwaits.symm.trans hbit)
    cases h with
    | back _ _ _ _ heq => omega
    | enters _ _ heq => rw [hpending, heq, hsilent]

/-- An attempt of a reader lets it in, makes it announce its wait, or finds the lock full. In that
case the reader is gone, and counted. -/
theorem Attempts.bears (h : Attempts t s .shared p k) (hk : n < k) (howes : s.Owes n)
    {backoff : Backoff} {turn : Turn State Pc}
    (hturn : Attempted .shared backoff (s.counted t .shared k) turn)
    (hfault : ∀ f, turn.stand = .fault f → f = .holderOverflow) :
    Bears t n (n + turn.stand.isFull.toNat) s turn.state p turn.stand.place? := by
  cases hturn with
  | granted _ hw =>
    refine (h.granted_heeds (by rw [group_withGroup_self, State.counted_group]) ?_).bears howes ?_
    · rw [word_withGroup, Word.waits_grantWaiter hw, if_pos rfl, State.counted_group]
    · rw [group_withGroup_self, State.counted_group]
      exact Nat.le_sub_one_of_lt hk
  | @faulted f _ _ =>
    obtain rfl := hfault f rfl
    refine h.full_bears hk howes ?_ ?_ (by rw [word_withGroup, State.counted_word])
    · rw [group_withGroup_self]
    · rw [group_withGroup_self, State.counted_group]
  | announced =>
    have hgroup := (group_withWord (s.counted t .shared k)
      (announce (s.counted t .shared k).word .shared) .shared).trans (State.counted_group _ _ _ _)
    refine (h.announced_heeds backoff hgroup ?_).bears howes ?_
    · rw [Word.waits_announce, if_pos rfl]
    · rw [hgroup]
      exact Nat.le_of_lt hk

theorem Attempted.shared_of_isFull {mode : Mode} {backoff : Backoff} {turn : Turn State Pc}
    (h : Attempted mode backoff s turn) (hfull : turn.stand.isFull = true) : mode = .shared := by
  cases h with
  | granted | announced => cases hfull
  | faulted hmode => exact hmode

theorem recheck_not_full (s : State) : (recheck s).stand.isFull = false := by
  unfold recheck
  split <;> rfl

theorem notifyFor_not_full (w : Word) (s : State) : (notifyFor w s).stand.isFull = false := by
  unfold notifyFor
  repeat' split
  all_goals rfl

/-- Only readers in the slow path find the lock full when they go on. -/
theorem group_of_isFull (h : (resume t pc s).stand.isFull = true) : pc.group? = some .shared := by
  cases pc with
  | contended mode | entering mode =>
    change (enter t mode s).stand.isFull = true at h
    rcases enter_cases t mode s with heq | ⟨-, heq⟩ <;> rw [heq] at h
    · cases h
    · exact congrArg some ((attempt_attempted mode _ _).shared_of_isFull h)
  | waiting mode stage backoff =>
    by_cases hstage : stage = .woken
    · subst hstage
      exact congrArg some ((attempt_attempted mode backoff s).shared_of_isFull h)
    · obtain ⟨w, -, heq⟩ := resume_waiting t mode backoff s hstage
      rw [heq] at h
      cases h
  | notifying mode =>
    simp only [resume] at h
    split at h
    · cases h
    · rw [recheck_not_full] at h
      cases h
  | notified mode woken =>
    simp only [resume, recheck_not_full] at h
    cases h
  | retrying => cases h
  | yielding =>
    simp only [resume] at h
    split at h
    · rw [notifyFor_not_full] at h
      cases h
    · cases h

/-- A reader on its way in finds the group's mutex busy, or takes it and attempts. -/
theorem enter_bears (howes : s.Owes n) (hp : p.bind Pc.waits? ≠ some .shared) :
    Bears t n (n + (enter t .shared s).stand.isFull.toNat) s (enter t .shared s).state p
      (enter t .shared s).stand.place? := by
  rcases enter_cases t .shared s with heq | ⟨hfree, heq⟩ <;> rw [heq]
  · exact (State.Spares.refl s .shared).bears howes hp nofun
  · exact (Attempts.enters hp hfree rfl).bears (Nat.lt_succ_of_le howes.le) howes
      (attempt_attempted _ _ _) fun f => eq_holderOverflow_of_attempt

/-- A reader that waits is not one of those that are gone. -/
theorem Overcounts.lt_of_waits (h : Overcounts n s place)
    (hwaits : (place t).bind Pc.waits? = some .shared) : n < (s.group .shared).pending := by
  have hne : (s.group .shared).pending - n ≠ 0 := fun h0 => h.pending.zero_iff.mp h0 t hwaits
  omega

/-- Whatever a thread does next, the group goes on counting the readers that are gone from it. -/
theorem Overcounts.resume_bears (h : Overcounts n s place) (hplace : place t = some pc) :
    Bears t n (n + (resume t pc s).stand.isFull.toNat) s (resume t pc s).state (some pc)
      (resume t pc s).stand.place? := by
  have howes := h.owes
  by_cases hpc : pc.group? = some .shared
  · cases pc with
    | contended | entering =>
      cases hpc
      exact enter_bears howes (by simp [Pc.waits?])
    | waiting _ stage backoff =>
      cases hpc
      by_cases hstage : stage = .woken
      · subst hstage
        have hgate : (s.group .shared).gate = some t :=
          (h.gate t).mpr (by simp [hplace, Pc.gate?, Wait.Stage.hasGate])
        have hlt := h.lt_of_waits (t := t) (by simp [hplace, Pc.waits?])
        have hattempted : Attempted .shared backoff
            (s.counted t .shared (s.group .shared).pending) (attempt .shared backoff s) := by
          rw [State.counted_eq hgate]
          exact attempt_attempted .shared backoff s
        exact (Attempts.back rfl rfl hgate (Nat.ne_of_gt (Nat.zero_lt_of_lt hlt)) rfl).bears hlt
          howes hattempted fun f => eq_holderOverflow_of_attempt
      · obtain ⟨w, hgoes, heq⟩ := resume_waiting t .shared backoff s hstage
        rw [heq]
        refine ⟨?_, ?_, howes.congr (by rw [group_withGroup_self]) (by rw [word_withGroup]),
          fun _ hbit => ?_⟩
        · simp only [group_withGroup_self, Stand.place?, gate_waiting_iff]
          exact hgoes.passes
        · rw [group_withGroup_self]
          exact .keeps rfl Iff.rfl
        · rwa [word_withGroup]
    | notifying | notified | retrying | yielding => cases hpc
  · obtain ⟨hspares, hplace'⟩ := resume_spares hpc t s
    have hnot : (resume t pc s).stand.isFull = false :=
      Bool.eq_false_iff.mpr fun hfull => hpc (group_of_isFull hfull)
    rw [hnot]
    exact hspares.bears howes (waits_ne_of_group_ne hpc) hplace'

theorem Overcounts.turned (h : Overcounts n s place) {n' : Nat}
    (hbears : Bears t n n' s s' (place t) p') : Overcounts n' s' (Function.update place t p') where
  gate := by
    refine h.gate.passes (t := t) ?_ fun u hu => by rw [Function.update_of_ne hu]
    rw [Function.update_self]
    exact hbears.gate
  pending := by
    refine h.pending.passes (t := t) ?_ fun u hu => by rw [Function.update_of_ne hu]
    rw [Function.update_self]
    exact hbears.pending
  owes := hbears.owes

/-- Whatever happens, the group goes on counting the readers that wait and those that have found
the lock full. Once it counts one of them, its wait bit stays if it is set. -/
theorem Overcounts.happens (h : Overcounts n s place)
    (hhappens : Happens s place full s' place') :
    Overcounts (n + full.toNat) s' place' ∧
      (0 < n → s.word.fields.waits .shared = true → s'.word.fields.waits .shared = true) := by
  cases hhappens with
  | rests => exact ⟨h, fun _ hbit => hbit⟩
  | @starts t op hplace =>
    obtain ⟨hspares, hplace'⟩ := start_spares op s .shared
    have hbears := hspares.bears (t := t) (p := place t) h.owes (by simp [hplace]) hplace'
    exact ⟨h.turned hbears, hbears.stays⟩
  | @resumes t pc hplace =>
    have hbears := h.resume_bears hplace
    rw [← hplace] at hbears
    exact ⟨h.turned hbears, hbears.stays⟩
  | wakes t =>
    have hspares := wake_spares t s .shared
    have hbears : Bears t n n s (wake t s) none none := hspares.bears h.owes nofun nofun
    refine ⟨⟨?_, ?_, hbears.owes⟩, hbears.stays⟩
    · rw [hspares.gate]
      exact h.gate
    · rw [hspares.pending]
      exact h.pending

/-! ## What a reader leaves that finds the lock full -/

/-- A release never finds the lock full. -/
theorem release_not_full (mode : Mode) (s : State) :
    (start (.release mode) s).stand.isFull = false := by
  have hreleased : ∀ w, (afterRelease s (.ok w)).stand.isFull = false := by
    intro w
    simp only [afterRelease]
    split
    · exact notifyFor_not_full _ _
    · rfl
  cases mode with
  | unique =>
    simp only [start, Word.withUniqueReleased]
    split
    · exact hreleased _
    · rfl
  | shared =>
    simp only [start, Word.withSharedReleased]
    split
    · rfl
    · exact hreleased _

/-- An operation that finds the lock full when it starts has touched nothing. -/
theorem start_full {op : Operation} (h : (start op s).stand = .fault .holderOverflow) :
    (start op s).state = s ∧ maxSharedHolders.toNat ≤ s.word.fields.holders := by
  have hfull : ∀ {f}, ¬ s.word.blocksShared = true → s.word.withSharedAcquired = .error f →
      maxSharedHolders.toNat ≤ s.word.fields.holders := by
    intro f hblocks herror
    exact (Word.of_withSharedAcquired_eq_error (Bool.eq_false_iff.mpr hblocks) herror).2
  rcases op with (_ | _) | (_ | _) | mode
  case acquire.unique | tryAcquire.unique =>
    simp only [start] at h
    split at h <;> cases h
  case acquire.shared | tryAcquire.shared =>
    simp only [start] at h ⊢
    split at h
    · cases h
    · next hblocks =>
      split at h
      · cases h
      · next f hf => exact ⟨by rw [if_neg hblocks], hfull hblocks hf⟩
  case release =>
    have hnot := release_not_full mode s
    rw [Stand.isFull_iff.mpr h] at hnot
    cases hnot

/-- The state in which the mutex of the readers' group is free and so many readers are counted
there. -/
def State.left (s : State) (k : Nat) : State :=
  { s with readers := { s.readers with gate := none, pending := k } }

/-- A reader in the slow path that finds the lock full has given the mutex up. It is counted, be it
that it was so before. -/
theorem resume_full (h : (resume t pc s).stand = .fault .holderOverflow) :
    ∃ k, (resume t pc s).state = s.left k ∧
      (pc.waits? = some .shared → k = s.readers.pending) ∧
      (pc.waits? ≠ some .shared → k = s.readers.pending + 1) ∧
      maxSharedHolders.toNat ≤ s.word.fields.holders := by
  have hpc := group_of_isFull (Stand.isFull_iff.mpr h)
  cases pc with
  | contended | entering =>
    cases hpc
    change (enter t .shared s).stand = _ at h
    change ∃ k, (enter t .shared s).state = _ ∧ _
    rcases enter_cases t .shared s with heq | ⟨-, heq⟩ <;> rw [heq] at h ⊢
    · cases h
    · have hattempted := attempt_attempted .shared (.ofConfig s.config)
        (s.counted t .shared ((s.group .shared).pending + 1))
      generalize attempt .shared _ _ = turn at h hattempted
      cases hattempted with
      | granted | announced => cases h
      | faulted _ hfull => exact ⟨_, rfl, nofun, fun _ => rfl, hfull⟩
  | waiting _ stage backoff =>
    cases hpc
    by_cases hstage : stage = .woken
    · subst hstage
      have hattempted := attempt_attempted .shared backoff s
      simp only [resume] at h ⊢
      generalize attempt .shared backoff s = turn at h hattempted
      cases hattempted with
      | granted | announced => cases h
      | faulted _ hfull => exact ⟨_, rfl, fun _ => rfl, fun hnot => absurd rfl hnot, hfull⟩
    · obtain ⟨w, -, heq⟩ := resume_waiting t .shared backoff s hstage
      rw [heq] at h
      cases h
  | notifying | notified | retrying | yielding => cases hpc

end Blocking

end ReaderWriter
