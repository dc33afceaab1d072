import ReaderWriter.Proofs.Custody
import ReaderWriter.Proofs.Holders

/-!
# The wait groups of a blocking lock

Each mode has a wait group, and a wait bit in the word. Together they say who waits in that mode:

* the mutex of the group is held by the caller that stands at a place where it must have it;
* the count of the group is the number of its callers that have announced their wait;
* the wait bit is set iff that number is not zero.

What is said of one group does not depend on the other. The writers' group tells the truth whatever
happens; a word that can count no more readers makes one of them leave its group with the count as
it was, so the readers' group tells the truth as long as there is room.

* `Heeds`: what a turn does to one group.
* `reachable_tellsGroup`: a group always says who waits in it.
-/

namespace ReaderWriter

/-! ## Wait bits -/

/-- The wait bit of a mode. -/
def Fields.waits (f : Fields) : Mode → Bool
  | .unique => f.uniqueWanted
  | .shared => f.sharedWaiting

namespace Word

theorem hasAdmissibleWaiters_eq (w : Word) :
    w.hasAdmissibleWaiters =
      (((w.fields.uniqueWanted || w.fields.sharedWaiting) &&
          !(w.fields.uniqueLocked || decide (w.fields.holders ≠ 0))) ||
        (w.fields.sharedWaiting && !(w.fields.uniqueLocked || w.fields.uniqueWanted))) := by
  rw [hasAdmissibleWaiters, stranded, hasWaiters_eq, held_eq, blocksShared_eq]
  rfl

theorem waits_idle (mode : Mode) : idle.fields.waits mode = false := by
  rw [fields_idle]
  cases mode <;> rfl

theorem waits_announce (w : Word) (mode mode' : Mode) :
    (Blocking.announce w mode).fields.waits mode' =
      if mode' = mode then true else w.fields.waits mode' := by
  cases mode <;> cases mode' <;> simp [Blocking.announce, Fields.waits]

theorem waits_silence (w : Word) (mode mode' : Mode) :
    (Blocking.silence w mode).fields.waits mode' =
      if mode' = mode then false else w.fields.waits mode' := by
  cases mode <;> cases mode' <;> simp [Blocking.silence, Fields.waits]

theorem waits_withUniqueLock (w : Word) (mode : Mode) :
    w.withUniqueLock.fields.waits mode = w.fields.waits mode := by
  cases mode <;> simp [Fields.waits]

theorem waits_withSharedAcquired {w w' : Word} (h : w.withSharedAcquired = .ok w') (mode : Mode) :
    w'.fields.waits mode = w.fields.waits mode := by
  obtain ⟨-, -, hfields⟩ := fields_of_withSharedAcquired h
  rw [hfields]
  cases mode <;> rfl

theorem waits_withUniqueReleased {w w' : Word} (h : w.withUniqueReleased = .ok w') (mode : Mode) :
    w'.fields.waits mode = w.fields.waits mode := by
  unfold withUniqueReleased at h
  split at h
  · cases h
    cases mode <;> simp [Fields.waits]
  · cases h

theorem waits_withSharedReleased {w w' : Word} (h : w.withSharedReleased = .ok w') (mode : Mode) :
    w'.fields.waits mode = w.fields.waits mode := by
  obtain ⟨-, hfields⟩ := fields_of_withSharedReleased h
  rw [hfields]
  cases mode <;> rfl

/-- A grant leaves the wait bits alone. -/
theorem waits_grant {w w' : Word} {mode : Mode} (h : Blocking.grant w mode = .ok w')
    (mode' : Mode) : w'.fields.waits mode' = w.fields.waits mode' := by
  cases mode with
  | unique =>
    cases h
    exact waits_withUniqueLock w mode'
  | shared => exact waits_withSharedAcquired h mode'

theorem grantWaiter_eq_ok {w w' : Word} {mode : Mode} {last : Bool}
    (h : Blocking.grantWaiter w mode last = .ok w') :
    ∃ v, Blocking.grant w mode = .ok v ∧
      w' = if last then Blocking.silence v mode else Blocking.announce v mode := by
  unfold Blocking.grantWaiter at h
  cases hg : Blocking.grant w mode with
  | error f =>
    rw [hg] at h
    cases h
  | ok v =>
    rw [hg] at h
    cases h
    exact ⟨v, rfl, rfl⟩

/-- After a grant to a waiter the wait bit says whether it was the last one. -/
theorem waits_grantWaiter {w w' : Word} {mode : Mode} {last : Bool}
    (h : Blocking.grantWaiter w mode last = .ok w') (mode' : Mode) :
    w'.fields.waits mode' = if mode' = mode then !last else w.fields.waits mode' := by
  obtain ⟨v, hgrant, rfl⟩ := grantWaiter_eq_ok h
  rw [← waits_grant hgrant mode']
  cases last with
  | false => simpa using waits_announce v mode mode'
  | true => simpa using waits_silence v mode mode'

/-- A caller that is let in is refused the lock only because the word cannot count it. -/
theorem eq_holderOverflow_of_grantWaiter {w : Word} {mode : Mode} {last : Bool} {f : Fault}
    (hadmits : Blocking.admits w mode = true) (h : Blocking.grantWaiter w mode last = .error f) :
    f = .holderOverflow := by
  cases mode with
  | unique => cases h
  | shared =>
    have hopen : w.blocksShared = false := by simpa [Blocking.admits] using hadmits
    cases hacquired : w.withSharedAcquired with
    | ok v =>
      rw [Blocking.grantWaiter, Blocking.grant, hacquired] at h
      cases h
    | error g =>
      rw [Blocking.grantWaiter, Blocking.grant, hacquired] at h
      cases h
      exact (of_withSharedAcquired_eq_error hopen hacquired).1

/-- A caller that is let in is granted the lock, if it is a writer or the word can count it. -/
theorem exists_grantWaiter {w : Word} {mode : Mode} (hadmits : Blocking.admits w mode = true)
    (hroom : mode = .shared → w.fields.holders < maxSharedHolders.toNat) (last : Bool) :
    ∃ w', Blocking.grantWaiter w mode last = .ok w' := by
  cases mode with
  | unique => exact ⟨_, rfl⟩
  | shared =>
    have hopen : w.blocksShared = false := by simpa [Blocking.admits] using hadmits
    obtain ⟨v, hv, -⟩ := withSharedAcquired_eq_ok (uniqueLocked_of_open hopen) (hroom rfl)
    exact ⟨_, by rw [Blocking.grantWaiter, Blocking.grant, hv]; rfl⟩

end Word

namespace Blocking

/-! ## Who waits in a group -/

/-- The group for which the caller is bound, or in which it is. -/
def Pc.group? : Pc → Option Mode
  | .contended mode | .entering mode | .waiting mode _ _ => some mode
  | .notifying _ | .notified _ _ | .retrying | .yielding => none

/-- The group in which the caller waits. -/
def Pc.waits? : Pc → Option Mode
  | .waiting mode _ _ => some mode
  | _ => none

/-- The group whose mutex the caller has. -/
def Pc.gate? : Pc → Option Mode
  | .waiting mode stage _ => if stage.hasGate then some mode else none
  | _ => none

/-- The release is still notifying. -/
def Pc.notifies : Pc → Bool
  | .notifying _ | .notified _ _ | .retrying | .yielding => true
  | _ => false

/-- The wait bit of a mode says whether somebody waits in its group. -/
def State.TellsBit (s : State) (mode : Mode) : Prop :=
  s.word.fields.waits mode = decide ((s.group mode).pending ≠ 0)

/-- The group of a mode and its wait bit say who waits in it. -/
structure TellsGroup (mode : Mode) (c : Crowd State Pc) : Prop where
  gate : (c.state.group mode).gate.HeldBy fun t => (c.place t).bind Pc.gate? = some mode
  pending : Tallies (c.state.group mode).pending fun t => (c.place t).bind Pc.waits? = some mode
  bit : c.state.TellsBit mode

@[simp]
theorem group_withGroup_self (s : State) (mode : Mode) (g : Group) :
    (s.withGroup mode g).group mode = g := by
  cases mode <;> rfl

theorem group_withGroup_of_ne (s : State) {mode mode' : Mode} (g : Group) (h : mode' ≠ mode) :
    (s.withGroup mode g).group mode' = s.group mode' := by
  cases mode <;> cases mode' <;> first | rfl | exact absurd rfl h

theorem group_withWord (s : State) (w : Word) (mode : Mode) :
    State.group { s with word := w } mode = s.group mode := by
  cases mode <;> rfl

theorem withGroup_group (s : State) (mode : Mode) : s.withGroup mode (s.group mode) = s := by
  cases mode <;> rfl

/-- Where nobody has announced a wait, nobody has a group's mutex. -/
theorem gate_ne_of_waits_ne {p : Option Pc} {mode : Mode} (h : p.bind Pc.waits? ≠ some mode) :
    p.bind Pc.gate? ≠ some mode := by
  rcases p with _ | pc
  · exact nofun
  · cases pc with
    | waiting mode' stage backoff =>
      intro hgate
      simp only [Option.bind_some, Pc.gate?] at hgate
      split at hgate
      · exact h hgate
      · cases hgate
    | _ => exact nofun

theorem waits_ne_of_group_ne {pc : Pc} {mode : Mode} (h : pc.group? ≠ some mode) :
    (some pc).bind Pc.waits? ≠ some mode := by
  cases pc with
  | waiting mode' stage backoff => exact h
  | _ => exact nofun

theorem gate_waiting_iff (mode : Mode) (stage : Wait.Stage) (backoff : Backoff) :
    (some (Pc.waiting mode stage backoff)).bind Pc.gate? = some mode ↔ stage.hasGate = true := by
  cases h : stage.hasGate <;> simp [Pc.gate?, h]

/-! ## What a turn does to a group -/

/-- A turn of a thread that stood at `p`: what it does to the group of a mode and to its bit. -/
structure Heeds (t : ThreadId) (mode : Mode) (s s' : State) (p p' : Option Pc) : Prop where
  gate : Gate.Passes t (s.group mode).gate (s'.group mode).gate
    (p.bind Pc.gate? = some mode) (p'.bind Pc.gate? = some mode)
  pending : Recounts (s.group mode).pending (s'.group mode).pending
    (p.bind Pc.waits? = some mode) (p'.bind Pc.waits? = some mode)
  bit : s'.TellsBit mode

theorem TellsGroup.heeds {mode : Mode} {c c' : Crowd State Pc} (h : TellsGroup mode c)
    {t : ThreadId} (hheeds : Heeds t mode c.state c'.state (c.place t) (c'.place t))
    (hothers : ∀ u, u ≠ t → c'.place u = c.place u) : TellsGroup mode c' where
  gate := h.gate.passes hheeds.gate fun u hu => by rw [hothers u hu]
  pending := h.pending.passes hheeds.pending fun u hu => by rw [hothers u hu]
  bit := hheeds.bit

/-- The turn leaves the mutex, the count and the bit of a mode alone. -/
structure State.Spares (s s' : State) (mode : Mode) : Prop where
  gate : (s'.group mode).gate = (s.group mode).gate
  pending : (s'.group mode).pending = (s.group mode).pending
  waits : s'.word.fields.waits mode = s.word.fields.waits mode

namespace State.Spares

variable {s s' : State} {mode mode' : Mode}

theorem refl (s : State) (mode : Mode) : s.Spares s mode := ⟨rfl, rfl, rfl⟩

theorem of_word {w : Word} (h : w.fields.waits mode = s.word.fields.waits mode) :
    s.Spares { s with word := w } mode :=
  ⟨by rw [group_withWord], by rw [group_withWord], h⟩

/-- Only the queue of a group changes. -/
theorem of_signal (s : State) (mode mode' : Mode) (signal : Signal) :
    s.Spares (s.withGroup mode { s.group mode with signal := signal }) mode' := by
  cases mode <;> cases mode' <;> exact ⟨rfl, rfl, rfl⟩

/-- Another group changes. -/
theorem of_ne (s : State) (w : Word) (g : Group) (hne : mode' ≠ mode)
    (h : w.fields.waits mode' = s.word.fields.waits mode') :
    s.Spares ({ s with word := w }.withGroup mode g) mode' := by
  have hgroup : ({ s with word := w }.withGroup mode g).group mode' = s.group mode' := by
    rw [group_withGroup_of_ne _ _ hne, group_withWord]
  exact ⟨by rw [hgroup], by rw [hgroup], by rwa [word_withGroup]⟩

theorem trans {s'' : State} (h : s.Spares s' mode) (h' : s'.Spares s'' mode) :
    s.Spares s'' mode :=
  ⟨h'.gate.trans h.gate, h'.pending.trans h.pending, h'.waits.trans h.waits⟩

/-- A turn outside the group. -/
theorem heeds (h : s.Spares s' mode) (hbit : s.TellsBit mode) {t : ThreadId} {p p' : Option Pc}
    (hp : p.bind Pc.waits? ≠ some mode) (hp' : p'.bind Pc.waits? ≠ some mode) :
    Heeds t mode s s' p p' where
  gate := .keeps h.gate (iff_of_false (gate_ne_of_waits_ne hp') (gate_ne_of_waits_ne hp))
  pending := .keeps h.pending (iff_of_false hp' hp)
  bit := by rw [TellsBit, h.waits, h.pending]; exact hbit

end State.Spares

/-- The state in which a caller has its group's mutex and so many callers are counted there. -/
def State.counted (s : State) (t : ThreadId) (mode : Mode) (n : Nat) : State :=
  s.withGroup mode { s.group mode with gate := some t, pending := n }

@[simp]
theorem State.counted_word (s : State) (t : ThreadId) (mode : Mode) (n : Nat) :
    (s.counted t mode n).word = s.word :=
  word_withGroup _ _ _

@[simp]
theorem State.counted_group (s : State) (t : ThreadId) (mode : Mode) (n : Nat) :
    (s.counted t mode n).group mode = { s.group mode with gate := some t, pending := n } :=
  group_withGroup_self _ _ _

/-- A caller whose wait is over has been counted and has its group's mutex. -/
theorem State.counted_eq {s : State} {t : ThreadId} {mode : Mode}
    (h : (s.group mode).gate = some t) : s.counted t mode (s.group mode).pending = s := by
  rw [State.counted, ← h]
  exact withGroup_group _ _

/-- What an attempt comes to. -/
inductive Attempted (mode : Mode) (backoff : Backoff) (s : State) : Turn State Pc → Prop
  | granted {w : Word} : admits s.word mode = true →
      grantWaiter s.word mode ((s.group mode).pending == 1) = .ok w →
      Attempted mode backoff s
        { state := { s with word := w }.withGroup mode
            { s.group mode with gate := none, pending := (s.group mode).pending - 1 }
          stand := .done .unit }
  | faulted {f : Fault} : mode = .shared → maxSharedHolders.toNat ≤ s.word.fields.holders →
      Attempted mode backoff s
        { state := s.withGroup mode { s.group mode with gate := none }, stand := .fault f }
  | announced : admits s.word mode = false →
      Attempted mode backoff s
        { state := { s with word := announce s.word mode }
          stand := .here (.waiting mode .announced backoff) }

theorem attempt_attempted (mode : Mode) (backoff : Backoff) (s : State) :
    Attempted mode backoff s (attempt mode backoff s) := by
  unfold attempt
  dsimp only
  split
  · next hadmits =>
    split
    · next w hw => exact .granted hadmits hw
    · next f hf =>
      have hfull : ¬ (mode = .shared → s.word.fields.holders < maxSharedHolders.toNat) := by
        intro hroom
        obtain ⟨w, hw⟩ := Word.exists_grantWaiter hadmits hroom ((s.group mode).pending == 1)
        cases hf.symm.trans hw
      rw [Classical.not_imp] at hfull
      exact .faulted hfull.1 (Nat.le_of_not_lt hfull.2)
  · next hrefused => exact .announced (Bool.eq_false_iff.mpr hrefused)

/-- How a caller comes to attempt: it is back from a wait, or it has just taken its group's mutex
and been counted. -/
inductive Attempts (t : ThreadId) (s : State) (mode : Mode) (p : Option Pc) (n : Nat) : Prop
  | back : p.bind Pc.gate? = some mode → p.bind Pc.waits? = some mode →
      (s.group mode).gate = some t → (s.group mode).pending ≠ 0 → n = (s.group mode).pending →
      Attempts t s mode p n
  | enters : p.bind Pc.waits? ≠ some mode → (s.group mode).gate = none →
      n = (s.group mode).pending + 1 → Attempts t s mode p n

namespace Attempts

variable {t : ThreadId} {s : State} {mode : Mode} {p : Option Pc} {n : Nat}

theorem ne_zero (h : Attempts t s mode p n) : n ≠ 0 := by
  cases h with
  | back _ _ _ hne heq => exact heq ▸ hne
  | enters _ _ heq => exact heq ▸ Nat.succ_ne_zero _

/-- A caller that is let in is out of the group again. -/
theorem granted_heeds (h : Attempts t s mode p n) {s' : State}
    (hgroup : s'.group mode = { s.group mode with gate := none, pending := n - 1 })
    (hwaits : s'.word.fields.waits mode = !(n == 1)) : Heeds t mode s s' p none := by
  refine ⟨?_, ?_, ?_⟩
  · rw [hgroup]
    cases h with
    | back hgate => exact .gives hgate rfl nofun
    | enters hwaits hmutex =>
      exact .keeps hmutex.symm (iff_of_false nofun (gate_ne_of_waits_ne hwaits))
  · rw [hgroup]
    cases h with
    | back _ hwaits _ _ heq => exact .leaves (by rw [heq]) hwaits nofun
    | enters hwaits _ heq => exact .keeps (by rw [heq]; rfl) (iff_of_false nofun hwaits)
  · have hlast : (n == 1) = !decide (n - 1 ≠ 0) := by
      have hne := h.ne_zero
      rw [Bool.eq_iff_iff]
      simp
      omega
    rw [State.TellsBit, hgroup, hwaits, hlast, Bool.not_not]

/-- A caller that is not let in stays in the group and announces its wait. -/
theorem announced_heeds (h : Attempts t s mode p n) {s' : State} (backoff : Backoff)
    (hgroup : s'.group mode = { s.group mode with gate := some t, pending := n })
    (hwaits : s'.word.fields.waits mode = true) :
    Heeds t mode s s' p (some (.waiting mode .announced backoff)) := by
  have hgate' : (some (Pc.waiting mode .announced backoff)).bind Pc.gate? = some mode := rfl
  have hwaits' : (some (Pc.waiting mode .announced backoff)).bind Pc.waits? = some mode := rfl
  refine ⟨?_, ?_, ?_⟩
  · rw [hgroup]
    cases h with
    | back hgate _ hmutex => exact .keeps hmutex.symm (iff_of_true hgate' hgate)
    | enters _ hmutex => exact .takes hmutex rfl hgate'
  · rw [hgroup]
    cases h with
    | back _ hwaits _ _ heq => exact .keeps heq (iff_of_true hwaits' hwaits)
    | enters hwaits _ heq => exact .enters heq hwaits hwaits'
  · rw [State.TellsBit, hgroup, hwaits]
    simp [h.ne_zero]

/-- An attempt lets its caller in, who leaves the group, or makes it announce its wait. -/
theorem heeds (h : Attempts t s mode p n) {backoff : Backoff} {turn : Turn State Pc}
    (hturn : Attempted mode backoff (s.counted t mode n) turn)
    (hroom : mode = .shared → s.word.fields.holders < maxSharedHolders.toNat) :
    Heeds t mode s turn.state p turn.stand.place? := by
  cases hturn with
  | granted _ hw =>
    refine h.granted_heeds (by rw [group_withGroup_self, State.counted_group]) ?_
    rw [word_withGroup, Word.waits_grantWaiter hw, if_pos rfl, State.counted_group]
  | faulted hmode hfull =>
    rw [State.counted_word] at hfull
    exact absurd (hroom hmode) (Nat.not_lt.mpr hfull)
  | announced =>
    refine h.announced_heeds backoff ?_ ?_
    · exact (group_withWord _ _ _).trans (State.counted_group _ _ _ _)
    · rw [Word.waits_announce, if_pos rfl]

end Attempts

/-- An attempt is no business of the other group. -/
theorem Attempted.spares {mode mode' : Mode} {backoff : Backoff} {s : State} {turn : Turn State Pc}
    (h : Attempted mode backoff s turn) (hne : mode' ≠ mode) :
    s.Spares turn.state mode' ∧ turn.stand.place?.bind Pc.waits? ≠ some mode' := by
  cases h with
  | granted _ hw =>
    exact ⟨.of_ne s _ _ hne (by rw [Word.waits_grantWaiter hw, if_neg hne]), nofun⟩
  | faulted => exact ⟨.of_ne s s.word _ hne rfl, nofun⟩
  | announced =>
    refine ⟨.of_word (by rw [Word.waits_announce, if_neg hne]), ?_⟩
    simpa [Stand.place?, Pc.waits?] using hne.symm

/-- A caller on its way in finds its group's mutex busy, or takes it and attempts. -/
theorem enter_cases (t : ThreadId) (mode : Mode) (s : State) :
    enter t mode s = { state := s, stand := .here (.entering mode) } ∨
      (s.group mode).gate = none ∧
        enter t mode s = attempt mode (.ofConfig s.config)
          (s.counted t mode ((s.group mode).pending + 1)) := by
  by_cases hbusy : (s.group mode).gate.isSome = true
  · exact .inl (if_pos hbusy)
  · exact .inr ⟨by simpa using hbusy, if_neg hbusy⟩

/-- A caller on its way in takes its group's mutex and attempts, or stays outside. -/
theorem enter_heeds {t : ThreadId} {mode : Mode} {s : State} {p : Option Pc}
    (hroom : mode = .shared → s.word.fields.holders < maxSharedHolders.toNat)
    (hbit : s.TellsBit mode) (hp : p.bind Pc.waits? ≠ some mode) :
    Heeds t mode s (enter t mode s).state p (enter t mode s).stand.place? := by
  rcases enter_cases t mode s with heq | ⟨hfree, heq⟩ <;> rw [heq]
  · exact (State.Spares.refl s mode).heeds hbit hp nofun
  · exact (Attempts.enters hp hfree rfl).heeds (attempt_attempted _ _ _) hroom

theorem enter_spares (t : ThreadId) {mode mode' : Mode} (s : State) (hne : mode' ≠ mode) :
    s.Spares (enter t mode s).state mode' ∧
      (enter t mode s).stand.place?.bind Pc.waits? ≠ some mode' := by
  rcases enter_cases t mode s with heq | ⟨-, heq⟩ <;> rw [heq]
  · exact ⟨.refl s mode', nofun⟩
  · have hcounted : s.Spares (s.counted t mode ((s.group mode).pending + 1)) mode' :=
      .of_ne s s.word _ hne rfl
    obtain ⟨hspares, hplace⟩ := (attempt_attempted mode _ _).spares hne
    exact ⟨hcounted.trans hspares, hplace⟩

/-- A turn of a wait that is not over goes on with the wait alone. -/
theorem resume_waiting (t : ThreadId) (mode : Mode) {stage : Wait.Stage} (backoff : Backoff)
    (s : State) (hstage : stage ≠ .woken) :
    ∃ w : Wait.State,
      Wait.Goes t (s.group mode).gate (s.group mode).signal stage w.gate w.signal w.stage ∧
      resume t (.waiting mode stage backoff) s =
        { state := s.withGroup mode { s.group mode with gate := w.gate, signal := w.signal }
          stand := .here (.waiting mode w.stage w.backoff) } := by
  let w₀ : Wait.State := ⟨(s.group mode).gate, (s.group mode).signal, stage, backoff⟩
  refine ⟨Wait.turn s.terms.strategy t w₀,
    Wait.turn_goes s.terms.strategy t (w := w₀) hstage, ?_⟩
  cases stage with
  | woken => exact absurd rfl hstage
  | announced | parking | parked | snoozing | resumed => rfl

theorem TellsGroup.attempts {mode : Mode} {c : Crowd State Pc} (h : TellsGroup mode c)
    {t : ThreadId} {backoff : Backoff} (hplace : c.place t = some (.waiting mode .woken backoff)) :
    (c.state.group mode).gate = some t ∧
      Attempts t c.state mode (some (.waiting mode .woken backoff))
        (c.state.group mode).pending := by
  have hgate : (c.state.group mode).gate = some t :=
    (h.gate t).mpr (by simp [hplace, Pc.gate?, Wait.Stage.hasGate])
  have hpending : (c.state.group mode).pending ≠ 0 := fun h0 =>
    h.pending.zero_iff.mp h0 t (by simp [hplace, Pc.waits?])
  exact ⟨hgate, .back rfl rfl hgate hpending rfl⟩

theorem recheck_place (s : State) :
    (∃ pc, (recheck s).stand.place? = some pc ∧ pc.notifies = true) ∨
      (recheck s).stand.place? = none ∧ s.word.hasAdmissibleWaiters = false := by
  unfold recheck
  split
  · exact .inl ⟨_, rfl, rfl⟩
  · next h => exact .inr ⟨rfl, by simpa using h⟩

theorem notifyFor_place (w : Word) (s : State) :
    (∃ pc, (notifyFor w s).stand.place? = some pc ∧ pc.notifies = true) ∨
      (notifyFor w s).stand.place? = none ∧ s.word.hasAdmissibleWaiters = false := by
  unfold notifyFor
  split
  · exact .inl ⟨_, rfl, rfl⟩
  · split
    · exact .inl ⟨_, rfl, rfl⟩
    · exact recheck_place s

/-- A release that goes on notifying looks at the word and changes nothing but queues. It leaves
only when nobody is owed a wakeup. -/
theorem resume_notifies {t : ThreadId} {pc : Pc} {s : State} (h : pc.notifies = true) :
    (resume t pc s).state.word = s.word ∧ (∀ mode, s.Spares (resume t pc s).state mode) ∧
      ((∃ pc', (resume t pc s).stand.place? = some pc' ∧ pc'.notifies = true) ∨
        (resume t pc s).stand.place? = none ∧ s.word.hasAdmissibleWaiters = false) := by
  cases pc with
  | notifying mode =>
    simp only [resume]
    split
    · exact ⟨word_withGroup _ _ _, fun mode' => .of_signal s mode mode' _, .inl ⟨_, rfl, rfl⟩⟩
    · rw [recheck_state]
      exact ⟨rfl, .refl s, recheck_place s⟩
  | notified mode woken =>
    simp only [resume, recheck_state]
    have hrecheck := recheck_place
      (s.withGroup mode { s.group mode with signal := (s.group mode).signal.release })
    rw [word_withGroup] at hrecheck
    exact ⟨word_withGroup _ _ _, fun mode' => .of_signal s mode mode' _, hrecheck⟩
  | retrying => exact ⟨rfl, .refl s, .inl ⟨_, rfl, rfl⟩⟩
  | yielding =>
    simp only [resume]
    split
    · rw [notifyFor_state]
      exact ⟨rfl, .refl s, notifyFor_place _ _⟩
    · next hquiet => exact ⟨rfl, .refl s, .inr ⟨rfl, by simpa using hquiet⟩⟩
  | contended | entering | waiting => cases h

theorem waits_ne_of_notifies {p : Option Pc} {quiet : Prop}
    (h : (∃ pc, p = some pc ∧ pc.notifies = true) ∨ p = none ∧ quiet) (mode : Mode) :
    p.bind Pc.waits? ≠ some mode := by
  rcases h with ⟨pc, rfl, hnotifies⟩ | ⟨rfl, -⟩
  · cases pc with
    | waiting => cases hnotifies
    | _ => exact nofun
  · exact nofun

/-- A turn of a caller that is not bound for a group is no business of the group. -/
theorem resume_spares {mode : Mode} {pc : Pc} (hpc : pc.group? ≠ some mode) (t : ThreadId)
    (s : State) :
    s.Spares (resume t pc s).state mode ∧
      (resume t pc s).stand.place?.bind Pc.waits? ≠ some mode := by
  have hnotifying : pc.notifies = true → s.Spares (resume t pc s).state mode ∧
      (resume t pc s).stand.place?.bind Pc.waits? ≠ some mode := by
    intro hnotifies
    obtain ⟨-, hspares, hplace⟩ := resume_notifies (t := t) (s := s) hnotifies
    exact ⟨hspares mode, waits_ne_of_notifies hplace mode⟩
  have hne : ∀ {mode'}, pc.group? = some mode' → mode ≠ mode' := by
    rintro mode' heq rfl
    exact hpc heq
  cases pc with
  | contended mode' | entering mode' => exact enter_spares t s (hne rfl)
  | waiting mode' stage backoff =>
    by_cases hstage : stage = .woken
    · subst hstage
      exact (attempt_attempted mode' backoff s).spares (hne rfl)
    · obtain ⟨w, hgoes, heq⟩ := resume_waiting t mode' backoff s hstage
      rw [heq]
      refine ⟨.of_ne s s.word _ (hne rfl) rfl, ?_⟩
      simpa [Stand.place?, Pc.waits?] using (hne rfl).symm
  | notifying | notified | retrying | yielding => exact hnotifying rfl

/-- Every later turn of an operation does to a group what its own place says. -/
theorem resume_heeds {mode : Mode} {c : Crowd State Pc} (h : TellsGroup mode c) {t : ThreadId}
    {pc : Pc} (hplace : c.place t = some pc)
    (hroom : mode = .shared → c.state.word.fields.holders < maxSharedHolders.toNat) :
    Heeds t mode c.state (resume t pc c.state).state (some pc)
      (resume t pc c.state).stand.place? := by
  by_cases hpc : pc.group? = some mode
  · cases pc with
    | contended | entering =>
      cases hpc
      exact enter_heeds hroom h.bit (by simp [Pc.waits?])
    | waiting _ stage backoff =>
      cases hpc
      by_cases hstage : stage = .woken
      · subst hstage
        obtain ⟨hgate, hattempts⟩ := h.attempts hplace
        have hattempted : Attempted mode backoff
            (c.state.counted t mode (c.state.group mode).pending)
            (attempt mode backoff c.state) := by
          rw [State.counted_eq hgate]
          exact attempt_attempted mode backoff c.state
        exact hattempts.heeds hattempted hroom
      · obtain ⟨w, hgoes, heq⟩ := resume_waiting t mode backoff c.state hstage
        rw [heq]
        refine ⟨?_, ?_, ?_⟩
        · simp only [group_withGroup_self, Stand.place?, gate_waiting_iff]
          exact hgoes.passes
        · rw [group_withGroup_self]
          exact .keeps rfl Iff.rfl
        · rw [State.TellsBit, group_withGroup_self, word_withGroup]
          exact h.bit
    | notifying | notified | retrying | yielding => cases hpc
  · obtain ⟨hspares, hplace'⟩ := resume_spares hpc t c.state
    exact hspares.heeds h.bit (waits_ne_of_group_ne hpc) hplace'

/-- How a release that has given the lock up goes on: it is still notifying, or nobody is owed a
wakeup. -/
theorem afterRelease_place (s : State) (w : Word) :
    (∃ pc, (afterRelease s (.ok w)).stand.place? = some pc ∧ pc.notifies = true) ∨
      (afterRelease s (.ok w)).stand.place? = none ∧ w.hasAdmissibleWaiters = false := by
  simp only [afterRelease]
  split
  · exact notifyFor_place w { s with word := w }
  · next hnone =>
    rw [Word.hasWaiters_eq, Bool.not_eq_true, Bool.or_eq_false_iff] at hnone
    exact .inr ⟨rfl, by simp [Word.hasAdmissibleWaiters_eq, hnone]⟩

/-- What the first turn of an operation comes to: the caller goes on without the lock or leaves
without it, it has taken the lock, or it has given the lock up. -/
inductive Started (s : State) (op : Operation) : Turn State Pc → Prop
  | stays {stand : Stand Pc} : Hold.granted? op stand = none →
      (∀ pc, stand.place? = some pc → pc.waits? = none) →
      Started s op { state := s, stand := stand }
  | taken {mode : Mode} {w : Word} {answer : Answer} : op.acquires? = some mode →
      admits s.word mode = true → grant s.word mode = .ok w →
      Started s op { state := { s with word := w }, stand := .done answer }
  | given {w : Word} : op.acquires? = none →
      (∀ mode, w.fields.waits mode = s.word.fields.waits mode) →
      Started s op (afterRelease s (.ok w))

theorem start_started (op : Operation) (s : State) : Started s op (start op s) := by
  have hidle : s.word = .idle → admits s.word .unique = true := by
    intro h
    rw [h]
    decide
  have hopen : ¬ s.word.blocksShared = true → admits s.word .shared = true := by
    intro h
    simpa [admits] using h
  rcases op with (_ | _) | (_ | _) | (_ | _) <;> simp only [start]
  · split
    · next h => exact .taken rfl (hidle h) rfl
    · exact .stays rfl (by rintro _ ⟨⟩; rfl)
  · split
    · exact .stays rfl (by rintro _ ⟨⟩; rfl)
    · next h =>
      split
      · next w hw => exact .taken rfl (hopen h) hw
      · exact .stays rfl (by rintro _ ⟨⟩)
  · split
    · next h => exact .taken rfl (hidle h) rfl
    · exact .stays rfl (by rintro _ ⟨⟩)
  · split
    · exact .stays rfl (by rintro _ ⟨⟩)
    · next h =>
      split
      · next w hw => exact .taken rfl (hopen h) hw
      · exact .stays rfl (by rintro _ ⟨⟩)
  · cases hr : s.word.withUniqueReleased with
    | error f => exact .stays rfl (by rintro _ ⟨⟩)
    | ok w => exact .given rfl (Word.waits_withUniqueReleased hr)
  · cases hr : s.word.withSharedReleased with
    | error f => exact .stays rfl (by rintro _ ⟨⟩)
    | ok w => exact .given rfl (Word.waits_withSharedReleased hr)

/-- Nobody waits after the first turn of an operation. -/
theorem start_not_waits {op : Operation} {s : State} {pc : Pc}
    (h : (start op s).stand.place? = some pc) : pc.waits? = none := by
  have hstarted := start_started op s
  generalize start op s = turn at hstarted h
  cases hstarted with
  | stays _ hplace => exact hplace pc h
  | taken => cases h
  | @given w =>
    rcases afterRelease_place s w with ⟨pc', hpc', hnotifies⟩ | ⟨hnone, -⟩
    · cases h.symm.trans hpc'
      cases pc with
      | waiting => cases hnotifies
      | contended | entering | notifying | notified | retrying | yielding => rfl
    · cases h.symm.trans hnone

/-- The first turn of an operation leaves the groups alone. -/
theorem start_spares (op : Operation) (s : State) (mode : Mode) :
    s.Spares (start op s).state mode ∧ (start op s).stand.place?.bind Pc.waits? ≠ some mode := by
  have hstarted := start_started op s
  generalize start op s = turn at hstarted
  cases hstarted with
  | @stays stand _ hplace =>
    refine ⟨.refl s mode, fun hwaits => ?_⟩
    obtain ⟨pc, hpc, hmode⟩ := Option.bind_eq_some_iff.mp hwaits
    rw [hplace pc hpc] at hmode
    cases hmode
  | taken _ _ hgrant => exact ⟨.of_word (Word.waits_grant hgrant mode), nofun⟩
  | given _ hwaits =>
    rw [afterRelease_state]
    exact ⟨.of_word (hwaits mode), waits_ne_of_notifies (afterRelease_place _ _) mode⟩

theorem start_heeds {t : ThreadId} {mode : Mode} {s : State} (op : Operation)
    (hbit : s.TellsBit mode) :
    Heeds t mode s (start op s).state none (start op s).stand.place? := by
  obtain ⟨hspares, hplace⟩ := start_spares op s mode
  exact hspares.heeds hbit nofun hplace

theorem wake_spares (t : ThreadId) (s : State) (mode : Mode) : s.Spares (wake t s) mode := by
  cases mode <;> exact ⟨rfl, rfl, rfl⟩

/-! ## Runs of the crowd -/

/-- Whatever happens to the crowd, a group goes on saying who waits in it. -/
theorem TellsGroup.step {mode : Mode} {c c' : Crowd State Pc} (h : TellsGroup mode c)
    (hstep : machine.Step c c')
    (hroom : mode = .shared → c.state.word.fields.holders < maxSharedHolders.toNat) :
    TellsGroup mode c' := by
  cases hstep with
  | @start t op hplace hpos =>
    refine h.heeds (t := t) ?_ fun u hu => Function.update_of_ne hu _ _
    simp only [Crowd.turned, Function.update_self, hplace]
    exact start_heeds op h.bit
  | @resume t pc op hplace hserves hfree =>
    refine h.heeds (t := t) ?_ fun u hu => Function.update_of_ne hu _ _
    simp only [Crowd.turned, Function.update_self, hplace]
    exact resume_heeds h hplace hroom
  | wake t =>
    have hspares := wake_spares t c.state mode
    refine ⟨?_, ?_, ?_⟩
    · rw [show (machine.wake t c.state).group mode = (wake t c.state).group mode from rfl,
        hspares.gate]
      exact h.gate
    · rw [show (machine.wake t c.state).group mode = (wake t c.state).group mode from rfl,
        hspares.pending]
      exact h.pending
    · have hbit := h.bit
      rw [State.TellsBit, ← hspares.waits, ← hspares.pending] at hbit
      exact hbit

theorem tellsGroup_newCrowd (mode : Mode) (host : Host) (config : Config) :
    TellsGroup mode (machine.newCrowd host config) := by
  refine ⟨fun t => ?_, ⟨[], List.nodup_nil, fun t => ?_, ?_⟩, ?_⟩
  · cases mode <;> simp [Machine.newCrowd, machine, State.group]
  · simp [Machine.newCrowd]
  · cases mode <;> rfl
  · cases mode <;> exact Word.waits_idle _

/-- A group always says who waits in it; that of the readers, if the word can count the holders. -/
theorem reachable_tellsGroup {mode : Mode} {ok : Crowd State Pc → Prop}
    (hroom : ∀ c, ok c → mode = .shared → c.held .shared < maxSharedHolders.toNat)
    {c : Crowd State Pc} (h : machine.Reachable ok c) : TellsGroup mode c := by
  induction h with
  | start host config => exact tellsGroup_newCrowd mode host config
  | @step c c' hreach hok hstep ih =>
    refine ih.step hstep fun hmode => ?_
    rw [← (hreach.counts machine_countsHolders).shared]
    exact hroom c hok hmode

end Blocking

end ReaderWriter
