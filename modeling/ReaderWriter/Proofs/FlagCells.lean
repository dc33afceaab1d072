import ReaderWriter.Proofs.FlagBlocks

/-!
# Flags are cells of their own

Whatever threads do with flags, and in whatever order: the flags that the suppliers hand out are
fresh and independent of each other.

* `Crew.Recorded`: the memory shows what the record says was written last.
* `flags_are_independent_cells`: every flag that is handed out is down and is no other's; a write
  changes the handles of one flag, and these show what was written last; packed flags fill block
  after block of their thread.
-/

namespace ReaderWriter.Script

open ReadMostly

namespace Crew

variable {c c' : Crew} {t : ThreadId} {a : FlagAction} {purposes new : List Purpose} {i : Nat}
  {f : Flag} {g : Gain} {m : Flags} {locals : ThreadId → Locals}

/-! ## What the flags show -/

/-- The record of what was written is right. -/
structure Recorded (c : Crew) : Prop where
  raised : ∀ f ∈ c.memory.raised, f ∈ c.flags
  below : ∀ w ∈ c.writes, w.1 < c.flags.length
  shows : ∀ {i f}, c.flags[i]? = some f → c.IsHanded i → c.memory.isRaised f = c.lastWritten i

theorem Housed.gain_withHandle (h : c.Housed purposes) (f : Flag) (g : Gain) (m : Flags)
    (locals : ThreadId → Locals) :
    (c.withHandle f g m locals).gains[c.flags.length]? = some g := by
  simp [Crew.withHandle, ← h.gains_length]

/-- Nothing has been written through a handle that is yet to come. -/
theorem Recorded.lookup_eq_none (h : c.Recorded) (hi : c.flags.length ≤ i) :
    c.writes.lookup i = none := by
  rw [List.lookup_eq_none_iff]
  intro w hw
  exact bne_iff_ne.mpr (Nat.ne_of_gt (Nat.lt_of_lt_of_le (h.below w hw) hi))

theorem Recorded.withHandle (h : c.Recorded) (hhoused : c.Housed purposes)
    (hm : m.raised = c.memory.raised)
    (hnew : (c.withHandle f g m locals).IsHanded c.flags.length →
      c.memory.isRaised f = (c.withHandle f g m locals).lastWritten c.flags.length) :
    (c.withHandle f g m locals).Recorded where
  raised f' hf' := List.mem_append_left _ (h.raised f' (hm ▸ hf'))
  below w hw := by simpa [Crew.withHandle] using Nat.lt_succ_of_lt (h.below w hw)
  shows := by
    intro i f' hf' hhanded
    have hraised : (c.withHandle f g m locals).memory.isRaised f' = c.memory.isRaised f' := by
      simp [Crew.withHandle, Flags.isRaised, hm]
    rw [hraised]
    rcases Nat.lt_or_ge i c.flags.length with hi | hi
    · have hroot : (c.withHandle f g m locals).root i = c.root i :=
        root_withHandle (hhoused.gains_length ▸ hi)
      have hf : c.flags[i]? = some f' := by
        simpa only [Crew.withHandle, List.getElem?_append_left hi] using hf'
      obtain ⟨-, g', hg', -⟩ := hhoused.root_spec hf
      have hold : c.IsHanded i := by
        obtain ⟨t, supply, hgain⟩ := hhanded
        rw [hroot] at hgain
        refine ⟨t, supply, hg'.trans ?_⟩
        rw [← hgain]
        exact (getElem?_append_of_some _ hg').symm
      rw [h.shows hf hold, lastWritten, lastWritten, hroot]
      rfl
    · have hlt : i < (c.flags ++ [f]).length := (List.getElem?_eq_some_iff.mp hf').1
      obtain rfl : i = c.flags.length := by
        rw [List.length_append, List.length_singleton] at hlt
        omega
      have heq : f = f' := by simpa [Crew.withHandle] using hf'
      exact heq ▸ hnew hhanded

theorem allocate_raised {supply : Supply} {handed : Supply.Handed} {l : Locals}
    (h : supply = .isolated ∨ supply = .packed) (hhanded : supply.allocate m l = .ok handed) :
    handed.flags.raised = m.raised := by
  rcases h with rfl | rfl
  · cases hhanded
    rfl
  · simp only [Supply.allocate, Except.ok.injEq] at hhanded
    subst hhanded
    split
    · unfold Supply.pack
      split
      · split <;> rfl
      · rfl
    · rfl

/-- A flag that is handed out is down: nobody has raised it. -/
theorem Recorded.hand {supply : Supply} {handed : Supply.Handed} (h : c.Recorded)
    (hhoused : c.Housed purposes) (hsupply : supply = .isolated ∨ supply = .packed)
    (hhanded : supply.allocate c.memory (c.locals t) = .ok handed)
    (hhoused' : (c.withHandle handed.flag (.handed t supply) handed.flags locals).Housed new) :
    (c.withHandle handed.flag (.handed t supply) handed.flags locals).Recorded := by
  refine h.withHandle hhoused (allocate_raised hsupply hhanded) fun _ => ?_
  have hflag : (c.withHandle handed.flag (.handed t supply) handed.flags locals).flags[
      c.flags.length]? = some handed.flag := List.getElem?_concat_length
  have hgain := hhoused.gain_withHandle handed.flag (.handed t supply) handed.flags locals
  have hnotin : handed.flag ∉ c.flags := by
    intro hmem
    obtain ⟨j, hj⟩ := List.mem_iff_getElem?.mp hmem
    obtain ⟨hrj, g, hg, hcopied⟩ := hhoused.root_spec hj
    have hroot := hhoused'.eq_of_handed hflag hgain (getElem?_append_of_some _ hrj)
      (getElem?_append_of_some _ hg) hcopied
    have hlt := (List.getElem?_eq_some_iff.mp hrj).1
    omega
  have hdown : c.memory.isRaised handed.flag = false := by
    simpa [Flags.isRaised] using mt (h.raised _) hnotin
  rw [hdown, lastWritten, root_of_handed hgain]
  exact (congrArg (·.getD false) (h.lookup_eq_none (Nat.le_refl _))).symm

theorem Recorded.write (h : c.Recorded) (hhoused : c.Housed purposes) (hf : c.flags[i]? = some f)
    (up : Bool) : ({ c with
      memory := c.memory.put f up, writes := (c.root i, up) :: c.writes } : Crew).Recorded where
  raised f' hf' := by
    change f' ∈ c.flags
    by_cases heq : f' = f
    · exact heq ▸ List.mem_of_getElem? hf
    · have hraised := c.memory.isRaised_put_of_ne up heq
      simp only [Flags.isRaised, decide_eq_decide] at hraised
      exact h.raised f' (hraised.mp hf')
  below w hw := by
    rcases List.mem_cons.mp hw with rfl | hw
    · exact (List.getElem?_eq_some_iff.mp (hhoused.root_spec hf).1).1
    · exact h.below w hw
  shows := by
    intro j f' hj hhanded
    have hsame := hhoused.same_iff hj hf hhanded
    change (c.memory.put f up).isRaised f' =
      (((c.root i, up) :: c.writes).lookup (c.root j)).getD false
    by_cases heq : f' = f
    · rw [heq, Flags.isRaised_put_self, hsame.mp heq, List.lookup_cons_self, Option.getD_some]
    · rw [Flags.isRaised_put_of_ne _ _ heq, h.shows hj hhanded, lastWritten, List.lookup_cons,
        beq_false_of_ne (mt hsame.mpr heq)]

theorem Recorded.pick (h : c.Recorded) (hhoused : c.Housed purposes) :
    (c.withHandle f .picked c.memory c.locals).Recorded := by
  refine h.withHandle hhoused rfl fun hhanded => ?_
  obtain ⟨t, supply, hgain⟩ := hhanded
  have hpicked := hhoused.gain_withHandle f .picked c.memory c.locals
  have hroot : (c.withHandle f .picked c.memory c.locals).root c.flags.length = c.flags.length := by
    simp [root, hpicked]
  rw [hroot, hpicked] at hgain
  cases hgain

theorem Recorded.copy (h : c.Recorded) (hhoused : c.Housed purposes) (hf : c.flags[i]? = some f) :
    (c.withHandle f (.copied (c.root i)) c.memory c.locals).Recorded := by
  refine h.withHandle hhoused rfl fun hhanded => ?_
  have hcopied := hhoused.gain_withHandle f (.copied (c.root i)) c.memory c.locals
  have hroot : (c.withHandle f (.copied (c.root i)) c.memory c.locals).root c.flags.length =
      c.root i := root_of_copied hcopied
  obtain ⟨-, g, hg, -⟩ := hhoused.root_spec hf
  have hold : c.IsHanded i := by
    obtain ⟨t, supply, hgain⟩ := hhanded
    rw [hroot] at hgain
    refine ⟨t, supply, hg.trans ?_⟩
    rw [← hgain]
    exact (getElem?_append_of_some _ hg).symm
  rw [h.shows hf hold, lastWritten, lastWritten, hroot]
  rfl

/-- A step keeps the record right. -/
theorem Recorded.step (h : c.Recorded) (hhoused : c.Housed purposes) (hs : Step c t c') :
    c'.Recorded := by
  obtain ⟨new, hhoused'⟩ := hhoused.step hs
  cases hs with
  | block => exact ⟨h.raised, h.below, h.shows⟩
  | pick hf => exact h.pick hhoused
  | hand hsupply hhanded => exact h.hand hhoused hsupply hhanded hhoused'
  | copy hf => exact h.copy hhoused hf
  | write up hf => exact h.write hhoused hf up

/-! ## Whole runs -/

/-- What every run keeps. -/
def Sound (c : Crew) : Prop := (∃ purposes, c.Housed purposes) ∧ c.Recorded

theorem Sound.step (h : c.Sound) (hs : Step c t c') : c'.Sound := by
  obtain ⟨⟨purposes, hhoused⟩, hrecorded⟩ := h
  exact ⟨hhoused.step hs, hrecorded.step hhoused hs⟩

theorem Sound.act (h : c.Sound) : (c.act t a).Sound :=
  act_induction (fun _ _ hc hs => hc.step hs) h

theorem sound_empty : ({} : Crew).Sound :=
  ⟨⟨[], housed_empty⟩, by simp, by simp, by simp⟩

theorem sound_after (deeds : List (ThreadId × FlagAction)) : (after deeds).Sound := by
  have hfold : ∀ (deeds : List (ThreadId × FlagAction)) (c : Crew), c.Sound →
      (deeds.foldl (fun c deed => c.act deed.1 deed.2) c).Sound := by
    intro deeds
    induction deeds with
    | nil => exact fun _ h => h
    | cons deed deeds ih => exact fun c h => ih _ h.act
  exact hfold deeds {} sound_empty

theorem gains_isolated : (c.act t .isolated).gains = c.gains ++ [.handed t .isolated] := by
  obtain ⟨handed, hhanded⟩ := allocate_ok (.inl rfl) c.memory (c.locals t)
  have hlength : ((c.session t).act .isolated).1.flags.length - c.flags.length = 1 := by
    simp [FlagSession.act, FlagSession.allocate, FlagSession.gain, session, hhanded]
  simp only [act, hlength]
  rfl

theorem gains_packed (n : Nat) :
    (c.act t (.packed n)).gains = c.gains ++ List.replicate n (.handed t .packed) := by
  have hlength : ((c.session t).act (.packed n)).1.flags.length - c.flags.length = n := by
    simp [FlagSession.act, allocatePacked_length, session]
  simp only [act, hlength]
  rfl

theorem gain_of_supply {supply : Supply} (h : a.supply? = some supply) :
    c.gain t a = .handed t supply ∧ c.written a = [] := by
  cases a <;> cases h <;> exact ⟨rfl, rfl⟩

/-- Every handle that an action yields came about by that action. -/
theorem Sound.gain_new (h : c.Sound) (hi : c.flags.length ≤ i)
    (hf : (c.act t a).flags[i]? = some f) : (c.act t a).gains[i]? = some (c.gain t a) := by
  obtain ⟨⟨purposes', hhoused'⟩, -⟩ := h.act (t := t) (a := a)
  obtain ⟨⟨purposes, hhoused⟩, -⟩ := h
  have hlt : i < (c.act t a).gains.length :=
    hhoused'.gains_length ▸ (List.getElem?_eq_some_iff.mp hf).1
  obtain ⟨g, hg⟩ : ∃ g, (c.act t a).gains[i]? = some g := ⟨_, List.getElem?_eq_getElem hlt⟩
  have hgains : (c.gains ++ List.replicate _ (c.gain t a))[i]? = some g := hg
  rw [List.getElem?_append_right (hhoused.gains_length ▸ hi)] at hgains
  rw [hg, List.eq_of_mem_replicate (List.mem_of_getElem? hgains)]

/-- A handle that was there before an action goes back to an earlier one than those the action
yields. -/
theorem Sound.root_lt (h : c.Sound) (hi : i < c.flags.length) :
    (c.act t a).root i < c.flags.length := by
  obtain ⟨⟨purposes, hhoused⟩, -⟩ := h
  have hgain : (c.act t a).gains[i]? = c.gains[i]? :=
    List.getElem?_append_left (hhoused.gains_length ▸ hi)
  have hroot : (c.act t a).root i = c.root i := by
    unfold root
    rw [hgain]
  obtain ⟨hflag, -⟩ := hhoused.root_spec (List.getElem?_eq_getElem hi)
  exact hroot ▸ (List.getElem?_eq_some_iff.mp hflag).1

/-- A flag that is being handed out is down, and no other handle is to it. -/
theorem Sound.fresh (h : c.Sound) {supply : Supply} (hsupply : a.supply? = some supply)
    (hi : c.flags.length ≤ i) (hf : (c.act t a).flags[i]? = some f) :
    (c.act t a).memory.isRaised f = false ∧ ∀ j, j ≠ i → (c.act t a).flags[j]? ≠ some f := by
  obtain ⟨hgain, hwritten⟩ := gain_of_supply (c := c) (t := t) hsupply
  have hgi : (c.act t a).gains[i]? = some (.handed t supply) := hgain ▸ h.gain_new hi hf
  have hroot : (c.act t a).root i = i := root_of_handed hgi
  have hhanded : (c.act t a).IsHanded i := ⟨t, supply, hroot.symm ▸ hgi⟩
  obtain ⟨⟨purposes, hhoused⟩, hrecorded⟩ := h.act (t := t) (a := a)
  constructor
  · have hwrites : (c.act t a).writes = c.writes := congrArg (· ++ c.writes) hwritten
    rw [hrecorded.shows hf hhanded, lastWritten, hroot, hwrites, h.2.lookup_eq_none hi]
    rfl
  · intro j hji hj
    have hsame : i = (c.act t a).root j := hroot ▸ (hhoused.same_iff hf hj hhanded).mp rfl
    rcases Nat.lt_or_ge j c.flags.length with hlt | hge
    · have hlow := h.root_lt (t := t) (a := a) hlt
      omega
    · have hgj : (c.act t a).gains[j]? = some (.handed t supply) := hgain ▸ h.gain_new hge hj
      exact hji (hsame.trans (root_of_handed hgj)).symm

/-- What is so of the flags of a crew at any time. -/
structure KeepsCells (c : Crew) : Prop where
  /-- The suppliers hand out as many flags as they are asked for. -/
  isolated : ∀ t, (c.act t .isolated).gains = c.gains ++ [.handed t .isolated]
  packed : ∀ t n,
    (c.act t (.packed n)).gains = c.gains ++ List.replicate n (.handed t .packed)
  length_eq : c.gains.length = c.flags.length
  /-- A flag that is being handed out is down, and no other handle is to it. -/
  fresh : ∀ {t a supply i f}, a.supply? = some supply → c.flags.length ≤ i →
    (c.act t a).flags[i]? = some f →
    (c.act t a).memory.isRaised f = false ∧ ∀ j, j ≠ i → (c.act t a).flags[j]? ≠ some f
  /-- A handle to a flag that was handed out is to the same flag as another one iff the copying
  began with the same handle for both. -/
  same_iff : ∀ {i j f f'}, c.flags[i]? = some f → c.flags[j]? = some f' → c.IsHanded i →
    (f = f' ↔ c.root i = c.root j)
  /-- Who sets a flag changes what is seen through the handles to the same flag, and no others. -/
  put : ∀ {t i f} up f', c.flags[i]? = some f →
    (c.act t (.put i up)).memory.isRaised f' = if f' = f then up else c.memory.isRaised f'
  /-- A flag is up iff that is what was written to it last. -/
  shows : ∀ {i f}, c.flags[i]? = some f → c.IsHanded i → c.memory.isRaised f = c.lastWritten i
  /-- The packed flags of a thread take slot after slot. -/
  slot : ∀ {t i f}, c.Has i f (.handed t .packed) → f.slot.val = c.number t i % flagsPerBlock
  /-- They fill block after block. -/
  block_iff : ∀ {t i j f f'}, c.Has i f (.handed t .packed) → c.Has j f' (.handed t .packed) →
    (f.block = f'.block ↔ c.number t i / flagsPerBlock = c.number t j / flagsPerBlock)
  /-- Flags that are handed out to different threads lie in different blocks. -/
  apart : ∀ {t u supply supply' i j f f'}, t ≠ u → c.Has i f (.handed t supply) →
    c.Has j f' (.handed u supply') → f.block ≠ f'.block
  /-- A flag with a block of its own is the only one that was handed out there. -/
  alone : ∀ {t u supply i j f f'}, i ≠ j → c.Has i f (.handed t .isolated) →
    c.Has j f' (.handed u supply) → f.block ≠ f'.block

end Crew

open Crew in
/-- Whatever threads have done, in any order: every flag that is handed out is down and is no other
handle's; two handles are to the same flag iff they come from the same handing out; who sets a flag
changes it for the handles to that flag alone, and a flag shows what was written to it last. The
packed flags of a thread fill block after block, and no other thread's flags lie there. -/
theorem flags_are_independent_cells (deeds : List (ThreadId × FlagAction)) :
    (Crew.after deeds).KeepsCells := by
  have hsound := sound_after deeds
  generalize Crew.after deeds = c at hsound
  obtain ⟨⟨purposes, h⟩, hrecorded⟩ := id hsound
  refine ⟨fun _ => gains_isolated, fun _ => gains_packed, h.gains_length, hsound.fresh, h.same_iff,
    ?put, hrecorded.shows, fun hhas => (h.purpose_packed hhas).2, ?block_iff,
    fun hne hi hj => h.block_ne hi hj (.inl hne),
    fun hne hi hj => h.block_ne hi hj (.inr ⟨rfl, hne⟩)⟩
  case put =>
    intro t i f up f' hf
    rw [act_put hf]
    split
    · next heq => rw [heq, Flags.isRaised_put_self]
    · next hne => exact Flags.isRaised_put_of_ne _ _ hne
  case block_iff =>
    intro t i j f f' hi hj
    simpa using h.block_eq_iff (h.purpose_packed hi).1 (h.purpose_packed hj).1

example :
    ((Crew.after [(0, .packed 65), (1, .packed 1)]).flags.drop 63).map Flag.block = [0, 1, 2] := by
  decide +kernel

end ReaderWriter.Script
