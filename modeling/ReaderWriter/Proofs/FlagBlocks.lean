import ReaderWriter.Proofs.Crews

/-!
# The blocks of flags

Every block came into being for a purpose: for the flag of one handle, for a row of packed flags of
one thread, or for a script that picks slots by itself. No two blocks have the same purpose, and a
flag lies in the block of its purpose, a packed one at the slot of its number.

* `Crew.Housed`: this, as an invariant, with the list of the purposes.
* `Crew.Housed.step`: every step keeps it.
* `Crew.Housed.same_iff`: two handles are to the same flag iff they come from the same handing out.
* `Crew.Housed.block_ne`: which flags have no block in common.
-/

namespace ReaderWriter.Script

open ReadMostly

namespace Crew

variable {c c' : Crew} {t : ThreadId}

/-! ## Where the flags lie -/

/-- What a block came into being for. -/
inductive Purpose where
  /-- To be picked from: it is the block with this number among those that scripts asked for. -/
  | picking (n : Nat)
  /-- For the flag of this handle alone. -/
  | isolated (i : Nat)
  /-- For packed flags of a thread: it is the block with this number among those it fills. -/
  | packing (t : ThreadId) (n : Nat)

/-- How many packed flags a thread has been handed. -/
def packed (c : Crew) (t : ThreadId) : Nat := c.gains.count (.handed t .packed)

/-- There has been an occasion for a block of this purpose. -/
def Knows (c : Crew) : Purpose → Prop
  | .picking n => n < c.blocks.length
  | .isolated i => i < c.flags.length
  | .packing t n => n * flagsPerBlock < c.packed t

/-- The flag of a handle lies in the block of its purpose; if it is packed, at the slot of its
number. -/
inductive Lies (c : Crew) (purposes : List Purpose) (i : Nat) (f : Flag) : Gain → Prop
  | isolated {t : ThreadId} : purposes[f.block]? = some (.isolated i) →
      Lies c purposes i f (.handed t .isolated)
  | packed {t : ThreadId} :
      purposes[f.block]? = some (.packing t (c.number t i / flagsPerBlock)) →
      f.slot.val = c.number t i % flagsPerBlock → Lies c purposes i f (.handed t .packed)
  | picked {n : Nat} : purposes[f.block]? = some (.picking n) → Lies c purposes i f .picked
  | copied {r : Nat} {g : Gain} : c.flags[r]? = some f → c.gains[r]? = some g →
      (∀ q, g ≠ .copied q) → Lies c purposes i f (.copied r)

/-- A thread has the block of its last packed flag, and the slot after it. -/
def Packs (c : Crew) (purposes : List Purpose) (t : ThreadId) : Prop :=
  (c.locals t).torn = [] ∧
    ((c.locals t).block = none ∧ c.packed t = 0 ∨
      ∃ b k, (c.locals t).block = some (b, k % flagsPerBlock + 1) ∧ c.packed t = k + 1 ∧
        purposes[b]? = some (.packing t (k / flagsPerBlock)))

/-- Every block has a purpose of its own, and every flag lies in the block of its purpose. -/
structure Housed (c : Crew) (purposes : List Purpose) : Prop where
  nodup : purposes.Nodup
  length_eq : purposes.length = c.memory.blocks
  gains_length : c.gains.length = c.flags.length
  known : ∀ p ∈ purposes, c.Knows p
  picking : ∀ b ∈ c.blocks, ∃ n, purposes[b]? = some (.picking n)
  packs : ∀ t, c.Packs purposes t
  lies : ∀ {i f g}, c.flags[i]? = some f → c.gains[i]? = some g → c.Lies purposes i f g

variable {purposes new : List Purpose} {i j : Nat} {f : Flag} {g : Gain} {m : Flags}
  {locals : ThreadId → Locals}

/-- The crew with one more handle. -/
def withHandle (c : Crew) (f : Flag) (g : Gain) (m : Flags) (locals : ThreadId → Locals) : Crew :=
  { c with flags := c.flags ++ [f], memory := m, locals := locals, gains := c.gains ++ [g] }

theorem getElem?_append_of_some {α : Type} {xs : List α} {x : α} (ys : List α)
    (h : xs[i]? = some x) : (xs ++ ys)[i]? = some x := by
  rw [List.getElem?_append_left (List.getElem?_eq_some_iff.mp h).1, h]

theorem number_mono {gs : List Gain} (hgains : c'.gains = c.gains ++ gs)
    (h : i ≤ c.gains.length) : c'.number t i = c.number t i := by
  simp [number, hgains, List.take_append_of_le_length h]

/-- A flag stays where it is when there are more handles and more blocks. -/
theorem Lies.mono {fs : List Flag} {gs : List Gain} (h : c.Lies purposes i f g)
    (hflags : c'.flags = c.flags ++ fs) (hgains : c'.gains = c.gains ++ gs)
    (hi : i ≤ c.gains.length) : c'.Lies (purposes ++ new) i f g := by
  cases h with
  | isolated hblock => exact .isolated (getElem?_append_of_some _ hblock)
  | packed hblock hslot =>
    refine .packed ?_ ?_
    · rw [number_mono hgains hi]
      exact getElem?_append_of_some _ hblock
    · rw [number_mono hgains hi, hslot]
  | picked hblock => exact .picked (getElem?_append_of_some _ hblock)
  | copied hflag hgain hroot =>
    exact .copied (hflags ▸ getElem?_append_of_some _ hflag)
      (hgains ▸ getElem?_append_of_some _ hgain) hroot

/-- A thread goes on with its block while it is handed no packed flag. -/
theorem Packs.mono (h : c.Packs purposes t) (hlocals : c'.locals t = c.locals t)
    (hpacked : c'.packed t = c.packed t) : c'.Packs (purposes ++ new) t := by
  refine ⟨(congrArg Locals.torn hlocals).trans h.1, ?_⟩
  rcases h.2 with ⟨hblock, hnone⟩ | ⟨b, k, hblock, hsome, hpurpose⟩
  · exact .inl ⟨(congrArg Locals.block hlocals).trans hblock, hpacked.trans hnone⟩
  · exact .inr ⟨b, k, (congrArg Locals.block hlocals).trans hblock, hpacked.trans hsome,
      getElem?_append_of_some _ hpurpose⟩

theorem packed_withHandle :
    (c.withHandle f g m locals).packed t = c.packed t + if g = .handed t .packed then 1 else 0 := by
  simp [packed, withHandle, List.count_singleton, beq_iff_eq]

theorem packed_mono : c.packed t ≤ (c.withHandle f g m locals).packed t := by
  rw [packed_withHandle]
  exact Nat.le_add_right _ _

/-- What was known stays known. -/
theorem Knows.withHandle {p : Purpose} (h : c.Knows p) : (c.withHandle f g m locals).Knows p := by
  cases p with
  | picking n => exact h
  | isolated i => simpa [Crew.withHandle, Knows] using Nat.lt_succ_of_lt h
  | packing t n => exact Nat.lt_of_lt_of_le h packed_mono

/-- A thread goes on with its block while others are handed flags, or it is handed others. -/
theorem Packs.withHandle (h : c.Packs purposes t) (hlocals : locals t = c.locals t)
    (hg : g ≠ .handed t .packed) : (c.withHandle f g m locals).Packs (purposes ++ new) t :=
  h.mono hlocals (by rw [packed_withHandle, if_neg hg, Nat.add_zero])

/-- One more handle, to a flag that lies where it belongs. -/
theorem Housed.withHandle (h : c.Housed purposes) (hnodup : (purposes ++ new).Nodup)
    (hlength : (purposes ++ new).length = m.blocks)
    (hknown : ∀ p ∈ new, (c.withHandle f g m locals).Knows p)
    (hpacks : ∀ t, (c.withHandle f g m locals).Packs (purposes ++ new) t)
    (hlies : (c.withHandle f g m locals).Lies (purposes ++ new) c.flags.length f g) :
    (c.withHandle f g m locals).Housed (purposes ++ new) where
  nodup := hnodup
  length_eq := hlength
  gains_length := by simp [Crew.withHandle, h.gains_length]
  known p hp := (List.mem_append.mp hp).elim (fun hp => (h.known p hp).withHandle) (hknown p)
  picking b hb := (h.picking b hb).imp fun _ hn => getElem?_append_of_some _ hn
  packs := hpacks
  lies := by
    intro i f' g' hf hg
    rcases Nat.lt_or_ge i c.flags.length with hi | hi
    · have hi' : i < c.gains.length := h.gains_length ▸ hi
      simp only [Crew.withHandle, List.getElem?_append_left hi] at hf
      simp only [Crew.withHandle, List.getElem?_append_left hi'] at hg
      exact (h.lies hf hg).mono rfl rfl (Nat.le_of_lt hi')
    · have hlt : i < (c.flags ++ [f]).length := (List.getElem?_eq_some_iff.mp hf).1
      obtain rfl : i = c.flags.length := by
        rw [List.length_append, List.length_singleton] at hlt
        omega
      simp only [Crew.withHandle, List.getElem?_concat_length, Option.some.injEq] at hf
      have hg' : g = g' := by
        simpa [Crew.withHandle, ← h.gains_length] using hg
      exact hf ▸ hg' ▸ hlies

/-- A purpose that there was no occasion for is new. -/
theorem Housed.nodup_concat {p : Purpose} (h : c.Housed purposes) (hp : ¬c.Knows p) :
    (purposes ++ [p]).Nodup :=
  List.nodup_append.mpr ⟨h.nodup, List.pairwise_singleton _ _, fun a ha _ hb hab =>
    hp (List.mem_singleton.mp hb ▸ hab ▸ h.known a ha)⟩

/-- A new block is the one that its purpose is written down for. -/
theorem Housed.getElem?_new (h : c.Housed purposes) (p : Purpose) :
    (purposes ++ [p])[c.memory.blocks]? = some p := by
  rw [← h.length_eq, List.getElem?_concat_length]

theorem Housed.length_concat (h : c.Housed purposes) (p : Purpose) :
    (purposes ++ [p]).length = c.memory.blocks + 1 := by
  rw [List.length_append, List.length_singleton, h.length_eq]

/-- The handle that a copy goes back to is to the same flag, and is no copy. -/
theorem Housed.root_spec (h : c.Housed purposes) (hf : c.flags[i]? = some f) :
    c.flags[c.root i]? = some f ∧ ∃ g, c.gains[c.root i]? = some g ∧ ∀ q, g ≠ .copied q := by
  have hi : i < c.gains.length := h.gains_length ▸ (List.getElem?_eq_some_iff.mp hf).1
  have hg : c.gains[i]? = some c.gains[i] := List.getElem?_eq_getElem hi
  generalize c.gains[i] = g at hg
  cases g with
  | copied r =>
    cases h.lies hf hg with
    | copied hflag hgain hroot =>
      simp only [root, hg]
      exact ⟨hflag, _, hgain, hroot⟩
  | handed t supply =>
    have hroot : c.root i = i := by simp [root, hg]
    exact hroot.symm ▸ ⟨hf, _, hg, by simp⟩
  | picked =>
    have hroot : c.root i = i := by simp [root, hg]
    exact hroot.symm ▸ ⟨hf, _, hg, by simp⟩

theorem Housed.block (h : c.Housed purposes) :
    Crew.Housed
      { c with blocks := c.blocks ++ [c.memory.blocks], memory := c.memory.newBlock.2 }
      (purposes ++ [.picking c.blocks.length]) where
  nodup := h.nodup_concat (Nat.lt_irrefl _)
  length_eq := h.length_concat _
  gains_length := h.gains_length
  known p hp := by
    rcases List.mem_append.mp hp with hp | hp
    · cases p with
      | picking n => simpa [Knows] using Nat.lt_succ_of_lt (h.known _ hp)
      | isolated i => exact h.known _ hp
      | packing t n => exact h.known _ hp
    · rw [List.mem_singleton.mp hp]
      simp [Knows]
  picking b hb := by
    rcases List.mem_append.mp hb with hb | hb
    · exact (h.picking b hb).imp fun _ hn => getElem?_append_of_some _ hn
    · exact ⟨_, List.mem_singleton.mp hb ▸ h.getElem?_new _⟩
  packs t := (h.packs t).mono rfl rfl
  lies := by
    intro i f g hf hg
    have hi : i < c.gains.length := (List.getElem?_eq_some_iff.mp hg).1
    exact (h.lies hf hg).mono (List.append_nil _).symm (List.append_nil _).symm (Nat.le_of_lt hi)

/-- What is written does not matter. -/
theorem Housed.write (h : c.Housed purposes) {raised : List Flag} {writes : List (Nat × Bool)} :
    ({ c with memory := ⟨c.memory.blocks, raised⟩, writes := writes } : Crew).Housed purposes where
  nodup := h.nodup
  length_eq := h.length_eq
  gains_length := h.gains_length
  known p hp := by cases p <;> exact h.known _ hp
  picking := h.picking
  packs := h.packs
  lies := by
    intro i f g hf hg
    have hi : i < c.gains.length := (List.getElem?_eq_some_iff.mp hg).1
    have hlies : Crew.Lies { c with memory := ⟨c.memory.blocks, raised⟩, writes := writes }
        (purposes ++ []) i f g :=
      (h.lies hf hg).mono (List.append_nil _).symm (List.append_nil _).symm (Nat.le_of_lt hi)
    rwa [List.append_nil] at hlies

/-- A handle that takes no block comes about. -/
theorem Housed.borrow (h : c.Housed purposes) (hg : ∀ t, g ≠ .handed t .packed)
    (hlies : c.Lies purposes c.flags.length f g) :
    (c.withHandle f g c.memory c.locals).Housed purposes := by
  have hhoused : (c.withHandle f g c.memory c.locals).Housed (purposes ++ []) :=
    h.withHandle (by simpa using h.nodup) (by simpa using h.length_eq) (by simp)
      (fun t => (h.packs t).withHandle rfl (hg t))
      (hlies.mono rfl rfl (Nat.le_of_eq h.gains_length.symm))
  rwa [List.append_nil] at hhoused

theorem Housed.isolated (h : c.Housed purposes) {slot : Fin flagsPerBlock} :
    (c.withHandle ⟨c.memory.blocks, slot⟩ (.handed t .isolated)
      { c.memory with blocks := c.memory.blocks + 1 } c.locals).Housed
        (purposes ++ [.isolated c.flags.length]) :=
  h.withHandle (h.nodup_concat (Nat.lt_irrefl _)) (h.length_concat _)
    (fun p hp => by
      rw [List.mem_singleton.mp hp]
      simp [Knows, Crew.withHandle])
    (fun u => (h.packs u).withHandle rfl (by simp))
    (.isolated (h.getElem?_new _))

theorem succ_mod_of_lt {k : Nat} (h : k % flagsPerBlock + 1 < flagsPerBlock) :
    (k + 1) % flagsPerBlock = k % flagsPerBlock + 1 ∧
      (k + 1) / flagsPerBlock = k / flagsPerBlock := by
  simp only [flagsPerBlock, cacheLine] at h ⊢
  omega

theorem succ_mod_of_not_lt {k : Nat} (h : ¬k % flagsPerBlock + 1 < flagsPerBlock) :
    (k + 1) % flagsPerBlock = 0 := by
  simp only [flagsPerBlock, cacheLine] at h ⊢
  omega

/-- One more packed flag, at the slot and in the block of its number. -/
theorem Housed.packed (h : c.Housed purposes) (hf : f.slot.val = c.packed t % flagsPerBlock)
    (hnodup : (purposes ++ new).Nodup) (hlength : (purposes ++ new).length = m.blocks)
    (hknown : ∀ p ∈ new, p = .packing t (c.packed t / flagsPerBlock))
    (hblock : (purposes ++ new)[f.block]? = some (.packing t (c.packed t / flagsPerBlock)))
    (htorn : (locals t).torn = []) (hothers : ∀ u, u ≠ t → locals u = c.locals u)
    (hlocals : (locals t).block = some (f.block, f.slot.val + 1)) :
    (c.withHandle f (.handed t .packed) m locals).Housed (purposes ++ new) := by
  have hcount : (c.withHandle f (.handed t .packed) m locals).packed t = c.packed t + 1 := by
    rw [packed_withHandle, if_pos rfl]
  have hnumber : (c.withHandle f (.handed t .packed) m locals).number t c.flags.length =
      c.packed t := by
    rw [number_mono rfl (Nat.le_of_eq h.gains_length.symm), number, ← h.gains_length,
      List.take_length, Crew.packed]
  refine h.withHandle hnodup hlength (fun p hp => ?_) (fun u => ?_) (.packed ?_ ?_)
  · rw [hknown p hp]
    exact Nat.lt_of_le_of_lt (Nat.div_mul_le_self _ _) (hcount ▸ Nat.lt_succ_self _)
  · by_cases hu : u = t
    · subst hu
      exact ⟨htorn, .inr ⟨f.block, c.packed u, hf ▸ hlocals, hcount, hblock⟩⟩
    · exact (h.packs u).withHandle (hothers u hu) (by simpa using Ne.symm hu)
  · rw [hnumber, hblock]
  · rw [hnumber, hf]

theorem Housed.pack (h : c.Housed purposes) {handed : Supply.Handed}
    (hhanded : Supply.packed.allocate c.memory (c.locals t) = .ok handed) :
    ∃ new, (c.withHandle handed.flag (.handed t .packed) handed.flags
      (Function.update c.locals t handed.locals)).Housed (purposes ++ new) := by
  obtain ⟨htorn, hblock⟩ := h.packs t
  have htouch : ∀ i, ((c.locals t).touch i).block = (c.locals t).block ∧
      ((c.locals t).touch i).torn = [] := by
    intro i
    unfold Locals.touch
    split <;> exact ⟨rfl, htorn⟩
  have hcan : (c.locals t).canUse .block = true := by simp [Locals.canUse, htorn]
  simp only [Supply.allocate, hcan, if_true, Except.ok.injEq] at hhanded
  subst hhanded
  have hothers : ∀ {l : Locals} u, u ≠ t → Function.update c.locals t l u = c.locals u :=
    fun u hu => Function.update_of_ne hu _ _
  -- The first flag of a new block: there is no other block for flags with these numbers.
  have hnew : ∀ {l : Locals}, c.packed t % flagsPerBlock = 0 → l.torn = [] →
      l.block = some (c.memory.blocks, 1) →
      (c.withHandle c.memory.isolated.1 (.handed t .packed) c.memory.isolated.2
        (Function.update c.locals t l)).Housed
          (purposes ++ [.packing t (c.packed t / flagsPerBlock)]) := by
    intro l hzero hl hlblock
    refine h.packed hzero.symm (h.nodup_concat ?_) (h.length_concat _) (by simp)
      (h.getElem?_new _) (by simpa using hl) hothers
      (by simpa [Flags.isolated] using hlblock)
    simp [Knows, Nat.div_mul_cancel (Nat.dvd_of_mod_eq_zero hzero)]
  rcases hblock with ⟨hnone, hpacked⟩ | ⟨b, k, hsome, hpacked, hpurpose⟩
  · refine ⟨[.packing t (c.packed t / flagsPerBlock)], ?_⟩
    simp only [Supply.pack, (htouch .block).1, hnone]
    exact hnew (by simp [hpacked]) (htouch .block).2 rfl
  · simp only [Supply.pack, (htouch .block).1, hsome]
    split
    · next hlt =>
      obtain ⟨hmod, hdiv⟩ := succ_mod_of_lt hlt
      refine ⟨[], h.packed ?_ ?_ ?_ ?_ ?_ ?_ hothers ?_⟩
      · rw [hpacked, hmod]
      · simpa using h.nodup
      · simpa using h.length_eq
      · simp
      · rw [List.append_nil, hpacked, hdiv, hpurpose]
      · simpa using (htouch .block).2
      · simp
    · next hfull => exact ⟨_, hnew (hpacked ▸ succ_mod_of_not_lt hfull) (htouch .block).2 rfl⟩

/-- A step keeps every flag in the block of its purpose. -/
theorem Housed.step (h : c.Housed purposes) (hs : Step c t c') :
    ∃ purposes, c'.Housed purposes := by
  cases hs with
  | block => exact ⟨_, h.block⟩
  | pick hf =>
    obtain ⟨n, hn⟩ := h.picking _ hf
    exact ⟨_, h.borrow (by simp) (.picked hn)⟩
  | hand hsupply hhanded =>
    rcases hsupply with rfl | rfl
    · cases hhanded
      refine ⟨purposes ++ [.isolated c.flags.length], ?_⟩
      simpa [Crew.withHandle, Supply.ofOwnBlock, Flags.isolated] using h.isolated
    · exact (h.pack hhanded).imp' _ fun _ hnew => hnew
  | copy hf =>
    obtain ⟨hroot, g, hg, hcopied⟩ := h.root_spec hf
    exact ⟨_, h.borrow (by simp) (.copied hroot hg hcopied)⟩
  | write up hf => exact ⟨purposes, h.write⟩

theorem housed_empty : ({} : Crew).Housed [] where
  nodup := List.nodup_nil
  length_eq := rfl
  gains_length := rfl
  known := by simp
  picking := by simp
  packs _ := ⟨rfl, .inl ⟨rfl, rfl⟩⟩
  lies := by simp

/-! ## Which handles are to the same flag -/

theorem root_of_handed {supply : Supply} (hg : c.gains[i]? = some (.handed t supply)) :
    c.root i = i := by
  simp [root, hg]

theorem root_of_copied {r : Nat} (hg : c.gains[i]? = some (.copied r)) : c.root i = r := by
  simp [root, hg]

theorem root_withHandle (hi : i < c.gains.length) :
    (c.withHandle f g m locals).root i = c.root i := by
  simp [root, withHandle, List.getElem?_append_left hi]

/-- No two packed flags of a thread have the same number. -/
theorem number_inj (hi : c.gains[i]? = some (.handed t .packed))
    (hj : c.gains[j]? = some (.handed t .packed)) (h : c.number t i = c.number t j) : i = j := by
  -- The later of two packed flags counts the earlier one.
  have hlt : ∀ {i j : Nat}, c.gains[i]? = some (.handed t .packed) → i < j →
      c.number t i < c.number t j := by
    intro i j hi hij
    have hsub : (c.gains.take (i + 1)).Sublist (c.gains.take j) :=
      List.take_sublist_take_left hij
    have hsucc : (c.gains.take (i + 1)).count (.handed t .packed) = c.number t i + 1 := by
      simp [List.take_add_one, hi, number]
    have hle := hsub.count_le (.handed t .packed)
    simp only [number] at hsucc ⊢
    omega
  rcases Nat.lt_trichotomy i j with hij | hij | hij
  · exact absurd (hlt hi hij) (by omega)
  · exact hij
  · exact absurd (hlt hj hij) (by omega)

/-- Two blocks are the same iff their purposes are. -/
theorem Housed.block_eq_iff {b b' : Nat} {p p' : Purpose} (h : c.Housed purposes)
    (hp : purposes[b]? = some p) (hp' : purposes[b']? = some p') : b = b' ↔ p = p' := by
  refine ⟨fun heq => Option.some.inj (hp.symm.trans (heq ▸ hp')), fun heq => ?_⟩
  have hb := (List.getElem?_eq_some_iff.mp hp).1
  exact (List.getElem?_inj hb h.nodup).mp (hp.trans (heq ▸ hp'.symm))

/-- A flag that was handed out is that of no other handle, unless it is a copy. -/
theorem Housed.eq_of_handed {supply : Supply} (h : c.Housed purposes)
    (hi : c.flags[i]? = some f) (hgi : c.gains[i]? = some (.handed t supply))
    (hj : c.flags[j]? = some f) (hgj : c.gains[j]? = some g) (hg : ∀ q, g ≠ .copied q) : i = j := by
  have hlies := h.lies hj hgj
  cases h.lies hi hgi with
  | isolated hblock =>
    cases hlies with
    | isolated hblock' => simpa using (h.block_eq_iff hblock hblock').mp rfl
    | packed hblock' _ => exact absurd ((h.block_eq_iff hblock hblock').mp rfl) (by simp)
    | picked hblock' => exact absurd ((h.block_eq_iff hblock hblock').mp rfl) (by simp)
    | copied => exact absurd rfl (hg _)
  | packed hblock hslot =>
    cases hlies with
    | isolated hblock' => exact absurd ((h.block_eq_iff hblock hblock').mp rfl) (by simp)
    | packed hblock' hslot' =>
      have hpurpose := (h.block_eq_iff hblock hblock').mp rfl
      simp only [Purpose.packing.injEq] at hpurpose
      obtain ⟨rfl, hdiv⟩ := hpurpose
      refine number_inj hgi hgj ?_
      rw [← Nat.div_add_mod (c.number t i) flagsPerBlock, hdiv, ← hslot, hslot', Nat.div_add_mod]
    | picked hblock' => exact absurd ((h.block_eq_iff hblock hblock').mp rfl) (by simp)
    | copied => exact absurd rfl (hg _)

/-- Two handles, one of them to a flag that was handed out, are to the same flag iff the copying
began with the same handle. -/
theorem Housed.same_iff {f' : Flag} (h : c.Housed purposes) (hi : c.flags[i]? = some f)
    (hj : c.flags[j]? = some f') (hhanded : c.IsHanded i) : f = f' ↔ c.root i = c.root j := by
  obtain ⟨hri, -⟩ := h.root_spec hi
  obtain ⟨hrj, g, hg, hcopied⟩ := h.root_spec hj
  constructor
  · rintro rfl
    obtain ⟨t, supply, hgi⟩ := hhanded
    exact h.eq_of_handed hri hgi hrj hg hcopied
  · intro heq
    exact Option.some.inj (hri.symm.trans (heq ▸ hrj))

/-! ## Which flags share a block -/

/-- The handle is to this flag, and came about in this way. -/
def Has (c : Crew) (i : Nat) (f : Flag) (g : Gain) : Prop :=
  c.flags[i]? = some f ∧ c.gains[i]? = some g

/-- The purpose of the block that a flag was handed out from. -/
theorem Housed.purpose {supply : Supply} (h : c.Housed purposes)
    (hhas : c.Has i f (.handed t supply)) :
    supply = .isolated ∧ purposes[f.block]? = some (.isolated i) ∨
      supply = .packed ∧ purposes[f.block]? = some (.packing t (c.number t i / flagsPerBlock)) ∧
        f.slot.val = c.number t i % flagsPerBlock := by
  cases h.lies hhas.1 hhas.2 with
  | isolated hblock => exact .inl ⟨rfl, hblock⟩
  | packed hblock hslot => exact .inr ⟨rfl, hblock, hslot⟩

theorem Housed.purpose_packed (h : c.Housed purposes) (hhas : c.Has i f (.handed t .packed)) :
    purposes[f.block]? = some (.packing t (c.number t i / flagsPerBlock)) ∧
      f.slot.val = c.number t i % flagsPerBlock := by
  rcases h.purpose hhas with ⟨hsupply, -⟩ | ⟨-, hpacked⟩
  · cases hsupply
  · exact hpacked

/-- Two flags that were handed out to different threads, or one of them with a block of its own,
lie in different blocks. -/
theorem Housed.block_ne {u : ThreadId} {supply supply' : Supply} {f' : Flag}
    (h : c.Housed purposes) (hi : c.Has i f (.handed t supply))
    (hj : c.Has j f' (.handed u supply')) (hapart : t ≠ u ∨ supply = .isolated ∧ i ≠ j) :
    f.block ≠ f'.block := by
  intro heq
  rcases h.purpose hi with ⟨rfl, hp⟩ | ⟨rfl, hp, -⟩
  · rcases h.purpose hj with ⟨-, hp'⟩ | ⟨-, hp', -⟩
    · obtain rfl : i = j := by simpa using (h.block_eq_iff hp hp').mp heq
      have hgain : Gain.handed t .isolated = Gain.handed u supply' :=
        Option.some.inj (hi.2.symm.trans hj.2)
      simp only [Gain.handed.injEq] at hgain
      exact hapart.elim (· hgain.1) (fun hne => hne.2 rfl)
    · exact absurd ((h.block_eq_iff hp hp').mp heq) (by simp)
  · rcases h.purpose hj with ⟨-, hp'⟩ | ⟨-, hp', -⟩
    · exact absurd ((h.block_eq_iff hp hp').mp heq) (by simp)
    · have hpurpose := (h.block_eq_iff hp hp').mp heq
      simp only [Purpose.packing.injEq] at hpurpose
      exact hapart.elim (· hpurpose.1) (fun hne => by cases hne.1)

end Crew

end ReaderWriter.Script
