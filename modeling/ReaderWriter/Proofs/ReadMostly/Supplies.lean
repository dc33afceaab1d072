import ReaderWriter.Proofs.Tallies

/-!
# Supplies hand out fresh flags

The suppliers of this library never hand a flag out twice. A flag comes from a new block, or from
the stock of its thread: the blocks that the thread has begun to use, each with its first free slot.

* `Supply.allocate_draws`: what handing out a flag does to the stock.
* `World.StocksApart`: no two threads have the same block in stock, nor one that is new.
* `World.Supplied`: no flag that is owned, or up, is in anybody's stock either.
* `World.Supplies`: what has been handed out stays so, and is not taken anew.
* `Reachable.handsOutFresh`, `Run.Plays.handsOutFresh`: in a run in which every lock has such a
  supplier, only fresh flags are handed out.
* `Run.Plays.keptFor`: a flag that was handed out for one lock is never on another.
-/

namespace ReaderWriter

namespace ReadMostly

/-! ## The stock of a thread -/

/-- The supplier is one of this library's own. -/
def Supply.isOwn : Supply → Bool
  | .isolated | .packed | .paired => true
  | .listed _ => false

/-- The blocks that a thread has begun to use, each with its first free slot. -/
def Locals.stock (l : Locals) : List (Nat × Nat) :=
  l.block.toList ++ (l.pair.map fun block => (block, 1)).toList

/-- The blocks in stock are different ones, and have been handed out. -/
structure Locals.Stocked (l : Locals) (blocks : Nat) : Prop where
  nodup : (l.stock.map Prod.fst).Nodup
  below : ∀ x ∈ l.stock, x.1 < blocks

@[simp]
theorem Locals.stock_touch (l : Locals) (i : Item) : (l.touch i).stock = l.stock := by
  unfold touch
  split <;> rfl

/-- What handing out a flag does to the stock of its thread: the flag comes from a new block or from
the stock, and is not in stock afterwards. -/
structure Supply.Handed.Draws (handed : Supply.Handed) (m : Flags) (l : Locals) : Prop where
  grows : m.blocks ≤ handed.flags.blocks
  below : handed.flag.block < handed.flags.blocks
  origin : handed.flag.block = m.blocks ∨ (handed.flag.block, handed.flag.slot.val) ∈ l.stock
  stock : ∀ x ∈ handed.locals.stock, x ∈ l.stock ∧ x.1 ≠ handed.flag.block ∨
    x.1 = handed.flag.block ∧ handed.flag.slot.val < x.2
  stocked : handed.locals.Stocked handed.flags.blocks

namespace Supply

variable {m : Flags} {l : Locals}

theorem ofOwnBlock_draws (h : l.Stocked m.blocks) : (ofOwnBlock m l).Draws m l where
  grows := Nat.le_succ _
  below := Nat.lt_succ_self _
  origin := .inl rfl
  stock x hx := .inl ⟨hx, Nat.ne_of_lt (h.below x hx)⟩
  stocked := ⟨h.nodup, fun x hx => Nat.lt_succ_of_lt (h.below x hx)⟩

/-- A flag from a new block, whose other slots go into stock in place of a block, if any. -/
theorem draws_of_new {l' : Locals} {k : Nat} (hk : 0 < k) (h : l.Stocked m.blocks)
    (hstock : ∀ x ∈ l'.stock, x ∈ l.stock ∨ x = (m.blocks, k))
    (hnodup : (l'.stock.map Prod.fst).Nodup) :
    ({ ofOwnBlock m l with locals := l' } : Handed).Draws m l where
  grows := Nat.le_succ _
  below := Nat.lt_succ_self _
  origin := .inl rfl
  stock x hx := by
    rcases hstock x hx with hold | rfl
    · exact .inl ⟨hold, Nat.ne_of_lt (h.below x hold)⟩
    · exact .inr ⟨rfl, hk⟩
  stocked := by
    refine ⟨hnodup, fun x hx => ?_⟩
    rcases hstock x hx with hold | rfl
    · exact Nat.lt_succ_of_lt (h.below x hold)
    · exact Nat.lt_succ_self _

theorem pack_draws (h : l.Stocked m.blocks) : (pack m l).Draws m l := by
  -- A new block is none of those in stock.
  have hnew : ∀ {l' : Locals}, l'.pair = l.pair → l'.block = some (m.blocks, 1) →
      ({ ofOwnBlock m l with locals := l' } : Handed).Draws m l := by
    intro l' hpair hblock
    refine draws_of_new Nat.one_pos h (fun x hx => ?_) ?_
    · simp only [Locals.stock, hpair, hblock, Option.toList_some, List.cons_append,
        List.nil_append, List.mem_cons] at hx
      exact hx.symm.imp_left fun hx => List.mem_append_right _ hx
    · cases hp : l.pair with
      | none => simp [Locals.stock, hpair, hblock, hp]
      | some block =>
        have hlt := h.below (block, 1) (by simp [Locals.stock, hp])
        simpa [Locals.stock, hpair, hblock, hp] using Nat.ne_of_gt hlt
  unfold pack
  split
  · next block next hblock =>
    have hmem : (block, next) ∈ l.stock := by simp [Locals.stock, hblock]
    split
    · next hlt =>
      have hkeys := h.nodup
      simp only [Locals.stock, hblock, Option.toList_some, List.cons_append, List.nil_append,
        List.map_cons, List.nodup_cons] at hkeys
      refine ⟨Nat.le_refl _, h.below _ hmem, .inr hmem, fun x hx => ?_, ⟨?_, fun x hx => ?_⟩⟩
      · simp only [Locals.stock, Option.toList_some, List.cons_append, List.nil_append,
          List.mem_cons] at hx
        rcases hx with rfl | hx
        · exact .inr ⟨rfl, Nat.lt_succ_self _⟩
        · refine .inl ⟨List.mem_append_right _ hx, fun heq => hkeys.1 ?_⟩
          rw [← show x.1 = block from heq]
          exact List.mem_map_of_mem hx
      · simpa [Locals.stock] using hkeys
      · simp only [Locals.stock, Option.toList_some, List.cons_append, List.nil_append,
          List.mem_cons] at hx
        rcases hx with rfl | hx
        · exact (h.below _ hmem : block < m.blocks)
        · exact h.below _ (List.mem_append_right _ hx)
    · exact hnew rfl rfl
  · exact hnew rfl rfl

theorem pair_draws (h : l.Stocked m.blocks) : (pair m l).Draws m l := by
  unfold pair
  split
  · next block hpair =>
    have hmem : (block, 1) ∈ l.stock := by simp [Locals.stock, hpair]
    have hsub : ∀ x ∈ l.block.toList, x ∈ l.stock := fun x hx => List.mem_append_left _ hx
    have hkeys := h.nodup
    simp only [Locals.stock, hpair, Option.map_some, Option.toList_some, List.map_append,
      List.nodup_append] at hkeys
    refine ⟨Nat.le_refl _, h.below _ hmem, .inr hmem, fun x hx => ?_, ⟨?_, fun x hx => ?_⟩⟩
    · simp only [Locals.stock, Option.map_none, Option.toList_none, List.append_nil] at hx
      exact .inl ⟨hsub x hx, hkeys.2.2 _ (List.mem_map_of_mem hx) _ (by simp)⟩
    · simpa [Locals.stock] using hkeys.1
    · simp only [Locals.stock, Option.map_none, Option.toList_none, List.append_nil] at hx
      exact h.below x (hsub x hx)
  · next hpair =>
    refine draws_of_new Nat.one_pos h (fun x hx => ?_) ?_
    · simpa [Locals.stock, hpair] using hx
    · cases hb : l.block with
      | none => simp [Locals.stock]
      | some x =>
        have hlt := h.below x (by simp [Locals.stock, hb])
        simpa [Locals.stock, hb] using Nat.ne_of_lt hlt

/-- A supplier of this library draws every flag anew. -/
theorem allocate_draws {supply : Supply} {handed : Handed} (hown : supply.isOwn = true)
    (h : supply.allocate m l = .ok handed) (hl : l.Stocked m.blocks) : handed.Draws m l := by
  have htouch : ∀ i, (l.touch i).Stocked m.blocks :=
    fun i => ⟨by simpa using hl.nodup, by simpa using hl.below⟩
  have hback : ∀ {i}, handed.Draws m (l.touch i) → handed.Draws m l := by
    rintro i ⟨grows, below, origin, stock, stocked⟩
    rw [Locals.stock_touch] at origin stock
    exact ⟨grows, below, origin, stock, stocked⟩
  cases supply with
  | isolated =>
    cases h
    exact ofOwnBlock_draws hl
  | packed =>
    simp only [allocate, Except.ok.injEq] at h
    subst h
    split
    · next hcan =>
      rw [if_pos hcan] at hback
      exact hback (pack_draws (htouch .block))
    · exact ofOwnBlock_draws hl
  | paired =>
    simp only [allocate] at h
    split at h
    · cases h
      exact hback (pair_draws (htouch .pair))
    · cases h
  | listed flags => cases hown

end Supply

/-! ## Transitions -/

/-- What a transition does to the stock of its thread: nothing, or it draws a flag. -/
inductive Transition.Supplied (s s' : Site) (job : Job) (stand : Stand Pc) : Prop
  | keeps : s'.flags.blocks = s.flags.blocks → s'.locals.stock = s.locals.stock →
      (∀ p, Asks job p → stand.place?.any Pc.registers = false) →
      Transition.Supplied s s' job stand
  | draws {p : Patience} (handed : Supply.Handed) : Asks job p → handed.Draws s.flags s.locals →
      s'.flags.blocks = handed.flags.blocks → s'.locals.stock = handed.locals.stock →
      (∀ p f a, stand = .here (.registering p f a) → f = handed.flag) →
      Transition.Supplied s s' job stand

variable {sc : Scene} {s s' : Site} {job : Job} {stand : Stand Pc} {gain : Option Mode}

theorem Look.supply_eq {f : Flag} {b : Backoff} {s₀ : Site} (h : Look f b s₀ s' stand gain) :
    s'.lock.supply = s₀.lock.supply := by
  cases h <;> rfl

theorem Transition.supply_eq (h : Transition sc s job s' stand gain) :
    s'.lock.supply = s.lock.supply := by
  cases h with
  | look b _ _ hl => exact hl.supply_eq.trans rfl
  | lookAgain hl => exact hl.supply_eq.trans rfl
  | _ => rfl

theorem Look.blocks_eq {f : Flag} {b : Backoff} {s₀ : Site} (h : Look f b s₀ s' stand gain) :
    s'.flags.blocks = s₀.flags.blocks ∧ s'.locals = s₀.locals := by
  cases h <;> exact ⟨rfl, rfl⟩

theorem Transition.supplied (h : Transition sc s job s' stand gain)
    (hown : s.lock.supply.isOwn = true) (hl : s.locals.Stocked s.flags.blocks) :
    Transition.Supplied s s' job stand := by
  have hdraw : ∀ {handed : Supply.Handed},
      s.lock.supply.allocate s.flags (s.locals.touch .nodes) = .ok handed →
      handed.Draws s.flags s.locals := by
    intro handed halloc
    obtain ⟨grows, below, origin, stock, stocked⟩ :=
      Supply.allocate_draws hown halloc ⟨by simpa using hl.nodup, by simpa using hl.below⟩
    rw [Locals.stock_touch] at origin stock
    exact ⟨grows, below, origin, stock, stocked⟩
  have hfrom : ∀ {pc : Pc}, s'.flags.blocks = s.flags.blocks → s'.locals.stock = s.locals.stock →
      job = .from pc → Transition.Supplied s s' job stand := by
    rintro pc hblocks hstock rfl
    exact .keeps hblocks hstock (fun _ h => by cases h)
  cases h with
  | arrive _ _ hland =>
    exact .keeps rfl (by simp [Site.keeping, Site.put]) fun _ _ => hland.inHand.2
  | register hasks _ halloc =>
    exact .draws _ hasks (hdraw halloc) rfl rfl (by rintro _ _ _ ⟨⟩; rfl)
  | registerLater hasks _ halloc =>
    exact .draws _ hasks (hdraw halloc) rfl rfl (by rintro _ _ _ ⟨⟩; rfl)
  | registerNever hasks _ halloc => exact .draws _ hasks (hdraw halloc) rfl rfl nofun
  | noFlag => exact .keeps rfl (by simp [Site.keeping]) fun _ _ => rfl
  | noNodes _ _ hplace => exact .keeps rfl rfl fun _ _ => by rw [hplace]; rfl
  | look b _ _ hl => exact hfrom hl.blocks_eq.1 (by rw [hl.blocks_eq.2]; rfl) rfl
  | lookAgain hl => exact hfrom hl.blocks_eq.1 (by rw [hl.blocks_eq.2]; rfl) rfl
  | leaveTo | leaveFree => exact hfrom rfl (by simp [Site.keeping, Site.put]) rfl
  | leaveFault _ _ _ hlocals =>
    refine hfrom rfl ?_ rfl
    rcases hlocals with rfl | rfl <;> simp [Site.keeping]
  | queue h | claim _ h => exact .keeps rfl rfl fun _ _ => rfl
  | giveUp | claimHastily | release | releaseFault | leave => exact .keeps rfl rfl fun _ _ => rfl
  | lowerAndWrite | lowerAndWait | departAndWrite | departAndWait =>
    exact .keeps rfl rfl fun _ h => by cases h
  | _ => exact hfrom rfl rfl rfl

/-! ## Registries that go -/

namespace Registry

theorem blocks_lowerAll (registry : Registry) (m : Flags) :
    (registry.lowerAll m).blocks = m.blocks := by
  unfold lowerAll
  generalize registry.entries = entries
  induction entries generalizing m with
  | nil => rfl
  | cons f entries ih => exact (ih _).trans rfl

/-- A flag that is up after a registry has gone was not on its list. -/
theorem of_isRaised_lowerAll {registry : Registry} {m : Flags} {f : Flag}
    (h : (registry.lowerAll m).isRaised f = true) :
    m.isRaised f = true ∧ f ∉ registry.entries := by
  simpa [isRaised_lowerAll] using h

end Registry

end ReadMostly

/-! ## Worlds -/

open ReadMostly (Flag Site Scene Pc Transition Supply Carries)

/-- The lock has a supplier of this library if it needs any. -/
def Body.hasOwnSupply : Body → Bool
  | .readMostly s => s.supply.isOwn
  | .blocking _ | .polling _ => true

namespace World

/-- A flag is up or somebody's. -/
def Uses (w : World) (f : Flag) : Prop :=
  w.flags.isRaised f = true ∨ ∃ t m, (m, f) ∈ (w.thread t).flags

/-- A flag has been handed out, and cannot be handed out again. -/
def Issued (w : World) (f : Flag) : Prop :=
  f.block < w.flags.blocks ∧
    ∀ t, ∀ x ∈ (w.thread t).locals.stock, x.1 = f.block → f.slot.val < x.2

/-- No block is in stock twice, be it with one thread or with two. -/
structure StocksApart (w : World) : Prop where
  stocked : ∀ t, (w.thread t).locals.Stocked w.flags.blocks
  apart : ∀ {t u x y}, x ∈ (w.thread t).locals.stock → y ∈ (w.thread u).locals.stock →
    x.1 = y.1 → t = u

/-- No flag in use is in anybody's stock, and no block is in stock twice. -/
structure Supplied (w : World) : Prop extends w.StocksApart where
  issued : ∀ f, w.Uses f → w.Issued f

/-- Between the worlds flags have been handed out, if at all, from the stock. -/
structure Supplies (w w' : World) : Prop where
  supplied : w'.Supplied
  issued : ∀ {f}, w.Issued f → w'.Issued f
  taken : ∀ {u n f}, (n, f) ∈ (w'.thread u).flags → (n, f) ∈ (w.thread u).flags ∨ ¬ w.Issued f

variable {w w' : World} {t : ThreadId} {f : Flag}

/-- What has been handed out stays so while the stocks stay. -/
theorem Issued.of_stock (h : w.Issued f) (hblocks : w'.flags.blocks = w.flags.blocks)
    (hstock : ∀ u, (w'.thread u).locals.stock = (w.thread u).locals.stock) : w'.Issued f := by
  unfold Issued
  rw [hblocks]
  exact ⟨h.1, fun u => hstock u ▸ h.2 u⟩

theorem StocksApart.of_stock (h : w.StocksApart) (hblocks : w'.flags.blocks = w.flags.blocks)
    (hstock : ∀ u, (w'.thread u).locals.stock = (w.thread u).locals.stock) : w'.StocksApart where
  stocked u := by
    rw [hblocks]
    exact ⟨hstock u ▸ (h.stocked u).nodup, hstock u ▸ (h.stocked u).below⟩
  apart {u v _ _} := by
    rw [hstock u, hstock v]
    exact h.apart

theorem Supplied.of_stock (h : w.Supplied) (hblocks : w'.flags.blocks = w.flags.blocks)
    (hstock : ∀ u, (w'.thread u).locals.stock = (w.thread u).locals.stock)
    (huses : ∀ f, w'.Uses f → w.Uses f) : w'.Supplied where
  toStocksApart := h.toStocksApart.of_stock hblocks hstock
  issued f hf := (h.issued f (huses f hf)).of_stock hblocks hstock

theorem Supplies.of_stock (h : w.Supplied) (hblocks : w'.flags.blocks = w.flags.blocks)
    (hstock : ∀ u, (w'.thread u).locals.stock = (w.thread u).locals.stock)
    (huses : ∀ f, w'.Uses f → w.Uses f)
    (hflags : ∀ u n f, (n, f) ∈ (w'.thread u).flags → (n, f) ∈ (w.thread u).flags) :
    w.Supplies w' where
  supplied := h.of_stock hblocks hstock huses
  issued hf := hf.of_stock hblocks hstock
  taken hf := .inl (hflags _ _ _ hf)

section Draws

variable {handed : Supply.Handed}

/-- What has been handed out stays so when a thread draws another flag. -/
theorem Issued.of_draws (h : w.Issued f)
    (hdraws : handed.Draws w.flags (w.thread t).locals)
    (hblocks : w'.flags.blocks = handed.flags.blocks)
    (hself : (w'.thread t).locals.stock = handed.locals.stock)
    (hothers : ∀ u, u ≠ t → (w'.thread u).locals.stock = (w.thread u).locals.stock) :
    w'.Issued f := by
  refine ⟨hblocks ▸ Nat.lt_of_lt_of_le h.1 hdraws.grows, fun u x hx heq => ?_⟩
  by_cases hu : u = t
  · subst hu
    rw [hself] at hx
    rcases hdraws.stock x hx with ⟨hold, -⟩ | ⟨hblock, hslot⟩
    · exact h.2 u x hold heq
    · rcases hdraws.origin with hnew | hfrom
      · have hlt := h.1
        omega
      · exact Nat.lt_trans (h.2 u _ hfrom (hblock.symm.trans heq)) hslot
  · rw [hothers u hu] at hx
    exact h.2 u x hx heq

/-- The flag that is drawn has not been handed out before. -/
theorem not_issued_of_draws (hdraws : handed.Draws w.flags (w.thread t).locals) :
    ¬ w.Issued handed.flag := by
  rintro ⟨hbelow, hstock⟩
  rcases hdraws.origin with hnew | hfrom
  · omega
  · exact Nat.lt_irrefl _ (hstock t _ hfrom rfl)

/-- It has been afterwards. -/
theorem StocksApart.issued_of_draws (h : w.StocksApart)
    (hdraws : handed.Draws w.flags (w.thread t).locals)
    (hblocks : w'.flags.blocks = handed.flags.blocks)
    (hself : (w'.thread t).locals.stock = handed.locals.stock)
    (hothers : ∀ u, u ≠ t → (w'.thread u).locals.stock = (w.thread u).locals.stock) :
    w'.Issued handed.flag := by
  refine ⟨hblocks ▸ hdraws.below, fun u x hx heq => ?_⟩
  by_cases hu : u = t
  · subst hu
    rw [hself] at hx
    rcases hdraws.stock x hx with ⟨-, hne⟩ | ⟨-, hslot⟩
    · exact absurd heq hne
    · exact hslot
  · rw [hothers u hu] at hx
    rcases hdraws.origin with hnew | hfrom
    · have hlt := (h.stocked u).below x hx
      omega
    · exact absurd (h.apart hx hfrom heq) hu

theorem StocksApart.of_draws (h : w.StocksApart)
    (hdraws : handed.Draws w.flags (w.thread t).locals)
    (hblocks : w'.flags.blocks = handed.flags.blocks)
    (hself : (w'.thread t).locals.stock = handed.locals.stock)
    (hothers : ∀ u, u ≠ t → (w'.thread u).locals.stock = (w.thread u).locals.stock) :
    w'.StocksApart := by
  -- A block in the stock of the thread is none of those in the stock of another.
  have hapart : ∀ {u x y}, x ∈ handed.locals.stock → u ≠ t → y ∈ (w.thread u).locals.stock →
      x.1 ≠ y.1 := by
    intro u x y hx hu hy heq
    rcases hdraws.stock x hx with ⟨hold, -⟩ | ⟨hblock, -⟩
    · exact hu (h.apart hy hold heq.symm)
    · rcases hdraws.origin with hnew | hfrom
      · have hlt := (h.stocked u).below y hy
        omega
      · exact hu (h.apart hy hfrom (heq.symm.trans hblock))
  refine ⟨fun u => ?_, fun {u v x y} hx hy heq => ?_⟩
  · rw [hblocks]
    by_cases hu : u = t
    · subst hu
      exact ⟨hself ▸ hdraws.stocked.nodup, hself ▸ hdraws.stocked.below⟩
    · refine ⟨hothers u hu ▸ (h.stocked u).nodup, fun x hx => ?_⟩
      rw [hothers u hu] at hx
      exact Nat.lt_of_lt_of_le ((h.stocked u).below x hx) hdraws.grows
  · by_cases hu : u = t <;> by_cases hv : v = t
    · rw [hu, hv]
    · rw [hu, hself] at hx
      rw [hothers v hv] at hy
      exact absurd heq (hapart hx hv hy)
    · rw [hv, hself] at hy
      rw [hothers u hu] at hx
      exact absurd heq.symm (hapart hy hu hx)
    · rw [hothers u hu] at hx
      rw [hothers v hv] at hy
      exact h.apart hx hy heq

theorem Supplied.of_draws (h : w.Supplied)
    (hdraws : handed.Draws w.flags (w.thread t).locals)
    (hblocks : w'.flags.blocks = handed.flags.blocks)
    (hself : (w'.thread t).locals.stock = handed.locals.stock)
    (hothers : ∀ u, u ≠ t → (w'.thread u).locals.stock = (w.thread u).locals.stock)
    (huses : ∀ f, w'.Uses f → w.Uses f ∨ f = handed.flag) : w'.Supplied where
  toStocksApart := h.toStocksApart.of_draws hdraws hblocks hself hothers
  issued f hf := by
    rcases huses f hf with hf | rfl
    · exact (h.issued f hf).of_draws hdraws hblocks hself hothers
    · exact h.issued_of_draws hdraws hblocks hself hothers

end Draws

/-- What has not been handed out is fresh. -/
theorem Supplied.isFresh (h : w.Supplied) (hf : ¬ w.Issued f) : w.IsFresh f := by
  refine ⟨Bool.eq_false_iff.mpr fun hraised => hf (h.issued f (.inl hraised)), ?_⟩
  intro th hth hmem
  obtain ⟨⟨m, g⟩, hg, rfl⟩ := List.mem_map.mp hmem
  obtain ⟨u, hu⟩ := Table.exists_get_of_mem hth
  exact hf (h.issued g (.inr ⟨u, m, by rwa [thread, hu]⟩))

/-- Every read-mostly lock has a supplier of this library. -/
def OwnSupplies (w : World) : Prop := ∀ m s, w.ReadMostlyAt m s → s.supply.isOwn = true

theorem ownSupplies_iff (w : World) :
    w.OwnSupplies ↔ w.locks.all (·.body.hasOwnSupply) = true := by
  rw [List.all_eq_true]
  constructor
  · intro h l hl
    obtain ⟨m, hm⟩ := List.getElem?_of_mem hl
    cases hs : l.body with
    | readMostly s => exact h m s ⟨l, hm, hs⟩
    | blocking | polling => rfl
  · rintro h m s ⟨l, hl, hs⟩
    have hsupply := h l (List.mem_of_getElem? hl)
    rwa [hs] at hsupply

instance (w : World) : Decidable w.OwnSupplies := decidable_of_iff _ w.ownSupplies_iff.symm

end World

/-! ## Runs -/

variable {r r' : Run} {e : Event} {t : ThreadId} {m : Nat} {l : Lock} {job : Job}
  {s : ReadMostly.State} {site : Site} {stand : Stand Pc} {gain : Option Mode} {f : Flag}

namespace Acts

theorem site_supplied (h : Acts r r' t m s job site stand gain) (hown : r.world.OwnSupplies)
    (hs : r.world.Supplied) :
    ReadMostly.Transition.Supplied ⟨s, r.world.flags, (r.world.thread t).locals⟩ site job stand :=
  h.table.supplied (hown m s h.before) (hs.stocked t)

/-- A turn takes no flag that its thread did not have, save one that it is handed. -/
theorem mem_flags (h : Acts r r' t m s job site stand gain) (hpart : Partings r r' t m job)
    {u : ThreadId} {n : Nat} {g : Flag} (hg : (n, g) ∈ (r'.world.thread u).flags) :
    (n, g) ∈ (r.world.thread u).flags ∨
      ∃ p p' a, ReadMostly.Asks job p ∧ stand = .here (.registering p' g a) := by
  by_cases hu : u = t
  · subst hu
    cases h.restocks hpart with
    | keeps hsub => exact .inl (hsub.subset hg)
    | gains hasks hstand heq =>
      rw [heq, List.mem_append, List.mem_singleton] at hg
      rcases hg with hg | heq
      · exact .inl hg
      · cases heq
        exact .inr ⟨_, _, _, hasks, hstand⟩
    | enlists f heq => exact .inl (heq ▸ hg)
    | loses _ _ heq => exact .inl (heq ▸ List.mem_append_left _ hg)
  · rw [h.others u hu] at hg
    exact .inl hg

/-- A turn makes no use of a flag that was not in use, save one that it is handed. -/
theorem uses (h : Acts r r' t m s job site stand gain) {live : Nat → Prop} (ho : Owns r live)
    (hpart : Partings r r' t m job) {g : Flag} (hg : r'.world.Uses g) :
    r.world.Uses g ∨
      ∃ p p' a, ReadMostly.Asks job p ∧ stand = .here (.registering p' g a) := by
  rcases hg with hraised | ⟨u, n, hmem⟩
  · by_cases hcarries :
        Carries ⟨t, m, r.world.isAlive⟩ ⟨s, r.world.flags, (r.world.thread t).locals⟩ job g
    · exact .inl (.inr ⟨t, m, h.carries_mem ho hpart hcarries⟩)
    · have hsame : site.flags.isRaised g = r.world.flags.isRaised g := by
        refine h.table.isRaised_eq fun f hf => ?_
        rintro rfl
        exact hcarries hf
      rw [h.flags, hsame] at hraised
      exact .inl (.inl hraised)
  · exact (h.mem_flags hpart hmem).imp_left fun hmem => .inr ⟨u, n, hmem⟩

theorem supplies (h : Acts r r' t m s job site stand gain) {live : Nat → Prop} (ho : Owns r live)
    (hpart : Partings r r' t m job) (hown : r.world.OwnSupplies) (hs : r.world.Supplied) :
    r.world.Supplies r'.world := by
  cases h.site_supplied hown hs with
  | keeps hblocks hstock hasks =>
    have hnone : ∀ {g : Flag},
        ¬ ∃ p p' a, ReadMostly.Asks job p ∧ stand = .here (.registering p' g a) := by
      rintro g ⟨p, p', a, hp, hstand⟩
      have hno := hasks p hp
      rw [hstand] at hno
      cases hno
    refine .of_stock hs (by rw [h.flags]; exact hblocks) (fun u => ?_)
      (fun g hg => (h.uses ho hpart hg).resolve_right hnone)
      fun u n g hg => (h.mem_flags hpart hg).resolve_right hnone
    by_cases hu : u = t
    · subst hu
      rw [h.locals]
      exact hstock
    · rw [h.others u hu]
  | draws handed hasks hdraws hblocks hstock hflag =>
    have hblocks' : r'.world.flags.blocks = handed.flags.blocks := by
      rw [h.flags]
      exact hblocks
    have hself : (r'.world.thread t).locals.stock = handed.locals.stock := by
      rw [h.locals]
      exact hstock
    have hothers : ∀ u, u ≠ t →
        (r'.world.thread u).locals.stock = (r.world.thread u).locals.stock :=
      fun u hu => by rw [h.others u hu]
    refine ⟨hs.of_draws hdraws hblocks' hself hothers fun g hg => (h.uses ho hpart hg).imp_right ?_,
      fun hg => hg.of_draws hdraws hblocks' hself hothers,
      fun hg => (h.mem_flags hpart hg).imp_right ?_⟩
    · rintro ⟨p, p', a, -, hstand⟩
      exact hflag p' g a hstand
    · rintro ⟨p, p', a, -, hstand⟩
      rw [hflag p' _ a hstand]
      exact World.not_issued_of_draws hdraws

end Acts

theorem Operates.isFresh {op : Operation} (h : Operates r e r' t m l job op)
    (hown : r.world.OwnSupplies) (hs : r.world.Supplied)
    (hstint : (r.world.thread t).stint? = none) :
    ∀ p ∈ (r'.world.thread t).inHand?, r.world.IsFresh p.2 := by
  rintro ⟨n, f⟩ hp
  have hjob : job.place? = none := by simpa [h.stint] using hstint
  by_cases halg : l.body.algorithm = .readMostly
  · obtain ⟨s, hbody⟩ := Body.exists_readMostly halg
    obtain ⟨site, stand, hacts, -⟩ := h.acts hbody
    have hnone : job.pc? = none := by
      cases job with
      | resume p => cases hjob
      | start op' | depart f => rfl
    have hfrom : ∀ pc, job ≠ .from pc := by
      rintro pc rfl
      cases hjob
    have hhand : (stand.place?.bind Pc.flagInHand?).map (m, ·) = some (n, f) := by
      have hp' : (r'.world.thread t).inHand? = some (n, f) := hp
      simp only [Thread.inHand?, hacts.stint'] at hp'
      cases hplace : stand.place? with
      | none =>
        rw [hplace] at hp'
        cases hp'
      | some pc =>
        rw [hplace] at hp'
        exact hp'
    cases hacts.table.stocks with
    | keeps _ _ hsame =>
      rw [hsame, hnone] at hhand
      cases hhand
    | begins _ _ hasks _ _ hstand =>
      rw [hstand] at hhand
      cases hhand
      refine hs.isFresh ?_
      cases hacts.site_supplied hown hs with
      | keeps _ _ hno =>
        have hno := hno _ hasks
        rw [hstand] at hno
        cases hno
      | draws handed _ hdraws _ _ hflag =>
        rw [hflag _ _ _ hstand]
        exact World.not_issued_of_draws hdraws
    | enlists _ _ heq | remembers _ _ heq | strikes _ _ heq => exact absurd heq (hfrom _)
    | departs _ _ heq =>
      rw [heq] at h
      exact h.serves.elim
  · obtain ⟨-, -, -, hstint'⟩ := h.plain halg
    have hnone := Thread.inHand?_of_plain hstint'
    rw [hnone] at hp
    cases hp

namespace Run

/-- A thread with a call under way has no flag to take off a registry. -/
theorem Orderly.parting_of_frame (ho : r.Orderly)
    (hframe : (r.world.thread t).frame?.isSome = true) : (r.world.thread t).parting = [] := by
  have htidy := ho.tidy t
  generalize r.asked t = a at htidy
  cases htidy with
  | idle hact | gone hact | working hact | pausing hact => simp only [Thread.parting, hact]
  | @ending ending hact _ hchore =>
    obtain ⟨chore, armed, nodes⟩ := ending
    cases hchore
    simp [Thread.frame?, hact] at hframe
  | @departing ending m pc l hact _ hchore =>
    obtain ⟨chore, armed, nodes⟩ := ending
    cases hchore
    simp [Thread.frame?, hact] at hframe

/-- A flag that a thread has in hand after it had none is fresh, whatever has happened. -/
theorem isFresh_of_move (hmove : Move r e r') (hown : r.world.OwnSupplies)
    (hs : r.world.Supplied) (hstint : (r.world.thread t).stint? = none)
    (hparting : (r.world.thread t).parting = []) :
    ∀ p ∈ (r'.world.thread t).inHand?, r.world.IsFresh p.2 := by
  have hsame : r'.world.thread t = r.world.thread t →
      ∀ p ∈ (r'.world.thread t).inHand?, r.world.IsFresh p.2 := by
    intro heq p hp
    simp [heq, Thread.inHand?, hstint] at hp
  cases hmove with
  | @operate u n l job op h =>
    by_cases hu : t = u
    · subst hu
      exact h.isFresh hown hs hstint
    · exact hsame (h.others t hu)
  | @depart u n l job h =>
    by_cases hu : t = u
    · subst hu
      have hdeparts := h.departs
      cases job with
      | start op => exact hdeparts.elim
      | resume p => simp [h.stint, Job.place?] at hstint
      | depart f =>
        rw [h.parting f rfl] at hparting
        cases hparting
    · exact hsame (h.others t hu)
  | @shift u h =>
    by_cases hu : t = u
    · subst hu
      intro p hp
      simp [Thread.inHand?, h.stint'] at hp
    · exact hsame (h.others t hu)
  | drop h => exact hsame (h.threads t)
  | wake h => exact hsame (h.threads t)
  | make h => exact hsame (h.threads t)
  | rest h => exact hsame (h.threads t)

/-- The suppliers of this library hand out fresh flags. -/
theorem handsOutFresh_of_own (ho : r.Orderly) (hp : r.world.Permits e)
    (hown : r.world.OwnSupplies) (hs : r.world.Supplied) : r.HandsOutFresh e := by
  obtain ⟨r₁, hmove, hthread, -⟩ := exists_move_after ho hp
  rw [world_after] at hthread
  cases e with
  | call t m c =>
    have hidle := hp.1
    intro p hin
    rw [hthread] at hin
    exact isFresh_of_move hmove hown hs (stint?_of_idle hidle)
      (by simp only [Thread.parting, hidle]) p hin
  | turn t =>
    intro hstint hframe p hin
    rw [hthread] at hin
    exact isFresh_of_move hmove hown hs hstint (ho.parting_of_frame hframe) p hin
  | exit | wake | advance | make => trivial

end Run

/-- A move changes no lock's supplier. -/
theorem Move.ownSupplies (h : Move r e r') (hown : r'.world.OwnSupplies) :
    r.world.OwnSupplies := by
  have hsame : r'.world.locks = r.world.locks → r.world.OwnSupplies := by
    rintro heq m s ⟨l, hl, hs⟩
    exact hown m s ⟨l, heq ▸ hl, hs⟩
  have hturned : ∀ {t m l job}, Turned r r' t m l job →
      (∀ s, l.body = .readMostly s → ∃ site : Site, r'.world.ReadMostlyAt m site.lock ∧
        site.lock.supply = s.supply) → r.world.OwnSupplies := by
    intro t m l job h hself n s hat
    by_cases hn : n = m
    · subst hn
      obtain ⟨l', hl', hs⟩ := hat
      cases h.lock.symm.trans hl'
      obtain ⟨site, hafter, heq⟩ := hself s hs
      rw [← heq]
      exact hown n _ hafter
    · exact hown n s ((h.readMostlyAt_of_ne hn).mpr hat)
  cases h with
  | operate h =>
    refine hturned h.toTurned fun s hs => ?_
    obtain ⟨site, stand, hacts, -⟩ := h.acts hs
    exact ⟨site, hacts.after, hacts.table.supply_eq⟩
  | depart h =>
    refine hturned h.toTurned fun s hs => ?_
    obtain ⟨site, stand, hacts, -⟩ := h.acts hs
    exact ⟨site, hacts.after, hacts.table.supply_eq⟩
  | shift h => exact hsame h.locks
  | drop h =>
    rintro n s ⟨l', hl', hs⟩
    obtain ⟨_, hk⟩ := h.exists_lock hl'
    exact hown n s ⟨_, hk, hs⟩
  | @wake t h =>
    rintro n s ⟨l, hl, hs⟩
    refine hown n (ReadMostly.wake t s) ⟨World.wakeIn t l, ?_, ?_⟩
    · rw [h.locks, List.getElem?_map, hl]
      rfl
    · simp only [World.wakeIn, hs]
  | make h =>
    rintro n s ⟨l, hl, hs⟩
    have hlt : n < r.world.locks.length := (List.getElem?_eq_some_iff.mp hl).1
    refine hown n s ⟨l, ?_, hs⟩
    rwa [h.locks, World.addLock, List.getElem?_append_left hlt]
  | rest h => exact hsame h.locks

theorem Dissolves.ownSupplies (h : Dissolves r r' m) (hown : r'.world.OwnSupplies) :
    r.world.OwnSupplies := by
  rintro n s ⟨l, hl, hs⟩
  rcases h.lock_cases hl with hl' | ⟨-, s₀, hs₀, hl'⟩
  · exact hown n s ⟨l, hl', hs⟩
  · cases hs₀.symm.trans hs
    exact hown n { s with registry := {} } ⟨_, hl', rfl⟩

/-- A move hands out no flag twice. -/
theorem Move.supplies (h : Move r e r') {live : Nat → Prop} (ho : Owns r live)
    (hown : r.world.OwnSupplies) (hs : r.world.Supplied) : r.world.Supplies r'.world := by
  have hsame : r'.world.flags = r.world.flags →
      (∀ u, (r'.world.thread u).locals.stock = (r.world.thread u).locals.stock) →
      (∀ u n f, (n, f) ∈ (r'.world.thread u).flags → (n, f) ∈ (r.world.thread u).flags) →
      r.world.Supplies r'.world := by
    intro hflags hstock hmem
    refine .of_stock hs (by rw [hflags]) hstock (fun f hf => ?_) hmem
    unfold World.Uses at hf ⊢
    rw [hflags] at hf
    exact hf.imp_right fun ⟨u, n, hf⟩ => ⟨u, n, hmem u n f hf⟩
  have hthreads : r'.world.flags = r.world.flags →
      (∀ u, r'.world.thread u = r.world.thread u) → r.world.Supplies r'.world :=
    fun hflags hthread =>
      hsame hflags (fun u => by rw [hthread]) (fun u n f hf => by rwa [hthread] at hf)
  cases h with
  | @operate t m l job op h =>
    by_cases halg : l.body.algorithm = .readMostly
    · obtain ⟨s, hbody⟩ := Body.exists_readMostly halg
      obtain ⟨site, stand, hacts, -⟩ := h.acts hbody
      exact hacts.supplies ho h.partings hown hs
    · obtain ⟨hflags, hlocals, -⟩ := h.plain halg
      refine hsame hflags (fun u => ?_) (fun u n f hf => ?_) <;> by_cases hu : u = t
      · rw [hu, hlocals]
      · rw [h.others u hu]
      · rw [hu] at hf ⊢
        rwa [h.flags_eq_of_plain halg] at hf
      · rwa [h.others u hu] at hf
  | @depart t m l job h =>
    obtain ⟨s, hbody⟩ := Body.exists_readMostly (World.work_departs t h.lock h.suits h.departs).1
    obtain ⟨site, stand, hacts, -⟩ := h.acts hbody
    exact hacts.supplies ho h.partings hown hs
  | @shift t h =>
    refine hsame h.flags (fun u => ?_) (fun u n f hf => ?_) <;> by_cases hu : u = t
    · rw [hu]
      simp only [ReadMostly.Locals.stock, h.blocks.1, h.blocks.2]
    · rw [h.others u hu]
    · rw [hu] at hf ⊢
      exact h.sublist.subset hf
    · rwa [h.others u hu] at hf
  | drop h => exact hthreads h.flags h.threads
  | wake h => exact hthreads h.flags h.threads
  | make h => exact hthreads h.flags h.threads
  | rest h => exact hthreads h.flags h.threads

theorem Dissolves.supplies (h : Dissolves r r' m) (hs : r.world.Supplied) :
    r.world.Supplies r'.world := by
  have hflags : r'.world.flags.blocks = r.world.flags.blocks ∧
      ∀ f, r'.world.flags.isRaised f = true → r.world.flags.isRaised f = true := by
    rw [h.flags]
    rcases World.dissolve_cases r.world m with heq | ⟨l, s, -, -, heq⟩ <;> rw [heq]
    · exact ⟨rfl, fun _ h => h⟩
    · exact ⟨s.registry.blocks_lowerAll _,
        fun f hf => (ReadMostly.Registry.of_isRaised_lowerAll hf).1⟩
  refine .of_stock hs hflags.1 (fun u => by rw [h.threads]) (fun f hf => ?_)
    fun u n f hf => by rwa [h.threads] at hf
  unfold World.Uses at hf ⊢
  simp only [h.threads] at hf
  exact hf.imp_left (hflags.2 f)

theorem World.Supplies.trans {w w' w'' : World} (h : w.Supplies w') (h' : w'.Supplies w'') :
    w.Supplies w'' where
  supplied := h'.supplied
  issued hf := h'.issued (h.issued hf)
  taken hf := by
    rcases h'.taken hf with hf | hnot
    · exact h.taken hf
    · exact .inr fun hissued => hnot (h.issued hissued)

theorem World.stocksApart_initial (host : Host) : (Run.initial host).world.StocksApart where
  stocked _ := ⟨List.nodup_nil, nofun⟩
  apart hx := nomatch hx

theorem World.supplied_initial (host : Host) : (Run.initial host).world.Supplied where
  toStocksApart := stocksApart_initial host
  issued f hf := by
    rcases hf with hf | ⟨t, m, hf⟩ <;> cases hf

theorem Run.ownSupplies_of_after (ho : r.Orderly) (hp : r.world.Permits e)
    (hown : (r.after e).world.OwnSupplies) : r.world.OwnSupplies := by
  obtain ⟨⟨r₁, hmove, ⟨heq, -⟩ | ⟨n, -, hdis⟩⟩, -⟩ := Run.after_moves ho hp
  · exact hmove.ownSupplies (heq ▸ hown)
  · exact hmove.ownSupplies (hdis.ownSupplies hown)

/-- An event after which all locks have suppliers of this library has handed out a fresh flag or
none. -/
theorem Run.after_supplies {live : Nat → Prop} (ho : r.Orderly) (howns : Owns r live)
    (hp : r.world.Permits e) (hs : r.world.Supplied) (hown : (r.after e).world.OwnSupplies) :
    r.HandsOutFresh e ∧ r.world.Supplies (r.after e).world := by
  have hown₀ := Run.ownSupplies_of_after ho hp hown
  obtain ⟨⟨r₁, hmove, hrest⟩, -⟩ := Run.after_moves ho hp
  have hs₁ := hmove.supplies howns hown₀ hs
  refine ⟨Run.handsOutFresh_of_own ho hp hown₀ hs, ?_⟩
  rcases hrest with ⟨heq, -⟩ | ⟨n, -, hdis⟩
  · rwa [heq]
  · exact hs₁.trans (hdis.supplies hs₁.supplied)

/-- If all locks have suppliers of this library, only fresh flags have been handed out, and no flag
in use can be handed out again. -/
theorem Reachable.handsOutFresh {ok : Run → Event → Prop} (h : Reachable ok r)
    (hown : r.world.OwnSupplies) :
    Reachable (fun r e => ok r e ∧ r.HandsOutFresh e) r ∧ r.world.Supplied := by
  induction h with
  | start => exact ⟨.start, World.supplied_initial _⟩
  | @step r e hreach hp hok ih =>
    have hown₀ := Run.ownSupplies_of_after hreach.orderly hp hown
    obtain ⟨hreach', hs⟩ := ih hown₀
    obtain ⟨hfresh, hsupplies⟩ :=
      Run.after_supplies hreach.orderly (hreach'.owns fun _ _ h => h.2) hp hs hown
    exact ⟨hreach'.step hp ⟨hok, hfresh⟩, hsupplies.supplied⟩

/-- If all locks have suppliers of this library in the end, the events have handed out fresh flags
only. -/
theorem Run.Plays.handsOutFresh {ok : Run → Event → Prop} {host : Host} {events : List Event}
    (h : (Run.initial host).Plays ok events)
    (hown : (Run.play (.initial host) events).world.OwnSupplies) :
    (Run.initial host).Plays Run.HandsOutFresh events := by
  refine h.induction (P := fun events => (Run.play (.initial host) events).world.OwnSupplies →
    (Run.initial host).Plays Run.HandsOutFresh events) (fun _ => trivial) ?_ hown
  intro events e hplays hp _ ih hown'
  rw [Run.play_concat] at hown'
  have hreach := Reachable.start.play hplays
  have hown₀ := Run.ownSupplies_of_after hreach.orderly hp hown'
  obtain ⟨hreach', hs⟩ := hreach.handsOutFresh hown₀
  obtain ⟨hfresh, -⟩ :=
    Run.after_supplies hreach.orderly (hreach'.owns fun _ _ h => h.2) hp hs hown'
  exact Run.plays_concat.mpr ⟨ih hown₀, hp, hfresh⟩

/-! ## Flags of one lock -/

namespace Run

/-- A flag has been handed out, for this lock and for no other. -/
structure KeptFor (r : Run) (m : Nat) (f : Flag) : Prop where
  issued : r.world.Issued f
  lock : ∀ {u n}, (n, f) ∈ (r.world.thread u).flags → n = m

theorem Plays.ownSupplies {ok : Run → Event → Prop} (hreach : Reachable ok r)
    {events : List Event} (h : r.Plays ok events) (hown : (r.play events).world.OwnSupplies) :
    r.world.OwnSupplies := by
  refine h.induction (P := fun events => (r.play events).world.OwnSupplies →
    r.world.OwnSupplies) id ?_ hown
  intro events e hplays hp _ ih hown'
  rw [play_concat] at hown'
  exact ih (ownSupplies_of_after (hreach.play hplays).orderly hp hown')

/-- A flag that a supplier of this library has handed out for one lock is never on another. -/
theorem Plays.keptFor {ok : Run → Event → Prop} (hok : ∀ r e, ok r e → r.HandsOutFresh e)
    (hreach : Reachable ok r) (hf : (m, f) ∈ (r.world.thread t).flags) {events : List Event}
    (h : r.Plays ok events) (hown : (r.play events).world.OwnSupplies) :
    (r.play events).KeptFor m f := by
  obtain ⟨-, hs⟩ := hreach.handsOutFresh (h.ownSupplies hreach hown)
  have hkept : r.KeptFor m f :=
    ⟨hs.issued f (.inr ⟨t, m, hf⟩), fun hf' => ((hreach.owns hok).owner hf' hf).2⟩
  refine (h.induction (P := fun events => (r.play events).world.OwnSupplies →
    (r.play events).world.Supplied ∧ (r.play events).KeptFor m f) (fun _ => ⟨hs, hkept⟩) ?_ hown).2
  intro events e hplays hp _ ih hown'
  rw [play_concat] at hown' ⊢
  have hreach' := hreach.play hplays
  obtain ⟨hs', hkept'⟩ := ih (ownSupplies_of_after hreach'.orderly hp hown')
  obtain ⟨-, hsupplies⟩ := after_supplies hreach'.orderly (hreach'.owns hok) hp hs' hown'
  refine ⟨hsupplies.supplied, hsupplies.issued hkept'.issued, fun hf => ?_⟩
  exact hkept'.lock ((hsupplies.taken hf).resolve_right fun hnot => hnot hkept'.issued)

end Run

end ReaderWriter
