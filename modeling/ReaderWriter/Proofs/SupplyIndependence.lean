import ReaderWriter.Proofs.Neighbours
import ReaderWriter.Proofs.RehousedTurns

/-!
# The supply does not show

It does not show in what a schedule answers whether the flags of a thread are packed into blocks or
have a block each. Beside the world of packed flags runs one in which every flag has a block of its
own: the flag that was handed out as the `n`-th lies in block `n` there. The two worlds mirror each
other after every turn, and a schedule sees nothing of a world that tells them apart.

* `World.HasHandedOut`: what flags a world has handed out, and that it cannot hand them out again.
* `Mirrors`: the second world is the first with its flags in their places.
* `Schedule.step_mirrors`: every step answers the same, and leaves worlds that mirror each other.
* `Schedule.runSteps_isolated`: so a schedule with plain supplies answers what it answers with a
  block for every flag.
* `packedFlags_do_not_show`: packed flags answer like flags with a block each, and those of one
  block have nothing else to do with each other.
-/

namespace ReaderWriter

open ReadMostly (Flag Supply)

variable {ρ : Flag → Flag} {b : Nat} {w w' : World} {t : ThreadId} {f : Flag} {flags : List Flag}

/-! ## Flags in the order of their handing out -/

/-- Every flag on the list is put into the block that has its number there, and no two flags are put
into one place. -/
structure Places (ρ : Flag → Flag) (flags : List Flag) : Prop where
  injective : Function.Injective ρ
  place : ∀ {n f}, flags[n]? = some f → ρ f = .apart n

namespace Places

theorem of_append {flags' : List Flag} (h : Places ρ (flags ++ flags')) : Places ρ flags where
  injective := h.injective
  place hn := h.place (List.getElem?_append_left (List.getElem?_eq_some_iff.mp hn).1 ▸ hn)

theorem last (h : Places ρ (flags ++ [f])) : ρ f = .apart flags.length :=
  h.place (by simp)

/-- The flags that are not on the list go behind those that are. -/
theorem exists_of_nodup (h : flags.Nodup) : ∃ ρ, Places ρ flags := by
  let ρ : Flag → Flag := fun f =>
    if f ∈ flags then .apart (flags.idxOf f) else ⟨flags.length + f.block, f.slot⟩
  have hin : ∀ {f}, f ∈ flags → ρ f = .apart (flags.idxOf f) := fun hf => if_pos hf
  have hout : ∀ {f}, f ∉ flags → ρ f = ⟨flags.length + f.block, f.slot⟩ := fun hf => if_neg hf
  have hne : ∀ {f g}, f ∈ flags → g ∉ flags → ρ f ≠ ρ g := by
    intro f g hf hg heq
    rw [hin hf, hout hg] at heq
    have hblock : flags.idxOf f = flags.length + g.block := congrArg Flag.block heq
    have hlt := List.idxOf_lt_length_of_mem hf
    omega
  refine ⟨ρ, fun f g heq => ?_, fun {n f} hn => ?_⟩
  · by_cases hf : f ∈ flags <;> by_cases hg : g ∈ flags
    · rw [hin hf, hin hg] at heq
      exact (List.idxOf_inj hf).mp (congrArg Flag.block heq)
    · exact absurd heq (hne hf hg)
    · exact absurd heq.symm (hne hg hf)
    · rw [hout hf, hout hg] at heq
      cases f
      cases g
      simpa using heq
  · obtain ⟨hlt, rfl⟩ := List.getElem?_eq_some_iff.mp hn
    rw [hin (List.getElem_mem hlt), h.idxOf_getElem n hlt]

end Places

namespace World

/-- The world has handed out these flags in this order, and cannot hand them out again. -/
structure HasHandedOut (w : World) (flags : List Flag) : Prop where
  stocks : w.StocksApart
  plain : w.IsPlain
  issued : ∀ f ∈ flags, w.Issued f
  nodup : flags.Nodup

theorem IsPlain.of_map (h : w.IsPlain)
    (hmap : w'.locks.map Lock.isPlain = w.locks.map Lock.isPlain) : w'.IsPlain := by
  have hall : ∀ x ∈ w.locks.map Lock.isPlain, x = true := by
    simpa [World.IsPlain] using h
  rw [← hmap] at hall
  simpa [World.IsPlain] using hall

theorem HasHandedOut.of_sameStock (h : w.HasHandedOut flags) (hstock : w.SameStock w') :
    w'.HasHandedOut flags where
  stocks := h.stocks.of_stock hstock.blocks hstock.stock
  plain := h.plain.of_map hstock.plain
  issued f hf := (h.issued f hf).of_stock hstock.blocks hstock.stock
  nodup := h.nodup

theorem HasHandedOut.of_hands {drawn : Option Flag} (h : w.HasHandedOut flags)
    (hhands : w.Hands w' t drawn) : w'.HasHandedOut (flags ++ drawn.toList) := by
  cases hhands with
  | none hstock =>
    rw [Option.toList_none, List.append_nil]
    exact h.of_sameStock hstock
  | some handed hdraws hblocks hself hothers hplain =>
    refine ⟨h.stocks.of_draws hdraws hblocks hself hothers, h.plain.of_map hplain,
      fun f hf => ?_, ?_⟩
    · rcases List.mem_append.mp hf with hf | hf
      · exact (h.issued f hf).of_draws hdraws hblocks hself hothers
      · obtain rfl := List.mem_singleton.mp hf
        exact h.stocks.issued_of_draws hdraws hblocks hself hothers
    · have hnew : handed.flag ∉ flags := fun hf => not_issued_of_draws hdraws (h.issued _ hf)
      simpa [List.nodup_append, h.nodup] using fun f hf heq => hnew (by rwa [← heq])

end World

/-! ## Worlds that mirror each other -/

instance : LeavesWorld World := ⟨id, World.rehouse⟩

/-- The second result is the first with the flags that have been handed out in their places. -/
structure Mirrors {X : Type} [LeavesWorld X] (flags : List Flag) (x x' : X) : Prop where
  handedOut : (LeavesWorld.world x).HasHandedOut flags
  rehoused : ∀ ρ, Places ρ flags → x' = LeavesWorld.rehouse ρ flags.length x

namespace Mirrors

section

variable {X : Type} [LeavesWorld X] {x x' : X}

/-- What does not depend on where the flags lie is the same. -/
theorem eq_of {α : Type} (h : Mirrors flags x x') (g : X → α)
    (hg : ∀ ρ b, g (LeavesWorld.rehouse ρ b x) = g x) : g x' = g x := by
  obtain ⟨ρ, hρ⟩ := Places.exists_of_nodup h.handedOut.nodup
  rw [h.rehoused ρ hρ, hg]

theorem start (host : Host) : Mirrors [] (Run.initial host).world (Run.initial host).world where
  handedOut :=
    { stocks := World.stocksApart_initial host
      plain := fun _ hl => absurd hl List.not_mem_nil
      issued := fun _ hf => absurd hf List.not_mem_nil
      nodup := List.nodup_nil }
  rehoused _ _ := rfl

/-! ### Turns -/

/-- What goes the same way with every flag in a block of its own leaves a mirror. -/
theorem follows (h : Mirrors flags w w') (t : ThreadId) (turn : World → X)
    (hturn : w.IsPlain → (w.thread t).locals.Stocked w.flags.blocks →
      ∃ drawn, w.Follows t (turn w) (fun ρ b => turn (w.rehouse ρ b)) drawn) :
    ∃ flags', Mirrors flags' (turn w) (turn w') := by
  have hw : w.HasHandedOut flags := h.handedOut
  obtain ⟨drawn, hfollows⟩ := hturn hw.plain (hw.stocks.stocked t)
  refine ⟨flags ++ drawn.toList, hw.of_hands hfollows.hands, fun ρ hρ => ?_⟩
  rw [h.rehoused ρ hρ.of_append, List.length_append]
  refine hfollows.rehoused ρ _ hρ.injective fun f hf => ?_
  obtain rfl := Option.mem_def.mp hf
  exact hρ.last

end

/-- What hands out no flag and changes no supply leaves a mirror. -/
theorem same (h : Mirrors flags w w') (change : World → World) (hstock : w.SameStock (change w))
    (hchange : ∀ ρ b, change (w.rehouse ρ b) = (change w).rehouse ρ b) :
    Mirrors flags (change w) (change w') where
  handedOut := World.HasHandedOut.of_sameStock h.handedOut hstock
  rehoused ρ hρ := by
    rw [h.rehoused ρ hρ]
    exact hchange ρ _

section

variable (h : Mirrors flags w w')
include h

theorem call (t : ThreadId) (m : Nat) (call : Call) :
    ∃ flags', Mirrors flags' (w.call t m call) (w'.call t m call) :=
  h.follows t (fun w => w.call t m call) fun hplain hstocked =>
    World.call_follows hplain hstocked m call

theorem exit (t : ThreadId) : ∃ flags', Mirrors flags' (w.exit t) (w'.exit t) :=
  h.follows t (fun w => w.exit t) World.exit_follows

theorem turn (t : ThreadId) : ∃ flags', Mirrors flags' (w.turn t) (w'.turn t) :=
  h.follows t (fun w => w.turn t) World.turn_follows

theorem arm (t : ThreadId) (armed : Armed) :
    ∃ flags', Mirrors flags' (w.arm t armed) (w'.arm t armed) :=
  h.follows t (fun w => w.arm t armed) fun _ _ => ⟨none, w.arm_follows t armed⟩

theorem wake (t : ThreadId) : Mirrors flags (w.wake t) (w'.wake t) :=
  h.same (fun w => w.wake t) (.wake w t) fun _ _ => w.wake_rehouse t

/-! ### What is seen of the worlds -/

theorem obstacle (t : ThreadId) : w'.obstacle t = w.obstacle t :=
  h.eq_of (fun w => w.obstacle t) fun _ _ => w.obstacle_rehouse t

theorem thread (t : ThreadId) : ∃ ρ, w'.thread t = (w.thread t).rehouse ρ := by
  obtain ⟨ρ, hρ⟩ := Places.exists_of_nodup h.handedOut.nodup
  refine ⟨ρ, ?_⟩
  rw [h.rehoused ρ hρ]
  exact w.thread_rehouse t

theorem place (t : ThreadId) : w'.place t = w.place t :=
  h.eq_of (fun w => w.place t) fun _ _ => w.place_rehouse t

end

section

variable {moved moved' : Moved} (h : Mirrors flags moved moved')
include h

theorem finish : moved'.finish = moved.finish := h.eq_of Moved.finish fun _ _ => rfl

theorem notes : moved'.notes = moved.notes := h.eq_of Moved.notes fun _ _ => rfl

theorem world : Mirrors flags moved.world moved'.world :=
  ⟨h.handedOut, fun ρ hρ => by
    rw [h.rehoused ρ hρ]
    rfl⟩

end

end Mirrors

/-! ## Schedules -/

/-- A kind of lock with this supply, if it needs any. -/
def Kind.supplied (supply : Supply) (kind : Kind) : Kind :=
  { kind with
    family :=
      match kind.family with
      | .readMostly _ => .readMostly supply
      | family => family }

/-- The supply of the kind is plain, if it needs any. -/
def Kind.isPlain (kind : Kind) : Bool :=
  match kind.family with
  | .readMostly supply => supply.isPlain
  | .blocking | .polling => true

namespace Kind

theorem supplied_supplied (kind : Kind) (supply supply' : Supply) :
    (kind.supplied supply).supplied supply' = kind.supplied supply' := by
  obtain ⟨family, observed, carriesData⟩ := kind
  cases family <;> rfl

theorem isPlain_supplied (kind : Kind) {supply : Supply} (h : supply.isPlain = true) :
    (kind.supplied supply).isPlain = true := by
  obtain ⟨family, observed, carriesData⟩ := kind
  cases family with
  | readMostly _ => exact h
  | blocking | polling => rfl

end Kind

namespace World

theorem addLock_rehouse (w : World) (kind : Kind) (config : Config) :
    (w.rehouse ρ b).addLock (kind.supplied .isolated) config =
      (w.addLock kind config).rehouse ρ b := by
  have hlock : ∀ id host, Lock.make (kind.supplied .isolated) config id host =
      (Lock.make kind config id host).rehouse ρ := by
    intro id host
    obtain ⟨family, observed, carriesData⟩ := kind
    cases family <;> rfl
  have hcount : ((w.rehouse ρ b).locks.filter Lock.isReadMostly).length =
      (w.locks.filter Lock.isReadMostly).length := by
    simp [rehouse, List.filter_map, Function.comp_def, Lock.isReadMostly_rehouse]
  simp only [addLock, hcount, hlock]
  simp [rehouse]

end World

/-- A lock with a plain supply in one world and a lock with a block for every flag in the other. -/
theorem Mirrors.addLock (h : Mirrors flags w w') {kind : Kind} (hkind : kind.isPlain = true)
    (config : Config) :
    Mirrors flags (w.addLock kind config) (w'.addLock (kind.supplied .isolated) config) where
  handedOut := by
    obtain ⟨stocks, plain, issued, nodup⟩ : w.HasHandedOut flags := h.handedOut
    refine ⟨stocks.of_stock rfl fun _ => rfl, fun l hl => ?_,
      fun f hf => (issued f hf).of_stock rfl fun _ => rfl, nodup⟩
    rcases List.mem_append.mp hl with hl | hl
    · exact plain l hl
    · obtain rfl := List.mem_singleton.mp hl
      obtain ⟨family, observed, carriesData⟩ := kind
      cases family <;> exact hkind
  rehoused ρ hρ := by
    rw [h.rehoused ρ hρ]
    exact w.addLock_rehouse kind config

namespace Schedule

/-- A step that makes locks with this supply. -/
def Step.supplied (supply : Supply) : Step → Step
  | .make kind config => .make (kind.supplied supply) config
  | step => step

/-- The step makes no lock with another supply than a plain one. -/
def Step.isPlain : Step → Bool
  | .make kind _ => kind.isPlain
  | _ => true

theorem Step.supplied_supplied (s : Step) (supply supply' : Supply) :
    (s.supplied supply).supplied supply' = s.supplied supply' := by
  cases s with
  | make kind config => exact congrArg (Step.make · config) (kind.supplied_supplied supply supply')
  | bad | advance nanos | begin t request stops | resume t spurious stops => rfl

theorem Step.isPlain_supplied (s : Step) {supply : Supply} (h : supply.isPlain = true) :
    (s.supplied supply).isPlain = true := by
  cases s with
  | make kind config => exact kind.isPlain_supplied h
  | bad | advance nanos | begin t request stops | resume t spurious stops => rfl

/-- The kinds and configurations of locks, with this supply. -/
def supplied (supply : Supply) (specs : List (Kind × Config)) : List (Kind × Config) :=
  specs.map (Prod.map (Kind.supplied supply) id)

/-- Two worlds that mirror each other, with the same answer. -/
structure Matches {α : Type} (x x' : World × α) : Prop where
  worlds : ∃ flags, Mirrors flags x.1 x'.1
  answer : x'.2 = x.2

theorem drive_mirrors (stops : Stops) (t : ThreadId) (fuel : Nat) (passed : Passed)
    {moved moved' : Moved} (h : Mirrors flags moved moved') :
    Matches (drive stops t passed moved fuel) (drive stops t passed moved' fuel) := by
  induction fuel generalizing flags passed moved moved' with
  | zero =>
    exact ⟨⟨flags, h.world⟩, by simp only [drive, h.notes]⟩
  | succ fuel ih =>
    have hworld := h.world
    simp only [drive, h.finish, h.notes, hworld.place, hworld.obstacle]
    cases moved.finish with
    | some finish => exact ⟨⟨flags, hworld⟩, rfl⟩
    | none =>
      dsimp only
      split
      · exact ⟨⟨flags, hworld⟩, rfl⟩
      · cases moved.world.obstacle t with
        | some o => exact ⟨⟨flags, hworld⟩, rfl⟩
        | none =>
          obtain ⟨flags', hturn⟩ := hworld.turn t
          exact ih _ hturn

theorem maxSpins_rehouse (w : World) : maxSpins (w.rehouse ρ b) = maxSpins w := by
  simp [maxSpins, World.rehouse, List.foldl_map, Lock.config_rehouse]

theorem burden_rehouse (w : World) (t : ThreadId) : burden (w.rehouse ρ b) t = burden w t := by
  have hlocks : (w.rehouse ρ b).locks.length = w.locks.length := by simp [World.rehouse]
  simp only [burden, World.thread_rehouse, Thread.rehouse, hlocks]
  cases (w.thread t).activity <;> rfl

theorem patience_rehouse (w : World) (t : ThreadId) (stops : Stops) :
    patience (w.rehouse ρ b) t stops = patience w t stops := by
  simp only [patience, burden_rehouse, maxSpins_rehouse]

theorem run_mirrors (stops : Stops) (t : ThreadId) {moved moved' : Moved}
    (h : Mirrors flags moved moved') : Matches (run stops t moved) (run stops t moved') := by
  have hpatience := h.world.eq_of (patience · t stops) fun _ _ => patience_rehouse _ t stops
  have hdrive := drive_mirrors stops t (patience moved.world t stops) {} h
  simp only [run, hpatience]
  generalize drive stops t {} moved _ = x at hdrive ⊢
  generalize drive stops t {} moved' _ = x' at hdrive ⊢
  obtain ⟨hworlds, hanswer⟩ := hdrive
  exact ⟨hworlds, congrArg (fun answer : Passed × Status =>
    (⟨answer.2, some answer.1.reported⟩ : Report)) hanswer⟩

theorem resume_mirrors (stops : Stops) (h : Mirrors flags w w') (t : ThreadId) :
    Matches (resume stops w t) (resume stops w' t) := by
  simp only [resume, h.obstacle]
  cases w.obstacle t with
  | some o => exact ⟨⟨flags, h⟩, rfl⟩
  | none =>
    obtain ⟨flags', hturn⟩ := h.turn t
    exact run_mirrors stops t hturn

theorem begin_mirrors (stops : Stops) (h : Mirrors flags w w') (t : ThreadId) (request : Request) :
    Matches (begin stops w t request) (begin stops w' t request) := by
  have hrefuse : ∀ status, Matches (refuse w status) (refuse w' status) :=
    fun status => ⟨⟨flags, h⟩, rfl⟩
  have hgone : ∀ m, (w'.lock? m).isNone = (w.lock? m).isNone := fun m =>
    h.eq_of (fun w => (w.lock? m).isNone) fun _ _ =>
      (congrArg Option.isNone (w.lock?_rehouse m)).trans Option.isNone_map
  have hinUse : ∀ m, w'.isInUse m = w.isInUse m := fun m =>
    h.eq_of (fun w => w.isInUse m) fun _ _ => w.isInUse_rehouse m
  cases request with
  | exit =>
    obtain ⟨flags', hexit⟩ := h.exit t
    exact run_mirrors stops t hexit
  | arm armed =>
    simp only [begin, hgone]
    split
    · exact hrefuse .noLock
    · obtain ⟨flags', harm⟩ := h.arm t armed
      exact run_mirrors stops t harm
  | call lock call =>
    simp only [begin, hgone, hinUse]
    split
    · exact hrefuse .noLock
    · split
      · exact hrefuse .inUse
      · obtain ⟨flags', hcall⟩ := h.call t lock call
        exact run_mirrors stops t hcall

/-- Every step answers the same, and leaves worlds that mirror each other. -/
theorem step_mirrors (h : Mirrors flags w w') {s : Step} (hplain : s.isPlain = true) :
    Matches (step w s) (step w' (s.supplied .isolated)) := by
  have hrefuse : ∀ status, Matches (refuse w status) (refuse w' status) :=
    fun status => ⟨⟨flags, h⟩, rfl⟩
  cases s with
  | bad => exact hrefuse .bad
  | advance nanos =>
    have hclock : w'.clock = w.clock := h.eq_of World.clock fun _ _ => rfl
    refine ⟨⟨flags, h.same (fun w => { w with clock := w.clock + nanos })
      ⟨rfl, fun _ => rfl, rfl⟩ fun _ _ => rfl⟩, ?_⟩
    simp only [step, refuse, Step.supplied, hclock]
  | make kind config =>
    have hlength : w'.locks.length = w.locks.length :=
      h.eq_of (fun w => w.locks.length) fun _ _ => List.length_map _
    refine ⟨⟨flags, h.addLock hplain config⟩, ?_⟩
    simp only [step, refuse, Step.supplied, hlength]
  | begin t request stops =>
    obtain ⟨ρ, hthread⟩ := h.thread t
    simp only [step, Step.supplied, hthread, Thread.rehouse]
    cases (w.thread t).activity with
    | idle => exact begin_mirrors stops h t request
    | calling frame | ending e => exact hrefuse .busy
    | gone => exact hrefuse .gone
  | resume t spurious stops =>
    obtain ⟨ρ, hthread⟩ := h.thread t
    have hresume : Matches (resume stops (if spurious then w.wake t else w) t)
        (resume stops (if spurious then w'.wake t else w') t) := by
      cases spurious with
      | true => exact resume_mirrors stops (h.wake t) t
      | false => exact resume_mirrors stops h t
    simp only [step, Step.supplied, hthread, Thread.rehouse]
    cases (w.thread t).activity with
    | idle => exact hrefuse .idle
    | calling frame | ending e => exact hresume
    | gone => exact hrefuse .gone

/-- What the state of the locks shows is the same. -/
theorem views_mirrors (h : Mirrors flags w w') :
    w'.locks.map LockView.of = w.locks.map LockView.of := by
  have hview : ∀ ρ l, LockView.of (Lock.rehouse ρ l) = LockView.of l := by
    rintro ρ ⟨body, observed, data, owned⟩
    cases body with
    | blocking s | polling s => rfl
    | readMostly s =>
      simp [LockView.of, Lock.rehouse, Body.rehouse, ReadMostly.State.rehouse,
        ReadMostly.Registry.rehouse]
  exact h.eq_of (fun w => w.locks.map LockView.of) fun _ _ => by
    simp [LeavesWorld.rehouse, World.rehouse, Function.comp_def, hview]

theorem runSteps_mirrors (h : Mirrors flags w w') (steps : List Step)
    (hplain : ∀ s ∈ steps, s.isPlain = true) :
    runSteps w' (steps.map (Step.supplied .isolated)) = runSteps w steps := by
  induction steps generalizing flags w w' with
  | nil => rfl
  | cons s rest ih =>
    obtain ⟨⟨flags', hworlds⟩, hanswer⟩ := step_mirrors h (hplain s List.mem_cons_self)
    have hrest := ih hworlds fun s hs => hplain s (List.mem_cons_of_mem _ hs)
    simp only [runSteps, List.map_cons, hanswer, views_mirrors hworlds, hrest]

theorem initial_mirrors {specs : List (Kind × Config)} (host : Host)
    (hplain : ∀ spec ∈ specs, spec.1.isPlain = true) :
    Mirrors [] (initial specs host) (initial (supplied .isolated specs) host) := by
  -- The induction adds the locks one by one to worlds that mirror each other.
  have hadd : ∀ {w w' : World} {specs : List (Kind × Config)}, Mirrors [] w w' →
      (∀ spec ∈ specs, spec.1.isPlain = true) →
      Mirrors [] (specs.foldl (fun w spec => w.addLock spec.1 spec.2) w)
        ((supplied .isolated specs).foldl (fun w spec => w.addLock spec.1 spec.2) w') := by
    intro w w' specs h hplain
    induction specs generalizing w w' with
    | nil => exact h
    | cons spec rest ih =>
      exact ih (h.addLock (hplain spec List.mem_cons_self) spec.2) fun spec hspec =>
        hplain spec (List.mem_cons_of_mem _ hspec)
  exact hadd (.start host) hplain

/-- With plain supplies a schedule answers what it answers with a block for every flag. -/
theorem runSteps_isolated (specs : List (Kind × Config)) (host : Host) (steps : List Step)
    (hspecs : ∀ spec ∈ specs, spec.1.isPlain = true) (hsteps : ∀ s ∈ steps, s.isPlain = true) :
    runSteps (initial (supplied .isolated specs) host) (steps.map (Step.supplied .isolated)) =
      runSteps (initial specs host) steps :=
  runSteps_mirrors (initial_mirrors host hspecs) steps hsteps

/-! ## Packed flags -/

theorem supplied_supplied (supply supply' : Supply) (specs : List (Kind × Config)) :
    supplied supply' (supplied supply specs) = supplied supply' specs := by
  simp only [supplied, List.map_map]
  exact List.map_congr_left fun spec _ =>
    Prod.ext (spec.1.supplied_supplied supply supply') rfl

/-- With packed flags a schedule answers what it answers with a block for every flag. -/
theorem runSteps_packed (specs : List (Kind × Config)) (host : Host) (steps : List Step) :
    runSteps (initial (supplied .packed specs) host) (steps.map (Step.supplied .packed)) =
      runSteps (initial (supplied .isolated specs) host)
        (steps.map (Step.supplied .isolated)) := by
  have hspecs : ∀ spec ∈ supplied .packed specs, spec.1.isPlain = true := by
    intro spec hspec
    obtain ⟨spec', -, rfl⟩ := List.mem_map.mp hspec
    exact spec'.1.isPlain_supplied rfl
  have hsteps : ∀ s ∈ steps.map (Step.supplied .packed), s.isPlain = true := by
    intro s hs
    obtain ⟨s', -, rfl⟩ := List.mem_map.mp hs
    exact s'.isPlain_supplied rfl
  have h := runSteps_isolated _ host _ hspecs hsteps
  rw [supplied_supplied, List.map_map,
    List.map_congr_left fun s _ => s.supplied_supplied .packed .isolated] at h
  exact h.symm

end Schedule

open Schedule in
/-- The supply does not show. Whatever the locks and the schedule, every step has the same report
and leaves the same view of the locks whether the flags are packed or have a block each. And flags
share no more than their block: what a thread does on one lock leaves every other one, and the flags
of that, as they are. -/
theorem packedFlags_do_not_show :
    (∀ (specs : List (Kind × Config)) (host : Host) (steps : List Step),
      runSteps (initial (supplied .packed specs) host) (steps.map (Step.supplied .packed)) =
        runSteps (initial (supplied .isolated specs) host)
          (steps.map (Step.supplied .isolated))) ∧
      ∀ {ok : Run → Event → Prop} {r : Run} {e : Event} {m n : Nat}, Reachable ok r →
        r.world.OwnSupplies → r.world.Permits e → r.WorksOn m e → n ≠ m →
        r.world.isAlive n = true → r.world.SparesLock (r.after e).world n :=
  ⟨runSteps_packed, fun h hown hp hworks hn halive => h.sparesLock hown hp hworks hn halive⟩

/-- A reader has two locks with packed flags, and is about to give up the first one. -/
def Run.packedReader : Run :=
  play {} [.make ⟨.readMostly .packed, false, false⟩ .standard,
    .make ⟨.readMostly .packed, false, false⟩ .standard,
    .call 0 0 (.operate (.acquire .shared)), .turn 0, .turn 0, .turn 0,
    .call 0 1 (.operate (.acquire .shared)), .turn 0, .turn 0, .turn 0,
    .call 0 0 (.operate (.release .shared))]

/-- As it lowers its flag on the first lock, that of the second one in the same block stays up. -/
theorem packedFlags_do_not_show_to_reader :
    (Run.packedReader.after (.turn 0)).world.flags.isRaised ⟨0, ⟨0, by decide⟩⟩ = false ∧
      (Run.packedReader.after (.turn 0)).world.flags.isRaised ⟨0, ⟨1, by decide⟩⟩ = true := by
  have hreach : Reachable (fun _ _ => True) Run.packedReader :=
    Reachable.start.play (by decide +kernel)
  have hspares := packedFlags_do_not_show.2 (e := .turn 0) (m := 0) (n := 1) hreach
    (by decide +kernel) (by decide +kernel) (by decide +kernel) (by decide) (by decide +kernel)
  refine ⟨by decide +kernel, (hspares.flags _ (.inr ⟨0, ?_⟩)).trans ?_⟩ <;> decide +kernel

end ReaderWriter
