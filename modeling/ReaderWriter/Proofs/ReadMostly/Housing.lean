import Mathlib.Logic.Function.Basic
import ReaderWriter.Proofs.ReadMostly.Supplies

/-!
# Where the flags lie

A read-mostly lock never asks where a flag lies: only whether it is up, and whether it is the same
as another. So a turn goes the same way if every flag is put in another place, as long as no two are
put in one, and if the supply, with what the thread keeps for it, is another. Only the turn that
hands out a flag minds the supply.

* `Site.rehouse`: a site with its flags in other places and another supply.
* `resume_rehouse`, `depart_rehouse`, `count_rehouse`: a turn commutes with it.
* `start_follows`: so does the first turn of an operation, once the place of the flag that it hands
  out, if any, is the right one.
-/

namespace ReaderWriter

/-- The same stand at another place. -/
def Stand.move {Pc : Type} (f : Pc → Pc) : Stand Pc → Stand Pc
  | .here pc => .here (f pc)
  | .done answer => .done answer
  | .fault e => .fault e

/-! ## Flags in other places -/

namespace ReadMostly

/-- What decides where the next flag comes from, and which items are kept for that. -/
structure Housing where
  blocks : Nat
  supply : Supply
  block : Option (Nat × Nat)
  pair : Option Nat
  keeps : Item → Bool

namespace Housing

/-- Every flag has a block of its own, and the next one has this number. -/
def apart (blocks : Nat) : Housing := ⟨blocks, .isolated, none, none, fun i => !i.isSilent⟩

end Housing

variable (ρ : Flag → Flag) (k : Housing)

def Flags.rehouse (blocks : Nat) (m : Flags) : Flags := ⟨blocks, m.raised.map ρ⟩

def Locals.rehouse (l : Locals) : Locals where
  inUse := l.inUse.filter k.keeps
  torn := l.torn.filter k.keeps
  nodes := l.nodes.map (Prod.map id ρ)
  block := k.block
  pair := k.pair

def Registry.rehouse (r : Registry) : Registry := { r with entries := r.entries.map ρ }

def State.rehouse (supply : Supply) (s : State) : State :=
  { s with supply := supply, registry := s.registry.rehouse ρ }

/-- The site with its flags in other places. -/
def Site.rehouse (s : Site) : Site :=
  ⟨s.lock.rehouse ρ k.supply, s.flags.rehouse ρ k.blocks, s.locals.rehouse ρ k⟩

def Pc.rehouse : Pc → Pc
  | .registering p f a => .registering p (ρ f) a
  | .registered p f => .registered p (ρ f)
  | .contended f => .contended (ρ f)
  | .arriving f => .arriving (ρ f)
  | .prodding f backoff n => .prodding (ρ f) backoff n
  | .waiting f stage backoff => .waiting (ρ f) stage backoff
  | .departing f wasUp a => .departing (ρ f) wasUp a
  | pc => pc

/-- The turn with its flags in other places. -/
def rehouseStep (step : Step) : Step :=
  { state := step.state.rehouse ρ k, stand := step.stand.move (Pc.rehouse ρ), notes := step.notes }

variable {ρ k} {sc : Scene} {s : Site} {f : Flag}

/-! ### The parts of a site -/

section Parts

variable (hρ : Function.Injective ρ)
include hρ

theorem Flags.isRaised_rehouse (m : Flags) (blocks : Nat) (f : Flag) :
    (m.rehouse ρ blocks).isRaised (ρ f) = m.isRaised f := by
  simp [isRaised, rehouse, hρ.eq_iff]

theorem Flags.put_rehouse (m : Flags) (blocks : Nat) (f : Flag) (up : Bool) :
    (m.rehouse ρ blocks).put (ρ f) up = (m.put f up).rehouse ρ blocks := by
  have hfilter : (m.raised.map ρ).filter (fun g => g != ρ f) =
      (m.raised.filter fun g => g != f).map ρ := by
    rw [List.filter_map]
    congr 1
    refine List.filter_congr fun g _ => ?_
    simp [bne, hρ.eq_iff]
  cases up <;> simp [put, rehouse, hfilter]

theorem Registry.allClear_rehouse (r : Registry) (m : Flags) (blocks : Nat) :
    (r.rehouse ρ).allClear (m.rehouse ρ blocks) = r.allClear m := by
  simp [allClear, rehouse, Function.comp_def, Flags.isRaised_rehouse hρ]

theorem Registry.raisedCount_rehouse (r : Registry) (m : Flags) (blocks : Nat) :
    (r.rehouse ρ).raisedCount (m.rehouse ρ blocks) = r.raisedCount m := by
  simp [raisedCount, rehouse, List.filter_map, Function.comp_def, Flags.isRaised_rehouse hρ]

theorem Registry.remove_rehouse (r : Registry) (f : Flag) :
    (r.rehouse ρ).remove (ρ f) = (r.remove f).rehouse ρ := by
  simp [remove, rehouse, List.map_erase hρ]

theorem Registry.lowerAll_rehouse (r : Registry) (m : Flags) (blocks : Nat) :
    (r.rehouse ρ).lowerAll (m.rehouse ρ blocks) = (r.lowerAll m).rehouse ρ blocks := by
  unfold lowerAll
  simp only [rehouse]
  generalize r.entries = entries
  induction entries generalizing m with
  | nil => rfl
  | cons f entries ih => rw [List.map_cons, List.foldl_cons, List.foldl_cons, m.put_rehouse hρ, ih]

theorem Site.put_rehouse (s : Site) (f : Flag) (up : Bool) :
    (s.rehouse ρ k).put (ρ f) up = (s.put f up).rehouse ρ k := by
  simp only [put, rehouse, Flags.put_rehouse hρ]

theorem Site.allClear_rehouse (s : Site) : (s.rehouse ρ k).allClear = s.allClear :=
  Registry.allClear_rehouse hρ _ _ _

end Parts

theorem Registry.add_rehouse (r : Registry) (f : Flag) :
    (r.rehouse ρ).add (ρ f) = (r.add f).rehouse ρ := by
  simp [add, rehouse]

namespace Locals

theorem node?_rehouse (l : Locals) (key : Nat) :
    (l.rehouse ρ k).node? key = (l.node? key).map ρ := by
  simp only [node?, rehouse]
  induction l.nodes with
  | nil => rfl
  | cons node nodes ih =>
    obtain ⟨key', f⟩ := node
    simp only [List.map_cons, Prod.map, id, List.lookup_cons]
    cases key == key' <;> simp [ih]

theorem remember_rehouse (l : Locals) (alive : Nat → Bool) (key : Nat) (f : Flag) :
    (l.rehouse ρ k).remember alive key (ρ f) = (l.remember alive key f).rehouse ρ k := by
  simp [remember, rehouse, List.filter_map, Function.comp_def]

theorem canUse_rehouse (l : Locals) {i : Item} (hi : k.keeps i = true) :
    (l.rehouse ρ k).canUse i = l.canUse i := by
  simp [canUse, rehouse, hi]

theorem touch_rehouse (l : Locals) {i : Item} (hi : k.keeps i = true) :
    (l.rehouse ρ k).touch i = (l.touch i).rehouse ρ k := by
  by_cases h : i ∈ l.torn ∨ i ∈ l.inUse
  · simp [touch, rehouse, hi, h]
  · simp [touch, rehouse, hi, h]

end Locals

namespace Site

variable (hk : k.keeps .nodes = true)
include hk

theorem canUse_rehouse (s : Site) :
    (s.rehouse ρ k).locals.canUse .nodes = s.locals.canUse .nodes :=
  s.locals.canUse_rehouse hk

theorem node?_touch_rehouse (s : Site) (key : Nat) :
    ((s.rehouse ρ k).locals.touch .nodes).node? key =
      ((s.locals.touch .nodes).node? key).map ρ := by
  simp only [rehouse, Locals.touch_rehouse _ hk, Locals.node?_rehouse]

theorem touch_rehouse (s : Site) :
    { s.rehouse ρ k with locals := (s.rehouse ρ k).locals.touch .nodes } =
      ({ s with locals := s.locals.touch .nodes } : Site).rehouse ρ k := by
  simp only [rehouse, Locals.touch_rehouse _ hk]

end Site

/-! ### Turns -/

section Turns

theorem beginRead_rehouse (place : Access → Pc) {place' : Access → Pc}
    (hplace : ∀ a, place' a = (place a).rehouse ρ) (s : Site) :
    beginRead sc place' (s.rehouse ρ k) = rehouseStep ρ k (beginRead sc place s) := by
  simp only [beginRead, hplace]
  change (if s.lock.registry.canRead then _ else _) = _
  split <;> rfl

theorem awaitReaders_rehouse (place : Edit → Pc) {place' : Edit → Pc}
    (hplace : ∀ e, place' e = (place e).rehouse ρ) (s : Site) :
    awaitReaders place' (s.rehouse ρ k) = rehouseStep ρ k (awaitReaders place s) := by
  simp only [awaitReaders, hplace]
  change (if s.lock.registry.readers.isEmpty then _ else _) = _
  split <;> rfl

theorem beginWrite_rehouse (place : Edit → Pc) {place' : Edit → Pc}
    (hplace : ∀ e, place' e = (place e).rehouse ρ) (s : Site) :
    beginWrite sc place' (s.rehouse ρ k) = rehouseStep ρ k (beginWrite sc place s) := by
  simp only [beginWrite, hplace]
  change (if s.lock.registry.canReserve s.lock.host then _ else _) = _
  split
  · exact awaitReaders_rehouse place hplace
      (s.withRegistry (s.lock.registry.beginWrite sc.thread))
  · rfl

theorem notifyWriter_rehouse (place : Notice.Stage → Pc) {place' : Notice.Stage → Pc}
    (hplace : ∀ n, place' n = (place n).rehouse ρ) (s : Site) :
    notifyWriter place' (s.rehouse ρ k) = rehouseStep ρ k (notifyWriter place s) := by
  simp only [notifyWriter, hplace]
  rfl

theorem notifyReaders_rehouse (place : Notice.Stage → Pc) {place' : Notice.Stage → Pc}
    (hplace : ∀ n, place' n = (place n).rehouse ρ) (s : Site) :
    notifyReaders place' (s.rehouse ρ k) = rehouseStep ρ k (notifyReaders place s) := by
  simp only [notifyReaders, hplace]
  rfl

theorem enter_rehouse (s : Site) :
    enter sc (s.rehouse ρ k) = rehouseStep ρ k (enter sc s) := by
  unfold enter
  change (if s.lock.gate.isSome then _ else _) = _
  split <;> rfl

theorem tryEnter_rehouse (s : Site) :
    tryEnter sc (s.rehouse ρ k) = rehouseStep ρ k (tryEnter sc s) := by
  unfold tryEnter
  change (if s.lock.gate.isSome then _ else _) = _
  split <;> rfl

theorem scan_rehouse (w : Writer) (s : Site) :
    scan sc w (s.rehouse ρ k) = rehouseStep ρ k (scan sc w s) := by
  have hread : beginRead sc (.scanning w) (s.rehouse ρ k) =
      rehouseStep ρ k (beginRead sc (.scanning w) s) :=
    beginRead_rehouse (.scanning w) (fun _ => rfl) s
  cases w with
  | hasty =>
    simp only [scan, hread]
    change (if s.lock.registry.canRead then _ else _) = _
    split <;> rfl
  | patient told backoff => exact hread

theorem judge_rehouse (w : Writer) (clear : Bool) (s : Site) :
    judge w clear (s.rehouse ρ k) = rehouseStep ρ k (judge w clear s) := by
  cases w <;> cases clear <;> rfl

theorem releaseUnique_rehouse (s : Site) :
    releaseUnique (s.rehouse ρ k) = rehouseStep ρ k (releaseUnique s) := by
  unfold releaseUnique
  change (if s.lock.claim = .yes then _ else _) = _
  split <;> rfl

theorem handOff_rehouse (hρ : Function.Injective ρ) (why : HandOff) (backoff : Backoff)
    (stage : HandOff.Stage) (s : Site) :
    handOff sc why backoff stage (s.rehouse ρ k) =
      rehouseStep ρ k (handOff sc why backoff stage s) := by
  -- A hand-off carries no flag, so its places stay what they are.
  have hread : ∀ (stage : Access → HandOff.Stage) (b : Backoff) (s : Site),
      beginRead sc (fun a => .handingOff why (stage a) b) (s.rehouse ρ k) =
        rehouseStep ρ k (beginRead sc (fun a => .handingOff why (stage a) b) s) :=
    fun stage b s => beginRead_rehouse (fun a => .handingOff why (stage a) b) (fun _ => rfl) s
  cases stage with
  | begun | snoozing => exact hread .checking backoff s
  | checking a =>
    cases a with
    | wanted => exact hread .checking backoff s
    | inside =>
      simp only [handOff, Site.allClear_rehouse hρ]
      split <;> rfl
  | prodding n =>
    cases n with
    | announced | yielding =>
      exact notifyWriter_rehouse (fun n => .handingOff why (.prodding n) backoff) (fun _ => rfl) s
    | inside woken =>
      simp only [handOff]
      change (if s.lock.claim = .want then _ else _) = _
      split
      · exact hread .rechecking backoff (writerNotified s)
      · rfl
  | rechecking a =>
    cases a with
    | wanted => exact hread .rechecking backoff s
    | inside =>
      simp only [handOff, Site.allClear_rehouse hρ]
      split <;> rfl
  | finished => rfl

section Injective

variable (hρ : Function.Injective ρ) (hk : k.keeps .nodes = true)
include hρ

theorem arrive_rehouse (p : Patience) (f : Flag) (s : Site) :
    arrive p (ρ f) (s.rehouse ρ k) = rehouseStep ρ k (arrive p f s) := by
  cases p with
  | waits | once =>
    simp only [arrive, Site.put_rehouse hρ]
    change (if s.lock.claim = .no then _ else _) = _
    split <;> rfl

theorem recheck_rehouse (f : Flag) (backoff : Backoff) (s : Site) :
    recheck (ρ f) backoff (s.rehouse ρ k) = rehouseStep ρ k (recheck f backoff s) := by
  have hclaim : (s.rehouse ρ k).lock.claim = s.lock.claim := rfl
  simp only [recheck, Site.put_rehouse hρ, hclaim]
  cases s.lock.claim <;> rfl

theorem enterShared_rehouse (f : Flag) (s : Site) :
    enterShared sc (ρ f) (s.rehouse ρ k) = rehouseStep ρ k (enterShared sc f s) := by
  unfold enterShared
  change (if s.lock.gate.isSome then _ else _) = _
  split
  · rfl
  · exact recheck_rehouse hρ f _ (s.gate (some sc.thread))

include hk in
theorem leave_rehouse (answer : Answer) (s : Site) :
    leave sc answer (s.rehouse ρ k) = rehouseStep ρ k (leave sc answer s) := by
  simp only [leave, Site.canUse_rehouse hk, Site.node?_touch_rehouse hk, Site.touch_rehouse hk]
  split
  · cases (s.locals.touch .nodes).node? sc.key with
    | none => rfl
    | some f =>
      simp only [Option.map_some, Site.put_rehouse hρ]
      change (if s.lock.claim = .want then _ else _) =
        rehouseStep ρ k (if s.lock.claim = .want then _ else _)
      split <;> rfl
  · rfl

theorem depart_rehouse (f : Flag) (s : Site) :
    depart sc (ρ f) (s.rehouse ρ k) = rehouseStep ρ k (depart sc f s) := by
  have hraised : (s.rehouse ρ k).flags.isRaised (ρ f) = s.flags.isRaised f :=
    s.flags.isRaised_rehouse hρ _ f
  have hwrite : ∀ (wasUp : Bool) (s : Site),
      beginWrite sc (.departing (ρ f) wasUp) (s.rehouse ρ k) =
        rehouseStep ρ k (beginWrite sc (.departing f wasUp) s) :=
    fun wasUp s => beginWrite_rehouse (.departing f wasUp) (fun _ => rfl) s
  simp only [depart, hraised, Site.put_rehouse hρ, hwrite]
  split <;> rfl

include hk in
/-- Every turn but the first one goes the same way with the flags in other places. -/
theorem resume_rehouse (pc : Pc) (s : Site) :
    resume sc (pc.rehouse ρ) (s.rehouse ρ k) = rehouseStep ρ k (resume sc pc s) := by
  cases pc with
  | entering => exact enter_rehouse s
  | claimed w => exact scan_rehouse w s
  | scanning w a =>
    cases a with
    | wanted => exact beginRead_rehouse (.scanning w) (fun _ => rfl) s
    | inside =>
      simp only [resume, Pc.rehouse, Site.allClear_rehouse hρ]
      exact judge_rehouse w _ (endRead sc s)
  | draining told stage backoff => cases stage <;> rfl
  | acquired answer | refused | released | fastPath | sharedRefused => rfl
  | reopening why n =>
    cases n with
    | announced | yielding => exact notifyReaders_rehouse (.reopening why) (fun _ => rfl) s
    | inside woken => rfl
  | passingOn why n =>
    cases n with
    | announced | yielding => exact notifyWriter_rehouse (.passingOn why) (fun _ => rfl) s
    | inside woken => cases why <;> rfl
  | registering p f e =>
    cases e with
    | wanted => exact beginWrite_rehouse (.registering p f) (fun _ => rfl) s
    | reserved => exact awaitReaders_rehouse (.registering p f) (fun _ => rfl) s
    | inside =>
      simp only [resume, Pc.rehouse, Site.rehouse, State.rehouse, Site.withRegistry,
        Registry.add_rehouse]
      rfl
  | registered p f =>
    simp only [resume, Pc.rehouse]
    rw [← arrive_rehouse hρ]
    simp only [Site.rehouse, Locals.remember_rehouse]
  | contended f =>
    simp only [resume, Pc.rehouse, enterShared_rehouse hρ]
    rfl
  | arriving f => exact enterShared_rehouse hρ f s
  | prodding f backoff n =>
    cases n with
    | announced | yielding => exact notifyWriter_rehouse (.prodding f backoff) (fun _ => rfl) s
    | inside woken => rfl
  | waiting f stage backoff =>
    cases stage with
    | woken =>
      simp only [resume, Pc.rehouse, Site.put_rehouse hρ, recheck_rehouse hρ]
    | announced | parking | parked | snoozing | resumed => rfl
  | leaving answer => exact leave_rehouse hρ hk answer s
  | handingOff why stage backoff => exact handOff_rehouse hρ why backoff stage s
  | counting a =>
    cases a with
    | wanted => exact beginRead_rehouse .counting (fun _ => rfl) s
    | inside =>
      simp only [resume, Pc.rehouse, Site.rehouse, State.rehouse, Registry.rehouse,
        List.length_map]
      rfl
  | departing f wasUp e =>
    cases e with
    | wanted => exact beginWrite_rehouse (.departing f wasUp) (fun _ => rfl) s
    | reserved => exact awaitReaders_rehouse (.departing f wasUp) (fun _ => rfl) s
    | inside =>
      simp only [resume, Pc.rehouse, Site.rehouse, State.rehouse, Site.withRegistry,
        Registry.remove_rehouse hρ]
      rfl
  | departed wasUp => cases wasUp <;> rfl
  | abandoned =>
    simp only [resume, Pc.rehouse]
    change (if s.lock.claim = .want then _ else _) = _
    split <;> rfl

end Injective

theorem count_rehouse (s : Site) : count sc (s.rehouse ρ k) = rehouseStep ρ k (count sc s) :=
  beginRead_rehouse .counting (fun _ => rfl) s

theorem register_rehouse (p : Patience) (f : Flag) (s : Site) :
    register sc p (ρ f) (s.rehouse ρ k) = rehouseStep ρ k (register sc p f s) := by
  have hwrite : beginWrite sc (.registering p (ρ f)) (s.rehouse ρ k) =
      rehouseStep ρ k (beginWrite sc (.registering p f) s) :=
    beginWrite_rehouse (.registering p f) (fun _ => rfl) s
  cases p with
  | waits => exact hwrite
  | once =>
    simp only [register, hwrite]
    change (if s.lock.registry.canWrite then _ else _) = _
    split <;> rfl

/-- A reader that needs no flag goes the same way. -/
theorem acquireShared_rehouse (hρ : Function.Injective ρ) (hk : k.keeps .nodes = true)
    (p : Patience) (s : Site) (hold : s.locals.canUse .nodes = true →
      (s.locals.touch .nodes).node? sc.key ≠ none) :
    acquireShared sc p (s.rehouse ρ k) = rehouseStep ρ k (acquireShared sc p s) := by
  simp only [acquireShared, Site.canUse_rehouse hk, Site.node?_touch_rehouse hk,
    Site.touch_rehouse hk]
  split
  · next huse =>
    obtain ⟨f, hf⟩ := Option.ne_none_iff_exists'.mp (hold huse)
    simp only [hf, Option.map_some]
    exact arrive_rehouse hρ p f _
  · cases p <;> rfl

end Turns

/-! ### What a turn does to the supply -/

/-- What decides where the next flag of a site comes from. -/
def Site.housing (s : Site) : Housing :=
  ⟨s.flags.blocks, s.lock.supply, s.locals.block, s.locals.pair, fun _ => true⟩

theorem Site.rehouse_housing (s : Site) : s.rehouse id s.housing = s := by
  simp [rehouse, housing, State.rehouse, Registry.rehouse, Flags.rehouse, Locals.rehouse]

theorem Pc.rehouse_id (pc : Pc) : pc.rehouse id = pc := by
  cases pc <;> rfl

/-- Between two sites of a turn no flag has been handed out, or this one. -/
inductive Site.Hands (s s' : Site) : Option Flag → Prop
  | none : s'.flags.blocks = s.flags.blocks → s'.locals.stock = s.locals.stock → Hands s s' none
  | some (handed : Supply.Handed) : handed.Draws s.flags s.locals →
      s'.flags.blocks = handed.flags.blocks → s'.locals.stock = handed.locals.stock →
      Hands s s' (some handed.flag)

/-- A turn that goes the same way wherever the next flag comes from hands out none. -/
theorem Site.hands_none_of_eq {step : Step} (h : rehouseStep id s.housing step = step) :
    s.Hands step.state none ∧ step.state.lock.supply = s.lock.supply := by
  have hstate : step.state.rehouse id s.housing = step.state := congrArg Turn.state h
  have hlocals : step.state.locals.stock = s.locals.stock := by
    rw [← hstate]
    rfl
  exact ⟨.none (by rw [← hstate]; rfl) hlocals, by rw [← hstate]; rfl⟩

/-- The flag that has the block with this number to itself. -/
def Flag.apart (block : Nat) : Flag := (Flags.isolated ⟨block, []⟩).1

/-- A turn leaves the supply as it is, hands out this flag or none, and goes the same way with every
flag in a block of its own if the flag that it hands out has its place there. -/
structure Site.Follows (s : Site) (step : Step) (step' : (Flag → Flag) → Nat → Step)
    (drawn : Option Flag) : Prop where
  hands : s.Hands step.state drawn
  supply : step.state.lock.supply = s.lock.supply
  rehoused : ∀ (ρ : Flag → Flag) (b : Nat), Function.Injective ρ →
    (∀ f ∈ drawn, ρ f = Flag.apart b) →
    step' ρ b = rehouseStep ρ (.apart (b + drawn.toList.length)) step

/-- A turn that goes the same way wherever the flags lie. -/
theorem Site.follows_of_rehouse (turn : (Flag → Flag) → Site → Step)
    (h : ∀ (ρ : Flag → Flag) (k : Housing), Function.Injective ρ → k.keeps .nodes = true →
      turn ρ (s.rehouse ρ k) = rehouseStep ρ k (turn id s)) :
    s.Follows (turn id s) (fun ρ b => turn ρ (s.rehouse ρ (.apart b))) none := by
  have hself := h id s.housing Function.injective_id rfl
  rw [s.rehouse_housing, eq_comm] at hself
  obtain ⟨hhands, hsupply⟩ := s.hands_none_of_eq hself
  exact ⟨hhands, hsupply, fun ρ b hρ _ => h ρ (.apart b) hρ rfl⟩

theorem resume_follows (pc : Pc) (s : Site) :
    s.Follows (resume sc pc s)
      (fun ρ b => resume sc (pc.rehouse ρ) (s.rehouse ρ (.apart b))) none := by
  have h : s.Follows (resume sc (pc.rehouse id) s) _ none :=
    Site.follows_of_rehouse (fun ρ => resume sc (pc.rehouse ρ)) fun ρ k hρ hk => by
      rw [pc.rehouse_id, resume_rehouse hρ hk]
  rwa [pc.rehouse_id] at h

theorem depart_follows (f : Flag) (s : Site) :
    s.Follows (depart sc f s) (fun ρ b => depart sc (ρ f) (s.rehouse ρ (.apart b))) none :=
  Site.follows_of_rehouse (fun ρ => depart sc (ρ f)) fun _ _ hρ _ => depart_rehouse hρ f s

theorem count_follows (s : Site) :
    s.Follows (count sc s) (fun ρ b => count sc (s.rehouse ρ (.apart b))) none :=
  Site.follows_of_rehouse (fun _ => count sc) fun _ _ _ _ => count_rehouse s

/-! ### The first turn of an operation -/

/-- The two supplies from which a user of the library chooses. -/
def Supply.isPlain : Supply → Bool
  | .isolated | .packed => true
  | .paired | .listed _ => false

theorem Supply.isOwn_of_isPlain {supply : Supply} (h : supply.isPlain = true) :
    supply.isOwn = true := by
  cases supply <;> first | rfl | cases h

theorem Supply.reports_of_isPlain {supply : Supply} (h : supply.isPlain = true) :
    supply.reports = false := by
  cases supply <;> first | rfl | cases h

/-- A plain supply hands out a flag whatever the thread keeps, and leaves the flags as they are. -/
theorem Supply.allocate_of_isPlain {supply : Supply} (h : supply.isPlain = true) (m : Flags)
    (l : Locals) : ∃ handed, supply.allocate m l = .ok handed ∧ handed.flags.raised = m.raised ∧
      ∀ (ρ : Flag → Flag) (b b' : Nat),
        handed.locals.rehouse ρ (.apart b') = l.rehouse ρ (.apart b) := by
  cases supply with
  | isolated => exact ⟨_, rfl, rfl, fun _ _ _ => rfl⟩
  | packed =>
    refine ⟨_, rfl, ?_⟩
    split
    · have htouch : ∀ (ρ : Flag → Flag) (b : Nat),
          (l.touch .block).rehouse ρ (.apart b) = l.rehouse ρ (.apart b) := by
        intro ρ b
        unfold Locals.touch
        split
        · rfl
        · simp [Locals.rehouse, Housing.apart, Item.isSilent]
      unfold pack
      split
      · split
        · exact ⟨rfl, fun ρ b _ => htouch ρ b⟩
        · exact ⟨rfl, fun ρ b _ => htouch ρ b⟩
      · exact ⟨rfl, fun ρ b _ => htouch ρ b⟩
    · exact ⟨rfl, fun _ _ _ => rfl⟩
  | paired | listed flags => cases h

/-- A reader that needs a flag goes the same way if its flag has its place in a block of its own. -/
theorem acquireShared_draws (hplain : s.lock.supply.isPlain = true)
    (hstocked : s.locals.Stocked s.flags.blocks) (p : Patience)
    (huse : s.locals.canUse .nodes = true) (hnew : (s.locals.touch .nodes).node? sc.key = none) :
    ∃ f, s.Hands (acquireShared sc p s).state (some f) ∧
      (acquireShared sc p s).state.lock.supply = s.lock.supply ∧
      ∀ (ρ : Flag → Flag) (b : Nat), Function.Injective ρ → ρ f = Flag.apart b →
        acquireShared sc p (s.rehouse ρ (.apart b)) =
          rehouseStep ρ (.apart (b + 1)) (acquireShared sc p s) := by
  obtain ⟨handed, halloc, hraised, hlocals⟩ :=
    Supply.allocate_of_isPlain hplain s.flags (s.locals.touch .nodes)
  have hdraws : handed.Draws s.flags s.locals := by
    obtain ⟨grows, below, origin, stock, stocked⟩ := Supply.allocate_draws
      (Supply.isOwn_of_isPlain hplain) halloc ⟨by simpa using hstocked.nodup,
        by simpa using hstocked.below⟩
    rw [Locals.stock_touch] at origin stock
    exact ⟨grows, below, origin, stock, stocked⟩
  -- The turn registers the flag at the site at which it has been handed out.
  let s' : Site := ⟨s.lock, handed.flags, handed.locals⟩
  have hturn : acquireShared sc p s = register sc p handed.flag s' := by
    simp only [acquireShared, huse, hnew, halloc, Supply.reports_of_isPlain hplain]
    rfl
  have hkeeps : s'.Hands (register sc p handed.flag s').state none ∧
      (register sc p handed.flag s').state.lock.supply = s'.lock.supply := by
    refine s'.hands_none_of_eq ?_
    have h : register sc p (id handed.flag) (s'.rehouse id s'.housing) = _ :=
      register_rehouse p handed.flag s'
    rwa [id, s'.rehouse_housing, eq_comm] at h
  obtain ⟨⟨hblocks, hstock⟩, hsupply⟩ := hkeeps
  refine ⟨handed.flag, ?_, ?_, fun ρ b hρ hf => ?_⟩
  · rw [hturn]
    exact .some handed hdraws hblocks hstock
  · rw [hturn]
    exact hsupply
  · have hk : (Housing.apart b).keeps .nodes = true := rfl
    rw [hturn, ← register_rehouse, hf]
    simp only [acquireShared, Site.canUse_rehouse hk, Site.node?_touch_rehouse hk, huse, hnew]
    change register sc p (Flag.apart b) ⟨_, ⟨b + 1, s.flags.raised.map ρ⟩,
      (s.locals.rehouse ρ (.apart b)).touch .nodes⟩ = _
    simp only [Site.rehouse, Flags.rehouse, s', hraised, hlocals ρ b (b + 1),
      Locals.touch_rehouse _ hk]
    rfl

/-- A reader goes the same way, whether it needs a flag or not. -/
theorem acquireShared_follows (hplain : s.lock.supply.isPlain = true)
    (hstocked : s.locals.Stocked s.flags.blocks) (p : Patience) :
    ∃ drawn, s.Follows (acquireShared sc p s)
      (fun ρ b => acquireShared sc p (s.rehouse ρ (.apart b))) drawn := by
  by_cases hnew : s.locals.canUse .nodes = true ∧ (s.locals.touch .nodes).node? sc.key = none
  · obtain ⟨f, hhands, hsupply, hrehoused⟩ :=
      acquireShared_draws hplain hstocked p hnew.1 hnew.2
    exact ⟨some f, hhands, hsupply, fun ρ b hρ hf => hrehoused ρ b hρ (hf f rfl)⟩
  · refine ⟨none, Site.follows_of_rehouse (fun _ => acquireShared sc p)
      fun ρ k hρ hk => acquireShared_rehouse hρ hk p s ?_⟩
    exact fun huse hnone => hnew ⟨huse, hnone⟩

/-- A release goes the same way, whatever the supply. -/
theorem release_follows (mode : Mode) (s : Site) :
    s.Follows (start sc (.release mode) s)
      (fun ρ b => start sc (.release mode) (s.rehouse ρ (.apart b))) none := by
  cases mode with
  | unique =>
    exact Site.follows_of_rehouse (fun _ => releaseUnique) fun _ _ _ _ =>
      releaseUnique_rehouse s
  | shared =>
    exact Site.follows_of_rehouse (fun _ => start sc (.release .shared))
      fun _ _ _ _ => rfl

/-- The first turn of every operation goes the same way. -/
theorem start_follows (hplain : s.lock.supply.isPlain = true)
    (hstocked : s.locals.Stocked s.flags.blocks) (op : Operation) :
    ∃ drawn, s.Follows (start sc op s) (fun ρ b => start sc op (s.rehouse ρ (.apart b))) drawn := by
  rcases op with (_ | _) | (_ | _) | mode
  · exact ⟨none, Site.follows_of_rehouse (fun _ => enter sc) fun _ _ _ _ =>
      enter_rehouse s⟩
  · exact acquireShared_follows hplain hstocked .waits
  · exact ⟨none, Site.follows_of_rehouse (fun _ => tryEnter sc) fun _ _ _ _ =>
      tryEnter_rehouse s⟩
  · exact acquireShared_follows hplain hstocked .once
  · exact ⟨none, release_follows mode s⟩

end ReadMostly

end ReaderWriter
