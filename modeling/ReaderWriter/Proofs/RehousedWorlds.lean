import ReaderWriter.Proofs.ReadMostly.Housing
import ReaderWriter.Schedule

/-!
# Worlds with their flags in other places

A world can be told with every flag in a block of its own, and every read-mostly lock with the
supply that hands out such flags. An operation goes the same way there; if it hands out a flag, then
provided that this flag has its place where the next flag of the other world lies.

* `World.rehouse`: the world told so.
* `World.obstacle_rehouse`, `World.place_rehouse`: its threads stand at the same places.
* `World.Follows`: something that a thread does goes the same way.
* `World.startOperation_follows`, `World.resumeOperation_follows`: the turns of operations do.
-/

namespace ReaderWriter

open ReadMostly (Flag Housing Pc Site Supply rehouseStep)

/-! ## Worlds told otherwise -/

/-- The table of other values. -/
def Table.map {α : Type} (f : α → α) (table : Table α) : Table α := ⟨table.entries.map f⟩

namespace Table

variable {α : Type} [Inhabited α] {f : α → α}

theorem get_map (hf : f default = default) (table : Table α) (t : ThreadId) :
    (table.map f).get t = f (table.get t) := by
  simp only [get, map, List.getElem?_map]
  cases table.entries[t]? with
  | none => exact hf.symm
  | some a => rfl

theorem set_map (hf : f default = default) (table : Table α) (t : ThreadId) (a : α) :
    (table.map f).set t (f a) = (table.set t a).map f := by
  have h : ∀ (entries : List α) (t : Nat),
      overwrite (f a) (entries.map f) t = (overwrite a entries t).map f := by
    intro entries t
    fun_induction overwrite a entries t with
    | case1 => rfl
    | case2 t ih => simpa [overwrite, hf] using ih
    | case3 => rfl
    | case4 first rest t ih => simpa [overwrite] using ih
  exact congrArg Table.mk (h table.entries t)

end Table

section Rehouse

variable (ρ : Flag → Flag) (b : Nat)

def Progress.rehouse : Progress → Progress
  | .readMostly pc => .readMostly (pc.rehouse ρ)
  | p => p

def Position.rehouse : Position → Position
  | .operating p => .operating (p.rehouse ρ)
  | position => position

def Frame.rehouse (frame : Frame) : Frame := { frame with position := frame.position.rehouse ρ }

def Chore.rehouse : Chore → Chore
  | .call name frame => .call name (frame.rehouse ρ)
  | .node m pc => .node m (pc.rehouse ρ)

def Ending.rehouse (e : Ending) : Ending :=
  { e with chore := e.chore.map (Chore.rehouse ρ), nodes := e.nodes.map (Prod.map id ρ) }

def Activity.rehouse : Activity → Activity
  | .calling frame => .calling (frame.rehouse ρ)
  | .ending e => .ending (e.rehouse ρ)
  | activity => activity

def Thread.rehouse (th : Thread) : Thread :=
  { activity := th.activity.rehouse ρ
    locals := th.locals.rehouse ρ (.apart 0)
    armed := th.armed }

def Body.rehouse : Body → Body
  | .readMostly s => .readMostly (s.rehouse ρ .isolated)
  | body => body

def Lock.rehouse (l : Lock) : Lock := { l with body := l.body.rehouse ρ }

/-- The world with every flag in a block of its own. -/
def World.rehouse (w : World) : World where
  host := w.host
  clock := w.clock
  locks := w.locks.map (Lock.rehouse ρ)
  flags := w.flags.rehouse ρ b
  threads := w.threads.map (Thread.rehouse ρ)

def Worked.rehouse (worked : Worked) : Worked :=
  ⟨worked.world.rehouse ρ b, worked.stand.move (Progress.rehouse ρ), worked.notes⟩

def Outcome.rehouse : Outcome → Outcome
  | .going frame => .going (frame.rehouse ρ)
  | outcome => outcome

def Called.rehouse (called : Called) : Called :=
  ⟨called.world.rehouse ρ b, called.outcome.rehouse ρ, called.notes⟩

def Sequel.rehouse : Sequel → Sequel
  | .pause task position => .pause task (position.rehouse ρ)
  | sequel => sequel

def Ended.rehouse (ended : Ended) : Ended :=
  ⟨ended.world.rehouse ρ b, ended.ending.map (Ending.rehouse ρ), ended.notes⟩

def Moved.rehouse (moved : Moved) : Moved :=
  ⟨moved.world.rehouse ρ b, moved.finish, moved.notes⟩

end Rehouse

variable {ρ : Flag → Flag} {b : Nat} {w : World} {t : ThreadId} {m : Nat}

/-! ## What is looked at -/

namespace World

theorem thread_rehouse (w : World) (u : ThreadId) :
    (w.rehouse ρ b).thread u = (w.thread u).rehouse ρ :=
  Table.get_map rfl w.threads u

theorem withThread_rehouse (w : World) (u : ThreadId) (th : Thread) :
    (w.rehouse ρ b).withThread u (th.rehouse ρ) = (w.withThread u th).rehouse ρ b := by
  simp only [withThread, rehouse]
  rw [Table.set_map rfl]

theorem withActivity_rehouse (w : World) (u : ThreadId) (a : Activity) :
    (w.rehouse ρ b).withActivity u (a.rehouse ρ) = (w.withActivity u a).rehouse ρ b := by
  unfold withActivity
  rw [thread_rehouse]
  exact w.withThread_rehouse u { w.thread u with activity := a }

theorem withLock_rehouse (w : World) (m : Nat) (l : Lock) :
    (w.rehouse ρ b).withLock m (l.rehouse ρ) = (w.withLock m l).rehouse ρ b := by
  simp only [withLock, rehouse, List.map_set]

theorem locks_rehouse (w : World) (m : Nat) :
    (w.rehouse ρ b).locks[m]? = w.locks[m]?.map (Lock.rehouse ρ) :=
  List.getElem?_map

theorem lock?_rehouse (w : World) (m : Nat) :
    (w.rehouse ρ b).lock? m = (w.lock? m).map (Lock.rehouse ρ) := by
  simp only [lock?, locks_rehouse]
  cases w.locks[m]? with
  | none => rfl
  | some l =>
    simp only [Option.map_some, Option.filter_some]
    change (if l.owned = true then _ else _) = _
    split <;> rfl

theorem departingFrom?_rehouse (th : Thread) :
    (th.rehouse ρ).departingFrom? = th.departingFrom? := by
  obtain ⟨activity, locals, armed⟩ := th
  cases activity with
  | ending e =>
    obtain ⟨chore, armed', nodes⟩ := e
    cases chore with
    | none => rfl
    | some chore => cases chore <;> rfl
  | idle | calling frame | gone => rfl

theorem frame?_rehouse (th : Thread) : (th.rehouse ρ).frame? = th.frame?.map (Frame.rehouse ρ) := by
  obtain ⟨activity, locals, armed⟩ := th
  cases activity with
  | ending e =>
    obtain ⟨chore, armed', nodes⟩ := e
    cases chore with
    | none => rfl
    | some chore => cases chore <;> rfl
  | idle | calling frame | gone => rfl

theorem hasDeparting_rehouse (w : World) (m : Nat) :
    (w.rehouse ρ b).hasDeparting m = w.hasDeparting m := by
  simp [hasDeparting, rehouse, Table.map, Function.comp_def, departingFrom?_rehouse]

theorem isInUse_rehouse (w : World) (m : Nat) : (w.rehouse ρ b).isInUse m = w.isInUse m := by
  simp only [isInUse, rehouse, Table.map, List.any_map, Function.comp_def, frame?_rehouse]
  congr 1
  funext th
  cases th.frame? <;> rfl

theorem isAlive_rehouse (w : World) : (w.rehouse ρ b).isAlive = w.isAlive := by
  funext m
  simp [isAlive, lock?_rehouse, hasDeparting_rehouse]

theorem data_rehouse (w : World) (m : Nat) : (w.rehouse ρ b).data m = w.data m := by
  simp only [data, locks_rehouse]
  cases w.locks[m]? <;> rfl

theorem withData_rehouse (w : World) (m : Nat) (values : List Int) :
    (w.rehouse ρ b).withData m values = (w.withData m values).rehouse ρ b := by
  simp only [withData, locks_rehouse]
  cases w.locks[m]? with
  | none => rfl
  | some l => exact w.withLock_rehouse m { l with data := some values }

end World

theorem Lock.isReadMostly_rehouse (l : Lock) : (l.rehouse ρ).isReadMostly = l.isReadMostly := by
  obtain ⟨body, observed, data, owned⟩ := l
  cases body <;> rfl

theorem Lock.config_rehouse (l : Lock) : (l.rehouse ρ).config = l.config := by
  obtain ⟨body, observed, data, owned⟩ := l
  cases body <;> rfl

theorem Lock.isLocked_rehouse (l : Lock) : (l.rehouse ρ).isLocked = l.isLocked := by
  obtain ⟨body, observed, data, owned⟩ := l
  cases body <;> rfl

theorem ReadMostly.Pc.place_rehouse (pc : Pc) : (pc.rehouse ρ).place = pc.place := by
  cases pc <;> rfl

theorem Progress.place_rehouse (p : Progress) : (p.rehouse ρ).place = p.place := by
  cases p with
  | readMostly pc => exact pc.place_rehouse
  | blocking pc | polling pc => rfl

theorem ReadMostly.obstacle_rehouse (s : ReadMostly.State) (supply : Supply) (pc : Pc) :
    ReadMostly.obstacle t (s.rehouse ρ supply) (pc.rehouse ρ) = ReadMostly.obstacle t s pc := by
  cases pc with
  | handingOff why stage backoff => cases stage <;> rfl
  | _ => rfl

namespace World

theorem operationObstacle_rehouse (w : World) (m : Nat) (p : Progress) :
    (w.rehouse ρ b).operationObstacle t m (p.rehouse ρ) = w.operationObstacle t m p := by
  simp only [operationObstacle, locks_rehouse]
  cases w.locks[m]? with
  | none => rfl
  | some l =>
    obtain ⟨body, observed, data, owned⟩ := l
    cases body with
    | readMostly s =>
      cases p with
      | readMostly pc => exact ReadMostly.obstacle_rehouse s .isolated pc
      | blocking pc | polling pc => rfl
    | blocking s | polling s => cases p <;> rfl

theorem operationPlace_rehouse (w : World) (m : Nat) (p : Progress) :
    (w.rehouse ρ b).operationPlace m (p.rehouse ρ) = w.operationPlace m p := by
  simp only [operationPlace, locks_rehouse, p.place_rehouse]
  cases w.locks[m]? <;> rfl

theorem callObstacle_rehouse (w : World) (frame : Frame) :
    (w.rehouse ρ b).callObstacle t (frame.rehouse ρ) = w.callObstacle t frame := by
  obtain ⟨m, task, position⟩ := frame
  cases position with
  | operating p => exact w.operationObstacle_rehouse m p
  | spun | yielding | sleeping nanos => rfl

theorem callPlace_rehouse (w : World) (frame : Frame) :
    (w.rehouse ρ b).callPlace (frame.rehouse ρ) = w.callPlace frame := by
  obtain ⟨m, task, position⟩ := frame
  cases position with
  | operating p => exact w.operationPlace_rehouse m p
  | spun | yielding | sleeping nanos => rfl

theorem endingObstacle_rehouse (w : World) (e : Ending) :
    (w.rehouse ρ b).endingObstacle t (e.rehouse ρ) = w.endingObstacle t e := by
  obtain ⟨chore, armed, nodes⟩ := e
  cases chore with
  | none => rfl
  | some chore =>
    cases chore with
    | call name frame => exact w.callObstacle_rehouse frame
    | node m pc => exact w.operationObstacle_rehouse m (.readMostly pc)

theorem endingPlace_rehouse (w : World) (e : Ending) :
    (w.rehouse ρ b).endingPlace (e.rehouse ρ) = w.endingPlace e := by
  obtain ⟨chore, armed, nodes⟩ := e
  cases chore with
  | none => rfl
  | some chore =>
    cases chore with
    | call name frame => exact w.callPlace_rehouse frame
    | node m pc => exact w.operationPlace_rehouse m (.readMostly pc)

/-- What keeps a thread from its next turn is the same. -/
theorem obstacle_rehouse (w : World) (t : ThreadId) :
    (w.rehouse ρ b).obstacle t = w.obstacle t := by
  simp only [obstacle, thread_rehouse]
  generalize w.thread t = th
  obtain ⟨activity, locals, armed⟩ := th
  cases activity with
  | calling frame => exact w.callObstacle_rehouse frame
  | ending e => exact w.endingObstacle_rehouse e
  | idle | gone => rfl

/-- A thread is seen at the same place. -/
theorem place_rehouse (w : World) (t : ThreadId) : (w.rehouse ρ b).place t = w.place t := by
  simp only [place, thread_rehouse]
  generalize w.thread t = th
  obtain ⟨activity, locals, armed⟩ := th
  cases activity with
  | calling frame => exact w.callPlace_rehouse frame
  | ending e => exact w.endingPlace_rehouse e
  | idle | gone => rfl

end World

/-! ## What is handed out -/

/-- The lock has one of the plain supplies, if it needs any. -/
def Lock.isPlain (l : Lock) : Bool :=
  match l.body with
  | .readMostly s => s.supply.isPlain
  | .blocking _ | .polling _ => true

namespace World

/-- Between two worlds nothing has been handed out, and no supply has changed. -/
structure SameStock (w w' : World) : Prop where
  blocks : w'.flags.blocks = w.flags.blocks
  stock : ∀ u, (w'.thread u).locals.stock = (w.thread u).locals.stock
  plain : w'.locks.map Lock.isPlain = w.locks.map Lock.isPlain

/-- Between two worlds a thread has been handed out no flag, or this one. -/
inductive Hands (w w' : World) (t : ThreadId) : Option Flag → Prop
  | none : w.SameStock w' → Hands w w' t none
  | some (handed : Supply.Handed) : handed.Draws w.flags (w.thread t).locals →
      w'.flags.blocks = handed.flags.blocks →
      (w'.thread t).locals.stock = handed.locals.stock →
      (∀ u, u ≠ t → (w'.thread u).locals.stock = (w.thread u).locals.stock) →
      w'.locks.map Lock.isPlain = w.locks.map Lock.isPlain → Hands w w' t (some handed.flag)

namespace SameStock

variable {w' w'' : World}

theorem refl (w : World) : w.SameStock w := ⟨rfl, fun _ => rfl, rfl⟩

theorem trans (h : w.SameStock w') (h' : w'.SameStock w'') : w.SameStock w'' :=
  ⟨h'.blocks.trans h.blocks, fun u => (h'.stock u).trans (h.stock u), h'.plain.trans h.plain⟩

theorem withThread (w : World) (t : ThreadId) {th : Thread}
    (h : th.locals.stock = (w.thread t).locals.stock) : w.SameStock (w.withThread t th) := by
  refine ⟨rfl, fun u => ?_, rfl⟩
  by_cases hu : u = t
  · subst hu
    rw [thread_withThread_self, h]
  · rw [thread_withThread_of_ne _ _ hu]

theorem withActivity (w : World) (t : ThreadId) (a : Activity) :
    w.SameStock (w.withActivity t a) :=
  .withThread w t rfl

theorem withLock {l l' : Lock} (hl : w.locks[m]? = some l) (h : l'.isPlain = l.isPlain) :
    w.SameStock (w.withLock m l') := by
  refine ⟨rfl, fun _ => rfl, ?_⟩
  rw [World.withLock, List.map_set, h, ← List.map_set]
  congr 1
  exact List.ext_getElem? fun n => by
    by_cases hn : m = n
    · subst hn
      rw [List.getElem?_set_self (List.getElem?_eq_some_iff.mp hl).1, hl]
    · rw [List.getElem?_set_ne hn]

theorem withData (w : World) (m : Nat) (values : List Int) :
    w.SameStock (w.withData m values) := by
  unfold World.withData
  split
  · next l hl => exact .withLock hl rfl
  · exact .refl w

end SameStock

/-- What is handed out is what has been handed out by then. -/
theorem Hands.trans {w' w'' : World} {drawn : Option Flag} (h : w.Hands w' t drawn)
    (h' : w'.SameStock w'') : w.Hands w'' t drawn := by
  cases h with
  | none h => exact .none (h.trans h')
  | some handed hdraws hblocks hself hothers hplain =>
    exact .some handed hdraws (h'.blocks.trans hblocks) ((h'.stock t).trans hself)
      (fun u hu => (h'.stock u).trans (hothers u hu)) (h'.plain.trans hplain)

end World

/-- A result that leaves a world behind and can be told with every flag in a block of its own. -/
class LeavesWorld (X : Type) where
  world : X → World
  rehouse : (Flag → Flag) → Nat → X → X

instance : LeavesWorld Worked := ⟨Worked.world, Worked.rehouse⟩

instance : LeavesWorld Called := ⟨Called.world, Called.rehouse⟩

instance : LeavesWorld Ended := ⟨Ended.world, Ended.rehouse⟩

instance : LeavesWorld Moved := ⟨Moved.world, Moved.rehouse⟩

/-- What a thread does hands out this flag or none, and goes the same way with every flag in a block
of its own if the flag that is handed out has its place there. -/
structure World.Follows {X : Type} [LeavesWorld X] (w : World) (t : ThreadId) (x : X)
    (x' : (Flag → Flag) → Nat → X) (drawn : Option Flag) : Prop where
  hands : w.Hands (LeavesWorld.world x) t drawn
  rehoused : ∀ (ρ : Flag → Flag) (b : Nat), Function.Injective ρ →
    (∀ f ∈ drawn, ρ f = Flag.apart b) →
    x' ρ b = LeavesWorld.rehouse ρ (b + drawn.toList.length) x

namespace World.Follows

variable {X Y : Type} [LeavesWorld X] [LeavesWorld Y] {x : X} {x' : (Flag → Flag) → Nat → X}
  {drawn : Option Flag}

theorem sameStock (h : w.Follows t x x' none) : w.SameStock (LeavesWorld.world x) := by
  obtain ⟨h⟩ := h.hands
  exact h

theorem eq (h : w.Follows t x x' none) (hρ : Function.Injective ρ) :
    x' ρ b = LeavesWorld.rehouse ρ b x :=
  h.rehoused ρ b hρ nofun

theorem of_eq (hstock : w.SameStock (LeavesWorld.world x))
    (h : ∀ (ρ : Flag → Flag) (b : Nat), Function.Injective ρ → x' ρ b = LeavesWorld.rehouse ρ b x) :
    w.Follows t x x' none :=
  ⟨.none hstock, fun ρ b hρ _ => h ρ b hρ⟩

/-- What follows upon something that goes the same way goes the same way. -/
theorem map (h : w.Follows t x x' drawn) {g : X → Y} {k : (Flag → Flag) → X → Y}
    (hstock : (LeavesWorld.world x).SameStock (LeavesWorld.world (g x)))
    (hg : ∀ (ρ : Flag → Flag) (b : Nat), Function.Injective ρ →
      k ρ (LeavesWorld.rehouse ρ b x) = LeavesWorld.rehouse ρ b (g x)) :
    w.Follows t (g x) (fun ρ b => k ρ (x' ρ b)) drawn :=
  ⟨h.hands.trans hstock, fun ρ b hρ hf => by rw [h.rehoused ρ b hρ hf, hg ρ _ hρ]⟩

end World.Follows

/-! ## Operations -/

namespace World

/-- The world after a turn on a read-mostly lock. -/
theorem hands_of_site {l : Lock} {s : ReadMostly.State} {site : Site} {drawn : Option Flag}
    (hl : w.locks[m]? = some l) (hs : l.body = .readMostly s)
    (h : Site.Hands ⟨s, w.flags, (w.thread t).locals⟩ site drawn)
    (hsupply : site.lock.supply = s.supply) :
    w.Hands { (w.withLock m { l with body := .readMostly site.lock }).withThread t
      { w.thread t with locals := site.locals } with flags := site.flags } t drawn := by
  let th : Thread := { w.thread t with locals := site.locals }
  let w' : World := (w.withLock m { l with body := .readMostly site.lock }).withThread t th
  have hplain : w'.locks.map Lock.isPlain = w.locks.map Lock.isPlain :=
    (SameStock.withLock hl (by simp only [Lock.isPlain, hs, hsupply])).plain
  have hself : w'.thread t = th := thread_withThread_self _ _ _
  have hothers : ∀ u, u ≠ t → w'.thread u = w.thread u :=
    fun u hu => thread_withThread_of_ne _ _ hu
  cases h with
  | none hblocks hstock =>
    refine .none ⟨hblocks, fun u => ?_, hplain⟩
    by_cases hu : u = t
    · rw [hu]
      exact (congrArg (·.locals.stock) hself).trans hstock
    · exact congrArg (·.locals.stock) (hothers u hu)
  | some handed hdraws hblocks hstock =>
    exact .some handed hdraws hblocks ((congrArg (·.locals.stock) hself).trans hstock)
      (fun u hu => congrArg (·.locals.stock) (hothers u hu)) hplain

theorem workReadMostly_rehouse {turn turn' : ReadMostly.Scene → Site → ReadMostly.Step} {b' : Nat}
    (l : Lock) (s : ReadMostly.State)
    (h : turn' ⟨t, m, w.isAlive⟩ (Site.rehouse ρ (.apart b) ⟨s, w.flags, (w.thread t).locals⟩) =
      rehouseStep ρ (.apart b') (turn ⟨t, m, w.isAlive⟩ ⟨s, w.flags, (w.thread t).locals⟩)) :
    (w.rehouse ρ b).workReadMostly t m (l.rehouse ρ) (s.rehouse ρ .isolated) turn' =
      (w.workReadMostly t m l s turn).rehouse ρ b' := by
  have hsite : (⟨s.rehouse ρ .isolated, (w.rehouse ρ b).flags,
      ((w.thread t).rehouse ρ).locals⟩ : Site) =
      Site.rehouse ρ (.apart b) ⟨s, w.flags, (w.thread t).locals⟩ := rfl
  unfold workReadMostly
  simp only [thread_rehouse, isAlive_rehouse, hsite, h]
  generalize turn ⟨t, m, w.isAlive⟩ ⟨s, w.flags, (w.thread t).locals⟩ = step
  let th : Thread := { w.thread t with locals := step.state.locals }
  let l' : Lock := { l with body := .readMostly step.state.lock }
  have hworld : ((w.rehouse ρ b).withLock m (l'.rehouse ρ)).withThread t (th.rehouse ρ) =
      ((w.withLock m l').withThread t th).rehouse ρ b := by
    rw [withLock_rehouse, withThread_rehouse]
  have hstand : (step.stand.move (Pc.rehouse ρ)).lift Progress.readMostly =
      (step.stand.lift .readMostly).move (Progress.rehouse ρ) := by
    cases step.stand <;> rfl
  simp only [Worked.rehouse, rehouseStep, hstand]
  exact congrArg (fun w : World => Worked.mk { w with flags := step.state.flags.rehouse ρ b' } _ _)
    hworld

/-- A turn on a read-mostly lock goes the same way as the lock's own. -/
theorem workReadMostly_follows {l : Lock} {s : ReadMostly.State} {drawn : Option Flag}
    (turn : (Flag → Flag) → ReadMostly.Scene → Site → ReadMostly.Step)
    (hl : w.locks[m]? = some l) (hs : l.body = .readMostly s)
    (h : Site.Follows ⟨s, w.flags, (w.thread t).locals⟩
      (turn id ⟨t, m, w.isAlive⟩ ⟨s, w.flags, (w.thread t).locals⟩)
      (fun ρ b => turn ρ ⟨t, m, w.isAlive⟩
        (Site.rehouse ρ (.apart b) ⟨s, w.flags, (w.thread t).locals⟩)) drawn) :
    w.Follows t (w.workReadMostly t m l s (turn id))
      (fun ρ b => (w.rehouse ρ b).workReadMostly t m (l.rehouse ρ) (s.rehouse ρ .isolated)
        (turn ρ)) drawn :=
  ⟨hands_of_site hl hs h.hands h.supply, fun ρ b hρ hf =>
    workReadMostly_rehouse l s (h.rehoused ρ b hρ hf)⟩

/-- A turn on a lock that has no flags goes the same way. -/
theorem withBody_follows {l : Lock} {body : Body} {stand : Stand Progress} (notes : List Note)
    (hl : w.locks[m]? = some l) (hplain : Lock.isPlain { l with body := body } = l.isPlain)
    (hbody : ∀ ρ, body.rehouse ρ = body) (hstand : ∀ ρ, stand.move (Progress.rehouse ρ) = stand) :
    w.Follows t (Worked.mk (w.withLock m { l with body := body }) stand notes)
      (fun ρ b => ⟨(w.rehouse ρ b).withLock m { l.rehouse ρ with body := body }, stand, notes⟩)
      none :=
  .of_eq (.withLock hl hplain) fun ρ b _ => by
    change Worked.mk _ _ _ = Worked.mk ((w.withLock m { l with body := body }).rehouse ρ b)
      (stand.move (Progress.rehouse ρ)) notes
    have hlock : { l.rehouse ρ with body := body } = Lock.rehouse ρ { l with body := body } := by
      simp only [Lock.rehouse, hbody ρ]
    rw [hstand, hlock, withLock_rehouse]

/-- The world has only plain supplies. -/
def IsPlain (w : World) : Prop := ∀ l ∈ w.locks, l.isPlain = true

theorem startOperation_follows (hplain : w.IsPlain)
    (hstocked : (w.thread t).locals.Stocked w.flags.blocks) (m : Nat) (op : Operation) :
    ∃ drawn, w.Follows t (w.startOperation t m op)
      (fun ρ b => (w.rehouse ρ b).startOperation t m op) drawn := by
  simp only [startOperation, locks_rehouse]
  cases hl : w.locks[m]? with
  | none => exact ⟨none, .of_eq (.refl w) fun _ _ _ => rfl⟩
  | some l =>
    have hl' : l.isPlain = true := hplain l (List.mem_of_getElem? hl)
    obtain ⟨body, observed, data, owned⟩ := l
    cases body with
    | readMostly s =>
      obtain ⟨drawn, h⟩ :=
        ReadMostly.start_follows (s := ⟨s, w.flags, (w.thread t).locals⟩) hl' hstocked op
      exact ⟨drawn, workReadMostly_follows (fun _ sc site => ReadMostly.start sc op site) hl rfl h⟩
    | blocking s =>
      exact ⟨none, withBody_follows _ hl rfl (fun _ => rfl) fun _ => by
        cases (Blocking.start op s).stand <;> rfl⟩
    | polling s =>
      exact ⟨none, withBody_follows _ hl rfl (fun _ => rfl) fun _ => by
        cases (Polling.start op s).stand <;> rfl⟩

/-- A release hands out no flag. -/
theorem release_follows (w : World) (t : ThreadId) (m : Nat) (mode : Mode) :
    w.Follows t (w.startOperation t m (.release mode))
      (fun ρ b => (w.rehouse ρ b).startOperation t m (.release mode)) none := by
  simp only [startOperation, locks_rehouse]
  cases hl : w.locks[m]? with
  | none => exact .of_eq (.refl w) fun _ _ _ => rfl
  | some l =>
    obtain ⟨body, observed, data, owned⟩ := l
    cases body with
    | readMostly s =>
      exact workReadMostly_follows (fun _ sc site => ReadMostly.start sc (.release mode) site)
        hl rfl (ReadMostly.release_follows mode _)
    | blocking s =>
      exact withBody_follows _ hl rfl (fun _ => rfl) fun _ => by
        cases (Blocking.start (.release mode) s).stand <;> rfl
    | polling s =>
      exact withBody_follows _ hl rfl (fun _ => rfl) fun _ => by
        cases (Polling.start (.release mode) s).stand <;> rfl

theorem resumeOperation_follows (w : World) (t : ThreadId) (m : Nat) (p : Progress) :
    w.Follows t (w.resumeOperation t m p)
      (fun ρ b => (w.rehouse ρ b).resumeOperation t m (p.rehouse ρ)) none := by
  have hnowhere : w.Follows t (Worked.mk w (.done .unit) [])
      (fun ρ b => ⟨w.rehouse ρ b, .done .unit, []⟩) none := .of_eq (.refl w) fun _ _ _ => rfl
  simp only [resumeOperation, locks_rehouse]
  cases hl : w.locks[m]? with
  | none => exact hnowhere
  | some l =>
    obtain ⟨body, observed, data, owned⟩ := l
    cases body with
    | readMostly s =>
      cases p with
      | readMostly pc =>
        have h := workReadMostly_follows (t := t)
          (fun ρ sc site => ReadMostly.resume sc (pc.rehouse ρ) site) hl rfl
          (by rw [pc.rehouse_id]; exact ReadMostly.resume_follows pc _)
        rwa [pc.rehouse_id] at h
      | blocking pc | polling pc => exact hnowhere
    | blocking s =>
      cases p with
      | blocking pc =>
        exact withBody_follows _ hl rfl (fun _ => rfl) fun _ => by
          cases (Blocking.resume t pc s).stand <;> rfl
      | readMostly pc | polling pc => exact hnowhere
    | polling s =>
      cases p with
      | polling pc =>
        exact withBody_follows _ hl rfl (fun _ => rfl) fun _ => by
          cases (Polling.resume pc s).stand <;> rfl
      | readMostly pc | blocking pc => exact hnowhere

/-! ## Locks that go -/

theorem dissolve_rehouse (hρ : Function.Injective ρ) (w : World) (m : Nat) :
    (w.rehouse ρ b).dissolve m = ((w.dissolve m).1.rehouse ρ b, (w.dissolve m).2) := by
  simp only [dissolve, locks_rehouse]
  cases w.locks[m]? with
  | none => rfl
  | some l =>
    obtain ⟨body, observed, data, owned⟩ := l
    cases body with
    | readMostly s =>
      simp only [Option.map_some, Lock.rehouse, Body.rehouse, ReadMostly.State.rehouse, rehouse,
        withLock, List.map_set, ReadMostly.Registry.lowerAll_rehouse hρ,
        ReadMostly.Registry.raisedCount_rehouse hρ]
      rfl
    | blocking s | polling s => rfl

theorem SameStock.dissolve (w : World) (m : Nat) : w.SameStock (w.dissolve m).1 := by
  unfold World.dissolve
  split
  · next l hl =>
    split
    · next s hs =>
      have h :
          w.SameStock (w.withLock m { l with body := .readMostly { s with registry := {} } }) :=
        .withLock hl (by simp only [Lock.isPlain, hs])
      exact ⟨s.registry.blocks_lowerAll _, fun _ => rfl, h.plain⟩
    · exact .refl w
    · exact .refl w
  · exact .refl w

theorem dropLock_rehouse (hρ : Function.Injective ρ) (w : World) (m : Nat) :
    (w.rehouse ρ b).dropLock m = ((w.dropLock m).1.rehouse ρ b, (w.dropLock m).2) := by
  simp only [dropLock, locks_rehouse, hasDeparting_rehouse]
  cases w.locks[m]? with
  | none => rfl
  | some l =>
    have hlock : (w.rehouse ρ b).withLock m { l.rehouse ρ with owned := false } =
        (w.withLock m { l with owned := false }).rehouse ρ b :=
      w.withLock_rehouse m { l with owned := false }
    simp only [Option.map_some, hlock, dissolve_rehouse hρ]
    split <;> rfl

theorem SameStock.dropLock (w : World) (m : Nat) : w.SameStock (w.dropLock m).1 := by
  unfold World.dropLock
  split
  · next l hl =>
    have h : w.SameStock (w.withLock m { l with owned := false }) := .withLock hl rfl
    split
    · exact h
    · exact h.trans (.dissolve _ m)
  · exact .refl w

end World

end ReaderWriter
