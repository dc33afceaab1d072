import ReaderWriter.Proofs.RehousedWorlds

/-!
# Turns in worlds with their flags in other places

A call, and the end of a thread, is a row of operations with something done in between that has to
do with no flag. So with every flag in a block of its own it goes the same way as well.

* `World.call_follows`, `World.arm_follows`, `World.exit_follows`, `World.turn_follows`: what a
  thread does.
* `World.wake_rehouse`, `World.addLock_rehouse`: what happens to a world besides.
-/

namespace ReaderWriter

open ReadMostly (Flag Pc)

variable {ρ : Flag → Flag} {b : Nat} {w : World} {t : ThreadId} {m : Nat}

namespace World

/-! ## Calls -/

theorem sequel_rehouse (w : World) (m : Nat) (task : Task) (answer : Answer) :
    (w.rehouse ρ b).sequel m task answer =
      ((w.sequel m task answer).1.rehouse ρ b, (w.sequel m task answer).2.1.rehouse ρ,
        (w.sequel m task answer).2.2) := by
  unfold sequel
  cases task with
  | answer | guard mode | say r | debug id claim spread => rfl
  | push value =>
    simp only [data_rehouse, withData_rehouse]
    split <;> rfl
  | get =>
    simp only [data_rehouse]
    split <;> rfl
  | retry mode guarded r =>
    have hclock : (w.rehouse ρ b).clock = w.clock := rfl
    simp only [hclock]
    split
    · cases r.decision w.clock with
      | giveUp waited | sleep nanos => rfl
      | backOff yields => cases yields <;> rfl
    · rfl

theorem SameStock.sequel (w : World) (m : Nat) (task : Task) (answer : Answer) :
    w.SameStock (w.sequel m task answer).1 := by
  unfold World.sequel
  cases task with
  | answer | guard mode | say r | debug id claim spread => exact .refl w
  | push value =>
    dsimp only
    split
    · exact .refl w
    · exact .withData w m _
  | get =>
    dsimp only
    split <;> exact .refl w
  | retry mode guarded r =>
    dsimp only
    split
    · cases r.decision w.clock with
      | giveUp waited => exact .refl w
      | sleep nanos => exact ⟨rfl, fun _ => rfl, rfl⟩
      | backOff yields => cases yields <;> exact .refl w
    · exact .refl w

theorem settleLast_rehouse (m : Nat) (r : Reply) (worked : Worked) :
    settleLast m r (worked.rehouse ρ b) = (settleLast m r worked).rehouse ρ b := by
  obtain ⟨w, stand, notes⟩ := worked
  cases stand <;> rfl

theorem settle_rehouse (hρ : Function.Injective ρ) (t : ThreadId) (m : Nat) (task : Task)
    (worked : Worked) :
    settle t m task (worked.rehouse ρ b) = (settle t m task worked).rehouse ρ b := by
  obtain ⟨w, stand, notes⟩ := worked
  cases stand with
  | here p | fault f => rfl
  | done answer =>
    simp only [settle, Worked.rehouse, Stand.move, sequel_rehouse]
    obtain ⟨w', sequel, notes'⟩ := w.sequel m task answer
    cases sequel with
    | reply r | pause task position => rfl
    | release mode r =>
      simp only [Sequel.rehouse]
      rw [(w'.release_follows t m mode).eq hρ]
      exact congrArg (fun last : Called => { last with notes := notes ++ notes' ++ last.notes })
        (settleLast_rehouse m r _)

theorem SameStock.settle (t : ThreadId) (m : Nat) (task : Task) (worked : Worked) :
    worked.world.SameStock (settle t m task worked).world := by
  obtain ⟨w, stand, notes⟩ := worked
  cases stand with
  | here p | fault f => exact .refl w
  | done answer =>
    have h := SameStock.sequel w m task answer
    simp only [World.settle]
    generalize w.sequel m task answer = after at h ⊢
    obtain ⟨w', sequel, notes'⟩ := after
    cases sequel with
    | reply r | pause task position => exact h
    | release mode r => exact h.trans (w'.release_follows t m mode).sameStock

theorem operate_follows (hplain : w.IsPlain)
    (hstocked : (w.thread t).locals.Stocked w.flags.blocks) (m : Nat) (op : Operation)
    (task : Task) :
    ∃ drawn, w.Follows t (w.operate t m op task)
      (fun ρ b => (w.rehouse ρ b).operate t m op task) drawn := by
  obtain ⟨drawn, h⟩ := startOperation_follows hplain hstocked m op
  exact ⟨drawn, h.map (.settle t m task _) fun ρ b hρ => settle_rehouse hρ t m task _⟩

theorem survey_follows {l : Lock} {s : ReadMostly.State} (hl : w.locks[m]? = some l)
    (hs : l.body = .readMostly s) (task : Task) :
    w.Follows t (w.survey t m l s task)
      (fun ρ b => (w.rehouse ρ b).survey t m (l.rehouse ρ) (s.rehouse ρ .isolated) task) none :=
  (workReadMostly_follows (fun _ sc site => ReadMostly.count sc site) hl hs
    (ReadMostly.count_follows _)).map (.settle t m task _)
      fun _ _ hρ => settle_rehouse hρ t m task _

theorem say_follows (w : World) (t : ThreadId) (r : Reply) :
    w.Follows t (w.say r) (fun ρ b => (w.rehouse ρ b).say r) none :=
  .of_eq (.refl w) fun _ _ _ => rfl

theorem onData_follows {l : Lock} {called : Called} {called' : (Flag → Flag) → Nat → Called}
    (h : ∃ drawn, w.Follows t called called' drawn) :
    ∃ drawn, w.Follows t (w.onData l called)
      (fun ρ b => (w.rehouse ρ b).onData (l.rehouse ρ) (called' ρ b)) drawn := by
  obtain ⟨body, observed, data, owned⟩ := l
  cases data with
  | some values => exact h
  | none => exact ⟨none, w.say_follows t _⟩

theorem callDebug_follows {l : Lock} (hl : w.locks[m]? = some l) (spread : Bool) :
    w.Follows t (w.callDebug t m l spread)
      (fun ρ b => (w.rehouse ρ b).callDebug t m (l.rehouse ρ) spread) none := by
  obtain ⟨body, observed, data, owned⟩ := l
  cases body with
  | readMostly s => exact survey_follows hl rfl (.debug s.id s.claim spread)
  | blocking s | polling s => exact w.say_follows t _

/-- The first turn of every call goes the same way. -/
theorem beginCallOn_follows (hplain : w.IsPlain)
    (hstocked : (w.thread t).locals.Stocked w.flags.blocks) {l : Lock} (hl : w.locks[m]? = some l)
    (call : Call) :
    ∃ drawn, w.Follows t (w.beginCallOn t m l call)
      (fun ρ b => (w.rehouse ρ b).beginCallOn t m (l.rehouse ρ) call) drawn := by
  have hop := operate_follows hplain hstocked m
  cases call with
  | operate op => exact hop op .answer
  | guard mode => exact hop (.acquire mode) (.guard mode)
  | tryGuard mode => exact hop (.tryAcquire mode) (.guard mode)
  | giveBack mode => exact hop (.release mode) (.say .nothing)
  | timed mode limit guarded =>
    have hclock : ∀ ρ b, (w.rehouse ρ b).clock = w.clock := fun _ _ => rfl
    simp only [beginCallOn, hclock]
    cases limit.deadline? w.clock with
    | some deadline =>
      exact hop (.tryAcquire mode) (.retry mode guarded (.begin w.clock deadline))
    | none => exact hop (.acquire mode) (.say (.taken mode guarded))
  | push value => exact onData_follows (hop (.acquire .unique) (.push value))
  | tryPush value => exact onData_follows (hop (.tryAcquire .unique) (.push value))
  | get => exact onData_follows (hop (.acquire .shared) .get)
  | tryGet => exact onData_follows (hop (.tryAcquire .shared) .get)
  | isLocked =>
    simp only [beginCallOn, l.isLocked_rehouse]
    exact onData_follows ⟨none, w.say_follows t (.truth l.isLocked)⟩
  | debug spread => exact ⟨none, callDebug_follows hl spread⟩
  | identity =>
    obtain ⟨body, observed, data, owned⟩ := l
    cases body <;> exact ⟨none, w.say_follows t _⟩
  | registered =>
    obtain ⟨body, observed, data, owned⟩ := l
    cases body with
    | readMostly s => exact ⟨none, survey_follows hl rfl .answer⟩
    | blocking s | polling s => exact ⟨none, w.say_follows t _⟩
  | drop =>
    refine ⟨none, .of_eq (.dropLock w m) fun ρ b hρ => ?_⟩
    simp only [beginCallOn, dropLock_rehouse hρ]
    rfl
  | unknown => exact ⟨none, w.say_follows t _⟩

theorem beginCall_follows (hplain : w.IsPlain)
    (hstocked : (w.thread t).locals.Stocked w.flags.blocks) (m : Nat) (call : Call) :
    ∃ drawn, w.Follows t (w.beginCall t m call)
      (fun ρ b => (w.rehouse ρ b).beginCall t m call) drawn := by
  simp only [beginCall, locks_rehouse]
  cases hl : w.locks[m]? with
  | none => exact ⟨none, w.say_follows t _⟩
  | some l => exact beginCallOn_follows hplain hstocked hl call

theorem resumeCall_follows (hplain : w.IsPlain)
    (hstocked : (w.thread t).locals.Stocked w.flags.blocks) (frame : Frame) :
    ∃ drawn, w.Follows t (w.resumeCall t frame)
      (fun ρ b => (w.rehouse ρ b).resumeCall t (frame.rehouse ρ)) drawn := by
  obtain ⟨m, task, position⟩ := frame
  cases position with
  | operating p =>
    exact ⟨none, (w.resumeOperation_follows t m p).map (.settle t m task _)
      fun ρ b hρ => settle_rehouse hρ t m task _⟩
  | spun | yielding | sleeping nanos =>
    cases task with
    | retry mode guarded r => exact operate_follows hplain hstocked m _ _
    | _ => exact ⟨none, w.say_follows t _⟩

/-! ## Endings -/

theorem settleArmed_rehouse (e : Ending) (name : String) (called : Called) :
    settleArmed (e.rehouse ρ) name (called.rehouse ρ b) =
      (settleArmed e name called).rehouse ρ b := by
  obtain ⟨w, outcome, notes⟩ := called
  cases outcome <;> rfl

theorem SameStock.settleArmed (e : Ending) (name : String) (called : Called) :
    called.world.SameStock (settleArmed e name called).world := by
  obtain ⟨w, outcome, notes⟩ := called
  cases outcome <;> exact .refl w

theorem beginArmed_follows (hplain : w.IsPlain)
    (hstocked : (w.thread t).locals.Stocked w.flags.blocks) (e : Ending) (armed : Armed) :
    ∃ drawn, w.Follows t (w.beginArmed t e armed)
      (fun ρ b => (w.rehouse ρ b).beginArmed t (e.rehouse ρ) armed) drawn := by
  simp only [beginArmed, lock?_rehouse]
  cases hl : w.lock? armed.lock with
  | none => exact ⟨none, .of_eq (.refl w) fun _ _ _ => rfl⟩
  | some l =>
    obtain ⟨drawn, h⟩ :=
      beginCallOn_follows hplain hstocked ((lock?_eq_some _ _).mp hl).1 armed.call
    exact ⟨drawn, h.map (k := fun ρ => settleArmed (e.rehouse ρ) armed.name)
      (.settleArmed e armed.name _) fun _ _ _ => settleArmed_rehouse e armed.name _⟩

theorem leftRegistry_rehouse (hρ : Function.Injective ρ) (w : World) (t : ThreadId) (m : Nat)
    (e : Ending) :
    (w.rehouse ρ b).leftRegistry t m (e.rehouse ρ) = (w.leftRegistry t m e).rehouse ρ b := by
  have hworld : (w.rehouse ρ b).withActivity t (.ending { e.rehouse ρ with chore := none }) =
      (w.withActivity t (.ending { e with chore := none })).rehouse ρ b :=
    w.withActivity_rehouse t (.ending { e with chore := none })
  simp only [leftRegistry, hworld, isAlive_rehouse, dissolve_rehouse hρ]
  split <;> rfl

theorem SameStock.leftRegistry (w : World) (t : ThreadId) (m : Nat) (e : Ending) :
    w.SameStock (w.leftRegistry t m e).world := by
  have h := SameStock.withActivity w t (.ending { e with chore := none })
  simp only [World.leftRegistry]
  split
  · exact h
  · exact h.trans (.dissolve _ m)

theorem settleNode_rehouse (hρ : Function.Injective ρ) (t : ThreadId) (m : Nat) (e : Ending)
    (worked : Worked) :
    settleNode t m (e.rehouse ρ) (worked.rehouse ρ b) = (settleNode t m e worked).rehouse ρ b := by
  obtain ⟨w, stand, notes⟩ := worked
  have hleft := w.leftRegistry_rehouse hρ t m e (b := b)
  have hover : (⟨((w.rehouse ρ b).leftRegistry t m (e.rehouse ρ)).world,
      ((w.rehouse ρ b).leftRegistry t m (e.rehouse ρ)).ending,
      notes ++ ((w.rehouse ρ b).leftRegistry t m (e.rehouse ρ)).notes⟩ : Ended) =
      Ended.rehouse ρ b ⟨(w.leftRegistry t m e).world, (w.leftRegistry t m e).ending,
        notes ++ (w.leftRegistry t m e).notes⟩ := by
    rw [hleft]
    rfl
  cases stand with
  | here p =>
    cases p with
    | readMostly pc => rfl
    | blocking pc | polling pc => exact hover
  | done answer | fault f => exact hover

theorem SameStock.settleNode (t : ThreadId) (m : Nat) (e : Ending) (worked : Worked) :
    worked.world.SameStock (settleNode t m e worked).world := by
  obtain ⟨w, stand, notes⟩ := worked
  cases stand with
  | here p =>
    cases p with
    | readMostly pc => exact .refl w
    | blocking pc | polling pc => exact .leftRegistry w t m e
  | done answer | fault f => exact .leftRegistry w t m e

theorem beginNode_follows (w : World) (t : ThreadId) (m : Nat) (f : Flag) (e : Ending) :
    w.Follows t (w.beginNode t m f e)
      (fun ρ b => (w.rehouse ρ b).beginNode t m (ρ f) (e.rehouse ρ)) none := by
  have hgone : w.Follows t (⟨w, some e, []⟩ : Ended)
      (fun ρ b => ⟨w.rehouse ρ b, some (e.rehouse ρ), []⟩) none :=
    .of_eq (.refl w) fun _ _ _ => rfl
  simp only [beginNode, isAlive_rehouse, locks_rehouse]
  split
  · cases hl : w.locks[m]? with
    | none => exact hgone
    | some l =>
      obtain ⟨body, observed, data, owned⟩ := l
      cases body with
      | readMostly s =>
        have h := workReadMostly_follows (t := t)
          (fun ρ sc site => ReadMostly.depart sc (ρ f) site) hl rfl (ReadMostly.depart_follows f _)
        exact h.map (k := fun ρ => settleNode t m (e.rehouse ρ)) (.settleNode t m e _)
          fun _ _ hρ => settleNode_rehouse hρ t m e _
      | blocking s | polling s => exact hgone
  · exact hgone

end World

/-! ### What is torn down -/

namespace ReadMostly.Locals

theorem filter_dropWhile {α : Type} (p : α → Bool) (xs : List α) :
    (xs.dropWhile p).filter (!p ·) = xs.filter (!p ·) := by
  induction xs with
  | nil => rfl
  | cons x xs ih => cases h : p x <;> simp [h, ih]

/-- The next item after which something remains to be done is the same. -/
theorem tearDown?_rehouse (l : Locals) :
    (l.rehouse ρ (.apart b)).tearDown? =
      l.tearDown?.map (Prod.map id (Locals.rehouse ρ (.apart b))) := by
  have hkept := filter_dropWhile Item.isSilent l.inUse
  have hsilent : (l.inUse.takeWhile Item.isSilent).filter (!Item.isSilent ·) = [] :=
    List.filter_eq_nil_iff.mpr fun i hi => by
      simp [List.all_eq_true.mp List.all_takeWhile i hi]
  cases h : l.inUse.dropWhile Item.isSilent with
  | nil =>
    rw [h, List.filter_nil, eq_comm] at hkept
    simp [tearDown?, rehouse, Housing.apart, h, hkept]
  | cons i rest =>
    have hi : Item.isSilent i = false := by
      have hhead := List.head_dropWhile_not Item.isSilent (l := l.inUse) (by simp [h])
      simpa [h] using hhead
    rw [h, List.filter_cons_of_pos (by simp [hi]), eq_comm] at hkept
    simp [tearDown?, rehouse, Housing.apart, h, hkept, hi, hsilent]

theorem stock_tearDown? {l l' : Locals} {i : Item} (h : l.tearDown? = some (i, l')) :
    l'.stock = l.stock := by
  unfold tearDown? at h
  split at h
  · cases h
  · cases h
    rfl

end ReadMostly.Locals

namespace World

theorem tearDown_follows (w : World) (t : ThreadId) (e : Ending) :
    w.Follows t (w.tearDown t e) (fun ρ b => (w.rehouse ρ b).tearDown t (e.rehouse ρ)) none := by
  -- What the thread keeps goes the same way, whatever it does besides.
  have hkeeps : ∀ (th : Thread) (e : Ending), th.locals.stock = (w.thread t).locals.stock →
      w.Follows t (⟨w.withThread t th, some e, []⟩ : Ended)
        (fun ρ b => ⟨(w.rehouse ρ b).withThread t (th.rehouse ρ), some (e.rehouse ρ), []⟩) none :=
    fun th e h => .of_eq (.withThread w t h) fun ρ b _ => by
      rw [withThread_rehouse]
      rfl
  have hnext : ∀ ρ, ((w.thread t).rehouse ρ).locals.tearDown? = _ :=
    fun ρ => (w.thread t).locals.tearDown?_rehouse (ρ := ρ) (b := 0)
  simp only [tearDown, thread_rehouse, hnext]
  cases h : (w.thread t).locals.tearDown? with
  | none => exact .of_eq (.refl w) fun _ _ _ => rfl
  | some torn =>
    obtain ⟨i, locals⟩ := torn
    have hstock := ReadMostly.Locals.stock_tearDown? h
    cases i with
    | nodes =>
      exact hkeeps { w.thread t with locals := { locals with nodes := [] } }
        { e with nodes := locals.nodes } hstock
    | armed =>
      exact hkeeps { w.thread t with locals := locals, armed := [] }
        { e with armed := (w.thread t).armed } hstock
    | block | pair => exact hkeeps { w.thread t with locals := locals } e hstock

/-- The next turn of an ending thread goes the same way. -/
theorem resumeEnding_follows (hplain : w.IsPlain)
    (hstocked : (w.thread t).locals.Stocked w.flags.blocks) (e : Ending) :
    ∃ drawn, w.Follows t (w.resumeEnding t e)
      (fun ρ b => (w.rehouse ρ b).resumeEnding t (e.rehouse ρ)) drawn := by
  obtain ⟨chore, armed, nodes⟩ := e
  cases chore with
  | some chore =>
    cases chore with
    | call name frame =>
      let e : Ending := ⟨some (.call name frame), armed, nodes⟩
      obtain ⟨drawn, h⟩ := resumeCall_follows hplain hstocked frame
      exact ⟨drawn, h.map (k := fun ρ => settleArmed (e.rehouse ρ) name) (.settleArmed e name _)
        fun _ _ _ => settleArmed_rehouse e name _⟩
    | node m pc =>
      let e : Ending := ⟨some (.node m pc), armed, nodes⟩
      exact ⟨none, (w.resumeOperation_follows t m (.readMostly pc)).map
        (k := fun ρ => settleNode t m (e.rehouse ρ)) (.settleNode t m e _)
        fun _ _ hρ => settleNode_rehouse hρ t m e _⟩
  | none =>
    cases nodes with
    | cons node rest => exact ⟨none, w.beginNode_follows t node.1 node.2 ⟨none, armed, rest⟩⟩
    | nil =>
      cases armed with
      | cons armed rest => exact beginArmed_follows hplain hstocked ⟨none, rest, []⟩ armed
      | nil => exact ⟨none, w.tearDown_follows t ⟨none, [], []⟩⟩

/-! ## Turns -/

theorem settleCall_rehouse (t : ThreadId) (called : Called) :
    settleCall t (called.rehouse ρ b) = (settleCall t called).rehouse ρ b := by
  obtain ⟨w, outcome, notes⟩ := called
  cases outcome with
  | going frame =>
    exact congrArg (Moved.mk · none notes) (w.withActivity_rehouse t (.calling frame))
  | replied reply =>
    exact congrArg (Moved.mk · (some (.replied reply)) notes) (w.withActivity_rehouse t .idle)
  | faulted fault =>
    exact congrArg (Moved.mk · (some (.faulted fault)) notes) (w.withActivity_rehouse t .idle)

theorem SameStock.settleCall (t : ThreadId) (called : Called) :
    called.world.SameStock (settleCall t called).world := by
  obtain ⟨w, outcome, notes⟩ := called
  cases outcome <;> exact .withActivity w t _

theorem settleEnding_rehouse (t : ThreadId) (ended : Ended) :
    settleEnding t (ended.rehouse ρ b) = (settleEnding t ended).rehouse ρ b := by
  obtain ⟨w, ending, notes⟩ := ended
  cases ending with
  | some e => exact congrArg (Moved.mk · none notes) (w.withActivity_rehouse t (.ending e))
  | none => exact congrArg (Moved.mk · (some .gone) notes) (w.withActivity_rehouse t .gone)

theorem SameStock.settleEnding (t : ThreadId) (ended : Ended) :
    ended.world.SameStock (settleEnding t ended).world := by
  obtain ⟨w, ending, notes⟩ := ended
  cases ending <;> exact .withActivity w t _

section

variable (hplain : w.IsPlain) (hstocked : (w.thread t).locals.Stocked w.flags.blocks)
include hplain hstocked

theorem call_follows (m : Nat) (call : Call) :
    ∃ drawn, w.Follows t (w.call t m call) (fun ρ b => (w.rehouse ρ b).call t m call) drawn := by
  obtain ⟨drawn, h⟩ := beginCall_follows hplain hstocked m call
  exact ⟨drawn, h.map (.settleCall t _) fun _ _ _ => settleCall_rehouse t _⟩

theorem exit_follows :
    ∃ drawn, w.Follows t (w.exit t) (fun ρ b => (w.rehouse ρ b).exit t) drawn := by
  obtain ⟨drawn, h⟩ := resumeEnding_follows hplain hstocked {}
  exact ⟨drawn, h.map (.settleEnding t _) fun _ _ _ => settleEnding_rehouse t _⟩

/-- The next turn of a thread goes the same way. -/
theorem turn_follows :
    ∃ drawn, w.Follows t (w.turn t) (fun ρ b => (w.rehouse ρ b).turn t) drawn := by
  simp only [turn, thread_rehouse, Thread.rehouse]
  cases (w.thread t).activity with
  | calling frame =>
    obtain ⟨drawn, h⟩ := resumeCall_follows hplain hstocked frame
    exact ⟨drawn, h.map (.settleCall t _) fun _ _ _ => settleCall_rehouse t _⟩
  | ending e =>
    obtain ⟨drawn, h⟩ := resumeEnding_follows hplain hstocked e
    exact ⟨drawn, h.map (.settleEnding t _) fun _ _ _ => settleEnding_rehouse t _⟩
  | idle | gone => exact ⟨none, .of_eq (.refl w) fun _ _ _ => rfl⟩

end

theorem arm_follows (w : World) (t : ThreadId) (armed : Armed) :
    w.Follows t (w.arm t armed) (fun ρ b => (w.rehouse ρ b).arm t armed) none := by
  let th : Thread :=
    { w.thread t with
      locals := (w.thread t).locals.touch .armed
      armed := (w.thread t).armed ++ [armed] }
  have htouch : ∀ ρ, ((w.thread t).rehouse ρ).locals.touch .armed =
      ((w.thread t).locals.touch .armed).rehouse ρ (.apart 0) :=
    fun ρ => (w.thread t).locals.touch_rehouse rfl
  have hstock : w.SameStock (w.withThread t th) := .withThread w t (by simp [th])
  refine .of_eq hstock fun ρ b _ => ?_
  simp only [arm, thread_rehouse, htouch]
  exact congrArg (Moved.mk · _ []) (w.withThread_rehouse t th)

/-! ## Other events -/

theorem wakeIn_rehouse (t : ThreadId) (l : Lock) :
    wakeIn t (l.rehouse ρ) = (wakeIn t l).rehouse ρ := by
  obtain ⟨body, observed, data, owned⟩ := l
  cases body <;> rfl

theorem wake_rehouse (w : World) (t : ThreadId) :
    (w.rehouse ρ b).wake t = (w.wake t).rehouse ρ b := by
  simp only [wake, obstacle_rehouse]
  split
  · simp [rehouse, wakeIn_rehouse]
  · rfl

theorem SameStock.wake (w : World) (t : ThreadId) : w.SameStock (w.wake t) := by
  have hplain : ∀ l : Lock, (wakeIn t l).isPlain = l.isPlain := by
    rintro ⟨body, observed, data, owned⟩
    cases body <;> rfl
  unfold World.wake
  split
  · exact ⟨rfl, fun _ => rfl, by simp [hplain]⟩
  · exact .refl w

end World

end ReaderWriter
