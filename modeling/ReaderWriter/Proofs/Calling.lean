import ReaderWriter.Proofs.Jobs
import ReaderWriter.Proofs.Runs

/-!
# Calls that take or give up a lock

Every such call performs one operation at a time, and only a timed call performs more than one. So
a turn of a call is a job on its lock, and what the call has come to afterwards is told by where the
job has ended.

* `World.beginCallOn_performs`: a call begins by starting an operation that it performs.
* `World.settle_rests`: what a call has come to after a job.
-/

namespace ReaderWriter

/-- The mode in which the operation gives the lock up. -/
def Operation.releases? : Operation → Option Mode
  | .release mode => some mode
  | .acquire _ | .tryAcquire _ => none

/-- How a call that consists of one operation ends when the operation stands here. -/
def Stand.finish? : Stand Progress → Option Finish
  | .here _ => none
  | .done answer => some (.replied (.ofAnswer answer))
  | .fault f => some (.faulted f)

theorem Stand.eq_fault_of_lift {Pc : Type} {f : Pc → Progress} {stand : Stand Pc} {fault : Fault}
    (h : (stand.lift f).finish? = some (.faulted fault)) : stand = .fault fault := by
  cases stand with
  | here pc | done answer => cases h
  | fault fault' =>
    cases h
    rfl

namespace Call

theorem isLocking_operate (op : Operation) : (operate op).isLocking = true := by
  rcases op with mode | mode | mode <;> rfl

theorem eq_release_of_mem {op : Operation} {mode : Mode} (h : mode ∈ (operate op).releases?) :
    op = .release mode := by
  cases op with
  | acquire | tryAcquire => cases h
  | release mode' =>
    cases h
    rfl

/-- The call performs the operation, and this remains to be done after it. -/
inductive Performs : Call → Operation → Task → Prop
  | operate (op : Operation) : Performs (.operate op) op .answer
  | guard (mode : Mode) : Performs (.guard mode) (.acquire mode) (.guard mode)
  | tryGuard (mode : Mode) : Performs (.tryGuard mode) (.tryAcquire mode) (.guard mode)
  | giveBack (mode : Mode) : Performs (.giveBack mode) (.release mode) (.say .nothing)
  | timed (mode : Mode) (limit : TimeLimit) (guarded : Bool) (r : Retry) :
      Performs (.timed mode limit guarded) (.tryAcquire mode) (.retry mode guarded r)
  | untimed (mode : Mode) (limit : TimeLimit) (guarded : Bool) :
      Performs (.timed mode limit guarded) (.acquire mode) (.say (.taken mode guarded))

/-- What a call for an operation has come to: where the job on lock `m` has ended, what the thread
does then, and how its activity has ended. -/
inductive Rests (c : Call) (op : Operation) (m : Nat) :
    Stand Progress → Activity → Option Finish → Prop
  | here {p : Progress} {task : Task} :
      c.Performs op task → Rests c op m (.here p) (.calling ⟨m, task, .operating p⟩) none
  | replied {answer : Answer} {r : Reply} :
      (r.isRefusal = true ↔ answer = .granted false) →
      Rests c op m (.done answer) .idle (some (.replied r))
  | again {mode : Mode} {limit : TimeLimit} {guarded : Bool} {r : Retry} {position : Position} :
      c = .timed mode limit guarded → op = .tryAcquire mode → (∀ p, position ≠ .operating p) →
      Rests c op m (.done (.granted false)) (.calling ⟨m, .retry mode guarded r, position⟩) none
  | faulted {f : Fault} : Rests c op m (.fault f) .idle (some (.faulted f))

variable {c : Call} {op : Operation} {task : Task}

theorem Performs.acquires?_eq (h : c.Performs op task) : c.acquires? = op.acquires? := by
  cases h with
  | operate op => cases op <;> rfl
  | _ => rfl

theorem Performs.releases?_eq (h : c.Performs op task) : c.releases? = op.releases? := by
  cases h with
  | operate op => cases op <;> rfl
  | _ => rfl

end Call

namespace World

variable {w : World} {t : ThreadId} {m : Nat} {c : Call} {op : Operation} {task : Task}

/-- A call that takes or gives up a lock begins with an operation. -/
theorem beginCallOn_performs (w : World) (t : ThreadId) (m : Nat) (l : Lock)
    (hc : c.isLocking = true) :
    ∃ op task, c.Performs op task ∧
      w.beginCallOn t m l c = settle t m task (w.work t m (.start op)) := by
  cases c with
  | operate op => exact ⟨op, _, .operate op, rfl⟩
  | guard mode => exact ⟨_, _, .guard mode, rfl⟩
  | tryGuard mode => exact ⟨_, _, .tryGuard mode, rfl⟩
  | giveBack mode => exact ⟨_, _, .giveBack mode, rfl⟩
  | timed mode limit guarded =>
    simp only [beginCallOn]
    split
    · exact ⟨_, _, .timed mode limit guarded _, rfl⟩
    · exact ⟨_, _, .untimed mode limit guarded, rfl⟩
  | _ => cases hc

/-! ## What follows an operation -/

theorem sequel_answer (w : World) (m : Nat) (answer : Answer) :
    w.sequel m .answer answer = (w, .reply (.ofAnswer answer), []) :=
  rfl

theorem sequel_guard (w : World) (m : Nat) (mode : Mode) (answer : Answer) :
    w.sequel m (.guard mode) answer = (w, .reply (.guardIf mode answer), []) :=
  rfl

theorem sequel_say (w : World) (m : Nat) (r : Reply) (answer : Answer) :
    w.sequel m (.say r) answer = (w, .reply r, []) :=
  rfl

theorem sequel_retry_granted (w : World) (m : Nat) (mode : Mode) (guarded : Bool) (r : Retry) :
    w.sequel m (.retry mode guarded r) (.granted true) = (w, .reply (.taken mode guarded), []) :=
  rfl

theorem sequel_retry_refused (w : World) (m : Nat) (mode : Mode) (guarded : Bool) (r : Retry) :
    w.sequel m (.retry mode guarded r) (.granted false) =
      match r.decision w.clock with
      | .giveUp waited => (w, .reply (.failed (.timeout waited)), [.expired waited])
      | .sleep nanos =>
          ({ w with clock := w.clock + nanos },
            .pause (.retry mode guarded (r.after w.clock)) (.sleeping nanos), [])
      | .backOff true => (w, .pause (.retry mode guarded (r.after w.clock)) .yielding, [])
      | .backOff false => (w, .pause (.retry mode guarded (r.after w.clock)) .spun, []) :=
  rfl

theorem not_isRefusal_taken (mode : Mode) (guarded : Bool) :
    (Reply.taken mode guarded).isRefusal = false := by
  cases guarded <;> rfl

/-- What a call replies once its operation has ended, or how a timed call goes on. -/
theorem sequel_rests (w : World) (m : Nat) {answer : Answer} (hperf : c.Performs op task)
    (hallows : op.Allows answer) :
    ∃ clock sequel notes, w.sequel m task answer = ({ w with clock := clock }, sequel, notes) ∧
      ((∃ r, sequel = .reply r ∧ (r.isRefusal = true ↔ answer = .granted false)) ∨
        ∃ mode limit guarded r position, c = .timed mode limit guarded ∧ op = .tryAcquire mode ∧
          answer = .granted false ∧ (∀ p, position ≠ .operating p) ∧
          sequel = .pause (.retry mode guarded r) position) := by
  cases hperf with
  | operate op =>
    refine ⟨w.clock, _, _, sequel_answer w m answer, .inl ⟨_, rfl, ?_⟩⟩
    cases answer with
    | granted yes => cases yes <;> simp [Reply.ofAnswer, Reply.isRefusal]
    | unit | count n => simp [Reply.ofAnswer, Reply.isRefusal]
  | guard mode =>
    cases hallows
    exact ⟨w.clock, _, _, sequel_guard w m mode .unit, .inl ⟨_, rfl, by
      simp [Reply.guardIf, Reply.isRefusal]⟩⟩
  | tryGuard mode =>
    obtain ⟨yes, rfl⟩ := hallows
    refine ⟨w.clock, _, _, sequel_guard w m mode (.granted yes), .inl ⟨_, rfl, ?_⟩⟩
    cases yes <;> simp [Reply.guardIf, Reply.isRefusal]
  | giveBack mode =>
    cases hallows
    exact ⟨w.clock, _, _, sequel_say w m .nothing .unit, .inl ⟨_, rfl, by
      simp [Reply.isRefusal]⟩⟩
  | untimed mode limit guarded =>
    cases hallows
    exact ⟨w.clock, _, _, sequel_say w m (.taken mode guarded) .unit, .inl ⟨_, rfl, by
      simp [not_isRefusal_taken]⟩⟩
  | timed mode limit guarded r =>
    obtain ⟨yes, rfl⟩ := hallows
    cases yes with
    | true =>
      exact ⟨w.clock, _, _, sequel_retry_granted w m mode guarded r, .inl ⟨_, rfl, by
        simp [not_isRefusal_taken]⟩⟩
    | false =>
      rw [sequel_retry_refused]
      cases r.decision w.clock with
      | giveUp waited =>
        exact ⟨w.clock, _, _, rfl, .inl ⟨_, rfl, by simp [Reply.isRefusal]⟩⟩
      | sleep nanos =>
        exact ⟨w.clock + nanos, _, _, rfl,
          .inr ⟨mode, limit, guarded, _, .sleeping nanos, rfl, rfl, rfl, by simp, rfl⟩⟩
      | backOff yields =>
        cases yields with
        | true =>
          exact ⟨w.clock, _, _, rfl,
            .inr ⟨mode, limit, guarded, _, .yielding, rfl, rfl, rfl, by simp, rfl⟩⟩
        | false =>
          exact ⟨w.clock, _, _, rfl,
            .inr ⟨mode, limit, guarded, _, .spun, rfl, rfl, rfl, by simp, rfl⟩⟩

/-- After a job of a call the world is that of the job, save for the clock and for what the thread
does now. -/
theorem settle_rests (t : ThreadId) (m : Nat) {worked : Worked} {place : Progress → Prop}
    (hperf : c.Performs op task) (hserves : worked.stand.Serves place op) :
    ∃ clock activity,
      (settleCall t (settle t m task worked)).world =
        ({ worked.world with clock := clock }).withActivity t activity ∧
      c.Rests op m worked.stand activity (settleCall t (settle t m task worked)).finish := by
  cases hs : worked.stand with
  | here p =>
    refine ⟨worked.world.clock, .calling ⟨m, task, .operating p⟩, ?_, ?_⟩
    · simp only [settle, hs, settleCall]
    · simp only [settle, hs, settleCall]
      exact .here hperf
  | fault f =>
    refine ⟨worked.world.clock, .idle, ?_, ?_⟩
    · simp only [settle, hs, settleCall]
    · simp only [settle, hs, settleCall]
      exact .faulted
  | done answer =>
    rw [hs] at hserves
    obtain ⟨clock, sequel, notes, hq, hsequel⟩ := sequel_rests worked.world m hperf hserves
    rcases hsequel with ⟨r, rfl, hrefusal⟩ | hagain
    · refine ⟨clock, .idle, ?_, ?_⟩
      · simp only [settle, hs, hq, settleCall]
      · simp only [settle, hs, hq, settleCall]
        exact .replied hrefusal
    · obtain ⟨mode, limit, guarded, r, position, hc, hop, rfl, hposition, rfl⟩ := hagain
      refine ⟨clock, .calling ⟨m, .retry mode guarded r, position⟩, ?_, ?_⟩
      · simp only [settle, hs, hq, settleCall]
      · simp only [settle, hs, hq, settleCall]
        exact .again hc hop hposition

/-- A call comes to a fault iff its operation does. -/
theorem finish_settle_eq_faulted (t : ThreadId) (m : Nat) {worked : Worked}
    {place : Progress → Prop} (hperf : c.Performs op task)
    (hserves : worked.stand.Serves place op) {f : Fault} :
    (settleCall t (settle t m task worked)).finish = some (.faulted f) ↔
      worked.stand = .fault f := by
  obtain ⟨-, activity, -, hrests⟩ := settle_rests t m hperf hserves
  generalize (settleCall t (settle t m task worked)).finish = finish at hrests ⊢
  generalize worked.stand = stand at hrests ⊢
  cases hrests <;> simp

/-- A call that consists of one operation comes back with what the operation answers. -/
theorem finish_settle_answer (t : ThreadId) (m : Nat) (worked : Worked) :
    (settleCall t (settle t m .answer worked)).finish = worked.stand.finish? := by
  cases hs : worked.stand with
  | here p => simp only [settle, hs, settleCall, Stand.finish?]
  | done answer => simp only [settle, hs, sequel_answer, settleCall, Stand.finish?]
  | fault f => simp only [settle, hs, settleCall, Stand.finish?]

end World

end ReaderWriter
