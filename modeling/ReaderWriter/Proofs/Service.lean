import ReaderWriter.Lock

/-!
# What an operation can come to

Every place of an algorithm belongs to an operation, and the operation says how it can end: an
acquisition that waits and a release answer nothing, an attempt answers whether it was granted.

* `Blocking.start_serves`, `Blocking.resume_serves` and their like for the other locks: a turn
  leaves its thread at a place of the same operation, or ends with an answer of that operation.
-/

namespace ReaderWriter

namespace Operation

/-- The mode in which the lock is held if the operation succeeds. -/
def acquires? : Operation → Option Mode
  | .acquire mode | .tryAcquire mode => some mode
  | .release _ => none

/-- The answers with which an operation can end. -/
def Allows : Operation → Answer → Prop
  | .acquire _, a | .release _, a => a = .unit
  | .tryAcquire _, a => ∃ yes, a = .granted yes

end Operation

/-- A stand that belongs to an operation. -/
def Stand.Serves {Pc : Type} (place : Pc → Prop) (op : Operation) : Stand Pc → Prop
  | .here pc => place pc
  | .done answer => op.Allows answer
  | .fault _ => True

/-! ## The blocking lock -/

namespace Blocking

/-- The place belongs to the operation. -/
def Pc.Serves (op : Operation) : Pc → Prop
  | .contended mode | .entering mode | .waiting mode _ _ => op = .acquire mode
  | .notifying _ | .notified _ _ | .retrying | .yielding => ∃ mode, op = .release mode

theorem attempt_serves (mode : Mode) (backoff : Backoff) (s : State) :
    (attempt mode backoff s).stand.Serves (Pc.Serves (.acquire mode)) (.acquire mode) := by
  unfold attempt
  dsimp only
  split
  · split
    · exact rfl
    · trivial
  · exact rfl

theorem enter_serves (t : ThreadId) (mode : Mode) (s : State) :
    (enter t mode s).stand.Serves (Pc.Serves (.acquire mode)) (.acquire mode) := by
  unfold enter
  dsimp only
  split
  · exact rfl
  · exact attempt_serves mode _ _

theorem notifyFor_serves (w : Word) (s : State) (mode : Mode) :
    (notifyFor w s).stand.Serves (Pc.Serves (.release mode)) (.release mode) := by
  unfold notifyFor
  repeat' split
  all_goals first | exact ⟨mode, rfl⟩ | exact rfl

theorem recheck_serves (s : State) (mode : Mode) :
    (recheck s).stand.Serves (Pc.Serves (.release mode)) (.release mode) := by
  unfold recheck
  split
  · exact ⟨mode, rfl⟩
  · exact rfl

theorem afterRelease_serves (s : State) (released : Except Fault Word) (mode : Mode) :
    (afterRelease s released).stand.Serves (Pc.Serves (.release mode)) (.release mode) := by
  cases released with
  | error f => trivial
  | ok w =>
    simp only [afterRelease]
    split
    · exact notifyFor_serves w _ mode
    · exact rfl

theorem start_serves (op : Operation) (s : State) :
    (start op s).stand.Serves (Pc.Serves op) op := by
  rcases op with (_ | _) | (_ | _) | (_ | _) <;> simp only [start]
  · split <;> exact rfl
  · split
    · exact rfl
    · split
      · exact rfl
      · trivial
  · split <;> exact ⟨_, rfl⟩
  · split
    · exact ⟨_, rfl⟩
    · split
      · exact ⟨_, rfl⟩
      · trivial
  · exact afterRelease_serves s _ .unique
  · exact afterRelease_serves s _ .shared

theorem resume_serves {op : Operation} {pc : Pc} (h : pc.Serves op) (t : ThreadId) (s : State) :
    (resume t pc s).stand.Serves (Pc.Serves op) op := by
  cases pc with
  | contended mode =>
    cases h
    exact enter_serves t mode s
  | entering mode =>
    cases h
    exact enter_serves t mode s
  | waiting mode stage backoff =>
    cases h
    cases stage with
    | woken => exact attempt_serves mode backoff s
    | announced | parking | parked | snoozing | resumed => exact rfl
  | notifying mode =>
    obtain ⟨mode', rfl⟩ := h
    simp only [resume]
    split
    · exact ⟨mode', rfl⟩
    · exact recheck_serves s mode'
  | notified mode woken =>
    obtain ⟨mode', rfl⟩ := h
    exact recheck_serves _ mode'
  | retrying => exact h
  | yielding =>
    obtain ⟨mode', rfl⟩ := h
    simp only [resume]
    split
    · exact notifyFor_serves _ s mode'
    · exact rfl

end Blocking

/-! ## The polling lock -/

namespace Polling

/-- The place belongs to the operation. -/
def Pc.Serves (op : Operation) : Pc → Prop
  | .polling mode _ | .yielding mode _ => op = .acquire mode

theorem attempt_serves (mode : Mode) (backoff : Backoff) (s : State) :
    (attempt mode backoff s).stand.Serves (Pc.Serves (.acquire mode)) (.acquire mode) := by
  cases mode <;> simp only [attempt]
  · split <;> exact rfl
  · split
    · exact rfl
    · split
      · exact rfl
      · trivial

theorem start_serves (op : Operation) (s : State) :
    (start op s).stand.Serves (Pc.Serves op) op := by
  rcases op with mode | (_ | _) | (_ | _)
  · exact attempt_serves mode _ s
  · simp only [start]
    split <;> exact ⟨_, rfl⟩
  · simp only [start]
    split
    · exact ⟨_, rfl⟩
    · split
      · exact ⟨_, rfl⟩
      · trivial
  all_goals
    simp only [start, afterRelease]
    split
    · trivial
    · exact rfl

theorem resume_serves {op : Operation} {pc : Pc} (h : pc.Serves op) (s : State) :
    (resume pc s).stand.Serves (Pc.Serves op) op := by
  cases pc with
  | polling mode backoff =>
    cases h
    simp only [resume]
    split
    · exact rfl
    · exact attempt_serves mode _ s
  | yielding mode backoff =>
    cases h
    exact attempt_serves mode backoff s

end Polling

/-! ## The read-mostly lock -/

namespace ReadMostly

/-- The operation of a caller that wants the unique lock. -/
def Writer.operation : Writer → Operation
  | .patient _ _ => .acquire .unique
  | .hasty => .tryAcquire .unique

/-- The operation that reopens the exclusive side. -/
def Reopening.operation : Reopening → Operation
  | .released => .release .unique
  | .refused => .tryAcquire .unique

/-- The operation of a caller that wants a shared lock. -/
def Patience.operation : Patience → Operation
  | .waits => .acquire .shared
  | .once => .tryAcquire .shared

/-- The operation lowers its flag on the way out, and ends with this answer. -/
def Operation.LeavesWith (op : Operation) (answer : Answer) : Prop :=
  op = .release .shared ∧ answer = .unit ∨ op = .tryAcquire .shared ∧ answer = .granted false

/-- The place belongs to the operation. -/
def Pc.Serves (op : Operation) : Pc → Prop
  | .entering | .draining _ _ _ => op = .acquire .unique
  | .claimed w | .scanning w _ => op = w.operation
  | .acquired answer =>
      op.acquires? = some .unique ∧ op.Allows answer ∧ answer ≠ .granted false
  | .refused => op = .tryAcquire .unique
  | .reopening why _ | .passingOn why _ => op = why.operation
  | .released => op = .release .unique
  | .registering p _ _ | .registered p _ => op = p.operation
  | .fastPath | .contended _ | .arriving _ | .prodding _ _ _ | .waiting _ _ _ =>
      op = .acquire .shared
  | .sharedRefused => op = .tryAcquire .shared
  | .leaving answer | .handingOff (.left answer) _ _ => Operation.LeavesWith op answer
  | .handingOff .abandoned _ _ | .counting _ | .departing _ _ _ | .departed _ | .abandoned => False

/-- The place belongs to the end of a thread. -/
def Pc.Departs : Pc → Prop
  | .departing _ _ _ | .departed _ | .abandoned | .handingOff .abandoned _ _ => True
  | _ => False

/-- The stand belongs to the end of a thread. -/
def StandsDeparting : Stand Pc → Prop
  | .here pc => pc.Departs
  | .done _ => True
  | .fault _ => False

variable {op : Operation}

theorem beginRead_serves {place : Access → Pc} (h : ∀ a, (place a).Serves op) (sc : Scene)
    (s : Site) :
    (beginRead sc place s).stand.Serves (Pc.Serves op) op := by
  unfold beginRead
  split <;> exact h _

theorem awaitReaders_serves {place : Edit → Pc} (h : ∀ e, (place e).Serves op) (s : Site) :
    (awaitReaders place s).stand.Serves (Pc.Serves op) op := by
  unfold awaitReaders
  split <;> exact h _

theorem beginWrite_serves {place : Edit → Pc} (h : ∀ e, (place e).Serves op) (sc : Scene)
    (s : Site) : (beginWrite sc place s).stand.Serves (Pc.Serves op) op := by
  unfold beginWrite
  split
  · exact awaitReaders_serves h _
  · exact h _

theorem enter_serves (sc : Scene) (s : Site) :
    (enter sc s).stand.Serves (Pc.Serves (.acquire .unique)) (.acquire .unique) := by
  unfold enter
  split <;> exact rfl

theorem judge_serves (w : Writer) (clear : Bool) (s : Site) :
    (judge w clear s).stand.Serves (Pc.Serves w.operation) w.operation := by
  cases w <;> cases clear
  · exact rfl
  · exact ⟨rfl, rfl, nofun⟩
  · exact rfl
  · exact ⟨rfl, ⟨_, rfl⟩, nofun⟩

theorem arrive_serves (p : Patience) (f : Flag) (s : Site) :
    (arrive p f s).stand.Serves (Pc.Serves p.operation) p.operation := by
  cases p <;> simp only [arrive] <;> split
  · exact rfl
  · exact rfl
  · exact ⟨_, rfl⟩
  · exact rfl

theorem register_serves (sc : Scene) (p : Patience) (f : Flag) (s : Site) :
    (register sc p f s).stand.Serves (Pc.Serves p.operation) p.operation := by
  cases p <;> simp only [register]
  · exact beginWrite_serves (by exact fun _ => rfl) sc s
  · split
    · exact beginWrite_serves (by exact fun _ => rfl) sc s
    · exact ⟨_, rfl⟩

theorem acquireShared_serves (sc : Scene) (p : Patience) (s : Site) :
    (acquireShared sc p s).stand.Serves (Pc.Serves p.operation) p.operation := by
  unfold acquireShared
  dsimp only
  split
  · split
    · exact arrive_serves p _ _
    · split
      · trivial
      · exact register_serves sc p _ _
  · cases p
    · trivial
    · exact ⟨_, rfl⟩

theorem recheck_serves (f : Flag) (backoff : Backoff) (s : Site) :
    (recheck f backoff s).stand.Serves (Pc.Serves (.acquire .shared)) (.acquire .shared) := by
  unfold recheck
  split <;> exact rfl

theorem enterShared_serves (sc : Scene) (f : Flag) (s : Site) :
    (enterShared sc f s).stand.Serves (Pc.Serves (.acquire .shared)) (.acquire .shared) := by
  unfold enterShared
  split
  · exact rfl
  · exact recheck_serves f _ _

theorem Operation.LeavesWith.allows {answer : Answer} (h : Operation.LeavesWith op answer) :
    op.Allows answer := by
  rcases h with ⟨rfl, rfl⟩ | ⟨rfl, rfl⟩
  · exact rfl
  · exact ⟨_, rfl⟩

theorem leave_serves {answer : Answer} (h : Operation.LeavesWith op answer) (sc : Scene)
    (s : Site) : (leave sc answer s).stand.Serves (Pc.Serves op) op := by
  unfold leave
  dsimp only
  split
  · split
    · trivial
    · split
      · exact h
      · exact h.allows
  · trivial

theorem handOff_serves {answer : Answer} (h : Operation.LeavesWith op answer) (sc : Scene)
    (backoff : Backoff) (stage : HandOff.Stage) (s : Site) :
    (handOff sc (.left answer) backoff stage s).stand.Serves (Pc.Serves op) op := by
  cases stage with
  | begun | snoozing => exact beginRead_serves (by exact fun _ => h) sc s
  | checking a =>
    cases a
    · exact beginRead_serves (by exact fun _ => h) sc s
    · simp only [handOff]
      split <;> exact h
  | prodding n =>
    cases n
    · exact h
    · exact h
    · simp only [handOff]
      split
      · exact beginRead_serves (by exact fun _ => h) sc _
      · exact h
  | rechecking a =>
    cases a
    · exact beginRead_serves (by exact fun _ => h) sc s
    · simp only [handOff]
      split <;> exact h
  | finished => exact h.allows

theorem start_serves (op : Operation) (sc : Scene) (s : Site) :
    (start sc op s).stand.Serves (Pc.Serves op) op := by
  rcases op with (_ | _) | (_ | _) | (_ | _) <;> simp only [start]
  · exact enter_serves sc s
  · exact acquireShared_serves sc .waits s
  · unfold tryEnter
    split
    · exact ⟨_, rfl⟩
    · exact rfl
  · exact acquireShared_serves sc .once s
  · unfold releaseUnique
    split
    · exact rfl
    · trivial
  · exact .inl ⟨rfl, rfl⟩

theorem resume_serves {pc : Pc} (h : pc.Serves op) (sc : Scene) (s : Site) :
    (resume sc pc s).stand.Serves (Pc.Serves op) op := by
  cases pc with
  | entering =>
    cases h
    exact enter_serves sc s
  | claimed w =>
    cases h
    cases w
    · exact beginRead_serves (by exact fun _ => rfl) sc s
    · simp only [resume, scan]
      split
      · exact beginRead_serves (by exact fun _ => rfl) sc s
      · exact rfl
  | scanning w a =>
    cases h
    cases a
    · exact beginRead_serves (by exact fun _ => rfl) sc s
    · exact judge_serves w _ _
  | draining told stage backoff => cases stage <;> exact h
  | acquired answer => exact h.2.1
  | refused => exact h
  | reopening why n => cases n <;> exact h
  | passingOn why n =>
    cases h
    rcases n with _ | _ | _ <;> try exact rfl
    cases why
    · exact rfl
    · exact ⟨_, rfl⟩
  | released =>
    cases h
    exact rfl
  | registering p f e =>
    cases h
    cases e
    · exact beginWrite_serves (by exact fun _ => rfl) sc s
    · exact awaitReaders_serves (by exact fun _ => rfl) s
    · exact rfl
  | registered p f =>
    cases h
    exact arrive_serves p f _
  | fastPath =>
    cases h
    exact rfl
  | contended f | arriving f =>
    cases h
    exact enterShared_serves sc f s
  | prodding f backoff n => cases n <;> exact h
  | waiting f stage backoff =>
    cases h
    cases stage with
    | woken => exact recheck_serves f backoff _
    | announced | parking | parked | snoozing | resumed => exact rfl
  | sharedRefused => exact .inr ⟨h, rfl⟩
  | leaving answer => exact leave_serves h sc s
  | handingOff why stage backoff =>
    cases why with
    | left answer => exact handOff_serves h sc backoff stage s
    | abandoned => exact h.elim
  | counting | departing | departed | abandoned => exact h.elim

/-! ### The end of a thread -/

/-- A place of an operation is no place of a thread's end. -/
theorem Pc.not_departs_of_serves {pc : Pc} (h : pc.Serves op) : ¬ pc.Departs := by
  cases pc with
  | handingOff why stage backoff =>
    cases why with
    | left answer => exact id
    | abandoned => exact h.elim
  | departing | departed | abandoned => exact h.elim
  | _ => exact id

theorem depart_departs (sc : Scene) (f : Flag) (s : Site) :
    StandsDeparting (depart sc f s).stand := by
  unfold depart beginWrite awaitReaders telling
  repeat' split
  all_goals trivial

theorem handOff_departs (sc : Scene) (backoff : Backoff) (stage : HandOff.Stage) (s : Site) :
    StandsDeparting (handOff sc .abandoned backoff stage s).stand := by
  have hread : ∀ (place : Access → Pc) (s : Site), (∀ a, (place a).Departs) →
      StandsDeparting (beginRead sc place s).stand := by
    intro place s h
    unfold beginRead
    split <;> exact h _
  unfold handOff
  dsimp only
  repeat' split
  all_goals first
    | trivial
    | exact hread _ _ fun _ => trivial

theorem resume_departs {pc : Pc} (h : pc.Departs) (sc : Scene) (s : Site) :
    StandsDeparting (resume sc pc s).stand := by
  cases pc with
  | departing f wasUp e =>
    cases e <;> simp only [resume, beginWrite, awaitReaders] <;> repeat' split
    all_goals trivial
  | departed wasUp => cases wasUp <;> trivial
  | abandoned =>
    simp only [resume]
    split <;> trivial
  | handingOff why stage backoff =>
    cases why with
    | left answer => exact h.elim
    | abandoned => exact handOff_departs sc backoff stage s
  | _ => exact h.elim

end ReadMostly

end ReaderWriter
