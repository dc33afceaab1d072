import ReaderWriter.Proofs.Holds

/-!
# The two fields

All that matters of a lock to which nobody is under way is whether the unique lock is held and how
often the shared lock is. This module says what an operation answers then and what it leaves.

* `Holding.next?`: the operations on the two fields.
* `Run.holding`: the two fields of a lock in a run.
* `Holding.of_answered`: an operation that is granted what the two fields promise leaves what they
  say.
-/

namespace ReaderWriter

/-- Who holds a lock, as far as it matters to others. -/
structure Holding where
  unique : Bool := false
  shared : Nat := 0
deriving DecidableEq

namespace Holding

/-- Nobody holds the lock. -/
def isFree (h : Holding) : Bool := !h.unique && h.shared == 0

/-- What an operation answers and leaves behind if nobody else does anything. There is nothing to be
had from an operation that has to wait, or that gives up what is not held. -/
def next? (h : Holding) : Operation → Option (Answer × Holding)
  | .acquire .unique => if h.isFree then some (.unit, { h with unique := true }) else none
  | .acquire .shared =>
      if h.unique then none else some (.unit, { h with shared := h.shared + 1 })
  | .tryAcquire .unique =>
      if h.isFree then some (.granted true, { h with unique := true })
      else some (.granted false, h)
  | .tryAcquire .shared =>
      if h.unique then some (.granted false, h)
      else some (.granted true, { h with shared := h.shared + 1 })
  | .release .unique => if h.unique then some (.unit, { h with unique := false }) else none
  | .release .shared =>
      if 0 < h.shared then some (.unit, { h with shared := h.shared - 1 }) else none

/-- The two fields of a lock that is held so often. -/
def of (held : Mode → Nat) : Holding := ⟨decide (0 < held .unique), held .shared⟩

variable {held : Mode → Nat} {op : Operation} {answer : Answer} {next : Holding}

/-- An operation that is answered as the two fields have it leaves behind what they say. -/
theorem of_answered {Pc : Type} (hone : held .unique ≤ 1)
    (h : (of held).next? op = some (answer, next)) :
    of (Crowd.settled (Crowd.begun held op) op (.done answer : Stand Pc)) = next := by
  have hsettled : ∀ {mode : Mode}, op.acquires? = some mode → answer ≠ .granted false →
      Crowd.settled (Crowd.begun held op) op (.done answer : Stand Pc) =
        Function.update held mode (held mode + 1) := by
    intro mode hop hanswer
    have hgranted : Hold.granted? op (.done answer : Stand Pc) = some mode := by
      rw [Hold.granted?, if_neg hanswer, hop]
    have hbegun : Crowd.begun held op = held := by
      cases op with
      | acquire | tryAcquire => rfl
      | release => cases hop
    rw [Crowd.settled, hgranted, hbegun]
  have hreleased : ∀ {mode : Mode}, op = .release mode →
      Crowd.settled (Crowd.begun held op) op (.done answer : Stand Pc) =
        Function.update held mode (held mode - 1) := by
    rintro mode rfl
    rw [Crowd.settled, Hold.granted?_release]
    rfl
  have hunique : of (Function.update held .unique (held .unique + 1)) =
      { of held with unique := true } := by
    simp [of]
  have hshared : of (Function.update held .shared (held .shared + 1)) =
      { of held with shared := (of held).shared + 1 } := by
    simp [of]
  have hrefused : answer = .granted false → op.releases? = none →
      of (Crowd.settled (Crowd.begun held op) op (.done answer : Stand Pc)) = of held := by
    rintro rfl hop
    cases op with
    | acquire | tryAcquire => rfl
    | release => cases hop
  rcases op with mode | mode | mode <;> cases mode <;> simp only [next?] at h <;> split at h <;>
    cases h
  · rw [hsettled rfl (by simp), hunique]
  · rw [hsettled rfl (by simp), hshared]
  · rw [hsettled rfl (by simp), hunique]
  · exact hrefused rfl rfl
  · exact hrefused rfl rfl
  · rw [hsettled rfl (by simp), hshared]
  · rw [hreleased rfl]
    have hzero : held .unique - 1 = 0 := by omega
    simp [of, hzero]
  · rw [hreleased rfl]
    simp [of]

/-- If an operation that the two fields keep waiting were granted, the lock would be held by a
writer beside somebody else. -/
theorem excludes_of_next? {Pc : Type} {mode : Mode} {held' : Mode → Nat}
    (h : held' = Crowd.settled held (.acquire mode) (.done .unit : Stand Pc))
    (hone : held' .unique ≤ 1) (hapart : 0 < held' .unique → held' .shared = 0) :
    (of held).next? (.acquire mode) ≠ none := by
  have hsettled : held' = Function.update held mode (held mode + 1) := h
  subst hsettled
  intro hnext
  cases mode <;> simp [next?, of, isFree] at hnext hone hapart <;> omega

/-- Of the operations of callers who give up only what is held, those have to wait that insist on
the lock. -/
theorem exists_of_next?_eq_none (h : (of held).next? op = none)
    (hheld : ∀ mode, op = .release mode → 0 < held mode) : ∃ mode, op = .acquire mode := by
  rcases op with mode | mode | mode
  · exact ⟨mode, rfl⟩
  · cases mode <;> simp only [next?] at h <;> split at h <;> cases h
  · have hpos := hheld mode rfl
    cases mode <;> simp [next?, of, hpos] at h

end Holding

/-- The two fields of the lock at an index. -/
def Run.holding (r : Run) (m : Nat) : Holding := .of (r.count m)

end ReaderWriter
