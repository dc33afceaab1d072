import Mathlib.Algebra.Group.Nat.Defs
import ReaderWriter.Proofs.Fields
import ReaderWriter.Word.Cell
import ReaderWriter.Word.Update

/-!
# Changes of a control word

A control word is as good as a record of four fields that are kept apart. Whatever the word is at
first, also one that no lock would ever hold, and whatever changes are made to it, by itself or in a
cell: it goes on storing what the record comes to if each of its fields is changed alone, up to the
last holder that can be counted. A change that faults or declines does so for the record too, for
the same reason, and leaves both as they were.

* `Fields.packed`: the number in which the fields lie side by side.
* `Word.Change.onFields`: what a change does to the record.
* `Word.Change.seen_onWord`: a change of the word is that change of its fields.
* `controlWord_refines_fields`: after any changes the word stores the record.
-/

namespace ReaderWriter

/-! ## The record -/

namespace Fields

/-- The largest number of shared holders for which the word has room. -/
def mostHolders : Nat := 2 ^ 29 - 1

/-- The number in which the fields lie side by side. -/
def packed (f : Fields) : Nat :=
  f.uniqueWanted.toNat + 2 * f.uniqueLocked.toNat + 4 * f.sharedWaiting.toNat + 8 * f.holders

/-- Someone holds the lock, in either mode. -/
def held (f : Fields) : Bool := f.uniqueLocked || decide (f.holders ≠ 0)

/-- Someone is waiting. -/
def hasWaiters (f : Fields) : Bool := f.uniqueWanted || f.sharedWaiting

/-- Someone is waiting and nobody holds the lock. -/
def stranded (f : Fields) : Bool := f.hasWaiters && !f.held

/-- A writer holds or wants the lock. -/
def blocksShared (f : Fields) : Bool := f.uniqueLocked || f.uniqueWanted

/-- Someone waits for nothing, or readers wait although no writer is around. -/
def hasAdmissibleWaiters (f : Fields) : Bool :=
  f.stranded || (f.sharedWaiting && !f.blocksShared)

/-- Different records make different numbers. -/
theorem packed_injective : Function.Injective packed := by
  have hbit : ∀ b b' : Bool, b.toNat = b'.toNat → b = b' := by decide
  rintro ⟨uw, ul, sw, n⟩ ⟨uw', ul', sw', n'⟩ h
  have huw := uw.toNat_le
  have hul := ul.toNat_le
  have hsw := sw.toNat_le
  have huw' := uw'.toNat_le
  have hul' := ul'.toNat_le
  have hsw' := sw'.toNat_le
  simp only [packed] at h
  -- From the low end: a bit of weight one is the remainder by two of both numbers, and so on.
  obtain rfl := hbit uw uw' (by omega)
  obtain rfl := hbit ul ul' (by omega)
  obtain rfl := hbit sw sw' (by omega)
  obtain rfl : n = n' := by omega
  rfl

end Fields

/-! ## Changes -/

namespace Word

/-- A change that is made to a word: an update, or what is done to a cell that holds the word. -/
inductive Change where
  | update (u : Update)
  | tryAcquireShared
  | releaseShared
  | releaseUnique
deriving DecidableEq

/-- How a change ends. -/
inductive Verdict where
  | made
  | declined
  | faulted (f : Fault)
deriving DecidableEq

/-- How the change ended that a cell answers like this. -/
def CellAnswer.verdict : CellAnswer → Verdict
  | .kept _ | .truth false => .declined
  | .fault f => .faulted f
  | .exchanged _ | .moved _ _ | .truth true | .bits _ | .text _ => .made

namespace Change

/-- What a change of a word answers, and the word after it. -/
def onWord (w : Word) : Change → CellAnswer × Word
  | .update u => w.released (u.apply w)
  | .tryAcquireShared => CellAction.tryAcquireShared.apply w
  | .releaseShared => CellAction.releaseShared.apply w
  | .releaseUnique => CellAction.releaseUnique.apply w

/-- One more shared holder, if the unique lock is free and the holder can be counted. -/
def acquireShared (f : Fields) : Verdict × Fields :=
  if f.uniqueLocked then (.faulted .sharedUnderUnique, f)
  else if f.holders = Fields.mostHolders then (.faulted .holderOverflow, f)
  else (.made, { f with holders := f.holders + 1 })

/-- One shared holder less, if there is one. -/
def dropShared (f : Fields) : Verdict × Fields :=
  if f.holders = 0 then (.faulted .sharedNotHeld, f)
  else (.made, { f with holders := f.holders - 1 })

/-- How a change of the record ends, and the record after it. -/
def onFields (f : Fields) : Change → Verdict × Fields
  | .update .withUniqueLock => (.made, { f with uniqueLocked := true })
  | .update .withoutUniqueLock => (.made, { f with uniqueLocked := false })
  | .update .withUniqueWait => (.made, { f with uniqueWanted := true })
  | .update .withoutUniqueWait => (.made, { f with uniqueWanted := false })
  | .update .withSharedWait => (.made, { f with sharedWaiting := true })
  | .update .withoutSharedWait => (.made, { f with sharedWaiting := false })
  | .update .withSharedAcquired => acquireShared f
  | .update .withSharedReleased => dropShared f
  | .tryAcquireShared =>
      if f.uniqueLocked || f.uniqueWanted then (.declined, f) else acquireShared f
  | .releaseShared => dropShared f
  | .releaseUnique =>
      if f.uniqueLocked then (.made, { f with uniqueLocked := false })
      else (.faulted .uniqueNotHeld, f)

end Change

/-- The word after changes, one after the other. -/
def after (w : Word) (changes : List Change) : Word :=
  changes.foldl (fun w c => (c.onWord w).2) w

end Word

/-- The record after changes, one after the other. -/
def Fields.after (f : Fields) (changes : List Word.Change) : Fields :=
  changes.foldl (fun f c => (c.onFields f).2) f

namespace Word

/-! ## One change -/

/-- What a lock takes for the most shared holders is what the word has room for. -/
theorem maxSharedHolders_toNat : maxSharedHolders.toNat = Fields.mostHolders := rfl

namespace Change

/-- What a record shows of a change of the word. -/
def seen (result : CellAnswer × Word) : Verdict × Fields := (result.1.verdict, result.2.fields)

theorem seen_released_ok {w w' : Word} : seen (w.released (.ok w')) = (.made, w'.fields) := rfl

theorem seen_released_error {w : Word} {f : Fault} :
    seen (w.released (.error f)) = (.faulted f, w.fields) := rfl

theorem seen_acquireShared (w : Word) :
    seen (w.released w.withSharedAcquired) = acquireShared w.fields := by
  unfold acquireShared
  split
  · next hlock =>
    have hfault : w.withSharedAcquired = .error .sharedUnderUnique := if_pos hlock
    rw [hfault, seen_released_error]
  · next hlock =>
    have hfree : w.fields.uniqueLocked = false := Bool.eq_false_iff.mpr hlock
    split
    · next hfull =>
      have hcount : maxSharedHolders ≤ w.sharedCount :=
        UInt32.le_iff_toNat_le.mpr (Nat.le_of_eq hfull.symm)
      have hfault : w.withSharedAcquired = .error .holderOverflow :=
        (if_neg hlock).trans (if_pos hcount)
      rw [hfault, seen_released_error]
    · next hroom =>
      obtain ⟨w', hw', hfields⟩ := withSharedAcquired_eq_ok hfree
        (Nat.lt_of_le_of_ne w.holders_le hroom)
      rw [hw', seen_released_ok, hfields]

theorem seen_dropShared (w : Word) :
    seen (w.released w.withSharedReleased) = dropShared w.fields := by
  unfold dropShared
  split
  · next hnone =>
    have hcount : w.sharedCount = 0 := UInt32.toNat.inj hnone
    have hfault : w.withSharedReleased = .error .sharedNotHeld := if_pos hcount
    rw [hfault, seen_released_error]
  · next hsome =>
    obtain ⟨w', hw', hfields⟩ := withSharedReleased_eq_ok (Nat.pos_of_ne_zero hsome)
    rw [hw', seen_released_ok, hfields]

/-- A cell that lets readers in tries for a shared holder as the update does. -/
theorem seen_tryAcquireShared {w : Word} (hopen : w.blocksShared = false) :
    seen (CellAction.tryAcquireShared.apply w) = seen (w.released w.withSharedAcquired) := by
  rw [CellAction.apply, Word.tryAcquireShared, hopen]
  cases w.withSharedAcquired <;> rfl

/-- A change of the word is that change of its fields. -/
theorem seen_onWord (w : Word) (c : Change) : seen (c.onWord w) = c.onFields w.fields := by
  cases c with
  | update u =>
    rw [onWord]
    cases u with
    | withUniqueLock => exact congrArg (Prod.mk _) (fields_withUniqueLock w)
    | withoutUniqueLock => exact congrArg (Prod.mk _) (fields_withoutUniqueLock w)
    | withUniqueWait => exact congrArg (Prod.mk _) (fields_withUniqueWait w)
    | withoutUniqueWait => exact congrArg (Prod.mk _) (fields_withoutUniqueWait w)
    | withSharedWait => exact congrArg (Prod.mk _) (fields_withSharedWait w)
    | withoutSharedWait => exact congrArg (Prod.mk _) (fields_withoutSharedWait w)
    | withSharedAcquired => exact seen_acquireShared w
    | withSharedReleased => exact seen_dropShared w
  | tryAcquireShared =>
    -- The cell looks at the bits of writers first, and declines where the update would fault.
    rw [onWord, onFields, ← blocksShared_eq]
    cases hblocks : w.blocksShared with
    | true =>
      rw [CellAction.apply, Word.tryAcquireShared, hblocks]
      rfl
    | false =>
      rw [seen_tryAcquireShared hblocks, seen_acquireShared]
      rfl
  | releaseShared => exact seen_dropShared w
  | releaseUnique =>
    rw [onWord, onFields, CellAction.apply]
    cases hlock : w.fields.uniqueLocked with
    | true =>
      rw [withUniqueReleased_eq_ok hlock, seen_released_ok, fields_withoutUniqueLock]
      rfl
    | false =>
      have hfault : w.withUniqueReleased = .error .uniqueNotHeld :=
        if_neg (Bool.eq_false_iff.mp hlock)
      rw [hfault, seen_released_error]
      rfl

end Change

/-! ## Rows of changes -/

/-- The fields of a word after changes are what the record comes to. -/
theorem fields_after (w : Word) (changes : List Change) :
    (w.after changes).fields = w.fields.after changes := by
  induction changes generalizing w with
  | nil => rfl
  | cons c rest ih =>
    have hstep : (c.onWord w).2.fields = (c.onFields w.fields).2 :=
      congrArg Prod.snd (c.seen_onWord w)
    have hrest := ih (c.onWord w).2
    rw [hstep] at hrest
    exact hrest

/-- A word stores a record: nothing is seen of the word that is not seen of the record. -/
structure Stores (w : Word) (f : Fields) : Prop where
  /-- The fields lie side by side in the word. -/
  packed : w.bits.toNat = f.packed
  /-- They do so for no other record. -/
  only : ∀ g : Fields, w.bits.toNat = g.packed → g = f
  /-- The number of holders has its place and does not leave it. -/
  fits : f.holders ≤ Fields.mostHolders
  fields : w.fields = f
  held : w.held = f.held
  hasWaiters : w.hasWaiters = f.hasWaiters
  stranded : w.stranded = f.stranded
  hasAdmissibleWaiters : w.hasAdmissibleWaiters = f.hasAdmissibleWaiters
  blocksShared : w.blocksShared = f.blocksShared
  /-- The next change is made, declined or faults for the word as for the record. -/
  verdict : ∀ c : Change, (c.onWord w).1.verdict = (c.onFields f).1

/-- Every word stores its fields. -/
theorem stores_fields (w : Word) : w.Stores w.fields := by
  have hstranded : w.stranded = w.fields.stranded := by
    rw [Word.stranded, hasWaiters_eq, held_eq]
    rfl
  exact
    { packed := w.bits_toNat
      only := fun g hg => Fields.packed_injective (hg.symm.trans w.bits_toNat)
      fits := maxSharedHolders_toNat ▸ w.holders_le
      fields := rfl
      held := held_eq w
      hasWaiters := hasWaiters_eq w
      stranded := hstranded
      hasAdmissibleWaiters := by
        rw [Word.hasAdmissibleWaiters, hstranded, blocksShared_eq]
        rfl
      blocksShared := blocksShared_eq w
      verdict := fun c => congrArg Prod.fst (c.seen_onWord w) }

end Word

/-- Whatever a control word is and whatever changes are made to it, in any order, it stores what
these changes make of the record of its fields: the word is always the number that the fields make
side by side, each change moves the one field that it is about, faults and declines as the record
says, and every question about the word has the record's answer. -/
theorem controlWord_refines_fields (w : Word) (changes : List Word.Change) :
    (w.after changes).Stores (w.fields.after changes) := by
  rw [← Word.fields_after]
  exact Word.stores_fields _

/-- The last holder that can be counted is counted, the next one is not, and the wait bits stay. -/
example :
    (⟨0xFFFFFFF5⟩ : Word).after [.update .withSharedAcquired, .update .withSharedAcquired] =
      ⟨0xFFFFFFFD⟩ := by
  decide

end ReaderWriter
