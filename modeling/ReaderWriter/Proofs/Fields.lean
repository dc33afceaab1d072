import Mathlib.Data.Nat.Bitwise
import ReaderWriter.Word

/-!
# The fields of a control word

A control word is four independent fields: two wait bits, the lock bit and the number of shared
holders. Each question about a word is a question about its fields, and each update changes one
field and leaves the other three as they were.
-/

namespace ReaderWriter

/-- What a control word says, field by field. -/
structure Fields where
  uniqueWanted : Bool
  uniqueLocked : Bool
  sharedWaiting : Bool
  /-- The number of shared holders. -/
  holders : Nat
deriving DecidableEq

/-- The fields of a word. -/
def Word.fields (w : Word) : Fields :=
  ⟨w.uniqueWanted, w.uniqueLocked, w.sharedWaiting, w.sharedCount.toNat⟩

namespace FieldLemmas

/-! ## Single bits -/

theorem and_bit {x b : UInt32} {i : Nat} (hb : b.toNat = 2 ^ i) :
    (x &&& b != 0) = x.toNat.testBit i := by
  have hand : (x &&& b).toNat = (x.toNat.testBit i).toNat * 2 ^ i := by
    rw [UInt32.toNat_and, hb, Nat.and_two_pow]
  cases hx : x.toNat.testBit i with
  | false =>
    have hzero : x &&& b = 0 := by
      apply UInt32.toNat.inj
      rw [hand, hx]
      simp
    simp [hzero]
  | true =>
    have hne : x &&& b ≠ 0 := by
      intro hzero
      rw [hzero, hx] at hand
      simp only [UInt32.toNat_zero, Bool.toNat_true, Nat.one_mul] at hand
      exact (Nat.two_pow_pos i).ne hand
    simpa using hne

theorem testBit_or_bit {x b : UInt32} {i : Nat} (hb : b.toNat = 2 ^ i) (j : Nat) :
    (x ||| b).toNat.testBit j = (x.toNat.testBit j || decide (i = j)) := by
  rw [UInt32.toNat_or, hb, Nat.testBit_or, Nat.testBit_two_pow]

theorem testBit_and_not_bit {x b : UInt32} {i : Nat} (hi : i < 32) (hb : b.toNat = 2 ^ i)
    (j : Nat) :
    (x &&& ~~~b).toNat.testBit j = (x.toNat.testBit j && !decide (i = j)) := by
  have hlt : 2 ^ i < 2 ^ 32 := Nat.pow_lt_pow_right (by decide) hi
  have hnot : (~~~b).toNat = 2 ^ 32 - (2 ^ i + 1) := by
    rw [UInt32.toNat_not, hb]
    simp only [UInt32.size]
    omega
  rw [UInt32.toNat_and, hnot, Nat.testBit_and, Nat.testBit_two_pow_sub_succ hlt,
    Nat.testBit_two_pow]
  by_cases hj : j < 32
  · simp [hj]
  · have hx : x.toNat.testBit j = false :=
      Nat.testBit_lt_two_pow (Nat.lt_of_lt_of_le x.toNat_lt
        (Nat.pow_le_pow_right (by decide) (by omega)))
    simp [hx]

theorem uniqueWanted_eq (w : Word) : w.uniqueWanted = w.bits.toNat.testBit 0 := and_bit rfl

theorem uniqueLocked_eq (w : Word) : w.uniqueLocked = w.bits.toNat.testBit 1 := and_bit rfl

theorem sharedWaiting_eq (w : Word) : w.sharedWaiting = w.bits.toNat.testBit 2 := and_bit rfl

theorem sharedCount_toNat (w : Word) : w.sharedCount.toNat = w.bits.toNat / 8 := by
  rw [Word.sharedCount, UInt32.toNat_div]
  rfl

/-- Words that agree on the bits from 3 on count the same number of holders. -/
theorem sharedCount_eq_of_testBit {v w : Word}
    (h : ∀ j, 3 ≤ j → v.bits.toNat.testBit j = w.bits.toNat.testBit j) :
    v.sharedCount.toNat = w.sharedCount.toNat := by
  rw [sharedCount_toNat, sharedCount_toNat]
  apply Nat.eq_of_testBit_eq
  intro j
  rw [show (8 : Nat) = 2 ^ 3 from rfl, Nat.testBit_div_two_pow, Nat.testBit_div_two_pow]
  exact h (j + 3) (by omega)

/-- Raising one of the three low bits. -/
theorem fields_raise (w : Word) {b : UInt32} {i : Nat} (hi : i < 3) (hb : b.toNat = 2 ^ i) :
    (⟨w.bits ||| b⟩ : Word).fields =
      ⟨w.uniqueWanted || decide (i = 0), w.uniqueLocked || decide (i = 1),
        w.sharedWaiting || decide (i = 2), w.sharedCount.toNat⟩ := by
  have hcount : (⟨w.bits ||| b⟩ : Word).sharedCount.toNat = w.sharedCount.toNat := by
    apply sharedCount_eq_of_testBit
    intro j hj
    have hne : i ≠ j := by omega
    rw [testBit_or_bit hb, decide_eq_false hne, Bool.or_false]
  rw [Word.fields, hcount]
  simp only [uniqueWanted_eq, uniqueLocked_eq, sharedWaiting_eq, testBit_or_bit hb]

/-- Clearing one of the three low bits. -/
theorem fields_lower (w : Word) {b : UInt32} {i : Nat} (hi : i < 3) (hb : b.toNat = 2 ^ i) :
    (⟨w.bits &&& ~~~b⟩ : Word).fields =
      ⟨w.uniqueWanted && !decide (i = 0), w.uniqueLocked && !decide (i = 1),
        w.sharedWaiting && !decide (i = 2), w.sharedCount.toNat⟩ := by
  have hbit (j : Nat) := testBit_and_not_bit (x := w.bits) (i := i) (by omega) hb j
  have hcount : (⟨w.bits &&& ~~~b⟩ : Word).sharedCount.toNat = w.sharedCount.toNat := by
    apply sharedCount_eq_of_testBit
    intro j hj
    have hne : i ≠ j := by omega
    rw [hbit, decide_eq_false hne, Bool.not_false, Bool.and_true]
  rw [Word.fields, hcount]
  simp only [uniqueWanted_eq, uniqueLocked_eq, sharedWaiting_eq, hbit]

/-- The low bits of a number do not notice that 8 is added or taken away. -/
theorem testBit_eq_of_mod_eq {x y j : Nat} (hj : j < 3) (h : x % 8 = y % 8) :
    x.testBit j = y.testBit j := by
  have hx := Nat.testBit_mod_two_pow x 3 j
  have hy := Nat.testBit_mod_two_pow y 3 j
  simp only [hj, decide_true, Bool.true_and] at hx hy
  rw [← hx, ← hy]
  exact congrArg (Nat.testBit · j) h

/-- A word whose number moves by whole holders keeps its three low bits. -/
theorem fields_of_mod_eq {v w : Word} (h : v.bits.toNat % 8 = w.bits.toNat % 8) :
    v.fields = { w.fields with holders := v.bits.toNat / 8 } := by
  simp only [Word.fields, uniqueWanted_eq, uniqueLocked_eq, sharedWaiting_eq, sharedCount_toNat,
    testBit_eq_of_mod_eq (show 0 < 3 by decide) h, testBit_eq_of_mod_eq (show 1 < 3 by decide) h,
    testBit_eq_of_mod_eq (show 2 < 3 by decide) h]

theorem and_or_bits (x a b : UInt32) : (x &&& (a ||| b) != 0) = (x &&& a != 0 || x &&& b != 0) := by
  have hor : x &&& (a ||| b) = (x &&& a) ||| (x &&& b) := by
    apply UInt32.toNat.inj
    simp only [UInt32.toNat_and, UInt32.toNat_or, Nat.and_or_distrib_left]
  rw [hor, Bool.eq_iff_iff, Bool.or_eq_true, bne_iff_ne, bne_iff_ne, bne_iff_ne, Ne,
    UInt32.or_eq_zero_iff]
  exact not_and_or

theorem mod_two_eq (x j : Nat) : x / 2 ^ j % 2 = (x.testBit j).toNat := by
  rw [Nat.testBit_eq_decide_div_mod_eq]
  rcases Nat.mod_two_eq_zero_or_one (x / 2 ^ j) with h | h <;> simp [h]

end FieldLemmas

open FieldLemmas

namespace Word

/-- The fields lie side by side in the word and fill it. -/
theorem bits_toNat (w : Word) :
    w.bits.toNat = w.fields.uniqueWanted.toNat + 2 * w.fields.uniqueLocked.toNat +
      4 * w.fields.sharedWaiting.toNat + 8 * w.fields.holders := by
  have h0 := mod_two_eq w.bits.toNat 0
  have h1 := mod_two_eq w.bits.toNat 1
  have h2 := mod_two_eq w.bits.toNat 2
  simp only [fields, uniqueWanted_eq, uniqueLocked_eq, sharedWaiting_eq, sharedCount_toNat,
    ← h0, ← h1, ← h2]
  omega

/-- A word counts no more shared holders than it can. -/
theorem holders_le (w : Word) : w.fields.holders ≤ maxSharedHolders.toNat := by
  have hlt := w.bits.toNat_lt
  have hcount : w.fields.holders = w.bits.toNat / 8 := sharedCount_toNat w
  rw [hcount, show maxSharedHolders.toNat = 536870911 from rfl]
  omega

/-- Words with the same fields are the same. -/
theorem ext_fields {v w : Word} (h : v.fields = w.fields) : v = w := by
  have hbits : v.bits = w.bits := by
    apply UInt32.toNat.inj
    rw [bits_toNat, bits_toNat, h]
  cases v
  cases w
  exact congrArg Word.mk hbits

/-! ## Updates -/

@[simp]
theorem fields_withUniqueLock (w : Word) :
    w.withUniqueLock.fields = { w.fields with uniqueLocked := true } :=
  (fields_raise w (by decide) (show uniqueLockBit.toNat = 2 ^ 1 from rfl)).trans (by simp [fields])

@[simp]
theorem fields_withoutUniqueLock (w : Word) :
    w.withoutUniqueLock.fields = { w.fields with uniqueLocked := false } :=
  (fields_lower w (by decide) (show uniqueLockBit.toNat = 2 ^ 1 from rfl)).trans (by simp [fields])

@[simp]
theorem fields_withUniqueWait (w : Word) :
    w.withUniqueWait.fields = { w.fields with uniqueWanted := true } :=
  (fields_raise w (by decide) (show uniqueWaitBit.toNat = 2 ^ 0 from rfl)).trans (by simp [fields])

@[simp]
theorem fields_withoutUniqueWait (w : Word) :
    w.withoutUniqueWait.fields = { w.fields with uniqueWanted := false } :=
  (fields_lower w (by decide) (show uniqueWaitBit.toNat = 2 ^ 0 from rfl)).trans (by simp [fields])

@[simp]
theorem fields_withSharedWait (w : Word) :
    w.withSharedWait.fields = { w.fields with sharedWaiting := true } :=
  (fields_raise w (by decide) (show sharedWaitBit.toNat = 2 ^ 2 from rfl)).trans (by simp [fields])

@[simp]
theorem fields_withoutSharedWait (w : Word) :
    w.withoutSharedWait.fields = { w.fields with sharedWaiting := false } :=
  (fields_lower w (by decide) (show sharedWaitBit.toNat = 2 ^ 2 from rfl)).trans (by simp [fields])

/-! ## Questions -/

theorem fields_idle : idle.fields = ⟨false, false, false, 0⟩ := by decide

theorem eq_idle_iff {w : Word} : w = idle ↔ w.fields = ⟨false, false, false, 0⟩ := by
  rw [← fields_idle]
  exact ⟨congrArg fields, ext_fields⟩

theorem held_eq (w : Word) : w.held = (w.fields.uniqueLocked || decide (w.fields.holders ≠ 0)) := by
  let v : Word := ⟨w.bits &&& ~~~uniqueWaitBit⟩
  let u : Word := ⟨v.bits &&& ~~~sharedWaitBit⟩
  have hmask : w.bits &&& ~~~waitMask = u.bits := by
    rw [show ~~~waitMask = ~~~uniqueWaitBit &&& ~~~sharedWaitBit from rfl, ← UInt32.and_assoc]
  have hv : v.fields = { w.fields with uniqueWanted := false } := fields_withoutUniqueWait w
  have hu : u.fields = { v.fields with sharedWaiting := false } := fields_withoutSharedWait v
  have hzero : u.bits = 0 ↔ w.fields.uniqueLocked = false ∧ w.fields.holders = 0 := by
    have hidle : u.bits = 0 ↔ u = idle :=
      ⟨fun h => congrArg Word.mk h, fun h => congrArg Word.bits h⟩
    rw [hidle, eq_idle_iff, hu, hv]
    simp
  rw [held, hmask]
  by_cases h : u.bits = 0
  · simp [h, hzero.mp h]
  · have hne := mt hzero.mpr h
    cases hl : w.fields.uniqueLocked with
    | false => simp [h, show w.fields.holders ≠ 0 from fun h0 => hne ⟨hl, h0⟩]
    | true => simp [h]

theorem hasWaiters_eq (w : Word) :
    w.hasWaiters = (w.fields.uniqueWanted || w.fields.sharedWaiting) := and_or_bits _ _ _

theorem blocksShared_eq (w : Word) :
    w.blocksShared = (w.fields.uniqueLocked || w.fields.uniqueWanted) := and_or_bits _ _ _

/-- Readers are only let in while the unique lock is free. -/
theorem uniqueLocked_of_open {w : Word} (h : w.blocksShared = false) :
    w.fields.uniqueLocked = false := by
  rw [blocksShared_eq, Bool.or_eq_false_iff] at h
  exact h.1

/-! ## Updates that a caller can be refused -/

/-- A word that does not count as many shared holders as it can has room for one more. -/
theorem withSharedAcquired_eq_ok {w : Word} (hlock : w.fields.uniqueLocked = false)
    (hroom : w.fields.holders < maxSharedHolders.toNat) :
    ∃ w', w.withSharedAcquired = .ok w' ∧
      w'.fields = { w.fields with holders := w.fields.holders + 1 } := by
  have hlock' : w.uniqueLocked = false := hlock
  have hcount : w.sharedCount.toNat < maxSharedHolders.toNat := hroom
  have hle : ¬ maxSharedHolders ≤ w.sharedCount := fun h => by
    rw [UInt32.le_iff_toNat_le] at h
    omega
  refine ⟨⟨w.bits + sharedOne⟩, by simp [withSharedAcquired, hlock', hle], ?_⟩
  rw [sharedCount_toNat, show maxSharedHolders.toNat = 536870911 from rfl] at hcount
  have hadd : (w.bits + sharedOne).toNat = w.bits.toNat + 8 := by
    rw [UInt32.toNat_add, show sharedOne.toNat = 8 from rfl]
    omega
  rw [fields_of_mod_eq (w := w) (by simp only [hadd]; omega), hadd]
  simp only [fields, sharedCount_toNat]
  congr 1
  omega

/-- A shared holder is only added to a word whose unique lock is free. -/
theorem fields_of_withSharedAcquired {w w' : Word} (h : w.withSharedAcquired = .ok w') :
    w.fields.uniqueLocked = false ∧ w.fields.holders < maxSharedHolders.toNat ∧
      w'.fields = { w.fields with holders := w.fields.holders + 1 } := by
  unfold withSharedAcquired at h
  split at h
  · cases h
  · next hlock =>
    split at h
    · cases h
    · next hle =>
      have hroom : w.fields.holders < maxSharedHolders.toNat := by
        rw [UInt32.le_iff_toNat_le] at hle
        exact Nat.lt_of_not_le hle
      have hfree : w.fields.uniqueLocked = false := by simpa [fields] using hlock
      obtain ⟨v, hv, hfields⟩ := withSharedAcquired_eq_ok hfree hroom
      have hvw : v = w' := by
        cases h
        simpa [withSharedAcquired, hlock, hle, eq_comm] using hv
      exact ⟨hfree, hroom, hvw ▸ hfields⟩

/-- A word that lets readers in refuses a shared holder only because it cannot count it. -/
theorem of_withSharedAcquired_eq_error {w : Word} {f : Fault} (hopen : w.blocksShared = false)
    (h : w.withSharedAcquired = .error f) :
    f = .holderOverflow ∧ maxSharedHolders.toNat ≤ w.fields.holders := by
  have hlock : w.uniqueLocked = false := uniqueLocked_of_open hopen
  rw [withSharedAcquired, if_neg (Bool.eq_false_iff.mp hlock)] at h
  split at h
  · next hle =>
    cases h
    exact ⟨rfl, UInt32.le_iff_toNat_le.mp hle⟩
  · cases h

/-- The unique lock is given up where it is held. -/
theorem withUniqueReleased_eq_ok {w : Word} (h : w.fields.uniqueLocked = true) :
    w.withUniqueReleased = .ok w.withoutUniqueLock :=
  if_pos h

/-- A shared holder is taken off a word that counts one. -/
theorem withSharedReleased_eq_ok {w : Word} (h : 0 < w.fields.holders) :
    ∃ w', w.withSharedReleased = .ok w' ∧
      w'.fields = { w.fields with holders := w.fields.holders - 1 } := by
  have hcount : w.sharedCount ≠ 0 := by
    intro h0
    have hzero : w.fields.holders = 0 := congrArg UInt32.toNat h0
    omega
  have hpos : 0 < w.sharedCount.toNat := h
  rw [sharedCount_toNat] at hpos
  have hle : sharedOne ≤ w.bits := by
    rw [UInt32.le_iff_toNat_le, show sharedOne.toNat = 8 from rfl]
    omega
  have hsub : (w.bits - sharedOne).toNat = w.bits.toNat - 8 := UInt32.toNat_sub_of_le _ _ hle
  refine ⟨⟨w.bits - sharedOne⟩, by simp [withSharedReleased, hcount], ?_⟩
  rw [fields_of_mod_eq (w := w) (by simp only [hsub]; omega), hsub]
  simp only [fields, sharedCount_toNat]
  congr 1
  omega

/-- Only a word that counts a shared holder can lose one. -/
theorem fields_of_withSharedReleased {w w' : Word} (h : w.withSharedReleased = .ok w') :
    0 < w.fields.holders ∧ w'.fields = { w.fields with holders := w.fields.holders - 1 } := by
  have hpos : 0 < w.fields.holders := by
    rw [Nat.pos_iff_ne_zero]
    intro h0
    have hcount : w.sharedCount = 0 := UInt32.toNat.inj h0
    simp [withSharedReleased, hcount] at h
  obtain ⟨v, hv, hfields⟩ := withSharedReleased_eq_ok hpos
  cases hv.symm.trans h
  exact ⟨hpos, hfields⟩

end Word

end ReaderWriter
