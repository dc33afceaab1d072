import Mathlib.Data.Multiset.AddSub
import Mathlib.Logic.Function.Basic
import ReaderWriter.Script.Registries

/-!
# Registries as multisets

The list of a registry comes into another order whenever a flag is taken off, and the same flag may
be on it several times. None of this is seen: a registry is a multiset of flags. A call adds an
occurrence, takes one away or asks about them; it spares the other flags and the other registries.
Other threads may have the list meanwhile. A call then gives up or waits, and changes nothing.

* `Registry.withdraw_perm`: a flag is taken off and no other one is lost;
  `Registry.withdraw_looks_like_remove`: so it does not matter how it is done.
* `Bags.play`: what calls do to multisets.
* `RegistrySession.bags_play`: a call on the registries is the same call on their multisets.
* `registry_is_multiset`: so are all calls, one after the other.
-/

namespace ReaderWriter

/-! ## Taking a flag off -/

namespace ReadMostly

/-- Where the last entry goes into the gap, all other entries are left. -/
theorem swapRemove_perm {α : Type} (before : List α) (x : α) (rest : List α) :
    (swapRemove (before ++ x :: rest) before.length).Perm (before ++ rest) := by
  -- The entry is the last one itself, or there is another one to take its place.
  rcases List.eq_nil_or_concat' rest with rfl | ⟨middle, last, rfl⟩
  · simp [swapRemove]
  · have hswapped : swapRemove (before ++ x :: (middle ++ [last])) before.length =
        before ++ last :: middle := by
      have hlast : (before ++ x :: (middle ++ [last])).getLast? = some last := by
        rw [← List.cons_append, ← List.append_assoc, List.getLast?_concat]
      simp only [swapRemove, hlast]
      rw [List.set_append_right _ _ (Nat.le_refl _), Nat.sub_self, List.set_cons_zero,
        ← List.cons_append, ← List.append_assoc, List.dropLast_concat]
    rw [hswapped]
    exact (List.perm_append_singleton last middle).symm.append_left before

example : swapRemove [1, 2, 3, 4] 1 = [1, 4, 3] := rfl

theorem findIdx?_of_not_mem {entries : List Flag} {f : Flag} (h : f ∉ entries) :
    entries.findIdx? (fun entry => entry == f) = none :=
  List.findIdx?_eq_none_iff.mpr fun _ hg => beq_eq_false_iff_ne.mpr (ne_of_mem_of_not_mem hg h)

namespace Registry

/-- The list loses one entry for the flag, if there is one, and keeps all others. -/
theorem withdraw_perm (r : Registry) (f : Flag) :
    (r.withdraw f).entries.Perm (r.remove f).entries := by
  unfold withdraw remove
  rcases Decidable.em (f ∈ r.entries) with hmem | hnone
  · obtain ⟨before, rest, hentries, hfirst⟩ := List.eq_append_cons_of_mem hmem
    have hfound : r.entries.findIdx? (fun entry => entry == f) = some before.length := by
      rw [hentries, List.findIdx?_append, findIdx?_of_not_mem hfirst]
      simp [List.findIdx?_cons]
    simp only [hfound]
    rw [hentries, List.erase_append_right _ hfirst, List.erase_cons_head]
    exact swapRemove_perm before f rest
  · simp only [findIdx?_of_not_mem hnone]
    rw [List.erase_of_not_mem hnone]

/-- What can be seen of a registry does not tell in which way flags are taken off it. -/
theorem withdraw_looks_like_remove (r : Registry) (f : Flag) (m : Flags) :
    (r.withdraw f).allClear m = (r.remove f).allClear m ∧
      (r.withdraw f).raisedCount m = (r.remove f).raisedCount m ∧
      (r.withdraw f).entries.length = (r.remove f).entries.length ∧
      ∀ g, ((r.withdraw f).lowerAll m).isRaised g = ((r.remove f).lowerAll m).isRaised g := by
  have hperm := r.withdraw_perm f
  refine ⟨hperm.all_eq, (hperm.filter _).length_eq, hperm.length_eq, fun g => ?_⟩
  rw [isRaised_lowerAll, isRaised_lowerAll, decide_eq_decide.mpr hperm.mem_iff]

/-- Taking a flag off does not touch who has the list. -/
theorem withdraw_access (r : Registry) (f : Flag) :
    (r.withdraw f).writer = r.writer ∧ (r.withdraw f).readers = r.readers := by
  unfold withdraw
  split <;> exact ⟨rfl, rfl⟩

end Registry

end ReadMostly

open ReadMostly

namespace Script

/-! ## Calls -/

/-- A call on a registry, or on a flag. Registries and flags are told by the numbers that a script
gives them; several numbers may be of the same flag. -/
inductive RegistryCall where
  | register (registry flag : Nat) (blocking : Bool)
  | deregister (registry flag : Nat)
  | put (flag : Nat) (up : Bool)
  | allClear (registry : Nat) (blocking : Bool)
  | length (registry : Nat)
  | drop (registry : Nat)
deriving DecidableEq

namespace RegistryCall

/-- The call as an action of a script. -/
def action : RegistryCall → RegistryAction
  | .register r flag blocking => .register r flag blocking
  | .deregister r flag => .deregister r flag
  | .put flag up => .put flag up
  | .allClear r blocking => .allClear r blocking
  | .length r => .length r
  | .drop r => .drop r

/-- The registry that the call waits for until it can be had for reading. -/
def reads? : RegistryCall → Option Nat
  | .allClear r true | .length r => some r
  | _ => none

/-- The registry that the call waits for until it can be had for writing. A registry is dropped when
nobody uses it any more. -/
def writes? : RegistryCall → Option Nat
  | .register r _ true | .deregister r _ | .drop r => some r
  | _ => none

end RegistryCall

/-- What happens to the registries of a script. -/
inductive RegistryEvent where
  /-- A call is made. -/
  | call (c : RegistryCall)
  /-- Other threads take the list of a registry or give it back: from now on these have it. -/
  | occupy (registry : Nat) (writer : Option ThreadId) (readers : List ThreadId)
deriving DecidableEq

namespace RegistrySession

variable (s : RegistrySession)

/-- The call waits for a list that another thread has. -/
def waits (c : RegistryCall) : Bool :=
  ((c.reads?.bind s.registry?).any fun r => !r.canRead) ||
    (c.writes?.bind s.registry?).any fun r => !r.canWrite

/-- The answer to an event, if there is one already, and what the event leaves. No call uses what
its thread keeps for itself. -/
def play : RegistryEvent → Option RegistryAnswer × RegistrySession
  | .call c =>
      if s.waits c then (none, s)
      else
        let acted := s.act {} c.action
        (some acted.answer, acted.session)
  | .occupy r writer readers =>
      match s.registry? r with
      | some registry =>
          (none, s.withRegistry r { registry with writer := writer, readers := readers })
      | none => (none, s)

/-- What is left by events, one after the other. -/
def after (events : List RegistryEvent) : RegistrySession :=
  events.foldl (fun s e => (s.play e).2) s

end RegistrySession

/-! ## Multisets -/

/-- A registry as a multiset of flags, and whether its list is to be had. -/
structure Bag where
  flags : Multiset Flag
  canRead : Bool
  canWrite : Bool

/-- Registries as multisets, the flags that are told by numbers, and which flags are up. -/
structure Bags where
  bags : List (Option Bag)
  flags : List Flag
  up : Flag → Bool

namespace Bags

variable (b : Bags)

/-- The multiset at an index, if its registry has not been dropped. -/
def bag? (r : Nat) : Option Bag := (b.bags[r]?).join

/-- Other flags at an index. -/
def withFlags (r : Nat) (bag : Bag) (flags : Multiset Flag) : Bags :=
  { b with bags := b.bags.set r (some { bag with flags := flags }) }

/-- The call waits for a list that another thread has. -/
def waits (c : RegistryCall) : Bool :=
  ((c.reads?.bind b.bag?).any fun bag => !bag.canRead) ||
    (c.writes?.bind b.bag?).any fun bag => !bag.canWrite

/-- An answer about a registry that may have been dropped. -/
def onBag (r : Nat) (f : Bag → RegistryAnswer × Bags) : RegistryAnswer × Bags :=
  match b.bag? r with
  | some bag => f bag
  | none => (.gone, b)

/-- An answer about a flag, if there is one of this number. -/
def onFlag (flag : Nat) (f : Flag → RegistryAnswer × Bags) : RegistryAnswer × Bags :=
  match b.flags[flag]? with
  | some g => f g
  | none => (.nothing, b)

/-- What a call that does not wait answers and leaves. -/
def act : RegistryCall → RegistryAnswer × Bags
  | .register r flag _ =>
      b.onBag r fun bag => b.onFlag flag fun f =>
        if bag.canWrite then (.truth true, b.withFlags r bag (f ::ₘ bag.flags))
        else (.truth false, b)
  | .deregister r flag =>
      b.onBag r fun bag => b.onFlag flag fun f =>
        (.nothing, b.withFlags r bag (bag.flags.erase f))
  | .put flag up =>
      b.onFlag flag fun f => (.nothing, { b with up := Function.update b.up f up })
  | .allClear r _ =>
      b.onBag r fun bag =>
        (.truth (bag.canRead && decide (∀ f ∈ bag.flags, b.up f = false)), b)
  | .length r => b.onBag r fun bag => (.index bag.flags.card, b)
  | .drop r =>
      b.onBag r fun bag =>
        (.nothing,
          { b with
            bags := b.bags.set r none
            up := fun f => if f ∈ bag.flags then false else b.up f })

/-- The answer to an event, if there is one already, and what the event leaves. -/
def play : RegistryEvent → Option RegistryAnswer × Bags
  | .call c =>
      if b.waits c then (none, b)
      else
        let (answer, b') := b.act c
        (some answer, b')
  | .occupy r writer readers =>
      match b.bag? r with
      | some bag =>
          let bag' : Bag := ⟨bag.flags, writer.isNone, writer.isNone && readers.isEmpty⟩
          (none, { b with bags := b.bags.set r (some bag') })
      | none => (none, b)

/-- What is left by events, one after the other. -/
def after (events : List RegistryEvent) : Bags := events.foldl (fun b e => (b.play e).2) b

end Bags

/-- The multiset of a registry. -/
def bagOf (r : Registry) : Bag := ⟨r.entries, r.canRead, r.canWrite⟩

/-- The multisets of the registries of a script. -/
def RegistrySession.bags (s : RegistrySession) : Bags :=
  ⟨s.registries.map (Option.map bagOf), s.flags, s.memory.isRaised⟩

/-! ## One call -/

section

variable {r : Registry} {f : Flag} {t : ThreadId}

theorem bagOf_add (h : r.canWrite = true) :
    bagOf ((r.beginWrite t).add f).endWrite = { bagOf r with flags := f ::ₘ r.entries } := by
  obtain ⟨hwriter, hreaders⟩ := Bool.and_eq_true_iff.mp h
  have hflags : ((r.entries ++ [f] : List Flag) : Multiset Flag) = f ::ₘ r.entries :=
    Multiset.coe_eq_coe.mpr (List.perm_append_singleton f r.entries)
  simp [bagOf, Registry.add, Registry.endWrite, Registry.beginWrite, Registry.canRead,
    Registry.canWrite, hflags, hwriter, hreaders]

theorem bagOf_withdraw (h : r.canWrite = true) :
    bagOf ((r.beginWrite t).withdraw f).endWrite =
      { bagOf r with flags := (r.entries : Multiset Flag).erase f } := by
  obtain ⟨hwriter, hreaders⟩ := Bool.and_eq_true_iff.mp h
  have hflags : (((r.beginWrite t).withdraw f).entries : Multiset Flag) =
      (r.entries : Multiset Flag).erase f := by
    rw [Multiset.coe_erase]
    exact Multiset.coe_eq_coe.mpr ((r.beginWrite t).withdraw_perm f)
  have hreaders' : ((r.beginWrite t).withdraw f).readers = r.readers :=
    ((r.beginWrite t).withdraw_access f).2
  simp [bagOf, Registry.endWrite, Registry.canRead, Registry.canWrite, hflags, hreaders', hwriter,
    hreaders]

end

namespace RegistrySession

variable {s : RegistrySession} {r : Nat} {registry : Registry}

theorem bag?_bags (s : RegistrySession) (r : Nat) :
    s.bags.bag? r = (s.registry? r).map bagOf := by
  simp only [Bags.bag?, bags, registry?, List.getElem?_map]
  cases s.registries[r]? <;> rfl

theorem bags_withRegistry (s : RegistrySession) (r : Nat) (registry : Registry) :
    (s.withRegistry r registry).bags =
      { s.bags with bags := s.bags.bags.set r (some (bagOf registry)) } := by
  simp [bags, withRegistry, List.map_set]

theorem any_bag (s : RegistrySession) (r? : Option Nat) (p : Bag → Bool) :
    (r?.bind s.bags.bag?).any p = (r?.bind s.registry?).any fun registry => p (bagOf registry) := by
  cases r? with
  | none => rfl
  | some r => rw [Option.bind_some, bag?_bags, Option.any_map]; rfl

/-- Who has to wait for a list has to wait for the multiset. -/
theorem waits_bags (s : RegistrySession) (c : RegistryCall) : s.bags.waits c = s.waits c := by
  rw [Bags.waits, any_bag, any_bag]
  rfl

/-- What is seen of an action of a script on the multisets. -/
def seen (acted : Acted) : RegistryAnswer × Bags := (acted.answer, acted.session.bags)

theorem seen_onRegistry {f : Registry → Acted} {g : Bag → RegistryAnswer × Bags}
    (h : ∀ registry, s.registry? r = some registry → seen (f registry) = g (bagOf registry)) :
    seen (s.onRegistry {} r f) = s.bags.onBag r g := by
  rw [onRegistry, Bags.onBag, bag?_bags]
  cases hr : s.registry? r with
  | none => rfl
  | some registry => exact h registry hr

theorem seen_onFlag {k : Nat} {f : Flag → Acted} {g : Flag → RegistryAnswer × Bags}
    (h : ∀ flag, seen (f flag) = g flag) : seen (s.onFlag {} k f) = s.bags.onFlag k g := by
  rw [onFlag, Bags.onFlag, show s.bags.flags = s.flags from rfl]
  cases s.flags[k]? with
  | none => rfl
  | some flag => exact h flag

theorem canWrite_of_not_waits {c : RegistryCall} (h : s.waits c = false) (hc : c.writes? = some r)
    (hr : s.registry? r = some registry) : registry.canWrite = true := by
  have hwrites := (Bool.or_eq_false_iff.mp h).2
  simpa [hc, hr] using hwrites

theorem canRead_of_not_waits {c : RegistryCall} (h : s.waits c = false) (hc : c.reads? = some r)
    (hr : s.registry? r = some registry) : registry.canRead = true := by
  have hreads := (Bool.or_eq_false_iff.mp h).1
  simpa [hc, hr] using hreads

/-- A call that need not wait does to the registries what it does to their multisets. -/
theorem seen_act {c : RegistryCall} (h : s.waits c = false) :
    seen (s.act {} c.action) = s.bags.act c := by
  cases c with
  | register r k blocking =>
    rw [RegistryCall.action, act]
    refine seen_onRegistry fun registry hr => seen_onFlag fun f => ?_
    -- Who insists has waited until the list was to be had, so insisting makes no difference now.
    have hfree : (blocking || registry.canWrite) = registry.canWrite := by
      cases blocking with
      | false => rfl
      | true => exact (canWrite_of_not_waits h rfl hr).symm
    rw [hfree]
    cases hwrite : registry.canWrite with
    | true =>
      rw [if_pos rfl, if_pos (show (bagOf registry).canWrite = true from hwrite)]
      simp only [seen, add, bags_withRegistry, bagOf_add hwrite]
      rfl
    | false =>
      have hbusy : (bagOf registry).canWrite = false := hwrite
      rw [if_neg Bool.false_ne_true, hbusy]
      rfl
  | deregister r k =>
    rw [RegistryCall.action, act]
    refine seen_onRegistry fun registry hr => seen_onFlag fun f => ?_
    have hwrite : registry.canWrite = true := canWrite_of_not_waits h rfl hr
    simp only [seen, remove, bags_withRegistry, bagOf_withdraw hwrite]
    rfl
  | put k up =>
    rw [RegistryCall.action, act]
    refine seen_onFlag fun f => ?_
    have hup : (s.memory.put f up).isRaised = Function.update s.memory.isRaised f up := by
      funext g
      rw [Flags.isRaised_put, Function.update_apply]
    simp only [seen, bags, hup]
  | allClear r blocking =>
    rw [RegistryCall.action, act]
    refine seen_onRegistry fun registry hr => ?_
    have hfree : (blocking || registry.canRead) = registry.canRead := by
      cases blocking with
      | false => rfl
      | true => exact (canRead_of_not_waits h rfl hr).symm
    have hclear : registry.allClear s.memory =
        decide (∀ f ∈ (registry.entries : Multiset Flag), s.memory.isRaised f = false) := by
      simp [Registry.allClear, List.all_eq]
    simp only [seen, hfree, hclear]
    rfl
  | length r =>
    rw [RegistryCall.action, act]
    exact seen_onRegistry fun registry _ => rfl
  | drop r =>
    rw [RegistryCall.action, act]
    refine seen_onRegistry fun registry _ => ?_
    have hup : (registry.lowerAll s.memory).isRaised = fun f =>
        if f ∈ (registry.entries : Multiset Flag) then false else s.memory.isRaised f := by
      funext f
      rw [Registry.isRaised_lowerAll]
      split <;> simp_all
    simp only [seen, bags, hup, List.map_set]
    rfl

/-- An event does to the registries what it does to their multisets. -/
theorem bags_play (s : RegistrySession) (e : RegistryEvent) :
    (s.play e).1 = (s.bags.play e).1 ∧ (s.play e).2.bags = (s.bags.play e).2 := by
  cases e with
  | call c =>
    rw [play, Bags.play, waits_bags]
    cases hwaits : s.waits c with
    | true => exact ⟨rfl, rfl⟩
    | false =>
      have hact := seen_act hwaits
      rw [if_neg Bool.false_ne_true, if_neg Bool.false_ne_true]
      exact ⟨congrArg (fun x => some x.1) hact, congrArg Prod.snd hact⟩
  | occupy r writer readers =>
    rw [play, Bags.play, bag?_bags]
    cases s.registry? r with
    | none => exact ⟨rfl, rfl⟩
    | some registry => exact ⟨rfl, bags_withRegistry s r _⟩

/-- Events do to the registries what they do to their multisets. -/
theorem bags_after (s : RegistrySession) (events : List RegistryEvent) :
    (s.after events).bags = s.bags.after events := by
  induction events generalizing s with
  | nil => rfl
  | cons e rest ih =>
    have hrest := ih (s.play e).2
    rw [(s.bags_play e).2] at hrest
    exact hrest

end RegistrySession

/-- Whatever the registries of a script are, whichever flags its numbers tell, and whatever calls
are made while other threads take the lists and give them back: the registries are always the
multisets to which the same calls come, and the next call is answered, gives up or waits as it does
there. -/
theorem registry_is_multiset (s : RegistrySession) (events : List RegistryEvent) :
    (s.after events).bags = s.bags.after events ∧
      ∀ e, ((s.after events).play e).1 = ((s.bags.after events).play e).1 := by
  have hbags := s.bags_after events
  refine ⟨hbags, fun e => ?_⟩
  rw [← hbags]
  exact ((s.after events).bags_play e).1

end Script

end ReaderWriter
