import Mathlib.Logic.Function.Basic
import ReaderWriter.Script.Flags
import ReaderWriter.Threads

/-!
# Threads that share flags

Several threads share a memory of flags. One after the other, in any order, they have flags handed
out to them by the suppliers, copy handles to flags, and raise and lower flags. What one thread does
is an action of a script; what a thread keeps for itself is kept apart for each.

* `Crew.act`: one action of one thread, with a record of how the handles came about and of what was
  written through them.
* `Crew.Step`: what an action can do, one flag at a time.
* `Crew.act_induction`: what every step keeps is kept by every action.
-/

namespace ReaderWriter.Script

open ReadMostly

/-- How a crew came by a handle to a flag. -/
inductive Gain where
  /-- A supplier handed the flag out to a thread. -/
  | handed (t : ThreadId) (supply : Supply)
  /-- A thread picked the slot of a block by itself. -/
  | picked
  /-- The handle is a copy, or a copy of a copy, of an earlier one that is none. -/
  | copied (root : Nat)
deriving DecidableEq

/-- Threads that share their flags. -/
structure Crew where
  blocks : List Nat := []
  /-- The handles, in the order in which they came about. -/
  flags : List Flag := []
  memory : Flags := {}
  locals : ThreadId → Locals := fun _ => {}
  /-- How each of the handles came about. -/
  gains : List Gain := []
  /-- What was written, the latest first, under the handle that the copying began with. -/
  writes : List (Nat × Bool) := []

/-- The supplier that an action has flags handed out by. -/
def FlagAction.supply? : FlagAction → Option Supply
  | .isolated => some .isolated
  | .packed _ => some .packed
  | _ => none

namespace Crew

/-- The crew as a script of one of its threads sees it. -/
def session (c : Crew) (t : ThreadId) : FlagSession := ⟨c.blocks, c.flags, c.memory, c.locals t⟩

/-- The handle that the copying began with. -/
def root (c : Crew) (i : Nat) : Nat :=
  match c.gains[i]? with
  | some (.copied r) => r
  | _ => i

/-- How the handles that an action yields come about. -/
def gain (c : Crew) (t : ThreadId) : FlagAction → Gain
  | .isolated => .handed t .isolated
  | .packed _ => .handed t .packed
  | .clone i => .copied (c.root i)
  | _ => .picked

/-- What an action writes. -/
def written (c : Crew) : FlagAction → List (Nat × Bool)
  | .put i up => if i < c.flags.length then [(c.root i, up)] else []
  | _ => []

/-- One action of one thread. -/
def act (c : Crew) (t : ThreadId) (a : FlagAction) : Crew :=
  let s := ((c.session t).act a).1
  { blocks := s.blocks
    flags := s.flags
    memory := s.memory
    locals := Function.update c.locals t s.locals
    gains := c.gains ++ List.replicate (s.flags.length - c.flags.length) (c.gain t a)
    writes := c.written a ++ c.writes }

/-- What the actions of threads, one after the other, make of a new crew. -/
def after (deeds : List (ThreadId × FlagAction)) : Crew :=
  deeds.foldl (fun c deed => c.act deed.1 deed.2) {}

/-- The handle is to a flag that was handed out, or is a copy of one. -/
def IsHanded (c : Crew) (i : Nat) : Prop :=
  ∃ t supply, c.gains[c.root i]? = some (.handed t supply)

/-- How many packed flags the thread has been handed before the one with this handle. -/
def number (c : Crew) (t : ThreadId) (i : Nat) : Nat :=
  (c.gains.take i).count (.handed t .packed)

/-- What was written last through the handle or its copies. A flag is down at first. -/
def lastWritten (c : Crew) (i : Nat) : Bool := (c.writes.lookup (c.root i)).getD false

/-! ## One flag at a time -/

/-- What a crew can do in one step: an action is a number of them. -/
inductive Step (c : Crew) (t : ThreadId) : Crew → Prop
  | block :
      Step c t { c with
        blocks := c.blocks ++ [c.memory.blocks]
        memory := c.memory.newBlock.2 }
  | pick {f : Flag} : f.block ∈ c.blocks →
      Step c t { c with flags := c.flags ++ [f], gains := c.gains ++ [.picked] }
  | hand {supply : Supply} {handed : Supply.Handed} : supply = .isolated ∨ supply = .packed →
      supply.allocate c.memory (c.locals t) = .ok handed →
      Step c t { c with
        flags := c.flags ++ [handed.flag]
        memory := handed.flags
        locals := Function.update c.locals t handed.locals
        gains := c.gains ++ [.handed t supply] }
  | copy {i : Nat} {f : Flag} : c.flags[i]? = some f →
      Step c t { c with flags := c.flags ++ [f], gains := c.gains ++ [.copied (c.root i)] }
  | write {i : Nat} {f : Flag} (up : Bool) : c.flags[i]? = some f →
      Step c t { c with
        memory := c.memory.put f up
        writes := (c.root i, up) :: c.writes }

variable {c c' : Crew} {t : ThreadId} {a : FlagAction} {P : Crew → Prop}

/-- An action that leaves the session as it is, and writes nothing, leaves the crew as it is. -/
theorem act_eq_self (hsession : ((c.session t).act a).1 = c.session t)
    (hwritten : c.written a = []) : c.act t a = c := by
  simp only [act, hsession, hwritten]
  simp [session]

/-- An action that yields one handle. -/
theorem act_eq_of_gain {f : Flag} {s : FlagSession} (hsession : (c.session t).act a = s.gain f)
    (hflags : s.flags = c.flags) (hwritten : c.written a = []) :
    c.act t a =
      { blocks := s.blocks, flags := c.flags ++ [f], memory := s.memory,
        locals := Function.update c.locals t s.locals, gains := c.gains ++ [c.gain t a],
        writes := c.writes } := by
  simp [act, hsession, hwritten, hflags, FlagSession.gain]

/-- A supplier of this library that keeps no pairs always has a flag. -/
theorem allocate_ok {supply : Supply} (h : supply = .isolated ∨ supply = .packed) (m : Flags)
    (l : Locals) : ∃ handed, supply.allocate m l = .ok handed := by
  rcases h with rfl | rfl <;> exact ⟨_, rfl⟩

theorem act_isolated : Step c t (c.act t .isolated) := by
  obtain ⟨handed, hhanded⟩ := allocate_ok (.inl rfl) c.memory (c.locals t)
  have hact : (c.session t).act .isolated = FlagSession.gain
      { c.session t with memory := handed.flags, locals := handed.locals } handed.flag := by
    simp [FlagSession.act, FlagSession.allocate, session, hhanded]
  rw [act_eq_of_gain hact rfl rfl]
  exact .hand (.inl rfl) hhanded

theorem allocatePacked_length (s : FlagSession) (n : Nat) :
    (s.allocatePacked n).1.flags.length = s.flags.length + n := by
  induction n generalizing s with
  | zero => rfl
  | succ n ih =>
    obtain ⟨handed, hhanded⟩ := allocate_ok (.inr rfl) s.memory s.locals
    simp only [FlagSession.allocatePacked, FlagSession.allocate, hhanded, FlagSession.gain, ih,
      List.length_append, List.length_singleton]
    omega

theorem act_packed_zero : c.act t (.packed 0) = c := act_eq_self rfl rfl

/-- The first of several packed flags is handed out before the others. -/
theorem act_packed_succ (n : Nat) :
    ∃ c', Step c t c' ∧ c'.flags.length = c.flags.length + 1 ∧
      c'.gains = c.gains ++ [.handed t .packed] ∧
      c.act t (.packed (n + 1)) = c'.act t (.packed n) := by
  obtain ⟨handed, hhanded⟩ := allocate_ok (.inr rfl) c.memory (c.locals t)
  refine ⟨_, .hand (.inr rfl) hhanded, by simp, rfl, ?_⟩
  have hsession : ((c.session t).act (.packed (n + 1))).1 = (FlagSession.allocatePacked
      ⟨c.blocks, c.flags ++ [handed.flag], handed.flags, handed.locals⟩ n).1 := by
    simp [FlagSession.act, FlagSession.allocatePacked, FlagSession.allocate, session, hhanded,
      FlagSession.gain]
  have hcount : c.flags.length + 1 + n - (c.flags.length + 1) = n := Nat.add_sub_cancel_left _ _
  have hcount' : c.flags.length + 1 + n - c.flags.length = n + 1 := by omega
  simp only [act, hsession]
  simp [session, FlagSession.act, allocatePacked_length, written, gain, hcount, hcount',
    List.replicate_succ]

/-- An action that needs a flag does nothing if the flag is not there. -/
theorem withFlag_of_none {s : FlagSession} {i : Nat} (h : s.flags[i]? = none)
    (f : Flag → FlagSession × List FlagAnswer) : (s.withFlag i f).1 = s := by
  simp [FlagSession.withFlag, h]

theorem withFlag_of_some {s : FlagSession} {i : Nat} {g : Flag} (h : s.flags[i]? = some g)
    (f : Flag → FlagSession × List FlagAnswer) : s.withFlag i f = f g := by
  simp [FlagSession.withFlag, h]

/-- An answer about flags changes nothing. -/
theorem withFlag_of_silent {s : FlagSession} {f : Flag → FlagSession × List FlagAnswer}
    (h : ∀ g, (f g).1 = s) (i : Nat) : (s.withFlag i f).1 = s := by
  cases hi : s.flags[i]? with
  | none => exact withFlag_of_none hi f
  | some g => rw [withFlag_of_some hi, h]

theorem act_put {i : Nat} {f : Flag} (h : c.flags[i]? = some f) (up : Bool) :
    c.act t (.put i up) =
      { c with memory := c.memory.put f up, writes := (c.root i, up) :: c.writes } := by
  have hi : i < c.flags.length := (List.getElem?_eq_some_iff.mp h).1
  have hact : ((c.session t).act (.put i up)).1 =
      { c.session t with memory := c.memory.put f up } := by
    simp only [FlagSession.act, withFlag_of_some (s := c.session t) h]
    rfl
  simp only [act, hact]
  simp [session, written, hi]

/-- What holds before an action and is kept by every step holds after it. -/
theorem act_induction (hstep : ∀ c c', P c → Step c t c' → P c') (h : P c) : P (c.act t a) := by
  cases a with
  | block =>
    have heq : c.act t .block = { c with
        blocks := c.blocks ++ [c.memory.blocks], memory := c.memory.newBlock.2 } := by
      simp [act, session, FlagSession.act, Flags.newBlock, written]
    exact heq ▸ hstep c _ h .block
  | blockDebug block =>
    have hact : ((c.session t).act (.blockDebug block)).1 = c.session t := by
      simp only [FlagSession.act]
      split <;> rfl
    rwa [act_eq_self hact rfl]
  | inBlock block slot =>
    cases hflag : c.blocks[block]?.bind (Flag.inBlock? · slot) with
    | none =>
      have hact : ((c.session t).act (.inBlock block slot)).1 = c.session t := by
        simp [FlagSession.act, session, hflag]
      rwa [act_eq_self hact rfl]
    | some f =>
      have hact : (c.session t).act (.inBlock block slot) = (c.session t).gain f := by
        simp [FlagSession.act, session, hflag]
      rw [act_eq_of_gain hact rfl rfl]
      simp only [session, Function.update_eq_self]
      obtain ⟨b, hb, hf⟩ := Option.bind_eq_some_iff.mp hflag
      have hblock : f.block = b := by
        unfold Flag.inBlock? at hf
        split at hf <;> cases hf
        rfl
      exact hstep c _ h (.pick (hblock ▸ List.mem_of_getElem? hb))
  | isolated => exact hstep c _ h act_isolated
  | packed n =>
    induction n generalizing c with
    | zero => exact act_packed_zero ▸ h
    | succ n ih =>
      obtain ⟨c', hc', -, -, heq⟩ := act_packed_succ (c := c) (t := t) n
      exact heq ▸ ih (hstep c c' h hc')
  | clone i =>
    cases hi : c.flags[i]? with
    | none =>
      have hact : ((c.session t).act (.clone i)).1 = c.session t := withFlag_of_none hi _
      rwa [act_eq_self hact rfl]
    | some f =>
      have hact : (c.session t).act (.clone i) = (c.session t).gain f := withFlag_of_some hi _
      rw [act_eq_of_gain hact rfl rfl]
      simp only [session, Function.update_eq_self]
      exact hstep c _ h (.copy hi)
  | put i up =>
    cases hi : c.flags[i]? with
    | none =>
      have hwritten : c.written (.put i up) = [] := by
        simpa [written] using List.getElem?_eq_none_iff.mp hi
      have hact : ((c.session t).act (.put i up)).1 = c.session t := withFlag_of_none hi _
      rwa [act_eq_self hact hwritten]
    | some f => exact act_put hi up ▸ hstep c _ h (.write up hi)
  | debug i =>
    have hact : ((c.session t).act (.debug i)).1 = c.session t := by
      refine withFlag_of_silent (fun _ => ?_) i
      rfl
    rwa [act_eq_self hact rfl]
  | same i j =>
    have hact : ((c.session t).act (.same i j)).1 = c.session t := by
      refine withFlag_of_silent (fun _ => withFlag_of_silent (fun _ => ?_) j) i
      rfl
    rwa [act_eq_self hact rfl]
  | unknown =>
    have hact : ((c.session t).act .unknown).1 = c.session t := rfl
    rwa [act_eq_self hact rfl]

end Crew

end ReaderWriter.Script
