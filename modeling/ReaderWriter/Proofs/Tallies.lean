import Mathlib.Data.List.Induction
import ReaderWriter.Proofs.ReadMostly.Crowd

/-!
# Tallies

How often something has happened in a run of given events: how often a thread has come to a place of
a lock, or gone from it.

* `Run.tally`: how many of the events are of a kind.
* `Run.Plays.induction`: what holds at first and is kept by one more event holds of all events.
* `Run.tally_comesTo`: a thread comes to a place as often as it goes from it, but for the place
  where it stands.
-/

namespace ReaderWriter

open ReadMostly (Pc)

namespace Run

variable {ok : Run → Event → Prop} {r : Run} {e : Event} {m : Nat} {t : ThreadId}

/-- How many of the events, one after the other, are of a kind. -/
def tally (kind : Run → Event → Bool) (r : Run) : List Event → Nat
  | [] => 0
  | e :: rest => (kind r e).toNat + (r.after e).tally kind rest

@[simp]
theorem tally_nil (kind : Run → Event → Bool) (r : Run) : r.tally kind [] = 0 := rfl

@[simp]
theorem play_nil (r : Run) : r.play [] = r := rfl

theorem play_append (r : Run) (events more : List Event) :
    r.play (events ++ more) = (r.play events).play more := by
  simp [play]

theorem play_concat (r : Run) (events : List Event) (e : Event) :
    r.play (events ++ [e]) = (r.play events).after e :=
  play_append r events [e]

theorem tally_concat (kind : Run → Event → Bool) (r : Run) (events : List Event) (e : Event) :
    r.tally kind (events ++ [e]) = r.tally kind events + (kind (r.play events) e).toNat := by
  induction events generalizing r with
  | nil => simp [tally]
  | cons e' events ih =>
    simp only [List.cons_append, tally, ih, play, List.foldl_cons]
    omega

theorem plays_append {events more : List Event} :
    r.Plays ok (events ++ more) ↔ r.Plays ok events ∧ (r.play events).Plays ok more := by
  induction events generalizing r with
  | nil => simp [Plays]
  | cons e events ih => simp only [List.cons_append, Plays, ih, play, List.foldl_cons, and_assoc]

theorem plays_concat {events : List Event} :
    r.Plays ok (events ++ [e]) ↔
      r.Plays ok events ∧ (r.play events).world.Permits e ∧ ok (r.play events) e := by
  simp [plays_append, Plays]

theorem Plays.mono {ok' : Run → Event → Prop} {events : List Event} (h : r.Plays ok events)
    (himp : ∀ r e, ok r e → ok' r e) : r.Plays ok' events := by
  induction events generalizing r with
  | nil => trivial
  | cons e events ih => exact ⟨h.1, himp _ _ h.2.1, ih h.2.2⟩

theorem Plays.and {ok' : Run → Event → Prop} {events : List Event} (h : r.Plays ok events)
    (h' : r.Plays ok' events) : r.Plays (fun r e => ok r e ∧ ok' r e) events := by
  induction events generalizing r with
  | nil => trivial
  | cons e events ih => exact ⟨h.1, ⟨h.2.1, h'.2.1⟩, ih h.2.2 h'.2.2⟩

/-- What holds before all events, and after one more event if it held before, holds after all. -/
theorem Plays.induction {P : List Event → Prop} (hnil : P [])
    (hstep : ∀ events e, r.Plays ok events → (r.play events).world.Permits e →
      ok (r.play events) e → P events → P (events ++ [e]))
    {events : List Event} (h : r.Plays ok events) : P events := by
  induction events using List.reverseRecOn with
  | nil => exact hnil
  | append_singleton events e ih =>
    obtain ⟨hplays, hp, hok⟩ := plays_concat.mp h
    exact hstep events e hplays hp hok (ih hplays)

/-! ## Coming and going -/

/-- Where a thread stands on the read-mostly lock at an index. -/
def pc? (r : Run) (m : Nat) (t : ThreadId) : Option Pc := (r.place m t).bind Progress.readMostly?

theorem pc?_eq_some_iff {pc : Pc} :
    r.pc? m t = some pc ↔ (r.world.thread t).stint? = some (m, .readMostly pc) :=
  crowdPlace_iff (s := ⟨0, .packed, .standard, {}, .no, none, {}, {}, {}⟩)

theorem pc?_congr {r' : Run} (h : r'.world.thread t = r.world.thread t) :
    r'.pc? m t = r.pc? m t := by
  rw [pc?, place_congr h, pc?]

/-- Between the runs the thread comes to a place of this kind on the lock. -/
def comes (r r' : Run) (m : Nat) (t : ThreadId) (kind : Pc → Bool) : Bool :=
  (r'.pc? m t).any kind && !(r.pc? m t).any kind

/-- By the event the thread comes to a place of this kind on the lock. -/
def comesTo (kind : Pc → Bool) (m : Nat) (t : ThreadId) (r : Run) (e : Event) : Bool :=
  r.comes (r.after e) m t kind

/-- By the event the thread goes from a place of this kind on the lock. -/
def goesFrom (kind : Pc → Bool) (m : Nat) (t : ThreadId) (r : Run) (e : Event) : Bool :=
  (r.after e).comes r m t kind

theorem tally_comesTo (kind : Pc → Bool) (m : Nat) (t : ThreadId) (r : Run)
    (events : List Event) :
    r.tally (comesTo kind m t) events + ((r.pc? m t).any kind).toNat =
      r.tally (goesFrom kind m t) events + (((r.play events).pc? m t).any kind).toNat := by
  induction events generalizing r with
  | nil => rfl
  | cons e events ih =>
    have hrest := ih (r.after e)
    have hplay : r.play (e :: events) = (r.after e).play events := rfl
    have hbool : ∀ before after : Bool,
        (after && !before).toNat + before.toNat = (before && !after).toNat + after.toNat := by
      decide
    have hevent := hbool ((r.pc? m t).any kind) (((r.after e).pc? m t).any kind)
    rw [hplay]
    simp only [tally, comesTo, goesFrom, comes] at hrest ⊢
    omega

end Run

end ReaderWriter
