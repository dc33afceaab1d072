import Mathlib.Logic.Function.Basic
import ReaderWriter.World.Turns

/-!
# Runs

A run is what a world goes through when its threads take their turns in any order: threads call
locks, are held wherever they can stop, wake without reason, and end; time passes and locks are
made. Beside the world a run keeps a record of who has been granted what. The record is only read
by statements about runs, never by the locks.

* `World.Permits`: what can happen next. Threads make the calls that take or give up a lock, timed
  or not, with or without guards, and the call that drops it.
* `Run.after`: the record grows when a call comes back with the lock, and shrinks when a call that
  gives the lock up begins, and when an ending thread lowers its flag.
* `Reachable`: the runs whose every event meets a condition on the callers' behaviour.
* `Run.Leads`: the runs that a run can go on to, by events that meet a condition.
* `Run.play`: the run of a given list of events, which can be computed.
-/

namespace ReaderWriter

/-- Something that can happen to a world. -/
inductive Event where
  /-- An idle thread calls the lock at an index. -/
  | call (t : ThreadId) (m : Nat) (c : Call)
  /-- An idle thread begins to end. -/
  | exit (t : ThreadId)
  /-- A thread takes its next turn. -/
  | turn (t : ThreadId)
  /-- A parked thread wakes without having been notified. -/
  | wake (t : ThreadId)
  /-- The clock moves. -/
  | advance (nanos : Int)
  /-- A lock is made. -/
  | make (kind : Kind) (config : Config)
deriving DecidableEq

namespace Call

/-- The mode in which the caller holds the lock if the call succeeds. -/
def acquires? : Call → Option Mode
  | .operate (.acquire mode) | .operate (.tryAcquire mode) => some mode
  | .guard mode | .tryGuard mode | .timed mode _ _ => some mode
  | _ => none

/-- The mode in which the call gives the lock up. -/
def releases? : Call → Option Mode
  | .operate (.release mode) | .giveBack mode => some mode
  | _ => none

/-- The call takes or gives up a lock. -/
def isLocking (c : Call) : Bool := c.acquires?.isSome || c.releases?.isSome

end Call

/-- The reply says that the lock was not granted. -/
def Reply.isRefusal : Reply → Bool
  | .truth false | .failed _ => true
  | _ => false

/-- What a call that comes back with this reply has been granted. -/
def Call.granted? (c : Call) (r : Reply) : Option Mode := if r.isRefusal then none else c.acquires?

namespace World

/-- What the world becomes when something happens, and how the activity of the thread ends. -/
def meet (w : World) : Event → Moved
  | .call t m c => w.call t m c
  | .exit t => w.exit t
  | .turn t => w.turn t
  | .wake t => { world := w.wake t }
  | .advance nanos => { world := { w with clock := w.clock + nanos } }
  | .make kind config => { world := w.addLock kind config }

/-- What can happen to a world. A lock that a call under way uses is not dropped. -/
def Permits (w : World) : Event → Prop
  | .call t m c =>
      (w.thread t).activity = .idle ∧ (w.lock? m).isSome = true ∧
        (c.isLocking = true ∨ (c = .drop ∧ w.isInUse m = false))
  | .exit t => (w.thread t).activity = .idle
  | .turn t => w.obstacle t = none
  | .wake _ | .advance _ | .make _ _ => True

instance (w : World) (e : Event) : Decidable (w.Permits e) := by
  cases e <;> unfold Permits <;> infer_instance

/-- A thread has a call on the lock at an index under way, or is taking its flag off the lock's
registry. -/
def IsOn (w : World) (t : ThreadId) (m : Nat) : Prop :=
  (w.thread t).frame?.map (·.lock) = some m ∨ (w.thread t).departingFrom? = some m

instance (w : World) (t : ThreadId) (m : Nat) : Decidable (w.IsOn t m) :=
  inferInstanceAs (Decidable (_ ∨ _))

/-- Nobody who is on the lock at an index can move: all are parked and not notified, or blocked. -/
def IsStill (w : World) (m : Nat) : Prop := ∀ t, w.IsOn t m → (w.obstacle t).isSome = true

end World

/-! ## The flags of a thread -/

/-- The flag that a thread at this place has to itself, as it is not among the nodes yet or any
more. -/
def ReadMostly.Pc.flagInHand? : ReadMostly.Pc → Option ReadMostly.Flag
  | .registering _ f _ | .registered _ f | .departing f _ _ => some f
  | _ => none

namespace Thread

/-- Where the thread stands in an operation or in its end, and on which lock. -/
def stint? (th : Thread) : Option (Nat × Progress) :=
  match th.activity with
  | .calling { lock := m, position := .operating p, .. } => some (m, p)
  | .ending { chore := some (.node m pc), .. } => some (m, .readMostly pc)
  | _ => none

/-- The flag that the thread has to itself, and the lock that it is for. -/
def inHand? (th : Thread) : Option (Nat × ReadMostly.Flag) :=
  match th.stint? with
  | some (m, .readMostly pc) => pc.flagInHand?.map (m, ·)
  | _ => none

/-- The nodes that the thread has yet to take off their registries, as it ends. -/
def parting (th : Thread) : List (Nat × ReadMostly.Flag) :=
  match th.activity with
  | .ending e => e.nodes
  | _ => []

/-- The flags of the thread, each with its lock. -/
def flags (th : Thread) : List (Nat × ReadMostly.Flag) :=
  th.locals.nodes ++ th.parting ++ th.inHand?.toList

end Thread

/-- A flag is down and nobody's. -/
def World.IsFresh (w : World) (f : ReadMostly.Flag) : Prop :=
  w.flags.isRaised f = false ∧ ∀ th ∈ w.threads.entries, f ∉ th.flags.map (·.2)

instance (w : World) (f : ReadMostly.Flag) : Decidable (w.IsFresh f) :=
  inferInstanceAs (Decidable (_ ∧ _))

/-! ## The record -/

/-- A lock that was granted and has not been given up. -/
structure Hold where
  thread : ThreadId
  lock : Nat
  mode : Mode
deriving DecidableEq

/-- What is left of the holds when a thread gives a lock up: its own hold goes, or else the latest
one in that mode. -/
def Hold.givenUp (holds : List Hold) (t : ThreadId) (m : Nat) (mode : Mode) : List Hold :=
  if ⟨t, m, mode⟩ ∈ holds then holds.erase ⟨t, m, mode⟩
  else holds.eraseP fun h => h.lock = m && h.mode = mode

/-- How many of the holds are on the lock at an index in this mode. -/
def Hold.count (holds : List Hold) (m : Nat) (mode : Mode) : Nat :=
  holds.countP fun h => h.lock = m && h.mode = mode

/-- A world and what its calls have come to. -/
structure Run where
  world : World := {}
  /-- The call that a thread has under way. -/
  asked : ThreadId → Option Call := fun _ => none
  /-- The locks that are held, the latest first. -/
  holds : List Hold := []

namespace Run

/-- The run on a host in which nothing has happened yet. -/
def initial (host : Host) : Run := { world := { host := host } }

/-- How many locks of this mode are held on the lock at an index. -/
def count (r : Run) (m : Nat) (mode : Mode) : Nat := Hold.count r.holds m mode

/-- A call of a thread has moved on, or come to its end. -/
def settle (r : Run) (t : ThreadId) (m : Nat) (c : Call) (moved : Moved) : Run :=
  { world := moved.world
    asked := Function.update r.asked t (if moved.finish = none then some c else none)
    holds :=
      match moved.finish with
      | some (.replied reply) =>
          match c.granted? reply with
          | some mode => ⟨t, m, mode⟩ :: r.holds
          | none => r.holds
      | _ => r.holds }

/-- A call that gives the lock up does so when it begins. -/
def begun (r : Run) (t : ThreadId) (m : Nat) (c : Call) : Run :=
  match c.releases? with
  | some mode => { r with holds := Hold.givenUp r.holds t m mode }
  | none => r

/-- A thread holds a shared lock no longer once it is leaving the registry. -/
def abandoned (r : Run) (t : ThreadId) (w : World) : Run :=
  { r with
    world := w
    holds := r.holds.filter fun h =>
      !(h.thread = t && h.mode = .shared && (w.thread t).departingFrom? = some h.lock) }

/-- The run after something has happened. -/
def after (r : Run) (e : Event) : Run :=
  match e with
  | .call t m c => (r.begun t m c).settle t m c (r.world.meet e)
  | .turn t =>
      match r.asked t, (r.world.thread t).frame? with
      | some c, some frame => r.settle t frame.lock c (r.world.meet e)
      | _, _ => r.abandoned t (r.world.meet e).world
  | _ => { r with world := (r.world.meet e).world }

/-- A thread's call for this mode is parked in a condition variable and has not been notified. -/
def IsParked (r : Run) (t : ThreadId) (m : Nat) (mode : Mode) : Prop :=
  r.world.IsOn t m ∧ (r.asked t).bind Call.acquires? = some mode ∧
    r.world.obstacle t = some .parked

end Run

/-- The runs that begin in an empty world and whose every event meets a condition. -/
inductive Reachable (ok : Run → Event → Prop) : Run → Prop
  | start {host : Host} : Reachable ok (.initial host)
  | step {r : Run} {e : Event} :
      Reachable ok r → r.world.Permits e → ok r e → Reachable ok (r.after e)

/-- The runs to which a run can go on by events that meet a condition. -/
inductive Run.Leads (ok : Run → Event → Prop) (r : Run) : Run → Prop
  | refl : Leads ok r r
  | step {r' : Run} {e : Event} :
      Leads ok r r' → r'.world.Permits e → ok r' e → Leads ok r (r'.after e)

theorem Reachable.mono {ok ok' : Run → Event → Prop} {r : Run} (h : Reachable ok r)
    (himp : ∀ r e, ok r e → ok' r e) : Reachable ok' r := by
  induction h with
  | start => exact .start
  | step _ hp hok ih => exact ih.step hp (himp _ _ hok)

theorem Reachable.leads {ok ok' : Run → Event → Prop} {r r' : Run} (h : Reachable ok r)
    (hleads : r.Leads ok' r') (himp : ∀ r e, ok' r e → ok r e) : Reachable ok r' := by
  induction hleads with
  | refl => exact h
  | step _ hp hok ih => exact ih.step hp (himp _ _ hok)

/-! ## How callers behave -/

namespace Run

/-- A lock is only given up while it is held. -/
def ReleasesHeld (m : Nat) (r : Run) : Event → Prop
  | .call _ m' c => m' = m → ∀ mode ∈ c.releases?, 0 < r.count m mode
  | _ => True

/-- The word of the lock at an index can count one more shared holder. -/
def HasRoom (m : Nat) (r : Run) (_ : Event) : Prop := r.count m .shared < maxSharedHolders.toNat

/-- A thread only gives up what it holds itself. -/
def ReleasesOwn (m : Nat) (r : Run) : Event → Prop
  | .call t m' c => m' = m → ∀ mode ∈ c.releases?, ⟨t, m, mode⟩ ∈ r.holds
  | _ => True

/-- A thread does not ask for a shared lock while it holds one. -/
def AsksOnce (m : Nat) (r : Run) : Event → Prop
  | .call t m' c => m' = m → c.acquires? = some .shared → ⟨t, m, .shared⟩ ∉ r.holds
  | _ => True

/-- A supply that hands out a flag hands out a fresh one. -/
def HandsOutFresh (r : Run) : Event → Prop
  | .call t m c =>
      ∀ p ∈ ((r.world.meet (.call t m c)).world.thread t).inHand?, r.world.IsFresh p.2
  | .turn t =>
      (r.world.thread t).stint? = none → (r.world.thread t).frame?.isSome = true →
        ∀ p ∈ ((r.world.meet (.turn t)).world.thread t).inHand?, r.world.IsFresh p.2
  | _ => True

/-- The callers of a read-mostly lock behave: a thread gives up what it holds itself, and does not
ask for a shared lock while it holds one. Its supply hands out fresh flags. -/
def Behaves (m : Nat) (r : Run) (e : Event) : Prop :=
  r.ReleasesOwn m e ∧ r.AsksOnce m e ∧ r.HandsOutFresh e

instance (m : Nat) (r : Run) (e : Event) : Decidable (r.ReleasesHeld m e) := by
  cases e <;> unfold ReleasesHeld <;> infer_instance

instance (m : Nat) (r : Run) (e : Event) : Decidable (r.HasRoom m e) :=
  inferInstanceAs (Decidable (_ < _))

instance (m : Nat) (r : Run) (e : Event) : Decidable (r.ReleasesOwn m e) := by
  cases e <;> unfold ReleasesOwn <;> infer_instance

instance (m : Nat) (r : Run) (e : Event) : Decidable (r.AsksOnce m e) := by
  cases e <;> unfold AsksOnce <;> infer_instance

instance (r : Run) (e : Event) : Decidable (r.HandsOutFresh e) := by
  cases e <;> unfold HandsOutFresh <;> infer_instance

instance (m : Nat) (r : Run) (e : Event) : Decidable (r.Behaves m e) :=
  inferInstanceAs (Decidable (_ ∧ _ ∧ _))

end Run

/-! ## Given events -/

namespace Run

/-- The events can happen one after the other, and each meets a condition. -/
def Plays (ok : Run → Event → Prop) (r : Run) : List Event → Prop
  | [] => True
  | e :: rest => r.world.Permits e ∧ ok r e ∧ (r.after e).Plays ok rest

instance decidablePlays {ok : Run → Event → Prop} [∀ r e, Decidable (ok r e)] :
    (r : Run) → (events : List Event) → Decidable (r.Plays ok events)
  | _, [] => inferInstanceAs (Decidable True)
  | r, e :: rest =>
    have : Decidable ((r.after e).Plays ok rest) := decidablePlays (r.after e) rest
    inferInstanceAs (Decidable (_ ∧ _ ∧ _))

/-- The run after events, one after the other. -/
def play (r : Run) (events : List Event) : Run := events.foldl after r

end Run

theorem Run.Leads.play {ok : Run → Event → Prop} {r r' : Run} (h : r.Leads ok r') :
    ∀ events : List Event, r'.Plays ok events → r.Leads ok (r'.play events)
  | [], _ => h
  | _ :: rest, ⟨hp, hok, hrest⟩ => Run.Leads.play (h.step hp hok) rest hrest

theorem Reachable.play {ok : Run → Event → Prop} {r : Run} (h : Reachable ok r) :
    ∀ {events : List Event}, r.Plays ok events → Reachable ok (r.play events)
  | [], _ => h
  | _ :: _, ⟨hp, hok, hrest⟩ => Reachable.play (h.step hp hok) hrest

end ReaderWriter
