import ReaderWriter.Proofs.ReadMostly.Keeping

/-!
# The crowd of a read-mostly lock

One read-mostly lock with everyone who uses it. Beside the lock's own state this takes the flags,
since a writer looks at those of all readers, and whose flag is whose.

* `Step`: what can happen to a crowd. Turns of the lock are read off the table of transitions; turns
  on other locks change no flag that belongs to a thread of the crowd.
* `Reachable.readMostlyCrowd`: a reachable run, looked at from a read-mostly lock that has not been
  dropped, is a run of that lock's crowd.
-/

namespace ReaderWriter

namespace ReadMostly

/-- A read-mostly lock and its users. -/
structure Crowd where
  lock : State
  flags : Flags
  /-- The flag of a thread on the lock. -/
  flag : ThreadId → Option Flag
  /-- Where a thread stands on the lock. -/
  place : ThreadId → Option Pc
  /-- Who holds the lock. -/
  held : Mode → List ThreadId

namespace Crowd

/-- No flag has two owners, a thread goes on with its own flag, and the registry lists the flags
that have been entered. -/
structure Clear (c : Crowd) : Prop where
  owner : ∀ {t u f}, c.flag t = some f → c.flag u = some f → t = u
  carried : ∀ {t pc f}, c.place t = some pc → pc.flag? = some f → c.flag t = some f
  listed : ∀ f, f ∈ c.lock.registry.entries ↔
    ∃ t, c.flag t = some f ∧ (c.place t).any Pc.registers = false

/-- What becomes of the flag of a thread that has done a job: it is handed one, or gives it up, or
keeps what it has. -/
inductive Flagged (c : Crowd) (job : Job) (stand : Stand Pc) (f? f?' : Option Flag) : Prop
  | keeps : f?' = f? → Flagged c job stand f? f?'
  | gains {p p' : Patience} {f : Flag} {e : Edit} : Asks job p →
      stand = .here (.registering p' f e) → f? = none → f?' = some f →
      c.flags.isRaised f = false → Flagged c job stand f? f?'
  | loses {f : Flag} {wasUp : Bool} : job = .from (.departing f wasUp .inside) →
      stand = .here (.departed wasUp) → f?' = none → Flagged c job stand f? f?'

/-- A thread has done a job on the lock. -/
structure Acts (c c' : Crowd) (t : ThreadId) (job : Job) (stand : Stand Pc) (gain : Option Mode) :
    Prop where
  place : c.place t = job.pc?
  place' : c'.place t = stand.place?
  table : ∃ sc locals locals', sc.thread = t ∧
    (Looks job → locals.canUse .nodes = true ∧ locals.node? sc.key = c.flag t) ∧
    Transition sc ⟨c.lock, c.flags, locals⟩ job ⟨c'.lock, c'.flags, locals'⟩ stand gain
  departs : ∀ f, job = .depart f → c.flag t = some f
  flagged : Flagged c job stand (c.flag t) (c'.flag t)
  places : ∀ u, u ≠ t → c'.place u = c.place u
  flag : ∀ u, u ≠ t → c'.flag u = c.flag u

/-- Who holds the lock when a job has begun: a release gives it up. -/
def begun (held : Mode → List ThreadId) (t : ThreadId) (job : Job) (mode : Mode) : List ThreadId :=
  if job = .start (.release mode) then (held mode).erase t else held mode

/-- Who holds the lock after a job of an operation. -/
def settled (held : Mode → List ThreadId) (t : ThreadId) (gain : Option Mode) (mode : Mode) :
    List ThreadId :=
  if gain = some mode then t :: held mode else held mode

/-- Who holds the lock after a job of an ending thread, which may go on or not. -/
def abandoned (held : Mode → List ThreadId) (t : ThreadId) (goesOn : Bool) (mode : Mode) :
    List ThreadId :=
  if mode = .shared ∧ goesOn = true then (held mode).filter (· ≠ t) else held mode

/-- What can happen to a crowd. A thread only gives up what it holds, and asks for no shared lock
that it holds. -/
inductive Step (c c' : Crowd) : Prop
  | call {t : ThreadId} {job : Job} {op : Operation} {stand : Stand Pc} :
      Acts c c' t job stand (Hold.granted? op stand) → job.Serves op →
      (∀ mode, job = .start (.release mode) → t ∈ c.held mode) →
      (∀ p, Asks job p → t ∉ c.held .shared) →
      c'.held = settled (begun c.held t job) t (Hold.granted? op stand) → Step c c'
  | depart {t : ThreadId} {job : Job} {stand : Stand Pc} :
      Acts c c' t job stand none → job.Departs →
      c'.held = abandoned c.held t stand.place?.isSome → Step c c'
  | stir : c'.lock = c.lock → c'.flag = c.flag → c'.place = c.place → c'.held = c.held →
      (∀ t f, c.flag t = some f → c'.flags.isRaised f = c.flags.isRaised f) → Step c c'
  | wake (t : ThreadId) : c' = { c with lock := ReadMostly.wake t c.lock } → Step c c'

/-- A crowd whose lock is new. -/
structure IsNew (c : Crowd) : Prop where
  lock : ∃ id supply config host,
    c.lock = { id := id, supply := supply, config := config, host := host }
  flag : ∀ t, c.flag t = none
  place : ∀ t, c.place t = none
  held : ∀ mode, c.held mode = []

/-- The crowds that come about. -/
inductive Reachable : Crowd → Prop
  | start {c : Crowd} : c.IsNew → Reachable c
  | step {c c' : Crowd} : Reachable c → c.Clear → c'.Clear → Step c c' → Reachable c'

end Crowd

end ReadMostly

/-! ## Who holds a lock -/

namespace Hold

variable {holds : List Hold} {t u : ThreadId} {m n : Nat} {mode mode' : Mode}

/-- The threads that hold the lock at an index in this mode. -/
def holders (holds : List Hold) (m : Nat) (mode : Mode) : List ThreadId :=
  ((on holds m).filter (·.mode = mode)).map (·.thread)

theorem mem_holders : t ∈ holders holds m mode ↔ ⟨t, m, mode⟩ ∈ holds := by
  simp only [holders, on, List.mem_map, List.mem_filter, decide_eq_true_eq]
  constructor
  · rintro ⟨⟨t', m', mode'⟩, ⟨⟨hmem, rfl⟩, rfl⟩, rfl⟩
    exact hmem
  · exact fun h => ⟨_, ⟨⟨h, rfl⟩, rfl⟩, rfl⟩

theorem length_holders : (holders holds m mode).length = count holds m mode := by
  rw [holders, List.length_map, on, List.filter_filter, count, List.countP_eq_length_filter]
  simp only [Bool.and_comm]

theorem holders_cons (h : Hold) (holds : List Hold) (m : Nat) (mode : Mode) :
    holders (h :: holds) m mode =
      if h.lock = m ∧ h.mode = mode then h.thread :: holders holds m mode
      else holders holds m mode := by
  by_cases hlock : h.lock = m <;> by_cases hmode : h.mode = mode <;>
    simp [holders, on, hlock, hmode]

theorem holders_erase (t : ThreadId) (m : Nat) (mode mode' : Mode) :
    holders (holds.erase ⟨t, m, mode⟩) m mode' =
      if mode' = mode then (holders holds m mode').erase t else holders holds m mode' := by
  induction holds with
  | nil => simp [holders, on]
  | cons h holds ih =>
    by_cases heq : h = ⟨t, m, mode⟩
    · subst heq
      rw [List.erase_cons_head, holders_cons]
      by_cases hm : mode' = mode
      · subst hm
        simp
      · rw [if_neg hm, if_neg fun h => hm h.2.symm]
    · rw [List.erase_cons_tail (by simpa using heq), holders_cons, ih, holders_cons]
      by_cases hm : mode' = mode
      · subst hm
        rw [if_pos rfl, if_pos rfl]
        by_cases hh : h.lock = m ∧ h.mode = mode'
        · have hne : h.thread ≠ t := by
            rintro rfl
            obtain ⟨rfl, rfl⟩ := hh
            exact heq rfl
          rw [if_pos hh, if_pos hh, List.erase_cons_tail (by simpa using hne)]
        · rw [if_neg hh, if_neg hh]
      · rw [if_neg hm, if_neg hm]

theorem holders_begun {job : Job}
    (h : ∀ mode, job = .start (.release mode) → t ∈ holders holds m mode) :
    holders (begun holds t m job) m = ReadMostly.Crowd.begun (holders holds m) t job := by
  funext mode'
  unfold begun ReadMostly.Crowd.begun
  split
  · next mode =>
    have hmem := mem_holders.mp (h mode rfl)
    rw [givenUp, if_pos hmem, holders_erase]
    simp [eq_comm]
  all_goals simp_all

theorem holders_settled (op : Operation) (stand : Stand Progress) :
    holders (settled holds t m op stand) m =
      ReadMostly.Crowd.settled (holders holds m) t (granted? op stand) := by
  funext mode'
  unfold settled ReadMostly.Crowd.settled
  cases granted? op stand with
  | none => simp
  | some mode => simp [holders_cons]

theorem holders_abandoned (stand : Stand Progress) :
    holders (abandoned holds t m stand) m =
      ReadMostly.Crowd.abandoned (holders holds m) t stand.place?.isSome := by
  funext mode
  unfold abandoned ReadMostly.Crowd.abandoned
  cases stand.place? with
  | none => simp
  | some p =>
    simp only [holders, on, List.filter_filter, Option.isSome_some, and_true]
    split
    · next hmode =>
      subst hmode
      rw [List.filter_map, List.filter_filter]
      refine congrArg _ (List.filter_congr fun g _ => ?_)
      rcases g with ⟨u, n, mode⟩
      by_cases hn : n = m <;> by_cases hm : mode = .shared <;> simp [hn, hm]
    · next hmode =>
      refine congrArg _ (List.filter_congr fun g _ => ?_)
      rcases g with ⟨u, n, mode'⟩
      by_cases hm : mode' = mode
      · simp [hm, hmode]
      · simp [hm]

theorem holders_congr {holds' : List Hold} (h : on holds' n = on holds n) :
    holders holds' n = holders holds n := by
  funext mode
  rw [holders, h, holders]

end Hold

/-! ## Who asks for a lock -/

variable {r r' : Run} {e : Event} {t u : ThreadId} {m n : Nat} {l : Lock} {job : Job}
  {s s' : ReadMostly.State} {stand : Stand ReadMostly.Pc} {gain : Option Mode}

theorem Hold.mem_settled_begun {op : Operation} {stand : Stand Progress} {g : Hold}
    (h : g ∈ settled (begun r.holds t n job) t n op stand) :
    g ∈ r.holds ∨ g.thread = t ∧ g.lock = n ∧ granted? op stand = some g.mode := by
  unfold settled at h
  split at h
  · next mode hmode =>
    rcases List.mem_cons.mp h with rfl | h
    · exact .inr ⟨rfl, rfl, hmode⟩
    · exact .inl (begun_sublist.subset h)
  · exact .inl (begun_sublist.subset h)

/-- A thread that has asked for a shared lock does not hold one. -/
def Run.AskedOnce (r : Run) (m : Nat) : Prop :=
  ∀ t, r.Awaits t m .shared → ⟨t, m, .shared⟩ ∉ r.holds

namespace Run.AskedOnce

/-- Whoever starts to take a shared lock, in a call or in another attempt of one, holds none. -/
theorem not_held {op : Operation} (h : r.AskedOnce m) (hok : r.AsksOnce m e)
    (hop : Operates r e r' t m l job op) (hacquires : op.acquires? = some .shared) :
    ⟨t, m, .shared⟩ ∉ r.holds := by
  have hserves := hop.serves
  cases job with
  | start op' =>
    rcases hop.called op' rfl with ⟨c, rfl, hc, -⟩ | ⟨-, -, -, -, hawaits⟩
    · exact hok rfl (hc.trans hacquires)
    · exact h t (hawaits _ hacquires)
  | resume p => exact h t (hop.awaited p rfl _ hacquires)
  | depart f => exact hserves.elim

theorem of_move (h : r.AskedOnce m) (hok : r.AsksOnce m e) (hmove : Move r e r') :
    r'.AskedOnce m := by
  have hkept : ∀ {u}, r'.asked u = r.asked u → r'.world.thread u = r.world.thread u →
      r'.Awaits u m .shared → ⟨u, m, .shared⟩ ∉ r.holds := by
    intro u hasked hthread hawaits
    unfold Awaits at hawaits
    rw [hasked, hthread] at hawaits
    exact h u hawaits
  have hsame : r'.asked = r.asked → (∀ u, r'.world.thread u = r.world.thread u) →
      r'.holds = r.holds → r'.AskedOnce m := by
    intro hasked hthreads hholds u hawaits
    rw [hholds]
    exact hkept (by rw [hasked]) (hthreads u) hawaits
  cases hmove with
  | @operate t n l job op hop =>
    intro u hawaits hmem
    rw [hop.holds] at hmem
    by_cases hu : u = t
    · subst hu
      obtain ⟨rfl, hacquires, hgranted⟩ := hop.awaits m .shared hawaits
      rcases Hold.mem_settled_begun hmem with hmem | ⟨-, -, hmode⟩
      · exact h.not_held hok hop hacquires hmem
      · rw [hgranted] at hmode
        cases hmode
    · rcases Hold.mem_settled_begun hmem with hmem | ⟨hut, -⟩
      · exact hkept (hop.asked u hu) (hop.others u hu) hawaits hmem
      · exact hu hut
  | @depart t n l job hdep =>
    intro u hawaits hmem
    rw [hdep.holds] at hmem
    by_cases hu : u = t
    · subst hu
      obtain ⟨⟨c, hc, -⟩, -⟩ := hawaits
      rw [hdep.idle.2] at hc
      cases hc
    · exact hkept (hdep.asked u hu) (hdep.others u hu) hawaits (Hold.abandoned_sublist.subset hmem)
  | @shift t hshift =>
    intro u hawaits hmem
    rw [hshift.holds] at hmem
    by_cases hu : u = t
    · subst hu
      obtain ⟨⟨c, hc, -⟩, -⟩ := hawaits
      rw [hshift.asked, hshift.idle] at hc
      cases hc
    · exact hkept (by rw [hshift.asked]) (hshift.others u hu) hawaits hmem
  | drop h => exact hsame h.asked h.threads h.holds
  | wake h => exact hsame h.asked h.threads h.holds
  | make h => exact hsame h.asked h.threads h.holds
  | rest h => exact hsame h.asked h.threads h.holds

end Run.AskedOnce

theorem Reachable.askedOnce {ok : Run → Event → Prop} (hok : ∀ r e, ok r e → r.AsksOnce m e)
    {r : Run} (h : Reachable ok r) : r.AskedOnce m := by
  refine h.of_moves (P := fun r => r.AskedOnce m) (fun _ _ hawaits => ?_)
    (fun _ hoke hmove ih => ih.of_move (hok _ _ hoke) hmove) ?_
  · obtain ⟨⟨c, hc, -⟩, -⟩ := hawaits
    cases hc
  · intro r r₁ r' e n _ _ _ _ hdis _ ih u hawaits
    unfold Run.Awaits at hawaits
    rw [hdis.asked, hdis.threads] at hawaits
    rw [hdis.holds]
    exact ih u hawaits

/-! ## The crowd of a lock in a run -/

/-- The place of a read-mostly lock that a place is. -/
def Progress.readMostly? : Progress → Option ReadMostly.Pc
  | .readMostly pc => some pc
  | .blocking _ | .polling _ => none

/-- The crowd of the read-mostly lock at an index, whose state is given. -/
def Run.readMostlyCrowd (r : Run) (m : Nat) (s : ReadMostly.State) : ReadMostly.Crowd where
  lock := s
  flags := r.world.flags
  flag t := (r.world.thread t).flags.lookup m
  place t := (r.place m t).bind Progress.readMostly?
  held := Hold.holders r.holds m

theorem lookup_eq_some_iff_mem {α : Type} {l : List (Nat × α)} (h : (l.map Prod.fst).Nodup)
    {k : Nat} {a : α} : l.lookup k = some a ↔ (k, a) ∈ l := by
  rw [List.lookup_eq_some_iff]
  constructor
  · rintro ⟨before, after, rfl, -⟩
    simp
  · intro hmem
    obtain ⟨before, after, rfl⟩ := List.append_of_mem hmem
    refine ⟨before, after, rfl, fun p hp => ?_⟩
    rw [List.map_append, List.nodup_append] at h
    simpa using Ne.symm (h.2.2 p.1 (List.mem_map_of_mem hp) k (by simp))

theorem Owns.flag_iff {live : Nat → Prop} (h : Owns r live) {f : ReadMostly.Flag} :
    (r.readMostlyCrowd m s).flag t = some f ↔ (m, f) ∈ (r.world.thread t).flags :=
  lookup_eq_some_iff_mem (h.keys t)

namespace Run

theorem crowdPlace_eq {pc? : Option ReadMostly.Pc}
    (h : (r.world.thread t).stint? = pc?.map fun pc => (m, .readMostly pc)) :
    (r.readMostlyCrowd m s).place t = pc? := by
  simp only [readMostlyCrowd, place, h]
  cases pc? with
  | none => rfl
  | some pc => simp [Progress.readMostly?]

theorem crowdPlace_iff {pc : ReadMostly.Pc} :
    (r.readMostlyCrowd m s).place t = some pc ↔
      (r.world.thread t).stint? = some (m, .readMostly pc) := by
  simp only [readMostlyCrowd, place, Option.bind_eq_some_iff]
  constructor
  · rintro ⟨p, ⟨⟨n, q⟩, hstint, hq⟩, hpc⟩
    dsimp only at hq
    split at hq
    · next hn =>
      cases hq
      cases p with
      | readMostly pc' =>
        cases hpc
        rw [hstint, hn]
      | blocking | polling => cases hpc
    · cases hq
  · intro hstint
    exact ⟨.readMostly pc, ⟨_, hstint, by simp⟩, rfl⟩

theorem crowdPlace_registers :
    ((r.readMostlyCrowd m s).place t).any ReadMostly.Pc.registers = false ↔
      ¬ (r.world.thread t).Registers m := by
  rw [← Bool.not_eq_true, Option.any_eq_true]
  exact not_congr (exists_congr fun pc => and_congr_left fun _ => crowdPlace_iff)

end Run

/-- Who owns what is clear among the users of a live lock. -/
theorem Owns.clear {live : Nat → Prop} (h : Owns r live) (hlive : live m)
    (hs : r.world.ReadMostlyAt m s) : (r.readMostlyCrowd m s).Clear where
  owner hf hf' := (h.owner (h.flag_iff.mp hf) (h.flag_iff.mp hf')).1
  carried hpc hf := h.flag_iff.mpr (h.carried (Run.crowdPlace_iff.mp hpc) hf)
  listed f := by
    refine ((h.rolls hlive hs).2 f).trans (exists_congr fun u => ?_)
    rw [h.flag_iff, Run.crowdPlace_registers]

/-! ## Runs of a crowd -/

/-- What leaves a lock, the threads' places and flags on it and the holds of it alone, and raises
and lowers none of those flags, only stirs its crowd. -/
theorem Run.stir (hflag : ∀ u, (r'.readMostlyCrowd m s).flag u = (r.readMostlyCrowd m s).flag u)
    (hplace : ∀ u, r'.place m u = r.place m u) (hholds : Hold.on r'.holds m = Hold.on r.holds m)
    (hraised : ∀ u f, (r.readMostlyCrowd m s).flag u = some f →
      r'.world.flags.isRaised f = r.world.flags.isRaised f) :
    (r.readMostlyCrowd m s).Step (r'.readMostlyCrowd m s) :=
  .stir rfl (funext hflag) (funext fun u => congrArg (·.bind Progress.readMostly?) (hplace u))
    (Hold.holders_congr hholds) hraised

/-- The like for threads that do not change at all. -/
theorem Run.stir_of_threads (hthreads : ∀ u, r'.world.thread u = r.world.thread u)
    (hflags : r'.world.flags = r.world.flags) (hholds : r'.holds = r.holds) :
    (r.readMostlyCrowd m s).Step (r'.readMostlyCrowd m s) := by
  refine Run.stir (fun u => ?_) (fun u => place_congr (hthreads u)) (by rw [hholds]) fun u f _ => ?_
  · simp only [readMostlyCrowd, hthreads]
  · rw [hflags]

namespace Acts

variable {site : ReadMostly.Site}

/-- A turn on the lock is a turn of its crowd. -/
theorem crowd (h : Acts r r' t m s job site stand gain) (ho : Owns r r.Live) (ho' : Owns r' r.Live)
    (hpart : Partings r r' t m job) (halive : r.world.isAlive m = true)
    (hlooks : ReadMostly.Looks job → (r.world.thread t).locals.torn = [] ∧
      (r.world.thread t).parting = [])
    (hfresh : (∃ p, ReadMostly.Asks job p) → ∀ f, (r'.world.thread t).inHand? = some (m, f) →
      r.world.IsFresh f) :
    (r.readMostlyCrowd m s).Acts (r'.readMostlyCrowd m site.lock) t job stand gain where
  place := Run.crowdPlace_eq h.stint
  place' := Run.crowdPlace_eq h.stint'
  table := by
    refine ⟨⟨t, m, r.world.isAlive⟩, (r.world.thread t).locals, site.locals, rfl, fun hl => ?_, ?_⟩
    swap
    · simp only [Run.readMostlyCrowd, h.flags]
      exact h.table
    obtain ⟨htorn, hparting⟩ := hlooks hl
    have hhand : job.pc?.bind ReadMostly.Pc.flagInHand? = none := by
      rcases hl with ⟨p, hasks⟩ | ⟨answer, rfl⟩
      · rw [hasks.pc?_eq]
        rfl
      · rfl
    refine ⟨ReadMostly.Locals.canUse_of_intact htorn _, ?_⟩
    have hflags := h.flags_before
    rw [hparting, hhand] at hflags
    simp only [Run.readMostlyCrowd, hflags, ReadMostly.Locals.node?]
    simp
  departs f hjob := ho.flag_iff.mpr (h.carries_mem ho hpart (hjob ▸ .depart f))
  flagged := by
    cases h.restocks hpart with
    | keeps hsub hkept =>
      refine .keeps (Option.ext fun f => ?_)
      rw [ho.flag_iff, ho'.flag_iff]
      exact ⟨fun hf => hsub.subset hf, fun hf => hkept _ hf halive⟩
    | gains hasks hstand heq hnone =>
      refine .gains hasks hstand ?_ ?_ (hfresh ⟨_, hasks⟩ _ (h.inHand_of_registering hstand)).1
      · rw [Option.eq_none_iff_forall_ne_some]
        intro f hf
        exact hnone (List.mem_map.mpr ⟨_, ho.flag_iff.mp hf, rfl⟩)
      · rw [ho'.flag_iff, heq]
        simp
    | enlists f heq => 
      refine .keeps ?_
      simp only [Run.readMostlyCrowd, heq]
    | @loses f wasUp hjob hstand heq =>
      refine .loses hjob hstand ?_
      rw [Option.eq_none_iff_forall_ne_some]
      intro g hg
      have hkeys := ho.keys t
      rw [heq, List.map_append, List.nodup_append] at hkeys
      exact hkeys.2.2 m (List.mem_map.mpr ⟨_, ho'.flag_iff.mp hg, rfl⟩) m (by simp) rfl
  places u hu := by
    simp only [Run.readMostlyCrowd, Run.place_congr (h.others u hu)]
  flag u hu := by simp only [Run.readMostlyCrowd, h.others u hu]

/-- A turn on another lock stirs the crowd. -/
theorem stir (h : Acts r r' t n s' job site stand gain) (ho : Owns r r.Live)
    (hpart : Partings r r' t n job) (hn : m ≠ n) (halive : r.world.isAlive m = true)
    (hplace : ∀ u, r'.place m u = r.place m u) (hholds : Hold.on r'.holds m = Hold.on r.holds m)
    (ho' : Owns r' r.Live) : (r.readMostlyCrowd m s).Step (r'.readMostlyCrowd m s) := by
  refine Run.stir (fun u => ?_) hplace hholds fun u f hf => ?_
  · by_cases hu : u = t
    · subst hu
      refine Option.ext fun f => ?_
      rw [ho.flag_iff, ho'.flag_iff]
      cases h.restocks hpart with
      | keeps hsub hkept => exact ⟨fun hf => hsub.subset hf, fun hf => hkept _ hf halive⟩
      | gains _ _ heq | loses _ _ heq => simp [heq, hn]
      | enlists f heq => rw [heq]
    · simp only [Run.readMostlyCrowd, h.others u hu]
  · rw [h.flags]
    refine h.table.isRaised_eq fun g hg => ?_
    rintro rfl
    exact hn (ho.owner (ho.flag_iff.mp hf) (h.carries_mem ho hpart hg)).2

end Acts

/-- What a thread on another lock has to do with this one: nothing. -/
theorem Operates.stir {op : Operation} (h : Operates r e r' t n l job op) (ho : Owns r r.Live)
    (ho' : Owns r' r.Live) (hn : m ≠ n) (halive : r.world.isAlive m = true) :
    (r.readMostlyCrowd m s).Step (r'.readMostlyCrowd m s) := by
  have hholds : Hold.on r'.holds m = Hold.on r.holds m := by
    rw [h.holds, Hold.on_settled_of_ne hn, Hold.on_begun_of_ne hn]
  by_cases halg : l.body.algorithm = .readMostly
  · obtain ⟨s₀, hs₀⟩ := Body.exists_readMostly halg
    obtain ⟨site, stand, hacts, -⟩ := h.acts hs₀
    exact hacts.stir ho h.partings hn halive (h.place_of_ne_lock hn) hholds ho'
  · obtain ⟨hflags, hlocals, hstint, hstint'⟩ := h.plain halg
    refine Run.stir (fun u => ?_) (h.place_of_ne_lock hn) hholds fun u f _ => by rw [hflags]
    by_cases hu : u = t
    · subst hu
      simp only [Run.readMostlyCrowd, Thread.flags, hlocals, h.parting, h.parting',
        Thread.inHand?_of_plain hstint, Thread.inHand?_of_plain hstint']
    · simp only [Run.readMostlyCrowd, h.others u hu]

theorem Departs.stir (h : Departs r r' t n l job) (ho : Owns r r.Live) (ho' : Owns r' r.Live)
    (hn : m ≠ n) (halive : r.world.isAlive m = true) :
    (r.readMostlyCrowd m s).Step (r'.readMostlyCrowd m s) := by
  obtain ⟨s₀, hs₀⟩ := Body.exists_readMostly (World.work_departs t h.lock h.suits h.departs).1
  obtain ⟨site, stand, hacts, -⟩ := h.acts hs₀
  refine hacts.stir ho h.partings hn halive (h.place_of_ne_lock hn) ?_ ho'
  rw [h.holds, Hold.on_abandoned_of_ne hn]

theorem Shifts.stir (h : Shifts r r' t) (ho : Owns r r.Live) (ho' : Owns r' r.Live)
    (hs : r.world.ReadMostlyAt m s) (halive : r.world.isAlive m = true) :
    (r.readMostlyCrowd m s).Step (r'.readMostlyCrowd m s) := by
  obtain ⟨l, hl, hbody⟩ := hs
  refine Run.stir (fun u => ?_) (fun u => ?_) (by rw [h.holds]) fun u f _ => by rw [h.flags]
  all_goals by_cases hu : u = t
  · subst hu
    refine Option.ext fun f => ?_
    rw [ho.flag_iff, ho'.flag_iff]
    exact ⟨fun hf => h.sublist.subset hf,
      fun hf => h.kept m f l hf hl (by rw [hbody]; rfl) halive⟩
  · simp only [Run.readMostlyCrowd, h.others u hu]
  · subst hu
    simp only [Run.place, h.stint, h.stint']
  · exact Run.place_congr (h.others u hu)

/-- A job of a call on a lock is a call in its crowd. -/
theorem Operates.crowd {op : Operation} (h : Operates r e r' t m l job op)
    (hs : l.body = .readMostly s) (hs' : r'.world.ReadMostlyAt m s') (ho : Owns r r.Live)
    (ho' : Owns r' r.Live) (htended : r.Tended) (hasked : r.AskedOnce m) (hok : r.Behaves m e) :
    (r.readMostlyCrowd m s).Step (r'.readMostlyCrowd m s') := by
  obtain ⟨hreleases, hasks, hhands⟩ := hok
  obtain ⟨site, stand, hacts, hstand⟩ := h.acts hs
  cases hs'.eq hacts.after
  have halive := h.isAlive
  have hheld : ∀ mode, job = .start (.release mode) →
      t ∈ (r.readMostlyCrowd m s).held mode := by
    rintro mode rfl
    have hop : op = .release mode := h.serves.symm
    subst hop
    rcases h.called _ rfl with ⟨c, rfl, -, hc⟩ | ⟨-, -, -, hnone, -⟩
    · exact Hold.mem_holders.mpr (hreleases rfl mode hc)
    · cases hnone
  refine .call (hacts.crowd ho ho' h.partings halive ?_ ?_) h.serves hheld ?_ ?_
  · exact fun _ => ⟨htended.intact t h.lives, h.parting⟩
  · rintro ⟨p, hp⟩ f hf
    exact h.fresh hhands (by cases hp <;> exact ⟨_, rfl⟩) hf
  · intro p hp hmem
    refine hasked.not_held hasks h ?_ (Hold.mem_holders.mp hmem)
    have hserves := h.serves
    cases hp <;> cases hserves <;> rfl
  · simp only [Run.readMostlyCrowd]
    rw [h.holds, hstand, Hold.holders_settled, Hold.holders_begun hheld, Hold.granted?_lift]

/-- A job of an ending thread on a lock is a departure in its crowd. -/
theorem Departs.crowd (h : Departs r r' t m l job) (hs : l.body = .readMostly s)
    (hs' : r'.world.ReadMostlyAt m s') (ho : Owns r r.Live) (ho' : Owns r' r.Live) :
    (r.readMostlyCrowd m s).Step (r'.readMostlyCrowd m s') := by
  obtain ⟨site, stand, hacts, hstand⟩ := h.acts hs
  cases hs'.eq hacts.after
  have hdeparts := h.departs
  refine .depart (hacts.crowd ho ho' h.partings h.alive ?_ ?_) h.departs ?_
  · rintro (⟨p, hp⟩ | ⟨answer, rfl⟩)
    · cases hp <;> exact hdeparts.elim
    · exact hdeparts.elim
  · rintro ⟨p, hp⟩
    cases hp <;> exact hdeparts.elim
  · simp only [Run.readMostlyCrowd]
    rw [h.holds, Hold.holders_abandoned, hstand, Stand.place?_lift, Option.isSome_map]

/-- The crowd of a lock that has just been made is new. -/
theorem Stirs.isNew {kind : Kind} {config : Config}
    (h : Stirs r r' (r.world.addLock kind config).locks) (ho : Owns r r.Live) (horderly : r.Orderly)
    (hexist : r.HoldsExist) (hnone : r.world.locks[m]? = none)
    (hs' : r'.world.ReadMostlyAt m s') : (r'.readMostlyCrowd m s').IsNew where
  lock := by
    obtain ⟨l', hl', hbody⟩ := hs'
    rw [h.locks, World.addLock, List.getElem?_append_right (List.getElem?_eq_none_iff.mp hnone),
      List.getElem?_singleton] at hl'
    split at hl'
    · cases hl'
      obtain ⟨id, supply, config', heq⟩ := Lock.eq_new_of_make hbody
      exact ⟨id, supply, config', _, heq⟩
    · cases hl'
  flag t := by
    simp only [Run.readMostlyCrowd, h.threads]
    rw [Option.eq_none_iff_forall_ne_some]
    intro f hf
    obtain ⟨s, l, hl, -⟩ := ho.placed (ho.flag_iff (s := s').mp hf)
    cases hnone.symm.trans hl
  place t := by
    simp only [Run.readMostlyCrowd]
    rw [Run.place_congr (h.threads t), Run.not_place_of_missing horderly hnone]
    rfl
  held mode := by
    simp only [Run.readMostlyCrowd, h.holds]
    have hcount := congrFun (Run.count_of_missing hexist hnone) mode
    rw [← List.length_eq_zero_iff, Hold.length_holders]
    exact hcount

/-- A move of a run is a step of the crowd of a live lock, unless the lock has just been made. -/
theorem Run.readMostlyCrowd_of_move (hmove : Move r e r') (ho : Owns r r.Live)
    (ho' : Owns r' r.Live) (htended : r.Tended) (hasked : r.AskedOnce m) (hok : r.Behaves m e)
    (halive : r.world.isAlive m = true) (hs' : r'.world.ReadMostlyAt m s')
    (hl : r.world.locks[m]? = some l) :
    ∃ s, r.world.ReadMostlyAt m s ∧
      (r.readMostlyCrowd m s).Step (r'.readMostlyCrowd m s') := by
  obtain ⟨l', hl', hbody⟩ := id hs'
  -- What leaves the lock alone only stirs its crowd.
  have hsame : r'.world.locks[m]? = r.world.locks[m]? →
      ((r.readMostlyCrowd m s').Step (r'.readMostlyCrowd m s')) →
      ∃ s, r.world.ReadMostlyAt m s ∧ (r.readMostlyCrowd m s).Step (r'.readMostlyCrowd m s') :=
    fun hlock hstep => ⟨s', ⟨l', hlock ▸ hl', hbody⟩, hstep⟩
  cases hmove with
  | @operate t n l₀ job op h =>
    by_cases hn : m = n
    · subst hn
      cases hl.symm.trans h.lock
      obtain ⟨s, hs⟩ := h.exists_readMostly hs'
      exact ⟨s, ⟨l, hl, hs⟩, h.crowd hs hs' ho ho' htended hasked hok⟩
    · exact hsame (h.lock_of_ne hn) (h.stir ho ho' hn halive)
  | @depart t n l₀ job h =>
    by_cases hn : m = n
    · subst hn
      cases hl.symm.trans h.lock
      obtain ⟨s, hs⟩ := h.exists_readMostly hs'
      exact ⟨s, ⟨l, hl, hs⟩, h.crowd hs hs' ho ho'⟩
    · exact hsame (h.lock_of_ne hn) (h.stir ho ho' hn halive)
  | shift h =>
    refine hsame (by rw [h.locks]) (h.stir ho ho' ?_ halive)
    rw [h.locks] at hl'
    exact ⟨l', hl', hbody⟩
  | drop h =>
    obtain ⟨_, hk⟩ := h.exists_lock hl
    cases hl'.symm.trans hk
    exact ⟨s', ⟨l, hl, hbody⟩, Run.stir_of_threads h.threads h.flags h.holds⟩
  | @wake t h =>
    rw [h.locks, List.getElem?_map, hl] at hl'
    cases hl'
    cases hs : l.body with
    | readMostly s =>
      simp only [World.wakeIn, hs, Body.readMostly.injEq] at hbody
      subst hbody
      refine ⟨s, ⟨l, hl, hs⟩, .wake t ?_⟩
      simp only [Run.readMostlyCrowd, h.flags, h.threads, h.holds, Run.place]
    | blocking s | polling s =>
      simp only [World.wakeIn, hs] at hbody
      cases hbody
  | make h =>
    have hlt : m < r.world.locks.length := (List.getElem?_eq_some_iff.mp hl).1
    refine hsame ?_ (Run.stir_of_threads h.threads h.flags h.holds)
    rw [h.locks, World.addLock, List.getElem?_append_left hlt]
  | rest h => exact hsame (by rw [h.locks]) (Run.stir_of_threads h.threads h.flags h.holds)

theorem ReadMostly.Registry.isRaised_lowerAll_of_not_mem {registry : ReadMostly.Registry}
    {f : ReadMostly.Flag} (h : f ∉ registry.entries) (flags : ReadMostly.Flags) :
    (registry.lowerAll flags).isRaised f = flags.isRaised f := by
  simp [isRaised_lowerAll, h]

/-- A registry that goes lowers no flag on another lock. -/
theorem Dissolves.stir (h : Dissolves r r' n) {live : Nat → Prop} (ho : Owns r live)
    (hlive : live n) (hn : m ≠ n) :
    (r.readMostlyCrowd m s).Step (r'.readMostlyCrowd m s) := by
  refine Run.stir (fun u => ?_) (fun u => Run.place_congr (h.threads u)) (by rw [h.holds])
    fun u f hf => ?_
  · simp only [Run.readMostlyCrowd, h.threads]
  · rw [h.flags]
    rcases World.dissolve_cases r.world n with heq | ⟨l, s₀, hl, hs, heq⟩
    · rw [heq]
    · rw [heq]
      refine ReadMostly.Registry.isRaised_lowerAll_of_not_mem (fun hmem => ?_) _
      obtain ⟨v, hv, -⟩ := ((ho.rolls hlive ⟨l, hl, hs⟩).2 f).mp hmem
      exact hn (ho.owner (ho.flag_iff.mp hf) hv).2

/-- A reachable run, looked at from a live read-mostly lock whose callers behave, is a run of that
lock's crowd. -/
theorem Reachable.readMostlyCrowd {ok : Run → Event → Prop} (hok : ∀ r e, ok r e → r.Behaves m e)
    {r : Run} (h : Reachable ok r) :
    r.world.isAlive m = true → ∀ s, r.world.ReadMostlyAt m s →
      (r.readMostlyCrowd m s).Clear ∧ ReadMostly.Crowd.Reachable (r.readMostlyCrowd m s) := by
  have hfresh : ∀ r e, ok r e → r.HandsOutFresh e := fun r e h => (hok r e h).2.2
  refine fun halive s hs => ⟨(h.owns hfresh).clear (.inl halive) hs, ?_⟩
  revert halive s
  refine h.of_moves (P := fun r => r.world.isAlive m = true → ∀ s, r.world.ReadMostlyAt m s →
    ReadMostly.Crowd.Reachable (r.readMostlyCrowd m s)) ?_ ?_ ?_
  · rintro host - s ⟨l, hl, -⟩
    cases hl
  · intro r r' e hreach hoke hmove ih halive' s' hs'
    have ho := hreach.owns hfresh
    have ho' := ho.of_move (hfresh r e hoke) hmove
    cases hl : r.world.locks[m]? with
    | none =>
      rcases Run.locks_of_move hmove with heq | ⟨kind, config, hmake⟩
      · obtain ⟨l', hl', -⟩ := hs'
        have hlt := (List.getElem?_eq_some_iff.mp hl').1
        rw [List.getElem?_eq_none_iff] at hl
        omega
      · exact .start (hmake.isNew ho hreach.orderly hreach.holdsExist hl hs')
    | some l =>
      have halive : r.world.isAlive m = true :=
        (hmove.live m (.inl halive')).resolve_right (by simp [hl])
      obtain ⟨s, hs, hstep⟩ := Run.readMostlyCrowd_of_move hmove ho ho' hreach.tended
        (hreach.askedOnce fun r e h => (hok r e h).2.1) (hok r e hoke) halive hs' hl
      exact .step (ih halive s hs) (ho.clear (.inl halive) hs) (ho'.clear (.inl halive) hs') hstep
  · intro r r₁ r' e n hreach hoke hmove halive hdis ih ih₁ halive' s' hs'
    have ho := (hreach.owns hfresh).of_move (hfresh r e hoke) hmove
    have halive₁ := hdis.isAlive_iff.mp halive'
    have hn : m ≠ n := by
      rintro rfl
      rw [hdis.dead] at halive₁
      cases halive₁
    have hs := (hdis.readMostlyAt.1 m hn s').mp hs'
    exact .step (ih₁ halive₁ s' hs) (ho.clear (hmove.live m (.inl halive₁)) hs)
      ((ho.of_dissolves hmove.live hdis).clear (.inl halive') hs') (hdis.stir ho (.inl halive) hn)

end ReaderWriter
