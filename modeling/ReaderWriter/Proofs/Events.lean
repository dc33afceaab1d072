import ReaderWriter.Proofs.Endings

/-!
# Events

Every event of an orderly run is a move, and leaves the run orderly.

* `Run.settle_operates`: a job of a call is a move.
* `Run.call_operates`, `Run.turn_operates`: a call begins with a job, and goes on with one.
* `Run.after_moves`: an event is a move, and perhaps a dissolution after it.
* `Run.Orderly.operates_of_faults`: only operations come to faults.
* `Run.Orderly.caller_after`: an event leaves the calls of other threads alone.
* `Reachable.orderly`: reachable runs are orderly.
* `Reachable.of_moves`: what moves and dissolutions preserve holds of all reachable runs.
-/

namespace ReaderWriter

/-! ## Jobs of calls -/

namespace Call.Rests

variable {c : Call} {op : Operation} {m : Nat} {stand : Stand Progress} {activity : Activity}
  {finish : Option Finish}

theorem stint?_eq (h : c.Rests op m stand activity finish) {th : Thread}
    (hth : th.activity = activity) : th.stint? = stand.place?.map (m, ·) := by
  cases h with
  | here hperf => simp [Thread.stint?, hth, Stand.place?]
  | replied h => simp [Thread.stint?, hth, Stand.place?]
  | @again mode limit guarded r position hc hop hposition =>
    cases position with
    | operating p => exact absurd rfl (hposition p)
    | spun | yielding | sleeping n => simp [Thread.stint?, hth, Stand.place?]
  | faulted => simp [Thread.stint?, hth, Stand.place?]

theorem parting_eq (h : c.Rests op m stand activity finish) {th : Thread}
    (hth : th.activity = activity) : th.parting = [] := by
  cases h <;> simp [Thread.parting, hth]

theorem lives (h : c.Rests op m stand activity finish) {th : Thread}
    (hth : th.activity = activity) : th.Lives := by
  cases h with
  | here | again => exact .inr ⟨_, hth⟩
  | replied | faulted => exact .inl hth

/-- The record takes in what the operation has been granted. -/
theorem holds_eq {moved : Moved} (h : c.Rests op m stand activity moved.finish)
    (hc : c.acquires? = op.acquires?) (r : Run) (t : ThreadId) :
    (r.settle t m c moved).holds = Hold.settled r.holds t m op stand := by
  simp only [Run.settle]
  generalize moved.finish = finish at h
  cases h with
  | here hperf => rfl
  | @replied answer reply hrefusal =>
    simp only [Hold.settled, Hold.granted?, Call.granted?, ← hc]
    by_cases ha : answer = .granted false
    · simp [ha, hrefusal.mpr ha]
    · have hreply : reply.isRefusal = false := by
        rw [Bool.eq_false_iff]
        exact mt hrefusal.mp ha
      cases c.acquires? <;> simp [ha, hreply]
  | again => rfl
  | faulted => rfl

/-- A call that goes on has not been granted anything. -/
theorem granted?_of_finish (h : c.Rests op m stand activity finish) (hfinish : finish = none) :
    Hold.granted? op stand = none := by
  cases h with
  | here hperf => rfl
  | replied h => cases hfinish
  | again => simp [Hold.granted?]
  | faulted => rfl

theorem lock_eq (h : c.Rests op m stand activity finish) {th : Thread}
    (hth : th.activity = activity) {frame : Frame} (hframe : th.frame? = some frame) :
    frame.lock = m := by
  cases h with
  | here hperf =>
    simp only [Thread.frame?, hth, Option.some.injEq] at hframe
    rw [← hframe]
  | again =>
    simp only [Thread.frame?, hth, Option.some.injEq] at hframe
    rw [← hframe]
  | replied h => simp [Thread.frame?, hth] at hframe
  | faulted => simp [Thread.frame?, hth] at hframe

end Call.Rests

namespace Run

variable {r : Run} {e : Event} {t : ThreadId} {m : Nat} {l : Lock} {job : Job} {op : Operation}
  {c : Call} {task : Task}

/-- A run in which a job of a call has been done is orderly, and the job was a move. -/
theorem settle_operates (ho : r.Orderly) (hl : r.world.lock? m = some l)
    (hsuits : job.Suits l.body.algorithm) (hserves : job.Serves op) (hperf : c.Performs op task)
    (hstint : (r.world.thread t).stint? = job.place?.map (m, ·))
    (hfree : ∀ p, job.place? = some p → r.world.operationObstacle t m p = none)
    (hparting : (r.world.thread t).parting = []) (hlives : (r.world.thread t).Lives)
    (hcalled : ∀ op', job = .start op' →
      (∃ c, e = .call t m c ∧ c.acquires? = op.acquires? ∧ c.releases? = op.releases?) ∨
        e = .turn t ∧ (r.world.thread t).stint? = none ∧
          (r.world.thread t).frame?.isSome = true ∧ op.releases? = none ∧
          ∀ mode, op.acquires? = some mode → r.Awaits t m mode)
    (hturned : ∀ p, job = .resume p → e = .turn t)
    (hawaited : ∀ p, job = .resume p → ∀ mode, op.acquires? = some mode → r.Awaits t m mode)
    {r' : Run} (hmet : r'.world = (r.world.meet e).world)
    (hr' : r' = { r with holds := Hold.begun r.holds t m job }.settle t m c
      (World.settleCall t (World.settle t m task (r.world.work t m job)))) :
    Operates r e r' t m l job op ∧ r'.Orderly := by
  have hlock := (r.world.lock?_eq_some m).mp hl
  have hends := World.work_serves t hlock.1 hsuits hserves
  obtain ⟨clock, activity, hworld, hrests⟩ := World.settle_rests t m hperf hends
  obtain ⟨locals, hself⟩ := World.work_thread_self (t := t) hlock.1 hsuits
  have hkeeps := World.Keeps.work t hlock.1 hsuits
  -- What the new world is, field by field.
  have hw' : r'.world =
      ({ (r.world.work t m job).world with clock := clock }).withActivity t activity := by
    rw [hr']
    exact hworld
  have hlocks' : r'.world.locks = (r.world.work t m job).world.locks := by
    rw [hw']
    rfl
  have hthread' : r'.world.thread t =
      { (r.world.work t m job).world.thread t with activity := activity } := by
    rw [hw']
    exact World.thread_withActivity_self _ _ _
  have hothers' : ∀ u, u ≠ t → r'.world.thread u = r.world.thread u := by
    intro u hu
    rw [hw', World.thread_withActivity_of_ne _ _ hu]
    exact World.work_thread_of_ne hlock.1 hsuits hu
  have hasked' : ∀ u, u ≠ t → r'.asked u = r.asked u := by
    intro u hu
    rw [hr']
    exact Function.update_of_ne hu _ _
  have hasked_self : r'.asked t =
      if (World.settleCall t (World.settle t m task (r.world.work t m job))).finish = none
        then some c else none := by
    rw [hr']
    exact Function.update_self _ _ _
  have hactivity : (r'.world.thread t).activity = activity := by rw [hthread']
  refine ⟨⟨⟨hlock.1, hsuits, hstint, hfree, hlocks', ?_, ?_, ?_, hothers', hasked'⟩, hlock.2,
    hlives, hrests.lives hactivity, hserves, hparting, hrests.parting_eq hactivity, ?_, hmet,
    hcalled, hturned, hawaited, ?_⟩, ?_⟩
  · rw [hw']
    rfl
  · rw [hthread']
  · exact hrests.stint?_eq hactivity
  · rw [hr']
    exact hrests.holds_eq hperf.acquires?_eq _ t
  · rintro m' mode ⟨⟨c', hc', hmode⟩, frame, hframe, hm'⟩
    rw [hasked_self] at hc'
    split at hc'
    · next hfinish =>
      cases hc'
      refine ⟨hm'.symm.trans (hrests.lock_eq hactivity hframe), ?_,
        hrests.granted?_of_finish hfinish⟩
      rw [← hperf.acquires?_eq]
      exact hmode
    · cases hc'
  · refine ho.of_thread (hkeeps.trans (.of_locks_eq hlocks')) hothers' hasked' ?_ ?_
    · rw [hthread', hself]
      exact ho.unarmed t
    · have hl' : ∃ l', r'.world.lock? m = some l' ∧ l'.body.algorithm = l.body.algorithm := by
        obtain ⟨l', hl', halg, howned⟩ := hkeeps m l hlock.1
        exact ⟨l', (r'.world.lock?_eq_some m).mpr ⟨hlocks' ▸ hl', howned.trans hlock.2⟩, halg⟩
      obtain ⟨l', hl', halg'⟩ := hl'
      rw [hasked_self]
      generalize (World.settleCall t (World.settle t m task (r.world.work t m job))).finish = finish
        at hrests
      generalize (r.world.work t m job).stand = stand at hrests hends
      cases hrests with
      | here hperf' =>
        exact .working hactivity hperf' hl' (hends.1.trans halg'.symm) hends.2
      | replied h => exact .idle hactivity
      | again hc hop hposition =>
        subst hc
        exact .pausing hactivity hposition hl'
      | faulted => exact .idle hactivity

/-! ## Events -/

/-- The event is a move, perhaps with a dissolution after it if a lock has gone, and leaves the run
orderly. -/
def MovesOn (r : Run) (e : Event) : Prop :=
  (∃ r₁, Move r e r₁ ∧
    (r.after e = r₁ ∧ r.Spares r₁ ∨
      ∃ m, r.world.isAlive m = true ∧ Dissolves r₁ (r.after e) m)) ∧
    (r.after e).Orderly

theorem world_after (r : Run) (e : Event) : (r.after e).world = (r.world.meet e).world := by
  cases e with
  | turn t =>
    simp only [after]
    split <;> rfl
  | _ => rfl

theorem begun_eq (hperf : c.Performs op task) (r : Run) (t : ThreadId) (m : Nat) :
    r.begun t m c = { r with holds := Hold.begun r.holds t m (.start op) } := by
  simp only [begun, hperf.releases?_eq]
  cases op <;> rfl

theorem stint?_of_idle {th : Thread} (h : th.activity = .idle) : th.stint? = none := by
  simp only [Thread.stint?, h]

theorem asked_of_idle (ho : r.Orderly) (h : (r.world.thread t).activity = .idle) :
    r.asked t = none := by
  have htidy := ho.tidy t
  generalize r.asked t = a at htidy
  cases htidy with
  | idle | gone | ending | departing => rfl
  | working hact => cases h.symm.trans hact
  | pausing hact => cases h.symm.trans hact

/-- A call that begins with an operation starts it. -/
theorem call_operates (ho : r.Orderly) (hidle : (r.world.thread t).activity = .idle)
    (hl : r.world.lock? m = some l) (hperf : c.Performs op task)
    (hbegin : r.world.beginCallOn t m l c = World.settle t m task (r.world.work t m (.start op))) :
    Operates r (.call t m c) (r.after (.call t m c)) t m l (.start op) op ∧
      (r.after (.call t m c)).Orderly := by
  have hlock := ((r.world.lock?_eq_some m).mp hl).1
  have hafter : r.after (.call t m c) =
      { r with holds := Hold.begun r.holds t m (.start op) }.settle t m c
        (World.settleCall t (World.settle t m task (r.world.work t m (.start op)))) := by
    simp only [after, World.meet, World.call, World.beginCall, hlock, hbegin, begun_eq hperf]
  have hsuits : (Job.start op).Suits l.body.algorithm := trivial
  have hfree : ∀ p, (Job.start op).place? = some p → r.world.operationObstacle t m p = none :=
    fun p hp => nomatch hp
  exact settle_operates (e := .call t m c) ho hl hsuits rfl hperf
    (stint?_of_idle hidle) hfree (by simp only [Thread.parting, hidle]) (.inl hidle)
    (fun _ _ => .inl ⟨c, rfl, hperf.acquires?_eq, hperf.releases?_eq⟩) (fun _ h => nomatch h)
    (fun _ h => nomatch h) (world_after r _) hafter

theorem movesOn_call_locking (ho : r.Orderly) (hidle : (r.world.thread t).activity = .idle)
    (hl : r.world.lock? m = some l) (hc : c.isLocking = true) : MovesOn r (.call t m c) := by
  obtain ⟨op, task, hperf, hbegin⟩ := World.beginCallOn_performs r.world t m l hc
  obtain ⟨hop, horderly⟩ := call_operates ho hidle hl hperf hbegin
  exact ⟨⟨_, .operate hop, .inl ⟨rfl, hop.spares⟩⟩, horderly⟩

theorem movesOn_call_drop (ho : r.Orderly) (hidle : (r.world.thread t).activity = .idle)
    (hl : r.world.lock? m = some l) (hunused : r.world.isInUse m = false) :
    MovesOn r (.call t m .drop) := by
  have hlock := ((r.world.lock?_eq_some m).mp hl).1
  have hnone := asked_of_idle ho hidle
  let w := r.world.withLock m { l with owned := false }
  have hidle_self : ∀ v : World, (∀ u, v.thread u = r.world.thread u) →
      ∀ u, (v.withActivity t .idle).thread u = r.world.thread u := by
    intro v hv u
    by_cases hu : u = t
    · subst hu
      rw [World.thread_withActivity_self, hv]
      simp only [← hidle]
    · rw [World.thread_withActivity_of_ne _ _ hu]
      exact hv u
  have hasked : Function.update r.asked t none = r.asked := by
    rw [← hnone, Function.update_eq_self]
  have hunused' : ∀ u frame, (r.world.thread u).frame? = some frame → frame.lock ≠ m := by
    intro u frame hframe heq
    rw [← Bool.not_eq_true, World.isInUse_iff] at hunused
    exact hunused ⟨u, frame, hframe, heq⟩
  have hdrop : ∀ r₁ : Run, r₁.world.locks = w.locks → r₁.world.flags = r.world.flags →
      (∀ u, r₁.world.thread u = r.world.thread u) → r₁.asked = r.asked → r₁.holds = r.holds →
      Drops r r₁ m l :=
    fun r₁ hlocks hflags hthreads hasked hholds =>
      ⟨hl, hunused', hlocks, hflags, hthreads, hasked, hholds⟩
  by_cases hdep : r.world.hasDeparting m = true
  · have hdropLock : r.world.dropLock m = (w, []) := by
      simp only [World.dropLock, hlock]
      rw [if_pos hdep]
    have hafter : r.after (.call t m .drop) = { r with world := w.withActivity t .idle } := by
      simp only [after, begun, Call.releases?, World.meet, World.call, World.beginCall, hlock,
        World.beginCallOn, hdropLock, World.settleCall, settle, Call.granted?, Call.acquires?,
        Reply.isRefusal]
      simp [hasked]
    have hd := hdrop (r.after (.call t m .drop)) (by rw [hafter]; rfl) (by rw [hafter]; rfl)
      (fun u => by rw [hafter]; exact hidle_self w (fun _ => rfl) u) (by rw [hafter])
      (by rw [hafter])
    exact ⟨⟨_, .drop hd ⟨t, rfl⟩, .inl ⟨rfl, hd.spares hdep⟩⟩, ho.of_drops hd⟩
  · have hdropLock : r.world.dropLock m = w.dissolve m := by
      simp only [World.dropLock, hlock]
      rw [if_neg hdep]
    have hafter : r.after (.call t m .drop) =
        { r with world := (w.dissolve m).1.withActivity t .idle } := by
      simp only [after, begun, Call.releases?, World.meet, World.call, World.beginCall, hlock,
        World.beginCallOn, hdropLock, World.settleCall, settle, Call.granted?, Call.acquires?,
        Reply.isRefusal]
      simp [hasked]
    have hd := hdrop { r with world := w } rfl rfl (fun _ => rfl) rfl rfl
    have hthreads := hidle_self (w.dissolve m).1 (World.thread_dissolve w m)
    have hdis : Dissolves { r with world := w } (r.after (.call t m .drop)) m := by
      rw [hafter]
      refine ⟨?_, rfl, rfl, hthreads, rfl, rfl⟩
      have hlt : m < r.world.locks.length := (List.getElem?_eq_some_iff.mp hlock).1
      have hgone : w.lock? m = none := by
        simp [World.lock?, w, World.withLock, hlt, Option.filter]
      have hdep' : w.hasDeparting m = false := Bool.eq_false_iff.mpr hdep
      simp [World.isAlive, hgone, hdep']
    refine ⟨⟨_, .drop hd ⟨t, rfl⟩, .inr ⟨m, by simp [World.isAlive, hl], hdis⟩⟩, ?_⟩
    rw [hafter]
    exact (ho.of_drops hd).of_locks (.dissolve w m) hthreads rfl

theorem after_turn_of_asked_none (hasked : r.asked t = none) :
    r.after (.turn t) = r.abandoned t (r.world.turn t).world := by
  simp only [after, hasked, World.meet]

/-- An ending thread that is busy with nothing never leaves a registry by tearing down. -/
theorem movesOn_tearDown {e : Event} (ho : r.Orderly) (hasked : r.asked t = none)
    (hstint : (r.world.thread t).stint? = none) (hparting : (r.world.thread t).parting = [])
    {ending : Ending} (hchore : ending.chore = none) (harmed : ending.armed = [])
    (hnodes : ending.nodes = [])
    (hw' : (r.after e).world = (World.settleEnding t (r.world.tearDown t ending)).world)
    (hasked' : (r.after e).asked = r.asked) (hholds : (r.after e).holds = r.holds) :
    MovesOn r e := by
  obtain ⟨hshift, horderly⟩ :=
    tearDown_shifts ho hasked hstint hparting hchore harmed hnodes hw' hasked' hholds
  exact ⟨⟨_, .shift hshift, .inl ⟨rfl, hshift.spares⟩⟩, horderly⟩

theorem departingFrom?_of_settleEnding {ended : Ended}
    (h : ∀ ending, ended.ending = some ending → ending.chore = none) :
    ((World.settleEnding t ended).world.thread t).departingFrom? = none := by
  simp only [World.settleEnding]
  split
  · next ending heq =>
    simp [Thread.departingFrom?, Ending.departingFrom?, h ending heq]
  · simp [Thread.departingFrom?]

theorem chore_of_tearDown {w : World} {ending ending' : Ending} (hchore : ending.chore = none)
    (h : (w.tearDown t ending).ending = some ending') : ending'.chore = none := by
  unfold World.tearDown at h
  dsimp only at h
  split at h <;> cases h <;> exact hchore

theorem movesOn_exit (ho : r.Orderly) (hidle : (r.world.thread t).activity = .idle) :
    MovesOn r (.exit t) :=
  movesOn_tearDown ho (asked_of_idle ho hidle) (stint?_of_idle hidle)
    (by simp only [Thread.parting, hidle]) rfl rfl rfl rfl rfl rfl

/-- An ending thread turns to the next flag that it has to take off a registry. -/
theorem movesOn_beginNode (ho : r.Orderly) (hasked : r.asked t = none) {ending : Ending}
    (hactivity : (r.world.thread t).activity = .ending ending) (hchore : ending.chore = none)
    (harmed : ending.armed = []) {f : ReadMostly.Flag} {rest : List (Nat × ReadMostly.Flag)}
    (hnodes : ending.nodes = (m, f) :: rest) : MovesOn r (.turn t) := by
  have hstint := stint?_of_chore_none hactivity hchore
  have hparting : (r.world.thread t).parting = (m, f) :: rest := by
    simp only [Thread.parting, hactivity, hnodes]
  let left : Ending := { ending with nodes := rest }
  have hturn : r.world.turn t =
      World.settleEnding t (r.world.beginNode t m f left) := by
    simp only [World.turn, hactivity, World.resumeEnding, hchore, hnodes, left]
  have hafter := after_turn_of_asked_none hasked
  rw [hturn] at hafter
  -- If there is no registry to leave, the flag is let go.
  have hskip : r.world.beginNode t m f left = { world := r.world, ending := some left } →
      ¬ (∃ l, r.world.locks[m]? = some l ∧ l.body.algorithm = .readMostly ∧
        r.world.isAlive m = true) → MovesOn r (.turn t) := by
    intro hbegin hgone
    rw [hbegin] at hafter
    let th : Thread := { r.world.thread t with activity := .ending left }
    have hstint' : th.stint? = none := stint?_of_chore_none rfl hchore
    have hflags' : th.flags = (r.world.thread t).locals.nodes ++ rest :=
      flags_of_stint?_none hstint'
    have hflags : (r.world.thread t).flags = (r.world.thread t).locals.nodes ++ (m, f) :: rest := by
      rw [flags_of_stint?_none hstint, hparting]
    have hdeparting : ((World.settleEnding t
        { world := r.world, ending := some left }).world.thread t).departingFrom? = none :=
      departingFrom?_of_settleEnding fun ending' h => by cases h; exact hchore
    have hshift : Shifts r (r.after (.turn t)) t ∧ (r.after (.turn t)).Orderly := by
      rw [hafter]
      refine shifts_of_thread ho hasked hstint th hstint' (ho.unarmed t)
        (.ending rfl harmed hchore) ?_ ?_ ⟨rfl, rfl⟩ (not_lives_of_ending rfl)
        (fun htends => ⟨htends, fun h => by cases h⟩) (fun _ => rfl) rfl rfl rfl
        (abandoned_of_not_departing hdeparting)
      · rw [hflags, hflags']
        exact (List.sublist_cons_self _ _).append_left _
      · intro n g l hmem hl halg halive
        rw [hflags']
        rw [hflags, List.mem_append, List.mem_cons] at hmem
        rcases hmem with hmem | heq | hmem
        · exact List.mem_append_left _ hmem
        · cases heq
          exact absurd ⟨l, hl, halg, halive⟩ hgone
        · exact List.mem_append_right _ hmem
    exact ⟨⟨_, .shift hshift.1, .inl ⟨rfl, hshift.1.spares⟩⟩, hshift.2⟩
  by_cases halive : r.world.isAlive m = true
  · cases hl : r.world.locks[m]? with
    | none =>
      refine hskip (by simp only [World.beginNode, if_pos halive, hl]) ?_
      rintro ⟨l, hl', -⟩
      cases hl.symm.trans hl'
    | some l =>
      cases hs : l.body with
      | blocking s | polling s =>
        refine hskip (by simp only [World.beginNode, if_pos halive, hl, hs]) ?_
        rintro ⟨l', hl', halg, -⟩
        cases hl.symm.trans hl'
        rw [hs] at halg
        cases halg
      | readMostly s =>
        have hsuits : (Job.depart f).Suits l.body.algorithm := by
          rw [hs]
          exact rfl
        have hbegin : r.world.beginNode t m f left =
            World.settleNode t m left (r.world.work t m (.depart f)) := by
          simp only [World.beginNode, if_pos halive, hl, hs, World.work]
        rw [hbegin] at hafter
        obtain ⟨⟨r₁, hdep, hrest⟩, horderly⟩ := settleNode_departs ho hasked hl halive hsuits
          trivial hstint (fun p hp => by cases hp) (show left.armed = [] from harmed)
          (fun g hg => by cases hg; exact hparting) (fun h => by cases h) hafter
        exact ⟨⟨r₁, .depart hdep rfl, hrest.imp_right fun h => ⟨m, halive, h⟩⟩, horderly⟩
  · refine hskip (by simp only [World.beginNode, if_neg halive]) ?_
    rintro ⟨_, _, _, h⟩
    exact halive h

theorem movesOn_rest {e : Event} (ho : r.Orderly) (hs : Stirs r (r.after e) r.world.locks) :
    MovesOn r e :=
  ⟨⟨_, .rest hs, .inl ⟨rfl, hs.spares (.of_locks_eq hs.locks)⟩⟩,
    ho.of_locks (.of_locks_eq hs.locks) hs.threads hs.asked⟩

/-- An ending thread that has turned to a registry goes on there. -/
theorem turn_departs (ho : r.Orderly) (hasked : r.asked t = none)
    (hp : r.world.obstacle t = none) {ending : Ending} {pc : ReadMostly.Pc}
    (hact : (r.world.thread t).activity = .ending ending) (harmed : ending.armed = [])
    (hchore : ending.chore = some (.node m pc)) (hpc : pc.Departs)
    (hl : r.world.locks[m]? = some l) (halg : l.body.algorithm = .readMostly) :
    r.world.isAlive m = true ∧
      (∃ r₁, Departs r r₁ t m l (.resume (.readMostly pc)) ∧
        (r.after (.turn t) = r₁ ∧ r.Spares r₁ ∨ Dissolves r₁ (r.after (.turn t)) m)) ∧
      (r.after (.turn t)).Orderly := by
  have hafter := after_turn_of_asked_none hasked
  have hturn : r.world.turn t = World.settleEnding t (World.settleNode t m ending
      (r.world.work t m (.resume (.readMostly pc)))) := by
    simp only [World.turn, hact, World.resumeEnding, hchore, World.work]
  rw [hturn] at hafter
  have hfree : ∀ p, (Job.resume (.readMostly pc)).place? = some p →
      r.world.operationObstacle t m p = none := by
    intro p hp'
    cases hp'
    simpa only [World.obstacle, hact, World.endingObstacle, hchore] using hp
  have hsuits : (Job.resume (.readMostly pc)).Suits l.body.algorithm := halg.symm
  have halive : r.world.isAlive m = true := by
    have hdeparting : r.world.hasDeparting m = true := (r.world.hasDeparting_iff m).mpr
      ⟨t, by simp only [Thread.departingFrom?, hact, Ending.departingFrom?, hchore]⟩
    simp [World.isAlive, hdeparting]
  exact ⟨halive, settleNode_departs ho hasked hl halive hsuits hpc
    (stint?_of_chore_node hact hchore) hfree harmed (fun f hf => by cases hf)
    (fun _ => by simp only [Thread.parting, hact]) hafter⟩

theorem movesOn_departing (ho : r.Orderly) (hasked : r.asked t = none)
    (hp : r.world.obstacle t = none) {ending : Ending} {pc : ReadMostly.Pc}
    (hact : (r.world.thread t).activity = .ending ending) (harmed : ending.armed = [])
    (hchore : ending.chore = some (.node m pc)) (hpc : pc.Departs)
    (hl : r.world.locks[m]? = some l) (halg : l.body.algorithm = .readMostly) :
    MovesOn r (.turn t) := by
  obtain ⟨halive, ⟨r₁, hdep, hrest⟩, horderly⟩ :=
    turn_departs ho hasked hp hact harmed hchore hpc hl halg
  exact ⟨⟨r₁, .depart hdep rfl, hrest.imp_right fun h => ⟨m, halive, h⟩⟩, horderly⟩

/-- The next turn of a thread in an operation is a job of its call. -/
theorem meet_turn {p : Progress}
    (hact : (r.world.thread t).activity = .calling ⟨m, task, .operating p⟩) :
    r.world.meet (.turn t) =
      World.settleCall t (World.settle t m task (r.world.work t m (.resume p))) := by
  simp only [World.meet, World.turn, hact, World.resumeCall, World.work]

/-- The call of a thread that takes a turn is under way until it has come to its end. -/
theorem asked_after_turn (ha : r.asked t = some c) {frame : Frame}
    (hact : (r.world.thread t).activity = .calling frame) :
    (r.after (.turn t)).asked t =
      if (r.world.meet (.turn t)).finish = none then some c else none := by
  simp only [after, ha, Thread.frame?_of_calling hact]
  exact Function.update_self _ _ _

/-- A thread in an operation goes on with it. -/
theorem turn_operates (ho : r.Orderly) (ha : r.asked t = some c)
    (hp : r.world.obstacle t = none) {p : Progress}
    (hact : (r.world.thread t).activity = .calling ⟨m, task, .operating p⟩)
    (hperf : c.Performs op task) (hl : r.world.lock? m = some l)
    (halg : p.algorithm = l.body.algorithm) (hserves : p.Serves op) :
    Operates r (.turn t) (r.after (.turn t)) t m l (.resume p) op ∧
      (r.after (.turn t)).Orderly := by
  have hframe := Thread.frame?_of_calling hact
  have hafter : r.after (.turn t) =
      { r with holds := Hold.begun r.holds t m (.resume p) }.settle t m c
        (World.settleCall t (World.settle t m task (r.world.work t m (.resume p)))) := by
    simp only [after, ha, hframe, meet_turn hact, Hold.begun]
  have hfree : ∀ q, (Job.resume p).place? = some q →
      r.world.operationObstacle t m q = none := by
    intro q hq
    cases hq
    simpa only [World.obstacle, hact, World.callObstacle] using hp
  have hsuits : (Job.resume p).Suits l.body.algorithm := halg
  exact settle_operates (e := .turn t) ho hl hsuits hserves hperf
    (by simp only [Thread.stint?, hact, Job.place?, Option.map_some]) hfree
    (by simp only [Thread.parting, hact]) (.inr ⟨_, hact⟩) (fun _ h => by cases h)
    (fun _ _ => rfl)
    (fun _ _ mode hmode => ⟨⟨_, ha, hperf.acquires?_eq.trans hmode⟩, _, hframe, rfl⟩)
    (world_after r _) hafter

theorem movesOn_working (ho : r.Orderly) (ha : r.asked t = some c)
    (hp : r.world.obstacle t = none) {p : Progress}
    (hact : (r.world.thread t).activity = .calling ⟨m, task, .operating p⟩)
    (hperf : c.Performs op task) (hl : r.world.lock? m = some l)
    (halg : p.algorithm = l.body.algorithm) (hserves : p.Serves op) : MovesOn r (.turn t) := by
  obtain ⟨hop, horderly⟩ := turn_operates ho ha hp hact hperf hl halg hserves
  exact ⟨⟨_, .operate hop, .inl ⟨rfl, hop.spares⟩⟩, horderly⟩

section

variable {mode : Mode} {limit : TimeLimit} {guarded : Bool} {retry : Retry} {position : Position}

theorem meet_pausing
    (hact : (r.world.thread t).activity = .calling ⟨m, .retry mode guarded retry, position⟩)
    (hposition : ∀ p, position ≠ .operating p) :
    r.world.meet (.turn t) = World.settleCall t (World.settle t m (.retry mode guarded retry)
      (r.world.work t m (.start (.tryAcquire mode)))) := by
  simp only [World.meet, World.turn, hact]
  cases position with
  | operating p => exact absurd rfl (hposition p)
  | spun | yielding | sleeping nanos => rfl

/-- A timed call that has paused tries again. -/
theorem pausing_operates (ho : r.Orderly) (ha : r.asked t = some (.timed mode limit guarded))
    (hact : (r.world.thread t).activity = .calling ⟨m, .retry mode guarded retry, position⟩)
    (hposition : ∀ p, position ≠ .operating p) (hl : r.world.lock? m = some l) :
    Operates r (.turn t) (r.after (.turn t)) t m l (.start (.tryAcquire mode))
        (.tryAcquire mode) ∧
      (r.after (.turn t)).Orderly := by
  have hframe := Thread.frame?_of_calling hact
  have hstint : (r.world.thread t).stint? = none := by
    cases position with
    | operating p => exact absurd rfl (hposition p)
    | spun | yielding | sleeping nanos => simp only [Thread.stint?, hact]
  have hafter : r.after (.turn t) =
      { r with holds := Hold.begun r.holds t m (.start (.tryAcquire mode)) }.settle t m
        (.timed mode limit guarded)
        (World.settleCall t (World.settle t m (.retry mode guarded retry)
          (r.world.work t m (.start (.tryAcquire mode))))) := by
    simp only [after, ha, hframe, meet_pausing hact hposition, Hold.begun]
  have hsuits : (Job.start (.tryAcquire mode)).Suits l.body.algorithm := trivial
  exact settle_operates (e := .turn t) ho hl hsuits rfl
    (.timed mode limit guarded retry) hstint (fun p hp => by cases hp)
    (by simp only [Thread.parting, hact]) (.inr ⟨_, hact⟩)
    (fun _ _ => .inr ⟨rfl, hstint, by rw [hframe]; rfl, rfl, fun mode' hmode =>
      ⟨⟨_, ha, hmode⟩, _, hframe, rfl⟩⟩) (fun _ h => by cases h) (fun _ h => by cases h)
    (world_after r _) hafter

theorem movesOn_pausing (ho : r.Orderly) (ha : r.asked t = some (.timed mode limit guarded))
    (hact : (r.world.thread t).activity = .calling ⟨m, .retry mode guarded retry, position⟩)
    (hposition : ∀ p, position ≠ .operating p) (hl : r.world.lock? m = some l) :
    MovesOn r (.turn t) := by
  obtain ⟨hop, horderly⟩ := pausing_operates ho ha hact hposition hl
  exact ⟨⟨_, .operate hop, .inl ⟨rfl, hop.spares⟩⟩, horderly⟩

end

theorem movesOn_turn (ho : r.Orderly) (hp : r.world.obstacle t = none) : MovesOn r (.turn t) := by
  have htidy := ho.tidy t
  cases ha : r.asked t with
  | none =>
    have hafter := after_turn_of_asked_none ha
    have hstay : r.world.turn t = { world := r.world } →
        (r.world.thread t).departingFrom? = none → MovesOn r (.turn t) := by
      intro hturn hdeparting
      rw [hturn] at hafter
      refine movesOn_rest ho ?_
      rw [hafter]
      exact ⟨rfl, rfl, fun _ => rfl, rfl, abandoned_of_not_departing hdeparting⟩
    rw [ha] at htidy
    cases htidy with
    | idle hact =>
      exact hstay (by simp only [World.turn, hact]) (by simp only [Thread.departingFrom?, hact])
    | gone hact =>
      exact hstay (by simp only [World.turn, hact]) (by simp only [Thread.departingFrom?, hact])
    | @ending ending hact harmed hchore =>
      cases hnodes : ending.nodes with
      | cons node rest => exact movesOn_beginNode ho ha hact hchore harmed hnodes
      | nil =>
        have hturn : r.world.turn t = World.settleEnding t (r.world.tearDown t ending) := by
          simp only [World.turn, hact, World.resumeEnding, hchore, hnodes, harmed]
        rw [hturn] at hafter
        refine movesOn_tearDown ho ha (stint?_of_chore_none hact hchore)
          (by simp only [Thread.parting, hact, hnodes]) hchore harmed hnodes (by rw [hafter]; rfl)
          (by rw [hafter]; rfl) ?_
        rw [hafter]
        exact abandoned_of_not_departing
          (departingFrom?_of_settleEnding fun _ h => chore_of_tearDown hchore h)
    | departing hact harmed hchore hpc hl halg =>
      exact movesOn_departing ho ha hp hact harmed hchore hpc hl halg
  | some c =>
    rw [ha] at htidy
    cases htidy with
    | working hact hperf hl halg hserves =>
      exact movesOn_working ho ha hp hact hperf hl halg hserves
    | pausing hact hposition hl => exact movesOn_pausing ho ha hact hposition hl

/-- Everything that happens to an orderly run is a move, perhaps with a dissolution after it, and
leaves the run orderly. -/
theorem after_moves (ho : r.Orderly) {e : Event} (hp : r.world.Permits e) : MovesOn r e := by
  cases e with
  | call t m c =>
    obtain ⟨hidle, hlock, hc | ⟨rfl, hunused⟩⟩ := hp
    · obtain ⟨l, hl⟩ := Option.isSome_iff_exists.mp hlock
      exact movesOn_call_locking ho hidle hl hc
    · obtain ⟨l, hl⟩ := Option.isSome_iff_exists.mp hlock
      exact movesOn_call_drop ho hidle hl hunused
  | exit t => exact movesOn_exit ho hp
  | turn t => exact movesOn_turn ho hp
  | wake t =>
    by_cases hparked : r.world.obstacle t = some .parked
    · have hwake : (r.after (.wake t)).world.locks = r.world.locks.map (World.wakeIn t) := by
        simp only [after, World.meet, World.wake, if_pos hparked]
      have hs : Stirs r (r.after (.wake t)) (r.world.locks.map (World.wakeIn t)) := by
        refine ⟨hwake, ?_, ?_, rfl, rfl⟩
        · simp only [after, World.meet, World.wake, if_pos hparked]
        · intro u
          simp only [after, World.meet, World.wake, if_pos hparked]
          rfl
      exact ⟨⟨_, .wake hs rfl, .inl ⟨rfl, hs.spares (.wake r.world t hwake)⟩⟩,
        ho.of_locks (.wake r.world t hwake) hs.threads hs.asked⟩
    · refine movesOn_rest ho ?_
      simp only [after, World.meet, World.wake, if_neg hparked]
      exact ⟨rfl, rfl, fun _ => rfl, rfl, rfl⟩
  | advance nanos => exact movesOn_rest ho ⟨rfl, rfl, fun _ => rfl, rfl, rfl⟩
  | make kind config =>
    have hs : Stirs r (r.after (.make kind config)) (r.world.addLock kind config).locks :=
      ⟨rfl, rfl, fun _ => rfl, rfl, rfl⟩
    exact ⟨⟨_, .make hs rfl, .inl ⟨rfl, hs.spares (.addLock r.world kind config)⟩⟩,
      ho.of_locks (.addLock r.world kind config) hs.threads hs.asked⟩

/-- Everything that happens to an orderly run is a move. If a lock is dissolved after it, the
threads and what has been recorded of their calls are left as they are. -/
theorem exists_move_after (ho : r.Orderly) {e : Event} (hp : r.world.Permits e) :
    ∃ r', Move r e r' ∧ (∀ t, (r.after e).world.thread t = r'.world.thread t) ∧
      (r.after e).asked = r'.asked ∧ (r.after e).holds = r'.holds := by
  obtain ⟨⟨r', hmove, hrest⟩, -⟩ := after_moves ho hp
  refine ⟨r', hmove, ?_⟩
  rcases hrest with ⟨heq, -⟩ | ⟨n, -, hdis⟩
  · rw [heq]
    exact ⟨fun _ => rfl, rfl, rfl⟩
  · exact ⟨hdis.threads, hdis.asked, hdis.holds⟩

/-- What ends with a fault is a call, whose operation has come to the fault. -/
theorem Orderly.operates_of_faults (ho : r.Orderly) {e : Event} (hp : r.world.Permits e)
    {f : Fault} (h : (r.world.meet e).finish = some (.faulted f)) :
    ∃ t m l job op, Operates r e (r.after e) t m l job op ∧
      (r.world.work t m job).stand = .fault f := by
  -- A job that leaves the call where the event does has come to the fault.
  have hfault : ∀ {t m l job op task} {c : Call}, Operates r e (r.after e) t m l job op →
      c.Performs op task → r.world.meet e =
        World.settleCall t (World.settle t m task (r.world.work t m job)) →
      (r.world.work t m job).stand = .fault f := by
    intro t m l job op task c hop hperf hmeet
    rw [hmeet] at h
    exact (World.finish_settle_eq_faulted t m hperf
      (World.work_serves t hop.lock hop.suits hop.serves)).mp h
  have hending : ∀ t ended, r.world.meet e ≠ World.settleEnding t ended := by
    intro t ended hmeet
    rw [hmeet, World.settleEnding] at h
    split at h <;> cases h
  cases e with
  | call t m c =>
    obtain ⟨hidle, hlock, hc | ⟨rfl, -⟩⟩ := hp
    · obtain ⟨l, hl⟩ := Option.isSome_iff_exists.mp hlock
      obtain ⟨op, task, hperf, hbegin⟩ := World.beginCallOn_performs r.world t m l hc
      have hop := (call_operates ho hidle hl hperf hbegin).1
      refine ⟨t, m, l, _, op, hop, hfault hop hperf ?_⟩
      simp only [World.meet, World.call, World.beginCall, hop.lock, hbegin]
    · simp only [World.meet, World.call, World.beginCall] at h
      split at h <;> cases h
  | exit t => exact absurd rfl (hending t _)
  | turn t =>
    have hcalling : ∀ ending, (r.world.thread t).activity ≠ .ending ending := fun ending hact =>
      hending t (r.world.resumeEnding t ending) (by simp only [World.meet, World.turn, hact])
    have htidy := ho.tidy t
    cases ha : r.asked t with
    | none =>
      rw [ha] at htidy
      cases htidy with
      | idle hact | gone hact =>
        simp only [World.meet, World.turn, hact] at h
        cases h
      | ending hact | departing hact => exact absurd hact (hcalling _)
    | some c =>
      rw [ha] at htidy
      cases htidy with
      | working hact hperf hl halg hserves =>
        have hop := (turn_operates ho ha hp hact hperf hl halg hserves).1
        exact ⟨t, _, _, _, _, hop, hfault hop hperf (meet_turn hact)⟩
      | @pausing _ mode limit guarded retry position l hact hposition hl =>
        have hop := (pausing_operates ho ha hact hposition hl).1
        exact ⟨t, _, _, _, _, hop,
          hfault hop (.timed mode limit guarded retry) (meet_pausing hact hposition)⟩
  | wake t | advance nanos | make kind config => cases h

/-- A move that is not a turn of a thread leaves the call alone that the thread has under way. -/
theorem Orderly.caller_of_move (ho : r.Orderly) {r' : Run} {e : Event} (hp : r.world.Permits e)
    (hmove : Move r e r') (hasked : r.asked t ≠ none) (hne : e ≠ .turn t) :
    r'.world.thread t = r.world.thread t ∧ r'.asked t = r.asked t := by
  cases hmove with
  | @operate u n l job op h =>
    have hu : t ≠ u := by
      rintro rfl
      cases job with
      | start op' =>
        rcases h.called op' rfl with ⟨c, rfl, -⟩ | ⟨heq, -⟩
        · exact hasked (asked_of_idle ho hp.1)
        · exact hne heq
      | resume p => exact hne (h.turned p rfl)
      | depart f => exact h.serves.elim
    exact ⟨h.others t hu, h.asked t hu⟩
  | @depart u n l job h =>
    have hu : t ≠ u := by
      rintro rfl
      exact hasked h.idle.1
    exact ⟨h.others t hu, h.asked t hu⟩
  | @shift u h =>
    have hu : t ≠ u := by
      rintro rfl
      exact hasked h.idle
    exact ⟨h.others t hu, by rw [h.asked]⟩
  | drop h => exact ⟨h.threads t, by rw [h.asked]⟩
  | wake h => exact ⟨h.threads t, by rw [h.asked]⟩
  | make h => exact ⟨h.threads t, by rw [h.asked]⟩
  | rest h => exact ⟨h.threads t, by rw [h.asked]⟩

/-- Whatever happens other than a turn of a thread leaves the call alone that the thread has under
way. -/
theorem Orderly.caller_after (ho : r.Orderly) {e : Event} (hp : r.world.Permits e)
    (hasked : r.asked t ≠ none) (hne : e ≠ .turn t) :
    (r.after e).world.thread t = r.world.thread t ∧ (r.after e).asked t = r.asked t := by
  obtain ⟨r', hmove, hthreads, hrecord, -⟩ := exists_move_after ho hp
  obtain ⟨hthread, hcall⟩ := ho.caller_of_move hp hmove hasked hne
  exact ⟨(hthreads t).trans hthread, (congrFun hrecord t).trans hcall⟩

theorem orderly_initial (host : Host) : (initial host).Orderly where
  unarmed _ := rfl
  tidy _ := .idle rfl

end Run

/-- Reachable runs are orderly. -/
theorem Reachable.orderly {ok : Run → Event → Prop} {r : Run} (h : Reachable ok r) :
    r.Orderly := by
  induction h with
  | start => exact Run.orderly_initial _
  | step _ hp _ ih => exact (Run.after_moves ih hp).2

/-- What every move and every dissolution preserves holds of all reachable runs. -/
theorem Reachable.of_moves {ok : Run → Event → Prop} {P : Run → Prop}
    (hstart : ∀ host, P (.initial host))
    (hmove : ∀ {r r' : Run} {e : Event}, Reachable ok r → ok r e → Move r e r' → P r → P r')
    (hdissolve : ∀ {r r₁ r' : Run} {e : Event} {m : Nat}, Reachable ok r → ok r e → Move r e r₁ →
      r.world.isAlive m = true → Dissolves r₁ r' m → P r → P r₁ → P r') {r : Run}
    (h : Reachable ok r) : P r := by
  induction h with
  | start => exact hstart _
  | step hreach hp hok ih =>
    obtain ⟨⟨r₁, hr₁, ⟨heq, -⟩ | ⟨m, halive, hdis⟩⟩, -⟩ := Run.after_moves hreach.orderly hp
    · rw [heq]
      exact hmove hreach hok hr₁ ih
    · exact hdissolve hreach hok hr₁ halive hdis ih (hmove hreach hok hr₁ ih)

end ReaderWriter
