import ReaderWriter.Proofs.Moves

/-!
# The end of a thread

A thread that ends does jobs on the registries that list a flag of its own, and tears down what it
keeps for itself in between.

* `Run.tearDown_shifts`: tearing down changes nothing but where the thread keeps its flags.
* `Run.settleNode_departs`: a job on a registry is a move, after which the registry may go.
-/

namespace ReaderWriter

namespace Run

variable {r : Run} {t : ThreadId} {m : Nat} {l : Lock} {job : Job}

theorem stint?_of_chore_none {th : Thread} {ending : Ending} (hth : th.activity = .ending ending)
    (hchore : ending.chore = none) : th.stint? = none := by
  obtain ⟨chore, armed, nodes⟩ := ending
  cases hchore
  simp only [Thread.stint?, hth]

theorem stint?_of_chore_node {th : Thread} {ending : Ending} {pc : ReadMostly.Pc}
    (hth : th.activity = .ending ending) (hchore : ending.chore = some (.node m pc)) :
    th.stint? = some (m, .readMostly pc) := by
  obtain ⟨chore, armed, nodes⟩ := ending
  cases hchore
  simp only [Thread.stint?, hth]

/-- A thread that is on no lock has no flag in hand. -/
theorem flags_of_stint?_none {th : Thread} (hstint : th.stint? = none) :
    th.flags = th.locals.nodes ++ th.parting := by
  simp [Thread.flags, Thread.inHand?, hstint]

/-- Replacing a thread and then its activity is replacing the thread once. -/
theorem thread_withThread_withActivity (w : World) (t u : ThreadId) (th : Thread) (a : Activity) :
    ((w.withThread t th).withActivity t a).thread u =
      (w.withThread t { th with activity := a }).thread u := by
  by_cases hu : u = t
  · subst hu
    simp
  · rw [World.thread_withActivity_of_ne _ _ hu, World.thread_withThread_of_ne _ _ hu,
      World.thread_withThread_of_ne _ _ hu]

/-- What an ending thread holds is forgotten where it has begun to leave the registry. -/
theorem abandoned_holds (r : Run) (t : ThreadId) (w : World) {d : Option Nat}
    (hd : (w.thread t).departingFrom? = d) :
    (r.abandoned t w).holds =
      match d with
      | some m => r.holds.filter fun h => h ≠ ⟨t, m, .shared⟩
      | none => r.holds := by
  simp only [abandoned, hd]
  cases d with
  | none => simp
  | some m =>
    apply List.filter_congr
    rintro ⟨u, n, mode⟩ -
    simp only [Hold.mk.injEq, Option.some.injEq, ne_eq, decide_not, Bool.decide_and, Bool.and_assoc,
      eq_comm (a := m)]
    cases decide (mode = Mode.shared) <;> simp

theorem abandoned_of_not_departing {w : World} (h : (w.thread t).departingFrom? = none) :
    (r.abandoned t w).holds = r.holds :=
  abandoned_holds r t w h

theorem nodes_of_tearDown? {l l' : ReadMostly.Locals} {i : ReadMostly.Item}
    (h : l.tearDown? = some (i, l')) : l'.nodes = l.nodes := by
  unfold ReadMostly.Locals.tearDown? at h
  split at h
  · cases h
  · cases h
    rfl

theorem blocks_of_tearDown? {l l' : ReadMostly.Locals} {i : ReadMostly.Item}
    (h : l.tearDown? = some (i, l')) : l'.block = l.block ∧ l'.pair = l.pair := by
  unfold ReadMostly.Locals.tearDown? at h
  split at h
  · cases h
  · cases h
    exact ⟨rfl, rfl⟩

theorem mem_inUse_of_dropWhile {i : ReadMostly.Item} {items : List ReadMostly.Item}
    (hi : i.isSilent = false) (h : i ∈ items) : i ∈ items.dropWhile ReadMostly.Item.isSilent := by
  rw [← List.takeWhile_append_dropWhile (p := ReadMostly.Item.isSilent) (l := items),
    List.mem_append] at h
  refine h.resolve_left fun htake => ?_
  rw [List.all_eq_true.mp List.all_takeWhile i htake] at hi
  cases hi

/-- An item after which something remains to be done stays in use until it is its turn. -/
theorem mem_inUse_of_tearDown? {l l' : ReadMostly.Locals} {i j : ReadMostly.Item}
    (h : l.tearDown? = some (i, l')) (hj : j.isSilent = false) (hmem : j ∈ l.inUse) :
    j = i ∨ j ∈ l'.inUse := by
  have hdrop := mem_inUse_of_dropWhile hj hmem
  unfold ReadMostly.Locals.tearDown? at h
  split at h
  · cases h
  · next heq =>
    cases h
    rw [heq] at hdrop
    exact List.mem_cons.mp hdrop

theorem not_lives_of_ending {th : Thread} {ending : Ending} (h : th.activity = .ending ending) :
    ¬ th.Lives := by
  rintro (h' | ⟨frame, h'⟩) <;> cases h.symm.trans h'

/-- What an ending thread does after its nodes, or before them, leaves the nodes in use. -/
theorem tends_of_ending {th th' : Thread} {ending : Ending} {i : ReadMostly.Item}
    (h : th.locals.tearDown? = some (i, th'.locals)) (hi : i ≠ .nodes)
    (hth' : th'.activity = .ending ending) (htends : th.Tends) :
    th'.Tends ∧ (th'.activity = .gone → th'.flags = []) := by
  refine ⟨fun hne => ?_, fun hgone => ?_⟩
  · have hin := htends (nodes_of_tearDown? h ▸ hne)
    exact (mem_inUse_of_tearDown? h rfl hin).resolve_left (Ne.symm hi)
  · cases hth'.symm.trans hgone

/-- A thread that is on no lock has turned to something else. -/
theorem shifts_of_thread (ho : r.Orderly) (hasked : r.asked t = none)
    (hstint : (r.world.thread t).stint? = none) (th : Thread) (hstint' : th.stint? = none)
    (hunarmed : th.armed = []) (htidy : Tidy r.world th none)
    (hsublist : th.flags.Sublist (r.world.thread t).flags)
    (hkept : ∀ (m : Nat) (f : ReadMostly.Flag) (l : Lock), (m, f) ∈ (r.world.thread t).flags →
      r.world.locks[m]? = some l → l.body.algorithm = .readMostly → r.world.isAlive m = true →
      (m, f) ∈ th.flags)
    (hblocks : th.locals.block = (r.world.thread t).locals.block ∧
      th.locals.pair = (r.world.thread t).locals.pair)
    (hends : ¬ th.Lives)
    (htends : (r.world.thread t).Tends → th.Tends ∧ (th.activity = .gone → th.flags = []))
    {r' : Run} (hthread : ∀ u, r'.world.thread u = (r.world.withThread t th).thread u)
    (hlocks : r'.world.locks = r.world.locks) (hflags : r'.world.flags = r.world.flags)
    (hasked' : r'.asked = r.asked) (hholds : r'.holds = r.holds) :
    Shifts r r' t ∧ r'.Orderly := by
  have hself : r'.world.thread t = th := by rw [hthread, World.thread_withThread_self]
  have hothers : ∀ u, u ≠ t → r'.world.thread u = r.world.thread u := by
    intro u hu
    rw [hthread, World.thread_withThread_of_ne _ _ hu]
  have hkeeps : r.world.Keeps r'.world := .of_locks_eq hlocks
  constructor
  · refine ⟨hstint, ?_, hlocks, hflags, hothers, ?_, ?_, ?_, ?_, ?_, hasked', hasked, hholds⟩
    all_goals rw [hself]
    · exact hstint'
    · exact hsublist
    · exact hblocks
    · exact hkept
    · exact hends
    · exact htends
  · refine ho.of_thread hkeeps hothers (fun u _ => by rw [hasked']) ?_ ?_
    · rw [hself]
      exact hunarmed
    · rw [hself, hasked', hasked]
      exact htidy.keeps hkeeps

/-- An ending thread that has nothing left to do tears down the next thing that it keeps. -/
theorem tearDown_shifts (ho : r.Orderly) (hasked : r.asked t = none)
    (hstint : (r.world.thread t).stint? = none) (hparting : (r.world.thread t).parting = [])
    {ending : Ending} (hchore : ending.chore = none) (harmed : ending.armed = [])
    (hnodes : ending.nodes = []) {r' : Run}
    (hw' : r'.world = (World.settleEnding t (r.world.tearDown t ending)).world)
    (hasked' : r'.asked = r.asked) (hholds : r'.holds = r.holds) :
    Shifts r r' t ∧ r'.Orderly := by
  have hunarmed := ho.unarmed t
  have hflags : (r.world.thread t).flags = (r.world.thread t).locals.nodes := by
    rw [flags_of_stint?_none hstint, hparting, List.append_nil]
  -- Each time the thread keeps its flags, if in another place.
  have hshift : ∀ th : Thread, th.flags = (r.world.thread t).locals.nodes → th.stint? = none →
      th.armed = [] → Tidy r.world th none → th.locals.block = (r.world.thread t).locals.block ∧
        th.locals.pair = (r.world.thread t).locals.pair → ¬ th.Lives →
      ((r.world.thread t).Tends → th.Tends ∧ (th.activity = .gone → th.flags = [])) →
      (∀ u, r'.world.thread u = (r.world.withThread t th).thread u) →
      r'.world.locks = r.world.locks → r'.world.flags = r.world.flags →
      Shifts r r' t ∧ r'.Orderly := by
    intro th hsame hstint' harmed' htidy hblocks hends htends hthread hlocks hflags'
    rw [← hflags] at hsame
    refine shifts_of_thread ho hasked hstint th hstint' harmed' htidy ?_ ?_ hblocks hends htends
      hthread hlocks hflags' hasked' hholds
    · exact hsame ▸ List.Sublist.refl _
    · intro m f l hmem _ _ _
      rwa [hsame]
  have hending : ∀ (th : Thread) (e : Ending), th.activity = .ending e → e.nodes = [] →
      e.armed = [] → e.chore = none →
      th.flags = th.locals.nodes ∧ th.stint? = none ∧ Tidy r.world th none := by
    intro th e hth hnodes' harmed' hchore'
    have hstint' := stint?_of_chore_none hth hchore'
    refine ⟨?_, hstint', .ending hth harmed' hchore'⟩
    rw [flags_of_stint?_none hstint']
    simp [Thread.parting, hth, hnodes']
  cases htear : (r.world.thread t).locals.tearDown? with
  | none =>
    simp only [World.tearDown, htear, World.settleEnding] at hw'
    let th : Thread := { r.world.thread t with activity := .gone }
    have hflags : th.flags = (r.world.thread t).locals.nodes :=
      (flags_of_stint?_none rfl).trans (List.append_nil _)
    refine hshift th hflags rfl hunarmed (.gone rfl) ⟨rfl, rfl⟩ ?_
      (fun htends => ⟨htends, fun _ => ?_⟩) (fun u => by rw [hw']; rfl) (by rw [hw']; rfl)
      (by rw [hw']; rfl)
    · rintro (h | ⟨frame, h⟩) <;> cases h
    · rw [hflags]
      by_contra hne
      have hin := htends hne
      have hdrop := mem_inUse_of_dropWhile rfl hin
      unfold ReadMostly.Locals.tearDown? at htear
      split at htear
      · next hempty =>
        rw [hempty] at hdrop
        cases hdrop
      · cases htear
  | some torn =>
    obtain ⟨i, locals⟩ := torn
    have hlocals := nodes_of_tearDown? htear
    have hblocks := blocks_of_tearDown? htear
    cases i with
    | nodes =>
      simp only [World.tearDown, htear, World.settleEnding] at hw'
      let th : Thread :=
        { r.world.thread t with
          activity := .ending { ending with nodes := locals.nodes }
          locals := { locals with nodes := [] } }
      have hstint' : th.stint? = none := stint?_of_chore_none rfl hchore
      refine hshift th ?_ hstint' hunarmed (.ending rfl harmed hchore) hblocks
        (not_lives_of_ending rfl) (fun _ => ⟨fun hne => absurd rfl hne, nofun⟩) ?_
        (by rw [hw']; rfl) (by rw [hw']; rfl)
      · exact (flags_of_stint?_none hstint').trans hlocals
      · intro u
        rw [hw', thread_withThread_withActivity]
    | armed =>
      simp only [World.tearDown, htear, World.settleEnding] at hw'
      obtain ⟨hsame, hstint', htidy⟩ := hending
        { r.world.thread t with
          activity := .ending { ending with armed := (r.world.thread t).armed }
          locals := locals
          armed := [] } _ rfl hnodes hunarmed hchore
      refine hshift _ (hsame.trans hlocals) hstint' rfl htidy hblocks
        (not_lives_of_ending rfl) (tends_of_ending htear (by simp) rfl) ?_
        (by rw [hw']; rfl) (by rw [hw']; rfl)
      intro u
      rw [hw', thread_withThread_withActivity]
    | block | pair =>
      simp only [World.tearDown, htear, World.settleEnding] at hw'
      obtain ⟨hsame, hstint', htidy⟩ := hending
        { r.world.thread t with activity := .ending ending, locals := locals } _ rfl hnodes harmed
        hchore
      refine hshift _ (hsame.trans hlocals) hstint' hunarmed htidy hblocks
        (not_lives_of_ending rfl) (tends_of_ending htear (by simp) rfl) ?_
        (by rw [hw']; rfl) (by rw [hw']; rfl)
      intro u
      rw [hw', thread_withThread_withActivity]

/-- A job of an ending thread is a move, given what the thread is busy with afterwards. -/
theorem abandoned_departs (ho : r.Orderly) (hasked : r.asked t = none)
    (hlock : r.world.locks[m]? = some l) (halive : r.world.isAlive m = true)
    (hsuits : job.Suits l.body.algorithm) (hdeparts : job.Departs)
    (hstint : (r.world.thread t).stint? = job.place?.map (m, ·))
    (hfree : ∀ p, job.place? = some p → r.world.operationObstacle t m p = none)
    (ending : Ending) (harmed : ending.armed = [])
    (hparting : ∀ f, job = .depart f →
      (r.world.thread t).parting = (m, f) :: ending.nodes)
    (hparting' : job.place?.isSome = true → (r.world.thread t).parting = ending.nodes)
    (hchore :
      (∃ pc, pc.Departs ∧ (r.world.work t m job).stand = .here (.readMostly pc) ∧
        ending.chore = some (.node m pc)) ∨
      ∃ answer, (r.world.work t m job).stand = .done answer ∧ ending.chore = none)
    (w : World) (hlocks : w.locks = (r.world.work t m job).world.locks)
    (hflags : w.flags = (r.world.work t m job).world.flags)
    (hthread : ∀ u, w.thread u =
      ((r.world.work t m job).world.withActivity t (.ending ending)).thread u) :
    Departs r (r.abandoned t w) t m l job ∧ (r.abandoned t w).Orderly := by
  obtain ⟨locals, hself⟩ := World.work_thread_self (t := t) hlock hsuits
  have hkeeps := World.Keeps.work t hlock hsuits
  have halg := (World.work_departs t hlock hsuits hdeparts).1
  have hthread_self : w.thread t =
      { (r.world.work t m job).world.thread t with activity := .ending ending } := by
    rw [hthread, World.thread_withActivity_self]
  have hactivity : (w.thread t).activity = .ending ending := by rw [hthread_self]
  have hothers : ∀ u, u ≠ t → w.thread u = r.world.thread u := by
    intro u hu
    rw [hthread, World.thread_withActivity_of_ne _ _ hu]
    exact World.work_thread_of_ne hlock hsuits hu
  have hparting_self : (w.thread t).parting = ending.nodes := by
    simp only [Thread.parting, hactivity]
  -- Where the thread is now, and what that makes of its holds.
  have hplace : (w.thread t).stint? = (r.world.work t m job).stand.place?.map (m, ·) ∧
      (r.abandoned t w).holds = Hold.abandoned r.holds t m (r.world.work t m job).stand ∧
      Tidy w (w.thread t) none := by
    rcases hchore with ⟨pc, hpc, hstand, hchore⟩ | ⟨answer, hstand, hchore⟩
    · obtain ⟨l', hl', halg', -⟩ := hkeeps m l hlock
      have hdeparting : (w.thread t).departingFrom? = some m := by
        simp only [Thread.departingFrom?, hactivity, Ending.departingFrom?, hchore]
      rw [hstand]
      refine ⟨stint?_of_chore_node hactivity hchore, abandoned_holds r t w hdeparting, ?_⟩
      exact .departing hactivity harmed hchore hpc (hlocks ▸ hl') (halg'.trans halg)
    · have hdeparting : (w.thread t).departingFrom? = none := by
        simp only [Thread.departingFrom?, hactivity, Ending.departingFrom?, hchore]
      rw [hstand]
      exact ⟨stint?_of_chore_none hactivity hchore, abandoned_holds r t w hdeparting,
        .ending hactivity harmed hchore⟩
  obtain ⟨hstint', hholds, htidy⟩ := hplace
  refine ⟨⟨⟨hlock, hsuits, hstint, hfree, hlocks, hflags, ?_, hstint', hothers, fun _ _ => rfl⟩,
    halive, ⟨_, hactivity⟩, hdeparts, ⟨hasked, hasked⟩, ?_, ?_, hholds⟩, ?_⟩
  · change (w.thread t).locals = _
    rw [hthread_self]
  · intro f hf
    change _ = _ :: (w.thread t).parting
    rw [hparting_self]
    exact hparting f hf
  · intro hplace
    change _ = (w.thread t).parting
    rw [hparting_self]
    exact hparting' hplace
  · have hkeeps' : r.world.Keeps (r.abandoned t w).world := hkeeps.trans (.of_locks_eq hlocks)
    refine ho.of_thread hkeeps' hothers (fun _ _ => rfl) ?_ ?_
    · change (w.thread t).armed = []
      rw [hthread_self, hself]
      exact ho.unarmed t
    · change Tidy w (w.thread t) (r.asked t)
      rw [hasked]
      exact htidy

/-- An ending thread does a job on the registry of a lock. If that was its last one there, and
nobody else keeps the registry, the registry goes. -/
theorem settleNode_departs (ho : r.Orderly) (hasked : r.asked t = none)
    (hlock : r.world.locks[m]? = some l) (halive : r.world.isAlive m = true)
    (hsuits : job.Suits l.body.algorithm) (hdeparts : job.Departs)
    (hstint : (r.world.thread t).stint? = job.place?.map (m, ·))
    (hfree : ∀ p, job.place? = some p → r.world.operationObstacle t m p = none)
    {ending : Ending} (harmed : ending.armed = [])
    (hparting : ∀ f, job = .depart f →
      (r.world.thread t).parting = (m, f) :: ending.nodes)
    (hparting' : job.place?.isSome = true → (r.world.thread t).parting = ending.nodes)
    {r' : Run} (hr' : r' = r.abandoned t
      (World.settleEnding t (World.settleNode t m ending (r.world.work t m job))).world) :
    (∃ r₁, Departs r r₁ t m l job ∧ (r' = r₁ ∧ r.Spares r₁ ∨ Dissolves r₁ r' m)) ∧
      r'.Orderly := by
  obtain ⟨-, ⟨pc, hpc, hstand⟩ | ⟨answer, hstand⟩⟩ := World.work_departs t hlock hsuits hdeparts
  · let busy : Ending := { ending with chore := some (.node m pc) }
    have hdep := abandoned_departs ho hasked hlock halive hsuits hdeparts hstint hfree busy harmed
      hparting hparting' (.inl ⟨pc, hpc, hstand, rfl⟩)
      ((r.world.work t m job).world.withActivity t (.ending busy)) rfl rfl (fun _ => rfl)
    simp only [World.settleNode, hstand, World.settleEnding] at hr'
    subst hr'
    refine ⟨⟨_, hdep.1, .inl ⟨rfl, hdep.1.spares ((World.isAlive_iff _ _).mpr (.inr ⟨t, ?_⟩))⟩⟩,
      hdep.2⟩
    simp [abandoned, Thread.departingFrom?, Ending.departingFrom?, busy]
  · let left : Ending := { ending with chore := none }
    let w := (r.world.work t m job).world.withActivity t (.ending left)
    have hdep := abandoned_departs ho hasked hlock halive hsuits hdeparts hstint hfree left harmed
      hparting hparting' (.inr ⟨answer, hstand, rfl⟩)
    have htwice : ∀ (v : World), (∀ u, v.thread u = w.thread u) → ∀ u,
        (v.withActivity t (.ending left)).thread u = w.thread u := by
      intro v hv u
      by_cases hu : u = t
      · subst hu
        rw [World.thread_withActivity_self, hv]
        simp [w]
      · rw [World.thread_withActivity_of_ne _ _ hu]
        exact hv u
    by_cases hkept : w.isAlive m = true
    · have hleft : (r.world.work t m job).world.leftRegistry t m ending =
          { world := w, ending := some left } := by
        simp only [World.leftRegistry]
        rw [if_pos hkept]
      simp only [World.settleNode, hstand, hleft, World.settleEnding] at hr'
      subst hr'
      have hd := hdep (w.withActivity t (.ending left)) rfl rfl (htwice w fun _ => rfl)
      refine ⟨⟨_, hd.1, .inl ⟨rfl, hd.1.spares ?_⟩⟩, hd.2⟩
      rw [World.isAlive_iff] at hkept ⊢
      exact hkept.imp_right (Exists.imp fun u hu => by rwa [← htwice w (fun _ => rfl)] at hu)
    · have hleft : (r.world.work t m job).world.leftRegistry t m ending =
          { world := (w.dissolve m).1, ending := some left, notes := (w.dissolve m).2 } := by
        simp only [World.leftRegistry]
        rw [if_neg hkept]
      simp only [World.settleNode, hstand, hleft, World.settleEnding] at hr'
      subst hr'
      have hd := hdep w rfl rfl fun _ => rfl
      have hsame := htwice (w.dissolve m).1 (World.thread_dissolve w m)
      have hdeparting : (w.thread t).departingFrom? = none := by
        simp [w, Thread.departingFrom?, Ending.departingFrom?, left]
      have hdeparting' := (congrArg Thread.departingFrom? (hsame t)).trans hdeparting
      refine ⟨⟨_, hd.1, .inr ⟨?_, rfl, rfl, hsame, rfl, ?_⟩⟩, ?_⟩
      · exact Bool.eq_false_iff.mpr hkept
      · rw [abandoned_of_not_departing hdeparting, abandoned_of_not_departing hdeparting']
      · exact hd.2.of_locks (.dissolve w m) hsame rfl

end Run

end ReaderWriter
