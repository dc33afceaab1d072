import ReaderWriter.Proofs.BlockingGroups
import ReaderWriter.Proofs.ReadMostly.Quiet

/-!
# The marks of notifiers

A signal has a mark that a notifier sets before it notifies and clears afterwards. Whatever the
callers do, and wherever a notifier is stopped, the mark is that of the one thread that is inside a
notification.

* `Progress.notice?`: the notification that a thread is about to make, or is making.
* `Turned.recounts_of_blocking`, `Acts.recounts`: a turn sets the mark as its thread goes into a
  notification, which nobody else is in then, and clears it as the thread comes out.
* `Reachable.marked_all`: the mark counts the threads that are inside.
-/

namespace ReaderWriter

open ReadMostly (Pc Untold)

/-! ## Notifications under way -/

/-- The signal of the queue in which callers of a mode wait. Nobody waits in a queue for a polling
lock. -/
def Body.signal : Body → Mode → Signal
  | .blocking s, mode => (s.group mode).signal
  | .polling _, _ => {}
  | .readMostly s, mode => s.signal mode

/-- The notification is being made. -/
def Notice.Stage.isInside : Notice.Stage → Bool
  | .inside _ => true
  | .announced | .yielding => false

/-- The mode whose callers a thread at this place notifies, and how far that has come. -/
def ReadMostly.Pc.notice? : Pc → Option (Mode × Notice.Stage)
  | .reopening _ n => some (.shared, n)
  | .passingOn _ n | .prodding _ _ n | .handingOff _ (.prodding n) _ => some (.unique, n)
  | _ => none

/-- The mode whose callers a thread at this place notifies, and how far that has come. On a blocking
lock a thread does not insist on the notification. -/
def Progress.notice? : Progress → Option (Mode × Notice.Stage)
  | .blocking (.notifying mode) => some (mode, .announced)
  | .blocking (.notified mode woken) => some (mode, .inside woken)
  | .blocking _ | .polling _ => none
  | .readMostly pc => pc.notice?

/-- A thread at this place is inside a notification of callers of a mode. -/
def Progress.tells (mode : Mode) (p : Progress) : Bool :=
  p.notice?.any fun n => n.1 == mode && n.2.isInside

theorem ReadMostly.Pc.tells_iff (pc : Pc) (mode : Mode) :
    (Progress.readMostly pc).tells mode = true ↔ pc.tells? = some mode := by
  have hstage : ∀ (n : Notice.Stage) (mode' : Mode),
      ((some (mode', n)).any fun n => n.1 == mode && n.2.isInside) = true ↔
        (if n.isInside then some mode' else none) = some mode := by
    intro n mode'
    cases n <;> simp [Notice.Stage.isInside]
  cases pc with
  | reopening why n => cases n <;> exact hstage _ _
  | passingOn why n => cases n <;> exact hstage _ _
  | prodding f b n => cases n <;> exact hstage _ _
  | handingOff why stage b =>
    cases stage with
    | prodding n => cases n <;> exact hstage _ _
    | _ => simp [Progress.tells, Progress.notice?, notice?, tells?]
  | _ => simp [Progress.tells, Progress.notice?, notice?, tells?]

/-! ## Turns on a blocking lock -/

namespace Blocking

variable {t : ThreadId} {s s' : State} {mode mode' : Mode} {pc : Blocking.Pc}

/-- Nobody begins or ends a notification. -/
def State.SameMarks (s s' : State) : Prop :=
  ∀ mode, (s'.group mode).signal.notifying = (s.group mode).signal.notifying

theorem State.SameMarks.refl (s : State) : s.SameMarks s := fun _ => rfl

theorem State.SameMarks.trans {s'' : State} (h : s.SameMarks s') (h' : s'.SameMarks s'') :
    s.SameMarks s'' :=
  fun mode => (h' mode).trans (h mode)

theorem sameMarks_withWord (s : State) (w : Word) : s.SameMarks { s with word := w } :=
  fun mode => by rw [group_withWord]

theorem sameMarks_withGroup (s : State) (mode : Mode) {g : Group}
    (h : g.signal.notifying = (s.group mode).signal.notifying) :
    s.SameMarks (s.withGroup mode g) := by
  intro mode'
  by_cases hmode : mode' = mode
  · rw [hmode, group_withGroup_self, h]
  · rw [group_withGroup_of_ne _ _ hmode]

/-- A turn that begins or ends no notification: its thread is in none afterwards. -/
def Quiet (s : State) (turn : Turn State Blocking.Pc) : Prop :=
  s.SameMarks turn.state ∧
    ∀ pc mode, turn.stand = .here pc → (Progress.blocking pc).tells mode = false

theorem quiet_attempt (mode : Mode) (b : Backoff) (s : State) : Quiet s (attempt mode b s) := by
  have hattempted := attempt_attempted mode b s
  generalize attempt mode b s = turn at hattempted ⊢
  cases hattempted with
  | granted =>
    refine ⟨(sameMarks_withWord s _).trans (sameMarks_withGroup _ _ ?_), by rintro _ _ ⟨⟩⟩
    simp only [group_withWord]
  | faulted => exact ⟨sameMarks_withGroup _ _ rfl, by rintro _ _ ⟨⟩⟩
  | announced => exact ⟨sameMarks_withWord s _, by rintro _ _ ⟨⟩; rfl⟩

theorem Quiet.of_same {turn : Turn State Blocking.Pc} (h : Quiet s' turn) (hs : s.SameMarks s') :
    Quiet s turn :=
  ⟨hs.trans h.1, h.2⟩

theorem quiet_enter (t : ThreadId) (mode : Mode) (s : State) : Quiet s (enter t mode s) := by
  unfold enter
  dsimp only
  split
  · exact ⟨.refl s, by rintro _ _ ⟨⟩; rfl⟩
  · exact (quiet_attempt _ _ _).of_same (sameMarks_withGroup _ _ rfl)

theorem quiet_recheck (s : State) : Quiet s (recheck s) := by
  unfold recheck
  split
  · exact ⟨.refl s, by rintro _ _ ⟨⟩; rfl⟩
  · exact ⟨.refl s, by rintro _ _ ⟨⟩⟩

/-- A release that is about to notify has not begun to. -/
theorem tells_notifying (mode mode' : Mode) :
    (Progress.blocking (.notifying mode)).tells mode' = false := by
  simp [Progress.tells, Progress.notice?, Notice.Stage.isInside]

theorem quiet_notifyFor (w : Word) (s : State) : Quiet s (notifyFor w s) := by
  unfold notifyFor
  split
  · exact ⟨.refl s, by rintro _ mode' ⟨⟩; exact tells_notifying _ _⟩
  · split
    · exact ⟨.refl s, by rintro _ mode' ⟨⟩; exact tells_notifying _ _⟩
    · split
      · exact ⟨.refl s, by rintro _ _ ⟨⟩; rfl⟩
      · exact ⟨.refl s, by rintro _ _ ⟨⟩⟩

theorem quiet_afterRelease (s : State) (w : Except Fault Word) : Quiet s (afterRelease s w) := by
  cases w with
  | error f => exact ⟨.refl s, by rintro _ _ ⟨⟩⟩
  | ok w =>
    simp only [afterRelease]
    split
    · exact (quiet_notifyFor _ _).of_same (sameMarks_withWord s w)
    · exact ⟨sameMarks_withWord s w, by rintro _ _ ⟨⟩⟩

theorem quiet_start (op : Operation) (s : State) : Quiet s (start op s) := by
  have hhere : ∀ mode, Quiet s { state := s, stand := .here (.contended mode) } :=
    fun _ => ⟨.refl s, by rintro _ _ ⟨⟩; rfl⟩
  have hdone : ∀ answer, Quiet s { state := s, stand := .done answer } :=
    fun _ => ⟨.refl s, by rintro _ _ ⟨⟩⟩
  have hfault : ∀ f, Quiet s { state := s, stand := .fault f } :=
    fun _ => ⟨.refl s, by rintro _ _ ⟨⟩⟩
  have hgranted : ∀ w answer, Quiet s { state := { s with word := w }, stand := .done answer } :=
    fun w _ => ⟨sameMarks_withWord s w, by rintro _ _ ⟨⟩⟩
  rcases op with (_ | _) | (_ | _) | (_ | _) <;> simp only [start]
  · split
    · exact hgranted _ _
    · exact hhere _
  · split
    · exact hhere _
    · split
      · exact hgranted _ _
      · exact hfault _
  · split
    · exact hgranted _ _
    · exact hdone _
  · split
    · exact hdone _
    · split
      · exact hgranted _ _
      · exact hfault _
  · exact quiet_afterRelease _ _
  · exact quiet_afterRelease _ _

theorem Quiet.tells_eq {turn : Turn State Blocking.Pc} (h : Quiet s turn) (mode : Mode) :
    (turn.stand.place?.map Progress.blocking).any (Progress.tells mode) = false := by
  cases hstand : turn.stand with
  | here pc => simp [Stand.place?, h.2 pc mode hstand]
  | done | fault => simp [Stand.place?]

/-- A quiet turn of a thread that is in no notification. -/
theorem Quiet.recounts {turn : Turn State Blocking.Pc} (h : Quiet s turn) {before : Prop}
    (hbefore : ¬before) (mode : Mode) :
    Recounts (s.group mode).signal.notifying.toNat (turn.state.group mode).signal.notifying.toNat
      before ((turn.stand.place?.map Progress.blocking).any (Progress.tells mode) = true) :=
  .keeps (congrArg Bool.toNat (h.1 mode)) (iff_of_false (by simp [h.tells_eq]) hbefore)

theorem quiet_waiting (t : ThreadId) (mode : Mode) (stage : Wait.Stage) (b : Backoff) (s : State) :
    Quiet s (resume t (.waiting mode stage b) s) := by
  by_cases hstage : stage = .woken
  · subst hstage
    exact quiet_attempt mode b s
  · let w : Wait.State := ⟨(s.group mode).gate, (s.group mode).signal, stage, b⟩
    have hsame := sameMarks_withGroup s mode (g := { s.group mode with
      gate := (Wait.turn s.terms.strategy t w).gate
      signal := (Wait.turn s.terms.strategy t w).signal })
      (ReadMostly.goes_notifying (Wait.turn_goes s.terms.strategy t (w := w) hstage))
    cases stage <;> first
      | exact ⟨hsame, by rintro _ _ ⟨⟩; rfl⟩
      | exact absurd rfl hstage

theorem quiet_yielding (t : ThreadId) (s : State) : Quiet s (resume t .yielding s) := by
  simp only [resume]
  split
  · exact quiet_notifyFor _ _
  · exact ⟨.refl s, by rintro _ _ ⟨⟩⟩

/-- A release goes into a notification, and sets the mark, unless somebody is in one. -/
theorem notifying_recounts (t : ThreadId) (mode' : Mode) (s : State) (mode : Mode) :
    Recounts (s.group mode).signal.notifying.toNat
      ((resume t (.notifying mode') s).state.group mode).signal.notifying.toNat
      ((Progress.blocking (.notifying mode')).tells mode = true)
      (((resume t (.notifying mode') s).stand.place?.map Progress.blocking).any
        (Progress.tells mode) = true) := by
  simp only [resume, Signal.notify?]
  cases hmark : (s.group mode').signal.notifying with
  | true =>
    simp only [if_true]
    exact (quiet_recheck s).recounts (by simp [tells_notifying]) mode
  | false =>
    simp only [Bool.false_eq_true, if_false]
    by_cases hmode : mode = mode'
    · subst hmode
      refine .enters ?_ (by simp [tells_notifying]) ?_
      · rw [hmark, group_withGroup_self]
        rfl
      · simp [Stand.place?, Progress.tells, Progress.notice?, Notice.Stage.isInside]
    · refine .keeps (by rw [group_withGroup_of_ne _ _ hmode]) (iff_of_false ?_ ?_)
      · simp [Stand.place?, Progress.tells, Progress.notice?, Ne.symm hmode]
      · simp [tells_notifying]

/-- A release comes out of its notification, and clears the mark. -/
theorem notified_recounts (t : ThreadId) (mode' : Mode) (woken : List ThreadId) (s : State)
    (mode : Mode) :
    Recounts (s.group mode).signal.notifying.toNat
      ((resume t (.notified mode' woken) s).state.group mode).signal.notifying.toNat
      ((Progress.blocking (.notified mode' woken)).tells mode = true)
      (((resume t (.notified mode' woken) s).stand.place?.map Progress.blocking).any
        (Progress.tells mode) = true) := by
  simp only [resume]
  have hrecheck := quiet_recheck
    (s.withGroup mode' { s.group mode' with signal := (s.group mode').signal.release })
  have hmark := hrecheck.1 mode
  by_cases hmode : mode = mode'
  · subst hmode
    rw [group_withGroup_self] at hmark
    refine .leaves ?_ ?_ (by simp [hrecheck.tells_eq])
    · rw [hmark]
      exact (Nat.sub_eq_zero_of_le (Bool.toNat_le _)).symm
    · simp [Progress.tells, Progress.notice?, Notice.Stage.isInside]
  · rw [group_withGroup_of_ne _ _ hmode] at hmark
    refine .keeps (congrArg Bool.toNat hmark) (iff_of_false (by simp [hrecheck.tells_eq]) ?_)
    simp [Progress.tells, Progress.notice?, Ne.symm hmode]

/-- A turn sets the mark as its thread goes into a notification, and clears it as it comes out. -/
theorem resume_recounts (t : ThreadId) (pc : Blocking.Pc) (s : State) (mode : Mode) :
    Recounts (s.group mode).signal.notifying.toNat
      ((resume t pc s).state.group mode).signal.notifying.toNat
      ((Progress.blocking pc).tells mode = true)
      (((resume t pc s).stand.place?.map Progress.blocking).any (Progress.tells mode) = true) := by
  cases pc with
  | contended mode' | entering mode' => exact (quiet_enter t mode' s).recounts nofun mode
  | waiting mode' stage b => exact (quiet_waiting t mode' stage b s).recounts nofun mode
  | notifying mode' => exact notifying_recounts t mode' s mode
  | notified mode' woken => exact notified_recounts t mode' woken s mode
  | retrying =>
    have hquiet : Quiet s (resume t .retrying s) := ⟨.refl s, by rintro _ _ ⟨⟩; rfl⟩
    exact hquiet.recounts nofun mode
  | yielding => exact (quiet_yielding t s).recounts nofun mode

theorem onBlocking_recounts {job : Job} (hsuits : job.Suits .blocking) (t : ThreadId) (s : State)
    (mode : Mode) :
    Recounts (s.group mode).signal.notifying.toNat
      ((job.onBlocking t s).state.group mode).signal.notifying.toNat
      (job.place?.any (Progress.tells mode) = true)
      (((job.onBlocking t s).stand.place?.map Progress.blocking).any (Progress.tells mode) =
        true) := by
  cases job with
  | start op => exact (quiet_start op s).recounts (by simp [Job.place?]) mode
  | resume p =>
    cases p with
    | blocking pc => exact resume_recounts t pc s mode
    | polling | readMostly => cases hsuits
  | depart f => cases hsuits

end Blocking

/-! ## Who is inside -/

namespace Run

variable {r r' : Run} {e : Event} {t u : ThreadId} {m n : Nat} {mode : Mode} {l : Lock} {job : Job}

/-- Whose callers the thread notifies on the lock at an index, and how far that has come. -/
def notice? (r : Run) (m : Nat) (t : ThreadId) : Option (Mode × Notice.Stage) :=
  (r.place m t).bind Progress.notice?

/-- The thread is inside a notification of the callers of a mode. -/
def tells (r : Run) (m : Nat) (mode : Mode) (t : ThreadId) : Bool :=
  (r.place m t).any (Progress.tells mode)

/-- Each mark of the lock at an index is that of the one thread that is inside a notification. -/
def Marked (r : Run) (m : Nat) : Prop :=
  ∀ l, r.world.locks[m]? = some l → ∀ mode,
    Tallies (l.body.signal mode).notifying.toNat fun t => r.tells m mode t = true

theorem tells_congr (h : r'.place m t = r.place m t) : r'.tells m mode t = r.tells m mode t := by
  rw [tells, h, tells]

end Run

variable {r r' : Run} {e : Event} {t u : ThreadId} {m n : Nat} {mode : Mode} {l : Lock} {job : Job}

/-- A turn sets the mark as its thread goes into a notification, and clears it as it comes out. -/
theorem Acts.recounts {s : ReadMostly.State} {site : ReadMostly.Site} {stand : Stand Pc}
    {gain : Option Mode} (h : Acts r r' t m s job site stand gain) (mode : Mode) :
    Recounts (s.signal mode).notifying.toNat (site.lock.signal mode).notifying.toNat
      (r.tells m mode t = true) (r'.tells m mode t = true) := by
  have hplace : ∀ {q : Run} {pc? : Option Pc},
      (q.world.thread t).stint? = pc?.map (fun pc => (m, Progress.readMostly pc)) →
      (q.tells m mode t = true ↔ pc?.bind Pc.tells? = some mode) := by
    intro q pc? hstint
    cases pc? with
    | none => simp [Run.tells, Run.place, hstint]
    | some pc => simp [Run.tells, Run.place, hstint, ReadMostly.Pc.tells_iff]
  rw [hplace h.stint, hplace h.stint']
  exact h.table.recounts mode

theorem Turned.recounts_of_blocking {s : Blocking.State} {l' : Lock} (h : Turned r r' t m l job)
    (hs : l.body = .blocking s) (hl' : r'.world.locks[m]? = some l') (mode : Mode) :
    Recounts (l.body.signal mode).notifying.toNat (l'.body.signal mode).notifying.toNat
      (r.tells m mode t = true) (r'.tells m mode t = true) := by
  have hsuits := h.suits
  rw [hs] at hsuits
  cases hl'.symm.trans (h.lock_blocking hs)
  rw [hs, Run.tells, Run.tells, h.place_self, h.place_blocking hs]
  exact Blocking.onBlocking_recounts hsuits t s mode

/-- Nobody notifies anybody on a polling lock. -/
theorem Turned.recounts_of_polling {s : Polling.State} {l' : Lock} (h : Turned r r' t m l job)
    (hs : l.body = .polling s) (hl' : r'.world.locks[m]? = some l') (mode : Mode) :
    Recounts (l.body.signal mode).notifying.toNat (l'.body.signal mode).notifying.toNat
      (r.tells m mode t = true) (r'.tells m mode t = true) := by
  have hsuits := h.suits
  rw [hs] at hsuits
  have hnone : ∀ p? : Option Progress, (∀ p ∈ p?, p.algorithm = .polling) →
      p?.any (Progress.tells mode) = false := by
    intro p? hp?
    cases p? with
    | none => rfl
    | some p => cases p <;> first | rfl | cases hp? _ rfl
  cases hl'.symm.trans (h.lock_polling hs)
  rw [hs, Run.tells, Run.tells, h.place_self, h.place_polling hs]
  refine .keeps rfl (iff_of_false (Bool.eq_false_iff.mp (hnone _ ?_)) (Bool.eq_false_iff.mp
    (hnone _ ?_)))
  · intro p hp
    obtain ⟨pc, -, rfl⟩ := Option.map_eq_some_iff.mp hp
    rfl
  · intro p hp
    cases job with
    | start | depart => cases hp
    | resume q =>
      cases hp
      exact hsuits

/-- What is said of the marks is not changed by a move that leaves the marks and the places. -/
theorem Run.Marked.congr (h : r.Marked m)
    (hlocks : ∀ l', r'.world.locks[m]? = some l' → ∃ l, r.world.locks[m]? = some l ∧
      ∀ mode, (l'.body.signal mode).notifying = (l.body.signal mode).notifying)
    (hplaces : ∀ t, r'.place m t = r.place m t) : r'.Marked m := by
  intro l' hl' mode
  obtain ⟨l, hl, hsame⟩ := hlocks l' hl'
  have htold := h l hl mode
  rw [hsame]
  simpa only [Run.tells_congr (hplaces _)] using htold

theorem Turned.marked (h : Turned r r' t m l job) (hmarked : r.Marked m)
    (hrecounts : ∀ l', r'.world.locks[m]? = some l' → ∀ mode,
      Recounts (l.body.signal mode).notifying.toNat (l'.body.signal mode).notifying.toNat
        (r.tells m mode t = true) (r'.tells m mode t = true)) : r'.Marked m := by
  intro l' hl' mode
  exact (hmarked l h.lock mode).passes (hrecounts l' hl' mode) fun u hu => by
    rw [Run.tells_congr (h.place_of_ne hu)]

/-- A turn on another lock. -/
theorem Turned.marked_of_ne (h : Turned r r' t n l job) (hne : m ≠ n) (hmarked : r.Marked m) :
    r'.Marked m :=
  hmarked.congr (fun l' hl' => ⟨l', h.lock_of_ne hne ▸ hl', fun _ => rfl⟩) (h.place_of_ne_lock hne)

/-- A turn on a read-mostly lock, as the table has it. -/
theorem Acts.marked {s : ReadMostly.State} {site : ReadMostly.Site} {stand : Stand Pc}
    {gain : Option Mode} (h : Acts r r' t m s job site stand gain) (hturned : Turned r r' t m l job)
    (hs : l.body = .readMostly s) (hmarked : r.Marked m) : r'.Marked m := by
  refine hturned.marked hmarked fun l' hl' mode => ?_
  obtain ⟨l₁, hl₁, hs'⟩ := h.after
  cases hl₁.symm.trans hl'
  rw [hs, hs']
  exact h.recounts mode

theorem Operates.marked {op : Operation} (h : Operates r e r' t m l job op)
    (hmarked : r.Marked m) : r'.Marked m := by
  cases hs : l.body with
  | blocking s =>
    exact h.toTurned.marked hmarked fun l' hl' => h.toTurned.recounts_of_blocking hs hl'
  | polling s =>
    exact h.toTurned.marked hmarked fun l' hl' => h.toTurned.recounts_of_polling hs hl'
  | readMostly s =>
    obtain ⟨site, stand, hacts, -⟩ := h.acts hs
    exact hacts.marked h.toTurned hs hmarked

theorem Departs.marked (h : Departs r r' t m l job) (hmarked : r.Marked m) : r'.Marked m := by
  obtain ⟨s, hs⟩ := Body.exists_readMostly (World.work_departs t h.lock h.suits h.departs).1
  obtain ⟨site, stand, hacts, -⟩ := h.acts hs
  exact hacts.marked h.toTurned hs hmarked

/-- A thread that wakes without having been notified has only left a queue. -/
theorem notifying_wakeIn (t : ThreadId) (l : Lock) (mode : Mode) :
    ((World.wakeIn t l).body.signal mode).notifying = (l.body.signal mode).notifying := by
  unfold World.wakeIn
  split
  · next s hs => rw [hs]; cases mode <;> rfl
  · rfl
  · next s hs => rw [hs]; cases mode <;> rfl

theorem notifying_make (kind : Kind) (config : Config) (id : Nat) (host : Host) (mode : Mode) :
    ((Lock.make kind config id host).body.signal mode).notifying = false := by
  cases hf : kind.family <;> simp only [Lock.make, hf] <;> cases mode <;> rfl

/-- A lock that goes keeps its signals. -/
theorem Dissolves.signal_eq (h : Dissolves r r' n) {l' : Lock}
    (hl' : r'.world.locks[m]? = some l') : ∃ l, r.world.locks[m]? = some l ∧
      ∀ mode, l'.body.signal mode = l.body.signal mode := by
  obtain ⟨l, hl, rfl | ⟨s, hs, rfl⟩⟩ := h.exists_body_eq hl'
  · exact ⟨l', hl, fun _ => rfl⟩
  · refine ⟨l, hl, fun mode => ?_⟩
    rw [hs]
    cases mode <;> rfl

/-- Nobody is on a lock that has just been made. -/
theorem Run.Marked.of_make (hmarked : r.Marked m) (ho : r.Orderly) {kind : Kind}
    {config : Config} (h : Stirs r r' (r.world.addLock kind config).locks) : r'.Marked m := by
  intro l' hl' mode
  rcases h.or_of_make hl' with hl | ⟨hmissing, id, rfl⟩
  · simpa only [Run.tells_congr (Run.place_congr (h.threads _))] using hmarked l' hl mode
  · refine ⟨[], List.nodup_nil, fun u => ?_, ?_⟩
    · have hnone : r'.place m u = none :=
        (Run.place_congr (h.threads u)).trans (Run.not_place_of_missing ho hmissing u)
      simp [Run.tells, hnone]
    · rw [notifying_make]
      rfl

/-- In every run, whatever the callers do, each mark is that of the one thread that is inside a
notification. -/
theorem Reachable.marked_all {ok : Run → Event → Prop} (h : Reachable ok r) (m : Nat) :
    r.Marked m := by
  refine h.of_moves (P := fun r => r.Marked m) ?_ ?_ ?_
  · intro host l hl
    cases hl
  · intro r r' e hreach _ hmove hmarked
    have hsame : r'.world.locks = r.world.locks → (∀ t, r'.place m t = r.place m t) →
        r'.Marked m := fun hlocks =>
      hmarked.congr fun l' hl' => ⟨l', hlocks ▸ hl', fun _ => rfl⟩
    cases hmove with
    | @operate t n l job op h =>
      by_cases hn : m = n
      · subst hn
        exact h.marked hmarked
      · exact h.toTurned.marked_of_ne hn hmarked
    | @depart t n l job h =>
      by_cases hn : m = n
      · subst hn
        exact h.marked hmarked
      · exact h.toTurned.marked_of_ne hn hmarked
    | @shift t h =>
      refine hsame h.locks fun u => ?_
      by_cases hu : u = t
      · subst hu
        simp only [Run.place, h.stint, h.stint']
      · exact Run.place_congr (h.others u hu)
    | drop h =>
      refine hmarked.congr (fun l' hl' => ?_) fun u => Run.place_congr (h.threads u)
      obtain ⟨l, hl, hbody⟩ := h.exists_body_eq hl'
      exact ⟨l, hl, fun _ => by rw [hbody]⟩
    | wake h =>
      refine hmarked.congr (fun l' hl' => ?_) fun u => Run.place_congr (h.threads u)
      obtain ⟨l, hl, rfl⟩ := h.exists_of_wake hl'
      exact ⟨l, hl, notifying_wakeIn _ l⟩
    | make h => exact hmarked.of_make hreach.orderly h
    | rest h => exact hsame h.locks fun u => Run.place_congr (h.threads u)
  · intro r₀ r r' e n _ _ _ _ hdis _ hmarked
    refine hmarked.congr (fun l' hl' => ?_) fun u => Run.place_congr (hdis.threads u)
    obtain ⟨l, hl, hsame⟩ := hdis.signal_eq hl'
    exact ⟨l, hl, fun mode => congrArg Signal.notifying (hsame mode)⟩

end ReaderWriter
