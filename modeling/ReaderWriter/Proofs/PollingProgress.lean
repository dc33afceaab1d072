import ReaderWriter.Proofs.Alone
import ReaderWriter.Proofs.WordsAtRest

/-!
# The polling lock lets someone through

A writer that polls keeps readers out with the writers' wait bit, and whoever takes the unique lock
clears the bit for all writers. Those that still poll set it again, so it is never left behind by
its last writer: a lock that nobody holds can be had by a writer that polls, or by every reader.

* `Polling.shut_of_step`: while the bit is set readers stay out, until a writer is let in.
* `Polling.exists_welcome`: if nobody holds the lock, one of those who poll finds it open.
* `Run.Orderly.goesAlone_of_welcome`: whoever finds the lock open comes back with it.
* `polling_lets_someone_through`: no bit without a writer, and someone is always let through.
-/

namespace ReaderWriter

/-! ## The bit keeps readers out -/

namespace Polling

variable {s : State} {op : Operation} {mode : Mode} {backoff : Backoff}

/-- A turn that begins with the writers' bit set lets no reader in, and leaves the bit set unless it
takes the unique lock. -/
structure StaysShut (op : Operation) (turn : Turn State Pc) : Prop where
  shut : Hold.granted? op turn.stand ≠ some .shared
  kept : Hold.granted? op turn.stand = some .unique ∨
    turn.state.word.fields.uniqueWanted = true

theorem blocksShared_of_wanted (hwanted : s.word.fields.uniqueWanted = true) :
    s.word.blocksShared = true := by
  rw [Word.blocksShared_eq, hwanted, Bool.or_true]

theorem attempt_staysShut (mode : Mode) (backoff : Backoff)
    (hwanted : s.word.fields.uniqueWanted = true) :
    StaysShut (.acquire mode) (attempt mode backoff s) := by
  cases mode with
  | unique =>
    simp only [attempt]
    split
    · exact ⟨by simp [Hold.granted?], .inr (by simp)⟩
    · exact ⟨by simp [Hold.granted?, Operation.acquires?], .inl rfl⟩
  | shared =>
    simp only [attempt, if_pos (blocksShared_of_wanted hwanted)]
    exact ⟨by simp [Hold.granted?], .inr hwanted⟩

theorem start_staysShut (op : Operation) (hwanted : s.word.fields.uniqueWanted = true) :
    StaysShut op (start op s) := by
  have hreleased : ∀ {turn : Turn State Pc} {mode : Mode},
      turn.state.word.fields.uniqueWanted = true → StaysShut (.release mode) turn := by
    intro turn mode hkept
    exact ⟨by simp [Hold.granted?_release], .inr hkept⟩
  rcases op with mode | mode | mode
  · exact attempt_staysShut mode _ hwanted
  · cases mode <;> simp only [start]
    · split
      · exact ⟨by simp [Hold.granted?], .inr hwanted⟩
      · exact ⟨by simp [Hold.granted?, Operation.acquires?], .inl rfl⟩
    · rw [if_pos (blocksShared_of_wanted hwanted)]
      exact ⟨by simp [Hold.granted?], .inr hwanted⟩
  · cases mode <;> simp only [start]
    · cases hr : s.word.withUniqueReleased with
      | error f => exact hreleased hwanted
      | ok w => exact hreleased ((Word.waits_withUniqueReleased hr .unique).trans hwanted)
    · cases hr : s.word.withSharedReleased with
      | error f => exact hreleased hwanted
      | ok w => exact hreleased ((Word.waits_withSharedReleased hr .unique).trans hwanted)

theorem resume_staysShut {pc : Pc} (hserves : pc.Serves op)
    (hwanted : s.word.fields.uniqueWanted = true) : StaysShut op (resume pc s) := by
  cases pc with
  | polling mode backoff =>
    cases hserves
    simp only [resume]
    split
    · exact ⟨by simp [Hold.granted?], .inr hwanted⟩
    · exact attempt_staysShut mode _ hwanted
  | yielding mode backoff =>
    cases hserves
    exact attempt_staysShut mode _ hwanted

variable {c c' : Crowd State Pc}

/-- What such a turn makes of a crowd. An operation that can be granted something gives nothing
up. -/
theorem StaysShut.turned {turn : Turn State Pc} (h : StaysShut op turn) (t : ThreadId) :
    let after := { c with held := Crowd.begun c.held op }.turned t op turn
    after.held .shared ≤ c.held .shared ∧
      (c.held .unique < after.held .unique ∨
        after.state.word.fields.uniqueWanted = true) := by
  have hbegun : Crowd.begun c.held op .shared ≤ c.held .shared := by
    cases op with
    | acquire | tryAcquire => exact Nat.le_refl _
    | release mode => cases mode <;> simp [Crowd.begun]
  simp only [Crowd.turned, Crowd.settled]
  cases hgranted : Hold.granted? op turn.stand with
  | none => exact ⟨hbegun, .inr (h.kept.resolve_left (by simp [hgranted]))⟩
  | some mode =>
    cases mode with
    | shared => exact absurd hgranted h.shut
    | unique =>
      refine ⟨hbegun, .inl ?_⟩
      cases op with
      | acquire | tryAcquire => simp [Crowd.begun]
      | release => simp [Hold.granted?_release] at hgranted

/-- While the bit is set readers stay out, and it stays set until a writer is let in. -/
theorem shut_of_step (hstep : machine.Step c c')
    (hwanted : c.state.word.fields.uniqueWanted = true) :
    c'.held .shared ≤ c.held .shared ∧
      (c.held .unique < c'.held .unique ∨ c'.state.word.fields.uniqueWanted = true) := by
  cases hstep with
  | @start t op hplace hpos => exact (start_staysShut op hwanted).turned t
  | @resume t pc op hplace hserves hfree =>
    have hturned := (resume_staysShut hserves hwanted).turned (c := c) t
    cases op with
    | acquire | tryAcquire => exact hturned
    | release mode => cases pc <;> cases hserves
  | wake t => exact ⟨Nat.le_refl _, .inr hwanted⟩

/-! ## Who finds the lock open -/

/-- Someone who asks for the lock in this mode would be let in. -/
def Welcomes (s : State) : Mode → Prop
  | .unique => s.word.held = false
  | .shared => s.word.blocksShared = false ∧ s.word.fields.holders < maxSharedHolders.toNat

theorem attempt_of_welcomes (h : Welcomes s mode) :
    (attempt mode backoff s).stand = .done .unit := by
  cases mode with
  | unique =>
    have hfree : s.word.held = false := h
    simp [attempt, hfree]
  | shared =>
    obtain ⟨hopen, hroom⟩ := h
    obtain ⟨w, hw, -⟩ := Word.withSharedAcquired_eq_ok (Word.uniqueLocked_of_open hopen) hroom
    simp [attempt, hopen, hw]

/-- Whoever finds the lock open takes it with its next turn, or yields first and leaves the lock as
it is. -/
theorem resume_of_welcomes {pc : Pc} (hserves : pc.Serves (.acquire mode)) (h : Welcomes s mode) :
    (resume pc s).stand = .done .unit ∨
      ∃ backoff, (resume pc s) = { state := s, stand := .here (.yielding mode backoff) } := by
  cases pc with
  | polling mode' backoff =>
    cases hserves
    simp only [resume]
    split
    · exact .inr ⟨_, rfl⟩
    · exact .inl (attempt_of_welcomes h)
  | yielding mode' backoff =>
    cases hserves
    exact .inl (attempt_of_welcomes h)

/-- If nobody holds the lock, one of those who poll finds it open. -/
theorem exists_welcome {c : Crowd State Pc} (hpolls : Polls c)
    (hcounts : c.state.word.Counts c.held) (hfree : ∀ mode, c.held mode = 0) {t : ThreadId}
    {pc : Pc} (hpc : c.place t = some pc) :
    ∃ u pc mode, c.place u = some pc ∧ pc.Serves (.acquire mode) ∧ Welcomes c.state mode := by
  have hlocked : c.state.word.fields.uniqueLocked = false := by
    have hunique := hcounts.unique
    rw [hfree] at hunique
    exact Bool.toNat_eq_zero.mp hunique.symm
  have hholders : c.state.word.fields.holders = 0 := by
    rw [← hcounts.shared, hfree]
  have hopen : Welcomes c.state .unique := by
    simp [Welcomes, Word.held_eq, hlocked, hholders]
  by_cases hwanted : c.state.word.fields.uniqueWanted = true
  · obtain ⟨u, pc', hpc', hserves⟩ := hpolls.wanted hwanted
    exact ⟨u, pc', .unique, hpc', hserves, hopen⟩
  · have hserves : ∃ mode, pc.Serves (.acquire mode) := by
      cases pc with
      | polling mode backoff | yielding mode backoff => exact ⟨mode, rfl⟩
    obtain ⟨mode, hserves⟩ := hserves
    refine ⟨t, pc, mode, hpc, hserves, ?_⟩
    cases mode with
    | unique => exact hopen
    | shared =>
      refine ⟨?_, by rw [hholders]; decide⟩
      rw [Word.blocksShared_eq, hlocked, Bool.eq_false_iff.mpr hwanted]
      rfl

end Polling

/-! ## Running alone -/

namespace Run

variable {r : Run} {t : ThreadId} {m : Nat} {mode : Mode} {l : Lock} {s : Polling.State}
  {pc : Polling.Pc}

/-- A thread is in the middle of an operation on the lock at an index. -/
def IsIn (r : Run) (t : ThreadId) (m : Nat) (op : Operation) : Prop :=
  ∃ p, r.place m t = some p ∧ p.Serves op

/-- Somebody is granted the lock at an index in a mode. -/
def Grants (m : Nat) (mode : Mode) (r : Run) (e : Event) : Prop :=
  r.count m mode < (r.after e).count m mode

instance (m : Nat) (mode : Mode) (r : Run) (e : Event) : Decidable (r.Grants m mode e) :=
  inferInstanceAs (Decidable (_ < _))

/-- A thread that polls can take its next turn, which is a job of its call. -/
theorem Orderly.turn_of_polling (ho : r.Orderly) (hl : r.world.locks[m]? = some l)
    (hs : l.body = .polling s) (hplace : r.place m t = some (.polling pc))
    (hserves : pc.Serves (.acquire mode)) :
    ∃ (c : Call) (task : Task), c.Performs (.acquire mode) task ∧ r.world.Permits (.turn t) ∧
      Operates r (.turn t) (r.after (.turn t)) t m l (.resume (.polling pc)) (.acquire mode) ∧
      (r.after (.turn t)).Orderly ∧
      r.world.meet (.turn t) = World.settleCall t
        (World.settle t m task (r.world.work t m (.resume (.polling pc)))) := by
  have hfree : r.world.obstacle t = none :=
    (ho.isOn hplace).2.trans (Polling.machine_is.resume r.world t m l s pc hl hs).2.2
  rcases ho.works_of_place hplace with
    ⟨c, op, task, l', hasked, hact, hperf, hl', halg, hserves'⟩ | ⟨hdeparts, -⟩
  · cases hl.symm.trans ((r.world.lock?_eq_some m).mp hl').1
    have hop : op = .acquire mode := Polling.Pc.Serves.eq hserves' hserves
    subst hop
    obtain ⟨hoperates, horderly⟩ := turn_operates ho hasked hfree hact hperf hl' halg hserves'
    exact ⟨c, task, hperf, hfree, hoperates, horderly, meet_turn hact⟩
  · exact hdeparts.elim

/-- A thread whose next turn takes the lock comes back with it. -/
theorem Orderly.goesAlone_of_done (ho : r.Orderly) (hl : r.world.locks[m]? = some l)
    (hs : l.body = .polling s) (hplace : r.place m t = some (.polling pc))
    (hserves : pc.Serves (.acquire mode)) (hdone : (Polling.resume pc s).stand = .done .unit) :
    ∃ reply r', GoesAlone (fun _ => True) t r (.turn t) (.replied reply) r' ∧
      reply.isRefusal = false ∧ r'.holds = ⟨t, m, mode⟩ :: r.holds := by
  obtain ⟨c, task, hperf, hp, hoperates, -, hmeet⟩ := ho.turn_of_polling hl hs hplace hserves
  have hstand : (r.world.work t m (.resume (.polling pc))).stand = .done .unit :=
    (Polling.machine_is.resume r.world t m l s pc hl hs).2.1.trans
      (congrArg (Stand.lift Progress.polling) hdone)
  have hends := World.work_serves t hl hoperates.suits hserves
  obtain ⟨clock, activity, -, hrests⟩ := World.settle_rests t m hperf hends
  rw [← hmeet, hstand] at hrests
  generalize hfinish : (r.world.meet (.turn t)).finish = finish at hrests
  cases hrests with
  | @replied answer reply hrefusal =>
    refine ⟨reply, _, .ends hp hfinish, ?_, ?_⟩
    · rw [Bool.eq_false_iff]
      exact mt hrefusal.mp nofun
    · rw [hoperates.holds, Hold.settled, hstand]
      rfl

/-- Whoever polls and finds the lock open comes back with it. -/
theorem Orderly.goesAlone_of_welcome (ho : r.Orderly) (hl : r.world.locks[m]? = some l)
    (hs : l.body = .polling s) (hplace : r.place m t = some (.polling pc))
    (hserves : pc.Serves (.acquire mode)) (hwelcome : Polling.Welcomes s mode) :
    ∃ reply r', GoesAlone (fun _ => True) t r (.turn t) (.replied reply) r' ∧
      reply.isRefusal = false ∧ r'.holds = ⟨t, m, mode⟩ :: r.holds := by
  rcases Polling.resume_of_welcomes hserves hwelcome with hdone | ⟨backoff, hyields⟩
  · exact ho.goesAlone_of_done hl hs hplace hserves hdone
  · -- The thread yields, and takes the lock with the turn after that.
    obtain ⟨c, task, hperf, hp, hoperates, ho', hmeet⟩ :=
      ho.turn_of_polling hl hs hplace hserves
    obtain ⟨-, hstand, -⟩ := Polling.machine_is.resume r.world t m l s pc hl hs
    have hstand' : (r.world.work t m (.resume (.polling pc))).stand =
        .here (.polling (.yielding mode backoff)) :=
      hstand.trans (congrArg (fun turn => turn.stand.lift Progress.polling) hyields)
    have hfinish : (r.world.meet (.turn t)).finish = none := by
      rw [hmeet]
      simp only [World.settle, hstand', World.settleCall]
    have hl' : (r.after (.turn t)).world.locks[m]? = some { l with body := .polling s } := by
      rw [hoperates.lock_polling hs, Job.onPolling, hyields]
    have hplace' : (r.after (.turn t)).place m t = some (.polling (.yielding mode backoff)) := by
      rw [hoperates.place_self', hstand']
      rfl
    have hholds : (r.after (.turn t)).holds = r.holds := by
      rw [hoperates.holds, Hold.settled, hstand']
      rfl
    obtain ⟨reply, r', halone, hgranted, hheld⟩ :=
      ho'.goesAlone_of_done hl' rfl hplace' (rfl : (Polling.Pc.yielding mode backoff).Serves _)
        (Polling.attempt_of_welcomes hwelcome)
    exact ⟨reply, r', .goes hp hfinish trivial halone, hgranted, hheld.trans (hholds ▸ rfl)⟩

/-- The writers' bit of the polling lock at an index is set. -/
def IsShut (r : Run) (m : Nat) : Prop :=
  ∃ l s, r.world.locks[m]? = some l ∧ l.body = .polling s ∧ s.word.uniqueWanted = true

/-- While the bit is set readers stay out, and it stays set until a writer is let in. -/
theorem isShut_after {e : Event} (ho : r.Orderly) (hexist : r.HoldsExist)
    (hp : r.world.Permits e) (hok : r.ReleasesHeld m e) (hshut : r.IsShut m) :
    ¬ r.Grants m .shared e ∧ (r.Grants m .unique e ∨ (r.after e).IsShut m) := by
  obtain ⟨l, s, hl, hs, hwanted⟩ := hshut
  obtain ⟨l', hl', halg⟩ := algorithm_after ho hp hl
  obtain ⟨s', hs'⟩ := Polling.machine_is.exists_body l'.body (halg.trans (by rw [hs]; rfl))
  cases crowd_after Polling.machine_is ho hexist hp hok hl' hs' with
  | keeps hl₀ hs₀ heq =>
    cases hl.symm.trans hl₀
    cases hs.symm.trans hs₀
    have hcount : (r.after e).count m = r.count m := congrArg Crowd.held heq
    have hstate : s' = s := congrArg Crowd.state heq
    refine ⟨?_, .inr ⟨l', s', hl', hs', hstate ▸ hwanted⟩⟩
    rw [Grants, hcount]
    exact Nat.lt_irrefl _
  | steps hl₀ hs₀ hstep =>
    cases hl.symm.trans hl₀
    cases hs.symm.trans hs₀
    obtain ⟨hle, hkept⟩ := Polling.shut_of_step hstep hwanted
    exact ⟨Nat.not_lt_of_le hle, hkept.imp_right fun hwanted' => ⟨l', s', hl', hs', hwanted'⟩⟩
  | begins _ _ hmissing => cases hmissing.symm.trans hl

/-- The lock is only given up while it is held, and nobody is granted the unique lock. -/
def AdmitsNoWriter (m : Nat) (r : Run) (e : Event) : Prop :=
  r.ReleasesHeld m e ∧ ¬ r.Grants m .unique e

instance (m : Nat) (r : Run) (e : Event) : Decidable (r.AdmitsNoWriter m e) :=
  inferInstanceAs (Decidable (_ ∧ _))

/-- The bit stays set until a writer is let in. -/
theorem Leads.isShut {r' : Run} (hleads : r.Leads (AdmitsNoWriter m) r')
    (h : Reachable (Run.ReleasesHeld m) r) (hshut : r.IsShut m) : r'.IsShut m := by
  induction hleads with
  | refl => exact hshut
  | @step r' e hleads hp hok ih =>
    have hreach : Reachable (Run.ReleasesHeld m) r' := h.leads hleads fun _ _ hok => hok.1
    exact (isShut_after hreach.orderly hreach.holdsExist hp hok.1 ih).2.resolve_left hok.2

end Run

/-! ## The main result -/

/-- In every run in which the lock is only given up while it is held, of a polling lock:

* the writers' wait bit is set only while some thread is in the middle of taking the unique lock;
* the readers' wait bit is never set;
* from a state with the writers' wait bit set, nobody is granted a shared lock before somebody is
  granted the unique lock;
* whenever nobody holds the lock and somebody is in the middle of taking it, somebody who is comes
  back with the lock if from then on only that thread takes turns. -/
theorem polling_lets_someone_through {r : Run} {m : Nat} {l : Lock} {s : Polling.State}
    (h : Reachable (Run.ReleasesHeld m) r) (hl : r.world.locks[m]? = some l)
    (hs : l.body = .polling s) :
    (s.word.uniqueWanted = true → ∃ t, r.IsIn t m (.acquire .unique)) ∧
      s.word.sharedWaiting = false ∧
      (s.word.uniqueWanted = true → ∀ r' e, r.Leads (Run.AdmitsNoWriter m) r' →
        r'.world.Permits e → r'.ReleasesHeld m e → ¬ r'.Grants m .shared e) ∧
      ((∀ mode, r.count m mode = 0) → (∃ t mode, r.IsIn t m (.acquire mode)) →
        ∃ t mode reply r', r.IsIn t m (.acquire mode) ∧
          r.GoesAlone (fun _ => True) t (.turn t) (.replied reply) r' ∧
          reply.isRefusal = false ∧ r'.holds = ⟨t, m, mode⟩ :: r.holds) := by
  have ho := h.orderly
  have hcrowd : Polling.machine.Reachable (fun _ => True) (r.crowd Polling.machine m s) :=
    h.crowd Polling.machine_is (fun _ _ hok => ⟨hok, fun _ _ _ _ => trivial⟩) l s hl hs
  have hpolls := Polling.reachable_polls hcrowd
  have hcounts := hcrowd.counts Polling.machine_countsHolders
  have hplaces : ∀ {t pc}, (r.crowd Polling.machine m s).place t = some pc →
      r.place m t = some (.polling pc) := by
    intro t pc hpc
    obtain ⟨p, hp, hpc'⟩ := Option.bind_eq_some_iff.mp hpc
    cases p with
    | polling pc' =>
      cases hpc'
      exact hp
    | blocking | readMostly => cases hpc'
  refine ⟨fun hwanted => ?_, hpolls.waiting, fun hwanted r' e hleads hp hok => ?_,
    fun hfree hin => ?_⟩
  · obtain ⟨t, pc, hpc, hserves⟩ := hpolls.wanted hwanted
    exact ⟨t, _, hplaces hpc, hserves⟩
  · have hreach : Reachable (Run.ReleasesHeld m) r' := h.leads hleads fun _ _ hok => hok.1
    have hshut := hleads.isShut h ⟨l, s, hl, hs, hwanted⟩
    exact (Run.isShut_after hreach.orderly hreach.holdsExist hp hok hshut).1
  · obtain ⟨t, mode, p, hplace, hserves⟩ := hin
    obtain ⟨pc, rfl⟩ := Polling.machine_is.exists_progress p
      ((ho.algorithm_of_place hplace hl).trans (by rw [hs]; rfl))
    have hpc : (r.crowd Polling.machine m s).place t = some pc := by
      simp only [Run.crowd, hplace]
      rfl
    obtain ⟨u, pc', mode', hpc', hserves', hwelcome⟩ :=
      Polling.exists_welcome hpolls hcounts hfree hpc
    obtain ⟨reply, r', halone, hgranted, hheld⟩ :=
      ho.goesAlone_of_welcome hl hs (hplaces hpc') hserves' hwelcome
    exact ⟨u, mode', reply, r', ⟨_, hplaces hpc', hserves'⟩, halone, hgranted, hheld⟩

/-- A reader has a polling lock, and a writer polls. -/
def Run.writerBehindReader : Run :=
  play {} [.make ⟨.polling, false, false⟩ .standard, .call 0 0 (.operate (.acquire .shared)),
    .call 1 0 (.operate (.acquire .unique))]

/-- The reader gives the lock up and another one asks for it, which has to poll; then one of the two
who poll gets through. -/
theorem polling_lets_someone_through_after_reader :
    ¬ (Run.writerBehindReader.play [.call 0 0 (.operate (.release .shared))]).Grants 0 .shared
        (.call 2 0 (.operate (.acquire .shared))) ∧
      ∃ t mode reply r', (Run.writerBehindReader.play [.call 0 0 (.operate (.release .shared)),
          .call 2 0 (.operate (.acquire .shared))]).GoesAlone (fun _ => True) t (.turn t)
          (.replied reply) r' ∧ reply.isRefusal = false ∧ r'.holds = [⟨t, 0, mode⟩] := by
  have hr : Reachable (Run.ReleasesHeld 0) Run.writerBehindReader :=
    Reachable.start.play (by decide +kernel)
  have hr' : Reachable (Run.ReleasesHeld 0) (Run.writerBehindReader.play
      [.call 0 0 (.operate (.release .shared)), .call 2 0 (.operate (.acquire .shared))]) :=
    hr.play (by decide +kernel)
  -- The word of the lock in each run.
  have hlock : Run.writerBehindReader.world.locks[0]? =
      some ⟨.polling ⟨.standard, ⟨9⟩⟩, false, none, true⟩ := by decide +kernel
  have hlock' : (Run.writerBehindReader.play [.call 0 0 (.operate (.release .shared)),
      .call 2 0 (.operate (.acquire .shared))]).world.locks[0]? =
      some ⟨.polling ⟨.standard, ⟨1⟩⟩, false, none, true⟩ := by decide +kernel
  obtain ⟨-, -, hshut, -⟩ := polling_lets_someone_through hr hlock rfl
  obtain ⟨-, -, -, hthrough⟩ := polling_lets_someone_through hr' hlock' rfl
  constructor
  · exact hshut (by decide) _ _
      (Run.Leads.refl.play [.call 0 0 (.operate (.release .shared))] (by decide +kernel))
      (by decide +kernel) (by decide +kernel)
  · have hnobody : (Run.writerBehindReader.play [.call 0 0 (.operate (.release .shared)),
        .call 2 0 (.operate (.acquire .shared))]).holds = [] := by decide +kernel
    obtain ⟨t, mode, reply, r', -, halone, hgranted, hheld⟩ := hthrough
      (fun mode => by cases mode <;> decide +kernel)
      ⟨2, .shared, .polling (.polling .shared (.ofConfig .standard)), by decide +kernel, rfl⟩
    exact ⟨t, mode, reply, r', halone, hgranted, hheld.trans (by rw [hnobody])⟩

end ReaderWriter
