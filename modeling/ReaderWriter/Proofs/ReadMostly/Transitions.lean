import ReaderWriter.Proofs.Custody
import ReaderWriter.Proofs.Moves

/-!
# Transitions of the read-mostly lock

Every turn of a read-mostly lock, told as a table: what the thread finds, what it leaves behind,
where it stands then, and what that grants it. What is proved about all turns is proved by going
through this table.

* `Transition`: the table.
* `onReadMostly_transition`: every job of a call that takes or gives up the lock, and every job of
  an ending thread, is in it.
-/

namespace ReaderWriter

/-- The job of a thread that stands at a place of a read-mostly lock. -/
abbrev Job.from (pc : ReadMostly.Pc) : Job := .resume (.readMostly pc)

/-- Where the thread stands before the job, on a read-mostly lock. -/
def Job.pc? : Job → Option ReadMostly.Pc
  | .resume (.readMostly pc) => some pc
  | .start _ | .resume _ | .depart _ => none

namespace ReadMostly

theorem from_iff {job : Job} (P : Pc → Bool) :
    (∃ pc, job = .from pc ∧ P pc = true) ↔ job.pc?.any P = true := by
  cases job with
  | resume p => cases p <;> simp [Job.pc?]
  | start op | depart f => simp [Job.pc?]

/-! ## Jobs that go the same way -/

/-- A patient writer that wants the gate. -/
inductive Enters : Job → Prop
  | first : Enters (.start (.acquire .unique))
  | again : Enters (.from .entering)

/-- A reader that asks for its flag. -/
inductive Asks : Job → Patience → Prop
  | acquire : Asks (.start (.acquire .shared)) .waits
  | tryAcquire : Asks (.start (.tryAcquire .shared)) .once

/-- A reader that found a writer and wants the gate. -/
inductive Arrives : Pc → Flag → Prop
  | contended (f : Flag) : Arrives (.contended f) f
  | arriving (f : Flag) : Arrives (.arriving f) f

/-- A notification that has not been made yet. -/
inductive Untold : Notice.Stage → Prop
  | announced : Untold .announced
  | yielding : Untold .yielding

/-- A thread that is about to notify a writer. -/
inductive Notifies : Pc → (Notice.Stage → Pc) → Prop
  | passingOn (why : Reopening) {n : Notice.Stage} :
      Untold n → Notifies (.passingOn why n) (.passingOn why)
  | prodding (f : Flag) (b : Backoff) {n : Notice.Stage} :
      Untold n → Notifies (.prodding f b n) (.prodding f b)
  | handingOff (why : HandOff) (b : Backoff) {n : Notice.Stage} :
      Untold n → Notifies (.handingOff why (.prodding n) b) fun n => .handingOff why (.prodding n) b

/-- A thread that wants the registry for reading. -/
inductive Reads : Pc → (Access → Pc) → Prop
  | claimed (told : Bool) (b : Backoff) :
      Reads (.claimed (.patient told b)) (.scanning (.patient told b))
  | scanning (w : Writer) : Reads (.scanning w .wanted) (.scanning w)
  | begun (why : HandOff) (b : Backoff) :
      Reads (.handingOff why .begun b) fun a => .handingOff why (.checking a) b
  | checking (why : HandOff) (b : Backoff) :
      Reads (.handingOff why (.checking .wanted) b) fun a => .handingOff why (.checking a) b
  | rechecking (why : HandOff) (b : Backoff) :
      Reads (.handingOff why (.rechecking .wanted) b) fun a => .handingOff why (.rechecking a) b
  | snoozing (why : HandOff) (yields : Bool) (b : Backoff) :
      Reads (.handingOff why (.snoozing yields) b) fun a => .handingOff why (.checking a) b

/-- A thread that wants the registry for writing. -/
inductive Writes : Pc → (Edit → Pc) → Prop
  | registering (p : Patience) (f : Flag) :
      Writes (.registering p f .wanted) (.registering p f)
  | departing (f : Flag) (wasUp : Bool) :
      Writes (.departing f wasUp .wanted) (.departing f wasUp)

/-- A thread that has reserved the registry for writing. -/
inductive Reserves : Pc → (Edit → Pc) → Prop
  | registering (p : Patience) (f : Flag) :
      Reserves (.registering p f .reserved) (.registering p f)
  | departing (f : Flag) (wasUp : Bool) :
      Reserves (.departing f wasUp .reserved) (.departing f wasUp)

/-- How far a thread that wants to change the registry can be let in now. -/
def Registry.Admits (r : Registry) : Edit → Prop
  | .wanted => False
  | .reserved => r.canRead = true
  | .inside => r.canWrite = true

/-- The places before and after a turn that many go through differ only in how far a request for the
registry or a notification has come. -/
inductive Alike : Pc → Pc → Prop
  | reads {pc : Pc} {place : Access → Pc} : Reads pc place → ∀ a, Alike pc (place a)
  | writes {pc : Pc} {place : Edit → Pc} : Writes pc place → ∀ e, Alike pc (place e)
  | reserves {pc : Pc} {place : Edit → Pc} : Reserves pc place → ∀ e, Alike pc (place e)
  | notifies {pc : Pc} {place : Notice.Stage → Pc} : Notifies pc place → ∀ n, Alike pc (place n)

theorem Reads.alike {pc : Pc} {place : Access → Pc} (h : Reads pc place) (a : Access) :
    Alike pc (place a) :=
  .reads h a

theorem Writes.alike {pc : Pc} {place : Edit → Pc} (h : Writes pc place) (e : Edit) :
    Alike pc (place e) :=
  .writes h e

theorem Reserves.alike {pc : Pc} {place : Edit → Pc} (h : Reserves pc place) (e : Edit) :
    Alike pc (place e) :=
  .reserves h e

theorem Notifies.alike {pc : Pc} {place : Notice.Stage → Pc} (h : Notifies pc place)
    (n : Notice.Stage) : Alike pc (place n) :=
  .notifies h n

/-- The answer of a writer that has the lock. -/
def Writer.answer : Writer → Answer
  | .patient _ _ => .unit
  | .hasty => .granted true

/-- Where a reader stands that has raised its flag and looked at the claim, and what that grants
it. -/
inductive Landing (f : Flag) : Patience → Claim → Stand Pc → Option Mode → Prop
  | fastPath : Landing f .waits .no (.here .fastPath) none
  | granted : Landing f .once .no (.done (.granted true)) (some .shared)
  | contended {c : Claim} : c ≠ .no → Landing f .waits c (.here (.contended f)) none
  | refused {c : Claim} : c ≠ .no → Landing f .once c (.here .sharedRefused) none

/-- What becomes of a reader that has the gate and looks at the claim. -/
inductive Look (f : Flag) (b : Backoff) (s : Site) : Site → Stand Pc → Option Mode → Prop
  | granted : s.lock.claim = .no → Look f b s (s.gate none) (.done .unit) (some .shared)
  | wanted : s.lock.claim = .want →
      Look f b s (s.put f false) (.here (.prodding f b .announced)) none
  | taken : s.lock.claim = .yes →
      Look f b s (s.put f false) (.here (.waiting f .announced b)) none

/-! ## The table -/

namespace Site

/-- The site with another list of writers. -/
def drained (s : Site) (signal : Signal) : Site :=
  { s with lock := { s.lock with drained := signal } }

/-- The site with another list of readers. -/
def reopened (s : Site) (signal : Signal) : Site :=
  { s with lock := { s.lock with reopened := signal } }

/-- The site after a thread has begun to read the registry. -/
def reading (s : Site) (t : ThreadId) : Site := s.withRegistry (s.lock.registry.beginRead t)

/-- The site after a thread has read the registry. -/
def haveRead (s : Site) (t : ThreadId) : Site := s.withRegistry (s.lock.registry.endRead t)

/-- The site after a thread has begun to change the registry, or has reserved it. -/
def writing (s : Site) (t : ThreadId) : Site := s.withRegistry (s.lock.registry.beginWrite t)

/-- The site with what the thread keeps for itself. -/
def keeping (s : Site) (locals : Locals) : Site := { s with locals := locals }

end Site

/-- The transitions of a thread: from a job to a site, a stand and what is granted. -/
inductive Transition (sc : Scene) (s : Site) : Job → Site → Stand Pc → Option Mode → Prop
  /- A writer comes. -/
  | queue {job : Job} : Enters job → s.lock.gate ≠ none →
      Transition sc s job s (.here .entering) none
  | claim {job : Job} (b : Backoff) : Enters job → s.lock.gate = none →
      Transition sc s job ((s.gate (some sc.thread)).claim .want)
        (.here (.claimed (.patient false b))) none
  | giveUp : s.lock.gate ≠ none →
      Transition sc s (.start (.tryAcquire .unique)) s (.done (.granted false)) none
  | claimHastily : s.lock.gate = none →
      Transition sc s (.start (.tryAcquire .unique)) ((s.gate (some sc.thread)).claim .want)
        (.here (.claimed .hasty)) none
  | scanHastily : s.lock.registry.canRead = true →
      Transition sc s (.from (.claimed .hasty)) (s.reading sc.thread)
        (.here (.scanning .hasty .inside)) none
  | turnAway : s.lock.registry.canRead = false →
      Transition sc s (.from (.claimed .hasty)) s (.here .refused) none
  | succeed (w : Writer) : s.allClear = true →
      Transition sc s (.from (.scanning w .inside)) ((s.haveRead sc.thread).claim .yes)
        (.here (.acquired w.answer)) none
  | fail : s.allClear = false →
      Transition sc s (.from (.scanning .hasty .inside)) (s.haveRead sc.thread)
        (.here .refused) none
  | drain (told : Bool) (b : Backoff) : s.allClear = false →
      Transition sc s (.from (.scanning (.patient told b) .inside)) (s.haveRead sc.thread)
        (.here (.draining true .announced b)) none
  | drainOn (told : Bool) (b b' : Backoff) {gate : Gate} {signal : Signal}
      {stage stage' : Wait.Stage} :
      Wait.Goes sc.thread s.lock.gate s.lock.drained stage gate signal stage' →
      Transition sc s (.from (.draining told stage b)) ((s.gate gate).drained signal)
        (.here (.draining told stage' b')) none
  | reclaim (told : Bool) (b : Backoff) :
      Transition sc s (.from (.draining told .woken b)) (s.claim .want)
        (.here (.claimed (.patient told b))) none
  | acquire (answer : Answer) :
      Transition sc s (.from (.acquired answer)) s (.done answer) (some .unique)
  /- A writer goes. -/
  | release : s.lock.claim = .yes →
      Transition sc s (.start (.release .unique)) (s.claim .no)
        (.here (.reopening .released .announced)) none
  | releaseFault (f : Fault) : s.lock.claim ≠ .yes →
      Transition sc s (.start (.release .unique)) s (.fault f) none
  | unclaim :
      Transition sc s (.from .refused) (s.claim .no) (.here (.reopening .refused .announced)) none
  | tellReaders (why : Reopening) {n : Notice.Stage} (woken : List ThreadId) : Untold n →
      s.lock.reopened.notifying = false →
      Transition sc s (.from (.reopening why n)) (s.reopened ⟨[], true⟩)
        (.here (.reopening why (.inside woken))) none
  | tellReadersLater (why : Reopening) {n : Notice.Stage} : Untold n →
      Transition sc s (.from (.reopening why n)) s (.here (.reopening why .yielding)) none
  | readersTold (why : Reopening) (woken : List ThreadId) :
      Transition sc s (.from (.reopening why (.inside woken)))
        ((s.reopened s.lock.reopened.release).gate none) (.here (.passingOn why .announced)) none
  | passedOn (woken : List ThreadId) :
      Transition sc s (.from (.passingOn .released (.inside woken)))
        (s.drained s.lock.drained.release) (.here .released) none
  | passedOnRefused (woken : List ThreadId) :
      Transition sc s (.from (.passingOn .refused (.inside woken)))
        (s.drained s.lock.drained.release) (.done (.granted false)) none
  | released : Transition sc s (.from .released) s (.done .unit) none
  /- A reader comes. -/
  | arrive {job : Job} {p : Patience} {f : Flag} {stand : Stand Pc} {gain : Option Mode} :
      Asks job p → s.locals.node? sc.key = some f → Landing f p s.lock.claim stand gain →
      Transition sc s job ((s.keeping (s.locals.touch .nodes)).put f true) stand gain
  | register {job : Job} {p : Patience} {handed : Supply.Handed} {e : Edit} : Asks job p →
      s.locals.node? sc.key = none →
      s.lock.supply.allocate s.flags (s.locals.touch .nodes) = .ok handed →
      s.lock.registry.Admits e → (p = .once → e = .inside) →
      Transition sc s job
        (Site.writing { s with flags := handed.flags, locals := handed.locals } sc.thread)
        (.here (.registering p handed.flag e)) none
  | registerLater {job : Job} {handed : Supply.Handed} : Asks job .waits →
      s.locals.node? sc.key = none →
      s.lock.supply.allocate s.flags (s.locals.touch .nodes) = .ok handed →
      Transition sc s job { s with flags := handed.flags, locals := handed.locals }
        (.here (.registering .waits handed.flag .wanted)) none
  | registerNever {job : Job} {handed : Supply.Handed} : Asks job .once →
      s.locals.node? sc.key = none →
      s.lock.supply.allocate s.flags (s.locals.touch .nodes) = .ok handed →
      Transition sc s job { s with flags := handed.flags, locals := handed.locals }
        (.done (.granted false)) none
  | noFlag {job : Job} {p : Patience} (f : Fault) : Asks job p →
      s.lock.supply.allocate s.flags (s.locals.touch .nodes) = .error f →
      Transition sc s job (s.keeping (s.locals.touch .nodes)) (.fault f) none
  | noNodes {job : Job} {p : Patience} {stand : Stand Pc} : Asks job p →
      s.locals.canUse .nodes = false → stand.place? = none →
      Transition sc s job s stand none
  | enlist (p : Patience) (f : Flag) :
      Transition sc s (.from (.registering p f .inside))
        (s.withRegistry (s.lock.registry.add f).endWrite) (.here (.registered p f)) none
  | enlisted {p : Patience} {f : Flag} {stand : Stand Pc} {gain : Option Mode} :
      Landing f p s.lock.claim stand gain →
      Transition sc s (.from (.registered p f))
        ((s.keeping (s.locals.remember sc.alive sc.key f)).put f true) stand gain
  | enjoy : Transition sc s (.from .fastPath) s (.done .unit) (some .shared)
  | arriveLater {pc : Pc} {f : Flag} : Arrives pc f → s.lock.gate ≠ none →
      Transition sc s (.from pc) s (.here (.arriving f)) none
  | look {pc : Pc} {f : Flag} (b : Backoff) {s' : Site} {stand : Stand Pc} {gain : Option Mode} :
      Arrives pc f → s.lock.gate = none → Look f b (s.gate (some sc.thread)) s' stand gain →
      Transition sc s (.from pc) s' stand gain
  | lookAgain {f : Flag} {b : Backoff} {s' : Site} {stand : Stand Pc} {gain : Option Mode} :
      Look f b (s.put f true) s' stand gain →
      Transition sc s (.from (.waiting f .woken b)) s' stand gain
  | prodded (f : Flag) (b : Backoff) (woken : List ThreadId) :
      Transition sc s (.from (.prodding f b (.inside woken))) (s.drained s.lock.drained.release)
        (.here (.waiting f .announced b)) none
  | waitOn (f : Flag) (b b' : Backoff) {gate : Gate} {signal : Signal}
      {stage stage' : Wait.Stage} :
      Wait.Goes sc.thread s.lock.gate s.lock.reopened stage gate signal stage' →
      Transition sc s (.from (.waiting f stage b)) ((s.gate gate).reopened signal)
        (.here (.waiting f stage' b')) none
  | backOut :
      Transition sc s (.from .sharedRefused) s (.here (.leaving (.granted false))) none
  /- A reader goes. -/
  | leave : Transition sc s (.start (.release .shared)) s (.here (.leaving .unit)) none
  | leaveTo (answer : Answer) {f : Flag} (b : Backoff) : s.locals.node? sc.key = some f →
      s.lock.claim = .want →
      Transition sc s (.from (.leaving answer)) ((s.keeping (s.locals.touch .nodes)).put f false)
        (.here (.handingOff (.left answer) .begun b)) none
  | leaveFree (answer : Answer) {f : Flag} : s.locals.node? sc.key = some f →
      s.lock.claim ≠ .want →
      Transition sc s (.from (.leaving answer)) ((s.keeping (s.locals.touch .nodes)).put f false)
        (.done answer) none
  | leaveFault (answer : Answer) (f : Fault) {locals : Locals} :
      s.locals.canUse .nodes = false ∨ s.locals.node? sc.key = none →
      locals = s.locals ∨ locals = s.locals.touch .nodes →
      Transition sc s (.from (.leaving answer)) (s.keeping locals) (.fault f) none
  /- A waiting writer is looked after. -/
  | found (why : HandOff) (b : Backoff) : s.allClear = true →
      Transition sc s (.from (.handingOff why (.checking .inside) b)) (s.haveRead sc.thread)
        (.here (.handingOff why (.prodding .announced) b)) none
  | missed (why : HandOff) (b : Backoff) : s.allClear = false →
      Transition sc s (.from (.handingOff why (.checking .inside) b)) (s.haveRead sc.thread)
        (.here (.handingOff why .finished b)) none
  | lookOn (why : HandOff) (b : Backoff) (woken : List ThreadId) : s.lock.claim = .want →
      s.lock.registry.canRead = true →
      Transition sc s (.from (.handingOff why (.prodding (.inside woken)) b))
        ((s.drained s.lock.drained.release).reading sc.thread)
        (.here (.handingOff why (.rechecking .inside) b)) none
  | lookLater (why : HandOff) (b : Backoff) (woken : List ThreadId) : s.lock.claim = .want →
      s.lock.registry.canRead = false →
      Transition sc s (.from (.handingOff why (.prodding (.inside woken)) b))
        (s.drained s.lock.drained.release) (.here (.handingOff why (.rechecking .wanted) b)) none
  | served (why : HandOff) (b : Backoff) (woken : List ThreadId) : s.lock.claim ≠ .want →
      Transition sc s (.from (.handingOff why (.prodding (.inside woken)) b))
        (s.drained s.lock.drained.release) (.here (.handingOff why .finished b)) none
  | replaced (why : HandOff) (b : Backoff) : s.allClear = false →
      Transition sc s (.from (.handingOff why (.rechecking .inside) b)) (s.haveRead sc.thread)
        (.here (.handingOff why .finished b)) none
  | pause (why : HandOff) (b : Backoff) : s.allClear = true →
      Transition sc s (.from (.handingOff why (.rechecking .inside) b)) (s.haveRead sc.thread)
        (.here (.handingOff why (.snoozing b.yields) b.next)) none
  | handedOff (why : HandOff) (b : Backoff) :
      Transition sc s (.from (.handingOff why .finished b)) s (.done why.answer) none
  /- A thread ends. -/
  | lowerAndWrite {f : Flag} {e : Edit} : s.flags.isRaised f = true →
      s.lock.registry.Admits e →
      Transition sc s (.depart f) ((s.put f false).writing sc.thread)
        (.here (.departing f true e)) none
  | lowerAndWait {f : Flag} : s.flags.isRaised f = true →
      Transition sc s (.depart f) (s.put f false) (.here (.departing f true .wanted)) none
  | departAndWrite {f : Flag} {e : Edit} : s.flags.isRaised f = false →
      s.lock.registry.Admits e →
      Transition sc s (.depart f) (s.writing sc.thread) (.here (.departing f false e)) none
  | departAndWait {f : Flag} : s.flags.isRaised f = false →
      Transition sc s (.depart f) s (.here (.departing f false .wanted)) none
  | strike (f : Flag) (wasUp : Bool) :
      Transition sc s (.from (.departing f wasUp .inside))
        (s.withRegistry (s.lock.registry.remove f).endWrite) (.here (.departed wasUp)) none
  | struckUp : Transition sc s (.from (.departed true)) s (.here .abandoned) none
  | struckDown : Transition sc s (.from (.departed false)) s (.done .unit) none
  | abandonTo (b : Backoff) : s.lock.claim = .want →
      Transition sc s (.from .abandoned) s (.here (.handingOff .abandoned .begun b)) none
  | abandonFree : s.lock.claim ≠ .want →
      Transition sc s (.from .abandoned) s (.done .unit) none
  /- Turns that many go through. -/
  | read {pc : Pc} {place : Access → Pc} : Reads pc place → s.lock.registry.canRead = true →
      Transition sc s (.from pc) (s.reading sc.thread) (.here (place .inside)) none
  | readLater {pc : Pc} {place : Access → Pc} : Reads pc place → s.lock.registry.canRead = false →
      Transition sc s (.from pc) s (.here (place .wanted)) none
  | write {pc : Pc} {place : Edit → Pc} {e : Edit} : Writes pc place →
      s.lock.registry.Admits e →
      Transition sc s (.from pc) (s.writing sc.thread) (.here (place e)) none
  | writeLater {pc : Pc} {place : Edit → Pc} : Writes pc place →
      Transition sc s (.from pc) s (.here (place .wanted)) none
  | await {pc : Pc} {place : Edit → Pc} {e : Edit} : Reserves pc place → e ≠ .wanted →
      (e = .inside → s.lock.registry.readers = []) →
      Transition sc s (.from pc) s (.here (place e)) none
  | notify {pc : Pc} {place : Notice.Stage → Pc} (woken : List ThreadId) : Notifies pc place →
      s.lock.drained.notifying = false →
      Transition sc s (.from pc) (s.drained ⟨s.lock.drained.queue.drop 1, true⟩)
        (.here (place (.inside woken))) none
  | notifyLater {pc : Pc} {place : Notice.Stage → Pc} : Notifies pc place →
      Transition sc s (.from pc) s (.here (place .yielding)) none

/-! ## Every turn is in the table -/

variable {sc : Scene} {s : Site} {op : Operation}

/-- The turn is in the table, with what the operation is granted by it. -/
abbrev Tabled (sc : Scene) (s : Site) (op : Operation) (job : Job) (step : Step) : Prop :=
  Transition sc s job step.state step.stand (Hold.granted? op step.stand)

theorem tabled_beginRead {pc : Pc} {place : Access → Pc} (h : Reads pc place) :
    Tabled sc s op (.from pc) (beginRead sc place s) := by
  unfold Tabled beginRead
  split
  · next hread => exact .read h hread
  · next hread => exact .readLater h (Bool.eq_false_iff.mpr hread)

theorem Registry.Admits.writer_eq_none {r : Registry} {e : Edit} (h : r.Admits e) :
    r.writer = none := by
  cases e with
  | wanted => exact h.elim
  | reserved => exact Option.isNone_iff_eq_none.mp h
  | inside => exact Option.isNone_iff_eq_none.mp (Bool.and_eq_true_iff.mp h).1

theorem beginWrite_of_canWrite (place : Edit → Pc) (h : s.lock.registry.canWrite = true) :
    beginWrite sc place s = (s.writing sc.thread).here (place .inside) := by
  have hreaders : s.lock.registry.readers.isEmpty = true := (Bool.and_eq_true_iff.mp h).2
  simp [beginWrite, awaitReaders, Registry.canReserve, h, Site.writing, Site.withRegistry,
    Registry.beginWrite, hreaders]

/-- A thread that wants to change the registry takes it, or reserves it, or leaves it alone. -/
theorem beginWrite_cases (sc : Scene) (place : Edit → Pc) (s : Site) :
    (∃ e, s.lock.registry.Admits e ∧
      beginWrite sc place s = (s.writing sc.thread).here (place e)) ∨
      beginWrite sc place s = s.here (place .wanted) := by
  cases hwrite : s.lock.registry.canWrite with
  | true => exact .inl ⟨.inside, hwrite, beginWrite_of_canWrite place hwrite⟩
  | false =>
    cases hreserve : s.lock.registry.canReserve s.lock.host with
    | false => exact .inr (by simp [beginWrite, hreserve])
    | true =>
      have hread : s.lock.registry.canRead = true := by
        simp only [Registry.canReserve, hwrite, Bool.false_or, Bool.and_eq_true] at hreserve
        exact hreserve.2
      have hreaders : s.lock.registry.readers.isEmpty = false := by
        simpa only [Registry.canWrite, show s.lock.registry.writer.isNone = true from hread,
          Bool.true_and] using hwrite
      refine .inl ⟨.reserved, hread, ?_⟩
      simp [beginWrite, awaitReaders, hreserve, Site.writing, Site.withRegistry,
        Registry.beginWrite, hreaders]

theorem tabled_beginWrite {pc : Pc} {place : Edit → Pc} (h : Writes pc place) :
    Tabled sc s op (.from pc) (beginWrite sc place s) := by
  unfold Tabled
  rcases beginWrite_cases sc place s with ⟨e, hadmits, heq⟩ | heq <;> rw [heq]
  · exact .write h hadmits
  · exact .writeLater h

theorem tabled_awaitReaders {pc : Pc} {place : Edit → Pc} (h : Reserves pc place) :
    Tabled sc s op (.from pc) (awaitReaders place s) := by
  unfold Tabled awaitReaders
  split
  · next hreaders => exact .await h nofun fun _ => List.isEmpty_iff.mp hreaders
  · exact .await h nofun nofun

theorem tabled_notifyWriter {pc : Pc} {place : Notice.Stage → Pc} (h : Notifies pc place) :
    Tabled sc s op (.from pc) (notifyWriter place s) := by
  unfold Tabled notifyWriter Notice.begin Signal.notify?
  cases hn : s.lock.drained.notifying with
  | true => exact .notifyLater h
  | false => exact .notify _ h hn

theorem tabled_enter {job : Job} (h : Enters job) : Tabled sc s op job (enter sc s) := by
  unfold Tabled enter
  split
  · next hgate => exact .queue h (Option.isSome_iff_ne_none.mp hgate)
  · next hgate => exact .claim _ h (by simpa using hgate)

theorem tabled_tryEnter :
    Tabled sc s (.tryAcquire .unique) (.start (.tryAcquire .unique)) (tryEnter sc s) := by
  unfold Tabled tryEnter
  split
  · next hgate => exact .giveUp (Option.isSome_iff_ne_none.mp hgate)
  · next hgate => exact .claimHastily (by simpa using hgate)

theorem tabled_releaseUnique :
    Tabled sc s op (.start (.release .unique)) (releaseUnique s) := by
  unfold Tabled releaseUnique
  split
  · next hclaim => exact .release hclaim
  · next hclaim => exact .releaseFault _ hclaim

theorem tabled_judge (w : Writer) :
    Tabled sc s w.operation (.from (.scanning w .inside))
      (judge w s.allClear (s.haveRead sc.thread)) := by
  cases hclear : s.allClear with
  | true => cases w <;> exact .succeed _ hclear
  | false =>
    cases w with
    | patient told backoff => exact .drain told backoff hclear
    | hasty => exact .fail hclear

theorem landing_arrive (p : Patience) (f : Flag) (s : Site) :
    (arrive p f s).state = s.put f true ∧
      Landing f p s.lock.claim (arrive p f s).stand
        (Hold.granted? p.operation (arrive p f s).stand) := by
  cases p <;> simp only [arrive] <;> split
  · next h => exact ⟨rfl, h ▸ .fastPath⟩
  · next h => exact ⟨rfl, .contended h⟩
  · next h => exact ⟨rfl, h ▸ .granted⟩
  · next h => exact ⟨rfl, .refused h⟩

theorem tabled_register {job : Job} {p : Patience} (h : Asks job p) {handed : Supply.Handed}
    (hnode : s.locals.node? sc.key = none)
    (halloc : s.lock.supply.allocate s.flags (s.locals.touch .nodes) = .ok handed) :
    Tabled sc s p.operation job
      (register sc p handed.flag { s with flags := handed.flags, locals := handed.locals }) := by
  unfold Tabled
  cases p with
  | waits =>
    simp only [register]
    rcases beginWrite_cases sc (.registering .waits handed.flag)
      { s with flags := handed.flags, locals := handed.locals } with ⟨e, hadmits, heq⟩ | heq <;>
      rw [heq]
    · exact .register h hnode halloc hadmits (by rintro ⟨⟩)
    · exact .registerLater h hnode halloc
  | once =>
    simp only [register]
    split
    · next hwrite =>
      rw [beginWrite_of_canWrite (s := { s with flags := handed.flags, locals := handed.locals })
        (.registering .once handed.flag) hwrite]
      exact .register h hnode halloc hwrite fun _ => rfl
    · exact .registerNever h hnode halloc

theorem node?_touch (l : Locals) (i : Item) (key : Nat) : (l.touch i).node? key = l.node? key := by
  unfold Locals.touch
  split <;> rfl

theorem tabled_acquireShared {job : Job} {p : Patience} (h : Asks job p) :
    Tabled sc s p.operation job (acquireShared sc p s) := by
  unfold Tabled acquireShared
  split
  · dsimp only
    split
    · next f hnode =>
      obtain ⟨hstate, hlanding⟩ :=
        landing_arrive p f { s with locals := s.locals.touch .nodes }
      rw [hstate]
      exact .arrive h (by rwa [node?_touch] at hnode) hlanding
    · next hnode =>
      rw [node?_touch] at hnode
      split
      · next f halloc => exact .noFlag f h halloc
      · next handed halloc => exact tabled_register h hnode halloc
  · next hcan =>
    have hcan' : s.locals.canUse .nodes = false := Bool.eq_false_iff.mpr hcan
    cases p with
    | waits => exact .noNodes h hcan' rfl
    | once => exact .noNodes h hcan' rfl

theorem look_recheck (f : Flag) (b : Backoff) (s : Site) :
    Look f b s (recheck f b s).state (recheck f b s).stand
      (Hold.granted? (.acquire .shared) (recheck f b s).stand) := by
  unfold recheck
  split
  · next h => exact .granted h
  · next h => exact .wanted h
  · next h => exact .taken h

theorem tabled_enterShared {pc : Pc} {f : Flag} (h : Arrives pc f) :
    Tabled sc s (.acquire .shared) (.from pc) (enterShared sc f s) := by
  unfold Tabled enterShared
  split
  · next hgate => exact .arriveLater h (Option.isSome_iff_ne_none.mp hgate)
  · next hgate => exact .look _ h (by simpa using hgate) (look_recheck _ _ _)

theorem tabled_leave {answer : Answer} (h : Operation.LeavesWith op answer) :
    Tabled sc s op (.from (.leaving answer)) (leave sc answer s) := by
  unfold Tabled leave
  split
  · dsimp only
    split
    · next hnode =>
      rw [node?_touch] at hnode
      exact .leaveFault answer _ (.inr hnode) (.inr rfl)
    · next f hnode =>
      rw [node?_touch] at hnode
      split
      · next hclaim => exact .leaveTo answer _ hnode hclaim
      · next hclaim =>
        have hgrant : Hold.granted? op (.done answer : Stand Pc) = none := by
          rcases h with ⟨rfl, rfl⟩ | ⟨rfl, rfl⟩ <;> rfl
        change Transition _ _ _ _ _ (Hold.granted? op (.done answer))
        rw [hgrant]
        exact .leaveFree answer hnode hclaim
  · next hcan =>
    exact .leaveFault answer _ (.inl (Bool.eq_false_iff.mpr hcan)) (.inl rfl)

theorem tabled_handOff {why : HandOff} (h : Hold.granted? op (.done why.answer : Stand Pc) = none)
    (b : Backoff) (stage : HandOff.Stage) :
    Tabled sc s op (.from (.handingOff why stage b)) (handOff sc why b stage s) := by
  cases stage with
  | begun => exact tabled_beginRead (.begun why b)
  | snoozing yields => exact tabled_beginRead (.snoozing why yields b)
  | checking a =>
    cases a with
    | wanted => exact tabled_beginRead (.checking why b)
    | inside =>
      simp only [handOff]
      split
      · next hclear => exact .found why b hclear
      · next hclear => exact .missed why b (Bool.eq_false_iff.mpr hclear)
  | prodding n =>
    cases n with
    | announced => exact tabled_notifyWriter (.handingOff why b .announced)
    | yielding => exact tabled_notifyWriter (.handingOff why b .yielding)
    | inside woken =>
      simp only [handOff, beginRead]
      split
      · next hclaim =>
        split
        · next hread => exact .lookOn why b woken hclaim hread
        · next hread => exact .lookLater why b woken hclaim (Bool.eq_false_iff.mpr hread)
      · next hclaim => exact .served why b woken hclaim
  | rechecking a =>
    cases a with
    | wanted => exact tabled_beginRead (.rechecking why b)
    | inside =>
      simp only [handOff]
      split
      · next hclear => exact .pause why b hclear
      · next hclear => exact .replaced why b (Bool.eq_false_iff.mpr hclear)
  | finished =>
    change Transition _ _ _ _ _ (Hold.granted? op (.done why.answer))
    rw [h]
    exact .handedOff why b

theorem tabled_start (op : Operation) : Tabled sc s op (.start op) (start sc op s) := by
  rcases op with (_ | _) | (_ | _) | (_ | _)
  · exact tabled_enter .first
  · exact tabled_acquireShared .acquire
  · exact tabled_tryEnter
  · exact tabled_acquireShared .tryAcquire
  · exact tabled_releaseUnique
  · exact .leave

theorem tabled_resume {pc : Pc} (h : pc.Serves op) :
    Tabled sc s op (.from pc) (resume sc pc s) := by
  cases pc with
  | entering => exact tabled_enter .again
  | claimed w =>
    cases w with
    | patient told backoff => exact tabled_beginRead (.claimed told backoff)
    | hasty =>
      simp only [resume, scan, beginRead]
      split
      · next hread => exact .scanHastily hread
      · next hread => exact .turnAway (Bool.eq_false_iff.mpr hread)
  | scanning w a =>
    cases a with
    | wanted => exact tabled_beginRead (.scanning w)
    | inside =>
      cases h
      exact tabled_judge w
  | draining told stage backoff =>
    by_cases hstage : stage = .woken
    · subst hstage
      exact .reclaim told backoff
    · let w : Wait.State := ⟨s.lock.gate, s.lock.drained, stage, backoff⟩
      have hturn : Transition sc s (.from (.draining told stage backoff)) _ _ none :=
        .drainOn told backoff (Wait.turn s.lock.terms.strategy sc.thread w).backoff
          (Wait.turn_goes s.lock.terms.strategy sc.thread (w := w) hstage)
      cases stage <;> first | exact hturn | exact absurd rfl hstage
  | acquired answer =>
    have hgrant : Hold.granted? op (.done answer : Stand Pc) = some .unique := by
      simp [Hold.granted?, h.2.2, h.1]
    change Transition _ _ _ _ _ (Hold.granted? op (.done answer))
    rw [hgrant]
    exact .acquire answer
  | refused => exact .unclaim
  | reopening why n =>
    have hnotify : ∀ {n : Notice.Stage}, Untold n →
        Tabled sc s op (.from (.reopening why n)) (notifyReaders (.reopening why) s) := by
      intro n hn
      unfold Tabled notifyReaders Notice.begin Signal.notify?
      cases hnotifying : s.lock.reopened.notifying with
      | true => exact .tellReadersLater why hn
      | false => exact .tellReaders why _ hn hnotifying
    cases n with
    | announced => exact hnotify .announced
    | yielding => exact hnotify .yielding
    | inside woken => exact .readersTold why woken
  | passingOn why n =>
    cases n with
    | announced => exact tabled_notifyWriter (.passingOn why .announced)
    | yielding => exact tabled_notifyWriter (.passingOn why .yielding)
    | inside woken =>
      cases h
      cases why with
      | released => exact .passedOn woken
      | refused => exact .passedOnRefused woken
  | released =>
    cases h
    exact .released
  | registering p f e =>
    cases e with
    | wanted => exact tabled_beginWrite (.registering p f)
    | reserved => exact tabled_awaitReaders (.registering p f)
    | inside => exact .enlist p f
  | registered p f =>
    cases h
    obtain ⟨hstate, hlanding⟩ :=
      landing_arrive p f { s with locals := s.locals.remember sc.alive sc.key f }
    simp only [Tabled, resume]
    rw [hstate]
    exact .enlisted hlanding
  | fastPath =>
    cases h
    exact .enjoy
  | contended f =>
    cases h
    exact tabled_enterShared (.contended f)
  | arriving f =>
    cases h
    exact tabled_enterShared (.arriving f)
  | prodding f backoff n =>
    cases n with
    | announced => exact tabled_notifyWriter (.prodding f backoff .announced)
    | yielding => exact tabled_notifyWriter (.prodding f backoff .yielding)
    | inside woken => exact .prodded f backoff woken
  | waiting f stage backoff =>
    by_cases hstage : stage = .woken
    · subst hstage
      cases h
      exact .lookAgain (look_recheck f backoff _)
    · let w : Wait.State := ⟨s.lock.gate, s.lock.reopened, stage, backoff⟩
      have hturn : Transition sc s (.from (.waiting f stage backoff)) _ _ none :=
        .waitOn f backoff (Wait.turn s.lock.terms.strategy sc.thread w).backoff
          (Wait.turn_goes s.lock.terms.strategy sc.thread (w := w) hstage)
      cases stage <;> first | exact hturn | exact absurd rfl hstage
  | sharedRefused => exact .backOut
  | leaving answer => exact tabled_leave h
  | handingOff why stage backoff =>
    cases why with
    | left answer =>
      refine tabled_handOff ?_ backoff stage
      rcases h with ⟨rfl, rfl⟩ | ⟨rfl, rfl⟩ <;> rfl
    | abandoned => exact h.elim
  | counting | departing | departed | abandoned => exact h.elim

/-- Every job of a call that takes or gives up the lock is in the table. -/
theorem onReadMostly_transition {job : Job} (hserves : job.Serves op)
    (hsuits : job.Suits .readMostly) :
    Transition sc s job (job.onReadMostly sc s).state (job.onReadMostly sc s).stand
      (Hold.granted? op (job.onReadMostly sc s).stand) := by
  cases job with
  | start op' =>
    have hop : op' = op := hserves
    rw [hop]
    exact tabled_start op
  | resume p =>
    cases p with
    | readMostly pc => exact tabled_resume hserves
    | blocking | polling => cases hsuits
  | depart f => exact hserves.elim

theorem depart_transition (f : Flag) :
    Transition sc s (.depart f) (depart sc f s).state (depart sc f s).stand none := by
  unfold depart telling
  split
  · next hraised =>
    rcases beginWrite_cases sc (.departing f true) (s.put f false) with
      ⟨e, hadmits, heq⟩ | heq <;> rw [heq]
    · exact .lowerAndWrite hraised hadmits
    · exact .lowerAndWait hraised
  · next hraised =>
    have hraised' : s.flags.isRaised f = false := Bool.eq_false_iff.mpr hraised
    rcases beginWrite_cases sc (.departing f false) s with ⟨e, hadmits, heq⟩ | heq <;> rw [heq]
    · exact .departAndWrite hraised' hadmits
    · exact .departAndWait hraised'

theorem resume_transition_of_departs {pc : Pc} (h : pc.Departs) :
    Transition sc s (.from pc) (resume sc pc s).state (resume sc pc s).stand none := by
  -- A release is never granted anything, so it can stand for the end of a thread.
  have hnone : ∀ stand : Stand Pc, Hold.granted? (.release .shared) stand = none :=
    Hold.granted?_release .shared
  have htabled : ∀ {step : Step}, Tabled sc s (.release .shared) (.from pc) step →
      Transition sc s (.from pc) step.state step.stand none := by
    intro step hstep
    unfold Tabled at hstep
    rwa [hnone] at hstep
  cases pc with
  | departing f wasUp e =>
    cases e with
    | wanted => exact htabled (tabled_beginWrite (.departing f wasUp))
    | reserved => exact htabled (tabled_awaitReaders (.departing f wasUp))
    | inside => exact .strike f wasUp
  | departed wasUp =>
    cases wasUp with
    | true => exact .struckUp
    | false => exact .struckDown
  | abandoned =>
    simp only [resume]
    split
    · next hclaim => exact .abandonTo _ hclaim
    · next hclaim => exact .abandonFree hclaim
  | handingOff why stage backoff =>
    cases why with
    | abandoned => exact htabled (tabled_handOff rfl backoff stage)
    | left answer => exact h.elim
  | _ => exact h.elim

/-- Every job of an ending thread is in the table, and is granted nothing. -/
theorem onReadMostly_transition_of_departs {job : Job} (hdeparts : job.Departs) :
    Transition sc s job (job.onReadMostly sc s).state (job.onReadMostly sc s).stand none := by
  cases job with
  | start op => exact hdeparts.elim
  | resume p =>
    cases p with
    | readMostly pc => exact resume_transition_of_departs hdeparts
    | blocking | polling => exact hdeparts.elim
  | depart f => exact depart_transition f

end ReadMostly

end ReaderWriter
