import ReaderWriter.Proofs.BlockingGroups

/-!
# Operations run alone

An operation is run alone if from its call on only its own thread takes turns, until the call has
come to its end. What it comes to is then settled by the run in which it is called.

* `Run.GoesAlone`: a thread takes one turn after the other until its call has come to its end.
* `GoesAlone.eq`: there is only one end to come to.
* `Run.Bound`: the event makes a thread do a job of an operation. Every event of an operation that
  is run alone is so.
* `GoesAlone.returns`: what the last job of the operation leaves behind.
-/

namespace ReaderWriter

/-! ## Waiting -/

/-- The thread has found somebody in its way, and waits until it is let through. -/
def ReadMostly.Pc.waits : ReadMostly.Pc → Bool
  | .entering | .draining _ _ _ | .contended _ | .arriving _ | .waiting _ _ _ => true
  | .scanning _ .wanted | .registering _ _ .wanted | .registering _ _ .reserved => true
  | .reopening _ .yielding | .passingOn _ .yielding => true
  | .prodding _ _ _ | .handingOff _ _ _ => true
  | _ => false

/-- The thread has left the path that it takes when nobody is in its way. -/
def Progress.waits : Progress → Bool
  | .blocking pc => pc.group?.isSome
  | .polling _ => true
  | .readMostly pc => pc.waits

/-- The thread waits in an operation. -/
def Run.Waits (r : Run) (t : ThreadId) : Prop :=
  ∃ m p, (r.world.thread t).stint? = some (m, p) ∧ p.waits = true

/-- Nobody is on the lock at an index. -/
def World.IsQuiet (w : World) (m : Nat) : Prop := ∀ t, ¬ w.IsOn t m

theorem World.isQuiet_iff (w : World) (m : Nat) :
    w.IsQuiet m ↔ ∀ t, t < w.threads.entries.length → ¬ w.IsOn t m :=
  ⟨fun h t _ => h t, fun h t hon => h t (World.lt_of_isOn hon) hon⟩

instance (w : World) (m : Nat) : Decidable (w.IsQuiet m) :=
  decidable_of_iff _ (w.isQuiet_iff m).symm

/-- Nobody stands at a place of a lock on which nobody is. -/
theorem Run.Orderly.place_of_isQuiet {r : Run} {m : Nat} (ho : r.Orderly)
    (hquiet : r.world.IsQuiet m) (t : ThreadId) : r.place m t = none := by
  cases hplace : r.place m t with
  | none => rfl
  | some p => exact absurd (ho.isOn hplace).1 (hquiet t)

/-! ## Going alone -/

namespace Run

/-- Beginning with an event a thread takes one turn after the other, and nothing else happens, until
its call has come to an end. Every run on the way meets a condition. -/
inductive GoesAlone (meets : Run → Prop) (t : ThreadId) : Run → Event → Finish → Run → Prop
  | ends {r : Run} {e : Event} {f : Finish} : r.world.Permits e →
      (r.world.meet e).finish = some f → GoesAlone meets t r e f (r.after e)
  | goes {r r' : Run} {e : Event} {f : Finish} : r.world.Permits e →
      (r.world.meet e).finish = none → meets (r.after e) →
      GoesAlone meets t (r.after e) (.turn t) f r' → GoesAlone meets t r e f r'

variable {r r' r'' : Run} {e : Event} {t : ThreadId} {m : Nat} {op : Operation} {job : Job}
  {f f' : Finish} {meets meets' : Run → Prop}

/-- A call that is run alone has one end at most. -/
theorem GoesAlone.eq (h : GoesAlone meets t r e f r') (h' : GoesAlone meets' t r e f' r'') :
    f' = f ∧ r'' = r' := by
  induction h with
  | ends hp hfinish =>
    cases h' with
    | ends _ hfinish' => exact ⟨Option.some.inj (hfinish'.symm.trans hfinish), rfl⟩
    | goes _ hnone _ _ => cases hnone.symm.trans hfinish
  | goes hp hnone hmeets _ ih =>
    cases h' with
    | ends _ hfinish => cases hnone.symm.trans hfinish
    | goes _ _ _ hrest => exact ih hrest

/-! ## The jobs of an operation -/

/-- The event makes a thread do a job of an operation for which it is called. -/
inductive Bound (r : Run) (t : ThreadId) (m : Nat) (op : Operation) : Event → Job → Prop
  | begins : (r.world.thread t).activity = .idle →
      Bound r t m op (.call t m (.operate op)) (.start op)
  | goes {p : Progress} :
      (r.world.thread t).activity = .calling ⟨m, .answer, .operating p⟩ →
      r.asked t = some (.operate op) → Bound r t m op (.turn t) (.resume p)

namespace Bound

/-- Nothing keeps a thread from a job for which it need not wait. -/
theorem permits (h : Bound r t m op e job) (hl : (r.world.lock? m).isSome = true)
    (hfree : ∀ p, job.place? = some p → r.world.operationObstacle t m p = none) :
    r.world.Permits e := by
  cases h with
  | begins hidle => exact ⟨hidle, hl, .inl (Call.isLocking_operate op)⟩
  | goes hact =>
    simp only [World.Permits, World.obstacle, hact, World.callObstacle]
    exact hfree _ rfl

/-- The world in which the event leaves the call is that of the job. -/
theorem meet_eq (h : Bound r t m op e job) {l : Lock} (hl : r.world.locks[m]? = some l) :
    r.world.meet e =
      World.settleCall t (World.settle t m .answer (r.world.work t m job)) := by
  cases h with
  | begins _ =>
    simp only [World.meet, World.call, World.beginCall, hl]
    rfl
  | goes hact => exact meet_turn hact

/-- The event is a job of the call. -/
theorem operates (h : Bound r t m op e job) (ho : r.Orderly) (hp : r.world.Permits e) :
    ∃ l, Operates r e (r.after e) t m l job op ∧ (r.after e).Orderly ∧
      (r.world.meet e).finish = (r.world.work t m job).stand.finish? := by
  have hfinish : ∀ {l}, Operates r e (r.after e) t m l job op →
      (r.world.meet e).finish = (r.world.work t m job).stand.finish? := by
    intro l hop
    rw [h.meet_eq hop.lock]
    exact World.finish_settle_answer t m _
  cases h with
  | begins hidle =>
    obtain ⟨-, hl, -⟩ := hp
    obtain ⟨l, hl⟩ := Option.isSome_iff_exists.mp hl
    obtain ⟨hop, ho'⟩ := call_operates ho hidle hl (.operate op) rfl
    exact ⟨l, hop, ho', hfinish hop⟩
  | goes hact hasked =>
    have htidy := ho.tidy t
    rw [hasked] at htidy
    cases htidy with
    | working hact' hperf hl halg hserves =>
      cases hact.symm.trans hact'
      cases hperf
      obtain ⟨hop, ho'⟩ := turn_operates ho hasked hp hact (.operate op) hl halg hserves
      exact ⟨_, hop, ho', hfinish hop⟩

/-- The call is still asked for as long as it has not come to its end. -/
theorem asked_after (h : Bound r t m op e job) :
    (r.after e).asked t = if (r.world.meet e).finish = none then some (.operate op) else none := by
  cases h with
  | begins => exact Function.update_self _ _ _
  | goes hact hasked => exact asked_after_turn hasked hact

/-- A thread whose operation has not ended is bound for its next turn. -/
theorem next (h : Bound r t m op e job) (ho : r.Orderly) (hp : r.world.Permits e) {p : Progress}
    (hstand : (r.world.work t m job).stand = .here p) :
    Bound (r.after e) t m op (.turn t) (.resume p) := by
  obtain ⟨l, hop, ho', hfinish⟩ := h.operates ho hp
  have hasked := h.asked_after
  have hstint := hop.stint'
  rw [hfinish, hstand, Stand.finish?, if_pos rfl] at hasked
  rw [hstand] at hstint
  have htidy := ho'.tidy t
  rw [hasked] at htidy
  cases htidy with
  | working hact hperf hl halg hserves =>
    cases hperf
    simp only [Thread.stint?, hact, Stand.place?, Option.map_some, Option.some.injEq,
      Prod.mk.injEq] at hstint
    obtain ⟨rfl, rfl⟩ := hstint
    exact .goes hact hasked

/-- A thread whose operation has ended is idle. -/
theorem idle (h : Bound r t m op e job) (ho : r.Orderly) (hp : r.world.Permits e)
    (hfinish : (r.world.meet e).finish = some f) :
    ((r.after e).world.thread t).activity = .idle := by
  obtain ⟨l, hop, ho', -⟩ := h.operates ho hp
  have hasked := h.asked_after
  rw [hfinish, if_neg nofun] at hasked
  have htidy := ho'.tidy t
  rw [hasked] at htidy
  rcases hop.lives' with hact | ⟨frame, hact⟩
  · exact hact
  · cases htidy with
    | idle hact' | gone hact' | ending hact' | departing hact' => cases hact.symm.trans hact'

end Bound

/-! ## What an operation that is run alone leaves behind -/

/-- A job with which an operation that was run alone has come to its end. -/
structure Returns (ok : Run → Event → Prop) (r : Run) (t : ThreadId) (m : Nat) (op : Operation)
    (first : Job) (f : Finish) (r₁ : Run) (e : Event) (l : Lock) (job : Job) (r' : Run) :
    Prop where
  before : Reachable ok r₁
  after : Reachable ok r'
  operates : Operates r₁ e r' t m l job op
  algorithm : ∀ l₀, r.world.locks[m]? = some l₀ → l.body.algorithm = l₀.body.algorithm
  finish : (r₁.world.work t m job).stand.finish? = some f
  /-- It is the first job, or one that goes on with the operation. -/
  begins : (r₁ = r ∧ job = first) ∨ ∃ p, job = .resume p
  /-- Meanwhile nothing has been granted. -/
  begun : Hold.begun r₁.holds t m job = Hold.begun r.holds t m first
  idle : (r'.world.thread t).activity = .idle
  others : ∀ u, u ≠ t → r'.world.thread u = r.world.thread u

/-- An operation that is run alone ends with a job of its own, in a run of which all that was asked
of the run before holds again. -/
theorem GoesAlone.returns {ok : Run → Event → Prop}
    (hturn : ∀ r p, r.Bound t m op (.turn t) (.resume p) → ok r (.turn t))
    (h : GoesAlone meets t r e f r') (hbound : Bound r t m op e job) (hreach : Reachable ok r)
    (he : ok r e) :
    ∃ r₁ e₁ l job₁, Returns ok r t m op job f r₁ e₁ l job₁ r' := by
  -- The last job is that of the rest of the way; what is told of the run before is carried back to
  -- where the way begins, over one job that grants nothing.
  induction h generalizing job with
  | @ends r e f hp hfinish =>
    obtain ⟨l, hop, -, heq⟩ := hbound.operates hreach.orderly hp
    have halg : ∀ l₀, r.world.locks[m]? = some l₀ → l.body.algorithm = l₀.body.algorithm := by
      intro l₀ hl₀
      cases hop.lock.symm.trans hl₀
      rfl
    exact ⟨r, e, l, job, hreach, hreach.step hp he, hop, halg, heq.symm.trans hfinish,
      .inl ⟨rfl, rfl⟩, rfl, hbound.idle hreach.orderly hp hfinish, hop.others⟩
  | @goes r r' e f hp hnone hmeets _ ih =>
    obtain ⟨l, hop, -, heq⟩ := hbound.operates hreach.orderly hp
    obtain ⟨p, hstand⟩ : ∃ p, (r.world.work t m job).stand = .here p := by
      rw [hnone] at heq
      cases hs : (r.world.work t m job).stand with
      | here p => exact ⟨p, rfl⟩
      | done answer | fault fault =>
        rw [hs] at heq
        cases heq
    have hnext := hbound.next hreach.orderly hp hstand
    obtain ⟨r₁, e₁, l₁, job₁, hreturns⟩ := ih hnext (hreach.step hp he) (hturn _ _ hnext)
    have hholds : (r.after e).holds = Hold.begun r.holds t m job := by
      rw [hop.holds, hstand]
      rfl
    have hbegins : ∃ p, job₁ = .resume p := hreturns.begins.elim (fun h => ⟨p, h.2⟩) id
    have halg : ∀ l₀, r.world.locks[m]? = some l₀ → l₁.body.algorithm = l₀.body.algorithm := by
      intro l₀ hl₀
      obtain ⟨l', hl', halg, -⟩ := hop.keeps m l₀ hl₀
      exact (hreturns.algorithm l' hl').trans halg
    exact ⟨r₁, e₁, l₁, job₁, hreturns.before, hreturns.after, hreturns.operates, halg,
      hreturns.finish, .inr hbegins, hreturns.begun.trans hholds, hreturns.idle,
      fun u hu => (hreturns.others u hu).trans (hop.others u hu)⟩

namespace Returns

variable {ok : Run → Event → Prop} {first : Job} {r₁ : Run} {l : Lock} {answer : Answer}

/-- The last job ends with the answer that the call replies. -/
theorem stand_of_replied
    (h : Returns ok r t m op first (.replied (.ofAnswer answer)) r₁ e l job r') :
    (r₁.world.work t m job).stand = .done answer := by
  have hfinish := h.finish
  cases hs : (r₁.world.work t m job).stand with
  | here p | fault fault =>
    rw [hs] at hfinish
    cases hfinish
  | done answer' =>
    rw [hs, Stand.finish?, Option.some.injEq, Finish.replied.injEq] at hfinish
    cases answer <;> cases answer' <;> cases hfinish <;> rfl

/-- How often the lock is held once the operation has been answered. -/
theorem count_eq (h : Returns ok r t m op (.start op) f r₁ e l job r')
    (hheld : ∀ mode, op = .release mode → 0 < r.count m mode) :
    r'.count m = Crowd.settled (Crowd.begun (r.count m) op) op
      (r₁.world.work t m job).stand := by
  funext mode
  rw [count, h.operates.holds, Hold.count_settled, h.begun, Hold.count_begun hheld]
  rfl

/-- The lock is still there. -/
theorem exists_lock (h : Returns ok r t m op first f r₁ e l job r') {l₀ : Lock}
    (hl : r.world.locks[m]? = some l₀) :
    ∃ l', r'.world.lock? m = some l' ∧ l'.body.algorithm = l₀.body.algorithm := by
  obtain ⟨l', hl', halg, howned⟩ := h.operates.keeps m l h.operates.lock
  exact ⟨l', (World.lock?_eq_some _ _).mpr ⟨hl', howned.trans h.operates.owned⟩,
    halg.trans (h.algorithm l₀ hl)⟩

/-- Nobody is on the lock if nobody was before. -/
theorem isQuiet (h : Returns ok r t m op first f r₁ e l job r') (hquiet : r.world.IsQuiet m) :
    r'.world.IsQuiet m := by
  intro u
  by_cases hu : u = t
  · subst hu
    simp [World.IsOn, Thread.frame?, Thread.departingFrom?, h.idle]
  · unfold World.IsOn
    rw [h.others u hu]
    exact hquiet u

end Returns

end Run

end ReaderWriter
