import ReaderWriter.Proofs.Pacing
import ReaderWriter.Proofs.Tallies

/-!
# Waits follow the strategy

A call that cannot have its lock waits, looks again, and waits again. In every wait it gives the
mutex of its group up. How often it has waited before is what decides about the next wait: whether
it parks, yields or spins meanwhile. The backoff that the call carries along counts these waits as
long as none of them parks.

* `Run.wait?`: the wait in which a thread stands, with the mutex and the signal that it works on.
* `Run.Orderly.wait_after`: the next turn of the thread is the next turn of its wait.
* `Run.Plays.backoff_eq`: a backoff has made as many steps as have been counted.
* `Progress.Waited`: what a call carries along that has waited so many times.
* `waits_follow_strategy`: every wait of every call parks, yields or spins as its number says.
-/

namespace ReaderWriter

/-! ## The wait of a thread -/

/-- The wait in which a thread stands at a place, with the mutex and the signal that it works on. -/
def Body.wait? : Body → Progress → Option Wait.State
  | .blocking s, .blocking (.waiting mode stage b) =>
      some ⟨(s.group mode).gate, (s.group mode).signal, stage, b⟩
  | .readMostly s, .readMostly (.draining _ stage b) => some ⟨s.gate, s.drained, stage, b⟩
  | .readMostly s, .readMostly (.waiting _ stage b) => some ⟨s.gate, s.reopened, stage, b⟩
  | _, _ => none

namespace Run

/-- The wait in which a thread stands on the lock at an index. -/
def wait? (r : Run) (m : Nat) (t : ThreadId) : Option Wait.State :=
  r.world.locks[m]?.bind fun l => (r.place m t).bind l.body.wait?

/-- The backoff that a thread carries along on the lock at an index. -/
def backoff? (r : Run) (m : Nat) (t : ThreadId) : Option Backoff :=
  (r.place m t).bind Progress.backoff?

/-- By the event the thread begins a wait that it has announced. -/
def beginsWait (m : Nat) (t : ThreadId) (r : Run) (e : Event) : Bool :=
  decide (e = .turn t) && (r.place m t).any fun p => p.stage? = some .announced

/-- By the event the thread makes a step of its backoff. -/
def snoozes (m : Nat) (t : ThreadId) (r : Run) (e : Event) : Bool :=
  decide (e = .turn t) && (r.place m t).any fun p => p.snoozes ((r.after e).place m t)

end Run

/-- Of the waits of a call the one with this number, counted from 0, parks. -/
def Config.ParksAt (c : Config) (k : Nat) : Prop :=
  c.strategy = .block ∨ c.strategy = .adaptive ∧
    min (c.maxSpins.toNat + c.maxYields.toNat) (2 ^ 32 - 1) ≤ k

theorem Config.parks_iff {c : Config} (hauto : c.strategy ≠ .auto) (k : Nat) :
    c.strategy.parks (Backoff.next^[k] (.ofConfig c)) = true ↔ c.ParksAt k :=
  Strategy.parks_iterate hauto c k

theorem Config.ParksAt.mono {c : Config} {n k : Nat} (h : c.ParksAt n) (hle : n ≤ k) :
    c.ParksAt k :=
  h.imp_right fun h => ⟨h.1, h.2.trans hle⟩

section

variable {r : Run} {e : Event} {t : ThreadId} {m : Nat} {l : Lock} {p p' : Progress} {b : Backoff}
  {w : Wait.State}

theorem Body.wait?_tells {body : Body} (h : body.wait? p = some w) :
    p.stage? = some w.stage ∧ p.patience? = some w.backoff := by
  cases body <;> rcases p with pc | pc | pc <;> cases pc <;> cases h <;> exact ⟨rfl, rfl⟩

/-- The host has settled what the automatic strategy comes to. -/
theorem Lock.strategy_ne_auto_of_wait? (h : l.body.wait? p = some w) :
    l.terms.strategy ≠ .auto := by
  cases hbody : l.body with
  | blocking s | readMostly s =>
    rw [Lock.terms, hbody]
    exact s.config.strategy.resolve_ne_auto s.host
  | polling s =>
    rw [hbody] at h
    rcases p with pc | pc | pc <;> cases h

namespace Run

theorem wait?_eq_some_iff :
    r.wait? m t = some w ↔
      ∃ l p, r.world.locks[m]? = some l ∧ r.place m t = some p ∧ l.body.wait? p = some w := by
  simp only [wait?, Option.bind_eq_some_iff]
  constructor
  · rintro ⟨l, hl, p, hp, hw⟩
    exact ⟨l, p, hl, hp, hw⟩
  · rintro ⟨l, p, hl, hp, hw⟩
    exact ⟨l, hl, p, hp, hw⟩

/-- A place of a wait belongs to a call that waits for its lock. -/
theorem not_departs_of_stage? {stage : Wait.Stage} (h : p.stage? = some stage) : ¬ p.Departs := by
  rcases p with pc | pc | pc
  · exact id
  · exact id
  · cases pc <;> first | exact id | cases h

theorem Orderly.obstacle_of_wait? (ho : r.Orderly) (h : r.wait? m t = some w) :
    r.world.obstacle t = Wait.obstacle t w.gate w.signal w.stage := by
  obtain ⟨l, p, hl, hplace, hw⟩ := wait?_eq_some_iff.mp h
  rw [(ho.isOn hplace).2, World.operationObstacle, hl]
  dsimp only
  generalize l.body = body at hw ⊢
  cases body <;> rcases p with pc | pc | pc <;> cases pc <;> cases hw <;> rfl

/-- The next turn of a thread in a wait is the next turn of the wait. -/
theorem Orderly.wait_after (ho : r.Orderly) (hp : r.world.Permits (.turn t))
    (hl : r.world.locks[m]? = some l) (h : r.wait? m t = some w) (hstage : w.stage ≠ .woken) :
    (r.after (.turn t)).wait? m t = some (Wait.turn l.terms.strategy t w) := by
  obtain ⟨l', p, hl', hplace, hw⟩ := wait?_eq_some_iff.mp h
  cases hl.symm.trans hl'
  rcases ho.works_of_place hplace with
    ⟨c, op, task, l', hasked, hact, hperf, hlock, halg, hserves⟩ | ⟨hdeparts, -⟩
  swap
  · exact absurd hdeparts (not_departs_of_stage? (Body.wait?_tells hw).1)
  obtain ⟨hop, -⟩ := turn_operates ho hasked hp hact hperf hlock halg hserves
  cases hl.symm.trans hop.lock
  cases hs : l.body with
  | blocking s =>
    rw [hs] at hw
    rcases p with pc | pc | pc <;> cases pc <;> cases hw
    next mode stage b =>
    have hturn := Blocking.resume_wait t mode b s hstage rfl
    have hl' := hop.lock_blocking hs
    have hplace' := hop.place_blocking hs
    rw [Job.onBlocking, hturn] at hl' hplace'
    refine wait?_eq_some_iff.mpr ⟨_, _, hl', hplace', ?_⟩
    rw [show l.terms = s.terms by rw [Lock.terms, hs]]
    simp only [Body.wait?, Blocking.group_withGroup_self]
  | polling s =>
    rw [hs] at hw
    rcases p with pc | pc | pc <;> cases hw
  | readMostly s =>
    rw [hs] at hw
    obtain ⟨⟨l₁, hl₁, hs₁⟩, -, -, hstand⟩ := hop.onReadMostly hs rfl
    have hplace' := hop.place_self'
    rw [hstand, Stand.place?_lift] at hplace'
    rw [show l.terms = s.terms by rw [Lock.terms, hs]]
    rcases p with pc | pc | pc <;> cases pc <;> cases hw
    · next told stage b =>
      rw [Job.onReadMostly, ReadMostly.resume_draining _ told b _ hstage rfl] at hplace' hs₁
      refine wait?_eq_some_iff.mpr ⟨l₁, _, hl₁, hplace', ?_⟩
      rw [hs₁]
      rfl
    · next f stage b =>
      rw [Job.onReadMostly, ReadMostly.resume_waiting _ f b _ hstage rfl] at hplace' hs₁
      refine wait?_eq_some_iff.mpr ⟨l₁, _, hl₁, hplace', ?_⟩
      rw [hs₁]
      rfl

end Run

/-! ## Steps are counted -/

theorem Progress.snoozes_eq_false (h : p.backoff? = none) (next : Option Progress) :
    p.snoozes next = false := by
  rcases p with pc | pc | pc
  · cases pc <;> first | rfl | cases h
  · cases pc <;> cases h
  · cases pc <;> first | rfl | cases h

/-- A wait goes to the condition variable from its announcement iff the strategy says so. -/
theorem Wait.onward_eq_parking (c : Config) (b : Backoff) :
    onward c b = .parking ↔ c.strategy.parks b = true := by
  unfold onward
  split
  · next h => exact iff_of_true rfl h
  · next h => exact iff_of_false (by rintro ⟨⟩) h

namespace Run

/-- A thread that carries a backoff along has just made it, or has carried it along before and made
a step or none. -/
theorem Orderly.backoff_after (ho : r.Orderly) (hp : r.world.Permits e)
    (hl : (r.after e).world.locks[m]? = some l) {b' : Backoff}
    (hb' : (r.after e).backoff? m t = some b') :
    r.backoff? m t = none ∧ b' = .ofConfig l.terms ∧ r.snoozes m t e = false ∨
      ∃ b, r.backoff? m t = some b ∧ b' = if r.snoozes m t e then b.next else b := by
  unfold backoff? snoozes at *
  rcases ho.paced_after (t := t) hp hl with ⟨hpaced, hmine⟩ | ⟨hsame, hidle⟩
  swap
  · rw [hsame] at hb' ⊢
    refine .inr ⟨b', hb', ?_⟩
    have hne : e ≠ .turn t := fun heq => by
      rw [hidle heq] at hb'
      cases hb'
    simp [hne]
  generalize hbefore : r.place m t = before at hpaced hmine ⊢
  generalize (r.after e).place m t = after at hpaced hb' ⊢
  have hturn : ∀ p, before = some p → e = .turn t := fun p hp =>
    hmine.resolve_right (by rw [hp]; nofun)
  cases hpaced with
  | without _ hnone => cases hb'.symm.trans hnone
  | fresh hnone _ hfresh =>
    cases hb'.symm.trans hfresh
    refine .inl ⟨hnone, rfl, ?_⟩
    cases before with
    | none => simp
    | some p => simp [Progress.snoozes_eq_false hnone]
  | @waits p p' b hstage hb hstage' hback =>
    cases hb'.symm.trans (Progress.backoff?_of_patience? hback)
    refine .inr ⟨b, Progress.backoff?_of_patience? hb, ?_⟩
    simp only [hturn p rfl, Option.any_some, Progress.snoozes_of_stage? hstage, Option.bind_some,
      hstage', Option.some.injEq, Wait.onward_eq_parking, ne_eq]
    cases l.terms.strategy.parks b <;> rfl
  | @steps p p' b _ _ hsnoozes hb hback =>
    cases hb'.symm.trans hback
    exact .inr ⟨b, hb, by simp [hturn p rfl, hsnoozes]⟩
  | @keeps p p' b _ hsnoozes hb hback =>
    cases hb'.symm.trans hback
    exact .inr ⟨b', hb, by simp [hsnoozes]⟩
  | ends _ _ hnone => cases hb'.symm.trans hnone

/-- A step of a backoff is seen to yield iff the backoff says so. -/
theorem Orderly.yields_of_snoozes (ho : r.Orderly) (hp : r.world.Permits e)
    (hl : (r.after e).world.locks[m]? = some l) (hb : r.backoff? m t = some b)
    (hsnoozes : r.snoozes m t e = true) :
    ((r.after e).place m t).map Progress.place = some .yielding ↔ b.yields = true := by
  unfold backoff? snoozes at *
  simp only [Bool.and_eq_true, decide_eq_true_eq] at hsnoozes
  obtain ⟨rfl, hsnoozes⟩ := hsnoozes
  rcases ho.paced_after (t := t) hp hl with ⟨hpaced, -⟩ | ⟨-, hidle⟩
  swap
  · rw [hidle rfl] at hb
    cases hb
  generalize r.place m t = before at hpaced hb hsnoozes
  generalize (r.after (.turn t)).place m t = after at hpaced hsnoozes ⊢
  cases hpaced with
  | without hnone | fresh hnone => cases hb.symm.trans hnone
  | @waits p p' b' hstage hb' hstage' _ =>
    cases hb.symm.trans (Progress.backoff?_of_patience? hb')
    simp only [Option.any_some, Progress.snoozes_of_stage? hstage, Option.bind_some, hstage',
      Option.some.injEq, ne_eq, decide_true, Bool.true_and, decide_eq_true_eq,
      Wait.onward_eq_parking] at hsnoozes
    rw [Option.map_some, Option.some.injEq, Progress.place_of_stage? hstage', Wait.onward,
      if_neg hsnoozes, Wait.Stage.snoozing.injEq]
  | steps _ _ _ hb' _ _ hyields =>
    cases hb.symm.trans hb'
    rw [Option.map_some, Option.some.injEq, hyields]
  | keeps _ hnot =>
    rw [Option.any_some, hnot] at hsnoozes
    cases hsnoozes
  | ends _ hb' _ hlast =>
    cases hb.symm.trans hb'
    obtain ⟨rfl, hyields⟩ := hlast hsnoozes
    simp [hyields]

/-- Since it was made, a backoff has made as many steps as have been counted. -/
theorem Plays.backoff_eq {ok : Run → Event → Prop} {rest : List Event} (h : Reachable ok r)
    (hp : r.world.Permits e) (hnone : r.backoff? m t = none)
    (hrest : (r.after e).Plays (fun r _ => (r.backoff? m t).isSome = true) rest)
    (hl : (r.play (e :: rest)).world.locks[m]? = some l)
    (hb : (r.play (e :: rest)).backoff? m t = some b) :
    b = Backoff.next^[r.tally (snoozes m t) (e :: rest)] (.ofConfig l.terms) := by
  have hreach : Reachable (fun _ _ => True) r := h.mono fun _ _ _ => trivial
  refine hrest.induction (P := fun rest => ∀ l b,
    (r.play (e :: rest)).world.locks[m]? = some l → (r.play (e :: rest)).backoff? m t = some b →
      b = Backoff.next^[r.tally (snoozes m t) (e :: rest)] (.ofConfig l.terms)) ?_ ?_ l b hl hb
  · intro l b hl hb
    rcases h.orderly.backoff_after hp hl hb with ⟨-, hfresh, hsnoozes⟩ | ⟨b₀, hb₀, -⟩
    · simp only [tally, hsnoozes, Bool.toNat_false]
      exact hfresh
    · cases hnone.symm.trans hb₀
  · intro events e' hplays hp' hsome ih l' b' hl' hb'
    have ho : (r.play (e :: events)).Orderly :=
      ((hreach.step hp trivial).play (hplays.mono fun _ _ _ => trivial)).orderly
    rw [← List.cons_append, play_concat] at hl' hb'
    rw [← List.cons_append, tally_concat]
    obtain ⟨b, hb⟩ := Option.isSome_iff_exists.mp hsome
    obtain ⟨p, hplace, -⟩ := Option.bind_eq_some_iff.mp hb
    obtain ⟨l, hl, -⟩ := ho.exists_lock_of_place hplace
    obtain ⟨l'', hl'', hterms⟩ := terms_after ho hp' hl
    cases hl'.symm.trans hl''
    rcases ho.backoff_after hp' hl' hb' with ⟨hnone', -⟩ | ⟨b₀, hb₀, hstep⟩
    · cases hb.symm.trans hnone'
    · cases hb.symm.trans hb₀
      rw [hstep, ih l b hl hb, hterms]
      cases (r.play (e :: events)).snoozes m t e' with
      | true => rw [if_pos rfl, Bool.toNat_true, Function.iterate_succ_apply']
      | false => rfl

end Run

/-! ## Waits are counted -/

/-- A call that has waited so many times can be at this place. Its backoff has made a step in every
wait, but for those that parked; from the first one that parks on all of them do. -/
structure Progress.Waited (c : Config) (k : Nat) (p : Progress) : Prop where
  fresh : p.patience? = none → k = 0 ∨ p.isOver = true
  counts : ∀ b, p.patience? = some b → ∃ n ≤ k, b = Backoff.next^[n] (.ofConfig c) ∧
    (n < k ∨ p.stage?.any Wait.Stage.isParking = true → c.strategy.parks b = true)

/-- The first place of a call, and every place of one that never waits. -/
theorem Progress.Waited.of_fresh {c : Config}
    (hback : ∀ b, p.patience? = some b → b = .ofConfig c)
    (hstage : p.stage?.any Wait.Stage.isParking = false) : p.Waited c 0 where
  fresh _ := .inl rfl
  counts b hb := by
    refine ⟨0, Nat.le_refl _, hback b hb, ?_⟩
    rintro (hlt | hparking)
    · exact absurd hlt (Nat.lt_irrefl 0)
    · rw [hstage] at hparking
      cases hparking

/-- As long as the backoff does not park it has made a step in every wait. -/
theorem Progress.Waited.backoff_eq {c : Config} {k : Nat} (h : p.Waited c k)
    (hb : p.patience? = some b) (hpark : c.strategy.parks b = false) :
    b = Backoff.next^[k] (.ofConfig c) := by
  obtain ⟨n, hn, hback, hparks⟩ := h.counts b hb
  have heq : n = k := by
    refine Nat.le_antisymm hn (Nat.le_of_not_lt fun hlt => ?_)
    rw [hparks (.inl hlt)] at hpark
    cases hpark
  rwa [heq] at hback

/-- From the first wait that parks on the number of steps falls behind, but all waits park. -/
theorem Progress.Waited.parks_iff {c : Config} {k : Nat} (h : p.Waited c k)
    (hauto : c.strategy ≠ .auto) (hb : p.patience? = some b) :
    c.strategy.parks b = true ↔ c.ParksAt k := by
  obtain ⟨n, hn, hback, hparks⟩ := h.counts b hb
  constructor
  · intro hpark
    rw [hback, Config.parks_iff hauto] at hpark
    exact hpark.mono hn
  · intro hk
    rcases Nat.lt_or_eq_of_le hn with hlt | rfl
    · exact hparks (.inl hlt)
    · rwa [hback, Config.parks_iff hauto]

theorem Progress.Waited.yields_iff {c : Config} {k : Nat} (h : p.Waited c k)
    (hauto : c.strategy ≠ .auto) (hb : p.patience? = some b) (hk : ¬ c.ParksAt k) :
    b.yields = true ↔ c.maxSpins.toNat ≤ k := by
  rw [h.backoff_eq hb (Bool.eq_false_iff.mpr (mt (h.parks_iff hauto hb).mp hk)),
    Backoff.yields_iterate]

theorem Progress.patience?_eq_none (h : p.backoff? = none) : p.patience? = none := by
  cases hb : p.patience? with
  | none => rfl
  | some b => cases h.symm.trans (backoff?_of_patience? hb)

theorem Progress.stage?_eq_none (h : p.patience? = none) : p.stage? = none := by
  cases hstage : p.stage? with
  | none => rfl
  | some stage =>
    obtain ⟨b, hb⟩ := patience?_isSome_of_stage? hstage
    cases h.symm.trans hb

theorem Progress.Waited.of_patience?_eq_none {c : Config} (h : p.patience? = none) :
    p.Waited c 0 :=
  .of_fresh (fun b hb => by cases h.symm.trans hb) (by rw [Progress.stage?_eq_none h]; rfl)

theorem Progress.Waited.of_backoff? {c : Config} (hb : p.backoff? = some (.ofConfig c))
    (hstage : p.stage?.any Wait.Stage.isParking = false) : p.Waited c 0 :=
  .of_fresh (fun _ hb' => Option.some.inj ((Progress.backoff?_of_patience? hb').symm.trans hb))
    hstage

theorem Wait.not_isParking_onward {c : Config} (h : c.strategy.parks b = false) :
    (onward c b).isParking = false := by
  rw [onward, if_neg (Bool.eq_false_iff.mp h)]
  rfl

/-- A turn of a call. -/
theorem Paced.waited {c : Config} {k : Nat} (h : Paced c (some p) (some p')) (hp : p.Waited c k) :
    p'.Waited c (k + (decide (p.stage? = some .announced)).toNat) := by
  -- While a call carries no backoff of a wait it has not waited.
  have hzero : p.patience? = none → p.isOver = false →
      k + (decide (p.stage? = some .announced)).toNat = 0 := by
    intro hnone hover
    rw [Progress.stage?_eq_none hnone]
    exact (hp.fresh hnone).resolve_right (by rw [hover]; nofun)
  cases h with
  | without hnone hnone' hover =>
    have hover' : p.isOver = false := Bool.eq_false_iff.mpr fun h => nomatch hover h
    rw [hzero (Progress.patience?_eq_none hnone) hover']
    exact .of_patience?_eq_none (Progress.patience?_eq_none hnone')
  | fresh hnone hover hb hstage =>
    rw [hzero (Progress.patience?_eq_none hnone) hover]
    exact .of_backoff? hb hstage
  | @waits _ _ b hstage hb hstage' hb' =>
    rw [decide_eq_true hstage, Bool.toNat_true]
    refine ⟨fun hnone => ?_, fun b'' hb'' => ?_⟩
    · cases hnone.symm.trans hb'
    cases hb'.symm.trans hb''
    cases hpark : c.strategy.parks b with
    | true =>
      obtain ⟨n, hn, hback, -⟩ := hp.counts b hb
      exact ⟨n, Nat.le_succ_of_le hn, hback, fun _ => hpark⟩
    | false =>
      refine ⟨k + 1, Nat.le_refl _, ?_, ?_⟩
      · rw [Function.iterate_succ_apply', ← hp.backoff_eq hb hpark]
        rfl
      · rintro (hlt | hparking)
        · exact absurd hlt (Nat.lt_irrefl _)
        · rw [hstage', Option.any_some, Wait.not_isParking_onward hpark] at hparking
          cases hparking
  | steps hstage hnone hsnoozes hb _ hnone' _ =>
    rw [hzero hnone (Progress.isOver_eq_false hb)]
    exact .of_patience?_eq_none hnone'
  | @keeps _ _ b hstage _ hb _ hsame hparking =>
    rw [decide_eq_false hstage]
    refine ⟨fun hnone => ?_, fun b' hb' => ?_⟩
    · have hfresh := hp.fresh (hsame.symm.trans hnone)
      rw [Progress.isOver_eq_false hb] at hfresh
      exact .inl (hfresh.resolve_right nofun)
    · obtain ⟨n, hn, hback, hparks⟩ := hp.counts b' (hsame.symm.trans hb')
      exact ⟨n, hn, hback, fun h => hparks (h.imp_right hparking)⟩
  | ends _ _ hnone _ hover =>
    refine ⟨fun _ => .inr (hover p' rfl), fun b' hb' => ?_⟩
    cases (Progress.patience?_eq_none hnone).symm.trans hb'

/-- An attempt does not wait for the lock. -/
theorem Progress.not_waits_of_tryAcquire {mode : Mode} (h : p.Serves (.tryAcquire mode)) :
    p.patience? = none ∧ p.isOver = false := by
  rcases p with pc | pc | pc
  · cases pc <;> first | exact ⟨rfl, rfl⟩ | cases h
  · exact ⟨by cases pc <;> rfl, rfl⟩
  · cases pc with
    | claimed w | scanning w => cases w <;> first | exact ⟨rfl, rfl⟩ | cases h
    | acquired answer =>
      obtain ⟨-, ⟨yes, rfl⟩, -⟩ := h
      exact ⟨rfl, rfl⟩
    | _ => first | exact ⟨rfl, rfl⟩ | cases h

/-- A thread that begins something on a lock. -/
theorem Paced.waited_of_none {c : Config} (h : Paced c none (some p)) : p.Waited c 0 := by
  cases h with
  | without _ hnone => exact .of_patience?_eq_none (Progress.patience?_eq_none hnone)
  | fresh _ _ hb hstage => exact .of_backoff? hb hstage

namespace Run

/-- Only a timed call goes on after it has left its place, and it does not wait for the lock. -/
theorem Orderly.not_waits_of_pauses (ho : r.Orderly) (hp : r.world.Permits (.turn t))
    (hplace : r.place m t = some p) (hnone : (r.after (.turn t)).place m t = none)
    (hasked' : (r.after (.turn t)).asked t ≠ none) : p.patience? = none ∧ p.isOver = false := by
  rcases ho.works_of_place hplace with
    ⟨c, op, task, l, hasked, hact, hperf, hl, halg, hserves⟩ | ⟨hdeparts, -⟩
  · obtain ⟨hop, -⟩ := turn_operates ho hasked hp hact hperf hl halg hserves
    have hends := World.work_serves t hop.lock hop.suits hserves
    obtain ⟨clock, activity, -, hrests⟩ := World.settle_rests t m hperf hends
    rw [← meet_turn hact] at hrests
    rw [hop.place_self'] at hnone
    rw [asked_after_turn hasked hact] at hasked'
    generalize (r.world.meet (.turn t)).finish = finish at hrests hasked'
    generalize (r.world.work t m (.resume p)).stand = stand at hrests hnone
    cases hrests with
    | here => cases hnone
    | replied | faulted => exact absurd (if_neg (by rintro ⟨⟩)) hasked'
    | again _ hop _ =>
      exact Progress.not_waits_of_tryAcquire (hop ▸ hserves)
  · rcases p with pc | pc | pc
    · exact hdeparts.elim
    · exact hdeparts.elim
    · cases pc <;> first | exact ⟨rfl, rfl⟩ | exact hdeparts.elim

/-- The call of a thread has begun so many waits for the lock at an index. -/
structure HasWaited (r : Run) (t : ThreadId) (m : Nat) (c : Config) (k : Nat) : Prop where
  waited : ∀ p, r.place m t = some p → p.Waited c k
  pauses : r.place m t = none → r.asked t ≠ none → k = 0

/-- What one more event makes of a call. -/
theorem HasWaited.after {k : Nat} (h : r.HasWaited t m l.terms k) (ho : r.Orderly)
    (hp : r.world.Permits e) (hl : (r.after e).world.locks[m]? = some l)
    (hasked : r.asked t ≠ none) :
    (r.after e).HasWaited t m l.terms (k + (r.beginsWait m t e).toNat) := by
  rcases ho.paced_after (t := t) hp hl with ⟨hpaced, hmine⟩ | ⟨hsame, hidle⟩
  · cases hplace : r.place m t with
    | none =>
      have hk : k + (r.beginsWait m t e).toNat = 0 := by
        simp [beginsWait, hplace, h.pauses hplace hasked]
      rw [hplace] at hpaced
      rw [hk]
      exact ⟨fun p hp' => (hp' ▸ hpaced).waited_of_none, fun _ _ => rfl⟩
    | some p =>
      obtain rfl := hmine.resolve_right (by rw [hplace]; nofun)
      have hk : (r.beginsWait m t (.turn t)).toNat =
          (decide (p.stage? = some .announced)).toNat := by
        simp [beginsWait, hplace]
      rw [hplace] at hpaced
      rw [hk]
      refine ⟨fun p' hp' => (hp' ▸ hpaced).waited (h.waited p hplace), fun hnone hasked' => ?_⟩
      obtain ⟨hpatience, hover⟩ := ho.not_waits_of_pauses hp hplace hnone hasked'
      have hzero := ((h.waited p hplace).fresh hpatience).resolve_right (by rw [hover]; nofun)
      simp [hzero, Progress.stage?_eq_none hpatience]
  · have hk : r.beginsWait m t e = false := by
      by_cases hturn : e = .turn t
      · simp [beginsWait, hidle hturn]
      · simp [beginsWait, hturn]
    rw [hk]
    exact ⟨fun p hp' => h.waited p (hsame ▸ hp'), fun hnone _ => h.pauses (hsame ▸ hnone) hasked⟩

/-- While a call is under way, what its thread carries along tells how often it has waited. -/
theorem Plays.hasWaited {ok : Run → Event → Prop} {c : Call} {rest : List Event}
    (h : Reachable ok r) (hp : r.world.Permits (.call t m c))
    (hrest : (r.after (.call t m c)).Plays (fun r _ => r.asked t ≠ none) rest)
    (hl : (r.play (.call t m c :: rest)).world.locks[m]? = some l) :
    (r.play (.call t m c :: rest)).HasWaited t m l.terms
      (r.tally (beginsWait m t) (.call t m c :: rest)) := by
  have hreach : Reachable (fun _ _ => True) r := h.mono fun _ _ _ => trivial
  -- The lock is there since the call, and waits as it did.
  suffices hlock : ∃ l, (r.play (.call t m c :: rest)).world.locks[m]? = some l ∧
      (r.play (.call t m c :: rest)).HasWaited t m l.terms
        (r.tally (beginsWait m t) (.call t m c :: rest)) by
    obtain ⟨l', hl', hwaited⟩ := hlock
    cases hl.symm.trans hl'
    exact hwaited
  refine hrest.induction (P := fun rest =>
    ∃ l, (r.play (.call t m c :: rest)).world.locks[m]? = some l ∧
      (r.play (.call t m c :: rest)).HasWaited t m l.terms
        (r.tally (beginsWait m t) (.call t m c :: rest))) ?_ ?_
  · obtain ⟨l₀, hl₀⟩ := Option.isSome_iff_exists.mp hp.2.1
    obtain ⟨l, hl, -⟩ := terms_after h.orderly hp ((r.world.lock?_eq_some m).mp hl₀).1
    have hnone : r.place m t = none := by
      simp [place, Thread.stint?, hp.1]
    have hk : r.tally (beginsWait m t) [.call t m c] = 0 := by
      simp [tally, beginsWait]
    refine ⟨l, hl, ?_⟩
    rw [hk]
    refine ⟨fun p hplace => ?_, fun _ _ => rfl⟩
    rcases h.orderly.paced_after (t := t) hp hl with ⟨hpaced, -⟩ | ⟨hsame, -⟩
    · rw [hnone] at hpaced
      exact (hplace ▸ hpaced).waited_of_none
    · cases hnone.symm.trans (hsame.symm.trans hplace)
  · rintro events e hplays hpe hasked ⟨l, hl, hwaited⟩
    have ho : (r.play (.call t m c :: events)).Orderly :=
      ((hreach.step hp trivial).play (hplays.mono fun _ _ _ => trivial)).orderly
    obtain ⟨l', hl', hterms⟩ := terms_after ho hpe hl
    rw [← List.cons_append, play_concat, tally_concat]
    refine ⟨l', hl', ?_⟩
    rw [← hterms] at hwaited
    exact hwaited.after ho hpe hl' hasked

end Run

end

/-! ## The main result -/

/-- How a thread goes on with a wait for the lock at an index, if its call has begun `k` waits
before. -/
structure Run.FollowsStrategy (r : Run) (t : ThreadId) (m : Nat) (c : Config) (k : Nat)
    (w : Wait.State) : Prop where
  /-- A wait that has been announced is not held up. -/
  permits : w.stage = .announced → r.world.Permits (.turn t)
  /-- It parks if its number says so. -/
  parks : w.stage = .announced → c.ParksAt k →
    (r.after (.turn t)).wait? m t = some { w with stage := .parking }
  /-- Otherwise it gives the mutex up, whether the step that its backoff makes meanwhile yields or
  spins. -/
  snoozes : w.stage = .announced → ¬ c.ParksAt k →
    (r.after (.turn t)).wait? m t =
      some { w with
        gate := none
        stage := .snoozing (decide (c.maxSpins.toNat ≤ k))
        backoff := w.backoff.next }
  /-- To park is to join the queue and to give the mutex up. -/
  parked : w.stage = .parking → r.world.Permits (.turn t) ∧
    (r.after (.turn t)).wait? m t =
      some { w with gate := none, signal := w.signal.park t, stage := .parked } ∧
    (r.after (.turn t)).world.obstacle t = some .parked
  /-- After the step the thread takes the mutex again, as soon as it is free. -/
  snoozed : ∀ yields, w.stage = .snoozing yields → (r.world.Permits (.turn t) ↔ w.gate = none) ∧
    (w.gate = none →
      (r.after (.turn t)).wait? m t = some { w with gate := some t, stage := .woken })
  /-- A thread that spins does not park. -/
  spins : c.strategy = .spin → w.stage.isParking = false

section

variable {r : Run} {e : Event} {t : ThreadId} {m : Nat} {l : Lock} {b : Backoff} {w : Wait.State}
  {k : Nat}

/-- A call that has waited so many times goes on with its wait as the number says. -/
theorem Run.HasWaited.follows (h : r.HasWaited t m l.terms k) (ho : r.Orderly)
    (hl : r.world.locks[m]? = some l) (hw : r.wait? m t = some w) :
    r.FollowsStrategy t m l.terms k w := by
  obtain ⟨l', p, hl', hplace, hwait⟩ := wait?_eq_some_iff.mp hw
  cases hl.symm.trans hl'
  obtain ⟨hstage, hback⟩ := Body.wait?_tells hwait
  have hwaited := h.waited p hplace
  have hauto := Lock.strategy_ne_auto_of_wait? hwait
  have hparks_iff := hwaited.parks_iff hauto hback
  have hobstacle := ho.obstacle_of_wait? hw
  have hafter : r.world.Permits (.turn t) → w.stage ≠ .woken →
      (r.after (.turn t)).wait? m t = some (Wait.turn l.terms.strategy t w) :=
    fun hp => ho.wait_after hp hl hw
  obtain ⟨gate, signal, stage, backoff⟩ := w
  dsimp only at *
  refine ⟨?_, ?_, ?_, ?_, ?_, ?_⟩
  · rintro rfl
    exact hobstacle
  · rintro rfl hk
    rw [hafter hobstacle (by rintro ⟨⟩), Wait.turn, if_pos (hparks_iff.mpr hk)]
  · rintro rfl hk
    rw [hafter hobstacle (by rintro ⟨⟩)]
    have hyields := hwaited.yields_iff hauto hback hk
    simp only [Wait.turn, if_neg (mt hparks_iff.mp hk), ← hyields, Bool.decide_eq_true]
  · rintro rfl
    have hp : r.world.Permits (.turn t) := hobstacle
    have hwait' := hafter hp (by rintro ⟨⟩)
    refine ⟨hp, hwait', ?_⟩
    rw [(after_moves ho hp).2.obstacle_of_wait? hwait']
    simp [Wait.turn, Wait.obstacle, Signal.park]
  · rintro yields rfl
    have hpermits : r.world.Permits (.turn t) ↔ gate = none := by
      rw [World.Permits, hobstacle, Wait.obstacle]
      cases gate <;> simp
    refine ⟨hpermits, fun hfree => ?_⟩
    rw [hafter (hpermits.mpr hfree) (by rintro ⟨⟩), Wait.turn, hfree]
    rfl
  · intro hspin
    refine Bool.eq_false_iff.mpr fun hparking => ?_
    obtain ⟨_, -, -, hparks⟩ := hwaited.counts _ hback
    have hpark := hparks (.inr (by rwa [hstage]))
    rw [hspin] at hpark
    cases hpark

end

/-- In every run, whatever its callers do:

* of the waits of a call the one with the number `k`, counted from 0, parks in the condition
  variable iff the strategy, as it comes out on the host, is to block, or it is adaptive and `k` is
  at least the sum of both limits, cut at the largest step. Otherwise the mutex is given up, the
  backoff makes a step, and the mutex is taken again; and who spins never parks;
* a backoff that has made `k` steps since it was made, be it that of a wait, of a poll or of a
  hand-off, is seen to yield in the next one iff `k` is at least the limit of the spins, and is used
  up iff `k` is at least the sum of both limits, cut at the largest step;
* so it is for every fresh backoff, and one that is used up stays so. -/
theorem waits_follow_strategy {ok : Run → Event → Prop} {r : Run} {t : ThreadId} {m : Nat}
    (h : Reachable ok r) :
    (∀ c rest l w, r.world.Permits (.call t m c) →
      (r.after (.call t m c)).Plays (fun r _ => r.asked t ≠ none) rest →
      (r.play (.call t m c :: rest)).world.locks[m]? = some l →
      (r.play (.call t m c :: rest)).wait? m t = some w →
      (r.play (.call t m c :: rest)).FollowsStrategy t m l.terms
        (r.tally (Run.beginsWait m t) (.call t m c :: rest)) w) ∧
    (∀ e rest l b, r.world.Permits e → r.backoff? m t = none →
      (r.after e).Plays (fun r _ => (r.backoff? m t).isSome = true) rest →
      (r.play (e :: rest)).world.locks[m]? = some l →
      (r.play (e :: rest)).backoff? m t = some b →
      (∀ e', (r.play (e :: rest)).world.Permits e' →
        (r.play (e :: rest)).snoozes m t e' = true →
        ((((r.play (e :: rest)).after e').place m t).map Progress.place = some .yielding ↔
          l.terms.maxSpins.toNat ≤ r.tally (Run.snoozes m t) (e :: rest))) ∧
      (b.exhausted = true ↔
        min (l.terms.maxSpins.toNat + l.terms.maxYields.toNat) (2 ^ 32 - 1) ≤
          r.tally (Run.snoozes m t) (e :: rest))) ∧
    (∀ (c : Config) (k : Nat),
      ((Backoff.next^[k] (.ofConfig c)).yields = true ↔ c.maxSpins.toNat ≤ k) ∧
      ((Backoff.next^[k] (.ofConfig c)).exhausted = true ↔
        min (c.maxSpins.toNat + c.maxYields.toNat) (2 ^ 32 - 1) ≤ k)) ∧
    ∀ (b : Backoff) (k : Nat), b.exhausted = true → (Backoff.next^[k] b).exhausted = true := by
  have hreach : Reachable (fun _ _ => True) r := h.mono fun _ _ _ => trivial
  refine ⟨fun c rest l w hp hrest hl hw => ?_, fun e rest l b hp hnone hrest hl hb => ?_,
    fun c k => ⟨Backoff.yields_iterate c k, Backoff.exhausted_iterate c k⟩, fun b k hb => ?_⟩
  · have ho : (r.play (.call t m c :: rest)).Orderly :=
      ((hreach.step hp trivial).play (hrest.mono fun _ _ _ => trivial)).orderly
    exact (Run.Plays.hasWaited h hp hrest hl).follows ho hl hw
  · have ho : (r.play (e :: rest)).Orderly :=
      ((hreach.step hp trivial).play (hrest.mono fun _ _ _ => trivial)).orderly
    have hcount := Run.Plays.backoff_eq h hp hnone hrest hl hb
    refine ⟨fun e' hp' hsnoozes => ?_, ?_⟩
    · obtain ⟨p, hplace, -⟩ := Option.bind_eq_some_iff.mp hb
      obtain ⟨l', hl', -⟩ := Run.terms_after ho hp' hl
      rw [ho.yields_of_snoozes hp' hl' hb hsnoozes, hcount, Backoff.yields_iterate]
    · rw [hcount, Backoff.exhausted_iterate]
  · induction k with
    | zero => exact hb
    | succ k ih =>
      rw [Function.iterate_succ_apply']
      exact Backoff.exhausted_next ih

/-- A writer has a blocking lock whose callers spin once, yield once and then park. -/
def Run.adaptiveBusy : Run :=
  play {} [.make ⟨.blocking, false, false⟩ ⟨.adaptive, 1, 1⟩,
    .call 0 0 (.operate (.acquire .unique))]

/-- Another writer waits twice, and is about to wait for the third time. -/
def adaptiveTurns : List Event := List.replicate 7 (.turn 1)

/-- Of its waits number 0 has spun and number 1 has yielded. So number 2 parks, and the backoff,
which has made both steps since the first turn, is used up. -/
theorem waits_follow_strategy_adaptively :
    (((Run.adaptiveBusy.play (.call 1 0 (.operate (.acquire .unique)) :: adaptiveTurns)).after
        (.turn 1)).wait? 0 1).map (·.stage) = some .parking ∧
      (((Run.adaptiveBusy.after (.call 1 0 (.operate (.acquire .unique)))).play
        adaptiveTurns).backoff? 0 1).map Backoff.exhausted = some true := by
  have hr : Reachable (fun _ _ => True) Run.adaptiveBusy := Reachable.start.play (by decide +kernel)
  constructor
  · have hlock : (Run.adaptiveBusy.play
        (.call 1 0 (.operate (.acquire .unique)) :: adaptiveTurns)).world.locks[0]?.map
        Lock.terms = some ⟨.adaptive, 1, 1⟩ := by decide +kernel
    have hwait : ((Run.adaptiveBusy.play
        (.call 1 0 (.operate (.acquire .unique)) :: adaptiveTurns)).wait? 0 1).map (·.stage) =
        some .announced := by decide +kernel
    obtain ⟨l, hl, hterms⟩ := Option.map_eq_some_iff.mp hlock
    obtain ⟨w, hw, hstage⟩ := Option.map_eq_some_iff.mp hwait
    have hfollows := (waits_follow_strategy hr).1 (.operate (.acquire .unique)) adaptiveTurns l w
      (by decide +kernel) (by decide +kernel) hl hw
    have htally : Run.adaptiveBusy.tally (Run.beginsWait 0 1)
        (.call 1 0 (.operate (.acquire .unique)) :: adaptiveTurns) = 2 := by decide +kernel
    rw [hterms, htally] at hfollows
    rw [hfollows.parks hstage (.inr ⟨rfl, by decide⟩)]
    rfl
  · have hr' : Reachable (fun _ _ => True)
        (Run.adaptiveBusy.after (.call 1 0 (.operate (.acquire .unique)))) :=
      hr.step (by decide +kernel) trivial
    have hlock : ((Run.adaptiveBusy.after (.call 1 0 (.operate (.acquire .unique)))).play
        adaptiveTurns).world.locks[0]?.map Lock.terms = some ⟨.adaptive, 1, 1⟩ := by
      decide +kernel
    have hback : ((Run.adaptiveBusy.after (.call 1 0 (.operate (.acquire .unique)))).play
        adaptiveTurns).backoff? 0 1 = some ⟨2, 1, 1⟩ := by decide +kernel
    have htally : (Run.adaptiveBusy.after (.call 1 0 (.operate (.acquire .unique)))).tally
        (Run.snoozes 0 1) adaptiveTurns = 2 := by decide +kernel
    obtain ⟨l, hl, hterms⟩ := Option.map_eq_some_iff.mp hlock
    have hused := ((waits_follow_strategy hr').2.1 (.turn 1) (List.replicate 6 (.turn 1)) l _
      (by decide +kernel) (by decide +kernel) (by decide +kernel) hl hback).2
    rw [hterms, show Event.turn 1 :: List.replicate 6 (.turn 1) = adaptiveTurns from rfl,
      htally] at hused
    rw [hback, Option.map_some, hused.mpr (by decide)]

end ReaderWriter
