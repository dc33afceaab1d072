import ReaderWriter.Proofs.ClaimAndFlags

/-!
# Readers that come late

A writer that waits for a read-mostly lock has announced itself in the claim, and the claim is all
that keeps readers out who come later. Others set it to `no` as well: a writer that gives the unique
lock up, and a writer that does not wait and gives up. A writer that is parked then does not see to
its claim until it wakes, and meanwhile readers come in.

* `Run.Reopens`: what sets the claim to `no`.
* `readMostly_writer_first_until_reopened`: until then, no reader that comes later is let in.
* `late_reader_overtakes_writer`: but after that, one is.
-/

namespace ReaderWriter

open ReadMostly (Pc Site)

/-! ## The claim keeps readers out -/

namespace ReadMostly

variable {sc : Scene} {s s' : Site} {job : Job} {stand : Stand Pc} {gain : Option Mode} {f : Flag}
  {p : Patience} {b : Backoff}

theorem Landing.shut {c : Claim} (h : Landing f p c stand gain) (hclaim : c ≠ .no) :
    gain ≠ some .shared ∧ stand ≠ .here .fastPath := by
  cases h with
  | fastPath | granted => exact absurd rfl hclaim
  | contended | refused => exact ⟨nofun, nofun⟩

theorem Look.shut (h : Look f b s s' stand gain) (hclaim : s.lock.claim ≠ .no) :
    gain ≠ some .shared ∧ stand ≠ .here .fastPath := by
  cases h with
  | granted hno => exact absurd hno hclaim
  | wanted | taken => exact ⟨nofun, nofun⟩

/-- While the claim is not `no`, nobody passes it, and only who has passed it before is granted a
shared lock. -/
theorem Transition.shut (h : Transition sc s job s' stand gain) (hclaim : s.lock.claim ≠ .no)
    (hjob : job ≠ .from .fastPath) : gain ≠ some .shared ∧ stand ≠ .here .fastPath := by
  cases h with
  | arrive _ _ hland => exact hland.shut hclaim
  | enlisted hland => exact hland.shut hclaim
  | look _ _ _ hlook => exact hlook.shut hclaim
  | lookAgain hlook => exact hlook.shut hclaim
  | enjoy => exact absurd rfl hjob
  | noNodes _ _ hplace =>
    refine ⟨nofun, fun h => ?_⟩
    rw [h] at hplace
    cases hplace
  | read h | readLater h | write h | writeLater h | await h | notify _ h | notifyLater h =>
    refine ⟨nofun, ?_⟩
    cases h <;> nofun
  | _ => exact ⟨nofun, nofun⟩

/-- The claim becomes `no` only when the unique lock is released or a writer that does not wait
gives up. -/
theorem Transition.claim_stays (h : Transition sc s job s' stand gain)
    (hclaim : s.lock.claim ≠ .no) (hrelease : job ≠ .start (.release .unique))
    (hrefused : job ≠ .from .refused) : s'.lock.claim ≠ .no := by
  cases h with
  | claim | claimHastily | reclaim | succeed => exact nofun
  | release => exact absurd rfl hrelease
  | unclaim => exact absurd rfl hrefused
  | look _ _ _ hlook => cases hlook <;> exact hclaim
  | lookAgain hlook => cases hlook <;> exact hclaim
  | _ => exact hclaim

/-- Who is seen about to wait for the readers is. -/
theorem Pc.eq_draining_of_seen {pc : Pc} (h : pc.place = .location .uniqueWait) :
    ∃ told b, pc = .draining told .announced b := by
  cases pc with
  | draining told stage b =>
    obtain ⟨rfl, -⟩ | ⟨-, ⟨⟩⟩ | ⟨-, ⟨⟩⟩ | ⟨-, ⟨⟩⟩ := Wait.Stage.place_eq_location h
    exact ⟨told, b, rfl⟩
  | scanning _ a | counting a => cases a <;> cases h
  | registering _ _ e | departing _ _ e => cases e <;> cases h
  | reopening _ n | passingOn _ n | prodding _ _ n => cases n <;> cases h
  | waiting =>
    obtain ⟨-, ⟨⟩⟩ | ⟨-, ⟨⟩⟩ | ⟨-, ⟨⟩⟩ | ⟨-, ⟨⟩⟩ := Wait.Stage.place_eq_location h
  | handingOff why stage _ =>
    cases stage with
    | begun | finished => cases why <;> cases h
    | checking a | rechecking a => cases a <;> cases h
    | prodding n => cases n <;> cases why <;> cases h
    | snoozing yields => cases yields <;> cases h
  | _ => cases h

end ReadMostly

/-! ## What reopens the lock -/

namespace Run

variable {r r' : Run} {e : Event} {t u : ThreadId} {m n : Nat} {l : Lock} {job : Job}
  {op : Operation} {s : ReadMostly.State}

/-- The event sets the claim of the read-mostly lock at an index to `no`: a release of the unique
lock begins, or a writer that does not wait takes its claim back. -/
def Reopens (m : Nat) (r : Run) : Event → Prop
  | .call _ m' c => m' = m ∧ c.releases? = some .unique
  | .turn t => r.place m t = some (.readMostly .refused)
  | _ => False

instance (m : Nat) (r : Run) : (e : Event) → Decidable (r.Reopens m e)
  | .call _ _ _ => inferInstanceAs (Decidable (_ ∧ _))
  | .turn _ => inferInstanceAs (Decidable (_ = _))
  | .exit _ | .wake _ | .advance _ | .make _ _ => .isFalse id

/-- The event leaves the claim to the writers that wait. -/
def KeepsClosed (m : Nat) (r : Run) (e : Event) : Prop := ¬ r.Reopens m e

instance (m : Nat) (r : Run) (e : Event) : Decidable (r.KeepsClosed m e) :=
  inferInstanceAs (Decidable (¬ _))

/-- The claim of the read-mostly lock at an index is not `no`. -/
def IsClaimed (r : Run) (m : Nat) : Prop := ∃ s, r.world.ReadMostlyAt m s ∧ s.claim ≠ .no

/-- A thread has passed the claim of the read-mostly lock at an index, and has a shared lock
next. -/
def IsLetIn (r : Run) (u : ThreadId) (m : Nat) : Prop :=
  r.place m u = some (.readMostly .fastPath)

instance (r : Run) (u : ThreadId) (m : Nat) : Decidable (r.IsLetIn u m) :=
  inferInstanceAs (Decidable (_ = _))

theorem IsClaimed.congr (h : r.IsClaimed m) (hlock : r'.world.locks[m]? = r.world.locks[m]?) :
    r'.IsClaimed m := by
  obtain ⟨s, ⟨l, hl, hs⟩, hclaim⟩ := h
  exact ⟨s, ⟨l, hlock.trans hl, hs⟩, hclaim⟩

/-- A job of a call that sets the claim to `no` reopens the lock. -/
theorem reopens_of_operates (h : Operates r e r' t m l job op)
    (hjob : job = .start (.release .unique) ∨ job = .from .refused) : r.Reopens m e := by
  rcases hjob with hjob | hjob
  · have hop : Operation.release .unique = op := by
      have hserves := h.serves
      rwa [hjob] at hserves
    subst hop
    rcases h.called _ hjob with ⟨c, rfl, -, hreleases⟩ | ⟨-, -, -, hreleases, -⟩
    · exact ⟨rfl, hreleases⟩
    · cases hreleases
  · rw [h.turned _ hjob]
    exact h.place_self.trans (by rw [hjob]; rfl)

/-- What a move is to a read-mostly lock: a job of some thread, or nothing that the claim or a place
shows. -/
inductive Concerns (r r' : Run) (e : Event) (m : Nat) (s : ReadMostly.State) : Prop
  | acts {t : ThreadId} {job : Job} {site : Site} {stand : Stand Pc} {gain : Option Mode} :
      Acts r r' t m s job site stand gain →
      (job = .start (.release .unique) ∨ job = .from .refused → r.Reopens m e) → Concerns r r' e m s
  | spares {s' : ReadMostly.State} : r'.world.ReadMostlyAt m s' → s'.claim = s.claim →
      (∀ u, r'.place m u = r.place m u ∨ r'.place m u = none) → Concerns r r' e m s

theorem concerns_of_move (hmove : Move r e r') (hl : r.world.locks[m]? = some l)
    (hs : l.body = .readMostly s) : Concerns r r' e m s := by
  have hsame : r'.world.locks[m]? = r.world.locks[m]? →
      (∀ u, r'.place m u = r.place m u ∨ r'.place m u = none) → Concerns r r' e m s :=
    fun hlock hplaces => .spares ⟨l, hlock.trans hl, hs⟩ rfl hplaces
  have hthreads : (∀ u, r'.world.thread u = r.world.thread u) →
      ∀ u, r'.place m u = r.place m u ∨ r'.place m u = none :=
    fun h u => .inl (place_congr (h u))
  have hlt : m < r.world.locks.length := (List.getElem?_eq_some_iff.mp hl).1
  cases hmove with
  | @operate t n l' job op h =>
    by_cases hn : m = n
    · subst hn
      cases hl.symm.trans h.lock
      obtain ⟨site, stand, hacts, -⟩ := h.acts hs
      exact .acts hacts (reopens_of_operates h)
    · exact hsame (h.lock_of_ne hn) fun u => .inl (h.place_of_ne_lock hn u)
  | @depart t n l' job h =>
    by_cases hn : m = n
    · subst hn
      cases hl.symm.trans h.lock
      obtain ⟨site, stand, hacts, -⟩ := h.acts hs
      refine .acts hacts fun hjob => ?_
      have hdeparts := h.departs
      rcases hjob with rfl | rfl <;> exact hdeparts.elim
    · exact hsame (h.lock_of_ne hn) fun u => .inl (h.place_of_ne_lock hn u)
  | @shift t h =>
    refine hsame (by rw [h.locks]) fun u => ?_
    by_cases hu : u = t
    · subst hu
      exact .inr (by simp [place, h.stint'])
    · exact .inl (place_congr (h.others u hu))
  | @drop n l' h =>
    have hl' := ((r.world.lock?_eq_some n).mp h.lock).1
    by_cases hn : n = m
    · subst hn
      cases hl.symm.trans hl'
      exact .spares ⟨_, h.lock_self, hs⟩ rfl (hthreads h.threads)
    · exact hsame (h.lock_of_ne (Ne.symm hn)) (hthreads h.threads)
  | @wake t h =>
    refine .spares ⟨{ l with body := .readMostly (ReadMostly.wake t s) }, ?_, rfl⟩ rfl
      (hthreads h.threads)
    rw [h.locks, List.getElem?_map, hl, Option.map_some, World.wakeIn, hs]
  | make h =>
    refine hsame ?_ (hthreads h.threads)
    rw [h.locks, World.addLock, List.getElem?_append_left hlt]
  | rest h => exact hsame (by rw [h.locks]) (hthreads h.threads)

/-- The claim is not `no` until something reopens the lock. -/
theorem IsClaimed.of_move (h : r.IsClaimed m) (hmove : Move r e r') (hclosed : r.KeepsClosed m e) :
    r'.IsClaimed m := by
  obtain ⟨s, ⟨l, hl, hs⟩, hclaim⟩ := h
  cases concerns_of_move hmove hl hs with
  | acts hacts hreopens =>
    exact ⟨_, hacts.after, hacts.table.claim_stays hclaim
      (fun hjob => hclosed (hreopens (.inl hjob))) fun hjob => hclosed (hreopens (.inr hjob))⟩
  | spares hs' hclaim' => exact ⟨_, hs', hclaim'.trans_ne hclaim⟩

theorem IsClaimed.of_dissolves (h : r.IsClaimed m) (hdis : Dissolves r r' n) : r'.IsClaimed m := by
  obtain ⟨s, ⟨l, hl, hs⟩, hclaim⟩ := h
  rcases hdis.lock_cases hl with hl' | ⟨-, s', hs', hl'⟩
  · exact ⟨s, ⟨l, hl', hs⟩, hclaim⟩
  · cases hs.symm.trans hs'
    exact ⟨_, ⟨_, hl', rfl⟩, hclaim⟩

/-- While the claim is not `no`, no thread passes it. -/
theorem not_isLetIn_of_move (hclaimed : r.IsClaimed m) (hmove : Move r e r')
    (hout : ¬ r.IsLetIn u m) : ¬ r'.IsLetIn u m := by
  obtain ⟨s, ⟨l, hl, hs⟩, hclaim⟩ := hclaimed
  cases concerns_of_move hmove hl hs with
  | @acts t job site stand gain hacts =>
    by_cases hu : u = t
    · subst hu
      have hjob : job ≠ .from .fastPath := by
        rintro rfl
        refine hout ?_
        simp [IsLetIn, place, hacts.stint, Job.pc?]
      have hstand : stand ≠ .here .fastPath := (hacts.table.shut hclaim hjob).2
      rw [IsLetIn, place, hacts.stint']
      cases stand with
      | here pc => simpa [Stand.place?] using hstand
      | done | fault => simp [Stand.place?]
    · exact fun hin => hout ((place_congr (hacts.others u hu)).symm.trans hin)
  | spares _ _ hplaces =>
    intro hin
    rcases hplaces u with heq | hnone
    · exact hout (heq.symm.trans hin)
    · cases hnone.symm.trans hin

/-- While the claim is not `no`, a thread that has not passed it is granted no shared lock. -/
theorem count_shared_of_move (hclaimed : r.IsClaimed m) (hmove : Move r e r')
    (hout : ¬ r.IsLetIn u m) :
    r'.holds.count ⟨u, m, .shared⟩ ≤ r.holds.count ⟨u, m, .shared⟩ := by
  obtain ⟨s, ⟨l, hl, hs⟩, hclaim⟩ := hclaimed
  refine count_hold_le_of_move hmove fun hop hgranted => ?_
  cases hl.symm.trans hop.lock
  obtain ⟨site, stand, hacts, hstand⟩ := hop.acts hs
  rw [hstand, Hold.granted?_lift] at hgranted
  refine (hacts.table.shut hclaim ?_).1 hgranted
  rintro rfl
  exact hout hop.place_self

/-! ## Step by step -/

/-- What an event leaves of a claim that is not `no`. -/
theorem IsClaimed.after (h : r.IsClaimed m) (ho : r.Orderly) (hp : r.world.Permits e)
    (hclosed : r.KeepsClosed m e) : (r.after e).IsClaimed m := by
  obtain ⟨⟨r₁, hmove, hrest⟩, -⟩ := after_moves ho hp
  have h₁ := h.of_move hmove hclosed
  rcases hrest with ⟨heq, -⟩ | ⟨n, -, hdis⟩
  · rwa [heq]
  · exact h₁.of_dissolves hdis

/-- Nobody passes a claim that is not `no`, and who has not passed it is granted no shared lock. -/
theorem IsClaimed.shuts (h : r.IsClaimed m) (ho : r.Orderly) (hp : r.world.Permits e)
    (hout : ¬ r.IsLetIn u m) : ¬ (r.after e).IsLetIn u m ∧
      (r.after e).holds.count ⟨u, m, .shared⟩ ≤ r.holds.count ⟨u, m, .shared⟩ := by
  obtain ⟨r₁, hmove, hthreads, -, hholds⟩ := exists_move_after ho hp
  have hout₁ := not_isLetIn_of_move h hmove hout
  refine ⟨fun hin => hout₁ ((place_congr (hthreads u)).symm.trans hin), ?_⟩
  rw [hholds]
  exact count_shared_of_move h hmove hout

/-- While nothing reopens the lock, the claim is not `no`, and who has not passed it does not. -/
theorem Leads.closed (hleads : r.Leads (KeepsClosed m) r') (ho : r.Orderly)
    (h : r.IsClaimed m) :
    r'.Orderly ∧ r'.IsClaimed m ∧ ∀ u, ¬ r.IsLetIn u m → ¬ r'.IsLetIn u m := by
  induction hleads with
  | refl => exact ⟨ho, h, fun _ => id⟩
  | step _ hp hclosed ih =>
    obtain ⟨ho', h', hout⟩ := ih
    exact ⟨(after_moves ho' hp).2, h'.after ho' hp hclosed,
      fun u hearly => (h'.shuts ho' hp (hout u hearly)).1⟩

end Run

/-! ## The main result -/

/-- A writer that is seen about to wait has announced itself. -/
theorem Reachable.isClaimed_of_seen {r : Run} {t : ThreadId} {m : Nat} {pc : ReadMostly.Pc}
    (h : Reachable (Run.Behaves m) r) (hplace : r.place m t = some (.readMostly pc))
    (hseen : pc.place = .location .uniqueWait) : r.IsClaimed m := by
  obtain ⟨told, b, rfl⟩ := ReadMostly.Pc.eq_draining_of_seen hseen
  rcases h.orderly.works_of_place hplace with ⟨-, -, -, l, -, -, -, hl, halg, -⟩ | ⟨hdeparts, -⟩
  · obtain ⟨s, hs⟩ := Body.exists_readMostly halg.symm
    have halive : r.world.isAlive m = true := (World.isAlive_iff _ _).mpr (.inl ⟨l, hl⟩)
    have hat : r.world.ReadMostlyAt m s := ⟨l, ((r.world.lock?_eq_some m).mp hl).1, hs⟩
    obtain ⟨-, hcrowd⟩ := h.readMostlyCrowd (fun _ _ h => h) halive s hat
    have hwant : s.claim = .want := hcrowd.guarded.fits t _ (Run.crowdPlace_of_place hplace)
    exact ⟨s, hat, by simp [hwant]⟩
  · exact hdeparts.elim

/-- In every run in which the lock's callers behave: a call on a read-mostly lock is seen about to
wait for the unique lock. From then on, until a release of the unique lock begins or a writer that
does not wait takes its claim back, no reader is let in that has not passed the claim before. A
thread that has not passed it at some moment of this time, such as one that has not called the lock
yet, is granted no shared lock afterwards, however it asks. -/
theorem readMostly_writer_first_until_reopened {r r₁ r₂ : Run} {e : Event} {t u : ThreadId}
    {m : Nat} {pc : ReadMostly.Pc} (h : Reachable (Run.Behaves m) r)
    (hplace : r.place m t = some (.readMostly pc)) (hseen : pc.place = .location .uniqueWait)
    (hleads : r.Leads (Run.KeepsClosed m) r₁) (hlate : ¬ r₁.IsLetIn u m)
    (hleads' : r₁.Leads (Run.KeepsClosed m) r₂) (hp : r₂.world.Permits e) :
    (r₂.after e).holds.count ⟨u, m, .shared⟩ ≤ r₂.holds.count ⟨u, m, .shared⟩ := by
  obtain ⟨ho₁, hclaimed₁, -⟩ := hleads.closed h.orderly (h.isClaimed_of_seen hplace hseen)
  obtain ⟨ho₂, hclaimed₂, hout⟩ := hleads'.closed ho₁ hclaimed₁
  exact (hclaimed₂.shuts ho₂ hp (hout u hlate)).2

/-- A reader has a read-mostly lock, and a writer that has found its flag up is about to wait. -/
def Run.readMostlyWriterComes : Run :=
  play {} [.make ⟨.readMostly .isolated, false, false⟩ .standard,
    .call 0 0 (.operate (.acquire .shared)), .turn 0, .turn 0, .turn 0,
    .call 1 0 (.operate (.acquire .unique)), .turn 1, .turn 1]

/-- A reader that comes while the writer waits is not let in. -/
theorem readMostly_writer_first_before_late_reader :
    (Run.readMostlyWriterComes.play [.turn 1, .turn 1, .call 2 0 (.operate (.tryAcquire .shared)),
      .turn 2, .turn 2]).holds.count ⟨2, 0, .shared⟩ = 0 := by
  have hr : Reachable (Run.Behaves 0) Run.readMostlyWriterComes :=
    Reachable.start.play (by decide +kernel)
  have hplace : Run.readMostlyWriterComes.place 0 1 =
      some (.readMostly (.draining true .announced (.ofConfig .standard))) := by
    decide +kernel
  have hparks : Run.readMostlyWriterComes.Leads (Run.KeepsClosed 0)
      (Run.readMostlyWriterComes.play [.turn 1, .turn 1]) :=
    Run.Leads.refl.play _ (by decide +kernel)
  have hcomes : (Run.readMostlyWriterComes.play [.turn 1, .turn 1]).Leads (Run.KeepsClosed 0)
      ((Run.readMostlyWriterComes.play [.turn 1, .turn 1]).play
        [.call 2 0 (.operate (.tryAcquire .shared)), .turn 2]) :=
    Run.Leads.refl.play _ (by decide +kernel)
  have hle := readMostly_writer_first_until_reopened (u := 2) (e := .turn 2) hr hplace rfl hparks
    (by decide +kernel) hcomes (by decide +kernel)
  refine Nat.le_zero.mp (Nat.le_trans hle ?_)
  decide +kernel

/-- The writer parks, another one tries to have the lock and gives up, and then a reader comes. -/
def Run.lateReader : List Event :=
  [.turn 1, .turn 1,
    .call 2 0 (.operate (.tryAcquire .unique)),
    .turn 2, .turn 2, .turn 2, .turn 2, .turn 2, .turn 2,
    .call 3 0 (.operate (.tryAcquire .shared)), .turn 3, .turn 3]

/-- The reader has the lock, though everyone behaves and the writer's call still waits. -/
theorem late_reader_overtakes_writer :
    Reachable (Run.Behaves 0) Run.readMostlyWriterComes ∧
      Run.readMostlyWriterComes.place 0 1 =
        some (.readMostly (.draining true .announced (.ofConfig .standard))) ∧
      Run.readMostlyWriterComes.asked 3 = none ∧
      Run.readMostlyWriterComes.Plays (fun r e => r.Behaves 0 e ∧ (r.after e).asked 1 ≠ none)
        Run.lateReader ∧
      ⟨3, 0, .shared⟩ ∈ (Run.readMostlyWriterComes.play Run.lateReader).holds :=
  ⟨Reachable.start.play (by decide +kernel), by decide +kernel, by decide +kernel,
    by decide +kernel, by decide +kernel⟩

end ReaderWriter
