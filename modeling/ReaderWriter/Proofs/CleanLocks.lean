import ReaderWriter.Proofs.MutualExclusion
import ReaderWriter.Proofs.ReadMostly.AtRest
import ReaderWriter.Proofs.WordsAtRest

/-!
# Clean locks

Whatever its callers have gone through, a lock on which nobody is shows who holds it, and nothing
else is left behind. From then on an operation that is run alone does what the two fields say, on
all three locks alike.

* `Run.IsClean`: nobody is on the lock, and it shows who holds it.
* `Run.Agrees`: an operation that is run alone does what the two fields say.
* `quietLock_agrees_with_fields`: in every run, a lock on which nobody is is clean, and its
  operations agree with its two fields.
-/

namespace ReaderWriter

/-! ## Callers who behave -/

namespace Run

/-- The callers of a lock behave. On a read-mostly lock a thread gives up what it holds itself, and
does not ask for a shared lock while it holds one. Another lock is only given up while it is held,
and its word always has room for one more reader. -/
def Conduct : Algorithm → Nat → Run → Event → Prop
  | .readMostly, m, r, e => r.ReleasesOwn m e ∧ r.AsksOnce m e
  | .blocking, m, r, e | .polling, m, r, e => r.ReleasesHeld m e ∧ r.HasRoom m e

instance (a : Algorithm) (m : Nat) (r : Run) (e : Event) : Decidable (r.Conduct a m e) := by
  cases a <;> unfold Conduct <;> infer_instance

/-- A thread that behaves may call the operation. -/
def MayCall (r : Run) (t : ThreadId) (m : Nat) (op : Operation) : Algorithm → Prop
  | .readMostly =>
      (∀ mode, op = .release mode → ⟨t, m, mode⟩ ∈ r.holds) ∧
        (op.acquires? = some .shared → ⟨t, m, .shared⟩ ∉ r.holds)
  | .blocking | .polling =>
      (∀ mode, op = .release mode → 0 < r.count m mode) ∧
        (op.acquires? = some .shared → r.count m .shared < maxSharedHolders.toNat)

/-! ## What is left behind -/

/-- The read-mostly lock at an index shows who holds it: the claim and the gate are those of the
holder of the unique lock, and of the flags those are up whose threads hold a shared lock. -/
structure ShowsHolders (r : Run) (m : Nat) (s : ReadMostly.State) : Prop where
  claim : s.claim = if (r.holding m).unique then .yes else .no
  gate : s.gate.isSome = (r.holding m).unique
  calm : s.IsCalm
  flags : ∀ t f, (m, f) ∈ (r.world.thread t).flags →
    f ∈ s.registry.entries ∧ (r.world.flags.isRaised f = true ↔ ⟨t, m, .shared⟩ ∈ r.holds)
  owners : ∀ f ∈ s.registry.entries, ∃ t, (m, f) ∈ (r.world.thread t).flags
  holders : ∀ t, ⟨t, m, .shared⟩ ∈ r.holds → ∃ f, (m, f) ∈ (r.world.thread t).flags

/-- Nobody is on the lock at an index, and it shows who holds it. Its word, if it has one, has no
wait bit. -/
def IsClean (r : Run) (m : Nat) : Prop :=
  r.world.IsQuiet m ∧ ∃ l, r.world.lock? m = some l ∧
    (∀ w, l.body.word? = some w →
      w.bits.toNat = 2 * (r.holding m).unique.toNat + 8 * (r.holding m).shared) ∧
    ∀ s, l.body = .readMostly s → r.ShowsHolders m s

/-- An operation that an idle thread calls and that is run alone does what the two fields say. -/
structure Agrees (r : Run) (t : ThreadId) (m : Nat) (op : Operation) : Prop where
  /-- If it need not wait it comes to its end, and does not wait. -/
  returns : ∀ {answer next}, (r.holding m).next? op = some (answer, next) →
    ∃ r', GoesAlone (fun r => ¬ r.Waits t) t r (.call t m (.operate op))
      (.replied (.ofAnswer answer)) r'
  /-- If it comes to its end, it has the answer of the two fields and leaves what they say. -/
  leaves : ∀ {f r'}, GoesAlone (fun _ => True) t r (.call t m (.operate op)) f r' →
    ∃ answer next, (r.holding m).next? op = some (answer, next) ∧
      f = .replied (.ofAnswer answer) ∧ r'.IsClean m ∧ r'.holding m = next

variable {r r' r₁ : Run} {e : Event} {t : ThreadId} {m : Nat} {l : Lock} {op : Operation}
  {answer : Answer} {next : Holding} {ok : Run → Event → Prop} {job : Job} {f : Finish}

/-- An operation agrees with the two fields if it returns when they let it through, and if one that
they keep waiting comes to no end. -/
theorem agrees_of (hheld : ∀ mode, op = .release mode → 0 < r.count m mode)
    (hreturns : ∀ answer next, (r.holding m).next? op = some (answer, next) →
      ∃ r', GoesAlone (fun r => ¬ r.Waits t) t r (.call t m (.operate op))
        (.replied (.ofAnswer answer)) r' ∧ r'.IsClean m ∧ r'.holding m = next)
    (hwaits : ∀ mode f r', op = .acquire mode → (r.holding m).next? op = none →
      ¬ GoesAlone (fun _ => True) t r (.call t m (.operate op)) f r') : r.Agrees t m op where
  returns hnext :=
    let ⟨r', halone, _⟩ := hreturns _ _ hnext
    ⟨r', halone⟩
  leaves {f r'} halone := by
    cases hnext : (r.holding m).next? op with
    | none =>
      obtain ⟨mode, hop⟩ := Holding.exists_of_next?_eq_none hnext hheld
      exact absurd halone (hwaits mode f r' hop hnext)
    | some result =>
      obtain ⟨answer, next⟩ := result
      obtain ⟨r'', halone', hclean, hholding⟩ := hreturns _ _ hnext
      obtain ⟨rfl, rfl⟩ := halone'.eq halone
      exact ⟨answer, next, rfl, rfl, hclean, hholding⟩

namespace Returns

/-- An operation that is answered as the two fields have it leaves what they say. -/
theorem holding_eq
    (h : Returns ok r t m op (.start op) (.replied (.ofAnswer answer)) r₁ e l job r')
    (hheld : ∀ mode, op = .release mode → 0 < r.count m mode) (hone : r.count m .unique ≤ 1)
    (hnext : (r.holding m).next? op = some (answer, next)) : r'.holding m = next := by
  rw [holding, h.count_eq hheld, h.stand_of_replied]
  exact Holding.of_answered hone hnext

/-- An acquisition that the two fields keep waiting is not granted, as two would have the lock then
who exclude each other. -/
theorem faulted_of_excludes {mode : Mode}
    (h : Returns ok r t m (.acquire mode) (.start (.acquire mode)) f r₁ e l job r')
    (hexcludes : r'.Excludes m) (hnext : (r.holding m).next? (.acquire mode) = none) :
    ∃ fault, f = .faulted fault := by
  have hserves := World.work_serves t h.operates.lock h.operates.suits h.operates.serves
  have hcount := h.count_eq nofun
  have hfinish := h.finish
  generalize (r₁.world.work t m job).stand = stand at hserves hcount hfinish
  cases stand with
  | here p => cases hfinish
  | fault fault => exact ⟨fault, (Option.some.inj hfinish).symm⟩
  | done answer =>
    obtain rfl : answer = .unit := hserves
    exact absurd hnext (Holding.excludes_of_next? hcount hexcludes.1 hexcludes.2)

end Returns

end Run

/-! ## Locks with a control word -/

section ControlWord

variable {State Pc : Type} {M : Machine State Pc} {a : Algorithm} {word : State → Word}
  {r r' : Run} {t : ThreadId} {m : Nat} {l : Lock} {s : State} {op : Operation} {answer : Answer}
  {next : Holding}

/-- Nobody is on a lock whose word shows who holds it. -/
theorem Run.IsClean.of_shows (hrests : M.RestsClean word) (hquiet : r.world.IsQuiet m)
    (hl : r.world.lock? m = some l) (hs : l.body = M.body s)
    (hshows : (word s).Shows (r.holding m)) : r.IsClean m := by
  refine ⟨hquiet, l, hl, fun w hw => ?_, fun s' hs' => ?_⟩
  · rw [hs, hrests.body] at hw
    cases hw
    exact hshows.bits_eq
  · have hw := hrests.body s
    rw [← hs, hs'] at hw
    cases hw

/-- If nobody is on the lock, its word shows who holds it. -/
theorem Reachable.wordShows (hM : M.Is a) (hcounts : M.CountsHolders word)
    (hrests : M.RestsClean word)
    (h : Reachable (fun r e => r.ReleasesHeld m e ∧ r.HasRoom m e) r)
    (hl : r.world.locks[m]? = some l) (hs : l.body = M.body s) (hquiet : r.world.IsQuiet m) :
    (word s).Shows (r.holding m) := by
  have hcrowd : M.Reachable (fun c => c.held .shared < maxSharedHolders.toNat) (r.crowd M m s) :=
    h.crowd hM (fun _ _ hok => ⟨hok.1, fun _ _ _ _ => hok.2⟩) l s hl hs
  refine (hcrowd.counts hcounts).shows (hrests.clean hcrowd fun t => ?_)
  simp only [Run.crowd, h.orderly.place_of_isQuiet hquiet t, Option.bind_none]

/-- If the word shows who holds the lock, an operation that need not wait ends in its first turn. -/
theorem Run.ends_of_shows (hM : M.Is a) (hrests : M.RestsClean word) (ho : r.Orderly)
    (hl : r.world.lock? m = some l) (hs : l.body = M.body s)
    (hshows : (word s).Shows (r.holding m)) (hidle : (r.world.thread t).activity = .idle)
    (hroom : op.acquires? = some .shared → r.count m .shared < maxSharedHolders.toNat)
    (hnext : (r.holding m).next? op = some (answer, next)) (meets : Run → Prop) :
    ∃ r' l' s', GoesAlone meets t r (.call t m (.operate op)) (.replied (.ofAnswer answer)) r' ∧
      r'.world.lock? m = some l' ∧ l'.body = M.body s' ∧ (word s').Shows next := by
  have hbound : r.Bound t m op (.call t m (.operate op)) (.start op) := .begins hidle
  have hp := hbound.permits (by rw [hl]; rfl) fun p hplace => nomatch hplace
  obtain ⟨l', hop, -, hfinish⟩ := hbound.operates ho hp
  have hl' := (World.lock?_eq_some _ _).mp hl
  cases hl'.1.symm.trans hop.lock
  obtain ⟨hlocks, hstand⟩ := hM.start r.world t m l s op hop.lock hs
  obtain ⟨hanswer, hshows'⟩ := hrests.answers hshows hroom hnext
  refine ⟨_, { l with body := M.body (M.start op s).state }, _, .ends hp ?_,
    (World.lock?_eq_some _ _).mpr ⟨hop.lock_of_locks hlocks, hop.owned⟩, rfl, hshows'⟩
  rw [hfinish, hstand, hanswer]
  rfl

/-- An acquisition that is run alone only fails if the word can count no more readers. -/
theorem Run.Returns.full_of_faulted (hM : M.Is a) (hcounts : M.CountsHolders word)
    (hrests : M.RestsClean word) {r₁ : Run} {e : Event} {mode : Mode} {f : Fault} {job : Job}
    (h : Returns (Run.ReleasesHeld m) r t m (.acquire mode) (.start (.acquire mode)) (.faulted f) r₁
      e l job r') (hs : l.body = M.body s) :
    mode = .shared ∧ maxSharedHolders.toNat ≤ r.count m .shared := by
  have hcrowd : M.Reachable (fun _ => True) (r₁.crowd M m s) :=
    h.before.crowd hM (fun _ _ hok => ⟨hok, fun _ _ _ _ => trivial⟩) l s h.operates.lock hs
  have hserves := h.operates.serves
  have hsuits := h.operates.suits
  have hbegun := h.begun
  have hfinish := h.finish
  have hheld : r₁.holds = r.holds → (word s).fields.holders = r.count m .shared := by
    intro heq
    have hcount : r₁.count m .shared = (word s).fields.holders := (hcrowd.counts hcounts).shared
    rw [← hcount, Run.count, heq]
    rfl
  cases job with
  | start op =>
    obtain rfl : op = .acquire mode := hserves
    obtain ⟨-, hstand⟩ := hM.start r₁.world t m l s (.acquire mode) h.operates.lock hs
    rw [hstand] at hfinish
    rw [← hheld hbegun]
    exact hrests.startFails (Stand.eq_fault_of_lift hfinish)
  | resume p =>
    obtain ⟨pc, rfl⟩ := hM.exists_progress p (by
      rw [hs] at hsuits
      exact Eq.trans hsuits (hM.body_algorithm s))
    obtain ⟨-, hstand, -⟩ := hM.resume r₁.world t m l s pc h.operates.lock hs
    rw [hstand] at hfinish
    rw [← hheld hbegun]
    exact hrests.resumeFails ((hM.serves _ _).mp hserves) (Stand.eq_fault_of_lift hfinish)
  | depart f => exact hserves.elim

theorem Reachable.excludes_of_word (hM : M.Is a) (hcounts : M.CountsHolders word)
    (h : Reachable (Run.ReleasesHeld m) r) (hl : r.world.locks[m]? = some l)
    (halg : l.body.algorithm = a) : r.Excludes m := by
  obtain ⟨s, hs⟩ := hM.exists_body l.body halg
  have hcrowd : M.Reachable (fun _ => True) (r.crowd M m s) :=
    h.crowd hM (fun _ _ hok => ⟨hok, fun _ _ _ _ => trivial⟩) l s hl hs
  have hw : (word s).Counts (r.count m) := hcrowd.counts hcounts
  rw [Run.Excludes, hw.unique, hw.shared]
  cases hlocked : (word s).fields.uniqueLocked with
  | true => simp [hw.apart hlocked]
  | false => simp

/-- Every operation on a lock whose word shows who holds it agrees with the two fields. -/
theorem Reachable.agrees_of_shows (hM : M.Is a) (hcounts : M.CountsHolders word)
    (hrests : M.RestsClean word) (h : Reachable (Run.ReleasesHeld m) r)
    (hl : r.world.lock? m = some l) (hs : l.body = M.body s)
    (hshows : (word s).Shows (r.holding m)) (hquiet : r.world.IsQuiet m)
    (hidle : (r.world.thread t).activity = .idle)
    (hheld : ∀ mode, op = .release mode → 0 < r.count m mode)
    (hroom : op.acquires? = some .shared → r.count m .shared < maxSharedHolders.toNat) :
    r.Agrees t m op := by
  have hl' := (World.lock?_eq_some _ _).mp hl
  have halg : l.body.algorithm = a := by
    rw [hs]
    exact hM.body_algorithm s
  have hreturns : ∀ {meets f r'}, Run.GoesAlone meets t r (.call t m (.operate op)) f r' →
      ∃ r₁ e l job, Run.Returns (Run.ReleasesHeld m) r t m op (.start op) f r₁ e l job r' :=
    fun halone => halone.returns (fun _ _ _ => trivial) (.begins hidle) h
      fun _ mode hmode => hheld mode (Call.eq_release_of_mem hmode)
  have hexcludes := h.excludes_of_word hM hcounts hl'.1 halg
  refine Run.agrees_of hheld (fun answer next hnext => ?_) fun mode f r' hop hnext halone => ?_
  · obtain ⟨r', l', s', halone, hlock, hbody, hshows'⟩ :=
      Run.ends_of_shows hM hrests h.orderly hl hs hshows hidle hroom hnext _
    obtain ⟨r₁, e, l₁, job, hr⟩ := hreturns halone
    have hholding := hr.holding_eq hheld hexcludes.1 hnext
    rw [← hholding] at hshows'
    exact ⟨r', halone, .of_shows hrests (hr.isQuiet hquiet) hlock hbody hshows', hholding⟩
  · -- It would be granted the lock beside somebody else, or fail for want of room.
    obtain ⟨r₁, e, l₁, job, hr⟩ := hreturns halone
    obtain ⟨l', hlock, halg'⟩ := hr.exists_lock hl'.1
    have hexcludes' := hr.after.excludes_of_word hM hcounts
      ((World.lock?_eq_some _ _).mp hlock).1 (halg'.trans halg)
    obtain ⟨s₁, hs₁⟩ := hM.exists_body l₁.body ((hr.algorithm l hl'.1).trans halg)
    subst hop
    obtain ⟨fault, rfl⟩ := hr.faulted_of_excludes hexcludes' hnext
    obtain ⟨rfl, hfull⟩ := hr.full_of_faulted hM hcounts hrests hs₁
    exact absurd (hroom rfl) (Nat.not_lt_of_le hfull)

/-- If nobody is on a lock with a control word, the lock is clean, and every operation agrees with
the two fields. -/
theorem Reachable.clean_controlWord (hM : M.Is a) (hcounts : M.CountsHolders word)
    (hrests : M.RestsClean word)
    (h : Reachable (fun r e => r.ReleasesHeld m e ∧ r.HasRoom m e) r)
    (hl : r.world.lock? m = some l) (halg : l.body.algorithm = a) (hquiet : r.world.IsQuiet m) :
    r.IsClean m ∧ ∀ t op, (r.world.thread t).activity = .idle →
      (∀ mode, op = .release mode → 0 < r.count m mode) →
      (op.acquires? = some .shared → r.count m .shared < maxSharedHolders.toNat) →
      r.Agrees t m op := by
  obtain ⟨s, hs⟩ := hM.exists_body l.body halg
  have hshows := h.wordShows hM hcounts hrests ((World.lock?_eq_some _ _).mp hl).1 hs hquiet
  have hreach : Reachable (Run.ReleasesHeld m) r := h.mono fun _ _ hok => hok.1
  exact ⟨.of_shows hrests hquiet hl hs hshows, fun t op hidle hheld hroom =>
    hreach.agrees_of_shows hM hcounts hrests hl hs hshows hquiet hidle hheld hroom⟩

end ControlWord

/-! ## Read-mostly locks -/

section ReadMostly

variable {r r' : Run} {t : ThreadId} {m : Nat} {l : Lock} {s : ReadMostly.State} {op : Operation}

/-- If nobody is on a read-mostly lock, it shows who holds it. -/
theorem Reachable.showsHolders (h : Reachable (Run.Behaves m) r) (halive : r.world.isAlive m = true)
    (hs : r.world.ReadMostlyAt m s) (hquiet : r.world.IsQuiet m) : r.ShowsHolders m s := by
  have howns := h.owns fun _ _ hok => hok.2.2
  obtain ⟨hclear, hcrowd⟩ := h.readMostlyCrowd (fun _ _ h => h) halive s hs
  have hguarded := hcrowd.guarded
  have hnobody : (r.readMostlyCrowd m s).IsQuiet := h.orderly.crowd_isQuiet hquiet
  refine ⟨?_, ?_, hnobody.isCalm hcrowd.attended hcrowd.marked, fun t f hf => ?_, fun f hf => ?_,
    fun t hheld => ?_⟩
  · rw [← Run.crowd_holding]
    exact hnobody.claim_eq hguarded hcrowd.attended hcrowd.vouched
  · rw [← Run.crowd_holding]
    exact hnobody.gate_eq hguarded
  · have hflag : (r.readMostlyCrowd m s).flag t = some f := howns.flag_iff.mpr hf
    refine ⟨(hclear.listed f).mpr ⟨t, hflag, by rw [hnobody t]; rfl⟩, ?_⟩
    exact (hnobody.isRaised_iff hguarded hflag).trans Hold.mem_holders
  · obtain ⟨t, hflag, -⟩ := (hclear.listed f).mp hf
    exact ⟨t, howns.flag_iff.mp hflag⟩
  · obtain ⟨f, hf⟩ :=
      Option.ne_none_iff_exists'.mp (hguarded.flagged t (.inl (Hold.mem_holders.mpr hheld)))
    exact ⟨f, howns.flag_iff.mp hf⟩

/-- If nobody is on a read-mostly lock, it is clean. -/
theorem Reachable.isClean_readMostly (h : Reachable (Run.Behaves m) r)
    (hl : r.world.lock? m = some l) (halg : l.body.algorithm = .readMostly)
    (hquiet : r.world.IsQuiet m) : r.IsClean m := by
  have halive : r.world.isAlive m = true := (World.isAlive_iff _ _).mpr (.inl ⟨l, hl⟩)
  refine ⟨hquiet, l, hl, fun w hw => ?_, fun s hs => ?_⟩
  · obtain ⟨s, hs⟩ := Body.exists_readMostly halg
    rw [hs] at hw
    cases hw
  · exact h.showsHolders halive ⟨l, ((World.lock?_eq_some _ _).mp hl).1, hs⟩ hquiet

/-- Every operation on a read-mostly lock on which nobody is agrees with the two fields. -/
theorem Reachable.agrees_readMostly (h : Reachable (Run.Behaves m) r) (hown : r.world.OwnSupplies)
    (hcall : r.Behaves m (.call t m (.operate op))) (hl : r.world.lock? m = some l)
    (halg : l.body.algorithm = .readMostly) (hquiet : r.world.IsQuiet m)
    (hidle : (r.world.thread t).activity = .idle) : r.Agrees t m op := by
  obtain ⟨s, hs⟩ := Body.exists_readMostly halg
  have hl' := (World.lock?_eq_some _ _).mp hl
  have hgivesOwn : ∀ mode, op = .release mode → ⟨t, m, mode⟩ ∈ r.holds := by
    rintro mode rfl
    exact hcall.1 rfl mode rfl
  have hheld : ∀ mode, op = .release mode → 0 < r.count m mode := fun mode hop =>
    List.countP_pos_iff.mpr ⟨_, hgivesOwn mode hop, by simp⟩
  have hreturns : ∀ {meets f r'}, Run.GoesAlone meets t r (.call t m (.operate op)) f r' →
      ∃ r₁ e l job, Run.Returns (Run.Behaves m) r t m op (.start op) f r₁ e l job r' := by
    refine fun halone => halone.returns (fun r p hbound => ?_) (.begins hidle) h hcall
    cases hbound with
    | goes hact =>
      refine ⟨trivial, trivial, fun hstint => ?_⟩
      simp [Thread.stint?, hact] at hstint
  refine Run.agrees_of hheld (fun answer next hnext => ?_) fun mode f r' hop hnext halone => ?_
  · obtain ⟨r', halone⟩ := h.goesAlone_readMostly hl hs (hown m s ⟨l, hl'.1, hs⟩) hquiet hidle
      (hgivesOwn .shared) hnext
    obtain ⟨r₁, e, l₁, job, hr⟩ := hreturns halone
    obtain ⟨l', hlock, halg'⟩ := hr.exists_lock hl'.1
    exact ⟨r', halone,
      hr.after.isClean_readMostly hlock (halg'.trans halg) (hr.isQuiet hquiet),
      hr.holding_eq hheld (h.excludes hl'.1 halg).1 hnext⟩
  · -- It would be granted the lock beside somebody else, or fail for want of a flag.
    obtain ⟨r₁, e, l₁, job, hr⟩ := hreturns halone
    obtain ⟨l', hlock, halg'⟩ := hr.exists_lock hl'.1
    obtain ⟨s₁, hs₁⟩ := Body.exists_readMostly ((hr.algorithm l hl'.1).trans halg)
    subst hop
    obtain ⟨fault, rfl⟩ := hr.faulted_of_excludes
      (hr.after.excludes ((World.lock?_eq_some _ _).mp hlock).1 (halg'.trans halg)) hnext
    exact hr.not_faulted hs₁ hown

end ReadMostly

/-! ## In every run -/

/-- In every run in which the callers of a lock behave, of whichever algorithm it is and however it
is configured, the lock is clean when nobody is on it:

* its control word is twice the number of unique holders and eight times that of the shared ones, so
  that no wait bit is set;
* the claim of a read-mostly lock is `yes` or `no`, as the unique lock is held or not, and the flag
  of a registered thread is up iff the thread holds the lock.

And from then on every operation that is run alone by a thread that may call it does what the two
fields of the lock say: if it need not wait it comes back, without having waited, and whenever it
comes back it has the answer of the fields, and leaves the lock clean, with the fields that
follow. -/
theorem quietLock_agrees_with_fields {a : Algorithm} {r : Run} {m : Nat} {l : Lock}
    (h : Reachable (Run.Conduct a m) r) (hl : r.world.lock? m = some l)
    (halg : l.body.algorithm = a) (hown : a = .readMostly → r.world.OwnSupplies)
    (hquiet : r.world.IsQuiet m) :
    r.IsClean m ∧ ∀ t op, (r.world.thread t).activity = .idle → r.MayCall t m op a →
      r.Agrees t m op := by
  cases a with
  | blocking =>
    obtain ⟨hclean, hagrees⟩ := h.clean_controlWord Blocking.machine_is
      Blocking.machine_countsHolders Blocking.machine_restsClean hl halg hquiet
    exact ⟨hclean, fun t op hidle hmay => hagrees t op hidle hmay.1 hmay.2⟩
  | polling =>
    obtain ⟨hclean, hagrees⟩ := h.clean_controlWord Polling.machine_is
      Polling.machine_countsHolders Polling.machine_restsClean hl halg hquiet
    exact ⟨hclean, fun t op hidle hmay => hagrees t op hidle hmay.1 hmay.2⟩
  | readMostly =>
    obtain ⟨hfresh, hsupplied⟩ := h.handsOutFresh (hown rfl)
    have hreach : Reachable (Run.Behaves m) r :=
      hfresh.mono fun _ _ hok => ⟨hok.1.1, hok.1.2, hok.2⟩
    refine ⟨hreach.isClean_readMostly hl halg hquiet, fun t op hidle hmay => ?_⟩
    have hp : r.world.Permits (.call t m (.operate op)) :=
      Run.Bound.permits (.begins hidle) (by rw [hl]; rfl) fun p hplace => nomatch hplace
    have hcall : r.Behaves m (.call t m (.operate op)) := by
      refine ⟨fun _ mode hmode => hmay.1 mode (Call.eq_release_of_mem hmode),
        fun _ hacquires => hmay.2 ?_,
        Run.handsOutFresh_of_own hreach.orderly hp (hown rfl) hsupplied⟩
      rwa [(Call.Performs.operate op).acquires?_eq] at hacquires
    exact hreach.agrees_readMostly (hown rfl) hcall hl halg hquiet hidle

/-- A reader and a writer have met on a read-mostly lock, and the reader has made way. -/
def Run.readerMadeWay : Run :=
  play {} [.make ⟨.readMostly .packed, false, false⟩ .longWait,
    .call 0 0 (.operate (.acquire .shared)), .turn 0, .turn 0, .turn 0,
    .call 1 0 (.operate (.acquire .unique)), .turn 1, .turn 1, .turn 1, .turn 1,
    .call 0 0 (.operate (.release .shared)), .turn 0, .turn 0, .turn 0, .turn 0,
    .turn 1, .turn 1, .turn 1, .turn 1, .turn 1, .turn 1, .turn 0, .turn 0]

/-- The lock is clean then, and sends the reader away at once if it comes back. -/
theorem quietLock_agrees_after_meeting :
    Run.readerMadeWay.IsClean 0 ∧
      ∃ r', Run.GoesAlone (fun r => ¬ r.Waits 0) 0 Run.readerMadeWay
        (.call 0 0 (.operate (.tryAcquire .shared))) (.replied (.truth false)) r' := by
  have hr : Reachable (Run.Conduct .readMostly 0) Run.readerMadeWay :=
    Reachable.start.play (by decide +kernel)
  have halg : (Run.readerMadeWay.world.lock? 0).map (·.body.algorithm) = some .readMostly := by
    decide +kernel
  obtain ⟨l, hl, halg⟩ := Option.map_eq_some_iff.mp halg
  obtain ⟨hclean, hagrees⟩ :=
    quietLock_agrees_with_fields hr hl halg (fun _ => by decide +kernel) (by decide +kernel)
  have hmay : Run.readerMadeWay.MayCall 0 0 (.tryAcquire .shared) .readMostly :=
    ⟨nofun, fun _ => by decide +kernel⟩
  have hnext : (Run.readerMadeWay.holding 0).next? (.tryAcquire .shared) =
      some (.granted false, ⟨true, 0⟩) := by
    decide +kernel
  exact ⟨hclean, (hagrees 0 _ (by decide +kernel) hmay).returns hnext⟩

end ReaderWriter
