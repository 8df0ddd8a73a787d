import CobraProxy.Proofs.Admission

/-! The concurrent tunnels of an account: its one counter is the number of its live guards, in every
interleaving of calls and drops. -/

namespace Cobra

namespace AdmissionSystem

open Runs

/-- The live tunnel guards of the account. -/
def liveGuards (s : AdmissionSystem) (a : AccountId) : ℕ := s.guards.countP fun g => g.1 = a

/-- A compare-exchange on the state succeeded: it wrote the counter. -/
def exchanged (p : ℕ) : AdmissionSystem × AdmissionAct × AdmissionSystem → Bool
  | (s, .thread (.exchange _ q _ _), s') => q = p ∧ (s'.cell q).activeTunnels ≠ (s.cell q).activeTunnels
  | _ => false

/-- A guard of the state was dropped. -/
def dropped (p : ℕ) : AdmissionSystem × AdmissionAct × AdmissionSystem → Bool
  | (_, .drop _ q, _) => q = p
  | _ => false

/-- The counters of the entries count the live guards, and an exchange is tried only below the limit
that its call has read. -/
structure Counted (n : ℕ) (s : AdmissionSystem) : Prop where
  capacity : s.controller.maxCachedAccounts = n
  room : s.controller.states.size ≤ n
  counter : ∀ a p, s.controller.states.find a = some p → (s.cell p).activeTunnels = s.liveGuards a
  below : ∀ a p current limit, .exchange a p current limit ∈ s.threads → current < limit

variable {s s' : AdmissionSystem} {act : AdmissionAct} {th next : AdmissionThread} {n : ℕ}

theorem Counted.finish (h : Counted n s) : Counted n (s.finish th) :=
  ⟨h.capacity, h.room, h.counter,
    fun a p current limit hm => h.below a p current limit (List.mem_of_mem_erase hm)⟩

theorem Counted.moveOn (h : Counted n s)
    (hnext : ∀ a p current limit, next = .exchange a p current limit → current < limit) :
    Counted n (s.moveOn th next) := by
  refine ⟨h.capacity, h.room, h.counter, fun a p current limit hm => ?_⟩
  rcases List.mem_cons.1 hm with heq | hm
  · exact hnext a p current limit heq.symm
  · exact h.below a p current limit (List.mem_of_mem_erase hm)

theorem Counted.checkLimiter (h : Counted n s) (a : AccountId) (limiter : ℕ) :
    Counted n (s.checkLimiter a limiter) := by
  unfold AdmissionSystem.checkLimiter
  split
  · exact ⟨h.capacity, h.room, h.counter, h.below⟩
  · exact h

theorem cell_modifyState (p q : ℕ) (f : AccountAdmissionState → AccountAdmissionState) :
    (s.modifyState p f).cell q = if q = p then f (s.cell p) else s.cell q :=
  ArcCache.cells_modify f q

/-- The counter of one account and its guards change together. -/
theorem Counted.update (h : Counted n s) (hheld : Held s) {a : AccountId} {p : ℕ}
    (hp : s.controller.states.find a = some p) {f : AccountAdmissionState → AccountAdmissionState}
    {guards : List (AccountId × ℕ)}
    (hother : ∀ b ≠ a, guards.countP (fun g => g.1 = b) = s.liveGuards b)
    (hsame : (f (s.cell p)).activeTunnels = guards.countP fun g => g.1 = a) :
    Counted n { s.modifyState p f with guards } := by
  refine ⟨h.capacity, h.room, fun b q hq => ?_, h.below⟩
  have hq : s.controller.states.find b = some q := hq
  have hcell : cell { s.modifyState p f with guards } q = if q = p then f (s.cell p) else s.cell q :=
    cell_modifyState p q f
  rw [hcell]
  by_cases hqp : q = p
  · obtain rfl := hheld.inj b a p (hqp ▸ hq) hp
    rw [if_pos hqp, hsame]
    rfl
  · have hba : b ≠ a := by
      rintro rfl
      exact hqp (Option.some.inj (hq.symm.trans hp))
    rw [if_neg hqp, h.counter b q hq]
    exact (hother b hba).symm

theorem Counted.threadStep (h : Counted n s) (hheld : Held s) (hmem : th ∈ s.threads)
    (hs : ThreadStep s th s') : Counted n s' := by
  cases hs with
  | rate => exact h.moveOn (by simp)
  | limited a p limiter => exact (h.checkLimiter a limiter).finish
  | load => exact h.moveOn (by simp)
  | refuse => exact h.finish
  | below a p current hlt =>
    refine h.moveOn fun b q c l heq => ?_
    cases heq
    exact hlt
  | acquire a p current limit hcur =>
    have hp := hheld.held _ (mem_holders_of_mem hmem rfl)
    have hcount : current = s.liveGuards a := hcur.symm.trans (h.counter a p hp)
    show Counted n (AdmissionSystem.finish
      { s.modifyState p fun st => { st with activeTunnels := current + 1 } with guards := (a, p) :: s.guards }
      (.exchange a p current limit))
    refine Counted.finish (h.update hheld hp (fun b hb => ?_) ?_)
    · exact List.countP_cons_of_neg (by simpa using hb.symm)
    · rw [List.countP_cons_of_pos (by simp), hcount]
      rfl
  | retry => exact h.moveOn (by simp)
  | count => exact h.finish

/-- The section under the lock leaves every counter alone but that of a state it creates. -/
theorem activeTunnels_updateLimits (c : AccountAdmissionController) (state : ℕ) (limits : AccountLimits)
    (q : ℕ) : ((c.updateLimits state limits).states.cells q).activeTunnels =
      (c.states.cells q).activeTunnels := by
  unfold AccountAdmissionController.updateLimits
  split_ifs
  · rfl
  · dsimp only
    rw [ArcCache.cells_modify]
    split_ifs with hq
    · rw [hq]
    · rfl

theorem maxCachedAccounts_updateLimits (c : AccountAdmissionController) (state : ℕ) (limits : AccountLimits) :
    (c.updateLimits state limits).maxCachedAccounts = c.maxCachedAccounts := by
  unfold AccountAdmissionController.updateLimits
  split_ifs <;> rfl

theorem size_updateLimits (c : AccountAdmissionController) (state : ℕ) (limits : AccountLimits) :
    (c.updateLimits state limits).states.size = c.states.size := by
  unfold AccountAdmissionController.updateLimits
  split_ifs <;> rfl

/-- Entries that the section under the lock removes or adds have no live guard. -/
theorem Counted.lockSection (h : Counted n s) (hheld : Held s) {call : AdmissionCall} {a : AccountId}
    {limits : AccountLimits} {sequence : ℕ} {candidate : Option AccountId} (hc : s.isCandidate candidate) :
    Counted n (s.lockSection call a limits sequence candidate) := by
  unfold AdmissionSystem.lockSection
  have hstart : ∀ (controller : AccountAdmissionController) (state : ℕ),
      Counted n { s with controller } →
      Counted n (({ s with controller } : AdmissionSystem).moveOn (.enter call a limits sequence)
        (.start a state call)) := by
    intro controller state hcontroller
    refine hcontroller.moveOn fun b p current limit heq => ?_
    cases call <;> cases heq
  rcases s.controller.stateFor_cases a limits sequence candidate with
    ⟨state, hfind, heq⟩ | ⟨e, heq⟩ | ⟨hnone, states, hstates, heq⟩
  · rw [heq]
    apply hstart
    refine ⟨?_, ?_, fun b q hq => ?_, h.below⟩
    · exact (maxCachedAccounts_updateLimits s.controller state limits).trans h.capacity
    · exact (size_updateLimits s.controller state limits).le.trans h.room
    · have hb : s.controller.states.find b = some q :=
        (AccountAdmissionController.find_updateLimits state limits b).symm.trans hq
      refine Eq.trans ?_ (h.counter b q hb)
      rw [cell, ArcCache.cells_modify]
      split_ifs with hqs
      · rw [hqs]
        exact activeTunnels_updateLimits s.controller state limits state
      · exact activeTunnels_updateLimits s.controller state limits q
  · rw [heq]
    exact Counted.finish h
  · rw [heq]
    apply hstart
    have hstate : states.find a = none ∧ states.size + 1 ≤ n ∧ states.next = s.controller.states.next ∧
        states.cells = s.controller.states.cells ∧
        ∀ b q, states.find b = some q → s.controller.states.find b = some q := by
      rcases hstates with ⟨rfl, hroom⟩ | ⟨victim, rfl, rfl, hfull⟩
      · exact ⟨hnone, h.capacity ▸ hroom, rfl, rfl, fun _ _ hq => hq⟩
      · obtain ⟨ptr, hptr, -⟩ := hc
        refine ⟨by rw [ArcCache.find_remove, hnone, ite_self], ?_, rfl, rfl, fun b q hq => ?_⟩
        · have := h.room
          have := ArcCache.size_pos hptr
          rw [ArcCache.size_remove hptr]
          omega
        · rw [ArcCache.find_remove] at hq
          split_ifs at hq
          exact hq
    obtain ⟨hfree, hroom, hnext, hcells, hsub⟩ := hstate
    refine ⟨h.capacity, ?_, fun b q hq => ?_, h.below⟩
    · exact (ArcCache.size_create hfree).le.trans hroom
    · rw [AccountAdmissionController.states_createState, ArcCache.find_create] at hq
      rw [cell, AccountAdmissionController.states_createState, ArcCache.cells_create]
      split_ifs at hq with hba
      · rw [if_pos (Option.some.inj hq).symm, hba]
        refine (List.countP_eq_zero.2 fun g hg hga => ?_).symm
        -- a live guard of the account would be an entry of the map
        have hentry := hheld.held g (mem_holders.2 (.inr hg))
        rw [of_decide_eq_true hga, hnone] at hentry
        cases hentry
      · have hold := hsub b q hq
        rw [if_neg (ne_of_lt (hnext ▸ hheld.fresh b q hold)), hcells]
        exact h.counter b q hold

theorem Counted.step (h : Counted n s) (hheld : Held s) (hs : Step s act s') : Counted n s' := by
  cases hs with
  | wait => exact ⟨h.capacity, h.room, h.counter, h.below⟩
  | begin call a limits =>
    refine ⟨h.capacity, h.room, h.counter, fun b p current limit hm => ?_⟩
    rcases List.mem_cons.1 hm with heq | hm
    · cases heq
    · exact h.below b p current limit hm
  | lock call a limits sequence candidate hmem hc => exact h.lockSection hheld hc
  | thread hmem ht => exact h.threadStep hheld hmem ht
  | drop a p hmem =>
    have hp := hheld.held _ (mem_holders.2 (.inr hmem))
    refine h.update hheld hp (fun b hb => ?_) ?_
    · rw [List.countP_erase, if_neg fun hab => hb (of_decide_eq_true hab.2).symm]
      rfl
    · rw [List.countP_erase, if_pos ⟨hmem, by simp⟩, h.counter a p hp]
      rfl

/-- A successful exchange adds a guard of its state, a drop takes one away, and nothing else does. -/
theorem guards_step (hs : Step s act s') (p : ℕ) :
    (s'.guards.countP fun g => g.2 = p) + (if dropped p (s, act, s') then 1 else 0) =
      (s.guards.countP fun g => g.2 = p) + (if exchanged p (s, act, s') then 1 else 0) := by
  cases hs with
  | wait => rfl
  | begin => rfl
  | lock call a limits sequence candidate =>
    have hguards : (s.lockSection call a limits sequence candidate).guards = s.guards := by
      unfold lockSection
      dsimp only
      split <;> rfl
    rw [hguards]
    rfl
  | thread hmem ht =>
    cases ht with
    | acquire a q current limit hcur =>
      show (((a, q) :: s.guards).countP fun g => g.2 = p) + 0 = _ +
        if decide (q = p ∧ ((s.modifyState q fun st => { st with activeTunnels := current + 1 }).cell q).activeTunnels ≠
          (s.cell q).activeTunnels) then 1 else 0
      rw [cell_modifyState, if_pos rfl, List.countP_cons]
      simp [hcur]
    | retry a q current limit => simp [exchanged, dropped, moveOn, cell]
    | limited a q limiter =>
      have hguards : (s.checkLimiter a limiter).guards = s.guards := by
        unfold checkLimiter
        split <;> rfl
      exact congrArg (fun l => (l.countP fun g => g.2 = p) + 0) hguards
    | _ => rfl
  | drop a q hmem =>
    show ((s.guards.erase (a, q)).countP fun g => g.2 = p) + (if decide (q = p) then 1 else 0) = _ + 0
    rw [List.countP_erase]
    by_cases hq : q = p
    · have hpos : 0 < s.guards.countP fun g => g.2 = p := List.countP_pos_iff.2 ⟨_, hmem, by simpa using hq⟩
      rw [if_pos ⟨hmem, by simpa using hq⟩, if_pos (by simpa using hq)]
      omega
    · rw [if_neg (by simp [hq]), if_neg (by simpa using hq)]
      rfl

/-- The guards of an entry are the guards of its account. -/
theorem Held.guards_of_entry (h : Held s) {a : AccountId} {p : ℕ} (hp : s.controller.states.find a = some p) :
    (s.guards.countP fun g => g.2 = p) = s.liveGuards a := by
  refine List.countP_congr fun g hg => ?_
  have hentry := h.held g (mem_holders.2 (.inr hg))
  simp only [decide_eq_true_eq]
  constructor
  · rintro rfl
    exact h.inj g.1 a g.2 hentry hp
  · rintro rfl
    exact Option.some.inj (hentry.symm.trans hp)

/-- What the tunnel counters promise of a run. -/
structure TunnelsCounted (n : ℕ) (tr : List (AdmissionSystem × AdmissionAct)) (s : AdmissionSystem) : Prop where
  room : s.controller.states.size ≤ n
  guard : ∀ a p, (a, p) ∈ s.guards → s.controller.states.find a = some p
  counter : ∀ a p, s.controller.states.find a = some p → (s.cell p).activeTunnels = s.liveGuards a ∧
    (s.cell p).activeTunnels + (transitions tr s).countP (dropped p) = (transitions tr s).countP (exchanged p)
  drop : ∀ t t' a p, (t, .drop a p, t') ∈ transitions tr s →
    (t'.cell p).activeTunnels + 1 = (t.cell p).activeTunnels
  acquire : ∀ t t' a p current limit, (t, .thread (.exchange a p current limit), t') ∈ transitions tr s →
    exchanged p (t, .thread (.exchange a p current limit), t') → (t'.cell p).activeTunnels ≤ limit

theorem tunnels_ledger {s₀ : AdmissionSystem} {tr : List (AdmissionSystem × AdmissionAct)}
    (h : Run Step s₀ tr s) (h0 : s₀.guards = []) (p : ℕ) :
    (s.guards.countP fun g => g.2 = p) + (transitions tr s).countP (dropped p) =
      (transitions tr s).countP (exchanged p) := by
  induction h with
  | nil => rw [h0]; rfl
  | snoc _ hs ih =>
    have hstep := guards_step hs p
    rw [transitions_snoc, List.countP_append, List.countP_append, List.countP_singleton, List.countP_singleton]
    omega

end AdmissionSystem

open AdmissionSystem Runs

/-- In every interleaving the map stays within its capacity, a live guard refers to its account's entry,
the entry's counter is the exchanges that succeeded less the drops, which is the number of live guards, no
drop underflows it, and an exchange leaves it at most at the limit that its call has read. -/
theorem tunnels_counted {n : ℕ} {controller : AccountAdmissionController}
    (hnew : AccountAdmissionController.new n = .ok controller) {now : ℚ}
    {tr : List (AdmissionSystem × AdmissionAct)} {s : AdmissionSystem}
    (h : Run Step (init controller now) tr s) : TunnelsCounted n tr s := by
  have h0 : Held (init controller now) ∧ Counted n (init controller now) := by
    unfold AccountAdmissionController.new at hnew
    split_ifs at hnew
    cases hnew
    exact ⟨ArcCache.Coherent.empty _, rfl, Nat.zero_le _, by simp [init], by simp [init]⟩
  have hstep : ∀ s act s', Held s ∧ Counted n s → Step s act s' → Held s' ∧ Counted n s' :=
    fun s act s' hI hs => ⟨hI.1.step hs, hI.2.step hI.1 hs⟩
  obtain ⟨hheld, hcounted⟩ := h.invariant (I := fun s => Held s ∧ Counted n s) h0 hstep
  refine ⟨hcounted.room, fun a p hm => hheld.held _ (mem_holders.2 (.inr hm)), fun a p hp => ?_,
    fun t t' a p ht => ?_, fun t t' a p current limit ht hex => ?_⟩
  · have hcount := hcounted.counter a p hp
    refine ⟨hcount, ?_⟩
    rw [hcount, ← hheld.guards_of_entry hp]
    exact tunnels_ledger h rfl p
  · obtain ⟨⟨hheld, hcounted⟩, hs⟩ := h.of_mem_transitions (I := fun s => Held s ∧ Counted n s) h0 hstep ht
    cases hs with
    | drop _ _ hmem =>
      have hlive := hcounted.counter a p (hheld.held _ (mem_holders.2 (.inr hmem)))
      have hpos : 0 < t.liveGuards a := List.countP_pos_iff.2 ⟨_, hmem, by simp⟩
      show ((t.modifyState p _).cell p).activeTunnels + 1 = _
      rw [cell_modifyState, if_pos rfl]
      dsimp only
      omega
  · obtain ⟨⟨hheld, hcounted⟩, hs⟩ := h.of_mem_transitions (I := fun s => Held s ∧ Counted n s) h0 hstep ht
    cases hs with
    | thread hmem hts =>
      cases hts with
      | acquire =>
        show ((t.modifyState p _).cell p).activeTunnels ≤ limit
        rw [cell_modifyState, if_pos rfl]
        exact hcounted.below a p current limit hmem
      | retry => simp [exchanged, moveOn, cell] at hex

/-- An account opens the one tunnel it may have. -/
theorem tunnels_counted_single : ∃ controller tr s, AccountAdmissionController.new 1 = .ok controller ∧
    Run Step (init controller 0) tr s ∧ s.liveGuards (.ofNat 1) = 1 ∧ TunnelsCounted 1 tr s := by
  have hstart : Run Step (init _ 0) [] (init ⟨ArcCache.empty default, fun _ => requestLimiter default, 0, 1, 1⟩ 0) :=
    .nil
  have hlock := (hstart.snoc (.begin .tryAcquireTunnel (.ofNat 1) default)).snoc
    (.lock .tryAcquireTunnel (.ofNat 1) default 1 none (by decide +kernel) (by decide +kernel))
  have hload := hlock.snoc (.thread (by decide +kernel) (.load (.ofNat 1) 0))
  have hbelow := hload.snoc (.thread (by decide +kernel) (.below (.ofNat 1) 0 0 (by decide +kernel)))
  have hacquire := hbelow.snoc (.thread (by decide +kernel) (.acquire (.ofNat 1) 0 0 1 (by decide +kernel)))
  exact ⟨_, _, _, rfl, hacquire, by decide +kernel, tunnels_counted rfl hacquire⟩

end Cobra
