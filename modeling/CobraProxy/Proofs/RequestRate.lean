import CobraProxy.Proofs.Admission

/-! The rate of accepted requests. A limiter keeps an account within its burst and rate for as long
as the account's state lives; a state that is evicted and created again starts with a full limiter,
so the bound survives eviction only where the old limiter was full again by then. -/

namespace Cobra

namespace AdmissionSystem

/-- The section under the lock is about to create a state for the account. -/
def creates (s : AdmissionSystem) (a : AccountId) (candidate : Option AccountId) : Prop :=
  s.controller.states.find a = none ∧
    (s.controller.maxCachedAccounts ≤ s.controller.states.size → candidate ≠ none)

/-- A state is created for an account only once the limiter that the account last passed is full. -/
def FullOnCreate (s : AdmissionSystem) : AdmissionAct → Prop
  | .lock _ a _ _ candidate => s.creates a candidate → ∀ t, s.due a = some t → t ≤ s.now
  | _ => True

/-- An account presents its own limits with every call. -/
def PresentsLimits (limitsOf : AccountId → AccountLimits) : AdmissionAct → Prop
  | .begin _ a limits => limits = limitsOf a
  | _ => True

/-- The requests of the account that were let through in the window. -/
def acceptedIn (s : AdmissionSystem) (a : AccountId) (start T : ℚ) : ℕ :=
  s.accepted.countP fun r => r.1 = a ∧ start ≤ r.2 ∧ r.2 ≤ start + T

/-- When the requests of the account were let through, the latest first. -/
def acceptedTimes (s : AdmissionSystem) (a : AccountId) : List ℚ :=
  (s.accepted.filter fun r => r.1 = a).map Prod.snd

/-- The limiter has the account's parameters, and stands where the account's last accepted request
left one, or is full at a time when that one would be full too. -/
structure Tracks (limits : AccountLimits) (due : Option ℚ) (now : ℚ) (g : Gcra) : Prop where
  interval : g.interval = (requestLimiter limits).interval
  tolerance : g.tolerance = (requestLimiter limits).tolerance
  tat : g.tat = due ∨ g.tat = none ∧ ∀ t, due = some t → t ≤ now

/-- Every entry of the map has the account's limits and a limiter of its own. -/
structure Metered (limitsOf : AccountId → AccountLimits) (s : AdmissionSystem) : Prop where
  presents : ∀ call a limits n, .enter call a limits n ∈ s.threads → limits = limitsOf a
  limits : ∀ a p, s.controller.states.find a = some p → (s.cell p).limits = limitsOf a
  fresh : ∀ a p, s.controller.states.find a = some p →
    (s.cell p).requestLimiter < s.controller.nextLimiter
  inj : ∀ a p b q, s.controller.states.find a = some p → s.controller.states.find b = some q →
    (s.cell p).requestLimiter = (s.cell q).requestLimiter → a = b
  current : ∀ a p limiter, .limited a p limiter ∈ s.threads → limiter = (s.cell p).requestLimiter
  tracks : ∀ a p, s.controller.states.find a = some p →
    Tracks (limitsOf a) (s.due a) s.now (s.controller.limiters (s.cell p).requestLimiter)
  conforms : ∀ a, Gcra.Conforms (requestLimiter (limitsOf a)).interval
    (requestLimiter (limitsOf a)).tolerance (s.acceptedTimes a)
  covers : ∀ a, Gcra.Covers (requestLimiter (limitsOf a)).interval (s.due a) (s.acceptedTimes a)

/-- A step that touches neither the entries nor a limiter. -/
structure Quiet (s s' : AdmissionSystem) : Prop where
  find : ∀ a, s'.controller.states.find a = s.controller.states.find a
  limits : ∀ p, (s'.cell p).limits = (s.cell p).limits
  limiter : ∀ p, (s'.cell p).requestLimiter = (s.cell p).requestLimiter
  limiters : s'.controller.limiters = s.controller.limiters
  nextLimiter : s'.controller.nextLimiter = s.controller.nextLimiter
  accepted : s'.accepted = s.accepted
  due : s'.due = s.due
  now : s.now ≤ s'.now

variable {s s' : AdmissionSystem} {act : AdmissionAct} {th next : AdmissionThread}
  {limitsOf : AccountId → AccountLimits}

theorem Quiet.modifyState (p : ℕ) {f : AccountAdmissionState → AccountAdmissionState}
    (hl : ∀ st, (f st).limits = st.limits) (hr : ∀ st, (f st).requestLimiter = st.requestLimiter) :
    Quiet s (s.modifyState p f) := by
  refine ⟨fun _ => rfl, fun q => ?_, fun q => ?_, rfl, rfl, rfl, rfl, le_rfl⟩
  · simp only [AdmissionSystem.modifyState, cell, ArcCache.cells_modify]
    split_ifs with h
    · rw [hl, h]
    · rfl
  · simp only [AdmissionSystem.modifyState, cell, ArcCache.cells_modify]
    split_ifs with h
    · rw [hr, h]
    · rfl

theorem Tracks.later {limits : AccountLimits} {due : Option ℚ} {now now' : ℚ} {g : Gcra}
    (h : Tracks limits due now g) (hle : now ≤ now') : Tracks limits due now' g :=
  ⟨h.interval, h.tolerance, h.tat.imp_right fun ⟨hn, ht⟩ => ⟨hn, fun t hd => (ht t hd).trans hle⟩⟩

theorem Metered.quiet (h : Metered limitsOf s) (hq : Quiet s s')
    (hp : ∀ call a limits n, .enter call a limits n ∈ s'.threads → limits = limitsOf a)
    (hc : ∀ a p limiter, .limited a p limiter ∈ s'.threads → limiter = (s.cell p).requestLimiter) :
    Metered limitsOf s' := by
  have htimes : ∀ a, s'.acceptedTimes a = s.acceptedTimes a := fun a => by
    rw [acceptedTimes, acceptedTimes, hq.accepted]
  refine ⟨hp, fun a p hf => ?_, fun a p hf => ?_, fun a p b q ha hb he => ?_, fun a p limiter hm => ?_,
    fun a p hf => ?_, fun a => ?_, fun a => ?_⟩
  · rw [hq.limits, h.limits a p (hq.find a ▸ hf)]
  · rw [hq.limiter, hq.nextLimiter]
    exact h.fresh a p (hq.find a ▸ hf)
  · rw [hq.limiter, hq.limiter] at he
    exact h.inj a p b q (hq.find a ▸ ha) (hq.find b ▸ hb) he
  · rw [hq.limiter, hc a p limiter hm]
  · rw [hq.limiter, hq.limiters, hq.due]
    exact (h.tracks a p (hq.find a ▸ hf)).later hq.now
  · rw [htimes]
    exact h.conforms a
  · rw [htimes, hq.due]
    exact h.covers a

theorem Metered.finish (h : Metered limitsOf s) : Metered limitsOf (s.finish th) :=
  h.quiet ⟨fun _ => rfl, fun _ => rfl, fun _ => rfl, rfl, rfl, rfl, rfl, le_rfl⟩
    (fun call a limits n hm => h.presents call a limits n (List.mem_of_mem_erase hm))
    (fun a p limiter hm => h.current a p limiter (List.mem_of_mem_erase hm))

theorem Metered.moveOn (h : Metered limitsOf s)
    (hp : ∀ call a limits n, next = .enter call a limits n → limits = limitsOf a)
    (hc : ∀ a p limiter, next = .limited a p limiter → limiter = (s.cell p).requestLimiter) :
    Metered limitsOf (s.moveOn th next) := by
  refine h.quiet ⟨fun _ => rfl, fun _ => rfl, fun _ => rfl, rfl, rfl, rfl, rfl, le_rfl⟩
    (fun call a limits n hm => ?_) (fun a p limiter hm => ?_)
  · rcases List.mem_cons.1 hm with heq | hm
    · exact hp call a limits n heq.symm
    · exact h.presents call a limits n (List.mem_of_mem_erase hm)
  · rcases List.mem_cons.1 hm with heq | hm
    · exact hc a p limiter heq.symm
    · exact h.current a p limiter (List.mem_of_mem_erase hm)

theorem Metered.modifyState (h : Metered limitsOf s) (p : ℕ)
    {f : AccountAdmissionState → AccountAdmissionState} (hl : ∀ st, (f st).limits = st.limits)
    (hr : ∀ st, (f st).requestLimiter = st.requestLimiter) : Metered limitsOf (s.modifyState p f) :=
  h.quiet (Quiet.modifyState p hl hr) h.presents h.current

theorem requestLimiter_interval_pos (limits : AccountLimits) : 0 < (requestLimiter limits).interval := by
  have : (0 : ℚ) < limits.requestsPerSecond.1 := by exact_mod_cast limits.requestsPerSecond.2.1
  simp only [requestLimiter, Gcra.new]
  positivity

theorem requestLimiter_tolerance_nonneg (limits : AccountLimits) :
    0 ≤ (requestLimiter limits).tolerance := by
  have hrate : (0 : ℚ) < limits.requestsPerSecond.1 := by exact_mod_cast limits.requestsPerSecond.2.1
  have hburst : (1 : ℚ) ≤ limits.requestBurst.1 := by exact_mod_cast limits.requestBurst.2.1
  simp only [requestLimiter, Gcra.new]
  exact div_nonneg (by linarith) hrate.le

/-- An accepted request moves the limiter to where it covers that request and the earlier ones. -/
theorem Tracks.check {limits : AccountLimits} {due : Option ℚ} {now : ℚ} {g g' : Gcra} {accepted : List ℚ}
    (h : Tracks limits due now g) (hg : g.check now = .ok g')
    (hconf : Gcra.Conforms (requestLimiter limits).interval (requestLimiter limits).tolerance accepted)
    (hcov : Gcra.Covers (requestLimiter limits).interval due accepted) :
    Tracks limits g'.tat now g' ∧
      Gcra.Conforms (requestLimiter limits).interval (requestLimiter limits).tolerance (now :: accepted) ∧
      Gcra.Covers (requestLimiter limits).interval g'.tat (now :: accepted) := by
  obtain ⟨hint, htol, htat⟩ := h
  unfold Gcra.check at hg
  split_ifs at hg with hpass
  cases hg
  -- a full limiter advances as the old one would have, since that one was full as well
  have hadv : Gcra.advance g.interval g.tat now = Gcra.advance (requestLimiter limits).interval due now := by
    rw [hint]
    rcases htat with htat | ⟨hnone, hdue⟩
    · rw [htat]
    · rw [hnone]
      cases due with
      | none => rfl
      | some t => exact (Gcra.advance_of_le (hdue t rfl)).symm
  have hnow : ∀ t, due = some t → t - (requestLimiter limits).tolerance ≤ now := by
    intro t ht
    rcases htat with htat | ⟨-, hdue⟩
    · rw [htat, ht, htol] at hpass
      simpa using hpass
    · have := hdue t ht
      have := requestLimiter_tolerance_nonneg limits
      linarith
  refine ⟨⟨hint, htol, .inl rfl⟩, hconf.accept hcov hnow, ?_⟩
  dsimp only
  rw [hadv]
  exact hcov.accept

/-- The limiter that a request passes belongs to its account and to no other one. -/
theorem Metered.checkLimiter (h : Metered limitsOf s) {a : AccountId} {p : ℕ}
    (hfind : s.controller.states.find a = some p) :
    Metered limitsOf (s.checkLimiter a (s.cell p).requestLimiter) := by
  unfold AdmissionSystem.checkLimiter
  split
  case h_2 => exact h
  case h_1 g hg =>
    obtain ⟨htracks, hconf, hcov⟩ := (h.tracks a p hfind).check hg (h.conforms a) (h.covers a)
    refine ⟨h.presents, h.limits, h.fresh, h.inj, h.current, fun b q hb => ?_, fun b => ?_, fun b => ?_⟩
    · by_cases hba : b = a
      · subst hba
        obtain rfl : q = p := Option.some.inj (hb.symm.trans hfind)
        simpa [cell] using htracks
      · have hne : (s.cell q).requestLimiter ≠ (s.cell p).requestLimiter :=
          fun he => hba (h.inj b q a p hb hfind he)
        show Tracks _ (Function.update s.due a g.tat b) s.now
          (Function.update s.controller.limiters (s.cell p).requestLimiter g (s.cell q).requestLimiter)
        rw [Function.update_of_ne hba, Function.update_of_ne hne]
        exact h.tracks b q hb
    · by_cases hba : b = a
      · subst hba
        simpa [acceptedTimes] using hconf
      · simpa [acceptedTimes, Ne.symm hba] using h.conforms b
    · by_cases hba : b = a
      · subst hba
        simpa [acceptedTimes] using hcov
      · simpa [acceptedTimes, Ne.symm hba, Function.update_of_ne hba] using h.covers b

theorem Metered.threadStep (h : Metered limitsOf s) (hheld : Held s) (hmem : th ∈ s.threads)
    (hs : ThreadStep s th s') : Metered limitsOf s' := by
  cases hs with
  | rate a p =>
    refine h.moveOn (by simp) fun b q limiter heq => ?_
    cases heq
    rfl
  | limited a p limiter =>
    have hfind := hheld.held _ (mem_holders_of_mem hmem rfl)
    rw [h.current a p limiter hmem]
    exact (h.checkLimiter hfind).finish
  | load => exact h.moveOn (by simp) (by simp)
  | refuse => exact h.finish
  | below => exact h.moveOn (by simp) (by simp)
  | acquire a p current limit =>
    have hstep : Metered limitsOf ((s.modifyState p fun st => { st with activeTunnels := current + 1 }).finish
        (.exchange a p current limit)) := by
      apply Metered.finish
      apply h.modifyState p <;> exact fun _ => rfl
    exact hstep.quiet ⟨fun _ => rfl, fun _ => rfl, fun _ => rfl, rfl, rfl, rfl, rfl, le_rfl⟩
      hstep.presents hstep.current
  | retry => exact h.moveOn (by simp) (by simp)
  | count => exact h.finish

/-- The entry of an account in a controller that created a state for `a` is the new state, or the
entry that the account had before. -/
def Extends (s : AdmissionSystem) (controller : AccountAdmissionController) (a : AccountId)
    (limits : AccountLimits) : Prop :=
  ∀ b p, controller.states.find b = some p →
    b = a ∧ (controller.states.cells p).limits = limits ∧
        (controller.states.cells p).requestLimiter = s.controller.nextLimiter ∨
      b ≠ a ∧ s.controller.states.find b = some p ∧ controller.states.cells p = s.cell p

theorem cells_createState (hheld : Held s) {states : ArcCache AccountId AccountAdmissionState}
    {a b : AccountId} {limits : AccountLimits} {sequence p : ℕ}
    (hcells : states.cells = s.controller.states.cells) (hnext : states.next = s.controller.states.next)
    (hfind : s.controller.states.find b = some p) :
    (({ s.controller with states } : AccountAdmissionController).createState a limits
      sequence).states.cells p = s.cell p := by
  have hne : p ≠ states.next := ne_of_lt (hnext ▸ hheld.fresh b p hfind)
  rw [AccountAdmissionController.states_createState, ArcCache.cells_create, if_neg hne, hcells, cell]

theorem extends_createState (hheld : Held s) {states : ArcCache AccountId AccountAdmissionState}
    {a : AccountId} {limits : AccountLimits} (sequence : ℕ)
    (hcells : states.cells = s.controller.states.cells) (hnext : states.next = s.controller.states.next)
    (hsub : ∀ b p, states.find b = some p → s.controller.states.find b = some p) :
    s.Extends (({ s.controller with states } : AccountAdmissionController).createState a limits sequence)
      a limits := by
  intro b p hb
  rw [AccountAdmissionController.states_createState, ArcCache.find_create] at hb
  split_ifs at hb with hba
  · cases hb
    rw [AccountAdmissionController.states_createState, ArcCache.cells_create, if_pos rfl]
    exact .inl ⟨hba, rfl, rfl⟩
  · exact .inr ⟨hba, hsub b p hb, cells_createState hheld hcells hnext (hsub b p hb)⟩

/-- A new state brings a full limiter; under the guard the account's last one is full as well. -/
theorem Metered.extend (h : Metered limitsOf s) (hheld : Held s) {controller : AccountAdmissionController}
    {a : AccountId} (hext : s.Extends controller a (limitsOf a))
    (hkeep : ∀ b p, s.controller.states.find b = some p → controller.states.cells p = s.cell p)
    (hlimiters : controller.limiters = Function.update s.controller.limiters s.controller.nextLimiter
      (requestLimiter (limitsOf a)))
    (hnext : controller.nextLimiter = s.controller.nextLimiter + 1)
    (hfull : ∀ t, s.due a = some t → t ≤ s.now) : Metered limitsOf { s with controller } := by
  refine ⟨h.presents, fun b p hb => ?_, fun b p hb => ?_, fun b p c q hb hc he => ?_, fun b p limiter hm => ?_,
    fun b p hb => ?_, h.conforms, h.covers⟩
  · rcases hext b p hb with ⟨rfl, hl, -⟩ | ⟨-, hold, heq⟩
    · exact hl
    · exact (congrArg AccountAdmissionState.limits heq).trans (h.limits b p hold)
  · show (controller.states.cells p).requestLimiter < controller.nextLimiter
    rcases hext b p hb with ⟨-, -, hr⟩ | ⟨-, hold, heq⟩
    · omega
    · have := h.fresh b p hold
      rw [heq]
      omega
  · replace he : (controller.states.cells p).requestLimiter = (controller.states.cells q).requestLimiter := he
    rcases hext b p hb with ⟨hba, -, hr⟩ | ⟨-, hold, heq⟩ <;>
      rcases hext c q hc with ⟨hca, -, hr'⟩ | ⟨-, hold', heq'⟩
    · rw [hba, hca]
    · have := h.fresh c q hold'
      rw [heq'] at he
      omega
    · have := h.fresh b p hold
      rw [heq] at he
      omega
    · rw [heq, heq'] at he
      exact h.inj b p c q hold hold' he
  · have hfind := hheld.held _ (mem_holders_of_mem hm rfl)
    rw [h.current b p limiter hm]
    exact congrArg AccountAdmissionState.requestLimiter (hkeep b p hfind).symm
  · show Tracks (limitsOf b) (s.due b) s.now (controller.limiters (controller.states.cells p).requestLimiter)
    rcases hext b p hb with ⟨rfl, -, hr⟩ | ⟨-, hold, heq⟩
    · rw [hlimiters, hr, Function.update_self]
      exact ⟨rfl, rfl, .inr ⟨rfl, hfull⟩⟩
    · rw [hlimiters, heq, Function.update_of_ne (ne_of_lt (h.fresh b p hold))]
      exact h.tracks b p hold

theorem Metered.lockSection (h : Metered limitsOf s) (hheld : Held s) {call : AdmissionCall} {a : AccountId}
    {limits : AccountLimits} {sequence : ℕ} {candidate : Option AccountId}
    (hmem : .enter call a limits sequence ∈ s.threads)
    (hfull : s.creates a candidate → ∀ t, s.due a = some t → t ≤ s.now) :
    Metered limitsOf (s.lockSection call a limits sequence candidate) := by
  obtain rfl := h.presents call a limits sequence hmem
  unfold AdmissionSystem.lockSection
  rcases s.controller.stateFor_cases a (limitsOf a) sequence candidate with
    ⟨state, hfind, heq⟩ | ⟨e, heq⟩ | ⟨hnone, states, hstates, heq⟩
  · rw [heq]
    have hsame : s.controller.updateLimits state (limitsOf a) = s.controller :=
      if_pos (h.limits a state hfind)
    rw [hsame]
    have hmod : Metered limitsOf (s.modifyState state fun st => { st with lastUsed := sequence }) := by
      apply h.modifyState <;> exact fun _ => rfl
    exact hmod.moveOn (by cases call <;> simp [AdmissionThread.start])
      (by cases call <;> simp [AdmissionThread.start])
  · rw [heq]
    exact Metered.finish h
  · rw [heq]
    have hcreates : s.creates a candidate := by
      refine ⟨hnone, fun hle => ?_⟩
      rcases hstates with ⟨-, hlt⟩ | ⟨victim, rfl, -⟩
      · omega
      · exact Option.some_ne_none _
    have hstates' : states.cells = s.controller.states.cells ∧ states.next = s.controller.states.next ∧
        ∀ b p, states.find b = some p → s.controller.states.find b = some p := by
      rcases hstates with ⟨rfl, -⟩ | ⟨victim, rfl, rfl, -⟩
      · exact ⟨rfl, rfl, fun _ _ hb => hb⟩
      · refine ⟨rfl, rfl, fun b p hb => ?_⟩
        rw [ArcCache.find_remove] at hb
        split_ifs at hb
        exact hb
    obtain ⟨hcells, hnext, hsub⟩ := hstates'
    have hext := h.extend hheld (extends_createState (a := a) hheld sequence hcells hnext hsub)
      (fun b p hb => cells_createState hheld hcells hnext hb) rfl rfl (hfull hcreates)
    exact hext.moveOn (by cases call <;> simp [AdmissionThread.start])
      (by cases call <;> simp [AdmissionThread.start])

theorem Metered.step (h : Metered limitsOf s) (hheld : Held s) (hs : Step s act s')
    (hpresents : PresentsLimits limitsOf act) (hfull : s.FullOnCreate act) : Metered limitsOf s' := by
  cases hs with
  | wait t hle => exact h.quiet ⟨fun _ => rfl, fun _ => rfl, fun _ => rfl, rfl, rfl, rfl, rfl, hle⟩ h.presents h.current
  | begin call a limits =>
    refine h.quiet ⟨fun _ => rfl, fun _ => rfl, fun _ => rfl, rfl, rfl, rfl, rfl, le_rfl⟩
      (fun call b limits n hm => ?_) (fun b p limiter hm => ?_)
    · rcases List.mem_cons.1 hm with heq | hm
      · cases heq
        exact hpresents
      · exact h.presents call b limits n hm
    · rcases List.mem_cons.1 hm with heq | hm
      · cases heq
      · exact h.current b p limiter hm
  | lock call a limits sequence candidate hmem hc => exact h.lockSection hheld hmem hfull
  | thread hmem ht => exact h.threadStep hheld hmem ht
  | drop a p hmem =>
    have hmod : Metered limitsOf (s.modifyState p fun st => { st with activeTunnels := st.activeTunnels - 1 }) := by
      apply h.modifyState <;> exact fun _ => rfl
    exact hmod.quiet ⟨fun _ => rfl, fun _ => rfl, fun _ => rfl, rfl, rfl, rfl, rfl, le_rfl⟩ hmod.presents hmod.current

/-- A call of `check_request_rate` that no other step comes between. -/
def checkRequestRate (s : AdmissionSystem) (a : AccountId) (limits : AccountLimits)
    (candidate : Option AccountId) : AdmissionSystem :=
  let started := { s with
    controller := { s.controller with sequence := (s.controller.sequence + 1) % 2 ^ 64 }
    threads := .enter .checkRequestRate a limits s.controller.sequence :: s.threads }
  let entered := started.lockSection .checkRequestRate a limits s.controller.sequence candidate
  match entered.threads with
  | .rate a p :: _ =>
    let cloned := entered.moveOn (.rate a p) (.limited a p (entered.cell p).requestLimiter)
    (cloned.checkLimiter a (entered.cell p).requestLimiter).finish
      (.limited a p (entered.cell p).requestLimiter)
  | _ => entered

theorem run_checkRequestRate (s : AdmissionSystem) (a : AccountId) (limits : AccountLimits)
    (candidate : Option AccountId) (hc : s.isCandidate candidate) :
    ∃ tr, Runs.Run Step s tr (s.checkRequestRate a limits candidate) ∧
      (∀ limitsOf, limits = limitsOf a → ∀ p ∈ tr, PresentsLimits limitsOf p.2) ∧
      ((s.creates a candidate → ∀ t, s.due a = some t → t ≤ s.now) → ∀ p ∈ tr, FullOnCreate p.1 p.2) := by
  have hbegin := Runs.Run.nil.snoc (Step.begin (s := s) .checkRequestRate a limits)
  have hlock := hbegin.snoc (.lock .checkRequestRate a limits _ candidate (List.mem_cons_self ..) hc)
  unfold checkRequestRate
  dsimp only
  split
  · rename_i b p rest hrest
    have hrate := hlock.snoc (.thread (hrest ▸ List.mem_cons_self ..) (.rate b p))
    have hcheck := hrate.snoc (.thread (List.mem_cons_self ..) (.limited b p _))
    refine ⟨_, hcheck, fun limitsOf hl => ?_, fun hfull => ?_⟩
    · simpa [PresentsLimits] using hl
    · simpa [FullOnCreate, creates] using hfull
  · refine ⟨_, hlock, fun limitsOf hl => ?_, fun hfull => ?_⟩
    · simpa [PresentsLimits] using hl
    · simpa [FullOnCreate, creates] using hfull

end AdmissionSystem

open AdmissionSystem

theorem metered_init {n : ℕ} {controller : AccountAdmissionController}
    (hnew : AccountAdmissionController.new n = .ok controller) (now : ℚ)
    (limitsOf : AccountId → AccountLimits) :
    Held (init controller now) ∧ Metered limitsOf (init controller now) := by
  unfold AccountAdmissionController.new at hnew
  split_ifs at hnew
  cases hnew
  refine ⟨ArcCache.Coherent.empty _, ?_⟩
  refine ⟨by simp [init], ?_, ?_, ?_, by simp [init], ?_, fun _ => Gcra.conforms_nil, fun _ => Gcra.covers_nil⟩
  all_goals simp [init]

/-- The requests of an account that a run lets through in a window of length `T` number at most its
burst and `T` times its rate, in every run that creates a state for an account only when the limiter
which the account last passed is full again. -/
theorem request_rate_within {n : ℕ} {controller : AccountAdmissionController}
    (hnew : AccountAdmissionController.new n = .ok controller) {now : ℚ}
    {limitsOf : AccountId → AccountLimits} {tr : List (AdmissionSystem × AdmissionAct)} {s : AdmissionSystem}
    (h : Runs.Run Step (init controller now) tr s) (hlimits : ∀ p ∈ tr, PresentsLimits limitsOf p.2)
    (hfull : ∀ p ∈ tr, FullOnCreate p.1 p.2) (a : AccountId) (start : ℚ) {T : ℚ} (hT : 0 ≤ T) :
    (s.acceptedIn a start T : ℚ) ≤
      (limitsOf a).requestBurst.1 + (limitsOf a).requestsPerSecond.1 * T := by
  obtain ⟨⟨-, hmet⟩, -⟩ := h.invariant_of (I := fun s => Held s ∧ Metered limitsOf s)
    (C := fun s act => PresentsLimits limitsOf act ∧ FullOnCreate s act) (metered_init hnew now limitsOf)
    (fun s act s' hI hC hs => ⟨hI.1.step hs, hI.2.step hI.1 hs hC.1 hC.2⟩)
    (fun p hp => ⟨hlimits p hp, hfull p hp⟩)
  have hrate : (0 : ℚ) < (limitsOf a).requestsPerSecond.1 := by
    exact_mod_cast (limitsOf a).requestsPerSecond.2.1
  have hcount : s.acceptedIn a start T =
      (s.acceptedTimes a).countP fun t => decide (start ≤ t ∧ t ≤ start + T) := by
    rw [acceptedIn, acceptedTimes, List.countP_map, List.countP_filter]
    congr 1
    funext r
    simp [Bool.and_comm]
  have hwindow := (hmet.conforms a).window (requestLimiter_interval_pos _)
    (requestLimiter_tolerance_nonneg _) start hT
  rw [← hcount] at hwindow
  simp only [requestLimiter, Gcra.new] at hwindow
  rw [mul_one_div, ← add_div, div_add' _ _ _ hrate.ne', div_le_div_iff_of_pos_right hrate] at hwindow
  linarith

/-- One request a second and bursts of one. -/
def slowLimits : AccountLimits where
  requestsPerSecond := .ofNat 1
  requestBurst := .ofNat 1
  maxConcurrentTunnels := .ofNat 1
  periodRequestLimit := none
  periodByteLimit := none

/-- A controller that has room for one account. -/
def singleController : AccountAdmissionController :=
  ⟨ArcCache.empty default, fun _ => requestLimiter default, 0, 1, 1⟩

def firstServed : AdmissionSystem := (init singleController 0).checkRequestRate (.ofNat 1) slowLimits none

/-- One account sends a request and a second one after a second; its state stays in the map. -/
theorem request_rate_within_single : ∃ tr s, Runs.Run Step (init singleController 0) tr s ∧
    s.acceptedIn (.ofNat 1) 0 1 = 2 ∧
    (s.acceptedIn (.ofNat 1) 0 1 : ℚ) ≤ slowLimits.requestBurst.1 + slowLimits.requestsPerSecond.1 * 1 := by
  obtain ⟨tr₁, h₁, hp₁, hf₁⟩ := run_checkRequestRate (init singleController 0) (.ofNat 1) slowLimits
    none (by decide +kernel)
  have hwait := h₁.snoc (.wait 1 (by decide +kernel))
  obtain ⟨tr₂, h₂, hp₂, hf₂⟩ := run_checkRequestRate { firstServed with now := 1 } (.ofNat 1) slowLimits
    (some (.ofNat 1)) (by decide +kernel)
  have hf₁ := hf₁ (by simp [init])
  have hf₂ := hf₂ (fun hcreates => absurd hcreates.1 (by decide +kernel))
  refine ⟨_, _, hwait.append h₂, by decide +kernel, ?_⟩
  refine @request_rate_within 1 _ rfl 0 (fun _ => slowLimits) _ _ (hwait.append h₂) ?_ ?_ _ _ _ (by norm_num)
  · intro p hp
    rcases List.mem_append.1 hp with hp | hp
    · rcases List.mem_append.1 hp with hp | hp
      · exact hp₁ _ rfl p hp
      · rw [List.mem_singleton.1 hp]
        trivial
    · exact hp₂ _ rfl p hp
  · intro p hp
    rcases List.mem_append.1 hp with hp | hp
    · rcases List.mem_append.1 hp with hp | hp
      · exact hf₁ p hp
      · rw [List.mem_singleton.1 hp]
        trivial
    · exact hf₂ p hp

/-- Two accounts take turns in a map with room for one: the first finds its state evicted and passes
a second time at once. -/
theorem eviction_refills_limiter :
    ¬ ∀ (n : ℕ) (controller : AccountAdmissionController) (now : ℚ) (limitsOf : AccountId → AccountLimits)
      (tr : List (AdmissionSystem × AdmissionAct)) (s : AdmissionSystem) (a : AccountId) (start T : ℚ),
      AccountAdmissionController.new n = .ok controller → Runs.Run Step (init controller now) tr s →
      (∀ p ∈ tr, PresentsLimits limitsOf p.2) → 0 ≤ T → (s.acceptedIn a start T : ℚ) ≤
        (limitsOf a).requestBurst.1 + (limitsOf a).requestsPerSecond.1 * T := by
  intro hclaim
  obtain ⟨tr₁, h₁, hp₁, -⟩ := run_checkRequestRate (init singleController 0) (.ofNat 1) slowLimits
    none (by decide +kernel)
  obtain ⟨tr₂, h₂, hp₂, -⟩ := run_checkRequestRate firstServed (.ofNat 2) slowLimits
    (some (.ofNat 1)) (by decide +kernel)
  obtain ⟨tr₃, h₃, hp₃, -⟩ := run_checkRequestRate
    (firstServed.checkRequestRate (.ofNat 2) slowLimits (some (.ofNat 1))) (.ofNat 1) slowLimits
    (some (.ofNat 2)) (by decide +kernel)
  have hle := hclaim 1 singleController 0 (fun _ => slowLimits) _ _ (.ofNat 1) 0 0 rfl
    ((h₁.append h₂).append h₃) (fun p hp => by
      rcases List.mem_append.1 hp with hp | hp
      · rcases List.mem_append.1 hp with hp | hp
        · exact hp₁ _ rfl p hp
        · exact hp₂ _ rfl p hp
      · exact hp₃ _ rfl p hp) le_rfl
  exact absurd hle (by decide +kernel)

end Cobra
