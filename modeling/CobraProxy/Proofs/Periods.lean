import CobraProxy.Proofs.DataCap
import CobraProxy.Proofs.Sessions
import CobraProxy.Spec.Periods

/-! The allowance of a usage period is what the sessions admitted in it may be granted. A tunnel that outlives
its period goes on drawing on the period it was admitted in, beside the sessions of the next one. -/

namespace Cobra

open DataSystem

theorem CopyPhase.granted_self (phase : CopyPhase) : phase.granted phase = 0 := by
  cases phase <;> rfl

theorem Tunnel.granted_self (t t' : Tunnel) (h : t'.copying = t.copying) : t.granted t' = 0 := by
  rw [granted, h, CopyPhase.granted_self, CopyPhase.granted_self]

/-- A step of one direction grants what that direction was granted. -/
theorem Tunnel.granted_go (t : Tunnel) (d : CustomerDataDirection) (phase : CopyPhase) :
    t.granted (t.go d phase) = (t.copying d).granted phase := by
  cases d <;> simp [granted, copying_go, CopyPhase.granted_self]

namespace DataSystem

variable {s s' : DataSystem} {t t' : Tunnel} {limit : ℕ}

/-- What a step of a tunnel grants is added to the counter that its session holds, within the limit. -/
theorem TunnelStep.granted (h : Sound limit t) (hs : TunnelStep s t s' t') :
    (t.granted t' = 0 ∧ s'.limiter = s.limiter) ∨
      ((s.counter t.session.state).usedBytes + t.granted t' ≤ limit ∧
        s' = s.store t.session.state ((s.counter t.session.state).usedBytes + t.granted t')) := by
  cases hs with
  | grant d requested current projected allowance hd hc =>
    obtain ⟨rfl, hle⟩ := h.2 d _ _ _ _ hd
    rw [Tunnel.granted_go, hd, hc]
    exact .inr ⟨hle, rfl⟩
  | read d requested hd => rw [Tunnel.granted_go, hd]; exact .inl ⟨rfl, rfl⟩
  | refuse d requested e hd => rw [Tunnel.granted_go, hd]; exact .inl ⟨rfl, rfl⟩
  | load d requested projected allowance hd => rw [Tunnel.granted_go, hd]; exact .inl ⟨rfl, rfl⟩
  | retry d requested current projected allowance hd =>
    rw [Tunnel.granted_go, hd]
    exact .inl ⟨rfl, rfl⟩
  | write d allowance handed bytes hd => rw [Tunnel.granted_go, hd]; exact .inl ⟨rfl, rfl⟩
  | record d allowance hd =>
    refine .inl ⟨?_, rfl⟩
    have hgo := Tunnel.granted_go { t with session := t.session.recordTransferred d allowance.bytes } d
      (if allowance.exhausted then .closed else .reading)
    refine hgo.trans ?_
    show (t.copying d).granted _ = 0
    rw [hd]
    rfl
  | close d hd =>
    rw [Tunnel.granted_go]
    refine .inl ⟨?_, rfl⟩
    rcases hd with hd | ⟨allowance, handed, hd⟩ <;> rw [hd] <;> rfl
  | _ => exact .inl ⟨Tunnel.granted_self _ _ rfl, rfl⟩

end DataSystem

namespace PeriodSystem

variable {s s' : PeriodSystem} {act : PeriodAct} {limit usagePeriod : ℕ}

/-- No counter is evicted: a call finds the counter of its key, or there is room for one more. -/
def KeepsCounters (s : PeriodSystem) : PeriodAct → Prop
  | .call (.lock _ identity periodStart _ _) =>
    s.data.limiter.states.find (identity.accountId, periodStart) ≠ none ∨
      s.data.limiter.states.size < s.data.limiter.maxCachedPeriods
  | _ => True

/-- The counter of a key covers what was granted to its sessions; a key without one was granted nothing. -/
structure Granted (limit : ℕ) (s : PeriodSystem) : Prop where
  policy : s.data.limiter.policy.periodByteLimit.1 = limit
  sound : ∀ t ∈ s.data.tunnels, Sound limit t
  absent : ∀ key, s.data.limiter.states.find key = none → s.grantedTo key = 0
  counted : ∀ key state, s.data.limiter.states.find key = some state →
    s.grantedTo key ≤ (s.data.counter state).usedBytes ∧ (s.data.counter state).usedBytes ≤ limit

theorem grantedTo_cons (g : Grant) (grants : List Grant) (data : DataSystem) (key : PeriodKey) :
    ({ s with data, grants := g :: grants } : PeriodSystem).grantedTo key =
      (if g.session = key then g.bytes else 0) + ({ s with grants } : PeriodSystem).grantedTo key := by
  unfold grantedTo
  rw [List.filter_cons]
  by_cases h : g.session = key <;> simp [h]

theorem Granted.of_frame {data : DataSystem} (h : Granted limit s)
    (hpolicy : data.limiter.policy = s.data.limiter.policy) (hsound : ∀ t ∈ data.tunnels, Sound limit t)
    (hfind : ∀ key, data.limiter.states.find key = s.data.limiter.states.find key)
    (hused : ∀ p, (data.counter p).usedBytes = (s.data.counter p).usedBytes) :
    Granted limit { s with data } := by
  refine ⟨hpolicy ▸ h.policy, hsound, fun key hnone => h.absent key (hfind key ▸ hnone), fun key state hstate => ?_⟩
  dsimp only
  rw [hused]
  exact h.counted key state (hfind key ▸ hstate)

theorem Granted.lockSection (h : Granted limit s) (hheld : Held s.data) {kind : DataCallKind}
    {identity : IngressIdentity} {periodStart : UnixTimestamp} {sequence : ℕ} {candidate : Option PeriodKey}
    {rest : List DataCall}
    (hkeeps : KeepsCounters s (.call (.lock kind identity periodStart sequence candidate))) :
    Granted limit { s with
      data := s.data.lockSection kind identity periodStart sequence candidate rest } := by
  unfold DataSystem.lockSection
  rcases s.data.limiter.stateFor_cases s.data.database identity periodStart sequence candidate with
    ⟨state, hfind, heq⟩ | ⟨hnone, hcases⟩
  · rw [heq]
    refine h.of_frame rfl h.sound (fun _ => rfl) fun p => ?_
    simp only [DataSystem.counter, ArcCache.cells_modify]
    split_ifs with hp
    · rw [hp]
    · rfl
  · have hroom : s.data.limiter.makeRoom candidate = s.data.limiter :=
      if_neg (not_le.2 (hkeeps.resolve_left (not_not.2 hnone)))
    rw [hroom] at hcases
    rcases hcases with ⟨e, heq⟩ | ⟨bytes, -, hlt, heq⟩
    · rw [heq]
      exact h.of_frame rfl h.sound (fun _ => rfl) fun _ => rfl
    · rw [heq]
      dsimp only
      refine ⟨h.policy, h.sound, fun key hkey => ?_, fun key p hp => ?_⟩
      · rw [ArcCache.find_create] at hkey
        split_ifs at hkey
        exact h.absent key hkey
      · rw [ArcCache.find_create] at hp
        rw [DataSystem.counter, ArcCache.cells_create]
        split_ifs at hp with hkey
        · -- nothing was granted yet to the sessions of a key without a counter
          rw [if_pos (Option.some.inj hp).symm, hkey]
          have hgranted : s.grantedTo (identity.accountId, periodStart) = 0 := h.absent _ hnone
          exact ⟨hgranted.le.trans (Nat.zero_le _), (h.policy ▸ hlt).le⟩
        · rw [if_neg (ne_of_lt (hheld.fresh key p hp))]
          exact h.counted key p hp

theorem Granted.checkSection (h : Granted limit s) {kind : DataCallKind} {identity : IngressIdentity}
    {periodStart : UnixTimestamp} {state : ℕ} {rest : List DataCall} :
    Granted limit { s with data := s.data.checkSection kind identity periodStart state rest } := by
  unfold DataSystem.checkSection
  split
  · refine h.of_frame rfl (fun t ht => ?_) (fun _ => rfl) fun _ => rfl
    rcases List.mem_cons.1 ht with rfl | ht
    · exact ⟨h.policy, fun d _ _ _ _ he => by cases he⟩
    · exact h.sound t ht
  · exact h.of_frame rfl h.sound (fun _ => rfl) fun _ => rfl

theorem Granted.tunnel (h : Granted limit s) (hheld : Held s.data) {t t' : Tunnel} {data : DataSystem}
    {pre post : List Tunnel} (htunnels : s.data.tunnels = pre ++ t :: post) (hs : TunnelStep s.data t data t') :
    Granted limit { s with
      data := { data with tunnels := pre ++ t' :: post }
      grants := ⟨t.session.key, s.now, t.granted t'⟩ :: s.grants } := by
  have hmem : t ∈ s.data.tunnels := htunnels ▸ by simp
  have hf := hs.frame
  have hentry := held_of_tunnel hheld hmem
  refine ⟨hf.policy ▸ h.policy, fun u hu => ?_, fun key hnone => ?_, fun key p hp => ?_⟩
  · rcases eq_or_mem_of_mem_step hu with rfl | hu
    · exact (h.sound t hmem).step hs
    · exact h.sound u (htunnels ▸ hu)
  · have hnone : s.data.limiter.states.find key = none := hf.find key ▸ hnone
    have hkey : t.session.key ≠ key := by
      rintro rfl
      rw [hentry] at hnone
      cases hnone
    rw [grantedTo_cons, if_neg hkey, zero_add]
    exact h.absent key hnone
  · have hp : s.data.limiter.states.find key = some p := hf.find key ▸ hp
    obtain ⟨hle, hlimit⟩ := h.counted key p hp
    rw [grantedTo_cons]
    show _ + s.grantedTo key ≤ (data.counter p).usedBytes ∧ (data.counter p).usedBytes ≤ limit
    rcases hs.granted (h.sound t hmem) with ⟨hzero, hlimiter⟩ | ⟨hbound, rfl⟩
    · rw [DataSystem.counter, hlimiter, ← DataSystem.counter, hzero, ite_self, zero_add]
      exact ⟨hle, hlimit⟩
    · rw [counter_store]
      dsimp only
      by_cases hkey : t.session.key = key
      · subst hkey
        obtain rfl : p = t.session.state := Option.some.inj (hp.symm.trans hentry)
        rw [if_pos rfl, if_pos rfl]
        omega
      · have hne : p ≠ t.session.state := by
          rintro rfl
          exact hkey (hheld.inj _ _ _ hentry hp)
        rw [if_neg hkey, if_neg hne, zero_add]
        exact ⟨hle, hlimit⟩

theorem Granted.call (h : Granted limit s) (hheld : Held s.data) {act : DataAct} {data : DataSystem}
    (hs : DataSystem.Step s.data act data) (hcall : ∀ key, act ≠ .tunnel key)
    (hkeeps : KeepsCounters s (.call act)) : Granted limit { s with data } := by
  cases hs with
  | lock => exact h.lockSection hheld hkeeps
  | check => exact h.checkSection
  | tunnel => exact absurd rfl (hcall _)
  | finish pre post htunnels =>
    exact h.of_frame rfl (fun t ht => h.sound t (htunnels ▸ mem_of_mem_others ht)) (fun _ => rfl) fun _ => rfl
  | begin => exact h.of_frame rfl h.sound (fun _ => rfl) fun _ => rfl
  | admitRequest => exact h.of_frame rfl h.sound (fun _ => rfl) fun _ => rfl

theorem Granted.step (h : Granted limit s) (hheld : Held s.data) (hkeeps : KeepsCounters s act)
    (hs : Step usagePeriod s act s') : Granted limit s' := by
  cases hs with
  | wait => exact ⟨h.policy, h.sound, h.absent, h.counted⟩
  | accept => exact ⟨h.policy, h.sound, h.absent, h.counted⟩
  | call act hs hscope hcall => exact h.call hheld hs hcall hkeeps
  | tunnel pre post htunnels hs => exact h.tunnel hheld htunnels hs
  | drop pre post htunnels =>
    exact h.of_frame rfl (fun t ht => h.sound t (htunnels ▸ mem_of_mem_others ht)) (fun _ => rfl) fun _ => rfl

end PeriodSystem

/-- The time is in the epoch-aligned period that begins at `start`. -/
structure UnixTimestamp.Covers (start : UnixTimestamp) (usagePeriod time : ℕ) : Prop where
  aligned : (usagePeriod : ℤ) ∣ start.seconds
  begun : start.seconds ≤ time
  lasts : (time : ℤ) < start.seconds + usagePeriod

theorem UnixTimestamp.covers_of_periodStartNow {usagePeriod time : ℕ} {start : UnixTimestamp}
    (h : UnixTimestamp.periodStartNow usagePeriod time = .ok start) : start.Covers usagePeriod time := by
  unfold periodStartNow UnixTimestamp.now at h
  simp only [Fallible.throw_eq_error, Fallible.error_bind, Fallible.bind_eq_ok, Fallible.ite_error_eq_ok,
    Fallible.ite_else_error_eq_ok, Fallible.pure_eq_ok, Except.ok.injEq] at h
  obtain ⟨-, hperiod, now, ⟨-, rfl⟩, rfl⟩ := h
  have hpos : (0 : ℤ) < usagePeriod := by omega
  have hdiv := Int.mul_ediv_add_emod (time : ℤ) usagePeriod
  have hmod := Int.emod_lt_of_pos (time : ℤ) hpos
  have hnonneg := Int.emod_nonneg (time : ℤ) hpos.ne'
  refine ⟨⟨(time : ℤ) / usagePeriod, ?_⟩, ?_, ?_⟩ <;> simp only [periodStart] <;> linarith

namespace PeriodSystem

/-- A request of the account was admitted in the run, no later than `now`, and at a time in the period. -/
def Admitted (usagePeriod : ℕ) (tr : List (PeriodSystem × PeriodAct)) (now : ℕ) (key : PeriodKey) : Prop :=
  ∃ q identity, (q, PeriodAct.accept identity) ∈ tr ∧ identity.accountId = key.1 ∧ q.now ≤ now ∧
    key.2.Covers usagePeriod q.now

variable {tr : List (PeriodSystem × PeriodAct)} {now : ℕ} {key : PeriodKey}

theorem Admitted.later {later : ℕ} (h : Admitted usagePeriod tr now key) (hle : now ≤ later) :
    Admitted usagePeriod tr later key := by
  obtain ⟨q, identity, hmem, haccount, hnow, hcovers⟩ := h
  exact ⟨q, identity, hmem, haccount, hnow.trans hle, hcovers⟩

theorem Admitted.append (h : Admitted usagePeriod tr now key) (tr' : List (PeriodSystem × PeriodAct)) :
    Admitted usagePeriod (tr ++ tr') now key := by
  obtain ⟨q, identity, hmem, hrest⟩ := h
  exact ⟨q, identity, List.mem_append_left _ hmem, hrest⟩

/-- The account and the period that a call in progress is for. -/
def callKey : DataCall → PeriodKey
  | .enter _ identity periodStart _ | .check _ identity periodStart _ => (identity.accountId, periodStart)

def scopeKey (scope : AccountRequestScope) : PeriodKey := (scope.identity.accountId, scope.periodStart)

/-- Every scope, call, session and grant is for an admission of its account before it, in its period. -/
structure Dated (usagePeriod : ℕ) (tr : List (PeriodSystem × PeriodAct)) (s : PeriodSystem) : Prop where
  scopes : ∀ scope ∈ s.scopes, Admitted usagePeriod tr s.now (scopeKey scope)
  calls : ∀ c ∈ s.data.calls, Admitted usagePeriod tr s.now (callKey c)
  sessions : ∀ t ∈ s.data.tunnels, Admitted usagePeriod tr s.now t.session.key
  grants : ∀ g ∈ s.grants, Admitted usagePeriod tr g.time g.session

theorem Dated.append (h : Dated usagePeriod tr s) (tr' : List (PeriodSystem × PeriodAct)) :
    Dated usagePeriod (tr ++ tr') s :=
  ⟨fun scope hm => (h.scopes scope hm).append tr', fun c hm => (h.calls c hm).append tr',
    fun t hm => (h.sessions t hm).append tr', fun g hm => (h.grants g hm).append tr'⟩

theorem Dated.data (h : Dated usagePeriod tr s) {data : DataSystem}
    (hcalls : ∀ c ∈ data.calls, Admitted usagePeriod tr s.now (callKey c))
    (hsessions : ∀ t ∈ data.tunnels, Admitted usagePeriod tr s.now t.session.key) :
    Dated usagePeriod tr { s with data } :=
  ⟨h.scopes, hcalls, hsessions, h.grants⟩

theorem Dated.call (h : Dated usagePeriod tr s) {act : DataAct} {data : DataSystem}
    (hs : DataSystem.Step s.data act data) (hcall : ∀ key, act ≠ .tunnel key)
    (hscope : ∀ kind identity periodStart, act = .begin kind identity periodStart →
      ⟨identity, periodStart⟩ ∈ s.scopes) : Dated usagePeriod tr { s with data } := by
  have hrest : ∀ {pre post : List DataCall} {c : DataCall}, s.data.calls = pre ++ c :: post →
      Admitted usagePeriod tr s.now (callKey c) ∧
        ∀ c' ∈ pre ++ post, Admitted usagePeriod tr s.now (callKey c') := by
    intro pre post c heq
    exact ⟨h.calls c (heq ▸ by simp), fun c' hc' => h.calls c' (heq ▸ mem_of_mem_others hc')⟩
  cases hs with
  | begin kind identity periodStart =>
    refine h.data (fun c hc => ?_) h.sessions
    rcases List.mem_cons.1 hc with rfl | hc
    · exact h.scopes _ (hscope kind identity periodStart rfl)
    · exact h.calls c hc
  | lock kind identity periodStart sequence candidate pre post hcalls =>
    obtain ⟨hown, hothers⟩ := hrest hcalls
    unfold DataSystem.lockSection
    split
    · refine h.data (fun c hc => ?_) h.sessions
      rcases List.mem_cons.1 hc with rfl | hc
      · exact hown
      · exact hothers c hc
    · exact h.data hothers h.sessions
  | check kind identity periodStart state pre post hcalls =>
    obtain ⟨hown, hothers⟩ := hrest hcalls
    unfold DataSystem.checkSection
    split
    · refine h.data hothers fun t ht => ?_
      rcases List.mem_cons.1 ht with rfl | ht
      · exact hown
      · exact h.sessions t ht
    · exact h.data hothers h.sessions
  | tunnel => exact absurd rfl (hcall _)
  | finish pre post htunnels =>
    exact h.data h.calls fun t ht => h.sessions t (htunnels ▸ mem_of_mem_others ht)
  | admitRequest => exact h.data h.calls h.sessions

theorem Dated.step (h : Dated usagePeriod tr s) (hs : Step usagePeriod s act s') :
    Dated usagePeriod (tr ++ [(s, act)]) s' := by
  have h' := h.append [(s, act)]
  cases hs with
  | wait time htime =>
    exact ⟨fun scope hm => (h'.scopes scope hm).later htime, fun c hm => (h'.calls c hm).later htime,
      fun t hm => (h'.sessions t hm).later htime, h'.grants⟩
  | accept identity periodStart hstart =>
    refine ⟨fun scope hm => ?_, h'.calls, h'.sessions, h'.grants⟩
    rcases List.mem_cons.1 hm with rfl | hm
    · exact ⟨s, identity, List.mem_append_right _ (List.mem_singleton_self _), rfl, le_rfl,
        UnixTimestamp.covers_of_periodStartNow hstart⟩
    · exact h'.scopes scope hm
  | call act hs hscope hcall => exact h'.call hs hcall hscope
  | @tunnel t t' data pre post htunnels hs =>
    have hf := hs.frame
    have hown := h'.sessions t (htunnels ▸ by simp)
    refine ⟨h'.scopes, fun c hc => h'.calls c (hf.calls ▸ hc), fun u hu => ?_, fun g hg => ?_⟩
    · rcases eq_or_mem_of_mem_step hu with rfl | hu
      · exact hf.key ▸ hown
      · exact h'.sessions u (htunnels ▸ hu)
    · rcases List.mem_cons.1 hg with rfl | hg
      · exact hown
      · exact h'.grants g hg
  | drop pre post htunnels =>
    exact h'.data h'.calls fun t ht => h'.sessions t (htunnels ▸ mem_of_mem_others ht)

end PeriodSystem

end Cobra
