import CobraProxy.Proofs.Changes
import CobraProxy.Proofs.DataLimiter

/-! The data cap of an account and period. A live counter covers what was persisted before, what was
handed to peer writers since and what is reserved and not yet handed. A counter that is created again
starts from the database, so the cap survives eviction only where the database has all of it. -/

namespace Cobra

/-! ### What the database has for an account and period -/

namespace Database

variable {db : Database}

/-- The payload bytes of one row. -/
def scopeBytes (db : Database) (key : UsageKey) : ℕ :=
  (db.usagePeriods.lookup key).elim 0 fun row => row.bytesToTor.toNat + row.bytesFromTor.toNat

/-- The payload bytes of a period, summed over the workspaces of the account. -/
def accountBytes (db : Database) (accountId : AccountId) (periodStart : UnixTimestamp) : ℕ :=
  ((db.workspaces.select fun _ w => w.accountId == accountId.raw).map fun w =>
    db.scopeBytes ⟨accountId.raw, w.1, periodStart.seconds⟩).sum

theorem totalBytes_usageForScope {accountId : AccountId} {workspaceId : WorkspaceId}
    {periodStart : UnixTimestamp} {snapshot : UsageSnapshot} {bytes : ℕ}
    (h : db.usageForScope accountId workspaceId periodStart = .ok snapshot)
    (hb : snapshot.totalBytes = .ok bytes) :
    bytes = db.scopeBytes ⟨accountId.raw, workspaceId.raw, periodStart.seconds⟩ := by
  simp only [usageForScope, usageValues, nonnegativeU64FromDatabase, Fallible.bind_eq_ok,
    Fallible.ite_else_error_eq_ok, Fallible.pure_eq_ok, Except.ok.injEq] at h
  obtain ⟨_, -, _, ⟨_, -, _, ⟨-, rfl⟩, _, ⟨-, rfl⟩, rfl⟩, rfl⟩ := h
  unfold UsageSnapshot.totalBytes checkedAdd at hb
  dsimp only at hb
  split_ifs at hb
  cases hb
  unfold scopeBytes
  cases db.usagePeriods.lookup _ <;> rfl

theorem listWorkspaces_ids {accountId : AccountId} {workspaces : List WorkspaceRecord}
    (h : db.listWorkspaces accountId = .ok workspaces) :
    workspaces.map (fun w => w.id.raw) =
      (db.workspaces.select fun _ w => w.accountId == accountId.raw).map Prod.fst := by
  simp only [listWorkspaces, Fallible.throw_eq_error, Fallible.error_bind, Fallible.ite_error_eq_ok] at h
  obtain ⟨-, h⟩ := h
  have hall := Fallible.forall₂_of_mapM h
  generalize (db.workspaces.select fun _ w => w.accountId == accountId.raw) = rows at hall ⊢
  clear h
  induction hall with
  | nil => rfl
  | cons hw _ ih =>
    simp only [Fallible.bind_eq_ok, Fallible.pure_eq_ok, Except.ok.injEq] at hw
    obtain ⟨id, hid, _, -, rfl⟩ := hw
    rw [List.map_cons, List.map_cons, ih, fromDatabase_eq_ok.1 hid]

/-- What a new counter is seeded with is the sum over the workspaces. -/
theorem persistedBytes_eq_accountBytes {accountId : AccountId} {periodStart : UnixTimestamp} {bytes : ℕ}
    (h : db.persistedBytes accountId periodStart = .ok bytes) : bytes = db.accountBytes accountId periodStart := by
  obtain ⟨workspaces, hws, hfold⟩ := Fallible.bind_eq_ok.1 h
  have hsum := Fallible.eq_add_sum_of_foldlM
    (g := fun w : WorkspaceRecord => db.scopeBytes ⟨accountId.raw, w.id.raw, periodStart.seconds⟩)
    (fun total w m hm => ?_) hfold
  · rw [hsum, zero_add, accountBytes, ← Function.comp_def (fun id => db.scopeBytes
      ⟨accountId.raw, id, periodStart.seconds⟩) (fun w : WorkspaceRecord => w.id.raw), ← List.map_map,
      listWorkspaces_ids hws, List.map_map]
    rfl
  · simp only [Fallible.bind_eq_ok] at hm
    obtain ⟨snapshot, hs, b, hb, hm⟩ := hm
    rw [← totalBytes_usageForScope hs hb]
    unfold checkedAdd at hm
    split at hm
    · cases hm
      rename_i heq
      split_ifs at heq
      exact (Option.some.inj heq).symm
    · cases hm

end Database

/-! ### What a counter covers -/

/-- The bytes reserved for a copy and not yet handed to its writer. -/
def CopyPhase.pending : CopyPhase → ℕ
  | .writing allowance handed => allowance.bytes - handed
  | _ => 0

def Tunnel.pending (t : Tunnel) : ℕ := (t.copying .toTor).pending + (t.copying .fromTor).pending

theorem Tunnel.copying_go (t : Tunnel) (d d' : CustomerDataDirection) (phase : CopyPhase) :
    (t.go d phase).copying d' = if d' = d then phase else t.copying d' := Function.update_apply ..

theorem Tunnel.pending_go (t : Tunnel) (d : CustomerDataDirection) (phase : CopyPhase) :
    (t.go d phase).pending + (t.copying d).pending = t.pending + phase.pending := by
  cases d <;> simp only [pending, copying_go, reduceCtorEq, if_true, if_false] <;> omega

namespace DataSystem

variable {s s' : DataSystem} {act : DataAct} {t t' : Tunnel} {limit base : ℕ} {key : PeriodKey}

def pendingIn (tunnels : List Tunnel) (key : PeriodKey) : ℕ :=
  (tunnels.map fun t => if t.session.key = key then t.pending else 0).sum

/-- An exchange stores no more than the limit, and grants what it adds. -/
def Sound (limit : ℕ) (t : Tunnel) : Prop :=
  t.session.limit = limit ∧ ∀ d requested current projected allowance,
    t.copying d = .exchange requested current projected allowance →
      projected = current + allowance.bytes ∧ projected ≤ limit

/-- What was persisted at the start, handed since and reserved stays within the limit, and the
counter of the key, while there is one, covers it. -/
structure Capped (limit base : ℕ) (key : PeriodKey) (s : DataSystem) : Prop where
  policy : s.limiter.policy.periodByteLimit.1 = limit
  sound : ∀ t ∈ s.tunnels, Sound limit t
  total : base + s.handed key + pendingIn s.tunnels key ≤ limit
  counter : ∀ state, s.limiter.states.find key = some state →
    base + s.handed key + pendingIn s.tunnels key ≤ (s.counter state).usedBytes ∧
      (s.counter state).usedBytes ≤ limit

theorem pendingIn_split (pre post : List Tunnel) (t : Tunnel) (key : PeriodKey) :
    pendingIn (pre ++ t :: post) key =
      pendingIn (pre ++ post) key + if t.session.key = key then t.pending else 0 := by
  simp only [pendingIn, List.map_append, List.map_cons, List.sum_append, List.sum_cons]
  omega

/-- A key without a counter has no session, so nothing is reserved for it. -/
theorem pendingIn_eq_zero (h : Held s) (hnone : s.limiter.states.find key = none) :
    pendingIn s.tunnels key = 0 := by
  refine List.sum_eq_zero fun n hn => ?_
  obtain ⟨t, ht, rfl⟩ := List.mem_map.1 hn
  refine if_neg fun hkey => ?_
  rw [← hkey, held_of_tunnel h ht] at hnone
  cases hnone

theorem project_eq_ok {requested limit current projected : ℕ} {allowance : CustomerDataAllowance}
    (h : CustomerPeriodUsage.project requested limit current = .ok (projected, allowance)) :
    projected = current + allowance.bytes ∧ projected ≤ limit := by
  unfold CustomerPeriodUsage.project checkedAdd at h
  split_ifs at h with hlimit
  dsimp only at h
  split at h
  · cases h
  · rename_i heq
    split_ifs at heq
    cases heq
    cases h
    refine ⟨rfl, ?_⟩
    omega

theorem Sound.step (h : Sound limit t) (hs : TunnelStep s t s' t') : Sound limit t' := by
  refine ⟨hs.frame.limit.trans h.1, fun d' requested' current' projected' allowance' heq => ?_⟩
  have hgo : ∀ (d : CustomerDataDirection) (phase : CopyPhase), (t.go d phase).copying d' =
      .exchange requested' current' projected' allowance' →
      (∀ r c p a, phase = .exchange r c p a → p = c + a.bytes ∧ p ≤ limit) →
      projected' = current' + allowance'.bytes ∧ projected' ≤ limit := by
    intro d phase hcopy hphase
    rw [Tunnel.copying_go] at hcopy
    split_ifs at hcopy
    · exact hphase _ _ _ _ hcopy
    · exact h.2 _ _ _ _ _ hcopy
  cases hs with
  | load d requested projected allowance _ hp =>
    refine hgo d _ heq fun r c p a he => ?_
    cases he
    exact h.1 ▸ project_eq_ok hp
  | record d allowance =>
    refine hgo d _ heq fun r c p a he => ?_
    split_ifs at he
  | read d | refuse d | grant d | retry d | write d | close d => exact hgo d _ heq (by simp)
  | _ => exact h.2 _ _ _ _ _ heq

/-- What a step of a tunnel does to the account of its bytes: nothing but to give up a reservation, to
reserve bytes in the counter it holds, or to hand reserved bytes to a writer. -/
theorem TunnelStep.effect (h : Sound limit t) (hs : TunnelStep s t s' t') :
    (s'.limiter = s.limiter ∧ s'.handed = s.handed ∧ t'.pending ≤ t.pending) ∨
    (∃ bytes, (s.counter t.session.state).usedBytes + bytes ≤ limit ∧
      s' = s.store t.session.state ((s.counter t.session.state).usedBytes + bytes) ∧
      t'.pending = t.pending + bytes) ∨
    (∃ bytes, s' = s.hand t.session.key bytes ∧ t'.pending + bytes = t.pending) := by
  have hgo : ∀ (d : CustomerDataDirection) (phase : CopyPhase), phase.pending = 0 →
      (t.go d phase).pending ≤ t.pending := by
    intro d phase hphase
    have := t.pending_go d phase
    omega
  cases hs with
  | grant d requested current projected allowance hd hc =>
    obtain ⟨rfl, hle⟩ := h.2 d _ _ _ _ hd
    refine .inr (.inl ⟨allowance.bytes, hc ▸ hle, by rw [hc], ?_⟩)
    have := t.pending_go d (.writing allowance 0)
    rw [hd] at this
    exact this
  | write d allowance handed bytes hd hb =>
    refine .inr (.inr ⟨bytes, rfl, ?_⟩)
    have := t.pending_go d (.writing allowance (handed + bytes))
    rw [hd] at this
    simp only [CopyPhase.pending] at this
    omega
  | record d allowance hd =>
    refine .inl ⟨rfl, rfl, ?_⟩
    have hrec := hgo d (if allowance.exhausted then .closed else .reading) (by split_ifs <;> rfl)
    exact hrec
  | read d | refuse d | load d | retry d | close d => exact .inl ⟨rfl, rfl, hgo d _ rfl⟩
  | _ => exact .inl ⟨rfl, rfl, le_rfl⟩

theorem counter_store (state usedBytes p : ℕ) :
    ((s.store state usedBytes).counter p).usedBytes =
      if p = state then usedBytes else (s.counter p).usedBytes := by
  simp only [store, counter, ArcCache.cells_modify]
  split_ifs <;> rfl

theorem handed_store (state usedBytes : ℕ) : (s.store state usedBytes).handed = s.handed := rfl

theorem counter_hand (bytes p : ℕ) : (s.hand key bytes).counter p = s.counter p := rfl

theorem Capped.tunnel (h : Capped limit base key s) (hheld : Held s) {pre post : List Tunnel}
    (htunnels : s.tunnels = pre ++ t :: post) (hs : TunnelStep s t s' t') :
    Capped limit base key { s' with tunnels := pre ++ t' :: post } := by
  have hmem : t ∈ s.tunnels := htunnels ▸ by simp
  have hf := hs.frame
  have hfind := held_of_tunnel hheld hmem
  have htotal := h.total
  have hcounter := h.counter
  rw [htunnels, pendingIn_split] at htotal hcounter
  have hsound : ∀ u ∈ pre ++ t' :: post, Sound limit u := by
    intro u hu
    rcases eq_or_mem_of_mem_step hu with rfl | hu
    · exact (h.sound t hmem).step hs
    · exact h.sound u (htunnels ▸ hu)
  have hbuild : base + s'.handed key + pendingIn (pre ++ t' :: post) key ≤ limit →
      (∀ state, s.limiter.states.find key = some state →
        base + s'.handed key + pendingIn (pre ++ t' :: post) key ≤ (s'.counter state).usedBytes ∧
          (s'.counter state).usedBytes ≤ limit) →
      Capped limit base key { s' with tunnels := pre ++ t' :: post } := fun htot hcnt =>
    ⟨hf.policy ▸ h.policy, hsound, htot, fun state hstate => hcnt state (hf.find key ▸ hstate)⟩
  rcases hs.effect (h.sound t hmem) with ⟨hlim, hhanded, hle⟩ | ⟨bytes, hle, rfl, hpend⟩ | ⟨bytes, rfl, hpend⟩
  · have hless : pendingIn (pre ++ t' :: post) key ≤
        pendingIn (pre ++ post) key + if t.session.key = key then t.pending else 0 := by
      rw [pendingIn_split, hf.key]
      split_ifs <;> omega
    refine hbuild (by rw [hhanded]; omega) fun state hstate => ?_
    have := hcounter state hstate
    rw [hhanded, DataSystem.counter, hlim, ← DataSystem.counter]
    omega
  · by_cases hkey : t.session.key = key
    · -- the session holds the key's own counter, which grows by what it reserves
      subst hkey
      have hpending : pendingIn (pre ++ t' :: post) t.session.key =
          pendingIn (pre ++ post) t.session.key + t.pending + bytes := by
        rw [pendingIn_split, if_pos hf.key, hpend]
        omega
      have hused := hcounter _ hfind
      rw [if_pos rfl] at hused
      rw [hpending, handed_store] at hbuild
      refine hbuild (by omega) fun state hstate => ?_
      obtain rfl : state = t.session.state := Option.some.inj (hstate.symm.trans hfind)
      rw [counter_store, if_pos rfl]
      omega
    · have hpending : pendingIn (pre ++ t' :: post) key = pendingIn (pre ++ post) key := by
        rw [pendingIn_split, if_neg (hf.key ▸ hkey), add_zero]
      rw [if_neg hkey, add_zero] at htotal hcounter
      rw [hpending, handed_store] at hbuild
      refine hbuild htotal fun state hstate => ?_
      have hne : state ≠ t.session.state := by
        rintro rfl
        exact hkey (hheld.inj _ _ _ hfind hstate)
      rw [counter_store, if_neg hne]
      exact hcounter state hstate
  · have hsame : (s.hand t.session.key bytes).handed key + pendingIn (pre ++ t' :: post) key =
        s.handed key + (pendingIn (pre ++ post) key + if t.session.key = key then t.pending else 0) := by
      rw [pendingIn_split, hf.key]
      by_cases hkey : t.session.key = key
      · subst hkey
        simp only [hand, Function.update_self, if_true]
        omega
      · simp only [hand, Function.update_of_ne (Ne.symm hkey), if_neg hkey]
    refine hbuild (by omega) fun state hstate => ?_
    have := hcounter state hstate
    rw [counter_hand]
    omega

/-- A counter is created for the key only once the database has the bytes handed to peer writers. -/
def SeedCovers (base : ℕ) (key : PeriodKey) (s : DataSystem) : DataAct → Prop
  | .lock _ identity periodStart sequence candidate =>
    (identity.accountId, periodStart) = key → s.limiter.states.find key = none →
      (s.limiter.stateFor s.database identity periodStart sequence candidate).1.isOk →
      base + s.handed key ≤ s.database.accountBytes identity.accountId periodStart
  | _ => True

theorem Capped.of_frame (h : Capped limit base key s) (hpolicy : s'.limiter.policy = s.limiter.policy)
    (hhanded : s'.handed = s.handed) (hpend : pendingIn s'.tunnels key ≤ pendingIn s.tunnels key)
    (hsound : ∀ t ∈ s'.tunnels, Sound limit t)
    (hfind : ∀ state, s'.limiter.states.find key = some state →
      s.limiter.states.find key = some state ∧ (s'.counter state).usedBytes = (s.counter state).usedBytes) :
    Capped limit base key s' := by
  refine ⟨hpolicy ▸ h.policy, hsound, ?_, fun state hstate => ?_⟩
  · have := h.total
    rw [hhanded]
    omega
  · obtain ⟨hold, heq⟩ := hfind state hstate
    have := h.counter state hold
    rw [hhanded, heq]
    omega

/-- A new counter that covers what was handed for its key. -/
theorem Capped.seed (h : Capped limit base key s) (hheld : Held s) {limiter : CustomerDataLimiter}
    {states : ArcCache PeriodKey CustomerPeriodUsage} {calls : List DataCall} {newKey : PeriodKey}
    {bytes sequence : ℕ} (hpolicy : limiter.policy = s.limiter.policy)
    (hlimiter : limiter.states = states.create newKey ⟨bytes, sequence⟩)
    (hcells : states.cells = s.limiter.states.cells) (hnext : states.next = s.limiter.states.next)
    (hsub : ∀ state, states.find key = some state → s.limiter.states.find key = some state)
    (hcover : newKey = key → base + s.handed key + pendingIn s.tunnels key ≤ bytes) (hlt : bytes ≤ limit) :
    Capped limit base key { s with limiter, calls } := by
  refine ⟨hpolicy ▸ h.policy, h.sound, h.total, fun p hp => ?_⟩
  show base + s.handed key + pendingIn s.tunnels key ≤ (limiter.states.cells p).usedBytes ∧
    (limiter.states.cells p).usedBytes ≤ limit
  rw [hlimiter, ArcCache.find_create] at hp
  rw [hlimiter, ArcCache.cells_create]
  split_ifs at hp with hkey
  · rw [if_pos (Option.some.inj hp).symm]
    exact ⟨hcover hkey.symm, hlt⟩
  · have hold := hsub p hp
    rw [if_neg (ne_of_lt (hnext ▸ hheld.fresh key p hold)), hcells]
    exact h.counter p hold

theorem Capped.lockSection (h : Capped limit base key s) (hheld : Held s) {kind : DataCallKind}
    {identity : IngressIdentity} {periodStart : UnixTimestamp} {sequence : ℕ}
    {candidate : Option PeriodKey} {rest : List DataCall}
    (hseed : SeedCovers base key s (.lock kind identity periodStart sequence candidate)) :
    Capped limit base key (s.lockSection kind identity periodStart sequence candidate rest) := by
  obtain ⟨hpolicy, hcells, hnext⟩ := s.limiter.makeRoom_frame candidate
  unfold DataSystem.lockSection
  rcases s.limiter.stateFor_cases s.database identity periodStart sequence candidate with
    ⟨state, hfind, heq⟩ | ⟨hnone, ⟨e, heq⟩ | ⟨bytes, hbytes, hlt, heq⟩⟩
  · rw [heq]
    refine h.of_frame rfl rfl le_rfl h.sound fun p hp => ⟨hp, ?_⟩
    simp only [DataSystem.counter, ArcCache.cells_modify]
    split_ifs with hps
    · rw [hps]
    · rfl
  · rw [heq]
    refine h.of_frame hpolicy rfl le_rfl h.sound fun p hp => ⟨CustomerDataLimiter.find_makeRoom hp, ?_⟩
    simp only [DataSystem.counter, hcells]
  · have hok : (s.limiter.stateFor s.database identity periodStart sequence candidate).1.isOk := by
      rw [heq]
      rfl
    rw [heq]
    refine h.seed hheld hpolicy rfl hcells hnext (fun _ => CustomerDataLimiter.find_makeRoom) ?_ ?_
    · -- nothing is reserved for a key without a counter
      rintro rfl
      have hcover := hseed rfl hnone hok
      rw [← Database.persistedBytes_eq_accountBytes hbytes] at hcover
      rwa [pendingIn_eq_zero hheld hnone]
    · rw [← h.policy]
      exact hlt.le

theorem Capped.checkSection (h : Capped limit base key s) {kind : DataCallKind} {identity : IngressIdentity}
    {periodStart : UnixTimestamp} {state : ℕ} {rest : List DataCall} :
    Capped limit base key (s.checkSection kind identity periodStart state rest) := by
  unfold DataSystem.checkSection
  split
  · refine h.of_frame rfl rfl ?_ ?_ fun p hp => ⟨hp, rfl⟩
    · have := pendingIn_split [] s.tunnels
        (Tunnel.opened identity periodStart s.limiter.policy.periodByteLimit.1 state) key
      rw [List.nil_append, List.nil_append] at this
      dsimp only
      rw [this]
      split_ifs <;> exact le_rfl
    · intro t ht
      rcases List.mem_cons.1 ht with rfl | ht
      · exact ⟨h.policy, fun d _ _ _ _ he => by cases he⟩
      · exact h.sound t ht
  · exact h.of_frame rfl rfl le_rfl h.sound fun p hp => ⟨hp, rfl⟩

theorem Capped.step (h : Capped limit base key s) (hheld : Held s) (hseed : SeedCovers base key s act)
    (hs : Step s act s') : Capped limit base key s' := by
  cases hs with
  | begin => exact h.of_frame rfl rfl le_rfl h.sound fun p hp => ⟨hp, rfl⟩
  | lock => exact h.lockSection hheld hseed
  | check => exact h.checkSection
  | tunnel pre post htunnels ht => exact h.tunnel hheld htunnels ht
  | @finish t pre post htunnels =>
    refine h.of_frame rfl rfl ?_ (fun u hu => ?_) fun p hp => ⟨hp, rfl⟩
    · rw [htunnels, pendingIn_split]
      exact Nat.le_add_right _ _
    · exact h.sound u (htunnels ▸ mem_of_mem_others hu)
  | admitRequest => exact h.of_frame rfl rfl le_rfl h.sound fun p hp => ⟨hp, rfl⟩

/-! ### Calls and transfers that no other step comes between -/

def started (s : DataSystem) (kind : DataCallKind) (identity : IngressIdentity)
    (periodStart : UnixTimestamp) : DataSystem :=
  { s with
    limiter := { s.limiter with sequence := (s.limiter.sequence + 1) % 2 ^ 64 }
    calls := .enter kind identity periodStart s.limiter.sequence :: s.calls }

/-- A call of `ensure_available` or `open_session`. -/
def call (s : DataSystem) (kind : DataCallKind) (identity : IngressIdentity) (periodStart : UnixTimestamp)
    (candidate : Option PeriodKey) : DataSystem :=
  let entered := (s.started kind identity periodStart).lockSection kind identity periodStart
    s.limiter.sequence candidate s.calls
  match entered.calls with
  | .check kind identity periodStart state :: rest => entered.checkSection kind identity periodStart state rest
  | _ => entered

theorem run_call (s : DataSystem) (kind : DataCallKind) (identity : IngressIdentity)
    (periodStart : UnixTimestamp) (candidate : Option PeriodKey) (base : ℕ) (key : PeriodKey)
    (htier : (s.limiter.checkTier identity).toOption = some ()) (hc : s.isCandidate candidate) :
    ∃ tr, Runs.Run Step s tr (s.call kind identity periodStart candidate) ∧
      (base + s.handed key ≤ s.database.accountBytes key.1 key.2 → ∀ p ∈ tr, SeedCovers base key p.1 p.2) := by
  have hbegin := Runs.Run.nil.snoc (Step.begin kind identity periodStart
    (Fallible.toOption_eq_some.1 htier))
  have hlock := hbegin.snoc (.lock kind identity periodStart _ candidate [] s.calls rfl hc)
  have hcovers : base + s.handed key ≤ s.database.accountBytes key.1 key.2 → SeedCovers base key
      (s.started kind identity periodStart) (.lock kind identity periodStart s.limiter.sequence candidate) := by
    rintro hseed rfl - -
    exact hseed
  unfold call
  dsimp only
  split
  · rename_i kind' identity' periodStart' state rest hrest
    have hcheck := hlock.snoc (.check kind' identity' periodStart' state [] rest hrest)
    refine ⟨_, hcheck, fun hseed => ?_⟩
    simpa [SeedCovers, started] using hcovers hseed
  · refine ⟨_, hlock, fun hseed => ?_⟩
    simpa [SeedCovers, started] using hcovers hseed

/-- The latest tunnel reads bytes from the client, reserves them and hands them to the writer. -/
def transfer (s : DataSystem) (requested : ℕ) : DataSystem :=
  match s.tunnels with
  | [] => s
  | t :: rest =>
    let current := (s.counter t.session.state).usedBytes
    match CustomerPeriodUsage.project requested t.session.limit current with
    | .error _ => s
    | .ok (projected, allowance) =>
      let t := t.go .toTor (.load requested)
      let t := t.go .toTor (.exchange requested current projected allowance)
      let t := t.go .toTor (.writing allowance 0)
      { (s.store t.session.state projected).hand t.session.key allowance.bytes with
        tunnels := t.go .toTor (.writing allowance (0 + allowance.bytes)) :: rest }

theorem run_transfer (s : DataSystem) (requested base : ℕ) (key : PeriodKey) (hr : 0 < requested)
    (hread : ∀ t ∈ s.tunnels.head?, t.copying .toTor = .reading) :
    ∃ tr, Runs.Run Step s tr (s.transfer requested) ∧ ∀ p ∈ tr, SeedCovers base key p.1 p.2 := by
  unfold transfer
  split
  · exact ⟨[], .nil, by simp⟩
  · rename_i t rest htunnels
    dsimp only
    split
    · exact ⟨[], .nil, by simp⟩
    · rename_i projected allowance hp
      have h₁ := Runs.Run.nil.snoc (Step.tunnel [] rest htunnels (.read .toTor requested (hread t (by rw [htunnels]; rfl)) hr))
      have h₂ := h₁.snoc (.tunnel [] rest rfl (.load .toTor requested projected allowance (by simp [Tunnel.copying_go]) hp))
      have h₃ := h₂.snoc (.tunnel [] rest rfl (.grant .toTor _ _ _ _ (Tunnel.copying_go ..) rfl))
      have h₄ := h₃.snoc (.tunnel [] rest rfl (.write .toTor allowance 0 allowance.bytes (Tunnel.copying_go ..) (by omega)))
      exact ⟨_, h₄, by simp [SeedCovers]⟩

/-- The session of the latest tunnel is dropped where the tunnel stands. -/
def dropLatest (s : DataSystem) : DataSystem := { s with tunnels := s.tunnels.tail }

theorem run_dropLatest (hidle : ∀ t ∈ s.tunnels.head?, t.checkpoint = .idle) :
    ∃ tr, Runs.Run Step s tr s.dropLatest := by
  unfold dropLatest
  cases htunnels : s.tunnels with
  | nil =>
    rw [List.tail_nil, ← htunnels]
    exact ⟨[], .nil⟩
  | cons t rest =>
    exact ⟨_, Runs.Run.nil.snoc (.finish [] rest htunnels (hidle t (by rw [htunnels]; rfl)))⟩

end DataSystem

open DataSystem

theorem capped_init {policy : SingleTierPolicy} {n base : ℕ} {limiter : CustomerDataLimiter} {key : PeriodKey}
    (hnew : CustomerDataLimiter.new policy n = .ok limiter) {db : Database}
    (hbase : base ≤ policy.periodByteLimit.1) :
    Held (init limiter db) ∧ Capped policy.periodByteLimit.1 base key (init limiter db) := by
  unfold CustomerDataLimiter.new at hnew
  split_ifs at hnew
  cases hnew
  exact ⟨ArcCache.Coherent.empty _, rfl, by simp [init], hbase, by simp [init]⟩

/-- What was persisted for an account and period at the start and what was handed to peer writers
since stays within the limit, in every run that starts within it and creates a counter for them only
once the database has the bytes handed so far. -/
theorem data_cap_within {policy : SingleTierPolicy} {n : ℕ} {limiter : CustomerDataLimiter}
    (hnew : CustomerDataLimiter.new policy n = .ok limiter) {db : Database} {accountId : AccountId}
    {periodStart : UnixTimestamp} (hbase : db.accountBytes accountId periodStart ≤ policy.periodByteLimit.1)
    {tr : List (DataSystem × DataAct)} {s : DataSystem} (h : Runs.Run Step (init limiter db) tr s)
    (hseed : ∀ p ∈ tr, SeedCovers (db.accountBytes accountId periodStart) (accountId, periodStart) p.1 p.2) :
    db.accountBytes accountId periodStart + s.handed (accountId, periodStart) ≤ policy.periodByteLimit.1 := by
  obtain ⟨⟨-, hcap⟩, -⟩ := h.invariant_of
    (I := fun s => Held s ∧ Capped policy.periodByteLimit.1 (db.accountBytes accountId periodStart)
      (accountId, periodStart) s)
    (C := SeedCovers (db.accountBytes accountId periodStart) (accountId, periodStart)) (capped_init hnew hbase)
    (fun s act s' hI hC hs => ⟨hI.1.step hs, hI.2.step hI.1 hC hs⟩) hseed
  exact (Nat.le_add_right _ _).trans hcap.total

/-! Three accounts with ten bytes each, and a map with room for two counters. -/

def tenByteLimits : AccountLimits where
  requestsPerSecond := .ofNat 10
  requestBurst := .ofNat 10
  maxConcurrentTunnels := .ofNat 10
  periodRequestLimit := none
  periodByteLimit := some (.ofNat 10)

def tenBytePolicy : SingleTierPolicy := ⟨.ofNat 10⟩

def threeTenants : ManagerSystem :=
  [.createAccount "a@x".toList none .basic tenByteLimits,
    .createAccount "b@x".toList none .basic tenByteLimits,
    .createAccount "c@x".toList none .basic tenByteLimits,
    .createWorkspace (.ofNat 1) "w".toList, .createWorkspace (.ofNat 2) "w".toList,
    .createWorkspace (.ofNat 3) "w".toList].foldl (ManagerSystem.step ⟨fun _ => .replicate 32 0⟩) .empty

def tenantOf (accountId : AccountId) (workspaceId : WorkspaceId) : IngressIdentity :=
  ⟨accountId, workspaceId, .ofNat 1, .ofNat 1, tenByteLimits⟩

def pairLimiter : CustomerDataLimiter := ⟨tenBytePolicy, ArcCache.empty default, 2, 1⟩

/-- The first account opens a session. -/
def firstOpened : DataSystem :=
  (init pairLimiter threeTenants.database).call .openSession (tenantOf (.ofNat 1) (.ofNat 1)) .epoch none

theorem data_cap_within_single : (firstOpened.transfer 10).handed (.ofNat 1, .epoch) = 10 ∧
    threeTenants.database.accountBytes (.ofNat 1) .epoch +
      (firstOpened.transfer 10).handed (.ofNat 1, .epoch) ≤ tenBytePolicy.periodByteLimit.1 := by
  obtain ⟨tr₁, h₁, hc₁⟩ := run_call (init pairLimiter threeTenants.database) .openSession
    (tenantOf (.ofNat 1) (.ofNat 1)) .epoch none (threeTenants.database.accountBytes (.ofNat 1) .epoch)
    (.ofNat 1, .epoch) (by decide +kernel) (by decide +kernel)
  obtain ⟨tr₂, h₂, hc₂⟩ := run_transfer firstOpened 10 (threeTenants.database.accountBytes (.ofNat 1) .epoch)
    (.ofNat 1, .epoch) (by decide) (by decide +kernel)
  refine ⟨by decide +kernel, @data_cap_within _ 2 pairLimiter rfl _ _ _ (by decide +kernel) _ _
    (h₁.append h₂) fun p hp => ?_⟩
  rcases List.mem_append.1 hp with hp | hp
  · exact hc₁ (by decide +kernel) p hp
  · exact hc₂ p hp

/-- The session is dropped before its bytes are recorded, two other accounts push its counter out of
the map, and a new session of the first account is granted ten bytes again. -/
theorem evicted_counter_forgets_bytes :
    ¬ ∀ (policy : SingleTierPolicy) (n : ℕ) (limiter : CustomerDataLimiter) (db : Database)
      (accountId : AccountId) (periodStart : UnixTimestamp) (tr : List (DataSystem × DataAct)) (s : DataSystem),
      CustomerDataLimiter.new policy n = .ok limiter →
      db.accountBytes accountId periodStart ≤ policy.periodByteLimit.1 →
      Runs.Run Step (init limiter db) tr s →
      db.accountBytes accountId periodStart + s.handed (accountId, periodStart) ≤ policy.periodByteLimit.1 := by
  intro hclaim
  let oldest : Option PeriodKey := some (.ofNat 1, .epoch)
  let s₁ := (firstOpened.transfer 10).dropLatest
  let s₂ := s₁.call .ensureAvailable (tenantOf (.ofNat 2) (.ofNat 2)) .epoch oldest
  let s₃ := s₂.call .ensureAvailable (tenantOf (.ofNat 3) (.ofNat 3)) .epoch oldest
  let s₄ := s₃.call .openSession (tenantOf (.ofNat 1) (.ofNat 1)) .epoch (some (.ofNat 2, .epoch))
  obtain ⟨tr₁, h₁, -⟩ := run_call (init pairLimiter threeTenants.database) .openSession
    (tenantOf (.ofNat 1) (.ofNat 1)) .epoch none 0 (.ofNat 1, .epoch) (by decide +kernel) (by decide +kernel)
  obtain ⟨tr₂, h₂, -⟩ := run_transfer firstOpened 10 0 (.ofNat 1, .epoch) (by decide) (by decide +kernel)
  obtain ⟨tr₃, h₃⟩ := run_dropLatest (s := firstOpened.transfer 10) (by decide +kernel)
  obtain ⟨tr₄, h₄, -⟩ := run_call s₁ .ensureAvailable (tenantOf (.ofNat 2) (.ofNat 2)) .epoch oldest 0
    (.ofNat 1, .epoch) (by decide +kernel) (by decide +kernel)
  obtain ⟨tr₅, h₅, -⟩ := run_call s₂ .ensureAvailable (tenantOf (.ofNat 3) (.ofNat 3)) .epoch oldest 0
    (.ofNat 1, .epoch) (by decide +kernel) (by decide +kernel)
  obtain ⟨tr₆, h₆, -⟩ := run_call s₃ .openSession (tenantOf (.ofNat 1) (.ofNat 1)) .epoch
    (some (.ofNat 2, .epoch)) 0 (.ofNat 1, .epoch) (by decide +kernel) (by decide +kernel)
  obtain ⟨tr₇, h₇, -⟩ := run_transfer s₄ 10 0 (.ofNat 1, .epoch) (by decide) (by decide +kernel)
  have hle := hclaim tenBytePolicy 2 pairLimiter threeTenants.database (.ofNat 1) .epoch _ _ rfl
    (by decide +kernel) ((((((h₁.append h₂).append h₃).append h₄).append h₅).append h₆).append h₇)
  exact absurd hle (by decide +kernel)

end Cobra
