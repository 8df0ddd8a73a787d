import CobraProxy.Proofs.DataLimiter

/-! One live counter for an account and period: the map of counters stays within its capacity, sessions of
one key share the entry under that key, and an entry is seeded only while its key has no session. -/

namespace Cobra

namespace CustomerDataLimiter

theorem size_makeRoom_le (l : CustomerDataLimiter) (candidate : Option PeriodKey) :
    (l.makeRoom candidate).states.size ≤ l.states.size := by
  rcases l.makeRoom_cases candidate with heq | ⟨victim, -, heq⟩
  · rw [heq]
  · rw [heq]
    exact l.states.size_remove_le victim

theorem maxCachedPeriods_makeRoom (l : CustomerDataLimiter) (candidate : Option PeriodKey) :
    (l.makeRoom candidate).maxCachedPeriods = l.maxCachedPeriods := by
  rcases l.makeRoom_cases candidate with heq | ⟨victim, -, heq⟩ <;> rw [heq]

/-- A counter is created only where there is room for it. -/
theorem room_stateFor {l : CustomerDataLimiter} (h : l.states.size ≤ l.maxCachedPeriods) (db : Database)
    (identity : IngressIdentity) (periodStart : UnixTimestamp) (sequence : ℕ) (candidate : Option PeriodKey) :
    (l.stateFor db identity periodStart sequence candidate).2.states.size ≤ l.maxCachedPeriods ∧
      (l.stateFor db identity periodStart sequence candidate).2.maxCachedPeriods = l.maxCachedPeriods := by
  have hsize := (l.size_makeRoom_le candidate).trans h
  have hmax := l.maxCachedPeriods_makeRoom candidate
  unfold stateFor
  dsimp only
  split
  · exact ⟨h, rfl⟩
  · rename_i hnone
    split_ifs with hfull
    · exact ⟨hsize, hmax⟩
    · split
      · exact ⟨hsize, hmax⟩
      · split_ifs
        · exact ⟨hsize, hmax⟩
        · refine ⟨?_, hmax⟩
          have hfree : (l.makeRoom candidate).states.find (identity.accountId, periodStart) = none := by
            cases hf : (l.makeRoom candidate).states.find (identity.accountId, periodStart) with
            | none => rfl
            | some state => rw [find_makeRoom hf] at hnone; cases hnone
          show ((l.makeRoom candidate).states.create _ _).size ≤ _
          rw [ArcCache.size_create hfree]
          omega

end CustomerDataLimiter

namespace DataSystem

variable {s s' : DataSystem} {act : DataAct} {t u : Tunnel}

/-- The steps of the system, and the drop of a session at any point, in the middle of a checkpoint too. -/
inductive SessionStep (s : DataSystem) : DataAct → DataSystem → Prop
  | step {act : DataAct} {s' : DataSystem} (h : Step s act s') : SessionStep s act s'
  | drop {t : Tunnel} (pre post : List Tunnel) (htunnels : s.tunnels = pre ++ t :: post) :
      SessionStep s (.finish t.session.key) { s with tunnels := pre ++ post }

/-- The map of counters has room for `n` entries and has at most that many. -/
def Room (n : ℕ) (s : DataSystem) : Prop :=
  s.limiter.maxCachedPeriods = n ∧ s.limiter.states.size ≤ n

theorem TunnelStep.room {t' : Tunnel} (h : TunnelStep s t s' t') :
    s'.limiter.maxCachedPeriods = s.limiter.maxCachedPeriods ∧
      s'.limiter.states.size = s.limiter.states.size := by
  cases h <;> exact ⟨rfl, rfl⟩

theorem Room.step {n : ℕ} (h : Room n s) (hs : SessionStep s act s') : Room n s' := by
  cases hs with
  | drop => exact h
  | step hs =>
    cases hs with
    | lock kind identity periodStart sequence candidate =>
      obtain ⟨hsize, hmax⟩ := CustomerDataLimiter.room_stateFor (h.1 ▸ h.2) s.database identity periodStart
        sequence candidate
      unfold lockSection
      split
      · rename_i heq
        rw [heq] at hsize hmax
        exact ⟨hmax.trans h.1, hsize.trans h.1.le⟩
      · rename_i heq
        rw [heq] at hsize hmax
        exact ⟨hmax.trans h.1, hsize.trans h.1.le⟩
    | check kind identity periodStart state =>
      unfold checkSection
      split <;> exact h
    | tunnel pre post htunnels ht =>
      obtain ⟨hmax, hsize⟩ := ht.room
      exact ⟨hmax.trans h.1, hsize.le.trans h.2⟩
    | begin => exact h
    | finish => exact h
    | admitRequest => exact h

theorem Held.sessionStep (h : Held s) (hs : SessionStep s act s') : Held s' := by
  cases hs with
  | step hs => exact h.step hs
  | drop pre post htunnels =>
    refine h.of_frame (fun _ => rfl) rfl fun x hx => ?_
    rcases mem_holders.1 hx with hc | ⟨u, hu, he⟩
    · exact mem_holders.2 (.inl hc)
    · exact mem_holders.2 (.inr ⟨u, htunnels ▸ mem_of_mem_others hu, he⟩)

/-- Where the entry of a key becomes another one it has just been read from the database, and no session
of the key was alive. -/
theorem Held.seeded (h : Held s) (hs : SessionStep s act s') {key : PeriodKey} {state : ℕ}
    (hnew : s'.limiter.states.find key = some state) (hold : s.limiter.states.find key ≠ some state) :
    (∀ t ∈ s.tunnels, t.session.key ≠ key) ∧
      s.database.persistedBytes key.1 key.2 = .ok (s'.counter state).usedBytes := by
  cases hs with
  | drop => exact absurd hnew hold
  | step hs =>
    cases hs with
    | lock kind identity periodStart sequence candidate =>
      unfold DataSystem.lockSection at hnew ⊢
      rcases s.limiter.stateFor_cases s.database identity periodStart sequence candidate with
        ⟨state', hfind, heq⟩ | ⟨hnone, ⟨e, heq⟩ | ⟨bytes, hbytes, -, heq⟩⟩
      · rw [heq] at hnew
        exact absurd hnew hold
      · rw [heq] at hnew
        exact absurd (CustomerDataLimiter.find_makeRoom hnew) hold
      · rw [heq] at hnew ⊢
        dsimp only at hnew ⊢
        rw [ArcCache.find_create] at hnew
        split_ifs at hnew with hkey
        · refine ⟨fun t ht htk => ?_, ?_⟩
          · have hentry := held_of_tunnel h ht
            rw [htk, hkey, hnone] at hentry
            cases hentry
          · rw [hkey, hbytes, counter, ArcCache.cells_create, if_pos (Option.some.inj hnew).symm]
        · exact absurd (CustomerDataLimiter.find_makeRoom hnew) hold
    | check kind identity periodStart state' =>
      unfold DataSystem.checkSection at hnew
      split at hnew <;> exact absurd hnew hold
    | tunnel pre post htunnels ht => exact absurd ((ht.frame.find key).symm.trans hnew) hold
    | begin => exact absurd hnew hold
    | finish => exact absurd hnew hold
    | admitRequest => exact absurd hnew hold

theorem TunnelStep.usedBytes_of_ne {t' : Tunnel} (h : TunnelStep s t s' t') {state : ℕ}
    (hne : state ≠ t.session.state) : (s'.counter state).usedBytes = (s.counter state).usedBytes := by
  cases h with
  | grant => simp [store, counter, ArcCache.cells_modify, hne]
  | _ => rfl

/-- An entry of the map keeps its counter, unless a session of its key copies. -/
theorem Held.usedBytes_kept (h : Held s) (hs : SessionStep s act s') {key : PeriodKey} {state : ℕ}
    (hstate : s.limiter.states.find key = some state) (hact : act ≠ .tunnel key) :
    (s'.counter state).usedBytes = (s.counter state).usedBytes := by
  cases hs with
  | drop => rfl
  | step hs =>
    cases hs with
    | lock kind identity periodStart sequence candidate =>
      obtain ⟨-, hcells, hnext⟩ := s.limiter.makeRoom_frame candidate
      unfold DataSystem.lockSection
      rcases s.limiter.stateFor_cases s.database identity periodStart sequence candidate with
        ⟨state', -, heq⟩ | ⟨-, ⟨e, heq⟩ | ⟨bytes, -, -, heq⟩⟩
      · rw [heq]
        simp only [counter, ArcCache.cells_modify]
        split_ifs with hsame
        · rw [hsame]
        · rfl
      · rw [heq]
        simp only [counter, hcells]
      · rw [heq]
        have hcreated : state ≠ (s.limiter.makeRoom candidate).states.next := by
          rw [hnext]
          exact ne_of_lt (h.fresh key state hstate)
        simp only [counter, ArcCache.cells_create, if_neg hcreated, hcells]
    | check kind identity periodStart state' =>
      unfold DataSystem.checkSection
      split <;> rfl
    | @tunnel t t' _ pre post htunnels ht =>
      refine ht.usedBytes_of_ne fun hsame => hact ?_
      have hentry := held_of_tunnel h (t := t) (htunnels ▸ by simp)
      rw [h.inj _ _ _ hstate (hsame ▸ hentry)]
    | begin => rfl
    | finish => rfl
    | admitRequest => rfl

/-- What the counters promise of a run. -/
structure OneCounter (n : ℕ) (tr : List (DataSystem × DataAct)) (s : DataSystem) : Prop where
  room : s.limiter.states.size ≤ n
  entry : ∀ t ∈ s.tunnels, s.limiter.states.find t.session.key = some t.session.state
  shared : ∀ t ∈ s.tunnels, ∀ u ∈ s.tunnels, t.session.key = u.session.key → t.session.state = u.session.state
  seeded : ∀ r act r' key state, (r, act, r') ∈ Runs.transitions tr s →
    r'.limiter.states.find key = some state → r.limiter.states.find key ≠ some state →
    (∀ t ∈ r.tunnels, t.session.key ≠ key) ∧
      r.database.persistedBytes key.1 key.2 = .ok (r'.counter state).usedBytes
  kept : ∀ r act r' key state, (r, act, r') ∈ Runs.transitions tr s →
    r.limiter.states.find key = some state → act ≠ .tunnel key →
    (r'.counter state).usedBytes = (r.counter state).usedBytes

end DataSystem

open DataSystem

/-- In every interleaving of calls, sessions and drops the map of counters stays within its capacity, a live
session draws from the entry of its account and period, so sessions of one key share it, an entry is seeded
from the database only while no session of its key is alive, and only sessions of its key change it then. -/
theorem sessions_share_counter {policy : SingleTierPolicy} {n : ℕ} {limiter : CustomerDataLimiter}
    (hnew : CustomerDataLimiter.new policy n = .ok limiter) {database : Database}
    {tr : List (DataSystem × DataAct)} {s : DataSystem}
    (h : Runs.Run SessionStep (init limiter database) tr s) : OneCounter n tr s := by
  have h0 : Held (init limiter database) ∧ Room n (init limiter database) := by
    unfold CustomerDataLimiter.new at hnew
    split_ifs at hnew
    cases hnew
    exact ⟨ArcCache.Coherent.empty _, rfl, Nat.zero_le _⟩
  have hstep : ∀ s act s', Held s ∧ Room n s → SessionStep s act s' → Held s' ∧ Room n s' :=
    fun s act s' hI hs => ⟨hI.1.sessionStep hs, hI.2.step hs⟩
  obtain ⟨hheld, hroom⟩ := h.invariant (I := fun s => Held s ∧ Room n s) h0 hstep
  refine ⟨hroom.2, fun t ht => held_of_tunnel hheld ht, fun t ht u hu hkey => ?_,
    fun r act r' key state hr hnew hold => ?_, fun r act r' key state hr hstate hact => ?_⟩
  · have hentry := held_of_tunnel hheld ht
    rw [hkey, held_of_tunnel hheld hu] at hentry
    exact (Option.some.inj hentry).symm
  · obtain ⟨hI, hs⟩ := h.of_mem_transitions (I := fun s => Held s ∧ Room n s) h0 hstep hr
    exact hI.1.seeded hs hnew hold
  · obtain ⟨hI, hs⟩ := h.of_mem_transitions (I := fun s => Held s ∧ Room n s) h0 hstep hr
    exact hI.1.usedBytes_kept hs hstate hact

/-! Two workspaces of one account. -/

def sharedLimits : AccountLimits where
  requestsPerSecond := .ofNat 10
  requestBurst := .ofNat 10
  maxConcurrentTunnels := .ofNat 10
  periodRequestLimit := none
  periodByteLimit := some (.ofNat 100)

def sharedTenant : ManagerSystem :=
  [.createAccount "a@x".toList none .basic sharedLimits, .createWorkspace (.ofNat 1) "v".toList,
    .createWorkspace (.ofNat 1) "w".toList].foldl (ManagerSystem.step ⟨fun _ => .replicate 32 0⟩) .empty

def sharedIdentity (workspace : ℕ) : IngressIdentity :=
  ⟨.ofNat 1, .ofNat workspace, .ofNat 1, .ofNat 1, sharedLimits⟩

/-- Both open a session, and the two sessions draw from one counter. -/
theorem sessions_share_counter_pair : ∃ limiter tr s, CustomerDataLimiter.new ⟨.ofNat 100⟩ 1 = .ok limiter ∧
    Runs.Run SessionStep (init limiter sharedTenant.database) tr s ∧
    s.tunnels.map (fun t => (t.session.identity.workspaceId, t.session.state)) = [(.ofNat 2, 0), (.ofNat 1, 0)] ∧
    OneCounter 1 tr s := by
  have hstart : Runs.Run SessionStep (init ⟨⟨.ofNat 100⟩, ArcCache.empty default, 1, 1⟩ sharedTenant.database) []
    (init ⟨⟨.ofNat 100⟩, ArcCache.empty default, 1, 1⟩ sharedTenant.database) := .nil
  have htier : ∀ (l : CustomerDataLimiter) (i : IngressIdentity), (l.checkTier i).toOption = some () →
      l.checkTier i = .ok () := fun l i => Fallible.toOption_eq_some.1
  have hopened := ((hstart.snoc (.step (.begin .openSession (sharedIdentity 1) .epoch
      (htier _ _ (by decide +kernel))))).snoc
    (.step (.lock .openSession (sharedIdentity 1) .epoch 1 none [] [] rfl (by decide +kernel)))).snoc
    (.step (.check .openSession (sharedIdentity 1) .epoch 0 [] [] (by rfl)))
  have hshared := ((hopened.snoc (.step (.begin .openSession (sharedIdentity 2) .epoch
      (htier _ _ (by decide +kernel))))).snoc
    (.step (.lock .openSession (sharedIdentity 2) .epoch 2 none [] [] rfl (by decide +kernel)))).snoc
    (.step (.check .openSession (sharedIdentity 2) .epoch 0 [] [] (by rfl)))
  exact ⟨_, _, _, rfl, hshared, by decide +kernel, sessions_share_counter rfl hshared⟩

/-! ### A call that is refused -/

namespace CustomerDataLimiter

/-- The map has the keys and the counters that it had. -/
def SameCache (l l' : CustomerDataLimiter) : Prop :=
  (∀ key, l'.states.find key = l.states.find key) ∧ l'.states.cells = l.states.cells

/-- Somebody holds a clone of every counter of the map. -/
def AllHeld (l : CustomerDataLimiter) (holders : List (PeriodKey × ℕ)) : Prop :=
  ∀ key state, l.states.find key = some state → ∃ h ∈ holders, h.2 = state

theorem sameCache_makeRoom_iff {l : CustomerDataLimiter} {holders : List (PeriodKey × ℕ)}
    {candidate : Option PeriodKey} (hcandidate : l.states.LeastUsed
      (fun state => ArcCache.strongCount holders state = 1) CustomerPeriodUsage.lastUsed candidate) :
    SameCache l (l.makeRoom candidate) ↔ l.states.size < l.maxCachedPeriods ∨ l.AllHeld holders := by
  have hheld : ∀ state, ¬ ArcCache.strongCount holders state = 1 ↔ ∃ h ∈ holders, h.2 = state := by
    intro state
    rw [ArcCache.strongCount_eq_one]
    push Not
    rfl
  unfold makeRoom
  split_ifs with hfull
  · cases candidate with
    | none =>
      refine iff_of_true ⟨fun _ => rfl, rfl⟩ (.inr fun key state hstate => ?_)
      exact (hheld state).1 (hcandidate key state hstate)
    | some victim =>
      obtain ⟨state, hstate, hcount, -⟩ := hcandidate
      refine iff_of_false ?_ ?_
      · rintro ⟨hfind, -⟩
        have hvictim := hfind victim
        rw [ArcCache.find_remove, if_pos rfl, hstate] at hvictim
        cases hvictim
      · rintro (hroom | hall)
        · omega
        · exact (hheld state).2 (hall victim state hstate) hcount
  · exact iff_of_true ⟨fun _ => rfl, rfl⟩ (.inl (by omega))

/-- A call that is refused leaves the map of counters alone exactly when it is refused for the tier, when the map
has room, or when every counter of it is held: otherwise an idle counter has been evicted before the persisted
usage is read and the limit checked. -/
theorem refused_call_keeps_cache_iff (l : CustomerDataLimiter) (holders : List (PeriodKey × ℕ)) (db : Database)
    (identity : IngressIdentity) (periodStart : UnixTimestamp) (candidate : Option PeriodKey)
    (hcandidate : l.states.LeastUsed (fun state => ArcCache.strongCount holders state = 1)
      CustomerPeriodUsage.lastUsed candidate)
    (e : CustomerDataAdmissionError) (h : (l.stateForCall db identity periodStart candidate).1 = .error e) :
    SameCache l (l.stateForCall db identity periodStart candidate).2 ↔
      identity.limits.periodByteLimit ≠ some l.policy.periodByteLimit ∨
        l.states.size < l.maxCachedPeriods ∨ l.AllHeld holders := by
  have htier : l.checkTier identity = .ok () ↔ identity.limits.periodByteLimit = some l.policy.periodByteLimit := by
    unfold checkTier
    dsimp only
    split_ifs with hstored
    · refine iff_of_false (by simp) fun heq => hstored ?_
      rw [heq]
      rfl
    · rw [not_not, Option.map_eq_some_iff] at hstored
      obtain ⟨limit, hlimit, heq⟩ := hstored
      exact iff_of_true rfl (by rw [hlimit, Subtype.ext heq])
  unfold stateForCall at h ⊢
  cases hcheck : l.checkTier identity with
  | error e' =>
    have hmismatch : identity.limits.periodByteLimit ≠ some l.policy.periodByteLimit := by
      intro heq
      rw [htier.2 heq] at hcheck
      cases hcheck
    exact iff_of_true ⟨fun _ => rfl, rfl⟩ (.inl hmismatch)
  | ok _ =>
    rw [hcheck] at h
    have hmatch : ¬ identity.limits.periodByteLimit ≠ some l.policy.periodByteLimit := not_not.2 (htier.1 hcheck)
    rw [or_iff_right hmatch]
    set bumped : CustomerDataLimiter := { l with sequence := (l.sequence + 1) % 2 ^ 64 }
    rcases bumped.stateFor_cases db identity periodStart l.sequence candidate with
      ⟨state, -, heq⟩ | ⟨-, ⟨e', heq⟩ | ⟨bytes, -, -, heq⟩⟩
    · dsimp only at h
      rw [heq] at h
      cases h
    · dsimp only
      rw [heq]
      exact sameCache_makeRoom_iff (l := bumped) hcandidate
    · dsimp only at h
      rw [heq] at h
      cases h

/-- The one entry of a full map, the counter of an account without a session. -/
def idleLimiter : CustomerDataLimiter where
  policy := ⟨.ofNat 100⟩
  states := (ArcCache.empty default).create (.ofNat 2, .epoch) ⟨5, 1⟩
  maxCachedPeriods := 1
  sequence := 2

/-- The first workspace has used up the allowance. -/
def spentDatabase : Database :=
  match UsageDelta.new 0 60 40 with
  | .ok delta => (sharedTenant.database.recordUsage (sharedIdentity 1) .epoch delta).2
  | .error _ => sharedTenant.database

theorem refused_call_keeps_cache_iff_held :
    SameCache idleLimiter (idleLimiter.stateForCall spentDatabase (sharedIdentity 1) .epoch none).2 ↔
      (sharedIdentity 1).limits.periodByteLimit ≠ some idleLimiter.policy.periodByteLimit ∨
        idleLimiter.states.size < idleLimiter.maxCachedPeriods ∨ idleLimiter.AllHeld [((.ofNat 2, .epoch), 0)] :=
  refused_call_keeps_cache_iff idleLimiter [((.ofNat 2, .epoch), 0)] spentDatabase (sharedIdentity 1) .epoch none
    (by decide +kernel) .stateCapacityReached (by rfl)

/-- An account that has used up its allowance evicts the counter of another account. -/
theorem exhausted_account_evicts :
    ¬ ∀ (l : CustomerDataLimiter) (holders : List (PeriodKey × ℕ)) (db : Database) (identity : IngressIdentity)
      (periodStart : UnixTimestamp) (candidate : Option PeriodKey),
      l.states.LeastUsed (fun state => ArcCache.strongCount holders state = 1) CustomerPeriodUsage.lastUsed
        candidate →
      ∀ e, (l.stateForCall db identity periodStart candidate).1 = .error e →
      SameCache l (l.stateForCall db identity periodStart candidate).2 := by
  intro hclaim
  have hsame := hclaim idleLimiter [] spentDatabase (sharedIdentity 1) .epoch (some (.ofNat 2, .epoch))
    (by decide +kernel) (.limitReached 100) (by rfl)
  have hkept := hsame.1 (.ofNat 2, .epoch)
  exact absurd hkept (by decide +kernel)

end CustomerDataLimiter

end Cobra
