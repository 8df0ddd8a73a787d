import CobraProxy.Proofs.DataCap
import CobraProxy.Proofs.Sessions
import CobraProxy.Proofs.Usage
import CobraProxy.Spec.Checkpoints

/-! What checkpoints store. The counters of a session stay within what was reserved for it, so they do not wrap;
a row has what it had at the start and what the sessions of its scope have stored, the part of a checkpoint that
has committed and not yet reached the session's counters included. -/

namespace Cobra

open Runs

/-! ### The session's counters do not wrap -/

/-- The bytes reserved for a copy that it has not recorded. -/
def CopyPhase.reserved : CopyPhase → ℕ
  | .writing allowance _ => allowance.bytes
  | _ => 0

def Tunnel.reserved (t : Tunnel) : ℕ := (t.copying .toTor).reserved + (t.copying .fromTor).reserved

theorem Tunnel.reserved_go (t : Tunnel) (d : CustomerDataDirection) (phase : CopyPhase) :
    (t.go d phase).reserved + (t.copying d).reserved = t.reserved + phase.reserved := by
  cases d <;> simp only [reserved, copying_go, reduceCtorEq, if_true, if_false] <;> omega

namespace DataSystem

variable {s s' : DataSystem} {act : DataAct} {t t' : Tunnel} {limit : ℕ}

/-- A counter that was there only grows, within the limit; a new one starts below the limit. -/
theorem used_step (hheld : Held s) (hpolicy : s.limiter.policy.periodByteLimit.1 = limit)
    (hsound : ∀ t ∈ s.tunnels, Sound limit t) (hs : Step s act s') {key : PeriodKey} {state : ℕ}
    (hfind : s'.limiter.states.find key = some state) :
    (s.limiter.states.find key = some state ∧ (s.counter state).usedBytes ≤ (s'.counter state).usedBytes ∧
      ((s.counter state).usedBytes ≤ limit → (s'.counter state).usedBytes ≤ limit)) ∨
    (s.limiter.states.find key ≠ some state ∧ (s'.counter state).usedBytes ≤ limit) := by
  have hsame : s.limiter.states.find key = some state → (s'.counter state).usedBytes = (s.counter state).usedBytes →
      (s.limiter.states.find key = some state ∧ (s.counter state).usedBytes ≤ (s'.counter state).usedBytes ∧
        ((s.counter state).usedBytes ≤ limit → (s'.counter state).usedBytes ≤ limit)) ∨
      (s.limiter.states.find key ≠ some state ∧ (s'.counter state).usedBytes ≤ limit) :=
    fun hold hused => .inl ⟨hold, hused.ge, hused.le.trans⟩
  cases hs with
  | begin => exact hsame hfind rfl
  | lock kind identity periodStart sequence candidate =>
    obtain ⟨-, hcells, hnext⟩ := s.limiter.makeRoom_frame candidate
    unfold lockSection at hfind hsame ⊢
    rcases s.limiter.stateFor_cases s.database identity periodStart sequence candidate with
      ⟨state', -, heq⟩ | ⟨-, ⟨e, heq⟩ | ⟨bytes, -, hlt, heq⟩⟩
    · rw [heq] at hfind hsame ⊢
      refine hsame hfind ?_
      simp only [counter, ArcCache.cells_modify]
      split_ifs with hp
      · rw [hp]
      · rfl
    · rw [heq] at hfind hsame ⊢
      refine hsame (CustomerDataLimiter.find_makeRoom hfind) ?_
      simp only [counter, hcells]
    · rw [heq] at hfind hsame ⊢
      dsimp only [counter] at hfind hsame ⊢
      rw [ArcCache.find_create] at hfind
      rw [ArcCache.cells_create] at hsame ⊢
      split_ifs at hfind with hkey
      · have hfresh : s.limiter.states.find key ≠ some state := by
          intro hold
          have hlast := hheld.fresh key state hold
          rw [← hnext, Option.some.inj hfind] at hlast
          exact lt_irrefl _ hlast
        rw [if_pos (Option.some.inj hfind).symm]
        exact .inr ⟨hfresh, (hpolicy ▸ hlt).le⟩
      · have hold := CustomerDataLimiter.find_makeRoom hfind
        refine hsame hold ?_
        rw [if_neg (ne_of_lt (hnext ▸ hheld.fresh key state hold)), hcells]
  | check kind identity periodStart state' pre post =>
    have hlimiter : (s.checkSection kind identity periodStart state' (pre ++ post)).limiter = s.limiter := by
      unfold checkSection
      split <;> rfl
    refine hsame (hlimiter ▸ hfind) ?_
    rw [counter, hlimiter]
    rfl
  | @tunnel t t' s₁ pre post htunnels ht =>
    have hold : s.limiter.states.find key = some state := (ht.frame.find key).symm.trans hfind
    have hmem : t ∈ s.tunnels := htunnels ▸ by simp
    rcases ht.effect (hsound t hmem) with ⟨hlimiter, -, -⟩ | ⟨bytes, hle, rfl, -⟩ | ⟨bytes, rfl, -⟩
    · refine hsame hold ?_
      show (s₁.limiter.states.cells state).usedBytes = _
      rw [hlimiter]
      rfl
    · left
      show _ ∧ _ ≤ ((s.store _ _).counter state).usedBytes ∧ (_ → ((s.store _ _).counter state).usedBytes ≤ limit)
      rw [counter_store]
      split_ifs with hp
      · subst hp
        exact ⟨hold, Nat.le_add_right _ _, fun _ => hle⟩
      · exact ⟨hold, le_rfl, id⟩
    · exact hsame hold rfl
  | finish => exact hsame hfind rfl
  | admitRequest => exact hsame hfind rfl

/-- A session has recorded no more than was reserved for it in its counter, which is within the limit. -/
structure Funded (limit : ℕ) (s : DataSystem) : Prop where
  held : Held s
  policy : s.limiter.policy.periodByteLimit.1 = limit
  sound : ∀ t ∈ s.tunnels, Sound limit t
  within : ∀ key state, s.limiter.states.find key = some state → (s.counter state).usedBytes ≤ limit
  covered : ∀ t ∈ s.tunnels, t.session.bytesToTor + t.session.bytesFromTor + t.reserved ≤
    (s.counter t.session.state).usedBytes

theorem Funded.le_limit (h : Funded limit s) (ht : t ∈ s.tunnels) :
    t.session.bytesToTor + t.session.bytesFromTor + t.reserved ≤ limit :=
  (h.covered t ht).trans (h.within _ _ (held_of_tunnel h.held ht))

/-- Recording moves the reserved bytes to the session's counters, which have room for them. -/
theorem recordTransferred_add (session : CustomerDataSession) (bytes : ℕ) (d : CustomerDataDirection)
    (h : session.bytesToTor + session.bytesFromTor + bytes < 2 ^ 64) :
    (session.recordTransferred d bytes).bytesToTor + (session.recordTransferred d bytes).bytesFromTor =
        session.bytesToTor + session.bytesFromTor + bytes ∧
      session.bytesToTor ≤ (session.recordTransferred d bytes).bytesToTor ∧
      session.bytesFromTor ≤ (session.recordTransferred d bytes).bytesFromTor := by
  cases d with
  | toTor =>
    have hmod : (session.bytesToTor + bytes) % 2 ^ 64 = session.bytesToTor + bytes := Nat.mod_eq_of_lt (by omega)
    simp only [CustomerDataSession.recordTransferred, hmod]
    omega
  | fromTor =>
    have hmod : (session.bytesFromTor + bytes) % 2 ^ 64 = session.bytesFromTor + bytes :=
      Nat.mod_eq_of_lt (by omega)
    simp only [CustomerDataSession.recordTransferred, hmod]
    omega

/-- The tunnel's own step keeps its session covered. -/
theorem TunnelStep.covered (hs : TunnelStep s t s' t') (hsound : Sound limit t) (hlimit : limit < 2 ^ 64)
    (hcovered : t.session.bytesToTor + t.session.bytesFromTor + t.reserved ≤
      (s.counter t.session.state).usedBytes) (hwithin : (s.counter t.session.state).usedBytes ≤ limit) :
    t'.session.bytesToTor + t'.session.bytesFromTor + t'.reserved ≤ (s'.counter t.session.state).usedBytes := by
  have hgo : ∀ (d : CustomerDataDirection) (phase : CopyPhase), phase.reserved ≤ (t.copying d).reserved →
      t.session.bytesToTor + t.session.bytesFromTor + (t.go d phase).reserved ≤
        (s.counter t.session.state).usedBytes := by
    intro d phase hphase
    have := t.reserved_go d phase
    omega
  cases hs with
  | grant d requested current projected allowance hd hc =>
    obtain ⟨rfl, -⟩ := hsound.2 d _ _ _ _ hd
    have hreserved := t.reserved_go d (.writing allowance 0)
    rw [hd] at hreserved
    rw [counter_store, if_pos rfl]
    simp only [CopyPhase.reserved] at hreserved
    show t.session.bytesToTor + t.session.bytesFromTor + (t.go d (.writing allowance 0)).reserved ≤ _
    omega
  | write d allowance handed bytes hd =>
    exact hgo d (.writing allowance (handed + bytes)) (by rw [hd]; rfl)
  | record d allowance hd =>
    have hreserved := t.reserved_go d (if allowance.exhausted then .closed else .reading)
    have hnone : (if allowance.exhausted then CopyPhase.closed else .reading).reserved = 0 := by
      split_ifs <;> rfl
    rw [hd, hnone] at hreserved
    simp only [CopyPhase.reserved] at hreserved
    obtain ⟨hadd, -, -⟩ := recordTransferred_add t.session allowance.bytes d (by omega)
    show (t.session.recordTransferred d allowance.bytes).bytesToTor +
      (t.session.recordTransferred d allowance.bytes).bytesFromTor + (t.go d _).reserved ≤ _
    omega
  | read d | refuse d | load d | retry d | close d => exact hgo d _ (Nat.zero_le _)
  | _ => exact hcovered

theorem Funded.step (h : Funded limit s) (hlimit : limit < 2 ^ 64) (hs : Step s act s') : Funded limit s' := by
  have hheld := h.held.step hs
  have hwithin : ∀ key state, s'.limiter.states.find key = some state → (s'.counter state).usedBytes ≤ limit := by
    intro key state hfind
    rcases used_step h.held h.policy h.sound hs hfind with ⟨hold, -, hkeeps⟩ | ⟨-, hle⟩
    · exact hkeeps (h.within key state hold)
    · exact hle
  -- a session that took no step is covered by its counter as it grows
  have hother : ∀ t ∈ s.tunnels, t ∈ s'.tunnels → t.session.bytesToTor + t.session.bytesFromTor + t.reserved ≤
      (s'.counter t.session.state).usedBytes := by
    intro t ht ht'
    rcases used_step h.held h.policy h.sound hs (held_of_tunnel hheld ht') with ⟨-, hgrows, -⟩ | ⟨hnew, -⟩
    · exact (h.covered t ht).trans hgrows
    · exact absurd (held_of_tunnel h.held ht) hnew
  have hkept : (∀ t ∈ s'.tunnels, t ∈ s.tunnels) → s'.limiter.policy = s.limiter.policy → Funded limit s' :=
    fun hsub hpolicy => ⟨hheld, hpolicy ▸ h.policy, fun t ht => h.sound t (hsub t ht), hwithin,
      fun t ht => hother t (hsub t ht) ht⟩
  cases hs with
  | begin => exact hkept (fun _ ht => ht) rfl
  | lock kind identity periodStart sequence candidate pre post =>
    refine hkept ?_ ?_ <;> unfold lockSection
    · split <;> exact fun _ ht => ht
    · rcases s.limiter.stateFor_cases s.database identity periodStart sequence candidate with
        ⟨state, -, heq⟩ | ⟨-, ⟨e, heq⟩ | ⟨bytes, -, -, heq⟩⟩ <;> rw [heq]
      · exact (s.limiter.makeRoom_frame candidate).1
      · exact (s.limiter.makeRoom_frame candidate).1
  | check kind identity periodStart state pre post =>
    have hsection : (s.checkSection kind identity periodStart state (pre ++ post)).limiter.policy = s.limiter.policy ∧
        ∀ t ∈ (s.checkSection kind identity periodStart state (pre ++ post)).tunnels, t ∈ s.tunnels ∨
          t = .opened identity periodStart s.limiter.policy.periodByteLimit.1 state := by
      unfold checkSection
      split
      · exact ⟨rfl, fun t ht => (List.mem_cons.1 ht).symm⟩
      · exact ⟨rfl, fun t ht => .inl ht⟩
    refine ⟨hheld, hsection.1 ▸ h.policy, fun t ht => ?_, hwithin, fun t ht => ?_⟩
    · rcases hsection.2 t ht with hold | rfl
      · exact h.sound t hold
      · exact ⟨h.policy, fun d _ _ _ _ he => by cases he⟩
    · rcases hsection.2 t ht with hold | rfl
      · exact hother t hold ht
      · exact Nat.zero_le _
  | @tunnel t t' s₁ pre post htunnels ht =>
    have hmem : t ∈ s.tunnels := htunnels ▸ by simp
    refine ⟨hheld, ht.frame.policy ▸ h.policy, fun u hu => ?_, hwithin, fun u hu => ?_⟩
    · rcases eq_or_mem_of_mem_step hu with rfl | hold
      · exact (h.sound t hmem).step ht
      · exact h.sound u (htunnels ▸ hold)
    · rcases eq_or_mem_of_mem_step hu with rfl | hold
      · rw [ht.frame.state]
        exact ht.covered (h.sound t hmem) hlimit (h.covered t hmem)
          (h.within _ _ (held_of_tunnel h.held hmem))
      · exact hother u (htunnels ▸ hold) hu
  | finish pre post htunnels =>
    exact hkept (fun t ht => htunnels ▸ mem_of_mem_others ht) rfl
  | admitRequest => exact hkept (fun _ ht => ht) rfl

/-! ### What is stored -/

/-- What the session's row has of it: the values of a checkpoint that has committed, else the counters that the
last one left. -/
def committed (t : Tunnel) : ℤ × ℤ :=
  match t.checkpoint with
  | .storeTo bytesToTor bytesFromTor => (bytesToTor, bytesFromTor)
  | .storeFrom bytesFromTor => (t.session.persistedToTor, bytesFromTor)
  | _ => t.session.persisted

/-- The values that a checkpoint has loaded lie between the counters it left last and those of the traffic. -/
def Ordered (t : Tunnel) : Prop :=
  t.session.persistedToTor ≤ t.session.bytesToTor ∧ t.session.persistedFromTor ≤ t.session.bytesFromTor ∧
  match t.checkpoint with
  | .idle => True
  | .loadFrom bytesToTor => t.session.persistedToTor ≤ bytesToTor ∧ bytesToTor ≤ t.session.bytesToTor
  | .write bytesToTor bytesFromTor | .storeTo bytesToTor bytesFromTor =>
    (t.session.persistedToTor ≤ bytesToTor ∧ bytesToTor ≤ t.session.bytesToTor) ∧
      t.session.persistedFromTor ≤ bytesFromTor ∧ bytesFromTor ≤ t.session.bytesFromTor
  | .storeFrom bytesFromTor =>
    t.session.persistedFromTor ≤ bytesFromTor ∧ bytesFromTor ≤ t.session.bytesFromTor

theorem Ordered.of_traffic (h : Ordered t) (hcheckpoint : t'.checkpoint = t.checkpoint)
    (hto : t.session.bytesToTor ≤ t'.session.bytesToTor) (hfrom : t.session.bytesFromTor ≤ t'.session.bytesFromTor)
    (hpersisted : t'.session.persistedToTor = t.session.persistedToTor ∧
      t'.session.persistedFromTor = t.session.persistedFromTor) : Ordered t' := by
  unfold Ordered at h ⊢
  rw [hcheckpoint, hpersisted.1, hpersisted.2]
  refine ⟨h.1.trans hto, h.2.1.trans hfrom, ?_⟩
  cases hphase : t.checkpoint <;> simp only [hphase] at h ⊢ <;> omega

theorem Ordered.step (h : Ordered t) (hs : TunnelStep s t s' t')
    (hroom : t.session.bytesToTor + t.session.bytesFromTor + t.reserved < 2 ^ 64) : Ordered t' := by
  cases hs with
  | record d allowance hd =>
    have hreserved : allowance.bytes ≤ t.reserved := by
      have hphase : (t.copying d).reserved = allowance.bytes := by
        rw [hd]
        rfl
      cases d <;> unfold Tunnel.reserved <;> omega
    obtain ⟨-, hto, hfrom⟩ := recordTransferred_add t.session allowance.bytes d (by omega)
    refine h.of_traffic rfl hto hfrom ?_
    cases d <;> exact ⟨rfl, rfl⟩
  | loadTo hphase => exact ⟨h.1, h.2.1, h.1, le_rfl⟩
  | loadFrom bytesToTor hphase =>
    unfold Ordered at h ⊢
    simp only [hphase] at h
    exact ⟨h.1, h.2.1, h.2.2, h.2.1, le_rfl⟩
  | unchanged => exact ⟨h.1, h.2.1, trivial⟩
  | commit bytesToTor bytesFromTor _ _ _ _ hphase =>
    unfold Ordered at h ⊢
    simp only [hphase] at h
    exact h
  | fail => exact ⟨h.1, h.2.1, trivial⟩
  | storeTo bytesToTor bytesFromTor hphase =>
    unfold Ordered at h ⊢
    simp only [hphase] at h
    exact ⟨h.2.2.1.2, h.2.1, h.2.2.2⟩
  | storeFrom bytesFromTor hphase =>
    unfold Ordered at h ⊢
    simp only [hphase] at h
    exact ⟨h.1, h.2.2.2, trivial⟩
  | _ => exact h.of_traffic rfl le_rfl le_rfl ⟨rfl, rfl⟩

theorem checkpointDelta_eq_ok {session : CustomerDataSession} {bytesToTor bytesFromTor deltaToTor deltaFromTor : ℕ} :
    session.checkpointDelta bytesToTor bytesFromTor = .ok (deltaToTor, deltaFromTor) ↔
      bytesToTor = session.persistedToTor + deltaToTor ∧ bytesFromTor = session.persistedFromTor + deltaFromTor := by
  unfold CustomerDataSession.checkpointDelta
  rw [Fallible.ite_error_eq_ok, Fallible.ite_error_eq_ok, Except.ok.injEq, Prod.mk.injEq]
  omega

theorem recordAccountBytes_eq_ok {db db' : Database} {identity : IngressIdentity} {periodStart : UnixTimestamp}
    {deltaToTor deltaFromTor : ℕ} {snapshot : UsageSnapshot}
    (h : db.recordAccountBytes identity periodStart deltaToTor deltaFromTor = (.ok snapshot, db')) :
    db.Recorded identity periodStart (0, deltaToTor, deltaFromTor) snapshot db' := by
  unfold Database.recordAccountBytes at h
  split at h
  · cases h
  · rename_i delta hdelta
    rcases db.recordUsage_cases identity periodStart delta with ⟨e, heq⟩ | ⟨snapshot', db'', heq, hrec⟩
    · rw [heq] at h
      cases h
    · rw [heq] at h
      cases h
      unfold UsageDelta.new at hdelta
      split_ifs at hdelta
      split at hdelta
      · cases hdelta
        exact hrec
      · cases hdelta

/-- A step adds to the row of its session what it adds to the session's committed bytes. -/
theorem TunnelStep.ledger (hs : TunnelStep s t s' t') (key : UsageKey) :
    t'.session.scope = t.session.scope ∧
    (s'.database.counters key).2 + (if t.session.scope = key then committed t else 0) =
      (s.database.counters key).2 + if t.session.scope = key then committed t' else 0 := by
  have hkept : ∀ {t' : Tunnel}, committed t' = committed t → t.session.scope = t.session.scope ∧
      (s.database.counters key).2 + (if t.session.scope = key then committed t else 0) =
        (s.database.counters key).2 + if t.session.scope = key then committed t' else 0 := by
    intro t' h
    rw [h]
    exact ⟨rfl, rfl⟩
  cases hs with
  | record d => cases d <;> exact ⟨rfl, rfl⟩
  | commit bytesToTor bytesFromTor deltaToTor deltaFromTor snapshot database hphase hd hne hr =>
    refine ⟨rfl, ?_⟩
    have hrec := recordAccountBytes_eq_ok hr
    obtain ⟨hto, hfrom⟩ := checkpointDelta_eq_ok.1 hd
    dsimp only
    rw [hrec.counters key, show Database.usageKey t.session.identity t.session.periodStart = t.session.scope from rfl]
    split_ifs
    · simp only [committed, hphase, CustomerDataSession.persisted, hto, hfrom, Prod.snd_add, Prod.ext_iff,
        Prod.fst_add]
      push_cast
      constructor <;> ring
    · simp
  | loadTo hphase => exact hkept (by simp [committed, hphase])
  | loadFrom bytesToTor hphase => exact hkept (by simp [committed, hphase])
  | unchanged bytesToTor bytesFromTor hphase => exact hkept (by simp [committed, hphase])
  | fail bytesToTor bytesFromTor hphase => exact hkept (by simp [committed, hphase])
  | storeTo bytesToTor bytesFromTor hphase => exact hkept (by simp [committed, hphase])
  | storeFrom bytesFromTor hphase => exact hkept (by simp [committed, hphase, CustomerDataSession.persisted])
  | _ => exact ⟨rfl, rfl⟩

end DataSystem

namespace CheckpointSystem

open DataSystem

variable {s s' : CheckpointSystem} {act : DataAct} {database : Database} {limit : ℕ}

/-- Every row has what it had at the start, what the live sessions of its scope have committed and what the ended
ones have persisted. -/
structure Accounted (database : Database) (s : CheckpointSystem) : Prop where
  ordered : ∀ t ∈ s.data.tunnels, Ordered t
  rows : ∀ key, (s.data.database.counters key).2 = (database.counters key).2 +
    ((s.data.tunnels.map fun t => if t.session.scope = key then committed t else 0).sum +
      (s.ended.map fun session => if session.scope = key then session.persisted else 0).sum)

theorem Accounted.of_frame {data : DataSystem} (h : Accounted database s) (htunnels : data.tunnels = s.data.tunnels)
    (hrows : ∀ key, (data.database.counters key).2 = (s.data.database.counters key).2) :
    Accounted database { s with data } := by
  refine ⟨fun t ht => h.ordered t (htunnels ▸ ht), fun key => ?_⟩
  rw [hrows, htunnels]
  exact h.rows key

theorem counters_admitRequest (db : Database) (identity : IngressIdentity) (periodStart : UnixTimestamp)
    (key : UsageKey) : ((db.admitRequest identity periodStart).2.counters key).2 = (db.counters key).2 := by
  have hcall := UsageCall.counters_perform (.admitRequest identity periodStart) db key
  rw [show (db.admitRequest identity periodStart).2 = (UsageCall.perform (.admitRequest identity periodStart) db).2
    from rfl, hcall]
  unfold UsageCall.accepted
  split_ifs
  · exact add_zero _
  · exact add_zero _

theorem Accounted.data {data : DataSystem} (h : Accounted database s) (hfunded : Funded limit s.data)
    (hlimit : limit < 2 ^ 64) (hs : DataSystem.Step s.data act data) (hact : ∀ key, act ≠ .finish key) :
    Accounted database { s with data } := by
  cases hs with
  | begin => exact h.of_frame rfl fun _ => rfl
  | lock =>
    unfold lockSection
    split <;> exact h.of_frame rfl fun _ => rfl
  | check =>
    unfold checkSection
    split
    · refine ⟨fun t ht => ?_, fun key => ?_⟩
      · rcases List.mem_cons.1 ht with rfl | ht
        · exact ⟨le_rfl, le_rfl, trivial⟩
        · exact h.ordered t ht
      · -- a new session has persisted nothing
        have hopened : ∀ identity periodStart limit state,
            (if (Tunnel.opened identity periodStart limit state).session.scope = key then
              committed (Tunnel.opened identity periodStart limit state) else 0) = 0 := by
          intro identity periodStart limit state
          split_ifs <;> rfl
        dsimp only
        rw [h.rows key, List.map_cons, List.sum_cons, hopened, zero_add]
    · exact h.of_frame rfl fun _ => rfl
  | @tunnel t t' s₁ pre post htunnels ht =>
    have hmem : t ∈ s.data.tunnels := htunnels ▸ by simp
    refine ⟨fun u hu => ?_, fun key => ?_⟩
    · rcases eq_or_mem_of_mem_step hu with rfl | hu
      · exact (h.ordered t hmem).step ht (lt_of_le_of_lt (hfunded.le_limit hmem) hlimit)
      · exact h.ordered u (htunnels ▸ hu)
    · obtain ⟨hscope, hledger⟩ := ht.ledger key
      have hrows := h.rows key
      rw [htunnels] at hrows
      simp only [List.map_append, List.map_cons, List.sum_append, List.sum_cons, hscope] at hrows ⊢
      rw [hrows] at hledger
      refine add_right_cancel (b := if t.session.scope = key then committed t else 0) ?_
      rw [hledger]
      abel
  | finish => exact absurd rfl (hact _)
  | admitRequest identity periodStart =>
    exact h.of_frame rfl (counters_admitRequest s.data.database identity periodStart)

theorem Accounted.step (h : Accounted database s) (hfunded : Funded limit s.data) (hlimit : limit < 2 ^ 64)
    (hs : Step s act s') : Accounted database s' := by
  cases hs with
  | step hs hact => exact h.data hfunded hlimit hs hact
  | @finish t pre post htunnels hidle =>
    refine ⟨fun u hu => h.ordered u (htunnels ▸ mem_of_mem_others hu), fun key => ?_⟩
    · have hcommitted : committed t = t.session.persisted := by
        unfold committed
        rw [hidle]
      have hrows := h.rows key
      rw [htunnels] at hrows
      simp only [List.map_append, List.map_cons, List.sum_append, List.sum_cons, hcommitted] at hrows ⊢
      rw [hrows]
      abel

theorem funded_step (h : Funded limit s.data) (hlimit : limit < 2 ^ 64) (hs : Step s act s') :
    Funded limit s'.data := by
  cases hs with
  | step hs => exact h.step hlimit hs
  | finish pre post htunnels hidle => exact h.step hlimit (.finish pre post htunnels hidle)

end CheckpointSystem

/-! ### One checkpoint -/

namespace Tunnel

open DataSystem

variable {t u t' : Tunnel} {tr : List (Tunnel × DataSystem × DataSystem)}

/-- The database is as it was after every step of the tunnel. -/
def WritesNothing (tr : List (Tunnel × DataSystem × DataSystem)) : Prop := ∀ q ∈ tr, q.2.2.database = q.2.1.database

/-- A checkpoint that has loaded `bytesToTor` loaded `bytesFromTor` in one of these steps. -/
def Loaded (bytesToTor bytesFromTor : ℕ) (tr : List (Tunnel × DataSystem × DataSystem)) : Prop :=
  ∃ q ∈ tr, q.1.checkpoint = .loadFrom bytesToTor ∧ q.1.session.bytesFromTor = bytesFromTor

/-- Where a checkpoint stands that started from `t`. -/
inductive Stands (t : Tunnel) (bytesToTor : ℕ) (tr : List (Tunnel × DataSystem × DataSystem)) (u : Tunnel) : Prop
  | loading (hphase : u.checkpoint = .loadFrom bytesToTor) (hkept : u.session.persisted = t.session.persisted)
      (hnothing : WritesNothing tr)
  | writing {bytesFromTor : ℕ} (hphase : u.checkpoint = .write bytesToTor bytesFromTor)
      (hloaded : Loaded bytesToTor bytesFromTor tr) (hkept : u.session.persisted = t.session.persisted)
      (hnothing : WritesNothing tr)
  | storingTo {bytesFromTor : ℕ} (hphase : u.checkpoint = .storeTo bytesToTor bytesFromTor)
      (hloaded : Loaded bytesToTor bytesFromTor tr)
      (hne : ((bytesToTor, bytesFromTor) : ℤ × ℤ) ≠ t.session.persisted)
  | storingFrom {bytesFromTor : ℕ} (hphase : u.checkpoint = .storeFrom bytesFromTor)
      (hloaded : Loaded bytesToTor bytesFromTor tr)
      (hne : ((bytesToTor, bytesFromTor) : ℤ × ℤ) ≠ t.session.persisted)
      (hstored : u.session.persistedToTor = bytesToTor)
  | stored {bytesFromTor : ℕ} (hphase : u.checkpoint = .idle) (hloaded : Loaded bytesToTor bytesFromTor tr)
      (hne : ((bytesToTor, bytesFromTor) : ℤ × ℤ) ≠ t.session.persisted)
      (hstored : u.session.persisted = (↑bytesToTor, ↑bytesFromTor))
  | stopped {bytesFromTor : ℕ} (hphase : u.checkpoint = .idle) (hloaded : Loaded bytesToTor bytesFromTor tr)
      (hkept : u.session.persisted = t.session.persisted) (hnothing : WritesNothing tr)

/-- What a step of the tunnel is to a checkpoint in progress. -/
theorem checkpoint_cases {s s' : DataSystem} (hs : TunnelStep s u s' t') (hbusy : u.checkpoint ≠ .idle) :
    (t'.checkpoint = u.checkpoint ∧ t'.session.persistedToTor = u.session.persistedToTor ∧
      t'.session.persistedFromTor = u.session.persistedFromTor ∧ s'.database = s.database) ∨
    (∃ bytesToTor, u.checkpoint = .loadFrom bytesToTor ∧ s' = s ∧
      t' = { u with checkpoint := .write bytesToTor u.session.bytesFromTor }) ∨
    (∃ bytesToTor bytesFromTor, u.checkpoint = .write bytesToTor bytesFromTor ∧ s' = s ∧
      t' = { u with checkpoint := .idle }) ∨
    (∃ bytesToTor bytesFromTor, u.checkpoint = .write bytesToTor bytesFromTor ∧
      t' = { u with checkpoint := .storeTo bytesToTor bytesFromTor } ∧
      ((bytesToTor, bytesFromTor) : ℤ × ℤ) ≠ u.session.persisted) ∨
    (∃ bytesToTor bytesFromTor, u.checkpoint = .storeTo bytesToTor bytesFromTor ∧ s' = s ∧ t' = { u with
      session := { u.session with persistedToTor := bytesToTor }
      checkpoint := .storeFrom bytesFromTor }) ∨
    ∃ bytesFromTor, u.checkpoint = .storeFrom bytesFromTor ∧ s' = s ∧ t' = { u with
      session := { u.session with persistedFromTor := bytesFromTor }
      checkpoint := .idle } := by
  cases hs with
  | record d => cases d <;> exact .inl ⟨rfl, rfl, rfl, rfl⟩
  | loadTo hidle => exact absurd hidle hbusy
  | loadFrom bytesToTor hphase => exact .inr (.inl ⟨bytesToTor, hphase, rfl, rfl⟩)
  | unchanged bytesToTor bytesFromTor hphase =>
    exact .inr (.inr (.inl ⟨bytesToTor, bytesFromTor, hphase, rfl, rfl⟩))
  | fail bytesToTor bytesFromTor hphase =>
    exact .inr (.inr (.inl ⟨bytesToTor, bytesFromTor, hphase, rfl, rfl⟩))
  | commit bytesToTor bytesFromTor deltaToTor deltaFromTor snapshot database hphase hd hne =>
    refine .inr (.inr (.inr (.inl ⟨bytesToTor, bytesFromTor, hphase, rfl, fun heq => hne ?_⟩)))
    obtain ⟨hto, hfrom⟩ := checkpointDelta_eq_ok.1 hd
    obtain ⟨hto', hfrom'⟩ := Prod.ext_iff.1 heq
    simp only [CustomerDataSession.persisted, Nat.cast_inj] at hto' hfrom'
    omega
  | storeTo bytesToTor bytesFromTor hphase =>
    exact .inr (.inr (.inr (.inr (.inl ⟨bytesToTor, bytesFromTor, hphase, rfl, rfl⟩))))
  | storeFrom bytesFromTor hphase => exact .inr (.inr (.inr (.inr (.inr ⟨bytesFromTor, hphase, rfl, rfl⟩))))
  | _ => exact .inl ⟨rfl, rfl, rfl, rfl⟩

theorem WritesNothing.snoc {s s' : DataSystem} (h : WritesNothing tr) (hdb : s'.database = s.database) :
    WritesNothing (tr ++ [(u, s, s')]) := by
  intro q hq
  rcases List.mem_append.1 hq with hq | hq
  · exact h q hq
  · cases List.mem_singleton.1 hq
    exact hdb

theorem Loaded.snoc {bytesToTor bytesFromTor : ℕ} (h : Loaded bytesToTor bytesFromTor tr)
    (q : Tunnel × DataSystem × DataSystem) : Loaded bytesToTor bytesFromTor (tr ++ [q]) := by
  obtain ⟨q', hq, hphase, hbytes⟩ := h
  exact ⟨q', List.mem_append_left _ hq, hphase, hbytes⟩

theorem Stands.step {bytesToTor : ℕ} {s s' : DataSystem} (h : Stands t bytesToTor tr u)
    (hbusy : u.checkpoint ≠ .idle) (hs : TunnelStep s u s' t') :
    Stands t bytesToTor (tr ++ [(u, s, s')]) t' := by
  rcases checkpoint_cases hs hbusy with ⟨hphase', hto, hfrom, hdb⟩ | ⟨a, hphase', rfl, rfl⟩ |
    ⟨a, b, hphase', rfl, rfl⟩ | ⟨a, b, hphase', rfl, hne'⟩ | ⟨a, b, hphase', rfl, rfl⟩ | ⟨b, hphase', rfl, rfl⟩
  · -- traffic: the checkpoint stands where it stood
    have hpersisted : t'.session.persisted = u.session.persisted := by
      unfold CustomerDataSession.persisted
      rw [hto, hfrom]
    cases h with
    | loading hphase hkept hnothing =>
      exact .loading (hphase'.trans hphase) (hpersisted.trans hkept) (hnothing.snoc hdb)
    | writing hphase hloaded hkept hnothing =>
      exact .writing (hphase'.trans hphase) (hloaded.snoc _) (hpersisted.trans hkept) (hnothing.snoc hdb)
    | storingTo hphase hloaded hne => exact .storingTo (hphase'.trans hphase) (hloaded.snoc _) hne
    | storingFrom hphase hloaded hne hstored =>
      exact .storingFrom (hphase'.trans hphase) (hloaded.snoc _) hne (hto.trans hstored)
    | stored hphase => exact absurd hphase hbusy
    | stopped hphase => exact absurd hphase hbusy
  · cases h with
    | loading hphase hkept hnothing =>
      cases hphase'.symm.trans hphase
      exact .writing rfl ⟨_, List.mem_append_right _ (List.mem_singleton_self _), hphase, rfl⟩ hkept
        (hnothing.snoc rfl)
    | writing hphase | storingTo hphase | storingFrom hphase | stored hphase | stopped hphase =>
      cases hphase'.symm.trans hphase
  · cases h with
    | writing hphase hloaded hkept hnothing =>
      exact .stopped rfl (hloaded.snoc _) hkept (hnothing.snoc rfl)
    | loading hphase | storingTo hphase | storingFrom hphase | stored hphase | stopped hphase =>
      cases hphase'.symm.trans hphase
  · cases h with
    | writing hphase hloaded hkept hnothing =>
      cases hphase'.symm.trans hphase
      exact .storingTo rfl (hloaded.snoc _) (hkept ▸ hne')
    | loading hphase | storingTo hphase | storingFrom hphase | stored hphase | stopped hphase =>
      cases hphase'.symm.trans hphase
  · cases h with
    | storingTo hphase hloaded hne =>
      cases hphase'.symm.trans hphase
      exact .storingFrom rfl (hloaded.snoc _) hne rfl
    | loading hphase | writing hphase | storingFrom hphase | stored hphase | stopped hphase =>
      cases hphase'.symm.trans hphase
  · cases h with
    | storingFrom hphase hloaded hne hstored =>
      cases hphase'.symm.trans hphase
      exact .stored rfl (hloaded.snoc _) hne (by rw [← hstored]; rfl)
    | loading hphase | writing hphase | storingTo hphase | stored hphase | stopped hphase =>
      cases hphase'.symm.trans hphase

theorem stands_of_run {bytesToTor : ℕ} (h : Run Tunnel.Step t tr u) (hstart : t.checkpoint = .loadFrom bytesToTor)
    (hbusy : ∀ q ∈ tr, q.1.checkpoint ≠ .idle) : Stands t bytesToTor tr u := by
  induction h with
  | nil => exact .loading hstart rfl (by simp [WritesNothing])
  | @snoc tr u u' q _ hs ih =>
    exact (ih fun q hq => hbusy q (List.mem_append_left _ hq)).step
      (hbusy _ (List.mem_append_right _ (List.mem_singleton_self _))) hs

/-- A checkpoint that ends at its write has changed nothing. -/
theorem Stands.nothing_of_kept {bytesToTor : ℕ} (h : Stands t bytesToTor tr t') (hend : t'.checkpoint = .idle)
    (hkept : t'.session.persisted = t.session.persisted) : WritesNothing tr := by
  cases h with
  | stored hphase hloaded hne hstored => exact absurd (hstored.symm.trans hkept) hne
  | stopped hphase hloaded hkept hnothing => exact hnothing
  | loading hphase | writing hphase | storingTo hphase | storingFrom hphase => cases hphase.symm.trans hend

/-- What a checkpoint has done when it returns. -/
structure Outcome (t : Tunnel) (bytesToTor bytesFromTor : ℕ) (steps : List (Tunnel × DataSystem × DataSystem))
    (ok : Bool) (t' : Tunnel) : Prop where
  loaded : Loaded bytesToTor bytesFromTor steps
  stored : ok = true → t'.session.persisted = (↑bytesToTor, ↑bytesFromTor)
  kept : ok = false → WritesNothing steps ∧ t'.session.persisted = t.session.persisted
  nothing : ((bytesToTor, bytesFromTor) : ℤ × ℤ) = t.session.persisted → WritesNothing steps

theorem outcome_of_run {bytesToTor : ℕ} {systems : DataSystem × DataSystem} {ok : Bool}
    (hstart : t.checkpoint = .loadFrom bytesToTor) (h : Run Tunnel.Step t tr u)
    (hbusy : ∀ q ∈ tr, q.1.checkpoint ≠ .idle) (hlast : Tunnel.Step u systems t') (hret : u.Returns ok t') :
    ∃ bytesFromTor, Outcome t bytesToTor bytesFromTor (tr ++ [(u, systems)]) ok t' := by
  have hstands := stands_of_run h hstart hbusy
  have hended : u.checkpoint ≠ .idle → Stands t bytesToTor (tr ++ [(u, systems)]) t' :=
    fun hphase => hstands.step hphase hlast
  cases hret with
  | unchanged a b hphase hd =>
    have hended := hended (by rw [hphase]; simp)
    obtain ⟨hto, hfrom⟩ := checkpointDelta_eq_ok.1 hd
    cases hstands with
    | writing hphase' hloaded hkept hnothing =>
      cases hphase.symm.trans hphase'
      have hpersisted : u.session.persisted = (↑bytesToTor, ↑b) := by
        rw [hto, hfrom]
        rfl
      exact ⟨b, hloaded.snoc _, fun _ => hpersisted, fun hok => (by cases hok),
        fun _ => hended.nothing_of_kept rfl hkept⟩
    | loading hphase' | storingTo hphase' | storingFrom hphase' | stored hphase' | stopped hphase' =>
      cases hphase.symm.trans hphase'
  | failed a b hphase =>
    have hended := hended (by rw [hphase]; simp)
    cases hstands with
    | writing hphase' hloaded hkept hnothing =>
      have hnothing := hended.nothing_of_kept rfl hkept
      exact ⟨_, hloaded.snoc _, fun hok => (by cases hok), fun _ => ⟨hnothing, hkept⟩, fun _ => hnothing⟩
    | loading hphase' | storingTo hphase' | storingFrom hphase' | stored hphase' | stopped hphase' =>
      cases hphase.symm.trans hphase'
  | stored b hphase =>
    cases hstands with
    | storingFrom hphase' hloaded hne hstored =>
      cases hphase.symm.trans hphase'
      exact ⟨b, hloaded.snoc _, fun _ => by rw [← hstored]; rfl, fun hok => (by cases hok),
        fun heq => absurd heq hne⟩
    | loading hphase' | writing hphase' | storingTo hphase' | stored hphase' | stopped hphase' =>
      cases hphase.symm.trans hphase'

end Tunnel

open Tunnel DataSystem

/-- In every interleaving of sessions, traffic and checkpoints: while no checkpoint is between its commit and its
last store every row has what it had at the start and what the sessions of its scope have persisted; a session has
persisted no more than it has transferred; and a checkpoint that returns `Ok` leaves the persisted counters at what
it loaded, one that fails changes neither them nor a row, and one that loaded nothing new writes nothing. -/
theorem checkpoints_conserve_bytes {policy : SingleTierPolicy} {n : ℕ} {limiter : CustomerDataLimiter}
    (hnew : CustomerDataLimiter.new policy n = .ok limiter) {database : Database}
    {tr : List (CheckpointSystem × DataAct)} {s : CheckpointSystem}
    (h : Run CheckpointSystem.Step (.init limiter database) tr s) :
    ((∀ t ∈ s.data.tunnels, t.checkpoint.storing = false) → ∀ key,
      (s.data.database.counters key).2 = (database.counters key).2 + s.persistedIn key) ∧
    (∀ t ∈ s.data.tunnels, t.session.persistedToTor ≤ t.session.bytesToTor ∧
      t.session.persistedFromTor ≤ t.session.bytesFromTor) ∧
    ∀ t bytesToTor steps u systems t' ok, t.checkpoint = .loadFrom bytesToTor → Run Tunnel.Step t steps u →
      (∀ q ∈ steps, q.1.checkpoint ≠ .idle) → Tunnel.Step u systems t' → u.Returns ok t' →
      ∃ bytesFromTor, Outcome t bytesToTor bytesFromTor (steps ++ [(u, systems)]) ok t' := by
  have hlimit : policy.periodByteLimit.1 < 2 ^ 64 := policy.periodByteLimit.2.2
  have h0 : Funded policy.periodByteLimit.1 (CheckpointSystem.init limiter database).data ∧
      CheckpointSystem.Accounted database (.init limiter database) := by
    unfold CustomerDataLimiter.new at hnew
    split_ifs at hnew
    cases hnew
    refine ⟨⟨ArcCache.Coherent.empty _, rfl, fun t ht => (by cases ht), fun key state hfind => (by cases hfind),
      fun t ht => (by cases ht)⟩, fun t ht => (by cases ht), fun key => ?_⟩
    simp [CheckpointSystem.init, DataSystem.init]
  obtain ⟨-, haccounted⟩ := h.invariant (I := fun s => Funded policy.periodByteLimit.1 s.data ∧
      CheckpointSystem.Accounted database s) h0 fun s act s' hI hs =>
    ⟨CheckpointSystem.funded_step hI.1 hlimit hs, hI.2.step hI.1 hlimit hs⟩
  refine ⟨fun hquiet key => ?_, fun t ht => ?_, fun t bytesToTor steps u systems t' ok hstart hrun hbusy hlast hret =>
    outcome_of_run hstart hrun hbusy hlast hret⟩
  · have hcommitted : s.data.tunnels.map (fun t => if t.session.scope = key then committed t else 0) =
        (s.data.tunnels.map Tunnel.session).map fun session =>
          if session.scope = key then session.persisted else 0 := by
      rw [List.map_map]
      refine List.map_congr_left fun t ht => ?_
      have hphase := hquiet t ht
      unfold committed
      cases hcheckpoint : t.checkpoint <;> rw [hcheckpoint] at hphase <;> first | rfl | cases hphase
    rw [haccounted.rows key, hcommitted, CheckpointSystem.persistedIn, CheckpointSystem.sessions, List.map_append,
      List.sum_append]
  · exact ⟨(haccounted.ordered t ht).1, (haccounted.ordered t ht).2.1⟩

/-- A session of one of two workspaces transfers five bytes and checkpoints them. -/
theorem checkpoints_conserve_bytes_single : ∃ limiter tr s, CustomerDataLimiter.new ⟨.ofNat 100⟩ 1 = .ok limiter ∧
    Run CheckpointSystem.Step (.init limiter sharedTenant.database) tr s ∧
    s.persistedIn ⟨1, 1, 0⟩ = (5, 0) ∧
    (s.data.database.counters ⟨1, 1, 0⟩).2 = (sharedTenant.database.counters ⟨1, 1, 0⟩).2 + (5, 0) := by
  have hstart : Run CheckpointSystem.Step
      (.init ⟨⟨.ofNat 100⟩, ArcCache.empty default, 1, 1⟩ sharedTenant.database) []
      (.init ⟨⟨.ofNat 100⟩, ArcCache.empty default, 1, 1⟩ sharedTenant.database) := .nil
  have hopened := ((hstart.snoc (.step (.begin .openSession (sharedIdentity 1) .epoch
      (Fallible.toOption_eq_some.1 (by decide +kernel))) (by simp))).snoc
    (.step (.lock .openSession (sharedIdentity 1) .epoch 1 none [] [] rfl (by decide +kernel)) (by simp))).snoc
    (.step (.check .openSession (sharedIdentity 1) .epoch 0 [] [] (by rfl)) (by simp))
  have hwritten := ((((hopened.snoc (.step (.tunnel [] [] (by rfl) (.read .toTor 5 (by rfl) (by decide)))
      (by simp))).snoc
    (.step (.tunnel [] [] (by rfl) (.load .toTor 5 5 ⟨5, false⟩ (by rfl)
      (Fallible.toOption_eq_some.1 (by decide +kernel)))) (by simp))).snoc
    (.step (.tunnel [] [] (by rfl) (.grant .toTor 5 0 5 ⟨5, false⟩ (by rfl) (by rfl))) (by simp))).snoc
    (.step (.tunnel [] [] (by rfl) (.write .toTor ⟨5, false⟩ 0 5 (by rfl) (by decide))) (by simp))).snoc
    (.step (.tunnel [] [] (by rfl) (.record .toTor ⟨5, false⟩ (by rfl))) (by simp))
  have hloaded := (hwritten.snoc (.step (.tunnel [] [] (by rfl) (.loadTo (by rfl))) (by simp))).snoc
    (.step (.tunnel [] [] (by rfl) (.loadFrom 5 (by rfl))) (by simp))
  have hcommitted := hloaded.snoc (.step (.tunnel [] [] (by rfl)
    (.commit 5 0 5 0 ⟨.ofNat 1, .ofNat 1, .epoch, 0, 5, 0⟩ _ (by rfl)
      (Fallible.toOption_eq_some.1 (by decide +kernel)) (by decide)
      (Prod.ext (Fallible.toOption_eq_some.1 (by decide +kernel)) rfl))) (by simp))
  have hstored := (hcommitted.snoc (.step (.tunnel [] [] (by rfl) (.storeTo 5 0 (by rfl))) (by simp))).snoc
    (.step (.tunnel [] [] (by rfl) (.storeFrom 0 (by rfl))) (by simp))
  have hnew : CustomerDataLimiter.new ⟨.ofNat 100⟩ 1 =
    .ok ⟨⟨.ofNat 100⟩, ArcCache.empty default, 1, 1⟩ := rfl
  have hrows := (checkpoints_conserve_bytes hnew hstored).1 (by decide +kernel) ⟨1, 1, 0⟩
  refine ⟨_, _, _, rfl, hstored, by decide +kernel, ?_⟩
  rw [hrows]
  decide +kernel

end Cobra
