import Mathlib
import CobraProxy.Lib.FiniteMap
import CobraProxy.Proofs.Credentials

/-! The request quota of an account. The limit is a column of the account, but `admit_request`
compares it with the counter of one (account, workspace, period) row. -/

namespace Cobra

open Text Runs

/-- One call of `AccountManager::admit_request`. -/
structure AdmitCall where
  identity : IngressIdentity
  periodStart : UnixTimestamp

namespace Database

variable {db db' : Database}

/-- `requests_used` of a period, summed over the workspaces of an account. -/
def requestsUsed (db : Database) (accountId : AccountId) (periodStart : UnixTimestamp) : ℤ :=
  db.usagePeriods.total
    (fun key => key.accountId = accountId.raw ∧ key.periodStart = periodStart.seconds) UsageRow.requestsUsed

/-- `requests_used` of the caller's own row. -/
def ownRequestsUsed (db : Database) (call : AdmitCall) : ℤ :=
  (db.usagePeriods.lookup (usageKey call.identity call.periodStart)).elim 0 UsageRow.requestsUsed

/-- `bytes_to_tor` and `bytes_from_tor` of the caller's own row. -/
def ownBytesUsed (db : Database) (call : AdmitCall) : ℤ :=
  (db.usagePeriods.lookup (usageKey call.identity call.periodStart)).elim 0 fun row =>
    row.bytesToTor + row.bytesFromTor

/-- The caller's workspace is one of its account, and its own row is below the limits of requests and bytes. -/
structure Allowed (limit : NonZeroU64) (db : Database) (call : AdmitCall) : Prop where
  scope : db.workspaceInAccount call.identity.workspaceId.raw call.identity.accountId.raw
  requests : db.ownRequestsUsed call < limit.1
  bytes : ∀ limit, call.identity.limits.periodByteLimit = some limit → db.ownBytesUsed call < limit.1

theorem Valid.requestsUsed_nonneg (h : Valid db) (accountId : AccountId) (periodStart : UnixTimestamp) :
    0 ≤ db.requestsUsed accountId periodStart := by
  refine Finset.sum_nonneg fun key _ => ?_
  cases hrow : db.usagePeriods.lookup key with
  | none => exact le_rfl
  | some row => exact (h.usage key row hrow).1

theorem ownRequestsUsed_eq (db : Database) (call : AdmitCall) :
    db.ownRequestsUsed call = (db.counters (usageKey call.identity call.periodStart)).1 := by
  unfold ownRequestsUsed counters
  cases db.usagePeriods.lookup _ <;> rfl

theorem ownBytesUsed_eq (db : Database) (call : AdmitCall) : db.ownBytesUsed call =
    (db.counters (usageKey call.identity call.periodStart)).2.1 +
      (db.counters (usageKey call.identity call.periodStart)).2.2 := by
  unfold ownBytesUsed counters
  cases db.usagePeriods.lookup _ <;> rfl

/-- An allowed request finds the caller's own counters below the limits. -/
theorem lt_limits_of_allowance {identity : IngressIdentity} {snapshot : UsageSnapshot}
    {proposed : UsageDelta} (hproposed : proposed.requests = 1)
    (h : checkUsageAllowance identity snapshot proposed = .ok ()) :
    (∀ limit, identity.limits.periodRequestLimit = some limit → snapshot.requestsUsed < limit.1) ∧
      ∀ limit, identity.limits.periodByteLimit = some limit →
        snapshot.bytesToTor + snapshot.bytesFromTor < limit.1 := by
  simp only [checkUsageAllowance, Fallible.throw_eq_error, Fallible.error_bind,
    Fallible.ite_error_eq_ok] at h
  obtain ⟨-, h⟩ := h
  split at h
  · simp only [Fallible.ite_error_eq_ok, hproposed] at h
    obtain ⟨hrequests, h⟩ := h
    split at h
    · rename_i currentBytes hcurrent
      split at h
      · split at h
        · simp only [Fallible.ite_error_eq_ok] at h
          refine ⟨fun limit hlimit => ?_, fun limit hlimit => ?_⟩
          · rw [hlimit, Option.any_some, decide_eq_true_eq] at hrequests
            omega
          · have hbytes := h.1
            rw [hlimit, Option.any_some, decide_eq_true_eq] at hbytes
            have hsum : snapshot.bytesToTor + snapshot.bytesFromTor = currentBytes := by
              unfold checkedAdd at hcurrent
              split_ifs at hcurrent
              exact Option.some.inj hcurrent
            omega
        · cases h
      · cases h
    · cases h
  · cases h

/-- An admission adds one to the caller's own row and to nothing else. -/
theorem admitRequest_cases (db : Database) (call : AdmitCall) :
    ((db.admitRequest call.identity call.periodStart).1.isOk = false ∧
      (db.admitRequest call.identity call.periodStart).2 = db) ∨
    ((db.admitRequest call.identity call.periodStart).1.isOk = true ∧
      (∀ limit, call.identity.limits.periodRequestLimit = some limit → Allowed limit db call) ∧
      ∃ row : UsageRow, row.requestsUsed = db.ownRequestsUsed call + 1 ∧
        (db.admitRequest call.identity call.periodStart).2 = { db with
          usagePeriods := db.usagePeriods.insert (usageKey call.identity call.periodStart) row }) := by
  have hdelta : UsageDelta.new 1 0 0 = .ok ⟨1, 0, 0, by decide, by decide, by decide⟩ := rfl
  unfold admitRequest
  rw [hdelta]
  dsimp only
  unfold recordUsageIfAllowed
  rcases transaction_cases db _ with ⟨snapshot, db', hbody, htr⟩ | ⟨e, -, htr⟩
  · rw [htr]
    simp only [Fallible.bind_eq_ok, Fallible.mapError_eq_ok] at hbody
    obtain ⟨_, hscope, current, hcurrent, _, hallow, hadd⟩ := hbody
    have hown : (current.1 : ℤ) = db.ownRequestsUsed call := by
      rw [ownRequestsUsed_eq, ← usageValues_eq_ok hcurrent]
    have hownBytes : (current.2.1 + current.2.2 : ℤ) = db.ownBytesUsed call := by
      rw [ownBytesUsed_eq, ← usageValues_eq_ok hcurrent]
    obtain ⟨hrequests, hbytes⟩ := lt_limits_of_allowance rfl hallow
    obtain ⟨rfl, -⟩ := addUsage_eq_ok hadd
    refine .inr ⟨rfl, fun limit hlimit => ⟨requireWorkspaceScope_eq_ok.1 hscope, ?_, fun byteLimit hbyteLimit => ?_⟩,
      _, ?_, rfl⟩
    · rw [← hown]
      exact_mod_cast hrequests limit hlimit
    · rw [← hownBytes]
      exact_mod_cast hbytes byteLimit hbyteLimit
    · rw [← hown]
      rfl
  · rw [htr]
    exact .inl ⟨rfl, rfl⟩

end Database

namespace AdmitCall

def Step (db : Database) (call : AdmitCall) (db' : Database) : Prop :=
  db' = (db.admitRequest call.identity call.periodStart).2

def isFor (accountId : AccountId) (periodStart : UnixTimestamp) (call : AdmitCall) : Prop :=
  call.identity.accountId = accountId ∧ call.periodStart = periodStart

instance (accountId : AccountId) (periodStart : UnixTimestamp) : DecidablePred (isFor accountId periodStart) :=
  fun _ => inferInstanceAs (Decidable (_ ∧ _))

/-- Whether a step of a run is an admission for the account and period. -/
def admitted (accountId : AccountId) (periodStart : UnixTimestamp) (p : Database × AdmitCall) : Bool :=
  decide (p.2.isFor accountId periodStart) && (p.1.admitRequest p.2.identity p.2.periodStart).1.isOk

/-- Where the caller's own row lets it pass, the account as a whole is below its limit. -/
def WithinAccount (limit : NonZeroU64) (db : Database) (call : AdmitCall) : Prop :=
  Database.Allowed limit db call → db.requestsUsed call.identity.accountId call.periodStart < limit.1

theorem requestsUsed_insert (accountId : AccountId) (periodStart : UnixTimestamp) (db : Database)
    (call : AdmitCall) {row : UsageRow} (hrow : row.requestsUsed = db.ownRequestsUsed call + 1) :
    Database.requestsUsed { db with
      usagePeriods := db.usagePeriods.insert (Database.usageKey call.identity call.periodStart) row }
        accountId periodStart =
      db.requestsUsed accountId periodStart + if call.isFor accountId periodStart then 1 else 0 := by
  have htotal := Finmap.total_insert (m := db.usagePeriods) (f := UsageRow.requestsUsed)
    (p := fun key => key.accountId = accountId.raw ∧ key.periodStart = periodStart.seconds)
    (Database.usageKey call.identity call.periodStart) row
  have hfor : ((Database.usageKey call.identity call.periodStart).accountId = accountId.raw ∧
      (Database.usageKey call.identity call.periodStart).periodStart = periodStart.seconds) ↔
      call.isFor accountId periodStart := by
    simp [Database.usageKey, isFor, PrivateIdentifier.ext_iff, UnixTimestamp.ext_iff]
  rw [Database.ownRequestsUsed] at hrow
  dsimp only [Database.requestsUsed]
  by_cases hf : call.isFor accountId periodStart
  · rw [if_pos (hfor.2 hf), if_pos (hfor.2 hf)] at htotal
    rw [if_pos hf]
    omega
  · rw [if_neg (mt hfor.1 hf), if_neg (mt hfor.1 hf)] at htotal
    rw [if_neg hf]
    omega

/-- One call: an admission for the account adds one to its sum, any other call leaves it. -/
theorem requestsUsed_step (accountId : AccountId) (periodStart : UnixTimestamp) (db : Database)
    (call : AdmitCall) : (db.admitRequest call.identity call.periodStart).2.requestsUsed accountId periodStart =
      db.requestsUsed accountId periodStart +
        if admitted accountId periodStart (db, call) then 1 else 0 := by
  rcases Database.admitRequest_cases db call with ⟨hok, hdb⟩ | ⟨hok, -, row, hrow, hdb⟩
  · rw [hdb]
    simp [admitted, hok]
  · rw [hdb, requestsUsed_insert accountId periodStart db call hrow]
    simp [admitted, hok]

/-- Along a run the sum grows by the admissions, and stays within the limit once there was one. -/
theorem requestsUsed_run {accountId : AccountId} {periodStart : UnixTimestamp} {db₀ db : Database}
    {tr : List (Database × AdmitCall)} {limit : NonZeroU64} (hrun : Run Step db₀ tr db)
    (hlimit : ∀ p ∈ tr, p.2.isFor accountId periodStart →
      p.2.identity.limits.periodRequestLimit = some limit)
    (hguard : ∀ p ∈ tr, p.2.isFor accountId periodStart → WithinAccount limit p.1 p.2) :
    db.requestsUsed accountId periodStart =
        db₀.requestsUsed accountId periodStart + tr.countP (admitted accountId periodStart) ∧
      (tr.countP (admitted accountId periodStart) = 0 ∨
        db.requestsUsed accountId periodStart ≤ limit.1) := by
  induction hrun with
  | nil => simp
  | @snoc tr db db' call hrun hst ih =>
    obtain ⟨hsum, hle⟩ := ih (fun p hp => hlimit p (List.mem_append_left _ hp))
      (fun p hp => hguard p (List.mem_append_left _ hp))
    subst hst
    have hstep := requestsUsed_step accountId periodStart db call
    rw [List.countP_append, List.countP_singleton, hstep]
    split_ifs with hadm
    · refine ⟨by push_cast; omega, .inr ?_⟩
      simp only [admitted, Bool.and_eq_true, decide_eq_true_eq] at hadm
      have hmem : (db, call) ∈ tr ++ [(db, call)] := by simp
      rcases Database.admitRequest_cases db call with ⟨hok, -⟩ | ⟨-, hallowed, -⟩
      · rw [hadm.2] at hok
        cases hok
      · have hbelow := hguard _ hmem hadm.1 (hallowed limit (hlimit _ hmem hadm.1))
        rw [hadm.1.1, hadm.1.2] at hbelow
        dsimp only at hbelow
        omega
    · rw [add_zero, add_zero]
      exact ⟨hsum, hle⟩

end AdmitCall

open AdmitCall

/-- If every call of the account that its own row lets pass finds the sum below the limit, then no more requests
than the limit are admitted, and no admission takes the sum above the limit. -/
theorem account_quota_within {hasher : ApiKeyHasher} {s : ManagerSystem} (h : s.Reachable hasher)
    {accountId : AccountId} {periodStart : UnixTimestamp} {limit : NonZeroU64} {db : Database}
    {tr : List (Database × AdmitCall)} (hrun : Run AdmitCall.Step s.database tr db)
    (hlimit : ∀ p ∈ tr, p.2.isFor accountId periodStart →
      p.2.identity.limits.periodRequestLimit = some limit)
    (hguard : ∀ p ∈ tr, p.2.isFor accountId periodStart → WithinAccount limit p.1 p.2) :
    tr.countP (admitted accountId periodStart) ≤ limit.1 ∧
      db.requestsUsed accountId periodStart ≤
        max (limit.1 : ℤ) (s.database.requestsUsed accountId periodStart) := by
  have hnonneg := h.linked.valid.requestsUsed_nonneg accountId periodStart
  obtain ⟨hsum, hzero | hle⟩ := requestsUsed_run hrun hlimit hguard
  · rw [hzero] at hsum ⊢
    exact ⟨Nat.zero_le _, by omega⟩
  · exact ⟨by omega, le_max_of_le_left hle⟩

/-! An account with two workspaces that may make one request in a period. -/

def oneRequestLimits : AccountLimits := ⟨.ofNat 10, .ofNat 10, .ofNat 10, some (.ofNat 1), none⟩

def zeroHasher : ApiKeyHasher := ⟨fun _ => .replicate 32 0⟩

def twoWorkspaceActs : List ManagerAct :=
  [.createAccount "a@b".toList none .basic oneRequestLimits,
    .createWorkspace (.ofNat 1) "first".toList, .createWorkspace (.ofNat 1) "second".toList]

def twoWorkspaces : ManagerSystem := twoWorkspaceActs.foldl (ManagerSystem.step zeroHasher) .empty

theorem twoWorkspaces_reachable : twoWorkspaces.Reachable zeroHasher :=
  Run.of_foldl (ManagerSystem.step zeroHasher) twoWorkspaceActs .empty

def callFrom (workspaceId : WorkspaceId) : AdmitCall :=
  ⟨⟨.ofNat 1, workspaceId, .ofNat 1, .ofNat 1, oneRequestLimits⟩, .epoch⟩

def afterCall (db : Database) (workspaceId : WorkspaceId) : Database :=
  (db.admitRequest (callFrom workspaceId).identity .epoch).2

def callTrace (first second : WorkspaceId) : List (Database × AdmitCall) :=
  [(twoWorkspaces.database, callFrom first), (afterCall twoWorkspaces.database first, callFrom second)]

theorem callTrace_run (first second : WorkspaceId) : Run AdmitCall.Step twoWorkspaces.database
    (callTrace first second) (afterCall (afterCall twoWorkspaces.database first) second) :=
  (Run.nil.snoc (a := callFrom first) rfl).snoc (a := callFrom second) rfl

theorem callTrace_limit (first second : WorkspaceId) : ∀ p ∈ callTrace first second,
    p.2.isFor (.ofNat 1) .epoch → p.2.identity.limits.periodRequestLimit = some ⟨1, by decide⟩ := by
  intro p hp _
  simp only [callTrace, List.mem_cons, List.not_mem_nil, or_false] at hp
  rcases hp with rfl | rfl <;> rfl

/-- Each of the two workspaces is admitted once, which is one request too many. -/
theorem workspaces_exceed_account_quota :
    ¬ ∀ (hasher : ApiKeyHasher) (s : ManagerSystem) (accountId : AccountId) (periodStart : UnixTimestamp)
      (limit : NonZeroU64) (tr : List (Database × AdmitCall)) (db : Database), s.Reachable hasher →
      Run AdmitCall.Step s.database tr db →
      (∀ p ∈ tr, p.2.isFor accountId periodStart → p.2.identity.limits.periodRequestLimit = some limit) →
      tr.countP (admitted accountId periodStart) ≤ limit.1 := by
  intro hclaim
  have hle := hclaim zeroHasher twoWorkspaces (.ofNat 1) .epoch ⟨1, by decide⟩ _ _
    twoWorkspaces_reachable (callTrace_run (.ofNat 1) (.ofNat 2)) (callTrace_limit _ _)
  revert hle
  decide +kernel

theorem account_quota_within_one_workspace : twoWorkspaces.Reachable zeroHasher ∧
    (callTrace (.ofNat 1) (.ofNat 1)).countP (admitted (.ofNat 1) .epoch) ≤ 1 := by
  have hguard : ∀ p ∈ callTrace (.ofNat 1) (.ofNat 1), p.2.isFor (.ofNat 1) .epoch →
      WithinAccount ⟨1, by decide⟩ p.1 p.2 := by
    intro p hp _
    simp only [callTrace, List.mem_cons, List.not_mem_nil, or_false] at hp
    rcases hp with rfl | rfl
    · exact fun _ => by decide +kernel
    · exact fun hallowed => absurd hallowed.requests (by decide +kernel)
  exact ⟨twoWorkspaces_reachable, (account_quota_within twoWorkspaces_reachable
    (callTrace_run (.ofNat 1) (.ofNat 1)) (callTrace_limit _ _) hguard).1⟩

end Cobra
