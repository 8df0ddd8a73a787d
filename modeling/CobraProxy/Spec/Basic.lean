import Mathlib
import CobraProxy.Lib.Text

/-! Identifiers, limits, identities and errors of `account_management.rs`. Columns of SQLite type
INTEGER are `ℤ`, `u64` counters are `ℕ` with the overflow checks written out, and a value that
only a checking constructor builds carries the check as a field. -/

namespace Cobra

open Text

inductive EntityKind
  | account | workspace | apiKey | deviceCredential
  deriving DecidableEq, Repr

/-- What the code tells apart in `rusqlite::Error`. `full` is SQLite's answer once an
AUTOINCREMENT key has used its last value. -/
inductive SqliteError
  | constraintViolation | full
  deriving DecidableEq, Repr

inductive AccountManagementError
  | database (source : SqliteError)
  | entropy
  | invalidInput (detail : String)
  | notFound (entity : EntityKind)
  | conflict (detail : String)
  | corruptData (detail : String)
  | counterOverflow
  | credentialGenerationExhausted
  deriving DecidableEq, Repr

def isConstraintViolation : SqliteError → Bool
  | .constraintViolation => true
  | .full => false

/-- One `private_identifier!` type for each kind of row: a positive `i64`. -/
@[ext] structure PrivateIdentifier (kind : EntityKind) where
  raw : ℕ
  pos : 0 < raw
  lt : raw < 2 ^ 63
  deriving DecidableEq

abbrev AccountId := PrivateIdentifier .account
abbrev WorkspaceId := PrivateIdentifier .workspace
abbrev ApiKeyId := PrivateIdentifier .apiKey
abbrev DeviceCredentialId := PrivateIdentifier .deviceCredential

def EntityKind.idName : EntityKind → String
  | .account => "AccountId"
  | .workspace => "WorkspaceId"
  | .apiKey => "ApiKeyId"
  | .deviceCredential => "DeviceCredentialId"

/-- The upper bound is the range of the `i64` column. -/
def PrivateIdentifier.fromDatabase (kind : EntityKind) (value : ℕ) :
    Except AccountManagementError (PrivateIdentifier kind) :=
  if h : 0 < value ∧ value < 2 ^ 63 then .ok ⟨value, h.1, h.2⟩
  else .error (.corruptData (kind.idName ++ " must be positive"))

@[ext] structure UnixTimestamp where
  seconds : ℤ
  nonneg : 0 ≤ seconds
  deriving DecidableEq

def UnixTimestamp.new (seconds : ℤ) : Except AccountManagementError UnixTimestamp :=
  if h : 0 ≤ seconds then .ok ⟨seconds, h⟩
  else .error (.invalidInput "timestamp must not be negative")

abbrev NonZeroU32 := {n : ℕ // 0 < n ∧ n < 2 ^ 32}
abbrev NonZeroU64 := {n : ℕ // 0 < n ∧ n < 2 ^ 64}

def NonZeroU32.new (n : UInt32) : Option NonZeroU32 :=
  if h : 0 < n.toNat then some ⟨n.toNat, h, n.toNat_lt⟩ else none

def NonZeroU64.new (n : UInt64) : Option NonZeroU64 :=
  if h : 0 < n.toNat then some ⟨n.toNat, h, n.toNat_lt⟩ else none

/-- `u64::checked_add`. -/
def checkedAdd (a b : ℕ) : Option ℕ := if a + b < 2 ^ 64 then some (a + b) else none

/-- `i64::try_from` of a `u64`. -/
def checkedDatabaseCounter (value : ℕ) : Except AccountManagementError ℤ :=
  if value < 2 ^ 63 then .ok value else .error .counterOverflow

@[ext] structure AccountLimits where
  requestsPerSecond : NonZeroU32
  requestBurst : NonZeroU32
  maxConcurrentTunnels : NonZeroU32
  periodRequestLimit : Option NonZeroU64
  periodByteLimit : Option NonZeroU64
  deriving DecidableEq

def optionalNonzeroLimit (value : Option UInt64) (description : String) :
    Except AccountManagementError (Option NonZeroU64) :=
  match value with
  | none => .ok none
  | some value =>
    match checkedDatabaseCounter value.toNat with
    | .error e => .error e
    | .ok _ =>
      match NonZeroU64.new value with
      | some limit => .ok (some limit)
      | none => .error (.invalidInput description)

def AccountLimits.new (requestsPerSecond requestBurst maxConcurrentTunnels : UInt32)
    (periodRequestLimit periodByteLimit : Option UInt64) :
    Except AccountManagementError AccountLimits := do
  let some requestsPerSecond := NonZeroU32.new requestsPerSecond
    | .error (.invalidInput "requests per second must be non-zero")
  let some requestBurst := NonZeroU32.new requestBurst
    | .error (.invalidInput "request burst must be non-zero")
  let some maxConcurrentTunnels := NonZeroU32.new maxConcurrentTunnels
    | .error (.invalidInput "concurrent tunnel limit must be non-zero")
  let periodRequestLimit ← optionalNonzeroLimit periodRequestLimit "period request limit"
  let periodByteLimit ← optionalNonzeroLimit periodByteLimit "period byte limit"
  return { requestsPerSecond, requestBurst, maxConcurrentTunnels, periodRequestLimit, periodByteLimit }

/-- The columns of `account_limits`, the key apart. -/
structure DatabaseLimitValues where
  requestsPerSecond : ℤ
  requestBurst : ℤ
  maxConcurrentTunnels : ℤ
  periodRequestLimit : Option ℤ
  periodByteLimit : Option ℤ
  deriving DecidableEq

def positiveU32FromDatabase (value : ℤ) (description : String) :
    Except AccountManagementError UInt32 :=
  if 0 ≤ value ∧ value < 2 ^ 32 then
    if value = 0 then .error (.corruptData description) else .ok (UInt32.ofNat value.toNat)
  else .error (.corruptData description)

def optionalU64FromDatabase (value : Option ℤ) (description : String) :
    Except AccountManagementError (Option UInt64) :=
  match value with
  | none => .ok none
  | some value =>
    if value ≤ 0 then .error (.corruptData description) else .ok (some (UInt64.ofNat value.toNat))

def optionalLimitToDatabase (value : Option NonZeroU64) :
    Except AccountManagementError (Option ℤ) :=
  match value with
  | none => .ok none
  | some value => (checkedDatabaseCounter value.1).map some

def AccountLimits.fromDatabase (v : DatabaseLimitValues) :
    Except AccountManagementError AccountLimits := do
  let requestsPerSecond ← positiveU32FromDatabase v.requestsPerSecond "requests per second"
  let requestBurst ← positiveU32FromDatabase v.requestBurst "request burst"
  let maxConcurrentTunnels ← positiveU32FromDatabase v.maxConcurrentTunnels "concurrent tunnel limit"
  let periodRequestLimit ← optionalU64FromDatabase v.periodRequestLimit "period request limit"
  let periodByteLimit ← optionalU64FromDatabase v.periodByteLimit "period byte limit"
  (AccountLimits.new requestsPerSecond requestBurst maxConcurrentTunnels periodRequestLimit
    periodByteLimit).mapError fun _ => .corruptData "invalid stored account limits"

def AccountLimits.databaseValues (limits : AccountLimits) :
    Except AccountManagementError DatabaseLimitValues := do
  let periodRequestLimit ← optionalLimitToDatabase limits.periodRequestLimit
  let periodByteLimit ← optionalLimitToDatabase limits.periodByteLimit
  return { requestsPerSecond := limits.requestsPerSecond.1
           requestBurst := limits.requestBurst.1
           maxConcurrentTunnels := limits.maxConcurrentTunnels.1
           periodRequestLimit, periodByteLimit }

@[ext] structure IngressIdentity where
  accountId : AccountId
  workspaceId : WorkspaceId
  apiKeyId : ApiKeyId
  deviceCredentialId : DeviceCredentialId
  limits : AccountLimits
  deriving DecidableEq

/-- The SHA-256 digest of a leaf certificate. -/
abbrev CertificateFingerprint := ByteVec 32

/-- Only `UsageDelta::new` builds one, after these checks. -/
structure UsageDelta where
  requests : ℕ
  bytesToTor : ℕ
  bytesFromTor : ℕ
  requests_lt : requests < 2 ^ 63
  bytesToTor_lt : bytesToTor < 2 ^ 63
  bytesFromTor_lt : bytesFromTor < 2 ^ 63

def UsageDelta.new (requests bytesToTor bytesFromTor : ℕ) :
    Except AccountManagementError UsageDelta :=
  if h : requests < 2 ^ 63 ∧ bytesToTor < 2 ^ 63 ∧ bytesFromTor < 2 ^ 63 then
    match checkedAdd bytesToTor bytesFromTor with
    | some _ => .ok ⟨requests, bytesToTor, bytesFromTor, h.1, h.2.1, h.2.2⟩
    | none => .error .counterOverflow
  else .error .counterOverflow

structure UsageSnapshot where
  accountId : AccountId
  workspaceId : WorkspaceId
  periodStart : UnixTimestamp
  requestsUsed : ℕ
  bytesToTor : ℕ
  bytesFromTor : ℕ
  deriving DecidableEq

def UsageSnapshot.totalBytes (s : UsageSnapshot) : Except AccountManagementError ℕ :=
  match checkedAdd s.bytesToTor s.bytesFromTor with
  | some total => .ok total
  | none => .error .counterOverflow

/-! Small values for concrete runs. -/

def PrivateIdentifier.ofNat {kind : EntityKind} (n : ℕ) : PrivateIdentifier kind :=
  if h : 0 < n ∧ n < 2 ^ 63 then ⟨n, h.1, h.2⟩ else ⟨1, by decide, by decide⟩

def NonZeroU32.ofNat (n : ℕ) : NonZeroU32 := if h : 0 < n ∧ n < 2 ^ 32 then ⟨n, h⟩ else ⟨1, by decide⟩

def NonZeroU64.ofNat (n : ℕ) : NonZeroU64 := if h : 0 < n ∧ n < 2 ^ 64 then ⟨n, h⟩ else ⟨1, by decide⟩

def UnixTimestamp.epoch : UnixTimestamp := ⟨0, le_rfl⟩

end Cobra
