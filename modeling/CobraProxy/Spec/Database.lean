import CobraProxy.Lib.Table
import CobraProxy.Spec.Basic

/-! The account database. Each method of `AccountDatabase` is a function of the database that
returns its result beside the database after it; the mutex around the connection makes every
method one step. Columns that no method reads back (`updated_at`, and `created_at` of accounts
and workspaces) are left out, and so are the `now` arguments that only they receive. -/

namespace Cobra

open Text

inductive AccountStatus
  | active | suspended | closed
  deriving DecidableEq, Repr

def AccountStatus.asDatabaseValue : AccountStatus → String
  | .active => "active"
  | .suspended => "suspended"
  | .closed => "closed"

def AccountStatus.fromDatabase : String → Except AccountManagementError AccountStatus
  | "active" => .ok .active
  | "suspended" => .ok .suspended
  | "closed" => .ok .closed
  | _ => .error (.corruptData "unknown account status")

inductive WorkspaceStatus
  | active | suspended | closed
  deriving DecidableEq, Repr

def WorkspaceStatus.asDatabaseValue : WorkspaceStatus → String
  | .active => "active"
  | .suspended => "suspended"
  | .closed => "closed"

def WorkspaceStatus.fromDatabase : String → Except AccountManagementError WorkspaceStatus
  | "active" => .ok .active
  | "suspended" => .ok .suspended
  | "closed" => .ok .closed
  | _ => .error (.corruptData "unknown workspace status")

inductive CredentialStatus
  | active | revoked
  deriving DecidableEq, Repr

def CredentialStatus.asDatabaseValue : CredentialStatus → String
  | .active => "active"
  | .revoked => "revoked"

def CredentialStatus.fromDatabase : String → Except AccountManagementError CredentialStatus
  | "active" => .ok .active
  | "revoked" => .ok .revoked
  | _ => .error (.corruptData "unknown credential status")

/-- What `PlanCode::new` asks of a trimmed text. -/
def isPlanText (value : Str) : Bool :=
  !value.isEmpty && decide (byteLen value ≤ 64) &&
    value.all fun c => c.isAlphanum || c == '-' || c == '_' || c == '.'

structure PlanCode where
  text : Str
  valid : isPlanText text = true
  deriving DecidableEq

def PlanCode.new (value : Str) : Except AccountManagementError PlanCode :=
  if h : isPlanText (trim value) = true then .ok ⟨trim value, h⟩
  else .error (.invalidInput
    "plan code must be 1-64 ASCII letters, digits, dots, dashes, or underscores")

/-- A plan for concrete runs. -/
def PlanCode.basic : PlanCode := ⟨"basic".toList, by decide⟩

def normalizeEmail (value : Str) : Except AccountManagementError Str :=
  let value := trim value
  let validComponents := match value.splitOn '@' with
    | [localPart, domainPart] => !localPart.isEmpty && !domainPart.isEmpty
    | _ => false
  if !validComponents || decide (320 < byteLen value) || !value.all isAscii ||
      value.any (fun c => isControl c || isAsciiWhitespace c) then
    .error (.invalidInput "email address is invalid")
  else .ok (toAsciiLowercase value)

def normalizeLabelLike (value : Str) (maximumBytes : ℕ) (error : String) :
    Except AccountManagementError Str :=
  let value := trim value
  if value.isEmpty || decide (maximumBytes < byteLen value) || value.any isControl ||
      value.any (fun c => c == '\r' || c == '\n') then
    .error (.invalidInput error)
  else .ok value

def normalizeWorkspaceName (value : Str) : Except AccountManagementError Str :=
  normalizeLabelLike value 128 "workspace name is invalid"

def normalizeCredentialLabel (value : Str) : Except AccountManagementError Str :=
  normalizeLabelLike value 64 "credential label is invalid"

def normalizeStripeCustomerId : Option Str → Except AccountManagementError (Option Str)
  | none => .ok none
  | some value =>
    let value := trim value
    if value.isEmpty || decide (255 < byteLen value) ||
        !value.all (fun c => c.isAlphanum || c == '_' || c == '-') then
      .error (.invalidInput "Stripe customer identifier is invalid")
    else .ok (some value)

/-! ### Tables -/

structure AccountRow where
  email : Str
  stripeCustomerId : Option Str
  plan : Str
  status : String
  deriving DecidableEq

structure WorkspaceRow where
  accountId : ℕ
  name : Str
  status : String
  deriving DecidableEq

structure ApiKeyRow where
  publicId : Str
  accountId : ℕ
  workspaceId : ℕ
  label : Str
  keyHashVersion : ℤ
  keyHash : Bytes
  status : String
  createdAt : ℤ
  revokedAt : Option ℤ
  deriving DecidableEq

structure DeviceCredentialRow where
  accountId : ℕ
  workspaceId : ℕ
  label : Str
  certificateFingerprint : Bytes
  status : String
  createdAt : ℤ
  revokedAt : Option ℤ
  deriving DecidableEq

structure UsageKey where
  accountId : ℕ
  workspaceId : ℕ
  periodStart : ℤ
  deriving DecidableEq

structure UsageRow where
  requestsUsed : ℤ
  bytesToTor : ℤ
  bytesFromTor : ℤ
  deriving DecidableEq

structure Database where
  accounts : Table AccountRow
  accountLimits : Finmap fun _ : ℕ => DatabaseLimitValues
  workspaces : Table WorkspaceRow
  apiKeys : Table ApiKeyRow
  deviceCredentials : Table DeviceCredentialRow
  usagePeriods : Finmap fun _ : UsageKey => UsageRow

/-- The database right after `SCHEMA_SQL`. -/
def Database.empty : Database where
  accounts := Table.empty
  accountLimits := ∅
  workspaces := Table.empty
  apiKeys := Table.empty
  deviceCredentials := Table.empty
  usagePeriods := ∅

def API_KEY_HASH_VERSION : ℤ := 1

namespace Database

/-! ### INSERT statements, with the constraints of the schema -/

def lifecycleStatuses : List String := ["active", "suspended", "closed"]

def credentialStatuses : List String := ["active", "revoked"]

/-- A new row gets its key before its constraints are checked. -/
def insertRow {ρ : Type} (table : Table ρ) (row : ρ) (constraints : Bool) :
    Except SqliteError (ℕ × Table ρ) :=
  match table.insert row with
  | none => .error .full
  | some inserted => if constraints then .ok inserted else .error .constraintViolation

/-- `email` is compared with `COLLATE NOCASE`. NULLs are distinct under UNIQUE. -/
def insertAccountRow (db : Database) (row : AccountRow) : Except SqliteError (ℕ × Database) :=
  (insertRow db.accounts row
    ((db.accounts.select fun _ r => eqIgnoreAsciiCase r.email row.email).isEmpty &&
      (db.accounts.select fun _ r =>
        row.stripeCustomerId.isSome && r.stripeCustomerId == row.stripeCustomerId).isEmpty &&
      decide (row.status ∈ lifecycleStatuses))).map
    fun (id, accounts) => (id, { db with accounts })

def insertLimitsRow (db : Database) (accountId : ℕ) (row : DatabaseLimitValues) :
    Except SqliteError Database :=
  if accountId ∉ db.accountLimits ∧ (db.accounts.get accountId).isSome ∧
      0 < row.requestsPerSecond ∧ 0 < row.requestBurst ∧ 0 < row.maxConcurrentTunnels ∧
      row.periodRequestLimit.all (fun n => decide (0 < n)) ∧
      row.periodByteLimit.all (fun n => decide (0 < n)) then
    .ok { db with accountLimits := db.accountLimits.insert accountId row }
  else .error .constraintViolation

def insertWorkspaceRow (db : Database) (row : WorkspaceRow) : Except SqliteError (ℕ × Database) :=
  (insertRow db.workspaces row
    ((db.workspaces.select fun _ r => r.accountId == row.accountId && r.name == row.name).isEmpty &&
      decide (row.status ∈ lifecycleStatuses) && (db.accounts.get row.accountId).isSome)).map
    fun (id, workspaces) => (id, { db with workspaces })

/-- Whether a row of `workspaces` has this key pair. -/
def workspaceInAccount (db : Database) (workspaceId accountId : ℕ) : Bool :=
  (db.workspaces.get workspaceId).any fun w => w.accountId == accountId

def insertApiKeyRow (db : Database) (row : ApiKeyRow) : Except SqliteError (ℕ × Database) :=
  (insertRow db.apiKeys row
    ((db.apiKeys.select fun _ r => r.publicId == row.publicId).isEmpty &&
      decide (row.keyHash.length = 32) && decide (row.status ∈ credentialStatuses) &&
      decide (0 ≤ row.createdAt) && row.revokedAt.all (fun t => decide (0 ≤ t)) &&
      (db.accounts.get row.accountId).isSome &&
      db.workspaceInAccount row.workspaceId row.accountId)).map
    fun (id, apiKeys) => (id, { db with apiKeys })

def insertDeviceCredentialRow (db : Database) (row : DeviceCredentialRow) :
    Except SqliteError (ℕ × Database) :=
  (insertRow db.deviceCredentials row
    ((db.deviceCredentials.select fun _ r =>
        r.certificateFingerprint == row.certificateFingerprint).isEmpty &&
      decide (row.certificateFingerprint.length = 32) && decide (row.status ∈ credentialStatuses) &&
      decide (0 ≤ row.createdAt) && row.revokedAt.all (fun t => decide (0 ≤ t)) &&
      (db.accounts.get row.accountId).isSome &&
      db.workspaceInAccount row.workspaceId row.accountId)).map
    fun (id, deviceCredentials) => (id, { db with deviceCredentials })

/-- A transaction is rolled back when its body fails. -/
def transaction {ε α : Type} (db : Database) (body : Except ε (α × Database)) :
    Except ε α × Database :=
  match body with
  | .ok (value, db') => (.ok value, db')
  | .error e => (.error e, db)

/-- The UPDATE that revokes an active credential. -/
def setRevoked (now : UnixTimestamp) (row : ApiKeyRow) : ApiKeyRow :=
  { row with status := "revoked", revokedAt := some now.seconds }

def setDeviceRevoked (now : UnixTimestamp) (row : DeviceCredentialRow) : DeviceCredentialRow :=
  { row with status := "revoked", revokedAt := some now.seconds }

def recordExists {ρ : Type} (table : Table ρ) (id : ℕ) : Bool := (table.get id).isSome

def requireWorkspaceScope (db : Database) (accountId : AccountId) (workspaceId : WorkspaceId) :
    Except AccountManagementError Unit :=
  if db.workspaceInAccount workspaceId.raw accountId.raw then .ok ()
  else .error (.notFound .workspace)

end Database

end Cobra
