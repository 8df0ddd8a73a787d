import CobraProxy.Spec.Database

/-! The methods of `AccountDatabase`. -/

namespace Cobra

open Text

structure AccountRecord where
  id : AccountId
  email : Str
  stripeCustomerId : Option Str
  plan : PlanCode
  status : AccountStatus
  limits : AccountLimits
  deriving DecidableEq

structure WorkspaceRecord where
  id : WorkspaceId
  accountId : AccountId
  name : Str
  status : WorkspaceStatus
  deriving DecidableEq

structure DeviceCredentialMetadata where
  id : DeviceCredentialId
  label : Str
  status : CredentialStatus
  createdAt : UnixTimestamp
  revokedAt : Option UnixTimestamp
  deriving DecidableEq

inductive ProxyAuthorizationError
  | missingScheme | unsupportedScheme | oversized | invalidBase64 | invalidUtf8
  | missingPasswordSeparator | passwordMustBeEmpty | invalidApiKeyFormat
  deriving DecidableEq, Repr

inductive AuthenticationError
  | invalidAuthorization (source : ProxyAuthorizationError)
  | invalidApiKey | apiKeyRevoked | accountInactive | workspaceInactive
  | unknownDevice | deviceRevoked | credentialScopeMismatch
  | storage (source : AccountManagementError)
  deriving DecidableEq, Repr

inductive UsageQuotaError
  | requestLimitReached | byteLimitReached | counterOverflow | scopeMismatch
  deriving DecidableEq, Repr

inductive UsageAdmissionError
  | quota (source : UsageQuotaError)
  | storage (source : AccountManagementError)
  deriving DecidableEq, Repr

structure CredentialLookup where
  apiKeyId : ℕ
  publicId : Str
  accountId : ℕ
  workspaceId : ℕ
  keyHashVersion : ℤ
  keyHash : Bytes
  apiKeyStatus : String
  accountStatus : String
  workspaceStatus : String
  limits : DatabaseLimitValues

structure GeneratedApiKey where
  publicId : Str
  secret : Str
  digest : ByteVec 32

/-- An error of a constraint becomes `Conflict`, any other stays a database error. -/
def conflictOr (detail : String) (e : SqliteError) : AccountManagementError :=
  if isConstraintViolation e then .conflict detail else .database e

def nonnegativeU64FromDatabase (value : ℤ) (description : String) : Except AccountManagementError ℕ :=
  if 0 ≤ value then .ok value.toNat else .error (.corruptData description)

def checkedUsageAdd (current delta : ℕ) : Except AccountManagementError ℕ :=
  match checkedAdd current delta with
  | none => .error .counterOverflow
  | some result => (checkedDatabaseCounter result).map fun _ => result

/-- The limits of the source's checks are the account's; the counters are those of `snapshot`. -/
def checkUsageAllowance (identity : IngressIdentity) (snapshot : UsageSnapshot)
    (proposed : UsageDelta) : Except UsageQuotaError Unit := do
  if snapshot.accountId ≠ identity.accountId ∨ snapshot.workspaceId ≠ identity.workspaceId then
    throw .scopeMismatch
  let some projectedRequests := checkedAdd snapshot.requestsUsed proposed.requests
    | throw .counterOverflow
  if identity.limits.periodRequestLimit.any fun limit =>
      decide (limit.1 < projectedRequests ∨ (0 < proposed.requests ∧ limit.1 ≤ snapshot.requestsUsed)) then
    throw .requestLimitReached
  let some currentBytes := checkedAdd snapshot.bytesToTor snapshot.bytesFromTor
    | throw .counterOverflow
  let some proposedBytes := checkedAdd proposed.bytesToTor proposed.bytesFromTor
    | throw .counterOverflow
  let some projectedBytes := checkedAdd currentBytes proposedBytes
    | throw .counterOverflow
  if identity.limits.periodByteLimit.any fun limit =>
      decide (limit.1 < projectedBytes ∨ (0 < proposed.requests ∧ limit.1 ≤ currentBytes)) then
    throw .byteLimitReached

namespace Database

/-! ### Accounts -/

def createAccount (db : Database) (email : Str) (stripeCustomerId : Option Str) (plan : PlanCode)
    (limits : AccountLimits) : Except AccountManagementError AccountRecord × Database :=
  db.transaction do
    let email ← normalizeEmail email
    let stripeCustomerId ← normalizeStripeCustomerId stripeCustomerId
    let values ← limits.databaseValues
    let (id, db') ← (db.insertAccountRow
      { email, stripeCustomerId, plan := plan.text, status := "active" }).mapError
        (conflictOr "email or Stripe customer identifier already exists")
    let accountId ← PrivateIdentifier.fromDatabase .account id
    let db'' ← (db'.insertLimitsRow accountId.raw values).mapError .database
    return ({ id := accountId, email, stripeCustomerId, plan, status := .active, limits }, db'')

def account (db : Database) (accountId : AccountId) : Except AccountManagementError AccountRecord := do
  let some (a, l) := (do return (← db.accounts.get accountId.raw, ← db.accountLimits.lookup accountId.raw)
      : Option (AccountRow × DatabaseLimitValues))
    | throw (.notFound .account)
  let plan ← (PlanCode.new a.plan).mapError fun _ => .corruptData "invalid stored plan code"
  let status ← AccountStatus.fromDatabase a.status
  let limits ← AccountLimits.fromDatabase l
  return { id := accountId, email := a.email, stripeCustomerId := a.stripeCustomerId, plan, status, limits }

/-- `account_record_from_raw` of a row of the join. -/
def accountRecordFromRaw (id : ℕ) (a : AccountRow) (l : DatabaseLimitValues) :
    Except AccountManagementError AccountRecord := do
  let id ← PrivateIdentifier.fromDatabase .account id
  let plan ← (PlanCode.new a.plan).mapError fun _ => .corruptData "invalid stored plan code"
  let status ← AccountStatus.fromDatabase a.status
  let limits ← AccountLimits.fromDatabase l
  return { id, email := a.email, stripeCustomerId := a.stripeCustomerId, plan, status, limits }

/-- The account of the first row of a query for ids. -/
def accountOfFirst (db : Database) (rows : List (ℕ × AccountRow)) :
    Except AccountManagementError AccountRecord := do
  let some (id, _) := rows.head? | throw (.notFound .account)
  let accountId ← PrivateIdentifier.fromDatabase .account id
  db.account accountId

/-- The column's collation is that of the comparison. -/
def accountByEmail (db : Database) (email : Str) : Except AccountManagementError AccountRecord := do
  let email ← normalizeEmail email
  db.accountOfFirst (db.accounts.select fun _ r => eqIgnoreAsciiCase r.email email)

def accountByStripeCustomerId (db : Database) (stripeCustomerId : Str) :
    Except AccountManagementError AccountRecord := do
  let some stripeCustomerId ← normalizeStripeCustomerId (some stripeCustomerId)
    | throw (.invalidInput "Stripe customer identifier is required")
  db.accountOfFirst (db.accounts.select fun _ r => r.stripeCustomerId == some stripeCustomerId)

/-- The rows of the join, `ORDER BY a.id ASC`. -/
def listAccounts (db : Database) : Except AccountManagementError (List AccountRecord) :=
  ((db.accounts.select fun _ _ => true).filterMap fun (id, a) =>
    (db.accountLimits.lookup id).map fun l => (id, a, l)).mapM fun (id, a, l) => accountRecordFromRaw id a l

/-- The methods that set a column where a condition holds: whether a row changed, and `NotFound`
when there is no row under the key. -/
def updateOrMissing {ρ : Type} (table : Table ρ) (id : ℕ) (p : ρ → Bool) (f : ρ → ρ)
    (entity : EntityKind) : Except AccountManagementError Bool × Table ρ :=
  let updated := table.update id p f
  if 0 < table.changed id p then (.ok true, updated)
  else if recordExists updated id then (.ok false, updated)
  else (.error (.notFound entity), updated)

def setAccountStatus (db : Database) (accountId : AccountId) (status : AccountStatus) :
    Except AccountManagementError Bool × Database :=
  let (result, accounts) := updateOrMissing db.accounts accountId.raw
    (fun r => r.status != status.asDatabaseValue)
    (fun r => { r with status := status.asDatabaseValue }) .account
  (result, { db with accounts })

def updateAccountPlanAndLimits (db : Database) (accountId : AccountId) (plan : PlanCode)
    (limits : AccountLimits) : Except AccountManagementError Unit × Database :=
  db.transaction do
    let values ← limits.databaseValues
    let accounts := db.accounts.update accountId.raw (fun _ => true) fun r => { r with plan := plan.text }
    if db.accounts.changed accountId.raw (fun _ => true) = 0 then
      throw (.notFound .account)
    if accountId.raw ∉ db.accountLimits then
      throw (.corruptData "account is missing its limits record")
    return ((), { db with accounts, accountLimits := db.accountLimits.insert accountId.raw values })

def setStripeCustomerId (db : Database) (accountId : AccountId) (stripeCustomerId : Option Str) :
    Except AccountManagementError Unit × Database :=
  match normalizeStripeCustomerId stripeCustomerId with
  | .error e => (.error e, db)
  | .ok stripeCustomerId =>
    if db.accounts.changed accountId.raw (fun _ => true) = 0 then (.error (.notFound .account), db)
    else if (db.accounts.select fun id r => id != accountId.raw && stripeCustomerId.isSome &&
        r.stripeCustomerId == stripeCustomerId).isEmpty then
      (.ok (), { db with
        accounts := db.accounts.update accountId.raw (fun _ => true) (fun r => { r with stripeCustomerId }) })
    else (.error (.conflict "Stripe customer identifier already exists"), db)

/-! ### Workspaces -/

def createWorkspace (db : Database) (accountId : AccountId) (name : Str) :
    Except AccountManagementError WorkspaceRecord × Database :=
  match normalizeWorkspaceName name with
  | .error e => (.error e, db)
  | .ok name =>
    if recordExists db.accounts accountId.raw then
      match db.insertWorkspaceRow { accountId := accountId.raw, name, status := "active" } with
      | .ok (id, db') =>
        ((PrivateIdentifier.fromDatabase .workspace id).map fun id =>
          { id, accountId, name, status := .active }, db')
      | .error e => (.error (conflictOr "workspace name already exists for account" e), db)
    else (.error (.notFound .account), db)

def workspace (db : Database) (workspaceId : WorkspaceId) :
    Except AccountManagementError WorkspaceRecord := do
  let some row := db.workspaces.get workspaceId.raw | throw (.notFound .workspace)
  let accountId ← PrivateIdentifier.fromDatabase .account row.accountId
  let status ← WorkspaceStatus.fromDatabase row.status
  return { id := workspaceId, accountId, name := row.name, status }

def listWorkspaces (db : Database) (accountId : AccountId) :
    Except AccountManagementError (List WorkspaceRecord) := do
  if !recordExists db.accounts accountId.raw then throw (.notFound .account)
  (db.workspaces.select fun _ w => w.accountId == accountId.raw).mapM fun (id, row) => do
    let id ← PrivateIdentifier.fromDatabase .workspace id
    let status ← WorkspaceStatus.fromDatabase row.status
    return { id, accountId, name := row.name, status }

def setWorkspaceStatus (db : Database) (workspaceId : WorkspaceId) (status : WorkspaceStatus) :
    Except AccountManagementError Bool × Database :=
  let (result, workspaces) := updateOrMissing db.workspaces workspaceId.raw
    (fun r => r.status != status.asDatabaseValue)
    (fun r => { r with status := status.asDatabaseValue }) .workspace
  (result, { db with workspaces })

/-! ### API keys -/

/-- The row that `insert_api_key` and `rotate_api_key` write. -/
def newApiKeyRow (generated : GeneratedApiKey) (accountId workspaceId : ℕ) (label : Str)
    (now : UnixTimestamp) : ApiKeyRow where
  publicId := generated.publicId
  accountId := accountId
  workspaceId := workspaceId
  label := label
  keyHashVersion := API_KEY_HASH_VERSION
  keyHash := generated.digest.1
  status := "active"
  createdAt := now.seconds
  revokedAt := none

def insertApiKey (db : Database) (accountId : AccountId) (workspaceId : WorkspaceId) (label : Str)
    (generated : GeneratedApiKey) (now : UnixTimestamp) :
    Except AccountManagementError ApiKeyId × Database :=
  match normalizeCredentialLabel label with
  | .error e => (.error e, db)
  | .ok label =>
    match db.requireWorkspaceScope accountId workspaceId with
    | .error e => (.error e, db)
    | .ok () =>
      match db.insertApiKeyRow (newApiKeyRow generated accountId.raw workspaceId.raw label now) with
      | .error e => (.error (.database e), db)
      | .ok (id, db') => (PrivateIdentifier.fromDatabase .apiKey id, db')

def rotateApiKey (db : Database) (oldApiKeyId : ApiKeyId) (generated : GeneratedApiKey)
    (now : UnixTimestamp) : Except AccountManagementError ApiKeyId × Database :=
  db.transaction do
    let some old := db.apiKeys.get oldApiKeyId.raw | throw (.notFound .apiKey)
    let status ← CredentialStatus.fromDatabase old.status
    if status ≠ .active then throw (.conflict "only an active API key can be rotated")
    let (id, db') ← (db.insertApiKeyRow
      (newApiKeyRow generated old.accountId old.workspaceId old.label now)).mapError .database
    let newApiKeyId ← PrivateIdentifier.fromDatabase .apiKey id
    if db'.apiKeys.changed oldApiKeyId.raw (fun r => r.status == "active") ≠ 1 then
      throw (.conflict "API key changed while it was being rotated")
    return (newApiKeyId, { db' with
      apiKeys := db'.apiKeys.update oldApiKeyId.raw (fun r => r.status == "active") (setRevoked now) })

def revokeApiKey (db : Database) (apiKeyId : ApiKeyId) (now : UnixTimestamp) :
    Except AccountManagementError Bool × Database :=
  let (result, apiKeys) := updateOrMissing db.apiKeys apiKeyId.raw (fun r => r.status == "active")
    (setRevoked now) .apiKey
  (result, { db with apiKeys })

/-! ### Device credentials -/

def registerDeviceCredential (db : Database) (accountId : AccountId) (workspaceId : WorkspaceId)
    (fingerprint : CertificateFingerprint) (label : Str) (now : UnixTimestamp) :
    Except AccountManagementError DeviceCredentialMetadata × Database :=
  match normalizeCredentialLabel label with
  | .error e => (.error e, db)
  | .ok label =>
    match db.requireWorkspaceScope accountId workspaceId with
    | .error e => (.error e, db)
    | .ok () =>
      match db.insertDeviceCredentialRow
        { accountId := accountId.raw, workspaceId := workspaceId.raw, label,
          certificateFingerprint := fingerprint.1, status := "active", createdAt := now.seconds,
          revokedAt := none } with
      | .ok (id, db') =>
        ((PrivateIdentifier.fromDatabase .deviceCredential id).map fun id =>
          { id, label, status := .active, createdAt := now, revokedAt := none }, db')
      | .error e => (.error (conflictOr "certificate fingerprint is already registered" e), db)

def revokeDeviceCredential (db : Database) (deviceCredentialId : DeviceCredentialId)
    (now : UnixTimestamp) : Except AccountManagementError Bool × Database :=
  let (result, deviceCredentials) := updateOrMissing db.deviceCredentials deviceCredentialId.raw
    (fun r => r.status == "active") (setDeviceRevoked now) .deviceCredential
  (result, { db with deviceCredentials })

/-! ### Authentication -/

/-- The first row of the four-way join, as `query_row` returns it. -/
def credentialLookup (db : Database) (publicId : Str) : Option CredentialLookup :=
  (db.apiKeys.select fun _ k => k.publicId == publicId).findSome? fun (id, k) => do
    let a ← db.accounts.get k.accountId
    let w ← db.workspaces.get k.workspaceId
    guard (w.accountId = k.accountId)
    let l ← db.accountLimits.lookup k.accountId
    return { apiKeyId := id, publicId := k.publicId, accountId := k.accountId,
             workspaceId := k.workspaceId, keyHashVersion := k.keyHashVersion, keyHash := k.keyHash,
             apiKeyStatus := k.status, accountStatus := a.status, workspaceStatus := w.status,
             limits := l }

def deviceLookup (db : Database) (fingerprint : CertificateFingerprint) :
    Option (ℕ × DeviceCredentialRow) :=
  (db.deviceCredentials.select fun _ d => d.certificateFingerprint == fingerprint.1).head?

/-- `?` on a database call inside `authenticate`. -/
def orStorage {α : Type} (x : Except AccountManagementError α) : Except AuthenticationError α :=
  x.mapError .storage

def authenticate (db : Database) (publicId : Str) (digest : ByteVec 32)
    (fingerprint : CertificateFingerprint) : Except AuthenticationError IngressIdentity := do
  let some credential := db.credentialLookup publicId | throw .invalidApiKey
  if credential.publicId ≠ publicId ∨ credential.keyHashVersion ≠ API_KEY_HASH_VERSION ∨
      credential.keyHash.length ≠ 32 then
    throw (.storage (.corruptData "invalid stored API key material"))
  if credential.keyHash ≠ digest.1 then throw .invalidApiKey
  if (← orStorage (CredentialStatus.fromDatabase credential.apiKeyStatus)) ≠ .active then
    throw .apiKeyRevoked
  if (← orStorage (AccountStatus.fromDatabase credential.accountStatus)) ≠ .active then
    throw .accountInactive
  if (← orStorage (WorkspaceStatus.fromDatabase credential.workspaceStatus)) ≠ .active then
    throw .workspaceInactive
  let some (deviceId, device) := db.deviceLookup fingerprint | throw .unknownDevice
  if (← orStorage (CredentialStatus.fromDatabase device.status)) ≠ .active then
    throw .deviceRevoked
  if device.accountId ≠ credential.accountId ∨ device.workspaceId ≠ credential.workspaceId then
    throw .credentialScopeMismatch
  let accountId ← orStorage (PrivateIdentifier.fromDatabase .account credential.accountId)
  let workspaceId ← orStorage (PrivateIdentifier.fromDatabase .workspace credential.workspaceId)
  let apiKeyId ← orStorage (PrivateIdentifier.fromDatabase .apiKey credential.apiKeyId)
  let deviceCredentialId ← orStorage (PrivateIdentifier.fromDatabase .deviceCredential deviceId)
  let limits ← orStorage (AccountLimits.fromDatabase credential.limits)
  return { accountId, workspaceId, apiKeyId, deviceCredentialId, limits }

/-! ### Usage -/

def usageKey (identity : IngressIdentity) (periodStart : UnixTimestamp) : UsageKey :=
  ⟨identity.accountId.raw, identity.workspaceId.raw, periodStart.seconds⟩

/-- The counters under a key, zeros where there is no row. -/
def usageValues (db : Database) (key : UsageKey) : Except AccountManagementError (ℕ × ℕ × ℕ) := do
  let row := (db.usagePeriods.lookup key).getD ⟨0, 0, 0⟩
  return (← nonnegativeU64FromDatabase row.requestsUsed "requests used",
          ← nonnegativeU64FromDatabase row.bytesToTor "bytes to Tor",
          ← nonnegativeU64FromDatabase row.bytesFromTor "bytes from Tor")

/-- `INSERT .. ON CONFLICT DO UPDATE`: an existing row needs no new check of its foreign keys. -/
def upsertUsageRow (db : Database) (key : UsageKey) (row : UsageRow) : Except SqliteError Database :=
  if 0 ≤ key.periodStart ∧ 0 ≤ row.requestsUsed ∧ 0 ≤ row.bytesToTor ∧ 0 ≤ row.bytesFromTor ∧
      (key ∈ db.usagePeriods ∨
        (db.accounts.get key.accountId).isSome ∧ db.workspaceInAccount key.workspaceId key.accountId) then
    .ok { db with usagePeriods := db.usagePeriods.insert key row }
  else .error .constraintViolation

def usageForScope (db : Database) (accountId : AccountId) (workspaceId : WorkspaceId)
    (periodStart : UnixTimestamp) : Except AccountManagementError UsageSnapshot := do
  db.requireWorkspaceScope accountId workspaceId
  let (requestsUsed, bytesToTor, bytesFromTor) ←
    db.usageValues ⟨accountId.raw, workspaceId.raw, periodStart.seconds⟩
  return { accountId, workspaceId, periodStart, requestsUsed, bytesToTor, bytesFromTor }

/-- The rows of a period, `ORDER BY account_id ASC, workspace_id ASC`. -/
def usageRows (db : Database) (periodStart : UnixTimestamp) : List (UsageKey × UsageRow) :=
  let scopes := (db.usagePeriods.keys.filter fun key => key.periodStart = periodStart.seconds).image
    fun key => toLex (key.accountId, key.workspaceId)
  scopes.sort.filterMap fun scope =>
    let key : UsageKey := ⟨(ofLex scope).1, (ofLex scope).2, periodStart.seconds⟩
    (db.usagePeriods.lookup key).map fun row => (key, row)

def usageSnapshotFromRow (periodStart : UnixTimestamp) (entry : UsageKey × UsageRow) :
    Except AccountManagementError UsageSnapshot := do
  return { accountId := ← PrivateIdentifier.fromDatabase .account entry.1.accountId
           workspaceId := ← PrivateIdentifier.fromDatabase .workspace entry.1.workspaceId
           periodStart
           requestsUsed := ← nonnegativeU64FromDatabase entry.2.requestsUsed "requests used"
           bytesToTor := ← nonnegativeU64FromDatabase entry.2.bytesToTor "bytes to Tor"
           bytesFromTor := ← nonnegativeU64FromDatabase entry.2.bytesFromTor "bytes from Tor" }

def listUsageForPeriod (db : Database) (periodStart : UnixTimestamp) :
    Except AccountManagementError (List UsageSnapshot) :=
  (db.usageRows periodStart).mapM (usageSnapshotFromRow periodStart)

/-- Adds a delta to the counters read before and writes the row back. -/
def addUsage (db : Database) (identity : IngressIdentity) (periodStart : UnixTimestamp)
    (current : ℕ × ℕ × ℕ) (delta : UsageDelta) :
    Except AccountManagementError (UsageSnapshot × Database) := do
  let requestsUsed ← checkedUsageAdd current.1 delta.requests
  let bytesToTor ← checkedUsageAdd current.2.1 delta.bytesToTor
  let bytesFromTor ← checkedUsageAdd current.2.2 delta.bytesFromTor
  let row : UsageRow := ⟨← checkedDatabaseCounter requestsUsed, ← checkedDatabaseCounter bytesToTor,
    ← checkedDatabaseCounter bytesFromTor⟩
  let db' ← (db.upsertUsageRow (usageKey identity periodStart) row).mapError .database
  return ({ accountId := identity.accountId, workspaceId := identity.workspaceId, periodStart,
            requestsUsed, bytesToTor, bytesFromTor }, db')

def recordUsage (db : Database) (identity : IngressIdentity) (periodStart : UnixTimestamp)
    (delta : UsageDelta) : Except AccountManagementError UsageSnapshot × Database :=
  db.transaction do
    db.requireWorkspaceScope identity.accountId identity.workspaceId
    let current ← db.usageValues (usageKey identity periodStart)
    db.addUsage identity periodStart current delta

def recordUsageIfAllowed (db : Database) (identity : IngressIdentity) (periodStart : UnixTimestamp)
    (delta : UsageDelta) : Except UsageAdmissionError UsageSnapshot × Database :=
  db.transaction do
    (db.requireWorkspaceScope identity.accountId identity.workspaceId).mapError .storage
    let current ← (db.usageValues (usageKey identity periodStart)).mapError .storage
    let snapshot : UsageSnapshot :=
      { accountId := identity.accountId, workspaceId := identity.workspaceId, periodStart,
        requestsUsed := current.1, bytesToTor := current.2.1, bytesFromTor := current.2.2 }
    (checkUsageAllowance identity snapshot delta).mapError .quota
    (db.addUsage identity periodStart current delta).mapError .storage

end Database

end Cobra
