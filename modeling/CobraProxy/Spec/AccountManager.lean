import CobraProxy.Lib.Base64
import CobraProxy.Lib.Run
import CobraProxy.Spec.AccountDatabase

/-! `AccountManager`: key generation, proxy authorization and the management operations as one
transition system. Keyed BLAKE3 is a function of the bytes it is fed; `getrandom` is a sequence of
draws, `none` where the call fails. -/

namespace Cobra

open Text

def API_KEY_GENERATION_ATTEMPTS : ℕ := 4

def MAX_PROXY_AUTHORIZATION_BYTES : ℕ := 1024

def apiKeyMarker : Str := "pxy_".toList

/-- Keyed BLAKE3 under the key of the service. -/
structure ApiKeyHasher where
  keyed : Bytes → ByteVec 32

def ApiKeyHasher.digest (hasher : ApiKeyHasher) (apiKey : Str) : ByteVec 32 :=
  hasher.keyed (utf8 "proxy-account-api-key-v1\x00".toList ++ utf8 apiKey)

structure IssuedApiKey where
  id : ApiKeyId
  publicId : Str
  secret : Str
  deriving DecidableEq

/-- The public bytes and the secret bytes of one attempt. -/
abbrev KeyDraw := ByteVec 12 × ByteVec 32

def GeneratedApiKey.generate (hasher : ApiKeyHasher) (draw : Option KeyDraw) :
    Except AccountManagementError GeneratedApiKey :=
  match draw with
  | none => .error .entropy
  | some (publicBytes, secretBytes) =>
    let publicId := Base64.encode Base64.urlSafe false publicBytes.1
    let secret := apiKeyMarker ++ publicId ++ '.' :: Base64.encode Base64.urlSafe false secretBytes.1
    .ok { publicId, secret, digest := hasher.digest secret }

def isBase64UrlByte (c : Char) : Bool := c.isAlphanum || c == '-' || c == '_'

def parseApiKeyPublicId (apiKey : Str) : Except ProxyAuthorizationError Str := do
  let some body := apiKey.dropPrefix? apiKeyMarker | throw .invalidApiKeyFormat
  let some (publicId, secret) := splitOnce '.' body | throw .invalidApiKeyFormat
  if byteLen publicId ≠ 16 ∨ byteLen secret ≠ 43 ∨ '.' ∈ secret ∨ !publicId.all isBase64UrlByte ∨
      !secret.all isBase64UrlByte then
    throw .invalidApiKeyFormat
  return publicId

def extractProxyAuthApiKey (headerValue : Str) : Except ProxyAuthorizationError Str := do
  if MAX_PROXY_AUTHORIZATION_BYTES < byteLen headerValue then throw .oversized
  let [scheme, encoded] := splitAsciiWhitespace headerValue | throw .missingScheme
  if !eqIgnoreAsciiCase scheme "Basic".toList then throw .unsupportedScheme
  let some decoded := Base64.decode Base64.standard encoded | throw .invalidBase64
  let some decoded := fromUtf8 decoded | throw .invalidUtf8
  let some (apiKey, password) := splitOnce ':' decoded | throw .missingPasswordSeparator
  if !password.isEmpty then throw .passwordMustBeEmpty
  let _ ← parseApiKeyPublicId apiKey
  return apiKey

namespace Database

variable (hasher : ApiKeyHasher)

/-- The retry loop of `issue_api_key` and `rotate_api_key` over one insertion. -/
def allocateApiKey (insert : GeneratedApiKey → Database → Except AccountManagementError ApiKeyId × Database) :
    ℕ → (ℕ → Option KeyDraw) → Database → Except AccountManagementError IssuedApiKey × Database
  | 0, _, db => (.error .credentialGenerationExhausted, db)
  | attempts + 1, draws, db =>
    match GeneratedApiKey.generate hasher (draws 0) with
    | .error e => (.error e, db)
    | .ok generated =>
      match insert generated db with
      | (.ok id, db') => (.ok ⟨id, generated.publicId, generated.secret⟩, db')
      | (.error (.database e), db') =>
        if isConstraintViolation e then allocateApiKey insert attempts (fun i => draws (i + 1)) db'
        else (.error (.database e), db')
      | (.error e, db') => (.error e, db')

def issueApiKey (db : Database) (accountId : AccountId) (workspaceId : WorkspaceId) (label : Str)
    (now : UnixTimestamp) (draws : ℕ → Option KeyDraw) :
    Except AccountManagementError IssuedApiKey × Database :=
  allocateApiKey hasher (fun generated db => db.insertApiKey accountId workspaceId label generated now)
    API_KEY_GENERATION_ATTEMPTS draws db

def rotateIssuedApiKey (db : Database) (oldApiKeyId : ApiKeyId) (now : UnixTimestamp)
    (draws : ℕ → Option KeyDraw) : Except AccountManagementError IssuedApiKey × Database :=
  allocateApiKey hasher (fun generated db => db.rotateApiKey oldApiKeyId generated now)
    API_KEY_GENERATION_ATTEMPTS draws db

def authenticateIngress (db : Database) (proxyAuthorization : Str)
    (fingerprint : CertificateFingerprint) : Except AuthenticationError IngressIdentity := do
  let apiKey ← (extractProxyAuthApiKey proxyAuthorization).mapError .invalidAuthorization
  let publicId ← (parseApiKeyPublicId apiKey).mapError .invalidAuthorization
  db.authenticate publicId (hasher.digest apiKey) fingerprint

def admitRequest (db : Database) (identity : IngressIdentity) (periodStart : UnixTimestamp) :
    Except UsageAdmissionError UsageSnapshot × Database :=
  match UsageDelta.new 1 0 0 with
  | .error e => (.error (.storage e), db)
  | .ok delta => db.recordUsageIfAllowed identity periodStart delta

end Database

/-! ### Runs of the manager -/

/-- The database, with the keys handed out and the certificates registered so far. -/
structure ManagerSystem where
  database : Database
  issued : List IssuedApiKey
  registered : List (DeviceCredentialId × CertificateFingerprint)

inductive ManagerAct
  | createAccount (email : Str) (stripeCustomerId : Option Str) (plan : PlanCode) (limits : AccountLimits)
  | setAccountStatus (accountId : AccountId) (status : AccountStatus)
  | updateAccountPlanAndLimits (accountId : AccountId) (plan : PlanCode) (limits : AccountLimits)
  | setStripeCustomerId (accountId : AccountId) (stripeCustomerId : Option Str)
  | createWorkspace (accountId : AccountId) (name : Str)
  | setWorkspaceStatus (workspaceId : WorkspaceId) (status : WorkspaceStatus)
  | issueApiKey (accountId : AccountId) (workspaceId : WorkspaceId) (label : Str)
      (now : UnixTimestamp) (draws : ℕ → Option KeyDraw)
  | rotateApiKey (oldApiKeyId : ApiKeyId) (now : UnixTimestamp) (draws : ℕ → Option KeyDraw)
  | revokeApiKey (apiKeyId : ApiKeyId) (now : UnixTimestamp)
  | registerDeviceCredential (accountId : AccountId) (workspaceId : WorkspaceId)
      (fingerprint : CertificateFingerprint) (label : Str) (now : UnixTimestamp)
  | revokeDeviceCredential (deviceCredentialId : DeviceCredentialId) (now : UnixTimestamp)
  | recordUsage (identity : IngressIdentity) (periodStart : UnixTimestamp) (delta : UsageDelta)
  | recordUsageIfAllowed (identity : IngressIdentity) (periodStart : UnixTimestamp) (delta : UsageDelta)
  | admitRequest (identity : IngressIdentity) (periodStart : UnixTimestamp)

namespace ManagerSystem

def empty : ManagerSystem := ⟨Database.empty, [], []⟩

def withIssued (s : ManagerSystem) (r : Except AccountManagementError IssuedApiKey × Database) :
    ManagerSystem :=
  match r with
  | (.ok key, db) => { s with database := db, issued := key :: s.issued }
  | (.error _, db) => { s with database := db }

def withRegistered (s : ManagerSystem) (fingerprint : CertificateFingerprint)
    (r : Except AccountManagementError DeviceCredentialMetadata × Database) : ManagerSystem :=
  match r with
  | (.ok device, db) => { s with database := db, registered := (device.id, fingerprint) :: s.registered }
  | (.error _, db) => { s with database := db }

def step (hasher : ApiKeyHasher) (s : ManagerSystem) : ManagerAct → ManagerSystem
  | .createAccount email stripe plan limits =>
    { s with database := (s.database.createAccount email stripe plan limits).2 }
  | .setAccountStatus accountId status =>
    { s with database := (s.database.setAccountStatus accountId status).2 }
  | .updateAccountPlanAndLimits accountId plan limits =>
    { s with database := (s.database.updateAccountPlanAndLimits accountId plan limits).2 }
  | .setStripeCustomerId accountId stripe =>
    { s with database := (s.database.setStripeCustomerId accountId stripe).2 }
  | .createWorkspace accountId name =>
    { s with database := (s.database.createWorkspace accountId name).2 }
  | .setWorkspaceStatus workspaceId status =>
    { s with database := (s.database.setWorkspaceStatus workspaceId status).2 }
  | .issueApiKey accountId workspaceId label now draws =>
    s.withIssued (s.database.issueApiKey hasher accountId workspaceId label now draws)
  | .rotateApiKey oldApiKeyId now draws =>
    s.withIssued (s.database.rotateIssuedApiKey hasher oldApiKeyId now draws)
  | .revokeApiKey apiKeyId now => { s with database := (s.database.revokeApiKey apiKeyId now).2 }
  | .registerDeviceCredential accountId workspaceId fingerprint label now =>
    s.withRegistered fingerprint
      (s.database.registerDeviceCredential accountId workspaceId fingerprint label now)
  | .revokeDeviceCredential deviceCredentialId now =>
    { s with database := (s.database.revokeDeviceCredential deviceCredentialId now).2 }
  | .recordUsage identity periodStart delta =>
    { s with database := (s.database.recordUsage identity periodStart delta).2 }
  | .recordUsageIfAllowed identity periodStart delta =>
    { s with database := (s.database.recordUsageIfAllowed identity periodStart delta).2 }
  | .admitRequest identity periodStart =>
    { s with database := (s.database.admitRequest identity periodStart).2 }

def Step (hasher : ApiKeyHasher) (s : ManagerSystem) (act : ManagerAct) (s' : ManagerSystem) : Prop :=
  s' = s.step hasher act

/-- A state that some run of management operations from the empty schema ends in. -/
def Reachable (hasher : ApiKeyHasher) (s : ManagerSystem) : Prop :=
  ∃ tr, Runs.Run (Step hasher) empty tr s

end ManagerSystem

end Cobra
