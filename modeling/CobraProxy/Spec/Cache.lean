import CobraProxy.Spec.Isolation

/-! The response cache: which origins the operator allows, which requests are looked up, and under
which key. Reading `Cache-Control` is Pingora's and is a parameter. -/

namespace Cobra

open Text

def CACHE_DEFAULT_MAX_TTL : ℕ := 60

def CACHE_ABSOLUTE_MAX_TTL : ℕ := 300

def CACHE_KEY_NAMESPACE_VERSION : Str := "proxy-http-cache-v2\x00".toList

/-- Times to live are seconds. -/
structure CachePolicy where
  allowedHttpOrigins : List Str
  configuredMaxTtl : ℕ
  absoluteMaxTtl : ℕ
  deriving DecidableEq

/-- A label of a host name, in letters, digits and inner hyphens. -/
def isHostLabel (label : Str) : Bool :=
  !label.isEmpty && decide (byteLen label ≤ 63) && label.head?.any Char.isAlphanum &&
    label.getLast?.any Char.isAlphanum && label.all fun c => c.isAlphanum || c == '-'

def cacheAddressAllowed : IpAddr → Bool
  | .v4 a =>
    let o := IpAddr.octet a
    !(o 0 == 0 || o 0 == 10 || o 0 == 127 || (o 0 == 100 && 64 ≤ o 1 && o 1 ≤ 127) ||
      (o 0 == 169 && o 1 == 254) || (o 0 == 172 && 16 ≤ o 1 && o 1 ≤ 31) ||
      (o 0 == 192 && o 1 == 0 && o 2 == 0) || (o 0 == 192 && o 1 == 0 && o 2 == 2) ||
      (o 0 == 192 && o 1 == 168) || (o 0 == 198 && (o 1 == 18 || o 1 == 19)) ||
      (o 0 == 198 && o 1 == 51 && o 2 == 100) || (o 0 == 203 && o 1 == 0 && o 2 == 113) || 224 ≤ o 0)
  | .v6 a =>
    (IpAddr.toIpv4 a).isNone && !IpAddr.isLoopback6 a && !IpAddr.isUnspecified6 a &&
      !IpAddr.isMulticast6 a && !IpAddr.isUniqueLocal a && !IpAddr.isUnicastLinkLocal a &&
      IpAddr.segment a 0 / 0x2000 == 1 &&
      !(IpAddr.segment a 0 == 0x2001 && IpAddr.segment a 1 == 0x0db8)

def cacheOriginHostAllowed (host : Str) : Bool :=
  if isLocalName host then false
  else
    match IpAddr.parse host with
    | some address => cacheAddressAllowed address
    | none =>
      if host.all fun c => c.isDigit || c == '.' then false
      else decide (byteLen host ≤ 253) && (host.splitOn '.').all isHostLabel

section Policy

variable (parseAuthority : ParseAuthority)

def canonicalConfiguredHttpOrigin (origin : Str) : Except String Str := do
  if eqIgnoreAsciiCase origin "all".toList ∨ '*' ∈ origin then
    throw "cache origin wildcards are not supported"
  let some (scheme, authorityText) := splitOnceAt "://".toList origin
    | throw "cache origin must include the http:// scheme"
  if !eqIgnoreAsciiCase scheme "http".toList then throw "cache origin scheme must be http"
  if authorityText.isEmpty ∨ '/' ∈ authorityText ∨ '?' ∈ authorityText ∨ '#' ∈ authorityText ∨
      '@' ∈ authorityText then
    throw "cache origin must be an authority without userinfo, path, query, or fragment"
  let authority ← (parseAuthority authorityText).mapError ("invalid cache origin authority: " ++ ·)
  let (host, port) := normalizedAuthority authority "http".toList
  if host.isEmpty ∨ port = 0 then
    throw "cache origin requires a non-empty host and non-zero port"
  if !cacheOriginHostAllowed host then
    throw "cache origin host is local, private, special-purpose, or ambiguous"
  return formatCanonicalOrigin "http".toList host port

/-- The list of the configured origins: nothing, or pieces between commas. -/
def configuredOrigins (allowedOrigins : Option Str) : Except String (List Str) :=
  match allowedOrigins with
  | none => .ok []
  | some allowedOrigins =>
    if (trim allowedOrigins).isEmpty then .ok []
    else (allowedOrigins.splitOn ',').mapM fun origin =>
      if (trim origin).isEmpty then .error "PROXY_CACHE_ALLOWED_HTTP_ORIGINS contains an empty origin"
      else canonicalConfiguredHttpOrigin parseAuthority (trim origin)

def configuredTtl (configuredTtlSeconds : Option Str) : Except String ℕ :=
  match configuredTtlSeconds with
  | none => .ok CACHE_DEFAULT_MAX_TTL
  | some value =>
    match parseU64 (trim value) with
    | none => .error "PROXY_CACHE_MAX_TTL_SECONDS must be a positive integer"
    | some seconds =>
      if seconds = 0 then .error "PROXY_CACHE_MAX_TTL_SECONDS must be positive" else .ok seconds

def CachePolicy.parse (allowedOrigins configuredTtlSeconds : Option Str) (production : Bool) :
    Except String CachePolicy := do
  let allowedHttpOrigins ← configuredOrigins parseAuthority allowedOrigins
  if production ∧ allowedHttpOrigins.isEmpty then
    throw "PROXY_CACHE_ALLOWED_HTTP_ORIGINS must contain at least one reviewed origin in production mode"
  let configuredMaxTtl ← configuredTtl configuredTtlSeconds
  if CACHE_ABSOLUTE_MAX_TTL < configuredMaxTtl then
    throw "PROXY_CACHE_MAX_TTL_SECONDS must not exceed 300 seconds"
  return { allowedHttpOrigins, configuredMaxTtl, absoluteMaxTtl := CACHE_ABSOLUTE_MAX_TTL }

def CachePolicy.allows (policy : CachePolicy) (canonicalOrigin : Str) : Bool :=
  policy.allowedHttpOrigins.contains canonicalOrigin

end Policy

/-! ### Requests -/

/-- The byte stream that `TenantIsolationHasher::cache_scope` hashes. -/
def cacheScopePreimage (identity : IngressIdentity) (resolvedIsolationIdentity : Str)
    (isolationGroupKey : UInt64) : Bytes :=
  utf8 "proxy-http-cache-scope-v2\x00".toList ++ (Encoding.word identity.accountId.raw ++
    (Encoding.word identity.workspaceId.raw ++ (Encoding.text resolvedIsolationIdentity ++
      Encoding.word isolationGroupKey.toNat)))

def TenantIsolationHasher.cacheScope (hash : KeyedHash) (identity : IngressIdentity)
    (resolvedIsolationIdentity : Str) (isolationGroupKey : UInt64) : Str :=
  Encoding.hex (hash (cacheScopePreimage identity resolvedIsolationIdentity isolationGroupKey)).1

/-- What `request_filter` puts into the context of a request. -/
structure RequestCtx where
  ingressIdentity : Option IngressIdentity
  token : ℕ
  isolationIdentity : Str
  isolationGroupKey : UInt64
  strictIsolation : Bool
  cacheScope : Option Str

/-- The end of `request_filter`; `identity` is that of the downstream context in authenticated mode. -/
def requestContext (hash : KeyedHash) (identity : Option IngressIdentity) (isolation : ResolvedIsolation)
    (material : IsolationMaterial) : RequestCtx where
  ingressIdentity := identity
  token := material.token
  isolationIdentity := isolation.identity
  isolationGroupKey := material.groupKey
  strictIsolation := isolation.strict
  cacheScope :=
    if isolation.strict then none
    else identity.map fun identity =>
      TenantIsolationHasher.cacheScope hash identity isolation.identity material.groupKey

structure CacheControl where
  noStore : Bool
  isPrivate : Bool

inductive CacheAccessDecision
  | eligible (scope canonicalOrigin : Str)
  | bypassStrict
  | bypassUnauthenticated
  | bypassOriginNotAllowed
  | bypassRequestPolicy

structure CacheKey where
  cacheNamespace : Str
  primary : Str
  userTag : Str
  deriving DecidableEq

section Requests

variable (parseAuthority : ParseAuthority) (requestCacheControl : RequestHeader → Option CacheControl)

def requestCacheEligible (request : RequestHeader) : Bool :=
  if request.method ≠ "GET".toList ∨ request.containsKey "authorization" ∨ request.containsKey "cookie" then
    false
  else !(requestCacheControl request).any fun control => control.noStore || control.isPrivate

def cacheAccessDecision (request : RequestHeader) (ctx : RequestCtx) (policy : CachePolicy) :
    CacheAccessDecision :=
  if ctx.strictIsolation then .bypassStrict
  else
    match ctx.cacheScope with
    | none => .bypassUnauthenticated
    | some scope =>
      match canonicalCacheKeyParts parseAuthority request with
      | .error _ => .bypassRequestPolicy
      | .ok (canonicalOrigin, _) =>
        if !policy.allows canonicalOrigin then .bypassOriginNotAllowed
        else if !requestCacheEligible requestCacheControl request then .bypassRequestPolicy
        else .eligible scope canonicalOrigin

def scopedCacheKey (request : RequestHeader) (scope : Str) : Except String CacheKey := do
  let (canonicalOrigin, pathAndQuery) ← canonicalCacheKeyParts parseAuthority request
  return ⟨CACHE_KEY_NAMESPACE_VERSION ++ canonicalOrigin, pathAndQuery, scope⟩

def cacheKeyCallback (request : RequestHeader) (ctx : RequestCtx) (policy : CachePolicy) :
    Except String CacheKey :=
  match cacheAccessDecision parseAuthority requestCacheControl request ctx policy with
  | .eligible scope _ => scopedCacheKey parseAuthority request scope
  | _ => .error "cache key callback invoked without an eligible trusted scope"

end Requests

end Cobra
