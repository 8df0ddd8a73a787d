import CobraProxy.Spec.Cache

/-! What the response cache stores, and for how long. Reading `Cache-Control` and computing when a response stops
being fresh is Pingora's and is a parameter. -/

namespace Cobra

open Text

structure ResponseHeader where
  status : ℕ
  headers : List (Str × Bytes)

def ResponseHeader.containsKey (r : ResponseHeader) (name : String) : Bool :=
  r.headers.any fun h => h.1 == name.toList

/-- The `Cache-Control` of a response; the ages are seconds, where they are given and well formed. -/
structure ResponseCacheControl extends CacheControl where
  isPublic : Bool
  sMaxage : Except String (Option ℕ)
  maxAge : Except String (Option ℕ)

/-- Nanoseconds since the earliest `SystemTime`. -/
abbrev SystemTime := ℕ

def NANOS_PER_SEC : ℕ := 10 ^ 9

/-- `timeEnd` is where the times that the platform can represent end. -/
def SystemTime.checkedAdd (timeEnd time : SystemTime) (seconds : ℕ) : Option SystemTime :=
  if time + NANOS_PER_SEC * seconds < timeEnd then some (time + NANOS_PER_SEC * seconds) else none

structure CacheMeta where
  freshUntil : SystemTime
  created : SystemTime
  staleWhileRevalidateSec : ℕ
  staleIfErrorSec : ℕ
  header : ResponseHeader

inductive RespCacheable
  | cacheable (info : CacheMeta)
  | uncacheable (reason : String)

/-- The counters that `response_cache_filter` can increase. -/
inductive CacheMetric
  | ttlCaps | metadataFailures | insertions | bypassResponsePolicy
  deriving DecidableEq

def CachePolicy.effectiveMaxTtl (policy : CachePolicy) : ℕ := min policy.configuredMaxTtl policy.absoluteMaxTtl

section Responses

variable (parseAuthority : ParseAuthority) (requestCacheControl : RequestHeader → Option CacheControl)
  (responseCacheControl : ResponseHeader → Option ResponseCacheControl)
  (respCacheable : ResponseCacheControl → ResponseHeader → RespCacheable) (timeEnd : SystemTime)

/-- `s-maxage` where it is given and well formed, else `max-age`. -/
def effectiveFreshness (control : ResponseCacheControl) : Option ℕ :=
  control.sMaxage.toOption.join <|> control.maxAge.toOption.join

def conservativeResponseCacheable (request : RequestHeader) (response : ResponseHeader) : RespCacheable :=
  if !requestCacheEligible requestCacheControl request then .uncacheable "request-policy"
  else if response.status ≠ 200 then .uncacheable "status-policy"
  else if response.containsKey "set-cookie" then .uncacheable "set-cookie"
  else if response.containsKey "vary" then .uncacheable "vary-unsupported"
  else
    match responseCacheControl response with
    | none => .uncacheable "explicit-freshness-required"
    | some cacheControl =>
      if !cacheControl.isPublic || cacheControl.isPrivate || cacheControl.noStore then
        .uncacheable "scoped-cache-policy"
      else if !(effectiveFreshness cacheControl).any (0 < ·) then .uncacheable "positive-freshness-required"
      else respCacheable cacheControl response

/-- With the time of admission. The results are what may be stored, whether its lifetime was capped, and whether its
metadata could not be made. -/
def boundedResponseCacheable (request : RequestHeader) (response : ResponseHeader) (maxTtl : ℕ)
    (admittedAt : SystemTime) : RespCacheable × Bool × Bool :=
  match conservativeResponseCacheable requestCacheControl responseCacheControl respCacheable request response with
  | .uncacheable reason => (.uncacheable reason, false, false)
  | .cacheable info =>
    match SystemTime.checkedAdd timeEnd admittedAt (min maxTtl CACHE_ABSOLUTE_MAX_TTL) with
    | none => (.uncacheable "local-ttl-overflow", false, true)
    | some localDeadline =>
      let originDeadline := info.freshUntil
      let boundedDeadline := min originDeadline localDeadline
      if boundedDeadline ≤ admittedAt then (.uncacheable "freshness-expired", false, false)
      else
        let ttlWasCapped := decide (localDeadline < originDeadline)
        (.cacheable ⟨boundedDeadline, admittedAt, 0, 0, info.header⟩, ttlWasCapped, false)

def RespCacheable.isCacheable : RespCacheable → Bool
  | .cacheable _ => true
  | .uncacheable _ => false

/-- With the counters that are increased. -/
def responseCacheFilter (request : RequestHeader) (response : ResponseHeader) (ctx : RequestCtx) (policy : CachePolicy)
    (now : SystemTime) : RespCacheable × List CacheMetric :=
  match cacheAccessDecision parseAuthority requestCacheControl request ctx policy with
  | .eligible _ _ =>
    let (cacheable, ttlWasCapped, metadataFailed) := boundedResponseCacheable requestCacheControl responseCacheControl
      respCacheable timeEnd request response policy.effectiveMaxTtl now
    (cacheable, (if ttlWasCapped then [.ttlCaps] else []) ++ (if metadataFailed then [.metadataFailures] else []) ++
      [if cacheable.isCacheable then .insertions else .bypassResponsePolicy])
  | _ => (.uncacheable "cache-access-policy", [])

end Responses

end Cobra
