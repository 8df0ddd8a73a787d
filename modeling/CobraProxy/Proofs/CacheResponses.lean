import CobraProxy.Proofs.Destination
import CobraProxy.Spec.CacheResponses

/-! What the response cache stores meets every condition of its policy, and is stored no longer than any of them
allows. -/

namespace Cobra

open Text Fallible

variable {parseAuthority : ParseAuthority} {requestCacheControl : RequestHeader → Option CacheControl}
  {responseCacheControl : ResponseHeader → Option ResponseCacheControl}
  {respCacheable : ResponseCacheControl → ResponseHeader → RespCacheable}
  {request : RequestHeader} {response : ResponseHeader} {ctx : RequestCtx} {policy : CachePolicy} {now : SystemTime}
  {info : CacheMeta} {timeEnd : SystemTime}

/-- A request that may be answered from the cache and whose answer may be stored. -/
structure RequestAdmitted (requestCacheControl : RequestHeader → Option CacheControl) (request : RequestHeader) :
    Prop where
  method : request.method = "GET".toList
  authorization : request.containsKey "authorization" = false
  cookie : request.containsKey "cookie" = false
  cacheControl : ∀ control, requestCacheControl request = some control →
    control.noStore = false ∧ control.isPrivate = false

/-- A response that may be stored. -/
structure ResponseAdmitted (responseCacheControl : ResponseHeader → Option ResponseCacheControl)
    (response : ResponseHeader) (control : ResponseCacheControl) : Prop where
  status : response.status = 200
  setCookie : response.containsKey "set-cookie" = false
  vary : response.containsKey "vary" = false
  cacheControl : responseCacheControl response = some control
  isPublic : control.isPublic = true
  isPrivate : control.isPrivate = false
  noStore : control.noStore = false
  freshness : ∃ seconds, effectiveFreshness control = some seconds ∧ 0 < seconds

theorem requestAdmitted_of_eligible (h : requestCacheEligible requestCacheControl request = true) :
    RequestAdmitted requestCacheControl request := by
  unfold requestCacheEligible at h
  split_ifs at h with hrefused
  simp only [ne_eq, not_or, not_not, Bool.not_eq_true] at hrefused
  refine ⟨hrefused.1, hrefused.2.1, hrefused.2.2, fun control hcontrol => ?_⟩
  simpa [hcontrol] using h

theorem eligible_of_decision {scope origin : Str}
    (h : cacheAccessDecision parseAuthority requestCacheControl request ctx policy = .eligible scope origin) :
    ctx.strictIsolation = false ∧ ctx.cacheScope = some scope ∧
      (∃ path, canonicalCacheKeyParts parseAuthority request = .ok (origin, path)) ∧ policy.allows origin = true ∧
      requestCacheEligible requestCacheControl request = true := by
  unfold cacheAccessDecision at h
  cases hstrict : ctx.strictIsolation with
  | true =>
    rw [hstrict] at h
    cases h
  | false =>
    rw [hstrict, if_neg Bool.false_ne_true] at h
    split at h
    · cases h
    · rename_i scope' hscope
      split at h
      · cases h
      · rename_i origin' path hparts
        split_ifs at h with hallowed heligible
        cases h
        exact ⟨rfl, hscope, ⟨path, hparts⟩, by simpa using hallowed, by simpa using heligible⟩

/-- What is cacheable to Pingora after every check of the response. -/
theorem conservativeResponseCacheable_spec
    (h : conservativeResponseCacheable requestCacheControl responseCacheControl respCacheable request response =
      .cacheable info) :
    requestCacheEligible requestCacheControl request = true ∧ ∃ control,
      ResponseAdmitted responseCacheControl response control ∧ respCacheable control response = .cacheable info := by
  unfold conservativeResponseCacheable at h
  split_ifs at h with hrequest hstatus hcookie hvary
  split at h
  · cases h
  · rename_i control hcontrol
    split_ifs at h with hscoped hfresh
    simp only [Bool.or_eq_true, Bool.not_eq_true', not_or, Bool.not_eq_false, Bool.not_eq_true] at hscoped
    obtain ⟨⟨hpublic, hprivate⟩, hstore⟩ := hscoped
    refine ⟨by simpa using hrequest, control,
      ⟨by simpa using hstatus, by simpa using hcookie, by simpa using hvary, hcontrol, hpublic, hprivate, hstore, ?_⟩, h⟩
    cases hage : effectiveFreshness control with
    | none => simp [hage] at hfresh
    | some seconds => exact ⟨seconds, rfl, Nat.pos_of_ne_zero (by simpa [hage] using hfresh)⟩

theorem checkedAdd_eq_some {time deadline : SystemTime} {seconds : ℕ}
    (h : SystemTime.checkedAdd timeEnd time seconds = some deadline) :
    deadline = time + NANOS_PER_SEC * seconds := by
  unfold SystemTime.checkedAdd at h
  split_ifs at h
  exact (Option.some.inj h).symm

/-- The lifetime that is stored: what Pingora computed, cut at the local limit. -/
theorem boundedResponseCacheable_spec {maxTtl : ℕ} {ttlWasCapped metadataFailed : Bool}
    (h : boundedResponseCacheable requestCacheControl responseCacheControl respCacheable timeEnd request response maxTtl
      now = (.cacheable info, ttlWasCapped, metadataFailed)) :
    ∃ origin localDeadline, conservativeResponseCacheable requestCacheControl responseCacheControl respCacheable request
        response = .cacheable origin ∧
      SystemTime.checkedAdd timeEnd now (min maxTtl CACHE_ABSOLUTE_MAX_TTL) = some localDeadline ∧
      now < info.freshUntil ∧ info.freshUntil = min origin.freshUntil localDeadline ∧
      info.staleWhileRevalidateSec = 0 ∧ info.staleIfErrorSec = 0 ∧
      ttlWasCapped = decide (localDeadline < origin.freshUntil) := by
  unfold boundedResponseCacheable at h
  cases hconservative : conservativeResponseCacheable requestCacheControl responseCacheControl respCacheable request
      response with
  | uncacheable reason =>
    rw [hconservative] at h
    simp at h
  | cacheable origin =>
    rw [hconservative] at h
    dsimp only at h
    cases hdeadline : SystemTime.checkedAdd timeEnd now (min maxTtl CACHE_ABSOLUTE_MAX_TTL) with
    | none =>
      rw [hdeadline] at h
      simp at h
    | some localDeadline =>
      rw [hdeadline] at h
      dsimp only at h
      split_ifs at h with hlate
      · simp at h
      · simp only [Prod.mk.injEq, RespCacheable.cacheable.injEq] at h
        obtain ⟨rfl, rfl, -⟩ := h
        exact ⟨origin, localDeadline, rfl, rfl, not_le.1 hlate, rfl, rfl, rfl, rfl⟩

/-- What a policy that was parsed holds. -/
theorem parse_spec {origins ttl : Option Str} {production : Bool}
    (h : CachePolicy.parse parseAuthority origins ttl production = .ok policy) :
    configuredOrigins parseAuthority origins = .ok policy.allowedHttpOrigins ∧
      policy.configuredMaxTtl ≤ CACHE_ABSOLUTE_MAX_TTL ∧ policy.absoluteMaxTtl = CACHE_ABSOLUTE_MAX_TTL := by
  simp only [CachePolicy.parse, throw_eq_error, error_bind, bind_eq_ok, ite_error_eq_ok, pure_eq_ok,
    Except.ok.injEq] at h
  obtain ⟨allowed, hallowed, -, maxTtl, -, hmax, rfl⟩ := h
  exact ⟨hallowed, not_lt.1 hmax, rfl⟩

/-- A response that is stored: the request has a scope and goes to a configured origin, request and response meet
every condition, and the lifetime ends before every limit. The cap is counted when the origin's deadline was the later
one. -/
theorem stored_response_is_admitted {origins ttl : Option Str} {production : Bool}
    (hpolicy : CachePolicy.parse parseAuthority origins ttl production = .ok policy) {recorded : List CacheMetric}
    (h : responseCacheFilter parseAuthority requestCacheControl responseCacheControl respCacheable timeEnd request response
      ctx policy now = (.cacheable info, recorded)) :
    ctx.strictIsolation = false ∧ ctx.cacheScope.isSome ∧
    (∃ allowed origin path, configuredOrigins parseAuthority origins = .ok allowed ∧
      canonicalCacheKeyParts parseAuthority request = .ok (origin, path) ∧ origin ∈ allowed) ∧
    RequestAdmitted requestCacheControl request ∧
    ∃ control origin, ResponseAdmitted responseCacheControl response control ∧
      respCacheable control response = .cacheable origin ∧
      now < info.freshUntil ∧ info.freshUntil ≤ origin.freshUntil ∧
      info.freshUntil ≤ now + NANOS_PER_SEC * policy.configuredMaxTtl ∧ info.freshUntil ≤ now + NANOS_PER_SEC * 300 ∧
      info.staleWhileRevalidateSec = 0 ∧ info.staleIfErrorSec = 0 ∧
      (.ttlCaps ∈ recorded ↔ now + NANOS_PER_SEC * policy.configuredMaxTtl < origin.freshUntil) := by
  obtain ⟨hallowed, hconfigured, habsolute⟩ := parse_spec hpolicy
  unfold responseCacheFilter at h
  split at h
  · rename_i scope canonicalOrigin hdecision
    obtain ⟨hstrict, hscope, ⟨path, hparts⟩, hallows, -⟩ := eligible_of_decision hdecision
    rcases hbounded : boundedResponseCacheable requestCacheControl responseCacheControl respCacheable timeEnd request
      response policy.effectiveMaxTtl now with ⟨cacheable, ttlWasCapped, metadataFailed⟩
    rw [hbounded] at h
    simp only [Prod.mk.injEq] at h
    obtain ⟨rfl, rfl⟩ := h
    obtain ⟨origin, localDeadline, hconservative, hlocal, hfresh, hdeadline, hrevalidate, herror, rfl⟩ :=
      boundedResponseCacheable_spec hbounded
    obtain ⟨hrequest, control, hresponse, hpingora⟩ := conservativeResponseCacheable_spec hconservative
    have hlimit : min policy.effectiveMaxTtl CACHE_ABSOLUTE_MAX_TTL = policy.configuredMaxTtl := by
      rw [CachePolicy.effectiveMaxTtl]
      omega
    rw [hlimit] at hlocal
    have hlocal := checkedAdd_eq_some hlocal
    have hseconds : policy.configuredMaxTtl ≤ 300 := hconfigured
    have hcapped : now + NANOS_PER_SEC * policy.configuredMaxTtl ≤ now + NANOS_PER_SEC * 300 := by gcongr
    have horigin : info.freshUntil ≤ origin.freshUntil := by
      rw [hdeadline]
      exact min_le_left _ _
    have hbefore : info.freshUntil ≤ now + NANOS_PER_SEC * policy.configuredMaxTtl := by
      rw [hdeadline, ← hlocal]
      exact min_le_right _ _
    refine ⟨hstrict, by rw [hscope]; rfl, ⟨_, _, path, hallowed, hparts, by simpa [CachePolicy.allows] using hallows⟩,
      requestAdmitted_of_eligible hrequest, control, origin, hresponse, hpingora, hfresh, horigin, hbefore,
      hbefore.trans hcapped, hrevalidate, herror, ?_⟩
    rw [← hlocal]
    by_cases hlater : localDeadline < origin.freshUntil
    · simp [hlater]
    · cases metadataFailed <;> simp [hlater, RespCacheable.isCacheable]
  · cases h

/-! A response that is fresh for two minutes, where one is configured. -/

def sitePolicy : CachePolicy := ⟨["http://example.com:80".toList], 60, 300⟩

def siteCtx : RequestCtx := ⟨none, 1, "team".toList, 1, false, some "scope".toList⟩

def siteResponse : ResponseHeader := ⟨200, []⟩

def siteControl : ResponseCacheControl := ⟨⟨false, false⟩, true, .ok none, .ok (some 120)⟩

def siteStored : CacheMeta := ⟨60000000000, 0, 0, 0, siteResponse⟩

theorem stored_response_is_admitted_site : siteStored.freshUntil ≤ 0 + NANOS_PER_SEC * 300 := by
  have hpolicy : CachePolicy.parse siteAuthority (some "http://example.com".toList) none true = .ok sitePolicy :=
    Fallible.toOption_eq_some.1 (by decide +kernel)
  have hstored : responseCacheFilter siteAuthority (fun _ => none) (fun _ => some siteControl)
      (fun _ response => .cacheable ⟨120000000000, 0, 0, 0, response⟩) 1000000000000 (siteRequest "http") siteResponse
      siteCtx sitePolicy 0 = (.cacheable siteStored, [.ttlCaps, .insertions]) := by
    rfl
  obtain ⟨-, -, -, -, -, -, -, -, -, -, -, hlimit, -⟩ := stored_response_is_admitted hpolicy hstored
  exact hlimit

end Cobra
