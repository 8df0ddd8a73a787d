import CobraProxy.Proofs.Authorities
import CobraProxy.Proofs.Isolation
import CobraProxy.Spec.Pipeline

/-! Requests with one cache key are one tenant's, for one target. The digest in the user tag gives the
scope; the origin ends where the path begins, since an origin that the operator allowed has none of
the characters a path can begin with. -/

namespace Cobra

open Text Program Prog Handler

variable {parseAuthority : ParseAuthority} {requestCacheControl : RequestHeader → Option CacheControl}
  {hash : KeyedHash} {policy : CachePolicy}

/-- The host of an authority is a part of its text. -/
def HostWithin (parseAuthority : ParseAuthority) : Prop :=
  ∀ text authority, parseAuthority text = .ok authority → ∀ c ∈ authority.host, c ∈ text

/-- The path and query of a URI is an asterisk or begins with a slash or a question mark. -/
def PathForm (uri : Uri) : Prop :=
  ∀ path, uri.pathAndQuery = some path → path = ['*'] ∨ ∃ rest, path = '/' :: rest ∨ path = '?' :: rest

/-- The characters a path can begin with. -/
def startsPath (c : Char) : Prop := c = '*' ∨ c = '/' ∨ c = '?'

theorem not_startsPath_normalizedHost {host : Str} (h : ∀ c ∈ host, ¬ startsPath c) :
    ∀ c ∈ normalizedHost host, ¬ startsPath c := by
  intro c hc hstart
  obtain ⟨d, hd, hlower⟩ := List.mem_map.1 hc
  have hmem : d ∈ host :=
    (List.dropWhile_suffix _).subset
      ((List.rdropWhile_prefix _ _).subset ((List.rdropWhile_prefix _ _).subset hd))
  have hnot : c.isLower = false := by rcases hstart with rfl | rfl | rfl <;> decide
  exact h d hmem (eq_of_toLower_eq hlower hnot ▸ hstart)

theorem not_startsPath_formatHostPort {host : Str} (port : UInt16) (h : ∀ c ∈ host, ¬ startsPath c) :
    ∀ c ∈ formatHostPort host port, ¬ startsPath c := by
  have hdigit : ∀ c ∈ Nat.toDigits 10 port.toNat, ¬ startsPath c := by
    intro c hc hstart
    have := Nat.isDigit_of_mem_toDigits (by decide) (by decide) hc
    rcases hstart with rfl | rfl | rfl <;> exact absurd this (by decide)
  intro c hc
  simp only [formatHostPort, List.mem_append, List.mem_cons] at hc
  rcases hc with hc | rfl | hc
  · split_ifs at hc
    · simp only [List.cons_append, List.mem_cons, List.mem_append, List.not_mem_nil, or_false] at hc
      rcases hc with rfl | hc | rfl
      · simp [startsPath]
      · exact h c hc
      · simp [startsPath]
    · exact h c hc
  · simp [startsPath]
  · exact hdigit c hc

/-- An origin of the allowlist is an http origin without a character that begins a path. -/
theorem canonicalConfiguredHttpOrigin_form (hhost : HostWithin parseAuthority) {text origin : Str}
    (h : canonicalConfiguredHttpOrigin parseAuthority text = .ok origin) :
    ∃ tail, origin = "http://".toList ++ tail ∧ ∀ c ∈ tail, ¬ startsPath c := by
  unfold canonicalConfiguredHttpOrigin at h
  split at h
  · rename_i scheme authorityText hsplit
    simp only [Fallible.throw_eq_error, Fallible.error_bind, Fallible.bind_eq_ok, Fallible.mapError_eq_ok,
      Fallible.ite_error_eq_ok, Fallible.pure_eq_ok, Except.ok.injEq, not_or] at h
    obtain ⟨⟨-, hstar⟩, -, ⟨-, hslash, hquery, -⟩, authority, hauthority, -, -, rfl⟩ := h
    have hclean : ∀ c ∈ authorityText, ¬ startsPath c := by
      rintro c hc (rfl | rfl | rfl)
      · exact hstar ((suffix_of_splitOnceAt hsplit).subset hc)
      · exact hslash hc
      · exact hquery hc
    refine ⟨_, rfl, not_startsPath_formatHostPort _ (not_startsPath_normalizedHost ?_)⟩
    exact fun c hc => hclean c (hhost _ _ hauthority c hc)
  · simp at h

/-- The operator configured every allowed origin. -/
theorem exists_configured {origins ttl : Option Str} {production : Bool}
    (hpolicy : CachePolicy.parse parseAuthority origins ttl production = .ok policy) {origin : Str}
    (h : policy.allows origin = true) : ∃ text, canonicalConfiguredHttpOrigin parseAuthority text = .ok origin := by
  simp only [CachePolicy.parse, Fallible.throw_eq_error, Fallible.error_bind, Fallible.bind_eq_ok,
    Fallible.ite_error_eq_ok, Fallible.pure_eq_ok, Except.ok.injEq] at hpolicy
  obtain ⟨allowed, hallowed, -, _, -, -, rfl⟩ := hpolicy
  replace h : origin ∈ allowed := by simpa [CachePolicy.allows] using h
  unfold configuredOrigins at hallowed
  split at hallowed
  · cases hallowed
    cases h
  · split_ifs at hallowed
    · cases hallowed
      cases h
    · obtain ⟨text, -, htext⟩ := (Fallible.mem_mapM hallowed).1 h
      rw [Fallible.ite_error_eq_ok] at htext
      exact ⟨_, htext.2⟩

theorem cacheScopePreimage_inj {identity identity' : IngressIdentity} {isolation isolation' : Str}
    {groupKey groupKey' : UInt64}
    (h : cacheScopePreimage identity isolation groupKey = cacheScopePreimage identity' isolation' groupKey') :
    identity.accountId = identity'.accountId ∧ identity.workspaceId = identity'.workspaceId ∧
      isolation = isolation' ∧ groupKey = groupKey' := by
  obtain ⟨haccount, h⟩ := PrivateIdentifier.word_append_inj (List.append_cancel_left h)
  obtain ⟨hworkspace, h⟩ := PrivateIdentifier.word_append_inj h
  obtain ⟨hisolation, h⟩ := Encoding.text_append_inj h
  have hgroup := (Encoding.word_append_inj groupKey.toNat_lt groupKey'.toNat_lt (congrArg (· ++ []) h)).1
  exact ⟨haccount, hworkspace, hisolation, UInt64.toNat_inj.1 hgroup⟩

/-! ### Keys -/

/-- A request with what `request_filter` resolved for it. -/
structure FilteredRequest where
  header : RequestHeader
  identity : Option IngressIdentity
  isolation : ResolvedIsolation
  material : IsolationMaterial

namespace FilteredRequest

def context (hash : KeyedHash) (r : FilteredRequest) : RequestCtx :=
  requestContext hash r.identity r.isolation r.material

/-- The stream that is hashed for the scope of the request. -/
def scopeStream (r : FilteredRequest) : List Bytes :=
  r.identity.toList.map fun identity => cacheScopePreimage identity r.isolation.identity r.material.groupKey

end FilteredRequest

/-- What a request has that gets a key. -/
theorem cacheKeyCallback_eq_ok {r : FilteredRequest} {key : CacheKey}
    (h : cacheKeyCallback parseAuthority requestCacheControl r.header (r.context hash) policy = .ok key) :
    ∃ identity origin path, r.identity = some identity ∧ r.isolation.strict = false ∧
      canonicalCacheKeyParts parseAuthority r.header = .ok (origin, path) ∧ policy.allows origin = true ∧
      key = ⟨CACHE_KEY_NAMESPACE_VERSION ++ origin, path, Encoding.hex
        (hash (cacheScopePreimage identity r.isolation.identity r.material.groupKey)).1⟩ := by
  unfold cacheKeyCallback at h
  split at h
  · rename_i scope origin hdecision
    unfold cacheAccessDecision at hdecision
    by_cases hstrict : (r.context hash).strictIsolation = true
    · rw [if_pos hstrict] at hdecision
      cases hdecision
    rw [if_neg hstrict] at hdecision
    replace hstrict : r.isolation.strict = false := Bool.eq_false_iff.2 hstrict
    split at hdecision
    · cases hdecision
    · rename_i scope' hscope
      have hscope : r.identity.map (fun identity => TenantIsolationHasher.cacheScope hash identity
          r.isolation.identity r.material.groupKey) = some scope' := by
        simpa [FilteredRequest.context, requestContext, hstrict] using hscope
      obtain ⟨identity, hidentity, rfl⟩ := Option.map_eq_some_iff.1 hscope
      split at hdecision
      · cases hdecision
      · rename_i origin' path hparts
        split_ifs at hdecision with hallows
        cases hdecision
        refine ⟨identity, origin, path, hidentity, hstrict, hparts, by simpa using hallows, ?_⟩
        rw [scopedCacheKey, hparts] at h
        cases h
        rfl
  · cases h

/-- A path that stands behind the origin begins with a mark that no allowed origin has. -/
theorem exists_startsPath {uri : Uri} (h : PathForm uri) :
    ∃ c rest, uri.pathAndQuery.getD "/".toList = c :: rest ∧ startsPath c := by
  cases hpath : uri.pathAndQuery with
  | none => exact ⟨'/', [], rfl, .inr (.inl rfl)⟩
  | some path =>
    rcases h path hpath with rfl | ⟨rest, rfl | rfl⟩
    · exact ⟨'*', [], rfl, .inl rfl⟩
    · exact ⟨'/', rest, rfl, .inr (.inl rfl)⟩
    · exact ⟨'?', rest, rfl, .inr (.inr rfl)⟩

/-- For a request to an http origin the dialled address is the one of the origin. -/
theorem upstreamPeer_of_http {request : RequestHeader} {tail path : Str}
    (h : canonicalCacheKeyParts parseAuthority request = .ok ("http://".toList ++ tail, path)) :
    ∃ host port, upstreamPeer parseAuthority request = some (host, port) ∧
      tail = formatHostPort (normalizedHost host) port := by
  obtain ⟨text, authority, scheme, htext, hauthority, hscheme, horigin, -⟩ := canonicalCacheKeyParts_eq_ok h
  rcases hscheme with rfl | rfl
  · refine ⟨authority.host, authority.portU16.getD 80, ?_, List.append_cancel_left horigin⟩
    rw [upstreamPeer, htext]
    simp [hauthority, Except.toOption]
  · exact absurd horigin (by simp [formatCanonicalOrigin])

/-- The two requests are of one scope, in session mode, and for one target. -/
structure OneScope (parseAuthority : ParseAuthority) (r r' : FilteredRequest) : Prop where
  tenant : ∃ identity identity', r.identity = some identity ∧ r'.identity = some identity' ∧
    identity.accountId = identity'.accountId ∧ identity.workspaceId = identity'.workspaceId
  isolation : r.isolation.identity = r'.isolation.identity
  groupKey : r.material.groupKey = r'.material.groupKey
  target : ∃ origin path, canonicalCacheKeyParts parseAuthority r.header = .ok (origin, path) ∧
    canonicalCacheKeyParts parseAuthority r'.header = .ok (origin, path)
  session : r.isolation.strict = false ∧ r'.isolation.strict = false
  upstream : ∃ host host' port, upstreamPeer parseAuthority r.header = some (host, port) ∧
    upstreamPeer parseAuthority r'.header = some (host', port) ∧ normalizedHost host = normalizedHost host'

section Shared

variable {origins ttl : Option Str} {production : Bool} {r r' : FilteredRequest} {key key' : CacheKey}

/-- The digest in the user tag is that of one scope. -/
theorem scope_of_userTag {identity identity' : IngressIdentity} (hidentity : r.identity = some identity)
    (hidentity' : r'.identity = some identity') (hhash : CollisionFreeOn hash (r.scopeStream ++ r'.scopeStream))
    (htag : Encoding.hex (hash (cacheScopePreimage identity r.isolation.identity r.material.groupKey)).1 =
      Encoding.hex (hash (cacheScopePreimage identity' r'.isolation.identity r'.material.groupKey)).1) :
    identity.accountId = identity'.accountId ∧ identity.workspaceId = identity'.workspaceId ∧
      r.isolation.identity = r'.isolation.identity ∧ r.material.groupKey = r'.material.groupKey :=
  cacheScopePreimage_inj (hhash _ (List.mem_append_left _ (by simp [FilteredRequest.scopeStream, hidentity]))
    _ (List.mem_append_right _ (by simp [FilteredRequest.scopeStream, hidentity']))
    (Subtype.ext (Encoding.hex_injective htag)))

/-- Two keys of one scope and one target are of requests that have both in common. -/
theorem oneScope_of_target (hpolicy : CachePolicy.parse parseAuthority origins ttl production = .ok policy)
    (hhash : CollisionFreeOn hash (r.scopeStream ++ r'.scopeStream))
    (h : cacheKeyCallback parseAuthority requestCacheControl r.header (r.context hash) policy = .ok key)
    (h' : cacheKeyCallback parseAuthority requestCacheControl r'.header (r'.context hash) policy = .ok key')
    (htag : key.userTag = key'.userTag)
    (htarget : canonicalCacheKeyParts parseAuthority r.header = canonicalCacheKeyParts parseAuthority r'.header) :
    OneScope parseAuthority r r' := by
  obtain ⟨identity, origin, path, hidentity, hstrict, hparts, hallows, rfl⟩ := cacheKeyCallback_eq_ok h
  obtain ⟨identity', _, _, hidentity', hstrict', -, -, rfl⟩ := cacheKeyCallback_eq_ok h'
  obtain ⟨haccount, hworkspace, hisolation, hgroup⟩ := scope_of_userTag hidentity hidentity' hhash htag
  have hparts' := htarget.symm.trans hparts
  obtain ⟨text, htext⟩ := exists_configured hpolicy hallows
  obtain ⟨-, -, authority, -, -, -, -, rfl⟩ := canonicalConfiguredHttpOrigin_spec htext
  obtain ⟨host, port, hpeer, hform⟩ := upstreamPeer_of_http hparts
  obtain ⟨host', port', hpeer', hform'⟩ := upstreamPeer_of_http hparts'
  obtain ⟨hhosts, rfl⟩ := formatHostPort_inj (hform.symm.trans hform')
  exact ⟨⟨identity, identity', hidentity, hidentity', haccount, hworkspace⟩, hisolation, hgroup,
    ⟨_, path, hparts, hparts'⟩, ⟨hstrict, hstrict'⟩, host, host', port, hpeer, hpeer', hhosts⟩

end Shared

/-- Requests that share a cache object are of one scope, and their upstream is the same. -/
theorem shared_cache_key_is_one_scope (parseAuthority : ParseAuthority)
    (requestCacheControl : RequestHeader → Option CacheControl) (hash : KeyedHash) (policy : CachePolicy)
    {origins ttl : Option Str} {production : Bool} (hhost : HostWithin parseAuthority)
    (hpolicy : CachePolicy.parse parseAuthority origins ttl production = .ok policy) (r r' : FilteredRequest)
    (hpath : PathForm r.header.uri) (hpath' : PathForm r'.header.uri)
    (hhash : CollisionFreeOn hash (r.scopeStream ++ r'.scopeStream)) {key key' : CacheKey}
    (h : cacheKeyCallback parseAuthority requestCacheControl r.header (r.context hash) policy = .ok key)
    (h' : cacheKeyCallback parseAuthority requestCacheControl r'.header (r'.context hash) policy = .ok key')
    (hprimary : key.cacheNamespace ++ key.primary = key'.cacheNamespace ++ key'.primary)
    (htag : key.userTag = key'.userTag) : OneScope parseAuthority r r' := by
  refine oneScope_of_target hpolicy hhash h h' htag ?_
  obtain ⟨_, origin, path, -, -, hparts, hallows, rfl⟩ := cacheKeyCallback_eq_ok h
  obtain ⟨_, origin', path', -, -, hparts', hallows', rfl⟩ := cacheKeyCallback_eq_ok h'
  -- the version and the scheme cancel, and the first mark ends the authority
  obtain ⟨_, htext⟩ := exists_configured hpolicy hallows
  obtain ⟨_, htext'⟩ := exists_configured hpolicy hallows'
  obtain ⟨tail, rfl, htail⟩ := canonicalConfiguredHttpOrigin_form hhost htext
  obtain ⟨tail', rfl, htail'⟩ := canonicalConfiguredHttpOrigin_form hhost htext'
  obtain ⟨_, _, _, _, _, _, _, hp⟩ := canonicalCacheKeyParts_eq_ok hparts
  obtain ⟨_, _, _, _, _, _, _, hp'⟩ := canonicalCacheKeyParts_eq_ok hparts'
  obtain ⟨c, rest, hc, hmark⟩ := exists_startsPath hpath
  obtain ⟨c', rest', hc', hmark'⟩ := exists_startsPath hpath'
  rw [← hp] at hc
  rw [← hp'] at hc'
  simp only [List.append_assoc, hc, hc'] at hprimary
  obtain ⟨rfl, hrest⟩ := Encoding.cut_inj htail htail' hmark hmark'
    (List.append_cancel_left (List.append_cancel_left hprimary))
  have hpaths : path = path' := hc.trans (hrest.trans hc'.symm)
  rw [hparts, hparts', hpaths]

/-! A tenant asks for one page twice, the second time with the port written out. -/

def pageAuthority : ParseAuthority := fun text =>
  if text = "Example.com".toList then .ok ⟨"Example.com".toList, none⟩
  else if text = "example.com:80".toList then .ok ⟨"example.com".toList, some 80⟩
  else .error "invalid authority"

def pageRequest (host : String) : FilteredRequest where
  header := ⟨"GET".toList, ⟨none, none, some "/index?q=1".toList⟩, [("host".toList, utf8 host.toList)]⟩
  identity := some tenantIdentity
  isolation := ⟨"tenant".toList, false⟩
  material := ⟨1, 1⟩

def pagePolicy : CachePolicy := ⟨["http://example.com:80".toList], 60, 300⟩

def pageKey : CacheKey where
  cacheNamespace := CACHE_KEY_NAMESPACE_VERSION ++ "http://example.com:80".toList
  primary := "/index?q=1".toList
  userTag := TenantIsolationHasher.cacheScope fieldHash tenantIdentity "tenant".toList 1

theorem hostWithin_pageAuthority : HostWithin pageAuthority := by
  intro text authority h
  unfold pageAuthority at h
  split_ifs at h with hplain hport
  · cases h
    rw [hplain]
    exact fun c hc => hc
  · cases h
    have hsplit : "example.com:80".toList = "example.com".toList ++ ":80".toList := by decide +kernel
    rw [hport, hsplit]
    exact fun c hc => List.mem_append_left _ hc

theorem shared_cache_key_is_one_scope_page :
    ∃ host host' port, upstreamPeer pageAuthority (pageRequest "Example.com").header = some (host, port) ∧
      upstreamPeer pageAuthority (pageRequest "example.com:80").header = some (host', port) ∧
      normalizedHost host = normalizedHost host' := by
  have hpolicy : CachePolicy.parse pageAuthority (some "http://Example.com".toList) none true = .ok pagePolicy :=
    Fallible.toOption_eq_some.1 (by decide +kernel)
  have hkey : ∀ host ∈ ["Example.com", "example.com:80"], cacheKeyCallback pageAuthority (fun _ => none)
      (pageRequest host).header ((pageRequest host).context fieldHash) pagePolicy = .ok pageKey := by
    intro host hhost
    exact Fallible.toOption_eq_some.1 (by revert host; decide +kernel)
  have hpath : ∀ host, PathForm (pageRequest host).header.uri := by
    intro host path heq
    cases heq
    exact .inr ⟨_, .inl rfl⟩
  refine (shared_cache_key_is_one_scope pageAuthority (fun _ => none) fieldHash pagePolicy
    hostWithin_pageAuthority hpolicy (pageRequest "Example.com") (pageRequest "example.com:80") (hpath _)
    (hpath _) ?_ (hkey _ (by simp)) (hkey _ (by simp)) rfl rfl).upstream
  rintro x hx y hy -
  simp only [FilteredRequest.scopeStream, pageRequest, Option.toList_some, List.map_cons, List.map_nil,
    List.cons_append, List.nil_append, List.mem_cons, List.not_mem_nil, or_false, or_self] at hx hy
  rw [hx, hy]

/-! ### The contexts of `request_filter` -/

/-- What `request_filter` resolves the isolation of an authenticated request from. -/
structure Resolution where
  identity : IngressIdentity
  origin : Str
  request : IsolationRequest
  idCounter : ℕ

/-- The stream that is hashed for it. -/
def Resolution.stream (d : Resolution) : Bytes :=
  isolationPreimage d.identity d.origin d.request.identity (if d.request.strict then some d.idCounter else none)

/-- The request has the isolation that was resolved, for its own origin. -/
structure Resolution.Of (parseAuthority : ParseAuthority) (hash : KeyedHash) (d : Resolution) (r : FilteredRequest) :
    Prop where
  identity : r.identity = some d.identity
  origin : ∃ path, canonicalCacheKeyParts parseAuthority r.header = .ok (d.origin, path)
  isolation : r.isolation = (TenantIsolationHasher.resolve hash d.identity d.origin d.request d.idCounter).1

/-- What a filtered request has: the isolation was resolved for the origin of the request without the headers that
were taken from it. -/
def Resolved (lib : Libraries) (header : RequestHeader) :
    Except HandlerError (Option (ResolvedIsolation × Option (AccountRequestScope × Str))) → Prop
  | .ok (some (isolation, authenticated)) => ∃ (d : Resolution) (asked : IsolationRequest) (rest : RequestHeader) (path : Str),
    takeIsolationRequest header = .ok (asked, rest) ∧ authenticated.map (·.1.identity) = some d.identity ∧
      canonicalCacheKeyParts lib.parseAuthority rest = .ok (d.origin, path) ∧
      isolation = (TenantIsolationHasher.resolve lib.hash d.identity d.origin d.request d.idCounter).1
  | _ => True

section Filter

variable {lib : Libraries}

theorem filterIsolation_resolves (clientAddr : Option SocketAddr) (header : RequestHeader) :
    wp (fun _ _ => True) [] (filterIsolation lib .authenticatedTls clientAddr header) fun _ => Resolved lib header := by
  cases clientAddr with
  | none =>
    refine ⟨trivial, fun answer => ?_⟩
    cases answer <;> trivial
  | some address =>
    refine ⟨trivial, fun answer => ?_⟩
    cases answer with
    | none =>
      refine ⟨trivial, fun answer => ?_⟩
      cases answer <;> trivial
    | some context =>
      change wp _ _ (require _ >>= _) _
      rw [wp_bind]
      cases htake : takeIsolationRequest header with
      | error message => trivial
      | ok taken =>
        obtain ⟨asked, rest⟩ := taken
        change wp _ _ (require _ >>= _) _
        rw [wp_bind]
        cases hparts : canonicalCacheKeyParts lib.parseAuthority rest with
        | error message => trivial
        | ok parts =>
          obtain ⟨origin, path⟩ := parts
          refine ⟨trivial, fun answer => ?_⟩
          cases answer with
          | error message => trivial
          | ok lease =>
            refine ⟨trivial, fun idCounter => ?_⟩
            exact ⟨⟨context.scope.identity, origin, context.isolation, idCounter⟩, asked, rest, path, htake, rfl, hparts,
              rfl⟩

/-- A context that `request_filter` builds in authenticated mode is that of the request without the headers of the
isolation, as it was resolved. -/
theorem requestFilter_resolves (clientAddr : Option SocketAddr) (header : RequestHeader) :
    wp (fun _ _ => True) [] (requestFilter lib .authenticatedTls clientAddr header) fun _ result =>
      ∀ ctx, result = .ok (some ctx) → ∃ d r asked, Resolution.Of lib.parseAuthority lib.hash d r ∧
        takeIsolationRequest header = .ok (asked, r.header) ∧ ctx.toRequestCtx = r.context lib.hash := by
  rw [requestFilter, wp_bind]
  refine wp_mono (fun h result hresolved => ?_) (filterIsolation_resolves clientAddr header)
  match result with
  | .error error => exact fun _ hresult => by cases hresult
  | .ok none => exact fun _ hresult => by cases hresult
  | .ok (some (isolation, authenticated)) =>
    obtain ⟨d, asked, rest, path, htake, hidentity, hparts, hisolation⟩ := hresolved
    refine ⟨trivial, fun material ctx hresult => ?_⟩
    cases hresult
    exact ⟨d, ⟨rest, authenticated.map (·.1.identity), isolation, material⟩, asked,
      ⟨hidentity, ⟨path, hparts⟩, hisolation⟩, htake, rfl⟩

end Filter

/-- Over the contexts of `request_filter` a cache object is that of one scope and one target, whatever a path begins
with: the isolation in the tag was resolved for the origin, and what the keys have behind one origin is the path. -/
theorem resolved_cache_key_is_one_scope (parseAuthority : ParseAuthority)
    (requestCacheControl : RequestHeader → Option CacheControl) (hash : KeyedHash) (policy : CachePolicy)
    {origins ttl : Option Str} {production : Bool}
    (hpolicy : CachePolicy.parse parseAuthority origins ttl production = .ok policy) {r r' : FilteredRequest}
    {d d' : Resolution} (hd : d.Of parseAuthority hash r) (hd' : d'.Of parseAuthority hash r')
    (hhash : CollisionFreeOn hash (r.scopeStream ++ r'.scopeStream)) (hstream : CollisionFreeOn hash [d.stream, d'.stream])
    {key key' : CacheKey}
    (h : cacheKeyCallback parseAuthority requestCacheControl r.header (r.context hash) policy = .ok key)
    (h' : cacheKeyCallback parseAuthority requestCacheControl r'.header (r'.context hash) policy = .ok key')
    (hprimary : key.cacheNamespace ++ key.primary = key'.cacheNamespace ++ key'.primary)
    (htag : key.userTag = key'.userTag) : OneScope parseAuthority r r' := by
  refine oneScope_of_target hpolicy hhash h h' htag ?_
  obtain ⟨identity, origin, path, hidentity, -, hparts, -, rfl⟩ := cacheKeyCallback_eq_ok h
  obtain ⟨identity', origin', path', hidentity', -, hparts', -, rfl⟩ := cacheKeyCallback_eq_ok h'
  obtain ⟨-, -, hisolation, -⟩ := scope_of_userTag hidentity hidentity' hhash htag
  rw [hd.isolation, hd'.isolation] at hisolation
  have hstreams := hstream d.stream (by simp) d'.stream (by simp) (Subtype.ext (Encoding.hex_injective hisolation))
  obtain ⟨-, -, horigin, -⟩ := isolationPreimage_inj hstreams
  obtain ⟨_, hown⟩ := hd.origin
  obtain ⟨_, hown'⟩ := hd'.origin
  cases hparts.symm.trans hown
  cases hparts'.symm.trans hown'
  have hpaths : path = path' := by
    rw [horigin] at hprimary
    exact List.append_cancel_left hprimary
  rw [hparts, hparts', horigin, hpaths]

end Cobra
