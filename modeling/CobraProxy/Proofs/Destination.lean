import CobraProxy.Lib.Encoding
import CobraProxy.Lib.Fallible
import CobraProxy.Spec.Destination

/-! Canonical destinations can be read back: a `host:port` text determines its host and port. -/

namespace Cobra

open Text

theorem colon_notMem_digits (n : ℕ) : ∀ c ∈ Nat.toDigits 10 n, ¬ c = ':' := by
  rintro c hc rfl
  exact absurd (Nat.isDigit_of_mem_toDigits (by decide) (by decide) hc) (by decide)

theorem toDigits_inj {m n : ℕ} (h : Nat.toDigits 10 m = Nat.toDigits 10 n) : m = n := by
  rw [← Nat.ofDigitChars_ten_toDigits (n := m), h, Nat.ofDigitChars_ten_toDigits]

/-- The port stands behind the last colon, and a host with a colon is in brackets. -/
theorem formatHostPort_inj {host host' : Str} {port port' : UInt16}
    (h : formatHostPort host port = formatHostPort host' port') : host = host' ∧ port = port' := by
  have hrev := congrArg List.reverse h
  simp only [formatHostPort, List.reverse_append, List.reverse_cons, List.append_assoc,
    List.singleton_append] at hrev
  obtain ⟨hdigits, hhost⟩ := Encoding.cut_inj
    (fun c hc => colon_notMem_digits _ c (List.mem_reverse.1 hc))
    (fun c hc => colon_notMem_digits _ c (List.mem_reverse.1 hc)) rfl rfl hrev
  refine ⟨?_, UInt16.toNat_inj.1 (toDigits_inj (List.reverse_injective hdigits))⟩
  have hhost := List.reverse_injective (List.cons.inj hhost).2
  split_ifs at hhost with hc hc' hc'
  · exact List.append_cancel_right (List.cons.inj hhost).2
  · exact absurd (hhost ▸ by simp [hc]) hc'
  · exact absurd (hhost ▸ by simp [hc']) hc
  · exact hhost

/-- The scheme of the request's URI, http where it has none. -/
def requestScheme (request : RequestHeader) : Str := toAsciiLowercase (request.uri.scheme.getD "http".toList)

/-- What a successful `canonical_cache_key_parts` has read from the request, and checked. -/
theorem canonicalCacheKeyParts_spec {parseAuthority : ParseAuthority} {request : RequestHeader}
    {origin path : Str} (h : canonicalCacheKeyParts parseAuthority request = .ok (origin, path)) :
    ∃ text authority, (request.get "host").bind RequestHeader.toStr = some text ∧
      parseAuthority text = .ok authority ∧
      (requestScheme request = "http".toList ∨ requestScheme request = "https".toList) ∧
      (normalizedAuthority authority (requestScheme request)).2 ≠ 0 ∧
      origin = formatCanonicalOrigin (requestScheme request)
        (normalizedAuthority authority (requestScheme request)).1
        (normalizedAuthority authority (requestScheme request)).2 ∧
      path = request.uri.pathAndQuery.getD "/".toList ∧
      ∀ uriAuthority, request.uri.authority = some uriAuthority →
        normalizedAuthority uriAuthority (requestScheme request) =
          normalizedAuthority authority (requestScheme request) := by
  unfold canonicalCacheKeyParts at h
  split at h
  · rename_i text htext
    simp only [Fallible.throw_eq_error, Fallible.error_bind, Fallible.bind_eq_ok, Fallible.mapError_eq_ok,
      Fallible.ite_error_eq_ok, Fallible.pure_eq_ok, Except.ok.injEq, Prod.mk.injEq] at h
    obtain ⟨authority, hauthority, hscheme, hvalid, hagrees, rfl, rfl⟩ := h
    refine ⟨text, authority, htext, hauthority, ?_, fun hport => hvalid (.inr hport), rfl, rfl, ?_⟩
    · by_contra hnot
      exact hscheme (not_or.1 hnot)
    · intro uriAuthority huri
      rw [huri] at hagrees
      simpa [requestScheme] using hagrees
  · cases h

theorem canonicalCacheKeyParts_eq_ok {parseAuthority : ParseAuthority} {request : RequestHeader}
    {origin path : Str} (h : canonicalCacheKeyParts parseAuthority request = .ok (origin, path)) :
    ∃ text authority scheme, (request.get "host").bind RequestHeader.toStr = some text ∧
      parseAuthority text = .ok authority ∧ (scheme = "http".toList ∨ scheme = "https".toList) ∧
      origin = formatCanonicalOrigin scheme (normalizedAuthority authority scheme).1
        (normalizedAuthority authority scheme).2 ∧
      path = request.uri.pathAndQuery.getD "/".toList := by
  obtain ⟨text, authority, htext, hauthority, hscheme, -, horigin, hpath, -⟩ := canonicalCacheKeyParts_spec h
  exact ⟨text, authority, _, htext, hauthority, hscheme, horigin, hpath⟩

/-! ### The destination that is dialled -/

section Dialled

variable (parseAuthority : ParseAuthority) (request : RequestHeader)

/-- The canonical origin names the destination that is dialled: without its scheme it is the canonical key
of the peer's address. -/
def NamesDialled (origin : Str) : Prop :=
  ∃ target key, upstreamTarget parseAuthority request = some target ∧
    canonicalConnectDestinationKey parseAuthority target = .ok key ∧
    origin = requestScheme request ++ "://".toList ++ key

/-- The Host header has a port of its own. -/
def StatesPort : Prop :=
  ∃ text authority port, (request.get "host").bind RequestHeader.toStr = some text ∧
    parseAuthority text = .ok authority ∧ authority.portU16 = some port

/-- The address of the peer is an authority with the host and the port that it was written from. -/
def TargetReadsBack : Prop :=
  ∀ host port, upstreamPeer parseAuthority request = some (host, port) →
    parseAuthority (host ++ ':' :: Nat.toDigits 10 port.toNat) = .ok ⟨host, some port⟩

end Dialled

variable {parseAuthority : ParseAuthority} {request : RequestHeader} {origin path : Str}

theorem canonicalConnectDestinationKey_of_parse {text host : Str} {port : UInt16}
    (h : parseAuthority text = .ok ⟨host, some port⟩) (hport : port ≠ 0) :
    canonicalConnectDestinationKey parseAuthority text = .ok (formatHostPort (normalizedHost host) port) := by
  have hfilter : (some port).filter (· ≠ 0) = some port := by simp [hport]
  unfold canonicalConnectDestinationKey
  rw [h]
  simp only [Except.mapError, Fallible.ok_bind, hfilter]
  rfl

/-- The canonical origin of a header names the destination that is dialled for it exactly when the Host
header states the port or the scheme is http: with an https scheme and no port it would be dialled at port 80
and named with port 443. -/
theorem canonical_origin_is_dialled_iff (h : canonicalCacheKeyParts parseAuthority request = .ok (origin, path))
    (hreads : TargetReadsBack parseAuthority request) :
    NamesDialled parseAuthority request origin ↔
      StatesPort parseAuthority request ∨ requestScheme request = "http".toList := by
  obtain ⟨text, authority, htext, hauthority, hscheme, hport, rfl, -⟩ := canonicalCacheKeyParts_spec h
  have hpeer : upstreamPeer parseAuthority request = some (authority.host, authority.portU16.getD 80) := by
    simp [upstreamPeer, htext, hauthority, Except.toOption]
  have hdialled : authority.portU16.getD 80 ≠ 0 := by
    cases hp : authority.portU16 with
    | none => simp
    | some port => simpa [normalizedAuthority, hp] using hport
  have hkey := canonicalConnectDestinationKey_of_parse (hreads _ _ hpeer) hdialled
  have htarget : upstreamTarget parseAuthority request =
      some (authority.host ++ ':' :: Nat.toDigits 10 (authority.portU16.getD 80).toNat) := by
    simp [upstreamTarget, hpeer]
  have hnames : NamesDialled parseAuthority request (formatCanonicalOrigin (requestScheme request)
      (normalizedAuthority authority (requestScheme request)).1
      (normalizedAuthority authority (requestScheme request)).2) ↔
      (normalizedAuthority authority (requestScheme request)).2 = authority.portU16.getD 80 := by
    constructor
    · rintro ⟨target, key, ht, hk, horigin⟩
      cases htarget.symm.trans ht
      cases hkey.symm.trans hk
      exact (formatHostPort_inj (List.append_cancel_left horigin)).2
    · intro heq
      exact ⟨_, _, htarget, hkey, by rw [heq]; rfl⟩
  rw [hnames]
  cases hp : authority.portU16 with
  | some port =>
    refine iff_of_true ?_ (.inl ⟨text, authority, port, htext, hauthority, hp⟩)
    rw [normalizedAuthority, hp]
    rfl
  | none =>
    have hnot : ¬ StatesPort parseAuthority request := by
      rintro ⟨text', authority', port, htext', hauthority', hport'⟩
      cases htext.symm.trans htext'
      cases hauthority.symm.trans hauthority'
      rw [hp] at hport'
      cases hport'
    rw [or_iff_right hnot]
    rcases hscheme with hs | hs
    · refine iff_of_true ?_ hs
      rw [normalizedAuthority, hp, hs]
      rfl
    · refine iff_of_false ?_ (by rw [hs]; decide)
      rw [normalizedAuthority, hp, hs]
      dsimp only
      decide

/-- Pingora's reader of HTTP/1 requests: the header that it makes of what a client sends. -/
abbrev ReadRequest := Bytes → Option RequestHeader

/-- The reader takes the whole target of the request line for a path and query, whatever its form is: the URI
of a header that it yields has neither a scheme nor an authority. -/
def ReadsTargetAsPath (readRequest : ReadRequest) : Prop :=
  ∀ bytes request, readRequest bytes = some request → request.uri.scheme = none ∧ request.uri.authority = none

/-- A request as the proxy has it: what the reader yielded, maybe with other header fields. -/
def Received (readRequest : ReadRequest) (request : RequestHeader) : Prop :=
  ∃ bytes read, readRequest bytes = some read ∧ request.uri = read.uri

/-- The canonical origin of every request that the proxy has names the destination that is dialled for it. -/
theorem canonical_origin_is_dialled {readRequest : ReadRequest} (hreader : ReadsTargetAsPath readRequest)
    (hreceived : Received readRequest request) (hreads : TargetReadsBack parseAuthority request)
    (h : canonicalCacheKeyParts parseAuthority request = .ok (origin, path)) :
    NamesDialled parseAuthority request origin := by
  obtain ⟨bytes, read, hread, huri⟩ := hreceived
  have hscheme : requestScheme request = "http".toList := by
    rw [requestScheme, huri, (hreader bytes read hread).1]
    decide
  exact (canonical_origin_is_dialled_iff h hreads).2 (.inr hscheme)

/-! A parser for the texts of the examples below, and a reader. -/

def siteAuthority : ParseAuthority := fun text =>
  if text = "example.com".toList then .ok ⟨"example.com".toList, none⟩
  else if text = "example.com:80".toList then .ok ⟨"example.com".toList, some 80⟩
  else .error "invalid authority"

/-- `GET` of `http://example.com/` or `https://example.com/`, as the reader yields it. -/
def siteRequest (scheme : String) : RequestHeader where
  method := "GET".toList
  uri := ⟨none, none, some (scheme.toList ++ "://example.com/".toList)⟩
  headers := [("host".toList, utf8 "example.com".toList)]

/-- What the client sends for it. -/
def siteBytes (scheme : String) : Bytes :=
  utf8 ("GET ".toList ++ scheme.toList ++ "://example.com/ HTTP/1.1\r\nHost: example.com\r\n\r\n".toList)

def readSite : ReadRequest := fun bytes =>
  if bytes = siteBytes "http" then some (siteRequest "http")
  else if bytes = siteBytes "https" then some (siteRequest "https")
  else none

theorem readSite_reads_target : ReadsTargetAsPath readSite := by
  intro bytes request h
  unfold readSite at h
  split_ifs at h <;> cases h <;> exact ⟨rfl, rfl⟩

theorem siteRequest_reads_back (scheme : String) : TargetReadsBack siteAuthority (siteRequest scheme) := by
  intro host port hpeer
  have heq : upstreamPeer siteAuthority (siteRequest scheme) = some ("example.com".toList, 80) := by
    rfl
  cases heq.symm.trans hpeer
  rfl

/-- An https target in absolute form, without a port. -/
theorem canonical_origin_is_dialled_site : readSite (siteBytes "https") = some (siteRequest "https") ∧
    NamesDialled siteAuthority (siteRequest "https") "http://example.com:80".toList := by
  have hread : readSite (siteBytes "https") = some (siteRequest "https") := by
    rw [readSite, if_neg (by decide +kernel), if_pos rfl]
  refine ⟨hread, @canonical_origin_is_dialled siteAuthority (siteRequest "https") _
    "https://example.com/".toList readSite readSite_reads_target ⟨_, _, hread, rfl⟩ (siteRequest_reads_back _) ?_⟩
  exact Fallible.toOption_eq_some.1 (by decide +kernel)

end Cobra
