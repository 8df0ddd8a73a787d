import CobraProxy.Lib.Fallible
import CobraProxy.Spec.Ingress

/-! The headers that only listeners read: one pass over a raw head and the lookups in a header map find the same. -/

namespace Cobra

open Text Fallible

/-! ### The pass over a head -/

/-- A name is spelled like one of two different names at most. -/
theorem names_differ {name other other' : Str} (h : eqIgnoreAsciiCase name other = true)
    (h' : eqIgnoreAsciiCase name other' = true) (hne : toAsciiLowercase other ≠ toAsciiLowercase other') : False :=
  hne ((beq_iff_eq.1 h).symm.trans (beq_iff_eq.1 h'))

/-- What a step of the loop over the headers can do: fill one of the four variables, which was empty, or nothing. -/
theorem ingressHeader_cases {s t : IngressHeaderLoop} {header : Str × Bytes} (h : ingressHeader s header = .ok t) :
    (eqIgnoreAsciiCase header.1 ISOLATION_HEADER = true ∧ s.identity = none ∧
      ∃ identity, validateIsolationIdentity header.2 = .ok identity ∧ t = { s with identity := some identity }) ∨
    (eqIgnoreAsciiCase header.1 ISOLATION_MODE_HEADER = true ∧ s.modeSeen = false ∧
      ∃ strict, parseIsolationMode header.2 = .ok strict ∧ t = { s with strict, modeSeen := true }) ∨
    (eqIgnoreAsciiCase header.1 PROXY_AUTHORIZATION_HEADER = true ∧ s.proxyAuthorization = none ∧
      ∃ value, fromUtf8 header.2 = some value ∧ t = { s with proxyAuthorization := some value }) ∨
    (eqIgnoreAsciiCase header.1 INTERNAL_IDENTITY_HEADER = true ∧ s.internalIdentity = none ∧
      ∃ identity, validateIsolationIdentity header.2 = .ok identity ∧ t = { s with internalIdentity := some identity }) ∨
    (isIngressHeader header.1 = false ∧ t = s) := by
  unfold ingressHeader at h
  split at h
  · rename_i hname
    simp only [throw_eq_error, error_bind, bind_eq_ok, ite_error_eq_ok, pure_eq_ok, Except.ok.injEq] at h
    obtain ⟨hnone, identity, hidentity, rfl⟩ := h
    exact .inl ⟨hname, by simpa using hnone, identity, hidentity, rfl⟩
  split at h
  · rename_i hname
    simp only [throw_eq_error, error_bind, bind_eq_ok, ite_error_eq_ok, pure_eq_ok, Except.ok.injEq] at h
    obtain ⟨hnone, strict, hstrict, rfl⟩ := h
    exact .inr (.inl ⟨hname, by simpa using hnone, strict, hstrict, rfl⟩)
  split at h
  · rename_i hname
    simp only [throw_eq_error, error_bind, ite_error_eq_ok] at h
    obtain ⟨hnone, h⟩ := h
    split at h
    · rename_i value hvalue
      cases h
      exact .inr (.inr (.inl ⟨hname, by simpa using hnone, value, hvalue, rfl⟩))
    · cases h
  split at h
  · rename_i hname
    simp only [throw_eq_error, error_bind, bind_eq_ok, ite_error_eq_ok, pure_eq_ok, Except.ok.injEq] at h
    obtain ⟨hnone, identity, hidentity, rfl⟩ := h
    exact .inr (.inr (.inr (.inl ⟨hname, by simpa using hnone, identity, hidentity, rfl⟩)))
  · rename_i hidentity hmode hauthorization hinternal
    cases h
    refine .inr (.inr (.inr (.inr ⟨?_, rfl⟩)))
    rw [isIngressHeader]
    simp [hidentity, hmode, hauthorization, hinternal]

/-- A step fills a variable from a header of the name when it is empty, and leaves it alone at any other header. -/
structure FillsOnce {α : Type} (name : Str) (parse : Bytes → Except String α) (slot : IngressHeaderLoop → Option α) :
    Prop where
  named {s t : IngressHeaderLoop} {header : Str × Bytes} : ingressHeader s header = .ok t →
    eqIgnoreAsciiCase header.1 name = true → slot s = none ∧ ∃ a, parse header.2 = .ok a ∧ slot t = some a
  other {s t : IngressHeaderLoop} {header : Str × Bytes} : ingressHeader s header = .ok t →
    eqIgnoreAsciiCase header.1 name = false → slot t = slot s

/-- The values of the headers with a name, in any case, in their order. -/
def valuesOf (headers : List (Str × Bytes)) (name : Str) : List Bytes :=
  (headers.filter fun header => eqIgnoreAsciiCase header.1 name).map Prod.snd

section Pass

variable {α : Type} {name : Str} {parse : Bytes → Except String α} {slot : IngressHeaderLoop → Option α}
  {headers : List (Str × Bytes)} {s t : IngressHeaderLoop}

/-- After the whole pass: the variable as it was, or what the only header of the name says. -/
theorem FillsOnce.fold (h : FillsOnce name parse slot) (hfold : headers.foldlM ingressHeader s = .ok t) :
    (valuesOf headers name = [] ∧ slot t = slot s) ∨
      ∃ value a, valuesOf headers name = [value] ∧ slot s = none ∧ parse value = .ok a ∧ slot t = some a := by
  induction headers generalizing s with
  | nil =>
    cases hfold
    exact .inl ⟨rfl, rfl⟩
  | cons header headers ih =>
    simp only [List.foldlM_cons, bind_eq_ok] at hfold
    obtain ⟨s', hstep, hfold⟩ := hfold
    cases hname : eqIgnoreAsciiCase header.1 name with
    | true =>
      obtain ⟨hempty, a, hparse, hfilled⟩ := h.named hstep hname
      have hvalues : valuesOf (header :: headers) name = header.2 :: valuesOf headers name := by
        simp [valuesOf, hname]
      rcases ih hfold with ⟨hrest, hslot⟩ | ⟨value, -, -, hempty', -⟩
      · exact .inr ⟨header.2, a, by rw [hvalues, hrest], hempty, hparse, hslot.trans hfilled⟩
      · rw [hfilled] at hempty'
        cases hempty'
    | false =>
      have hvalues : valuesOf (header :: headers) name = valuesOf headers name := by
        simp [valuesOf, hname]
      rw [hvalues, ← h.other hstep hname]
      exact ih hfold

/-- The pass reads a variable as the lookup of its only value does. -/
theorem FillsOnce.single (h : FillsOnce name parse slot) (hfold : headers.foldlM ingressHeader s = .ok t)
    (hempty : slot s = none) (duplicate : String) : singleHeader (valuesOf headers name) parse duplicate = .ok (slot t) := by
  rcases h.fold hfold with ⟨hvalues, hslot⟩ | ⟨value, a, hvalues, -, hparse, hslot⟩
  · rw [hvalues, hslot, hempty]
    rfl
  · rw [hvalues, hslot, singleHeader, hparse]
    rfl

end Pass

theorem fillsOnce_identity : FillsOnce ISOLATION_HEADER validateIsolationIdentity IngressHeaderLoop.identity where
  named hstep hname := by
    rcases ingressHeader_cases hstep with ⟨-, hnone, identity, hparse, rfl⟩ | ⟨hother, -⟩ | ⟨hother, -⟩ | ⟨hother, -⟩ |
      ⟨hother, -⟩
    · exact ⟨hnone, identity, hparse, rfl⟩
    · exact (names_differ hname hother (by decide)).elim
    · exact (names_differ hname hother (by decide)).elim
    · exact (names_differ hname hother (by decide)).elim
    · simp [isIngressHeader, hname] at hother
  other hstep hname := by
    rcases ingressHeader_cases hstep with ⟨hsame, -⟩ | ⟨-, -, -, -, rfl⟩ | ⟨-, -, -, -, rfl⟩ | ⟨-, -, -, -, rfl⟩ | ⟨-, rfl⟩
    · rw [hname] at hsame
      cases hsame
    all_goals rfl

/-- The mode, once it has been seen. -/
def seenMode (s : IngressHeaderLoop) : Option Bool := if s.modeSeen then some s.strict else none

theorem fillsOnce_mode : FillsOnce ISOLATION_MODE_HEADER parseIsolationMode seenMode where
  named hstep hname := by
    rcases ingressHeader_cases hstep with ⟨hother, -⟩ | ⟨-, hnone, strict, hparse, rfl⟩ | ⟨hother, -⟩ | ⟨hother, -⟩ |
      ⟨hother, -⟩
    · exact (names_differ hname hother (by decide)).elim
    · exact ⟨by simp [seenMode, hnone], strict, hparse, rfl⟩
    · exact (names_differ hname hother (by decide)).elim
    · exact (names_differ hname hother (by decide)).elim
    · simp [isIngressHeader, hname] at hother
  other hstep hname := by
    rcases ingressHeader_cases hstep with ⟨-, -, -, -, rfl⟩ | ⟨hsame, -⟩ | ⟨-, -, -, -, rfl⟩ | ⟨-, -, -, -, rfl⟩ | ⟨-, rfl⟩
    · rfl
    · rw [hname] at hsame
      cases hsame
    all_goals rfl

theorem fillsOnce_internalIdentity :
    FillsOnce INTERNAL_IDENTITY_HEADER validateIsolationIdentity IngressHeaderLoop.internalIdentity where
  named hstep hname := by
    rcases ingressHeader_cases hstep with ⟨hother, -⟩ | ⟨hother, -⟩ | ⟨hother, -⟩ | ⟨-, hnone, identity, hparse, rfl⟩ |
      ⟨hother, -⟩
    · exact (names_differ hname hother (by decide)).elim
    · exact (names_differ hname hother (by decide)).elim
    · exact (names_differ hname hother (by decide)).elim
    · exact ⟨hnone, identity, hparse, rfl⟩
    · simp [isIngressHeader, hname] at hother
  other hstep hname := by
    rcases ingressHeader_cases hstep with ⟨-, -, -, -, rfl⟩ | ⟨-, -, -, -, rfl⟩ | ⟨-, -, -, -, rfl⟩ | ⟨hsame, -⟩ | ⟨-, rfl⟩
    · rfl
    · rfl
    · rfl
    · rw [hname] at hsame
      cases hsame
    · rfl

/-- `str::from_utf8` of the credentials, with the error of the loop. -/
def parseProxyAuthorization (value : Bytes) : Except String Str :=
  (fromUtf8 value).elim (.error "proxy authorization is not valid UTF-8") .ok

theorem fillsOnce_proxyAuthorization :
    FillsOnce PROXY_AUTHORIZATION_HEADER parseProxyAuthorization IngressHeaderLoop.proxyAuthorization where
  named hstep hname := by
    rcases ingressHeader_cases hstep with ⟨hother, -⟩ | ⟨hother, -⟩ | ⟨-, hnone, value, hparse, rfl⟩ | ⟨hother, -⟩ |
      ⟨hother, -⟩
    · exact (names_differ hname hother (by decide)).elim
    · exact (names_differ hname hother (by decide)).elim
    · exact ⟨hnone, value, by rw [parseProxyAuthorization, hparse]; rfl, rfl⟩
    · exact (names_differ hname hother (by decide)).elim
    · simp [isIngressHeader, hname] at hother
  other hstep hname := by
    rcases ingressHeader_cases hstep with ⟨-, -, -, -, rfl⟩ | ⟨-, -, -, -, rfl⟩ | ⟨hsame, -⟩ | ⟨-, -, -, -, rfl⟩ | ⟨-, rfl⟩
    · rfl
    · rfl
    · rw [hname] at hsame
      cases hsame
    · rfl
    · rfl

/-- Before a mode is seen, nothing is strict. -/
theorem strict_of_pass {headers : List (Str × Bytes)} {t : IngressHeaderLoop}
    (hfold : headers.foldlM ingressHeader ⟨none, false, false, none, none⟩ = .ok t) :
    t.strict = (seenMode t).getD false := by
  have hunseen : t.modeSeen = false → t.strict = false := by
    refine foldlM_invariant (I := fun s => s.modeSeen = false → s.strict = false) (fun s header s' hs hstep => ?_)
      (fun _ => rfl) hfold
    rcases ingressHeader_cases hstep with ⟨-, -, -, -, rfl⟩ | ⟨-, -, -, -, rfl⟩ | ⟨-, -, -, -, rfl⟩ | ⟨-, -, -, -, rfl⟩ |
      ⟨-, rfl⟩
    · exact hs
    · exact fun h => by cases h
    · exact hs
    · exact hs
    · exact hs
  unfold seenMode
  split_ifs with hseen
  · rfl
  · exact hunseen (by simpa using hseen)

/-! ### What the pass accepts -/

/-- The headers of a name can fill the variable: there are none, or one that is well formed and finds it empty. -/
def Fits {α : Type} (name : Str) (parse : Bytes → Except String α) (slot : IngressHeaderLoop → Option α)
    (headers : List (Str × Bytes)) (s : IngressHeaderLoop) : Prop :=
  valuesOf headers name = [] ∨
    ∃ value a, valuesOf headers name = [value] ∧ parse value = .ok a ∧ slot s = none

section Fits

variable {α : Type} {name : Str} {parse : Bytes → Except String α} {slot : IngressHeaderLoop → Option α}
  {header : Str × Bytes} {headers : List (Str × Bytes)} {s t : IngressHeaderLoop}

theorem Fits.now (h : Fits name parse slot (header :: headers) s) (hname : eqIgnoreAsciiCase header.1 name = true) :
    slot s = none ∧ ∃ a, parse header.2 = .ok a := by
  have hvalues : valuesOf (header :: headers) name = header.2 :: valuesOf headers name := by
    simp [valuesOf, hname]
  rcases h with h | ⟨value, a, h, hparse, hempty⟩
  · rw [hvalues] at h
    cases h
  · rw [hvalues] at h
    obtain ⟨rfl, -⟩ := List.cons.inj h
    exact ⟨hempty, a, hparse⟩

theorem FillsOnce.fits (h : FillsOnce name parse slot) (hfits : Fits name parse slot (header :: headers) s)
    (hstep : ingressHeader s header = .ok t) : Fits name parse slot headers t := by
  cases hname : eqIgnoreAsciiCase header.1 name with
  | true =>
    have hvalues : valuesOf (header :: headers) name = header.2 :: valuesOf headers name := by
      simp [valuesOf, hname]
    rcases hfits with hfits | ⟨value, a, hfits, -, -⟩
    · rw [hvalues] at hfits
      cases hfits
    · rw [hvalues] at hfits
      exact .inl (List.cons.inj hfits).2
  | false =>
    have hvalues : valuesOf (header :: headers) name = valuesOf headers name := by
      simp [valuesOf, hname]
    rw [Fits, hvalues] at hfits
    rwa [Fits, h.other hstep hname]

end Fits

/-- Every variable can be filled. -/
structure AllFit (headers : List (Str × Bytes)) (s : IngressHeaderLoop) : Prop where
  identity : Fits ISOLATION_HEADER validateIsolationIdentity IngressHeaderLoop.identity headers s
  mode : Fits ISOLATION_MODE_HEADER parseIsolationMode seenMode headers s
  proxyAuthorization :
    Fits PROXY_AUTHORIZATION_HEADER parseProxyAuthorization IngressHeaderLoop.proxyAuthorization headers s
  internalIdentity :
    Fits INTERNAL_IDENTITY_HEADER validateIsolationIdentity IngressHeaderLoop.internalIdentity headers s

theorem AllFit.step {header : Str × Bytes} {headers : List (Str × Bytes)} {s : IngressHeaderLoop}
    (h : AllFit (header :: headers) s) : ∃ t, ingressHeader s header = .ok t ∧ AllFit headers t := by
  have hnext : ∀ t, ingressHeader s header = .ok t → AllFit headers t := fun t hstep =>
    ⟨fillsOnce_identity.fits h.identity hstep, fillsOnce_mode.fits h.mode hstep,
      fillsOnce_proxyAuthorization.fits h.proxyAuthorization hstep,
      fillsOnce_internalIdentity.fits h.internalIdentity hstep⟩
  suffices ∃ t, ingressHeader s header = .ok t from this.imp fun t hstep => ⟨hstep, hnext t hstep⟩
  by_cases hidentity : eqIgnoreAsciiCase header.1 ISOLATION_HEADER = true
  · obtain ⟨hempty, identity, hparse⟩ := h.identity.now hidentity
    exact ⟨{ s with identity := some identity }, by simp [ingressHeader, hidentity, hempty, hparse]⟩
  by_cases hmode : eqIgnoreAsciiCase header.1 ISOLATION_MODE_HEADER = true
  · obtain ⟨hempty, strict, hparse⟩ := h.mode.now hmode
    have hunseen : s.modeSeen = false := by
      simpa [seenMode] using hempty
    exact ⟨{ s with strict, modeSeen := true }, by simp [ingressHeader, hidentity, hmode, hunseen, hparse]⟩
  by_cases hauthorization : eqIgnoreAsciiCase header.1 PROXY_AUTHORIZATION_HEADER = true
  · obtain ⟨hempty, value, hparse⟩ := h.proxyAuthorization.now hauthorization
    cases hvalue : fromUtf8 header.2 with
    | none =>
      rw [parseProxyAuthorization, hvalue] at hparse
      cases hparse
    | some value =>
      exact ⟨{ s with proxyAuthorization := some value },
        by simp [ingressHeader, hidentity, hmode, hauthorization, hempty, hvalue]⟩
  by_cases hinternal : eqIgnoreAsciiCase header.1 INTERNAL_IDENTITY_HEADER = true
  · obtain ⟨hempty, identity, hparse⟩ := h.internalIdentity.now hinternal
    exact ⟨{ s with internalIdentity := some identity },
      by simp [ingressHeader, hidentity, hmode, hauthorization, hinternal, hempty, hparse]⟩
  · exact ⟨s, by simp [ingressHeader, hidentity, hmode, hauthorization, hinternal]⟩

theorem AllFit.fold {headers : List (Str × Bytes)} {s : IngressHeaderLoop} (h : AllFit headers s) :
    ∃ t, headers.foldlM ingressHeader s = .ok t := by
  induction headers generalizing s with
  | nil => exact ⟨s, rfl⟩
  | cons header headers ih =>
    obtain ⟨s', hstep, hfit⟩ := h.step
    obtain ⟨t, ht⟩ := ih hfit
    exact ⟨t, by rw [List.foldlM_cons, hstep, ok_bind, ht]⟩

/-! ### The header map -/

/-- The headers as a map holds them: names are kept in lower case. -/
def headerMap (headers : List (Str × Bytes)) : List (Str × Bytes) :=
  headers.map fun header => (toAsciiLowercase header.1, header.2)

theorem getAll_headerMap (request : RequestHeader) (headers : List (Str × Bytes)) (name : Str) :
    ({ request with headers := headerMap headers } : RequestHeader).getAll name = valuesOf headers name := by
  simp only [RequestHeader.getAll, headerMap, valuesOf, List.filter_map, List.map_map]
  rfl

theorem removeHeader_headerMap (request : RequestHeader) (headers : List (Str × Bytes)) (name : Str) :
    ({ request with headers := headerMap headers } : RequestHeader).removeHeader name =
      { request with headers := headerMap (headers.filter fun header => !eqIgnoreAsciiCase header.1 name) } := by
  simp only [RequestHeader.removeHeader, headerMap, List.filter_map]
  rfl

/-- What the request becomes when its ingress headers have been taken. -/
theorem takeIsolationRequest_headerMap (request : RequestHeader) (headers : List (Str × Bytes)) :
    takeIsolationRequest { request with headers := headerMap headers } = do
      let identity ← singleHeader (valuesOf headers ISOLATION_HEADER) validateIsolationIdentity
        "duplicate isolation identity header"
      let strict ← singleHeader (valuesOf headers ISOLATION_MODE_HEADER) parseIsolationMode
        "duplicate isolation mode header"
      return (⟨identity, strict.getD false⟩,
        { request with headers := headerMap (headers.filter fun header => !isIngressHeader header.1) }) := by
  have hfilter : headers.filter (fun header => !isIngressHeader header.1) =
      (((headers.filter fun header => !eqIgnoreAsciiCase header.1 ISOLATION_HEADER).filter
        fun header => !eqIgnoreAsciiCase header.1 ISOLATION_MODE_HEADER).filter
        fun header => !eqIgnoreAsciiCase header.1 PROXY_AUTHORIZATION_HEADER).filter
        fun header => !eqIgnoreAsciiCase header.1 INTERNAL_IDENTITY_HEADER := by
    simp only [List.filter_filter]
    refine List.filter_congr fun header _ => ?_
    cases h : eqIgnoreAsciiCase header.1 ISOLATION_HEADER <;> cases h' : eqIgnoreAsciiCase header.1 ISOLATION_MODE_HEADER <;>
      simp [isIngressHeader, h, h', Bool.and_comm]
  unfold takeIsolationRequest
  simp only [getAll_headerMap, removeHeader_headerMap, hfilter]

section InPlace

variable {α β : Type}

theorem run_get_bind {f : RequestHeader → ExceptT String (StateM RequestHeader) β} {request : RequestHeader} :
    (get >>= f).run.run request = (f request).run.run request := rfl

/-- Where a step fails, the request stays as the steps before it left it. -/
theorem run_ofExcept_bind {x : Except String α} {f : α → ExceptT String (StateM RequestHeader) β}
    {request : RequestHeader} : (MonadExcept.ofExcept x >>= f).run.run request =
      match x with
      | .ok a => (f a).run.run request
      | .error e => (.error e, request) := by
  cases x <;> rfl

end InPlace

/-- In place the request is changed by a success alone. -/
theorem takeIsolationRequestInPlace_run (request : RequestHeader) :
    takeIsolationRequestInPlace.run.run request =
      match takeIsolationRequest request with
      | .ok (isolation, rest) => (.ok isolation, rest)
      | .error e => (.error e, request) := by
  unfold takeIsolationRequestInPlace takeIsolationRequest
  rw [run_get_bind, run_ofExcept_bind]
  cases singleHeader (request.getAll ISOLATION_HEADER) validateIsolationIdentity "duplicate isolation identity header" with
  | error e => rfl
  | ok identity =>
    dsimp only
    rw [run_get_bind, run_ofExcept_bind]
    cases singleHeader (request.getAll ISOLATION_MODE_HEADER) parseIsolationMode "duplicate isolation mode header" <;> rfl

/-- What the pass over a head accepts, the lookups in the map of the same headers accept and read the same. -/
theorem takeIsolationRequest_of_pass (request : RequestHeader) {headers : List (Str × Bytes)}
    {parsed : ParsedIngressHeaders} (h : ingressHeadersFromHttparse headers = .ok parsed) :
    takeIsolationRequest { request with headers := headerMap headers } =
      .ok (parsed.isolation,
        { request with headers := headerMap (headers.filter fun header => !isIngressHeader header.1) }) := by
  simp only [ingressHeadersFromHttparse, bind_eq_ok, pure_eq_ok, Except.ok.injEq] at h
  obtain ⟨t, hfold, rfl⟩ := h
  rw [takeIsolationRequest_headerMap, fillsOnce_identity.single hfold rfl, fillsOnce_mode.single hfold rfl,
    strict_of_pass hfold]
  rfl

/-- One pass over the headers and lookups in a map of them: what the pass accepts, the lookups accept and read the same,
so what they reject, it rejects; they take the ingress headers in any case out and nothing else, and leave the request
alone when they fail. -/
theorem isolation_parsers_agree (request : RequestHeader) (headers : List (Str × Bytes)) :
    (∀ parsed, ingressHeadersFromHttparse headers = .ok parsed →
      ∃ rest, takeIsolationRequestInPlace.run.run { request with headers := headerMap headers } =
        (.ok parsed.isolation, rest)) ∧
    (∀ e rest, takeIsolationRequestInPlace.run.run { request with headers := headerMap headers } = (.error e, rest) →
      (∃ e', ingressHeadersFromHttparse headers = .error e') ∧ rest = { request with headers := headerMap headers }) ∧
    ∀ isolation rest, takeIsolationRequestInPlace.run.run { request with headers := headerMap headers } =
      (.ok isolation, rest) →
      rest = { request with headers := headerMap (headers.filter fun header => !isIngressHeader header.1) } := by
  rw [takeIsolationRequestInPlace_run]
  refine ⟨fun parsed h => ?_, fun e rest h => ⟨?_, ?_⟩, fun isolation rest h => ?_⟩
  · rw [takeIsolationRequest_of_pass request h]
    exact ⟨_, rfl⟩
  · cases hpass : ingressHeadersFromHttparse headers with
    | error e' => exact ⟨e', rfl⟩
    | ok parsed =>
      rw [takeIsolationRequest_of_pass request hpass] at h
      cases h
  · split at h
    · cases h
    · cases h
      rfl
  · rw [takeIsolationRequest_headerMap] at h
    split at h
    · rename_i taken hok
      simp only [bind_eq_ok, pure_eq_ok, Except.ok.injEq, Prod.mk.injEq] at hok
      obtain ⟨-, -, -, -, -, rfl⟩ := hok
      cases h
      rfl
    · cases h

/-- A request with two spellings of the reserved names. -/
def mixedHeaders : List (Str × Bytes) :=
  [("host".toList, utf8 "a.test".toList), ("x-proxy-isolation".toList, utf8 "team".toList),
    ("X-PROXY-Isolation-Mode".toList, utf8 "Strict".toList)]

theorem isolation_parsers_agree_mixed : ∃ rest,
    takeIsolationRequestInPlace.run.run ⟨"GET".toList, ⟨none, none, none⟩, headerMap mixedHeaders⟩ =
      (.ok ⟨some "team".toList, true⟩, rest) :=
  (isolation_parsers_agree ⟨"GET".toList, ⟨none, none, none⟩, []⟩ mixedHeaders).1
    ⟨⟨some "team".toList, true⟩, none, none⟩ (by rfl)

end Cobra
