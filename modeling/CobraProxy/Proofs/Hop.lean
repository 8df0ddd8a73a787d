import CobraProxy.Proofs.Development
import CobraProxy.Proofs.IngressHeaders
import CobraProxy.Spec.Hop

/-! Isolation on its way from `request_filter` to the bridge: whatever names it, the headers of the inner hop can
carry the name, and the bridge reads it back. -/

namespace Cobra

open Text Program Prog Fallible Handler

/-! ### Names that fit the headers -/

/-- The characters of an isolation identity. -/
def isIdentityChar (c : Char) : Bool := c.isAlphanum || ['.', '_', '~', '-'].contains c

/-- Validation accepts the text and gives it back. -/
def ValidName (s : Str) : Prop := validateIsolationIdentity (utf8 s) = .ok s

theorem identityChar_lt {c : Char} (h : isIdentityChar c = true) : c.toNat < 128 := by
  simp only [isIdentityChar, Char.isAlphanum, Char.isAlpha, Char.isUpper, Char.isLower, Char.isDigit, Bool.or_eq_true,
    Bool.and_eq_true, decide_eq_true_eq, ge_iff_le, UInt32.le_iff_toNat_le, List.contains_iff_mem, List.mem_cons,
    List.not_mem_nil, or_false] at h
  rcases h with ((⟨_, h⟩ | ⟨_, h⟩) | ⟨_, h⟩) | (rfl | rfl | rfl | rfl)
  · exact Nat.lt_of_le_of_lt h (by decide)
  · exact Nat.lt_of_le_of_lt h (by decide)
  · exact Nat.lt_of_le_of_lt h (by decide)
  all_goals decide

/-- As a byte, such a character is one that validation lets through. -/
theorem identityByte_ofNat : ∀ n < 128, isIdentityChar (Char.ofNat n) = true →
    (isAsciiAlphanumericByte (UInt8.ofNat n) || (utf8 "._~-".toList).contains (UInt8.ofNat n)) = true := by
  decide +kernel

theorem validName_of_chars {s : Str} (hne : s ≠ []) (hlen : s.length ≤ MAX_ISOLATION_ID_BYTES)
    (hchars : ∀ c ∈ s, isIdentityChar c = true) : ValidName s := by
  have hbytes : utf8 s = s.map fun c => UInt8.ofNat c.toNat :=
    utf8_of_ascii fun c hc => by simpa [isAscii] using identityChar_lt (hchars c hc)
  have hlength : (utf8 s).length = s.length := by rw [hbytes, List.length_map]
  have hall : ((utf8 s).all fun x => isAsciiAlphanumericByte x || (utf8 "._~-".toList).contains x) = true := by
    rw [List.all_eq_true, hbytes]
    intro byte hbyte
    obtain ⟨c, hc, rfl⟩ := List.mem_map.1 hbyte
    refine identityByte_ofNat _ (identityChar_lt (hchars c hc)) ?_
    rw [Char.ofNat_toNat]
    exact hchars c hc
  have hempty : ¬ ((utf8 s).isEmpty = true ∨ MAX_ISOLATION_ID_BYTES < (utf8 s).length) := by
    rw [List.isEmpty_iff_length_eq_zero, hlength]
    have := List.length_pos_iff.2 hne
    omega
  rw [ValidName, validateIsolationIdentity, if_neg hempty, hall, fromUtf8_utf8]
  rfl

/-- What validation has accepted, it accepts again. -/
theorem validName_of_validated {value : Bytes} {identity : Str} (h : validateIsolationIdentity value = .ok identity) :
    ValidName identity := by
  have hvalue : utf8 identity = value := by
    simp only [validateIsolationIdentity, throw_eq_error, error_bind, ite_error_eq_ok] at h
    obtain ⟨-, -, h⟩ := h
    split at h
    · rename_i text htext
      cases h
      exact fromUtf8_eq_some.1 htext
    · cases h
  rwa [ValidName, hvalue]

/-- Eight bytes of decimal digits after a prefix that is short enough. -/
theorem validName_generated (strict : Bool) {n : ℕ} (hn : n < 2 ^ 64) : ValidName (generatedName strict n) := by
  have hdigits : (Nat.toDigits 10 n).length ≤ 20 := Nat.toDigits_length 10 n 20 (by decide) (by omega)
  have hdigit : ∀ c ∈ Nat.toDigits 10 n, isIdentityChar c = true := by
    intro c hc
    have := Nat.isDigit_of_mem_toDigits (by decide) (by decide) hc
    simp [isIdentityChar, Char.isAlphanum, this]
  have hprefix : ∀ c ∈ (if strict then "strict-".toList else "anonymous-".toList), isIdentityChar c = true := by
    cases strict
    · exact List.all_eq_true.1 (show "anonymous-".toList.all isIdentityChar = true by decide)
    · exact List.all_eq_true.1 (show "strict-".toList.all isIdentityChar = true by decide)
  refine validName_of_chars ?_ ?_ ?_
  · cases strict <;> simp [generatedName]
  · have hlength : (if strict then "strict-".toList else "anonymous-".toList).length ≤ 10 := by
      cases strict <;> decide
    rw [generatedName, List.length_append, MAX_ISOLATION_ID_BYTES]
    omega
  · intro c hc
    rcases List.mem_append.1 hc with hc | hc
    · exact hprefix c hc
    · exact hdigit c hc

/-- A digest fills the limit exactly. -/
theorem validName_digest (digest : ByteVec 32) : ValidName (Encoding.hex digest.1) := by
  have hdigit : ∀ n < 16, isIdentityChar n.digitChar = true := by decide
  have hlength : (Encoding.hex digest.1).length = 64 := by
    simp [Encoding.hex, List.length_flatMap, digest.2]
  refine validName_of_chars ?_ (by rw [hlength]; decide) fun c hc => ?_
  · rw [← List.length_pos_iff, hlength]
    decide
  · obtain ⟨byte, -, hc⟩ := List.mem_flatMap.1 hc
    have := byte.toNat_lt
    simp only [List.mem_cons, List.not_mem_nil, or_false] at hc
    rcases hc with rfl | rfl
    · exact hdigit _ (by omega)
    · exact hdigit _ (by omega)

theorem validName_leaseToken (bytes : ByteVec 24) : ValidName (leaseToken bytes) := by
  have hchars : ∀ c ∈ Base64.urlSafe, isIdentityChar c = true :=
    List.all_eq_true.1 (show Base64.urlSafe.all isIdentityChar = true by decide)
  have hlength : (leaseToken bytes).length = 32 := by
    rw [leaseToken, Base64.encode_unpadded_length, bytes.2]
  refine validName_of_chars ?_ (by rw [hlength]; decide) fun c hc =>
    hchars c (Base64.encode_unpadded_mem Base64.urlSafe_length _ c hc)
  rw [← List.length_pos_iff, hlength]
  decide

/-! ### The headers of the hop -/

/-- A head carries the headers of the upstream connection: its ingress headers are those, in any order and any case of
their names, and it may have others. -/
def Carries (carried : List (Str × Bytes)) (ctx : LeasedRequestCtx) : Prop :=
  (headerMap (carried.filter fun header => isIngressHeader header.1)).Perm (headerMap (upstreamProxyHeaders ctx))

theorem valuesOf_eq_headerMap (headers : List (Str × Bytes)) (name : Str) :
    valuesOf headers name = ((headerMap headers).filter fun header => header.1 == toAsciiLowercase name).map Prod.snd := by
  simp only [headerMap, valuesOf, List.filter_map, List.map_map]
  rfl

theorem Carries.valuesOf {carried : List (Str × Bytes)} {ctx : LeasedRequestCtx} (h : Carries carried ctx) {name : Str}
    (hname : isIngressHeader name = true) : (valuesOf carried name).Perm (valuesOf (upstreamProxyHeaders ctx) name) := by
  have hfilter : Cobra.valuesOf carried name =
      Cobra.valuesOf (carried.filter fun header => isIngressHeader header.1) name := by
    rw [Cobra.valuesOf, Cobra.valuesOf, List.filter_filter]
    refine congrArg (List.map Prod.snd) (List.filter_congr fun header _ => ?_)
    cases hsame : eqIgnoreAsciiCase header.1 name with
    | false => rfl
    | true =>
      have heq : toAsciiLowercase header.1 = toAsciiLowercase name := beq_iff_eq.1 hsame
      simp only [isIngressHeader, eqIgnoreAsciiCase] at hname
      simp [isIngressHeader, eqIgnoreAsciiCase, heq, hname]
  rw [hfilter, valuesOf_eq_headerMap, valuesOf_eq_headerMap]
  exact (h.filter _).map _

/-- The bridge reads the headers of the hop as they were written. -/
theorem Carries.read {carried : List (Str × Bytes)} {ctx : LeasedRequestCtx} (h : Carries carried ctx)
    (hname : ValidName ctx.isolationIdentity)
    (hlease : ∀ token, ctx.bridgeIdentityLease = some token → ValidName token) :
    ingressHeadersFromHttparse carried =
      .ok ⟨⟨some ctx.isolationIdentity, ctx.strictIsolation⟩, none, ctx.bridgeIdentityLease⟩ := by
  have hidentity : Cobra.valuesOf carried ISOLATION_HEADER = [utf8 ctx.isolationIdentity] := by
    refine List.perm_singleton.1 ((h.valuesOf (by decide)).trans (.of_eq ?_))
    cases hl : ctx.bridgeIdentityLease <;> simp only [upstreamProxyHeaders, hl] <;> rfl
  have hmode : Cobra.valuesOf carried ISOLATION_MODE_HEADER =
      [utf8 (if ctx.strictIsolation then "strict".toList else "session".toList)] := by
    refine List.perm_singleton.1 ((h.valuesOf (by decide)).trans (.of_eq ?_))
    cases hl : ctx.bridgeIdentityLease <;> simp only [upstreamProxyHeaders, hl] <;> rfl
  have hauthorization : Cobra.valuesOf carried PROXY_AUTHORIZATION_HEADER = [] := by
    refine List.perm_nil.1 ((h.valuesOf (by decide)).trans (.of_eq ?_))
    cases hl : ctx.bridgeIdentityLease <;> simp only [upstreamProxyHeaders, hl] <;> rfl
  have hinternal : Cobra.valuesOf carried INTERNAL_IDENTITY_HEADER =
      (ctx.bridgeIdentityLease.map utf8).toList := by
    cases hl : ctx.bridgeIdentityLease with
    | none =>
      refine List.perm_nil.1 ((h.valuesOf (by decide)).trans (.of_eq ?_))
      simp only [upstreamProxyHeaders, hl]
      rfl
    | some token =>
      refine List.perm_singleton.1 ((h.valuesOf (by decide)).trans (.of_eq ?_))
      simp only [upstreamProxyHeaders, hl]
      rfl
  have hstrict : parseIsolationMode (utf8 (if ctx.strictIsolation then "strict".toList else "session".toList)) =
      .ok ctx.strictIsolation := by
    cases ctx.strictIsolation <;> rfl
  have hfit : AllFit carried ⟨none, false, false, none, none⟩ := by
    refine ⟨.inr ⟨_, _, hidentity, hname, rfl⟩, .inr ⟨_, _, hmode, hstrict, rfl⟩, .inl hauthorization, ?_⟩
    cases hl : ctx.bridgeIdentityLease with
    | none => exact .inl (by rw [hinternal, hl]; rfl)
    | some token => exact .inr ⟨utf8 token, token, by rw [hinternal, hl]; rfl, hlease token hl, rfl⟩
  obtain ⟨t, hfold⟩ := hfit.fold
  have hreadIdentity := fillsOnce_identity.single hfold rfl ""
  have hreadMode := fillsOnce_mode.single hfold rfl ""
  have hreadAuthorization := fillsOnce_proxyAuthorization.single hfold rfl ""
  have hreadInternal := fillsOnce_internalIdentity.single hfold rfl ""
  rw [hidentity, singleHeader, hname] at hreadIdentity
  rw [hmode, singleHeader, hstrict] at hreadMode
  rw [hauthorization] at hreadAuthorization
  have hl : t.internalIdentity = ctx.bridgeIdentityLease := by
    cases hl : ctx.bridgeIdentityLease with
    | none =>
      rw [hinternal, hl] at hreadInternal
      exact (Except.ok.inj hreadInternal).symm
    | some token =>
      rw [hinternal, hl] at hreadInternal
      change singleHeader [utf8 token] _ _ = _ at hreadInternal
      rw [singleHeader, hlease token hl] at hreadInternal
      exact (Except.ok.inj hreadInternal).symm
  have hs : t.strict = ctx.strictIsolation := by
    rw [strict_of_pass hfold, ← Except.ok.inj hreadMode]
    rfl
  rw [ingressHeadersFromHttparse, hfold, ok_bind, ← Except.ok.inj hreadIdentity, hs, ← Except.ok.inj hreadAuthorization, hl]
  rfl

/-! ### What `request_filter` hands over -/

/-- The answers are ones that the services can give: a value of a 64-bit counter, and a token that the registry
issued. -/
structure Genuine (h : List CallEvent) : Prop where
  counter : ∀ n : ℕ, (⟨.isolationIdCounter, n⟩ : CallEvent) ∈ h → n < 2 ^ 64
  lease : ∀ scope token, (⟨.issueBridgeIdentity scope, .ok token⟩ : CallEvent) ∈ h →
    ∃ (registry : BridgeIdentityRegistry) (draws : ℕ → Option (ByteVec 24)), (registry.issue scope draws).1 = .ok token

theorem exists_leaseToken {attempts : ℕ} {registry : BridgeIdentityRegistry} {scope : AccountRequestScope}
    {draws : ℕ → Option (ByteVec 24)} {token : Str}
    (h : (BridgeIdentityRegistry.issueLoop scope attempts draws registry).1 = .ok token) :
    ∃ bytes, token = leaseToken bytes := by
  induction attempts generalizing draws registry with
  | zero => cases h
  | succ attempts ih =>
    unfold BridgeIdentityRegistry.issueLoop at h
    split at h
    · cases h
    · rename_i bytes _
      dsimp only at h
      split_ifs at h
      · cases h
        exact ⟨bytes, rfl⟩
      · exact ih h

theorem takeIsolationRequest_identity {request rest : RequestHeader} {isolation : IsolationRequest}
    (h : takeIsolationRequest request = .ok (isolation, rest)) {identity : Str}
    (hidentity : isolation.identity = some identity) : ValidName identity := by
  simp only [takeIsolationRequest, bind_eq_ok, pure_eq_ok, Except.ok.injEq, Prod.mk.injEq] at h
  obtain ⟨identity', hread, strict, -, rfl, -⟩ := h
  cases hidentity
  unfold singleHeader at hread
  split at hread
  · cases hread
  · simp only [bind_eq_ok, throw_eq_error, pure_eq_ok, ite_else_error_eq_ok, Except.ok.injEq, Option.some.injEq] at hread
    obtain ⟨parsed, hparse, -, rfl⟩ := hread
    exact validName_of_validated hparse

/-- The names that a request has after its isolation is resolved fit the headers of the hop. -/
def FitsHop (h : List CallEvent) :
    Except HandlerError (Option (ResolvedIsolation × Option (AccountRequestScope × Str))) → Prop
  | .ok (some (isolation, authenticated)) => Genuine h →
    ValidName isolation.identity ∧ ∀ token, authenticated.map Prod.snd = some token → ValidName token
  | _ => True

section Filter

variable {lib : Libraries} {h : List CallEvent}

theorem filterIsolation_fits (mode : PublicIngressRuntime) (clientAddr : Option SocketAddr) (header : RequestHeader) :
    wp (fun _ _ => True) h (filterIsolation lib mode clientAddr header) FitsHop := by
  cases mode with
  | development =>
    change wp _ _ (require _ >>= _) _
    rw [wp_bind]
    cases htake : takeIsolationRequest header with
    | error message => trivial
    | ok taken =>
      obtain ⟨request, rest⟩ := taken
      refine ⟨trivial, fun idCounter hgenuine => ⟨?_, nofun⟩⟩
      rcases (resolveIsolation_cases request idCounter).2 with ⟨-, hname, -⟩ | ⟨-, identity, hidentity, hname, -⟩
      · rw [hname]
        exact validName_generated _ (hgenuine.counter idCounter (List.mem_cons_self ..))
      · rw [hname]
        exact takeIsolationRequest_identity htake hidentity
  | authenticatedTls =>
    cases clientAddr with
    | none =>
      refine ⟨trivial, fun answer => ?_⟩
      cases answer <;> trivial
    | some address =>
      refine ⟨trivial, fun answer => ?_⟩
      cases answer with
      | none =>
        refine ⟨trivial, fun answer => ?_⟩
        cases answer <;> trivial
      | some context =>
        change wp _ _ (require _ >>= _) _
        rw [wp_bind]
        cases (takeIsolationRequest header).mapError ("invalid isolation header: " ++ ·) with
        | error message => trivial
        | ok stripped =>
          change wp _ _ (require _ >>= _) _
          rw [wp_bind]
          cases (canonicalCacheKeyParts lib.parseAuthority stripped.2).mapError ("invalid request destination: " ++ ·) with
          | error message => trivial
          | ok parts =>
            refine ⟨trivial, fun answer => ?_⟩
            cases answer with
            | error message => trivial
            | ok lease =>
              refine ⟨trivial, fun idCounter hgenuine => ⟨validName_digest _, ?_⟩⟩
              rintro token hlease
              cases hlease
              obtain ⟨registry, draws, hissue⟩ :=
                hgenuine.lease _ _ (List.mem_cons_of_mem _ (List.mem_cons_self ..))
              obtain ⟨bytes, rfl⟩ := exists_leaseToken hissue
              exact validName_leaseToken bytes

end Filter

/-- The isolation of a request survives the hop: whatever the mode of the process, the identity that the caller chose
and the values of the counter, the bridge reads from the upstream connection what `request_filter` resolved. In
session mode it resolves the identity under which the group key was obtained, in strict mode every stream is isolated. -/
theorem isolation_survives_hop (lib : Libraries) (mode : PublicIngressRuntime) (clientAddr : Option SocketAddr)
    (header : RequestHeader) :
    wp (fun _ _ => True) [] (requestFilter lib mode clientAddr header) fun h result =>
      ∀ ctx, result = .ok (some ctx) → Genuine h → ∀ carried, Carries carried ctx →
        ∃ parsed, ingressHeadersFromHttparse carried = .ok parsed ∧
          parsed.isolation = ⟨some ctx.isolationIdentity, ctx.strictIsolation⟩ ∧
          parsed.internalIdentity = ctx.bridgeIdentityLease ∧
          ∀ scope breakerKey idCounter,
            let bridged := connectIsolation lib false scope breakerKey parsed.isolation idCounter
            (ctx.strictIsolation = false → bridged = ⟨ctx.isolationIdentity, false⟩ ∧
              ∃ material : IsolationMaterial, (⟨.materialFor bridged, material⟩ : CallEvent) ∈ h ∧
                ctx.isolationGroupKey = material.groupKey) ∧
            (ctx.strictIsolation = true → ∀ materialFor, streamIsolation materialFor bridged = .everyStream) := by
  rw [requestFilter, wp_bind]
  refine wp_mono (fun h result hfits => ?_) (filterIsolation_fits mode clientAddr header)
  match result with
  | .error error => exact fun _ hresult => by cases hresult
  | .ok none => exact fun _ hresult => by cases hresult
  | .ok (some (isolation, authenticated)) =>
    refine ⟨trivial, fun material ctx hresult hgenuine carried hcarried => ?_⟩
    cases hresult
    have hpast : Genuine h := ⟨fun n hn => hgenuine.counter n (List.mem_cons_of_mem _ hn),
      fun scope token htoken => hgenuine.lease scope token (List.mem_cons_of_mem _ htoken)⟩
    obtain ⟨hname, hlease⟩ := hfits hpast
    refine ⟨_, hcarried.read hname hlease, rfl, rfl, fun scope breakerKey idCounter => ?_⟩
    have hbridged : connectIsolation lib false scope breakerKey ⟨some isolation.identity, isolation.strict⟩ idCounter =
        (resolveIsolation ⟨some isolation.identity, isolation.strict⟩ idCounter).1 := by
      cases scope <;> rfl
    obtain ⟨identity, strict⟩ := isolation
    refine ⟨fun hsession => ?_, fun hstrict materialFor => ?_⟩
    · cases hsession
      exact ⟨hbridged, material, hbridged.symm ▸ List.mem_cons_self .., rfl⟩
    · cases hstrict
      show streamIsolation materialFor (connectIsolation lib false scope breakerKey ⟨some identity, true⟩ idCounter) = _
      rw [hbridged]
      rfl

/-- A request of the development mode that names its isolation. -/
def namedRequest : RequestHeader where
  method := "GET".toList
  uri := ⟨none, none, none⟩
  headers := [("x-proxy-isolation".toList, utf8 "team".toList)]

def namedCtx : LeasedRequestCtx where
  ingressIdentity := none
  token := 3
  isolationIdentity := "team".toList
  isolationGroupKey := 5
  strictIsolation := false
  cacheScope := none
  usagePeriodStart := none
  bridgeIdentityLease := none

theorem isolation_survives_hop_named (lib : Libraries) : ∃ parsed,
    ingressHeadersFromHttparse (upstreamProxyHeaders namedCtx) = .ok parsed ∧
      parsed.isolation = ⟨some "team".toList, false⟩ := by
  have hgenuine : Genuine [⟨.materialFor ⟨"team".toList, false⟩, ⟨3, 5⟩⟩, ⟨.isolationIdCounter, (7 : ℕ)⟩] := by
    refine ⟨fun n hn => ?_, fun scope token htoken => ?_⟩
    · rcases List.mem_cons.1 hn with hn | hn
      · cases hn
      · cases List.mem_singleton.1 hn
        decide
    · rcases List.mem_cons.1 htoken with htoken | htoken
      · cases htoken
      · cases List.mem_singleton.1 htoken
  have hcarried : Carries (upstreamProxyHeaders namedCtx) namedCtx := .of_eq (by rfl)
  have hhop := isolation_survives_hop lib .development none namedRequest
  obtain ⟨parsed, hparsed, hisolation, -⟩ := (hhop.2 (7 : ℕ)).2 ⟨3, 5⟩ namedCtx rfl hgenuine _ hcarried
  exact ⟨parsed, hparsed, hisolation⟩

end Cobra
