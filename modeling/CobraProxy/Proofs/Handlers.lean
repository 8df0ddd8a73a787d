import CobraProxy.Proofs.IngressHeaders
import CobraProxy.Spec.Pipeline

/-! The handlers of the pipeline, against all answers that their services can give: in authenticated
mode a handler calls `connect_with_retry`, registers a downstream context or issues a lease only
after the calls that must come first, and a public request with the header of the inner hop gets no
further than its rejection. -/

namespace Cobra

open Text Program Handler Prog

/-- The admission calls of a task that succeeded for one identity and period. -/
structure GatesPassed (history : List CallEvent) (scope : AccountRequestScope) : Prop where
  authenticated : ∃ proxyAuthorization fingerprint,
    ⟨.authenticateAccount proxyAuthorization fingerprint, .ok scope.identity⟩ ∈ history
  rate : ⟨.checkRequestRate scope.identity, .ok ()⟩ ∈ history
  period : ⟨.periodStart, .ok scope.periodStart⟩ ∈ history
  data : ⟨.ensureCustomerDataAvailable scope.identity scope.periodStart, .ok ()⟩ ∈ history
  quota : ⟨.admitAccountRequest scope.identity scope.periodStart, .ok ()⟩ ∈ history

/-- The bytes that were read from the connection. -/
def received : List CallEvent → Bytes
  | [] => []
  | ⟨.read _ _, .ok chunk⟩ :: history => received history ++ chunk.1
  | _ :: history => received history

/-- The bytes read so far are a request with the header of the inner hop, in any letter case. -/
def CarriesLease (lib : Libraries) (history : List CallEvent) : Prop :=
  received history ≠ [] ∧ ∃ head, lib.httparse (received history) = .ok (some head) ∧
    ∃ header ∈ head.headers, eqIgnoreAsciiCase header.1 INTERNAL_IDENTITY_HEADER = true

/-- How the scope of a task was established. -/
def ScopeGranted (origin : TaskOrigin) (history : List CallEvent) (scope : AccountRequestScope) : Prop :=
  match origin with
  | .publicConnection => GatesPassed history scope
  | .internalConnection => ∃ token, ⟨.resolveBridgeIdentity token, some scope⟩ ∈ history
  | .downstreamRequest .. => False

/-- The destination behind `target` passed its checks, and everything is held for a scope. -/
def ConnectReady (lib : Libraries) (granted : AccountRequestScope → Prop) (history : List CallEvent)
    (target : TorAddr) : Prop :=
  ∃ scope destination key, granted scope ∧ parseConnectDestination lib destination = .ok target ∧
    connectDestinationAllowed lib.parseAuthority destination = .ok true ∧
    canonicalConnectDestinationKey lib.parseAuthority destination = .ok key ∧
    ⟨.circuitBreakerAllow key, true⟩ ∈ history ∧
    .accountTunnelGuard scope.identity ∈ held history ∧
    .customerDataSession scope.identity scope.periodStart ∈ held history ∧
    .activeTunnelPermit ∈ held history ∧ .circuitPermit ∈ held history

/-- What must have happened before a call. -/
def Justified (lib : Libraries) (origin : TaskOrigin) (history : List CallEvent) : Call → Prop
  | .connectWithRetry target _ => ConnectReady lib (ScopeGranted origin history) history target
  | .registerDownstream _ context => origin = .publicConnection ∧ GatesPassed history context.scope
  | .issueBridgeIdentity scope => ∃ address header context, origin = .downstreamRequest (some address) header ∧
      ⟨.downstreamContext address, some context⟩ ∈ history ∧ context.scope = scope
  | _ => True

def Clean (lib : Libraries) (origin : TaskOrigin) (history : List CallEvent) : Prop :=
  origin = .publicConnection → ¬ CarriesLease lib history

def Permitted (lib : Libraries) (origin : TaskOrigin) (history : List CallEvent) (c : Call) : Prop :=
  (Clean lib origin history ∨ c = .write .badRequest) ∧ Justified lib origin history c

/-! ### The reserved header -/

theorem ingressHeader_keeps {s s' : IngressHeaderLoop} {header : Str × Bytes}
    (h : ingressHeader s header = .ok s')
    (hs : s.internalIdentity.isSome ∨ eqIgnoreAsciiCase header.1 INTERNAL_IDENTITY_HEADER = true) :
    s'.internalIdentity.isSome := by
  rcases ingressHeader_cases h with ⟨hname, -, -, -, rfl⟩ | ⟨hname, -, -, -, rfl⟩ | ⟨hname, -, -, -, rfl⟩ |
    ⟨-, -, -, -, rfl⟩ | ⟨hname, rfl⟩
  · exact hs.resolve_right fun hinternal => names_differ hname hinternal (by decide)
  · exact hs.resolve_right fun hinternal => names_differ hname hinternal (by decide)
  · exact hs.resolve_right fun hinternal => names_differ hname hinternal (by decide)
  · rfl
  · exact hs.resolve_right fun hinternal => by simp [isIngressHeader, hinternal] at hname

theorem internalIdentity_isSome_of_foldlM {headers : List (Str × Bytes)} {s s' : IngressHeaderLoop}
    (h : headers.foldlM ingressHeader s = .ok s')
    (hs : s.internalIdentity.isSome ∨
      ∃ header ∈ headers, eqIgnoreAsciiCase header.1 INTERNAL_IDENTITY_HEADER = true) :
    s'.internalIdentity.isSome := by
  induction headers generalizing s with
  | nil =>
    cases h
    simpa using hs
  | cons header headers ih =>
    simp only [List.foldlM_cons, Fallible.bind_eq_ok] at h
    obtain ⟨t, ht, h⟩ := h
    refine ih h ?_
    rcases hs with hs | ⟨other, hmem, hname⟩
    · exact .inl (ingressHeader_keeps ht (.inl hs))
    · rcases List.mem_cons.1 hmem with rfl | hmem
      · exact .inl (ingressHeader_keeps ht (.inr hname))
      · exact .inr ⟨other, hmem, hname⟩

theorem not_carriesLease_of_none {lib : Libraries} {history : List CallEvent}
    (h : parseProxyRequest lib.httparse (received history) = .ok none) : ¬ CarriesLease lib history := by
  rintro ⟨-, head, hhead, -⟩
  simp only [parseProxyRequest, hhead, Except.mapError, Fallible.ok_bind, Fallible.throw_eq_error,
    Fallible.error_bind, Fallible.ite_error_eq_ok] at h
  split at h
  · simp at h
  · simp at h

theorem not_carriesLease_of_some {lib : Libraries} {history : List CallEvent} {request : ParsedProxyRequest}
    (h : parseProxyRequest lib.httparse (received history) = .ok (some request))
    (hrequest : request.internalIdentity = none) : ¬ CarriesLease lib history := by
  rintro ⟨-, head, hhead, hname⟩
  simp only [parseProxyRequest, hhead, Except.mapError, Fallible.ok_bind, Fallible.throw_eq_error,
    Fallible.error_bind, Fallible.ite_error_eq_ok] at h
  obtain ⟨-, h⟩ := h
  split at h
  · simp only [Fallible.bind_eq_ok, Fallible.pure_eq_ok, Except.ok.injEq, Option.some.injEq] at h
    obtain ⟨destination, -, headers, hheaders, rfl⟩ := h
    simp only [ingressHeadersFromHttparse, Fallible.bind_eq_ok, Fallible.pure_eq_ok, Except.ok.injEq] at hheaders
    obtain ⟨t, ht, rfl⟩ := hheaders
    have := internalIdentity_isSome_of_foldlM ht (.inr hname)
    rw [show t.internalIdentity = none from hrequest] at this
    cases this
  · simp at h

/-! ### Rules for the handlers -/

/-- The calls that nothing has to come before. -/
def Quiet : Call → Prop
  | .read .. | .connectWithRetry .. | .registerDownstream .. | .issueBridgeIdentity _ => False
  | _ => True

variable {lib : Libraries} {origin : TaskOrigin} {h : List CallEvent} {α : Type}
  {post : List CallEvent → Except HandlerError α → Prop}

theorem received_quiet {c : Call} (hc : Quiet c) (answer : c.Result) :
    received (⟨c, answer⟩ :: h) = received h := by
  cases c <;> first | rfl | exact hc.elim

theorem clean_of_received {h' : List CallEvent} (hclean : Clean lib origin h) (heq : received h' = received h) :
    Clean lib origin h' := by
  intro horigin hcarries
  refine hclean horigin ?_
  rwa [CarriesLease, heq] at hcarries

theorem Clean.cons (hclean : Clean lib origin h) {c : Call} (hc : Quiet c) (answer : c.Result) :
    Clean lib origin (⟨c, answer⟩ :: h) :=
  clean_of_received hclean (received_quiet hc answer)

theorem permitted_of_quiet (hclean : Clean lib origin h) {c : Call} (hc : Quiet c) : Permitted lib origin h c := by
  refine ⟨.inl hclean, ?_⟩
  cases c <;> trivial

theorem wp_quiet (hclean : Clean lib origin h) {c : Call} (hc : Quiet c) {f : c.Result → Handler α}
    (hf : ∀ answer, Clean lib origin (⟨c, answer⟩ :: h) →
      wp (Permitted lib origin) (⟨c, answer⟩ :: h) (f answer) post) :
    wp (Permitted lib origin) h (perform c >>= f) post := by
  rw [wp_bind, wp_perform]
  exact ⟨permitted_of_quiet hclean hc, fun answer => hf answer (hclean.cons hc answer)⟩

theorem wp_rejectWith (hpost : ∀ h' e, post h' (.error e)) (hclean : Clean lib origin h) {response : Response}
    {error : HandlerError} : wp (Permitted lib origin) h (rejectWith response error) post :=
  wp_quiet (c := .write response) hclean trivial fun _ _ => hpost _ _

/-- A `400` may answer any request. -/
theorem wp_rejectWith_badRequest (hpost : ∀ h' e, post h' (.error e)) {error : HandlerError} :
    wp (Permitted lib origin) h (rejectWith .badRequest error) post := by
  rw [rejectWith, wp_bind, wp_perform]
  exact ⟨⟨.inr rfl, trivial⟩, fun _ => hpost _ _⟩

/-- What a read leaves behind: the bytes of the request it returns, or no request with the header. -/
def ReadPost (lib : Libraries) (origin : TaskOrigin) (h : List CallEvent) :
    Except HandlerError (ParsedProxyRequest × Bytes) → Prop
  | .ok (request, buffer) =>
    received h = buffer ∧ parseProxyRequest lib.httparse buffer = .ok (some request)
  | .error .elapsed => Clean lib origin h
  | .error _ => True

theorem readProxyRequestLoop_spec (timeout : Bool) (rounds : ℕ) {buffer : Bytes} (hbuffer : received h = buffer) :
    wp (Permitted lib origin) h (readProxyRequestLoop lib timeout rounds buffer) (ReadPost lib origin) := by
  induction rounds generalizing h buffer with
  | zero => trivial
  | succ rounds ih =>
    subst hbuffer
    rw [readProxyRequestLoop, wp_bind]
    cases hparse : parseProxyRequest lib.httparse (received h) with
    | error message => trivial
    | ok result =>
      cases result with
      | some request => exact ⟨rfl, hparse⟩
      | none =>
        have hclean : Clean lib origin h := fun _ => not_carriesLease_of_none hparse
        show wp _ h (if _ then _ else _) _
        refine wp_ite (fun _ => trivial) fun _ => ?_
        rw [wp_bind, wp_perform]
        refine ⟨⟨.inl hclean, trivial⟩, fun answer => ?_⟩
        match answer with
        | .error .elapsed => exact clean_of_received hclean rfl
        | .error (.failed message) => trivial
        | .ok chunk => exact wp_ite (fun _ => trivial) fun _ => ih rfl

/-- The rounds of the reading loop never run out: another one changes nothing. -/
theorem readProxyRequestLoop_succ (timeout : Bool) {rounds : ℕ} {buffer : Bytes}
    (hrounds : MAX_CONNECT_HEADER_BYTES < rounds + buffer.length)
    (hbuffer : buffer.length ≤ MAX_CONNECT_HEADER_BYTES) :
    readProxyRequestLoop lib timeout (rounds + 1) buffer = readProxyRequestLoop lib timeout rounds buffer := by
  induction rounds generalizing buffer with
  | zero => omega
  | succ rounds ih =>
    rw [readProxyRequestLoop, readProxyRequestLoop]
    congr 1
    funext result
    cases result with
    | some request => rfl
    | none =>
      dsimp only
      split_ifs with hfull
      · rfl
      · congr 1
        funext answer
        match answer with
        | .error .elapsed => rfl
        | .error (.failed message) => rfl
        | .ok chunk =>
          dsimp only
          split_ifs with hempty
          · rfl
          · have hchunk := chunk.2
            have hpos : 0 < chunk.1.length := List.length_pos_iff.2 fun hnil => hempty (by rw [hnil]; rfl)
            refine ih ?_ ?_ <;> rw [List.length_append] <;> omega

/-! ### Gates -/

/-- A handler that passes on a good answer, or gives up. -/
inductive Decides (good : α → Prop) : Handler α → Prop
  | pass {a : α} (h : good a) : Decides good (pure a)
  | refuse (response : Response) (error : HandlerError) : Decides good (rejectWith response error)
  | bail (message : String) : Decides good (bail message)

/-- A handler that makes one call and decides by its answer. -/
def Gate (c : Call) (good : c.Result → α → Prop) (p : Handler α) : Prop :=
  ∃ f : c.Result → Handler α, p = perform c >>= f ∧ ∀ answer, Decides (good answer) (f answer)

theorem Gate.spec {c : Call} {good : c.Result → α → Prop} {p : Handler α} (hgate : Gate c good p) (hc : Quiet c)
    (hclean : Clean lib origin h) (hpost : ∀ h' e, post h' (.error e))
    (hok : ∀ answer a, good answer a → Clean lib origin (⟨c, answer⟩ :: h) →
      post (⟨c, answer⟩ :: h) (.ok a)) :
    wp (Permitted lib origin) h p post := by
  obtain ⟨f, rfl, hf⟩ := hgate
  refine wp_quiet hclean hc fun answer hclean => ?_
  have hdecides := hf answer
  generalize f answer = p at hdecides
  cases hdecides with
  | pass hgood => exact hok answer _ hgood hclean
  | refuse => exact wp_rejectWith hpost hclean
  | bail => exact hpost _ _

theorem gate_authenticateIngress (proxyAuthorization : Str) (fingerprint : CertificateFingerprint) :
    Gate (.authenticateAccount proxyAuthorization fingerprint) (fun answer identity => answer = .ok identity)
      (authenticateIngress proxyAuthorization fingerprint) := by
  refine ⟨_, rfl, fun answer => ?_⟩
  split
  · exact .pass rfl
  all_goals exact .refuse _ _

theorem gate_requireRequestRate (identity : IngressIdentity) :
    Gate (.checkRequestRate identity) (fun answer a => answer = .ok a) (requireRequestRate identity) := by
  refine ⟨_, rfl, fun answer => ?_⟩
  split
  · exact .pass rfl
  all_goals exact .refuse _ _

theorem gate_currentPeriodStart :
    Gate .periodStart (fun answer periodStart => answer = .ok periodStart) currentPeriodStart := by
  refine ⟨_, rfl, fun answer => ?_⟩
  split
  · exact .pass rfl
  · exact .refuse _ _

theorem gate_requireCustomerData (identity : IngressIdentity) (periodStart : UnixTimestamp) :
    Gate (.ensureCustomerDataAvailable identity periodStart) (fun answer a => answer = .ok a)
      (requireCustomerData identity periodStart) := by
  refine ⟨_, rfl, fun answer => ?_⟩
  split
  · exact .pass rfl
  all_goals exact .refuse _ _

theorem gate_requireQuota (identity : IngressIdentity) (periodStart : UnixTimestamp) :
    Gate (.admitAccountRequest identity periodStart) (fun answer a => answer = .ok a)
      (requireQuota identity periodStart) := by
  refine ⟨_, rfl, fun answer => ?_⟩
  split
  · exact .pass rfl
  all_goals exact .refuse _ _

theorem gate_acquireAccountTunnelGuard (scope : AccountRequestScope) :
    Gate (.tryAcquireTunnel scope.identity) (fun answer a => answer = .ok a)
      (acquireAccountTunnelGuard (some scope)) := by
  refine ⟨_, rfl, fun answer => ?_⟩
  split
  · exact .pass rfl
  all_goals exact .refuse _ _

theorem gate_openAccountDataSession (scope : AccountRequestScope) :
    Gate (.openCustomerDataSession scope.identity scope.periodStart) (fun answer a => answer = .ok a)
      (openAccountDataSession (some scope)) := by
  refine ⟨_, rfl, fun answer => ?_⟩
  split
  · exact .pass rfl
  all_goals exact .refuse _ _

theorem gate_acquireActiveTunnelPermit :
    Gate .acquireActiveTunnelPermit (fun answer _ => answer = .acquired) acquireActiveTunnelPermit := by
  refine ⟨_, rfl, fun answer => ?_⟩
  split
  · exact .pass rfl
  · exact .bail _
  · exact .refuse _ _

theorem gate_acquireCircuitPermit :
    Gate .acquireCircuitPermit (fun answer _ => answer = .acquired) acquireCircuitPermit := by
  refine ⟨_, rfl, fun answer => ?_⟩
  split
  · exact .pass rfl
  all_goals exact .refuse _ _

theorem admitPublicRequest_spec {post : List CallEvent → Except HandlerError AccountRequestScope → Prop}
    (hclean : Clean lib origin h) (hpost : ∀ h' e, post h' (.error e)) {request : ParsedProxyRequest}
    {fingerprint : CertificateFingerprint}
    (hok : ∀ h' scope, GatesPassed h' scope → Clean lib origin h' → post h' (.ok scope)) :
    wp (Permitted lib origin) h (admitPublicRequest request fingerprint) post := by
  unfold admitPublicRequest
  split
  · exact wp_rejectWith hpost hclean
  · rename_i proxyAuthorization _
    rw [wp_bind]
    refine (gate_authenticateIngress _ _).spec trivial hclean hpost ?_
    rintro _ identity rfl hclean
    rw [andThen_ok, wp_bind]
    refine (gate_requireRequestRate _).spec trivial hclean hpost ?_
    rintro _ _ rfl hclean
    rw [andThen_ok, wp_bind]
    refine gate_currentPeriodStart.spec trivial hclean hpost ?_
    rintro _ periodStart rfl hclean
    rw [andThen_ok, wp_bind]
    refine (gate_requireCustomerData _ _).spec trivial hclean hpost ?_
    rintro _ _ rfl hclean
    rw [andThen_ok, wp_bind]
    refine (gate_requireQuota _ _).spec trivial hclean hpost ?_
    rintro _ _ rfl hclean
    refine hok _ ⟨identity, periodStart⟩ ?_ hclean
    exact ⟨⟨proxyAuthorization, fingerprint, by simp⟩, by simp, by simp, by simp, by simp⟩

/-! ### Tunnels -/

theorem only_require {P : Call → Prop} (result : Except String α) : (require result).Only P := by
  cases result <;> trivial

theorem only_perform {c : Call} (hc : Quiet c) : (perform c : Handler c.Result).Only Quiet := Only.perform hc

theorem bufferedAllowance_quiet (limited : Bool) (requested : ℕ) :
    (bufferedAllowance limited requested).Only Quiet := by
  cases limited with
  | false => trivial
  | true =>
    refine (only_perform (c := .allow requested) trivial).bind fun answer => ?_
    split <;> trivial

theorem endExhausted_quiet (limited : Bool) : (endExhausted limited).Only Quiet := by
  cases limited with
  | false => trivial
  | true =>
    refine (only_perform (c := .checkpointCustomerDataSession) trivial).bind fun answer => ?_
    exact (only_require answer).bind fun _ => trivial

theorem sendBuffered_quiet (limited : Bool) (data : Bytes) : (sendBuffered limited data).Only Quiet := by
  refine .ite trivial ((bufferedAllowance_quiet _ _).bind fun allowance => ?_)
  refine (only_perform (c := .writeTor _) trivial).bind fun _ => (only_require _).bind fun _ => ?_
  refine (only_perform (c := .flushTor) trivial).bind fun _ => (only_require _).bind fun _ => ?_
  refine Only.bind ?_ fun _ => .ite (endExhausted_quiet limited) trivial
  cases limited with
  | false => trivial
  | true => exact only_perform trivial

theorem finishConnect_quiet (breakerKey : Str) (limited : Bool) (data : Bytes)
    (result : Except ConnectFailure Unit) : (finishConnect breakerKey limited data result).Only Quiet := by
  unfold finishConnect
  split
  · refine (only_perform (c := .circuitBreakerRecord ..) trivial).bind fun _ => ?_
    refine (only_perform (c := .write _) trivial).bind fun _ => (only_require _).bind fun _ => ?_
    refine (sendBuffered_quiet limited data).bind fun _ => ?_
    exact (only_perform (c := .copyBidirectional _) trivial).bind fun _ => only_require _
  · refine (only_perform (c := .circuitBreakerRecord ..) trivial).bind fun _ => ?_
    exact (only_perform (c := .write _) trivial).bind fun _ => (only_require _).bind fun _ => trivial
  · refine (only_perform (c := .circuitBreakerRecord ..) trivial).bind fun _ => ?_
    exact (only_perform (c := .write _) trivial).bind fun _ => (only_require _).bind fun _ => trivial

/-- What only makes quiet calls may follow anywhere. -/
theorem wp_of_quiet {p : Handler α} (hp : p.Only Quiet) (hclean : Clean lib origin h) :
    wp (Permitted lib origin) h p fun _ _ => True := by
  refine wp_mono (fun _ _ _ => trivial) (Only.wp (I := Clean lib origin) ?_ ?_ hp hclean)
  · exact fun _ _ hI hc => permitted_of_quiet hI hc
  · exact fun _ _ answer hI hc => hI.cons hc answer

theorem GatesPassed.mono {h' : List CallEvent} {scope : AccountRequestScope} (hgates : GatesPassed h scope)
    (hsub : h ⊆ h') : GatesPassed h' scope := by
  obtain ⟨proxyAuthorization, fingerprint, hauthenticated⟩ := hgates.authenticated
  exact ⟨⟨proxyAuthorization, fingerprint, hsub hauthenticated⟩, hsub hgates.rate, hsub hgates.period,
    hsub hgates.data, hsub hgates.quota⟩

theorem ScopeGranted.mono {h' : List CallEvent} {scope : AccountRequestScope}
    (hgranted : ScopeGranted origin h scope) (hsub : h ⊆ h') : ScopeGranted origin h' scope := by
  cases origin with
  | publicConnection => exact GatesPassed.mono hgranted hsub
  | internalConnection =>
    obtain ⟨token, htoken⟩ := hgranted
    exact ⟨token, hsub htoken⟩
  | downstreamRequest => exact hgranted

theorem checkDestination_spec {post : List CallEvent → Except HandlerError (TorAddr × Str) → Prop}
    (hclean : Clean lib origin h) (hpost : ∀ h' e, post h' (.error e)) {dest : Str}
    (hok : ∀ target key, parseConnectDestination lib dest = .ok target →
      connectDestinationAllowed lib.parseAuthority dest = .ok true →
      canonicalConnectDestinationKey lib.parseAuthority dest = .ok key → post h (.ok (target, key))) :
    wp (Permitted lib origin) h (checkDestination lib dest) post := by
  unfold checkDestination
  split
  · exact wp_rejectWith hpost hclean
  · rename_i target htarget
    rw [wp_bind]
    cases hkey : canonicalConnectDestinationKey lib.parseAuthority dest with
    | error message => exact hpost _ _
    | ok key =>
      change andThen _ _ _ h (.ok key)
      rw [andThen_ok]
      split
      · exact wp_rejectWith hpost hclean
      · exact wp_rejectWith hpost hclean
      · rename_i hallowed
        exact hok target key htarget hallowed hkey

/-- A tunnel for a granted scope is opened behind all checks, with everything held. -/
theorem handleConnectRequest_spec {scope : AccountRequestScope} (hgranted : ScopeGranted origin h scope)
    (hclean : Clean lib origin h) (dest : Str) (isolationRequest : IsolationRequest) (data : Bytes)
    (countAsPublicRequest : Bool) :
    wp (Permitted lib origin) h
      (handleConnectRequest lib dest isolationRequest data countAsPublicRequest (some scope)) fun _ _ => True := by
  have hdone : ∀ (h' : List CallEvent) (e : HandlerError), True := fun _ _ => trivial
  unfold handleConnectRequest
  rw [wp_bind]
  refine checkDestination_spec hclean hdone fun target key htarget hallowed hkey => ?_
  refine wp_quiet (c := .circuitBreakerAllow key) hclean trivial fun answer hclean => ?_
  refine wp_ite (fun hanswer => ?_) fun _ => wp_rejectWith hdone hclean
  subst hanswer
  rw [wp_bind]
  refine (gate_acquireAccountTunnelGuard scope).spec trivial hclean hdone ?_
  rintro _ _ rfl hclean
  rw [andThen_ok, wp_bind]
  refine (gate_openAccountDataSession scope).spec trivial hclean hdone ?_
  rintro _ _ rfl hclean
  rw [andThen_ok, wp_bind]
  refine gate_acquireActiveTunnelPermit.spec trivial hclean hdone ?_
  rintro _ _ rfl hclean
  refine wp_quiet (c := .isolationIdCounter) hclean trivial fun idCounter hclean => ?_
  rw [wp_bind]
  refine gate_acquireCircuitPermit.spec trivial hclean hdone ?_
  rintro _ _ rfl hclean
  rw [andThen_ok, wp_bind, wp_perform]
  refine ⟨⟨.inl hclean, scope, dest, key, hgranted.mono ?_, htarget, hallowed, hkey, ?_⟩, fun result => ?_⟩
  · exact fun event hevent => by simp [hevent]
  · simp [held, acquired]
  · rw [andThen_ok]
    refine wp_quiet (c := .dropCircuitPermit) (clean_of_received hclean ?_) trivial fun _ hclean => ?_
    · rfl
    exact wp_of_quiet (finishConnect_quiet ..) hclean

/-! ### Listeners -/

theorem forwardToPingora_spec {scope : AccountRequestScope} (hgates : GatesPassed h scope)
    (hclean : Clean lib .publicConnection h) (request : ParsedProxyRequest) (buffer : Bytes) :
    wp (Permitted lib .publicConnection) h (forwardToPingora lib request buffer (some scope)) fun _ _ => True := by
  have hdone : ∀ (h' : List CallEvent) (e : HandlerError), True := fun _ _ => trivial
  unfold forwardToPingora
  rw [wp_bind]
  cases stripIngressHeaders lib.httparse buffer request.headerLen with
  | error message => trivial
  | ok sanitized =>
    change andThen _ _ _ h (.ok sanitized)
    rw [andThen_ok]
    refine wp_quiet (c := .connectInternalProxy) hclean trivial fun answer hclean => ?_
    split
    · exact wp_rejectWith hdone hclean
    refine wp_quiet (c := .localAddr) hclean trivial fun answer hclean => ?_
    rw [wp_bind]
    cases answer with
    | error message => trivial
    | ok address =>
      change andThen _ _ _ _ (.ok address)
      rw [andThen_ok, wp_bind, wp_perform]
      refine ⟨⟨.inl hclean, rfl, hgates.mono fun event hevent => by simp [hevent]⟩, fun answer => ?_⟩
      rw [andThen_ok]
      split
      · refine wp_rejectWith ?_ ?_
        · exact hdone
        · exact clean_of_received hclean rfl
      · refine wp_of_quiet ?_ (clean_of_received hclean rfl)
        refine (only_perform (c := .writePingora _) trivial).bind fun _ => (only_require _).bind fun _ => ?_
        exact (only_perform (c := .copyBidirectional _) trivial).bind fun _ => only_require _

theorem servePublicRequest_spec {request : ParsedProxyRequest} {buffer : Bytes}
    (hbuffer : received h = buffer) (hparse : parseProxyRequest lib.httparse buffer = .ok (some request))
    (fingerprint : CertificateFingerprint) :
    wp (Permitted lib .publicConnection) h (servePublicRequest lib request buffer (some fingerprint))
      fun _ _ => True := by
  have hdone : ∀ (h' : List CallEvent) (e : HandlerError), True := fun _ _ => trivial
  subst hbuffer
  refine wp_ite (fun _ => wp_rejectWith_badRequest hdone) fun hnone => ?_
  have hclean : Clean lib .publicConnection h := fun _ =>
    not_carriesLease_of_some hparse (by simpa using hnone)
  rw [wp_bind, publicAccountScope, wp_bind]
  refine admitPublicRequest_spec hclean hdone fun h' scope hgates hclean => ?_
  refine wp_ite (fun _ => ?_) fun _ => forwardToPingora_spec hgates hclean request _
  split
  · trivial
  · have hgranted : ScopeGranted .publicConnection h' scope := hgates
    exact handleConnectRequest_spec hgranted hclean _ _ _ _

theorem handlePublicTcpConnection_spec :
    wp (Permitted lib .publicConnection) [] (handlePublicTcpConnection lib .authenticatedTls) fun _ _ => True := by
  have hdone : ∀ (h' : List CallEvent) (e : HandlerError), True := fun _ _ => trivial
  have hclean : Clean lib .publicConnection [] := fun _ hcarries => hcarries.1 rfl
  refine wp_quiet (c := .acceptBoundedTls) hclean trivial fun answer hclean => ?_
  rw [wp_bind]
  cases answer with
  | error message => trivial
  | ok _ =>
    refine wp_quiet (c := .tlsClientFingerprint) hclean trivial fun answer hclean => ?_
    rw [wp_bind]
    cases answer with
    | error message => trivial
    | ok fingerprint =>
      change wp _ _ (handlePublicConnection lib (some fingerprint) true) _
      rw [handlePublicConnection, wp_bind, wp_attempt]
      refine wp_mono ?_ (readProxyRequestLoop_spec true _ rfl)
      intro h' result hread
      match result with
      | .error .elapsed => exact wp_rejectWith hdone hread
      | .error (.error message) => exact wp_rejectWith_badRequest hdone
      | .error (.account source) => exact wp_rejectWith_badRequest hdone
      | .ok (request, buffer) => exact servePublicRequest_spec hread.1 hread.2 fingerprint

theorem clean_of_ne (horigin : origin ≠ .publicConnection) : Clean lib origin h := fun heq => absurd heq horigin

theorem readConnectRequest_spec : wp (Permitted lib origin) [] (readConnectRequest lib) fun _ _ => True := by
  rw [readConnectRequest, wp_bind]
  refine wp_mono (fun h' result _ => ?_) (readProxyRequestLoop_spec false _ rfl)
  match result with
  | .error error => trivial
  | .ok (request, buffer) =>
    refine wp_ite (fun _ => ?_) fun _ => trivial
    split <;> trivial

theorem handleInternalConnect_spec :
    wp (Permitted lib .internalConnection) [] (handleInternalConnect lib .authenticatedTls) fun _ _ => True := by
  have hdone : ∀ (h' : List CallEvent) (e : HandlerError), True := fun _ _ => trivial
  have hclean : ∀ h, Clean lib .internalConnection h := fun h => clean_of_ne nofun
  rw [handleInternalConnect, wp_bind, wp_attempt]
  refine wp_mono (fun h' result _ => ?_) readConnectRequest_spec
  rw [andThen_ok]
  match result with
  | .error error => exact wp_rejectWith hdone (hclean _)
  | .ok (dest, isolation, none, data) =>
    rw [wp_bind]
    exact wp_rejectWith hdone (hclean _)
  | .ok (dest, isolation, some token, data) =>
    rw [wp_bind]
    refine wp_quiet (c := .resolveBridgeIdentity token) (hclean _) trivial fun answer hclean => ?_
    cases answer with
    | none => exact wp_rejectWith hdone hclean
    | some scope =>
      have hgranted : ScopeGranted .internalConnection (⟨.resolveBridgeIdentity token, some scope⟩ :: h') scope :=
        ⟨token, List.mem_cons_self ..⟩
      exact handleConnectRequest_spec hgranted hclean _ _ _ _

theorem filterIsolation_spec (clientAddr : Option SocketAddr) (header : RequestHeader) :
    wp (Permitted lib (.downstreamRequest clientAddr header)) h
      (filterIsolation lib .authenticatedTls clientAddr header) fun _ _ => True := by
  have hclean : ∀ h, Clean lib (.downstreamRequest clientAddr header) h := fun h => clean_of_ne nofun
  cases clientAddr with
  | none =>
    refine wp_of_quiet ?_ (hclean _)
    exact (only_perform (c := .respondError 403) trivial).bind fun _ => (only_require _).bind fun _ => trivial
  | some address =>
    refine wp_quiet (c := .downstreamContext address) (hclean _) trivial fun answer hclean => ?_
    cases answer with
    | none =>
      refine wp_of_quiet ?_ hclean
      exact (only_perform (c := .respondError 403) trivial).bind fun _ => (only_require _).bind fun _ => trivial
    | some context =>
      change wp _ _ (require _ >>= _) _
      rw [wp_bind]
      cases (takeIsolationRequest header).mapError ("invalid isolation header: " ++ ·) with
      | error message => trivial
      | ok stripped =>
        change wp _ _ (require _ >>= _) _
        rw [wp_bind]
        cases (canonicalCacheKeyParts lib.parseAuthority stripped.2).mapError ("invalid request destination: " ++ ·) with
        | error message => trivial
        | ok parts =>
          change wp _ _ (perform (Call.issueBridgeIdentity context.scope) >>= _) _
          rw [wp_bind, wp_perform]
          refine ⟨⟨.inl hclean, address, header, context, rfl, List.mem_cons_self .., rfl⟩, fun answer => ?_⟩
          refine wp_of_quiet ?_ (clean_of_ne nofun)
          refine (only_require answer).bind fun lease => ?_
          exact (only_perform (c := .isolationIdCounter) trivial).bind fun _ => trivial

theorem program_spec (origin : TaskOrigin) :
    wp (Permitted lib origin) [] (origin.program lib .authenticatedTls) fun _ _ => True := by
  cases origin with
  | publicConnection => exact handlePublicTcpConnection_spec
  | internalConnection => exact handleInternalConnect_spec
  | downstreamRequest clientAddr header =>
    have hclean : ∀ h, Clean lib (.downstreamRequest clientAddr header) h := fun h => clean_of_ne nofun
    rw [TaskOrigin.program, wp_bind, requestFilter, wp_bind]
    refine wp_mono (fun h' result _ => ?_) (filterIsolation_spec clientAddr header)
    match result with
    | .error error => trivial
    | .ok none => trivial
    | .ok (some (isolation, authenticated)) =>
      refine wp_quiet (c := .materialFor isolation) (hclean _) trivial fun material hclean => ?_
      exact wp_of_quiet (only_perform (c := .proxyUpstream) trivial) hclean

end Cobra
