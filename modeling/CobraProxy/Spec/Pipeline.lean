import CobraProxy.Lib.Program
import CobraProxy.Spec.Admission
import CobraProxy.Spec.Cache
import CobraProxy.Spec.DataLimiter
import CobraProxy.Spec.Ingress

/-! The request pipeline of `main.rs`: the public listener, the bridge's inner listener and Pingora's
`request_filter`. Each handler is a program over the calls it awaits, so that handlers interleave at
every call; the two registries answer from their state, every other service answers as it likes.
Metrics and log lines are left out, and errors carry the fixed part of their text. -/

namespace Cobra

open Text Program

/-! ### Calls -/

inductive RuntimeAuthenticationError
  | account (source : AuthenticationError)
  | worker

inductive RuntimeUsageAdmissionError
  | account (source : UsageAdmissionError)
  | worker

inductive RuntimeCustomerDataAdmissionError
  | customer (source : CustomerDataAdmissionError)
  | worker

inductive ConnectFailure
  | timeout | tor

/-- The responses that the bridge writes itself. -/
inductive Response
  | circuitCapacity | badRequest | forbidden | badGateway | gatewayTimeout | proxyAuthRequired
  | rateLimited | quotaExceeded | requestTimeout | serviceUnavailable | connectionEstablished

inductive PermitResult
  | acquired | closed | elapsed

/-- Why a read gave nothing; `elapsed` is the timeout around the first request. -/
inductive ReadError
  | elapsed
  | failed (message : String)

/-- Why a handler gave up. -/
inductive HandlerError
  | elapsed
  | error (message : String)
  | account (source : AccountManagementError)

/-- Arti's address, as the text that it dials. -/
abbrev TorAddr := Str

/-- What a handler awaits or asks another component for. -/
inductive Call
  | acceptBoundedTls
  | tlsClientFingerprint
  | read (capacity : ℕ) (timeout : Bool)
  | write (response : Response)
  | authenticateAccount (proxyAuthorization : Str) (fingerprint : CertificateFingerprint)
  | checkRequestRate (identity : IngressIdentity)
  | periodStart
  | ensureCustomerDataAvailable (identity : IngressIdentity) (periodStart : UnixTimestamp)
  | admitAccountRequest (identity : IngressIdentity) (periodStart : UnixTimestamp)
  | circuitBreakerAllow (key : Str)
  | circuitBreakerRecord (key : Str) (success : Bool)
  | tryAcquireTunnel (identity : IngressIdentity)
  | openCustomerDataSession (identity : IngressIdentity) (periodStart : UnixTimestamp)
  | acquireActiveTunnelPermit
  | acquireCircuitPermit
  | dropCircuitPermit
  | isolationIdCounter
  | connectWithRetry (target : TorAddr) (isolation : ResolvedIsolation)
  | allow (requested : ℕ)
  | writeTor (data : Bytes)
  | flushTor
  | recordTransferred (direction : CustomerDataDirection) (bytes : ℕ)
  | checkpointCustomerDataSession
  | copyBidirectional (limited : Bool)
  | connectInternalProxy
  | localAddr
  | registerDownstream (address : SocketAddr) (context : AuthenticatedRequestContext)
  | writePingora (data : Bytes)
  | downstreamContext (address : SocketAddr)
  | respondError (status : ℕ)
  | issueBridgeIdentity (scope : AccountRequestScope)
  | materialFor (isolation : ResolvedIsolation)
  | proxyUpstream
  | resolveBridgeIdentity (token : Str)

/-- The answers to a call. -/
abbrev Call.Result : Call → Type
  | .tlsClientFingerprint => Except String CertificateFingerprint
  | .read capacity _ => Except ReadError {chunk : Bytes // chunk.length ≤ capacity}
  | .authenticateAccount .. => Except RuntimeAuthenticationError IngressIdentity
  | .checkRequestRate _ | .tryAcquireTunnel _ => Except AdmissionError Unit
  | .periodStart => Except AccountManagementError UnixTimestamp
  | .ensureCustomerDataAvailable .. | .openCustomerDataSession .. =>
    Except RuntimeCustomerDataAdmissionError Unit
  | .admitAccountRequest .. => Except RuntimeUsageAdmissionError Unit
  | .circuitBreakerAllow _ => Bool
  | .acquireActiveTunnelPermit | .acquireCircuitPermit => PermitResult
  | .isolationIdCounter => ℕ
  | .connectWithRetry .. => Except ConnectFailure Unit
  | .allow _ => Except CustomerDataAdmissionError CustomerDataAllowance
  | .localAddr => Except String SocketAddr
  | .registerDownstream .. => Except String AuthenticatedDownstreamGuard
  | .downstreamContext _ => Option AuthenticatedRequestContext
  | .issueBridgeIdentity _ => Except String Str
  | .materialFor _ => IsolationMaterial
  | .resolveBridgeIdentity _ => Option AccountRequestScope
  | .circuitBreakerRecord .. | .dropCircuitPermit | .recordTransferred .. | .proxyUpstream => Unit
  | .acceptBoundedTls | .write _ | .writeTor _ | .flushTor | .checkpointCustomerDataSession
  | .copyBidirectional _ | .connectInternalProxy | .writePingora _ | .respondError _ => Except String Unit

abbrev CallEvent := Event Call.Result

abbrev Handler := Prog Call.Result HandlerError

namespace Handler

def bail {α : Type} (message : String) : Handler α := Prog.fail (.error message)

/-- The `?` operator. -/
def require {α : Type} : Except String α → Handler α
  | .ok a => pure a
  | .error message => bail message

/-- The response is written whether or not the client still reads it. -/
def rejectWith {α : Type} (response : Response) (error : HandlerError) : Handler α := do
  let _ ← Prog.perform (Call.write response)
  Prog.fail error

def reject {α : Type} (response : Response) (message : String) : Handler α :=
  rejectWith response (.error message)

end Handler

open Handler Prog

/-- The libraries under the handlers. -/
structure Libraries where
  httparse : Httparse
  parseAuthority : ParseAuthority
  torAddr : Str → Except String TorAddr
  hash : KeyedHash

inductive PublicIngressRuntime
  | development | authenticatedTls
  deriving DecidableEq

section Handlers

variable (lib : Libraries)

/-! ### Reading -/

/-- The loop of `read_proxy_request`. A round reads a byte at least, so the rounds never run out. -/
def readProxyRequestLoop (timeout : Bool) : ℕ → Bytes → Handler (ParsedProxyRequest × Bytes)
  | 0, _ => bail "request headers exceed 16384 bytes"
  | rounds + 1, buffer => do
    match ← require (parseProxyRequest lib.httparse buffer) with
    | some request => pure (request, buffer)
    | none =>
      if buffer.length = MAX_CONNECT_HEADER_BYTES then bail "request headers exceed 16384 bytes"
      else
        match ← perform (Call.read (min (MAX_CONNECT_HEADER_BYTES - buffer.length) 1024) timeout) with
        | .error .elapsed => fail .elapsed
        | .error (.failed message) => bail message
        | .ok chunk =>
          if chunk.1.isEmpty then
            bail "connection closed before a complete HTTP request was received"
          else readProxyRequestLoop timeout rounds (buffer ++ chunk.1)

def readProxyRequest (timeout : Bool) : Handler (ParsedProxyRequest × Bytes) :=
  readProxyRequestLoop lib timeout (MAX_CONNECT_HEADER_BYTES + 1) []

def readConnectRequest : Handler (Str × IsolationRequest × Option Str × Bytes) := do
  let (request, buffer) ← readProxyRequest lib false
  if eqIgnoreAsciiCase request.method "CONNECT".toList then
    match request.destination with
    | none => bail "called unwrap on a None value"
    | some destination =>
      pure (destination, request.isolation, request.internalIdentity, buffer.drop request.headerLen)
  else bail "expected CONNECT request"

/-! ### Tunnels -/

def parseConnectDestination (destination : Str) : Except String TorAddr := do
  let authority ← (lib.parseAuthority destination).mapError ("invalid CONNECT authority: " ++ ·)
  if (authority.portU16.filter (· ≠ 0)).isNone then throw "CONNECT destination requires a non-zero port"
  if authority.host.isEmpty then throw "CONNECT destination requires a host"
  (lib.torAddr destination).mapError ("invalid CONNECT destination: " ++ ·)

/-- The checks on the destination; the target and the key of the breaker. -/
def checkDestination (dest : Str) : Handler (TorAddr × Str) := do
  match parseConnectDestination lib dest with
  | .error message => reject .badRequest message
  | .ok target =>
    let breakerKey ← require (canonicalConnectDestinationKey lib.parseAuthority dest)
    match connectDestinationAllowed lib.parseAuthority dest with
    | .error message => reject .badRequest message
    | .ok false => reject .forbidden "CONNECT destination rejected by local policy"
    | .ok true => pure (target, breakerKey)

def acquireAccountTunnelGuard : Option AccountRequestScope → Handler Unit
  | none => pure ()
  | some scope => do
    match ← perform (Call.tryAcquireTunnel scope.identity) with
    | .ok _ => pure ()
    | .error (.tunnelLimitReached _) => reject .rateLimited "account concurrent tunnel limit reached"
    | .error _ => reject .serviceUnavailable "account tunnel admission failed"

def openAccountDataSession : Option AccountRequestScope → Handler Unit
  | none => pure ()
  | some scope => do
    match ← perform (Call.openCustomerDataSession scope.identity scope.periodStart) with
    | .ok _ => pure ()
    | .error (.customer (.limitReached _)) => reject .quotaExceeded "customer period data limit reached"
    | .error (.customer _) => reject .serviceUnavailable "customer data admission failed"
    | .error .worker => reject .serviceUnavailable "customer data admission worker failed"

def acquireActiveTunnelPermit : Handler Unit := do
  match ← perform Call.acquireActiveTunnelPermit with
  | .acquired => pure ()
  | .closed => bail "active tunnel semaphore closed"
  | .elapsed => reject .circuitCapacity "active tunnel capacity exceeded"

def acquireCircuitPermit : Handler Unit := do
  match ← perform Call.acquireCircuitPermit with
  | .acquired => pure ()
  | .closed => reject .circuitCapacity "circuit admission semaphore closed"
  | .elapsed => reject .circuitCapacity "circuit capacity exceeded, request timed out waiting for a slot"

/-- How much of the buffered bytes may go out. Without a session nothing is limited. -/
def bufferedAllowance : Bool → ℕ → Handler CustomerDataAllowance
  | false, requested => pure ⟨requested, false⟩
  | true, requested => do
    match ← perform (Call.allow requested) with
    | .ok allowance => pure allowance
    | .error (.limitReached _) => bail "customer period data limit reached"
    | .error _ => bail "customer data admission failed"

def recordSent : Bool → ℕ → Handler Unit
  | false, _ => pure ()
  | true, bytes => perform (Call.recordTransferred .toTor bytes)

/-- The allowance is used up: what was sent is written back before the tunnel ends. -/
def endExhausted : Bool → Handler Unit
  | false => bail "customer period data limit reached"
  | true => do
    require (← perform Call.checkpointCustomerDataSession)
    bail "customer period data limit reached"

/-- The bytes that came along with the CONNECT head. -/
def sendBuffered (limited : Bool) (data : Bytes) : Handler Unit :=
  if data.isEmpty then pure ()
  else do
    let allowance ← bufferedAllowance limited data.length
    require (← perform (Call.writeTor (data.take allowance.bytes)))
    require (← perform Call.flushTor)
    recordSent limited allowance.bytes
    if allowance.exhausted then endExhausted limited else pure ()

/-- After `connect_with_retry`, for better or worse. -/
def finishConnect (breakerKey : Str) (limited : Bool) (data : Bytes) : Except ConnectFailure Unit → Handler Unit
  | .ok _ => do
    perform (Call.circuitBreakerRecord breakerKey true)
    require (← perform (Call.write .connectionEstablished))
    sendBuffered limited data
    require (← perform (Call.copyBidirectional limited))
  | .error .timeout => do
    perform (Call.circuitBreakerRecord breakerKey false)
    require (← perform (Call.write .gatewayTimeout))
    bail "Tor connection establishment timed out"
  | .error .tor => do
    perform (Call.circuitBreakerRecord breakerKey false)
    require (← perform (Call.write .badGateway))
    bail "Tor connection failed"

/-- A CONNECT of the public listener is named by the tenant's hasher, one of the inner hop by what it
carries. -/
def connectIsolation (countAsPublicRequest : Bool) (accountScope : Option AccountRequestScope) (breakerKey : Str)
    (isolationRequest : IsolationRequest) (idCounter : ℕ) : ResolvedIsolation :=
  match accountScope, countAsPublicRequest with
  | some scope, true =>
    (TenantIsolationHasher.resolve lib.hash scope.identity breakerKey isolationRequest idCounter).1
  | _, _ => (resolveIsolation isolationRequest idCounter).1

def handleConnectRequest (dest : Str) (isolationRequest : IsolationRequest) (bufferedTunnelData : Bytes)
    (countAsPublicRequest : Bool) (accountScope : Option AccountRequestScope) : Handler Unit := do
  let (target, breakerKey) ← checkDestination lib dest
  if ← perform (Call.circuitBreakerAllow breakerKey) then
    acquireAccountTunnelGuard accountScope
    openAccountDataSession accountScope
    acquireActiveTunnelPermit
    let idCounter ← perform Call.isolationIdCounter
    let isolation := connectIsolation lib countAsPublicRequest accountScope breakerKey isolationRequest idCounter
    acquireCircuitPermit
    let connectResult ← perform (Call.connectWithRetry target isolation)
    perform Call.dropCircuitPermit
    finishConnect breakerKey accountScope.isSome bufferedTunnelData connectResult
  else reject .circuitCapacity "destination circuit breaker is open"

/-! ### The public listener -/

def authenticateIngress (proxyAuthorization : Str) (fingerprint : CertificateFingerprint) :
    Handler IngressIdentity := do
  match ← perform (Call.authenticateAccount proxyAuthorization fingerprint) with
  | .ok identity => pure identity
  | .error (.account (.invalidAuthorization _)) | .error (.account .invalidApiKey)
  | .error (.account .apiKeyRevoked) => reject .proxyAuthRequired "proxy authorization was rejected"
  | .error (.account (.storage _)) =>
    reject .serviceUnavailable "account authentication service is unavailable"
  | .error (.account _) => reject .forbidden "authenticated account or device is not permitted"
  | .error .worker => reject .serviceUnavailable "account authentication worker failed"

def requireRequestRate (identity : IngressIdentity) : Handler Unit := do
  match ← perform (Call.checkRequestRate identity) with
  | .ok _ => pure ()
  | .error (.rateLimited _) => reject .rateLimited "account request admission failed"
  | .error _ => reject .serviceUnavailable "account request admission failed"

def currentPeriodStart : Handler UnixTimestamp := do
  match ← perform Call.periodStart with
  | .ok periodStart => pure periodStart
  | .error source => rejectWith .serviceUnavailable (.account source)

def requireCustomerData (identity : IngressIdentity) (periodStart : UnixTimestamp) : Handler Unit := do
  match ← perform (Call.ensureCustomerDataAvailable identity periodStart) with
  | .ok _ => pure ()
  | .error (.customer (.limitReached _)) => reject .quotaExceeded "customer period data limit reached"
  | .error (.customer _) => reject .serviceUnavailable "customer data admission failed"
  | .error .worker => reject .serviceUnavailable "customer data admission worker failed"

def requireQuota (identity : IngressIdentity) (periodStart : UnixTimestamp) : Handler Unit := do
  match ← perform (Call.admitAccountRequest identity periodStart) with
  | .ok _ => pure ()
  | .error (.account (.quota _)) => reject .quotaExceeded "account period quota reached"
  | .error (.account (.storage _)) =>
    reject .serviceUnavailable "account usage admission service is unavailable"
  | .error .worker => reject .serviceUnavailable "account usage admission worker failed"

/-- The gates between the head of a public request and anything done for it. -/
def admitPublicRequest (request : ParsedProxyRequest) (fingerprint : CertificateFingerprint) :
    Handler AccountRequestScope := do
  match request.proxyAuthorization with
  | none => reject .proxyAuthRequired "proxy authorization is required"
  | some proxyAuthorization =>
    let identity ← authenticateIngress proxyAuthorization fingerprint
    requireRequestRate identity
    let periodStart ← currentPeriodStart
    requireCustomerData identity periodStart
    requireQuota identity periodStart
    pure ⟨identity, periodStart⟩

def publicAccountScope (request : ParsedProxyRequest) :
    Option CertificateFingerprint → Handler (Option AccountRequestScope)
  | none => pure none
  | some fingerprint => do pure (some (← admitPublicRequest request fingerprint))

/-- The way of a request that is not a CONNECT: through Pingora, with its context registered under the
address of the loopback connection. -/
def forwardToPingora (request : ParsedProxyRequest) (buffer : Bytes) (accountScope : Option AccountRequestScope) :
    Handler Unit := do
  let sanitized ← match accountScope with
    | some _ => require (stripIngressHeaders lib.httparse buffer request.headerLen)
    | none => pure buffer
  match ← perform Call.connectInternalProxy with
  | .error _ => reject .badGateway "failed to reach internal Pingora service"
  | .ok _ =>
    match accountScope with
    | some scope =>
      let address ← require (← perform Call.localAddr)
      match ← perform (Call.registerDownstream address ⟨scope, request.isolation⟩) with
      | .error message => reject .serviceUnavailable message
      | .ok _ =>
        require (← perform (Call.writePingora sanitized))
        require (← perform (Call.copyBidirectional false))
    | none =>
      require (← perform (Call.writePingora sanitized))
      require (← perform (Call.copyBidirectional false))

/-- A request whose head has been read. -/
def servePublicRequest (request : ParsedProxyRequest) (buffer : Bytes)
    (authentication : Option CertificateFingerprint) : Handler Unit := do
  if request.internalIdentity.isSome then
    reject .badRequest "public request supplied a reserved internal identity header"
  else
    let accountScope ← publicAccountScope request authentication
    if eqIgnoreAsciiCase request.method "CONNECT".toList then
      match request.destination with
      | none => bail "called unwrap on a None value"
      | some destination =>
        handleConnectRequest lib destination request.isolation (buffer.drop request.headerLen) true accountScope
    else forwardToPingora lib request buffer accountScope

def handlePublicConnection (authentication : Option CertificateFingerprint) (timeout : Bool) : Handler Unit := do
  match ← attempt (readProxyRequest lib timeout) with
  | .error .elapsed => reject .requestTimeout "first proxy request timed out"
  | .error error => rejectWith .badRequest error
  | .ok (request, buffer) => servePublicRequest lib request buffer authentication

def handlePublicTcpConnection : PublicIngressRuntime → Handler Unit
  | .development => handlePublicConnection lib none false
  | .authenticatedTls => do
    require (← perform Call.acceptBoundedTls)
    let fingerprint ← require (← perform Call.tlsClientFingerprint)
    handlePublicConnection lib (some fingerprint) true

/-! ### The inner hop -/

def internalAccountScope : PublicIngressRuntime → Option Str → Handler (Option AccountRequestScope)
  | .authenticatedTls, some token => do
    match ← perform (Call.resolveBridgeIdentity token) with
    | some scope => pure (some scope)
    | none => reject .forbidden "internal account identity lease was rejected"
  | .authenticatedTls, none =>
    reject .forbidden "authenticated internal proxy request is missing its identity lease"
  | .development, some _ =>
    reject .badRequest "development proxy request supplied an internal identity lease"
  | .development, none => pure none

def handleInternalConnect (mode : PublicIngressRuntime) : Handler Unit := do
  match ← attempt (readConnectRequest lib) with
  | .error error => rejectWith .badRequest error
  | .ok (dest, isolation, internalIdentity, bufferedTunnelData) =>
    let accountScope ← internalAccountScope mode internalIdentity
    handleConnectRequest lib dest isolation bufferedTunnelData false accountScope

/-- The context of a request with the period and the lease that `request_filter` puts into it. -/
structure LeasedRequestCtx extends RequestCtx where
  usagePeriodStart : Option UnixTimestamp
  bridgeIdentityLease : Option Str

/-- The isolation of a request and, in authenticated mode, its scope and its lease; `none` when the
request has been answered. -/
def filterIsolation (mode : PublicIngressRuntime) (clientAddr : Option SocketAddr) (header : RequestHeader) :
    Handler (Option (ResolvedIsolation × Option (AccountRequestScope × Str))) := do
  match mode with
  | .development =>
    let (isolationRequest, _) ← require
      ((takeIsolationRequest header).mapError ("invalid isolation header: " ++ ·))
    let idCounter ← perform Call.isolationIdCounter
    pure (some ((resolveIsolation isolationRequest idCounter).1, none))
  | .authenticatedTls =>
    match clientAddr with
    | none => do
      require (← perform (Call.respondError 403))
      pure none
    | some clientAddress =>
      match ← perform (Call.downstreamContext clientAddress) with
      | none => do
        require (← perform (Call.respondError 403))
        pure none
      | some context =>
        let (_, header) ← require ((takeIsolationRequest header).mapError ("invalid isolation header: " ++ ·))
        let (destination, _) ← require
          ((canonicalCacheKeyParts lib.parseAuthority header).mapError ("invalid request destination: " ++ ·))
        let lease ← require (← perform (Call.issueBridgeIdentity context.scope))
        let idCounter ← perform Call.isolationIdCounter
        pure (some ((TenantIsolationHasher.resolve lib.hash context.scope.identity destination
          context.isolation idCounter).1, some (context.scope, lease)))

def requestFilter (mode : PublicIngressRuntime) (clientAddr : Option SocketAddr) (header : RequestHeader) :
    Handler (Option LeasedRequestCtx) := do
  match ← filterIsolation lib mode clientAddr header with
  | none => pure none
  | some (isolation, authenticated) =>
    let material ← perform (Call.materialFor isolation)
    pure (some { requestContext lib.hash (authenticated.map (·.1.identity)) isolation material with
      usagePeriodStart := authenticated.map (·.1.periodStart)
      bridgeIdentityLease := authenticated.map Prod.snd })

/-! ### The tasks of the process -/

/-- Where a task comes from: a connection of one of the listeners, or a request inside Pingora. -/
inductive TaskOrigin
  | publicConnection
  | internalConnection
  | downstreamRequest (clientAddr : Option SocketAddr) (header : RequestHeader)

/-- A request inside Pingora keeps its context, and with it its lease, until it has been served. -/
def TaskOrigin.program (mode : PublicIngressRuntime) : TaskOrigin → Handler Unit
  | .publicConnection => handlePublicTcpConnection lib mode
  | .internalConnection => handleInternalConnect lib mode
  | .downstreamRequest clientAddr header => do
    match ← requestFilter lib mode clientAddr header with
    | none => pure ()
    | some _ => perform Call.proxyUpstream

end Handlers

/-- What a task owns and gives back when it is dropped. -/
inductive Resource
  | accountTunnelGuard (identity : IngressIdentity)
  | customerDataSession (identity : IngressIdentity) (periodStart : UnixTimestamp)
  | activeTunnelPermit
  | circuitPermit
  | downstreamGuard (guard : AuthenticatedDownstreamGuard) (context : AuthenticatedRequestContext)
  | bridgeIdentityLease (token : Str) (scope : AccountRequestScope)
  deriving DecidableEq

def acquired : CallEvent → List Resource
  | ⟨.tryAcquireTunnel identity, .ok _⟩ => [.accountTunnelGuard identity]
  | ⟨.openCustomerDataSession identity periodStart, .ok _⟩ => [.customerDataSession identity periodStart]
  | ⟨.acquireActiveTunnelPermit, .acquired⟩ => [.activeTunnelPermit]
  | ⟨.acquireCircuitPermit, .acquired⟩ => [.circuitPermit]
  | ⟨.registerDownstream _ context, .ok guard⟩ => [.downstreamGuard guard context]
  | ⟨.issueBridgeIdentity scope, .ok token⟩ => [.bridgeIdentityLease token scope]
  | _ => []

/-- What a running task holds after its calls. Only the circuit permit is dropped early. -/
def held : List CallEvent → List Resource
  | [] => []
  | ⟨.dropCircuitPermit, _⟩ :: history => (held history).erase .circuitPermit
  | event :: history => acquired event ++ held history

/-- `rest` is what a running task still has to do. -/
structure Task where
  origin : TaskOrigin
  history : List CallEvent
  rest : Option (Handler Unit)

structure PipelineSystem where
  downstream : DownstreamSystem
  leases : LeaseSystem
  tasks : List Task

inductive PipelineAct
  | start | call | finish

namespace PipelineSystem

def init (downstreamCapacity leaseCapacity : ℕ) : PipelineSystem :=
  ⟨.new downstreamCapacity, .new leaseCapacity, []⟩

/-- The answers a call can get, and the registries after it. -/
def Answers (s : PipelineSystem) : (c : Call) → c.Result → DownstreamSystem → LeaseSystem → Prop
  | .registerDownstream address context, answer, downstream, leases =>
    answer = (s.downstream.store.register address context).1 ∧
      downstream = s.downstream.register address context ∧ leases = s.leases
  | .downstreamContext address, answer, downstream, leases =>
    answer = s.downstream.store.context address ∧ downstream = s.downstream ∧ leases = s.leases
  | .issueBridgeIdentity scope, answer, downstream, leases =>
    ∃ draws, answer = (s.leases.registry.issue scope draws).1 ∧ downstream = s.downstream ∧
      leases = s.leases.issue scope draws
  | .resolveBridgeIdentity token, answer, downstream, leases =>
    answer = s.leases.registry.resolve token ∧ downstream = s.downstream ∧ leases = s.leases
  | .read _ timeout, answer, downstream, leases =>
    (answer = .error .elapsed → timeout = true) ∧ downstream = s.downstream ∧ leases = s.leases
  | _, _, downstream, leases => downstream = s.downstream ∧ leases = s.leases

/-- Dropping a guard or a lease of the registries; the other resources belong to the services. -/
def release (s : PipelineSystem) : Resource → PipelineSystem
  | .downstreamGuard guard context => { s with downstream := s.downstream.drop guard context }
  | .bridgeIdentityLease token scope => { s with leases := s.leases.drop token scope }
  | _ => s

/-- A task makes its next call, or ends and drops what it holds: when its program is done, or when it
is cancelled. -/
inductive Step (lib : Libraries) (mode : PublicIngressRuntime) (s : PipelineSystem) :
    PipelineAct → PipelineSystem → Prop
  | start (origin : TaskOrigin) :
      Step lib mode s .start { s with tasks := ⟨origin, [], some (origin.program lib mode)⟩ :: s.tasks }
  | call {before after : List Task} {task : Task} {c : Call} {next : c.Result → Handler Unit}
      {downstream : DownstreamSystem} {leases : LeaseSystem} (answer : c.Result)
      (htasks : s.tasks = before ++ task :: after) (hrest : task.rest = some (.call c next))
      (hanswer : s.Answers c answer downstream leases) :
      Step lib mode s .call ⟨downstream, leases,
        before ++ ⟨task.origin, ⟨c, answer⟩ :: task.history, some (next answer)⟩ :: after⟩
  | finish {before after : List Task} {task : Task} {program : Handler Unit}
      (htasks : s.tasks = before ++ task :: after) (hrest : task.rest = some program) :
      Step lib mode s .finish { (held task.history).foldl release s with
        tasks := before ++ ⟨task.origin, task.history, none⟩ :: after }

end PipelineSystem

end Cobra
