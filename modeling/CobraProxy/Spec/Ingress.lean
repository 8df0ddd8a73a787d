import CobraProxy.Spec.Destination
import CobraProxy.Spec.Registries

/-! The head of a proxy request: what the listeners read of it, what they strip from it before it is
handed to Pingora, and the isolation headers of a request inside Pingora. Reading an HTTP/1 head is
the httparse crate's and is a parameter, `httparse`. -/

namespace Cobra

open Text

def MAX_CONNECT_HEADER_BYTES : ℕ := 16 * 1024

def ISOLATION_HEADER : Str := "X-Proxy-Isolation".toList

def ISOLATION_MODE_HEADER : Str := "X-Proxy-Isolation-Mode".toList

def PROXY_AUTHORIZATION_HEADER : Str := "Proxy-Authorization".toList

def INTERNAL_IDENTITY_HEADER : Str := "X-Proxy-Authenticated-Lease".toList

def MAX_ISOLATION_ID_BYTES : ℕ := 64

/-- What `httparse::Request::parse` leaves behind when it is complete. -/
structure HttpHead where
  headerLen : ℕ
  method : Option Str
  path : Option Str
  version : Option ℕ
  headers : List (Str × Bytes)

/-- Parsing with room for `MAX_CONNECT_HEADERS` headers; `none` is a head that is not complete yet. -/
abbrev Httparse := Bytes → Except String (Option HttpHead)

structure ParsedProxyRequest where
  method : Str
  destination : Option Str
  headerLen : ℕ
  isolation : IsolationRequest
  proxyAuthorization : Option Str
  internalIdentity : Option Str
  deriving DecidableEq

structure ParsedIngressHeaders where
  isolation : IsolationRequest
  proxyAuthorization : Option Str
  internalIdentity : Option Str

/-- `<[u8]>::to_ascii_lowercase`. -/
def lowerBytes (b : Bytes) : Bytes := b.map fun x => if 65 ≤ x ∧ x ≤ 90 then x + 32 else x

def isAsciiAlphanumericByte (x : UInt8) : Bool :=
  (48 ≤ x && x ≤ 57) || (65 ≤ x && x ≤ 90) || (97 ≤ x && x ≤ 122)

def validateIsolationIdentity (value : Bytes) : Except String Str := do
  if value.isEmpty ∨ MAX_ISOLATION_ID_BYTES < value.length then
    throw "isolation identity must contain 1-64 bytes"
  if !value.all fun x => isAsciiAlphanumericByte x || (utf8 "._~-".toList).contains x then
    throw "isolation identity contains unsupported characters"
  match fromUtf8 value with
  | some identity => return identity
  | none => throw "invalid utf-8"

def parseIsolationMode (value : Bytes) : Except String Bool :=
  if lowerBytes value = utf8 "session".toList then .ok false
  else if lowerBytes value = utf8 "strict".toList then .ok true
  else .error "isolation mode must be session or strict"

/-! ### Heads -/

/-- The local variables of the loop over the headers. -/
structure IngressHeaderLoop where
  identity : Option Str
  strict : Bool
  modeSeen : Bool
  proxyAuthorization : Option Str
  internalIdentity : Option Str

def ingressHeader (s : IngressHeaderLoop) (header : Str × Bytes) : Except String IngressHeaderLoop := do
  if eqIgnoreAsciiCase header.1 ISOLATION_HEADER then
    if s.identity.isSome then throw "duplicate isolation identity header"
    return { s with identity := some (← validateIsolationIdentity header.2) }
  else if eqIgnoreAsciiCase header.1 ISOLATION_MODE_HEADER then
    if s.modeSeen then throw "duplicate isolation mode header"
    return { s with strict := ← parseIsolationMode header.2, modeSeen := true }
  else if eqIgnoreAsciiCase header.1 PROXY_AUTHORIZATION_HEADER then
    if s.proxyAuthorization.isSome then throw "duplicate proxy authorization header"
    match fromUtf8 header.2 with
    | some value => return { s with proxyAuthorization := some value }
    | none => throw "proxy authorization is not valid UTF-8"
  else if eqIgnoreAsciiCase header.1 INTERNAL_IDENTITY_HEADER then
    if s.internalIdentity.isSome then throw "duplicate internal identity header"
    return { s with internalIdentity := some (← validateIsolationIdentity header.2) }
  else return s

def ingressHeadersFromHttparse (headers : List (Str × Bytes)) : Except String ParsedIngressHeaders := do
  let s ← headers.foldlM ingressHeader ⟨none, false, false, none, none⟩
  return ⟨⟨s.identity, s.strict⟩, s.proxyAuthorization, s.internalIdentity⟩

section Parsing

variable (httparse : Httparse)

def connectDestination (head : HttpHead) (method : Str) : Except String (Option Str) :=
  if eqIgnoreAsciiCase method "CONNECT".toList then
    match head.path.filter (fun destination => !destination.isEmpty) with
    | some destination => .ok (some destination)
    | none => .error "CONNECT request is missing a destination"
  else .ok none

def parseProxyRequest (buffer : Bytes) : Except String (Option ParsedProxyRequest) := do
  match ← (httparse buffer).mapError ("malformed HTTP request: " ++ ·) with
  | none => return none
  | some head =>
    if MAX_CONNECT_HEADER_BYTES < head.headerLen then throw "request headers exceed 16384 bytes"
    let some method := head.method.filter (fun method => !method.isEmpty)
      | throw "HTTP request is missing a method"
    let destination ← connectDestination head method
    let ingressHeaders ← ingressHeadersFromHttparse head.headers
    return some ⟨method, destination, head.headerLen, ingressHeaders.isolation,
      ingressHeaders.proxyAuthorization, ingressHeaders.internalIdentity⟩

/-- The names that `strip_ingress_headers` leaves out. -/
def isIngressHeader (name : Str) : Bool :=
  eqIgnoreAsciiCase name PROXY_AUTHORIZATION_HEADER || eqIgnoreAsciiCase name ISOLATION_HEADER ||
    eqIgnoreAsciiCase name ISOLATION_MODE_HEADER || eqIgnoreAsciiCase name INTERNAL_IDENTITY_HEADER

def stripIngressHeaders (buffer : Bytes) (headerLen : ℕ) : Except String Bytes := do
  if buffer.length < headerLen then throw "parsed header length exceeds buffered request"
  match ← (httparse (buffer.take headerLen)).mapError ("malformed HTTP request: " ++ ·) with
  | none => throw "request header unexpectedly became incomplete"
  | some head =>
    let some method := head.method | throw "HTTP request is missing a method"
    let some path := head.path | throw "HTTP request is missing a target"
    let some version := head.version | throw "HTTP request is missing a version"
    let headers := head.headers.filter fun header => !isIngressHeader header.1
    return utf8 (method ++ ' ' :: path ++ " HTTP/1.".toList ++ Nat.toDigits 10 version ++ "\r\n".toList) ++
      headers.flatMap (fun header => utf8 (header.1 ++ ": ".toList) ++ header.2 ++ utf8 "\r\n".toList) ++
      utf8 "\r\n".toList ++ buffer.drop headerLen

end Parsing

/-! ### Requests inside Pingora -/

namespace RequestHeader

def getAll (r : RequestHeader) (name : Str) : List Bytes :=
  (r.headers.filter fun h => h.1 == toAsciiLowercase name).map Prod.snd

def removeHeader (r : RequestHeader) (name : Str) : RequestHeader :=
  { r with headers := r.headers.filter fun h => h.1 != toAsciiLowercase name }

end RequestHeader

/-- The value of a header that may be given once. -/
def singleHeader {α : Type} (values : List Bytes) (parse : Bytes → Except String α) (duplicate : String) :
    Except String (Option α) := do
  match values with
  | [] => return none
  | value :: more =>
    let parsed ← parse value
    if more.isEmpty then return some parsed else throw duplicate

def takeIsolationRequest (request : RequestHeader) : Except String (IsolationRequest × RequestHeader) := do
  let identity ← singleHeader (request.getAll ISOLATION_HEADER) validateIsolationIdentity
    "duplicate isolation identity header"
  let strict ← singleHeader (request.getAll ISOLATION_MODE_HEADER) parseIsolationMode
    "duplicate isolation mode header"
  let request := (((request.removeHeader ISOLATION_HEADER).removeHeader ISOLATION_MODE_HEADER).removeHeader
    PROXY_AUTHORIZATION_HEADER).removeHeader INTERNAL_IDENTITY_HEADER
  return (⟨identity, strict.getD false⟩, request)

/-- The same on the request itself, which is changed step by step. -/
def takeIsolationRequestInPlace : ExceptT String (StateM RequestHeader) IsolationRequest := do
  let identity ← MonadExcept.ofExcept (singleHeader ((← get).getAll ISOLATION_HEADER) validateIsolationIdentity
    "duplicate isolation identity header")
  let strict ← MonadExcept.ofExcept (singleHeader ((← get).getAll ISOLATION_MODE_HEADER) parseIsolationMode
    "duplicate isolation mode header")
  modify fun request => request.removeHeader ISOLATION_HEADER
  modify fun request => request.removeHeader ISOLATION_MODE_HEADER
  modify fun request => request.removeHeader PROXY_AUTHORIZATION_HEADER
  modify fun request => request.removeHeader INTERNAL_IDENTITY_HEADER
  return ⟨identity, strict.getD false⟩

end Cobra
