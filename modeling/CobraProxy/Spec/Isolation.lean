import CobraProxy.Lib.Encoding
import CobraProxy.Lib.FiniteMap
import CobraProxy.Spec.Destination
import CobraProxy.Spec.Registries

/-! Isolation of circuits: the bounded store of isolation tokens and pool group keys, the keyed hash
that names a tenant's traffic, and the requests that obtain tokens and group keys from them on their
way through `request_filter`, `handle_connect_request` and `connect_with_retry`. -/

namespace Cobra

open Text

structure ResolvedIsolation where
  identity : Str
  strict : Bool
  deriving DecidableEq

structure IsolationMaterial where
  token : ℕ
  groupKey : UInt64
  deriving DecidableEq

/-- Instants are nanoseconds since some start. -/
structure IsolationEntry where
  material : IsolationMaterial
  lastUsed : ℕ
  expiresAt : ℕ

/-- The store beside the process-wide counters that it draws from: `IsolationToken::new` and
`ISOLATION_GROUP_COUNTER`. -/
structure IsolationStore where
  entries : Finmap fun _ : Str => IsolationEntry
  capacity : ℕ
  ttl : ℕ
  nextToken : ℕ
  groupCounter : ℕ

namespace IsolationStore

def new (capacity ttl : ℕ) : IsolationStore := ⟨∅, capacity, ttl, 1, 1⟩

/-- A new token and the next group key. -/
def draw (s : IsolationStore) : IsolationMaterial × IsolationStore :=
  (⟨s.nextToken, UInt64.ofNat s.groupCounter⟩,
    { s with nextToken := s.nextToken + 1, groupCounter := s.groupCounter + 1 })

/-- Entries that have expired are removed. -/
def retain (s : IsolationStore) (now : ℕ) : IsolationStore :=
  { s with entries := s.entries.retain fun _ entry => decide (now < entry.expiresAt) }

/-- `min_by_key(last_used)`: any entry used longest ago, or `none` in an empty map. -/
def IsOldest (s : IsolationStore) : Option Str → Prop
  | none => s.entries.keys = ∅
  | some victim => ∃ entry, s.entries.lookup victim = some entry ∧
      ∀ identity entry', s.entries.lookup identity = some entry' → entry.lastUsed ≤ entry'.lastUsed

instance (s : IsolationStore) : (oldest : Option Str) → Decidable (s.IsOldest oldest)
  | none => inferInstanceAs (Decidable (s.entries.keys = ∅))
  | some victim => decidable_of_iff (∃ entry ∈ s.entries.lookup victim, ∀ identity ∈ s.entries.keys,
      ∀ entry' ∈ s.entries.lookup identity, entry.lastUsed ≤ entry'.lastUsed)
      ⟨fun ⟨entry, hv, h⟩ => ⟨entry, hv, fun k entry' hk =>
          h k (Finmap.mem_keys.2 (Finmap.mem_iff.2 ⟨entry', hk⟩)) entry' hk⟩,
        fun ⟨entry, hv, h⟩ => ⟨entry, hv, fun k _ entry' hk => h k entry' hk⟩⟩

/-- A full store gives up its oldest entry. -/
def makeRoom (s : IsolationStore) (oldest : Option Str) : IsolationStore :=
  if s.capacity ≤ s.entries.keys.card then
    match oldest with
    | some victim => { s with entries := s.entries.erase victim }
    | none => s
  else s

def insert (s : IsolationStore) (identity : Str) (material : IsolationMaterial) (now ttl : ℕ) :
    IsolationStore :=
  { s with entries := s.entries.insert identity ⟨material, now, now + ttl⟩ }

/-- `oldest` is looked at only when the store is full after it dropped what has expired. -/
def materialForAt (s : IsolationStore) (identity : Str) (now : ℕ) (oldest : Option Str) :
    IsolationMaterial × IsolationStore :=
  let s := s.retain now
  match s.entries.lookup identity with
  | some entry => (entry.material, s.insert identity entry.material now s.ttl)
  | none =>
    let (material, s) := (s.makeRoom oldest).draw
    (material, s.insert identity material now s.ttl)

def put (s : IsolationStore) (identity : Str) (token : ℕ) (ttl : Option ℕ) (now : ℕ)
    (oldest : Option Str) : IsolationStore :=
  let s := s.retain now
  let s := if identity ∈ s.entries then s else s.makeRoom oldest
  match s.entries.lookup identity with
  | some entry => s.insert identity ⟨token, entry.material.groupKey⟩ now (ttl.getD s.ttl)
  | none =>
    { s with groupCounter := s.groupCounter + 1 }.insert identity ⟨token, UInt64.ofNat s.groupCounter⟩ now
      (ttl.getD s.ttl)

def rotate (s : IsolationStore) (identity : Str) (now : ℕ) : IsolationMaterial × IsolationStore :=
  let (material, s) := s.draw
  (material, (s.retain now).insert identity material now s.ttl)

def len (s : IsolationStore) (now : ℕ) : ℕ × IsolationStore :=
  ((s.retain now).entries.keys.card, s.retain now)

end IsolationStore

/-! ### Calls of the store -/

/-- A call of the store, or the allocation of a strict request from the counters it draws from. -/
inductive StoreCall
  | materialForAt (identity : Str)
  | put (identity : Str) (token : ℕ) (ttl : Option ℕ)
  | rotate (identity : Str)
  | len
  | strict
  deriving DecidableEq

/-- The identity a call is for. -/
def StoreCall.identity : StoreCall → Option Str
  | .materialForAt identity | .put identity _ _ | .rotate identity => some identity
  | .len | .strict => none

/-- A call with its time and the material it returned. -/
structure StoreEvent where
  call : StoreCall
  time : ℕ
  returned : Option IsolationMaterial
  deriving DecidableEq

def IsolationStore.perform (s : IsolationStore) (now : ℕ) (oldest : Option Str) :
    StoreCall → Option IsolationMaterial × IsolationStore
  | .materialForAt identity =>
    (some (s.materialForAt identity now oldest).1, (s.materialForAt identity now oldest).2)
  | .put identity token ttl => (none, s.put identity token ttl now oldest)
  | .rotate identity => (some (s.rotate identity now).1, (s.rotate identity now).2)
  | .len => (none, (s.len now).2)
  | .strict => (some s.draw.1, s.draw.2)

/-- The store and the time of its last call. -/
structure TimedStore where
  store : IsolationStore
  now : ℕ

namespace TimedStore

def init (capacity ttl now : ℕ) : TimedStore := ⟨.new capacity ttl, now⟩

/-- A call at a time that is not before the last one. -/
inductive Step (s : TimedStore) : StoreEvent → TimedStore → Prop
  | call (call : StoreCall) (time : ℕ) (oldest : Option Str) (htime : s.now ≤ time)
      (holdest : (s.store.retain time).IsOldest oldest) :
      Step s ⟨call, time, (s.store.perform time oldest call).1⟩
        ⟨(s.store.perform time oldest call).2, time⟩

end TimedStore

/-! ### Names -/

/-- Keyed BLAKE3 under the key of the process. -/
abbrev KeyedHash := Bytes → ByteVec 32

/-- The hash has no collision among these streams. -/
def CollisionFreeOn (hash : KeyedHash) (streams : List Bytes) : Prop :=
  ∀ x ∈ streams, ∀ y ∈ streams, hash x = hash y → x = y

/-- The byte stream that `TenantIsolationHasher::resolve` hashes. -/
def isolationPreimage (identity : IngressIdentity) (destination : Str) (subIdentity : Option Str)
    (strictNonce : Option ℕ) : Bytes :=
  utf8 "proxy-tenant-isolation-v1\x00".toList ++ (Encoding.word identity.accountId.raw ++
    (Encoding.word identity.workspaceId.raw ++ (Encoding.text destination ++
      (Encoding.option Encoding.text subIdentity ++ Encoding.option Encoding.word strictNonce))))

/-- `resolve`, with the value of `ISOLATION_ID_COUNTER` before and after. -/
def TenantIsolationHasher.resolve (hash : KeyedHash) (identity : IngressIdentity) (destination : Str)
    (request : IsolationRequest) (idCounter : ℕ) : ResolvedIsolation × ℕ :=
  let strictNonce := if request.strict then some idCounter else none
  let digest := hash (isolationPreimage identity destination request.identity strictNonce)
  (⟨Encoding.hex digest.1, request.strict⟩, if request.strict then idCounter + 1 else idCounter)

/-- `resolve_isolation`, for requests without an account and on the bridge's side of the inner hop. -/
def resolveIsolation (request : IsolationRequest) (idCounter : ℕ) : ResolvedIsolation × ℕ :=
  let counter := Nat.toDigits 10 idCounter
  if request.strict then (⟨"strict-".toList ++ counter, true⟩, idCounter + 1)
  else
    match request.identity with
    | some identity => (⟨identity, false⟩, idCounter)
    | none => (⟨"anonymous-".toList ++ counter, false⟩, idCounter + 1)

/-! ### Requests -/

inductive RequestPath
  | connect | http
  deriving DecidableEq

/-- An authenticated request whose isolation has been resolved. -/
structure IsolationOperation where
  id : ℕ
  path : RequestPath
  identity : IngressIdentity
  destination : Str
  request : IsolationRequest
  resolved : ResolvedIsolation
  deriving DecidableEq

/-- The shared store, the counters, the requests resolved so far and the streams that were hashed
for them, the connections of the bridge, and which request obtained which token and group key. -/
structure IsolationSystem where
  store : IsolationStore
  idCounter : ℕ
  now : ℕ
  operations : List IsolationOperation
  hashed : List Bytes
  connections : List (IsolationOperation × ResolvedIsolation)
  tokens : List (IsolationOperation × ℕ)
  groupKeys : List (IsolationOperation × UInt64)

inductive IsolationAct
  | wait | connect | http | material | bridge | stream | rotate | len

namespace IsolationSystem

def init (capacity ttl now : ℕ) : IsolationSystem := ⟨.new capacity ttl, 1, now, [], [], [], [], []⟩

/-- A request is resolved with its canonical destination. -/
def resolve (s : IsolationSystem) (hash : KeyedHash) (path : RequestPath) (identity : IngressIdentity)
    (destination : Str) (request : IsolationRequest) : IsolationSystem :=
  let (resolved, idCounter) := TenantIsolationHasher.resolve hash identity destination request s.idCounter
  { s with
    idCounter
    operations := ⟨s.operations.length, path, identity, destination, request, resolved⟩ :: s.operations
    hashed := isolationPreimage identity destination request.identity
      (if request.strict then some s.idCounter else none) :: s.hashed }

/-- The request's context in `request_filter`: new material in strict mode, else the store's. -/
def obtainMaterial (s : IsolationSystem) (operation : IsolationOperation) (oldest : Option Str) :
    IsolationSystem :=
  let (material, store) :=
    if operation.resolved.strict then s.store.draw
    else s.store.materialForAt operation.resolved.identity s.now oldest
  { s with
    store
    tokens := (operation, material.token) :: s.tokens
    groupKeys := (operation, material.groupKey) :: s.groupKeys }

/-- The request reaches the bridge: a CONNECT with its own resolution, an HTTP request with what its
upstream connection carries through the inner hop. -/
def bridge (s : IsolationSystem) (operation : IsolationOperation) : IsolationSystem :=
  let (isolation, idCounter) := match operation.path with
    | .connect => (operation.resolved, s.idCounter)
    | .http => resolveIsolation ⟨some operation.resolved.identity, operation.resolved.strict⟩ s.idCounter
  { s with idCounter, connections := (operation, isolation) :: s.connections }

/-- An attempt of `connect_with_retry`. In strict mode every stream is isolated and no token is
looked up. -/
def openStream (s : IsolationSystem) (operation : IsolationOperation) (isolation : ResolvedIsolation)
    (oldest : Option Str) : IsolationSystem :=
  if isolation.strict then s
  else
    let (material, store) := s.store.materialForAt isolation.identity s.now oldest
    { s with store, tokens := (operation, material.token) :: s.tokens }

/-- After a failed attempt in session mode. -/
def rotate (s : IsolationSystem) (isolation : ResolvedIsolation) : IsolationSystem :=
  if isolation.strict then s
  else { s with store := (s.store.rotate isolation.identity s.now).2 }

inductive Step (parseAuthority : ParseAuthority) (hash : KeyedHash) (s : IsolationSystem) :
    IsolationAct → IsolationSystem → Prop
  | wait (t : ℕ) (h : s.now ≤ t) : Step parseAuthority hash s .wait { s with now := t }
  | connect (identity : IngressIdentity) (target destination : Str) (request : IsolationRequest)
      (h : canonicalConnectDestinationKey parseAuthority target = .ok destination) :
      Step parseAuthority hash s .connect (s.resolve hash .connect identity destination request)
  | http (identity : IngressIdentity) (header : RequestHeader) (destination pathAndQuery : Str)
      (request : IsolationRequest)
      (h : canonicalCacheKeyParts parseAuthority header = .ok (destination, pathAndQuery)) :
      Step parseAuthority hash s .http (s.resolve hash .http identity destination request)
  | material (operation : IsolationOperation) (oldest : Option Str) (hmem : operation ∈ s.operations)
      (hpath : operation.path = .http) (h : (s.store.retain s.now).IsOldest oldest) :
      Step parseAuthority hash s .material (s.obtainMaterial operation oldest)
  | bridge (operation : IsolationOperation) (hmem : operation ∈ s.operations) :
      Step parseAuthority hash s .bridge (s.bridge operation)
  | stream (operation : IsolationOperation) (isolation : ResolvedIsolation) (oldest : Option Str)
      (hmem : (operation, isolation) ∈ s.connections) (h : (s.store.retain s.now).IsOldest oldest) :
      Step parseAuthority hash s .stream (s.openStream operation isolation oldest)
  | rotate (operation : IsolationOperation) (isolation : ResolvedIsolation)
      (hmem : (operation, isolation) ∈ s.connections) :
      Step parseAuthority hash s .rotate (s.rotate isolation)
  | len : Step parseAuthority hash s .len { s with store := (s.store.len s.now).2 }

end IsolationSystem

end Cobra
