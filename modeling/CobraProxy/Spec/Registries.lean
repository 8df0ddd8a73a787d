import CobraProxy.Lib.Base64
import CobraProxy.Spec.Basic

/-! The two in-process registries of `main.rs` that carry an authenticated scope from the public
listener to the bridge: `AuthenticatedDownstreamStore` (by the address of the loopback connection)
and `BridgeIdentityRegistry` (by a random lease token). Both are a mutex around a map, so each call
is one step; a guard or lease is dropped at any later time. -/

namespace Cobra

open Text

structure IsolationRequest where
  identity : Option Str
  strict : Bool
  deriving DecidableEq

structure AccountRequestScope where
  identity : IngressIdentity
  periodStart : UnixTimestamp
  deriving DecidableEq

structure AuthenticatedRequestContext where
  scope : AccountRequestScope
  isolation : IsolationRequest
  deriving DecidableEq

/-- An address as its octets (4 or 16 of them), and a port. -/
structure SocketAddr where
  ip : Bytes
  port : UInt16
  deriving DecidableEq

/-! ### Downstream contexts -/

structure DownstreamContextEntry where
  generation : ℕ
  context : AuthenticatedRequestContext
  deriving DecidableEq

structure AuthenticatedDownstreamStore where
  entries : Finmap fun _ : SocketAddr => DownstreamContextEntry
  capacity : ℕ
  sequence : ℕ

structure AuthenticatedDownstreamGuard where
  address : SocketAddr
  generation : ℕ
  deriving DecidableEq

namespace AuthenticatedDownstreamStore

def new (capacity : ℕ) : AuthenticatedDownstreamStore := ⟨∅, capacity, 1⟩

def register (store : AuthenticatedDownstreamStore) (address : SocketAddr)
    (context : AuthenticatedRequestContext) :
    Except String AuthenticatedDownstreamGuard × AuthenticatedDownstreamStore :=
  let generation := store.sequence
  let store := { store with sequence := (store.sequence + 1) % 2 ^ 64 }
  if store.capacity ≤ store.entries.keys.card ∧ address ∉ store.entries then
    (.error "authenticated downstream store capacity reached", store)
  else
    let previous := store.entries.lookup address
    let store := { store with entries := store.entries.insert address ⟨generation, context⟩ }
    if previous.isSome then
      (.error "duplicate authenticated downstream address", store)
    else (.ok ⟨address, generation⟩, store)

def context (store : AuthenticatedDownstreamStore) (address : SocketAddr) :
    Option AuthenticatedRequestContext :=
  (store.entries.lookup address).map DownstreamContextEntry.context

def remove (store : AuthenticatedDownstreamStore) (address : SocketAddr) (generation : ℕ) :
    AuthenticatedDownstreamStore :=
  if (store.entries.lookup address).any fun entry => entry.generation = generation then
    { store with entries := store.entries.erase address }
  else store

end AuthenticatedDownstreamStore

/-- The store and the live guards, each beside the context its `register` call was given. -/
structure DownstreamSystem where
  store : AuthenticatedDownstreamStore
  live : List (AuthenticatedDownstreamGuard × AuthenticatedRequestContext)

inductive DownstreamAct
  | register (address : SocketAddr) (context : AuthenticatedRequestContext)
  | drop (guard : AuthenticatedDownstreamGuard) (context : AuthenticatedRequestContext)

namespace DownstreamSystem

def new (capacity : ℕ) : DownstreamSystem := ⟨.new capacity, []⟩

def register (s : DownstreamSystem) (address : SocketAddr) (context : AuthenticatedRequestContext) :
    DownstreamSystem :=
  match s.store.register address context with
  | (.ok guard, store) => ⟨store, (guard, context) :: s.live⟩
  | (.error _, store) => ⟨store, s.live⟩

/-- `AuthenticatedDownstreamGuard::drop`. -/
def drop (s : DownstreamSystem) (guard : AuthenticatedDownstreamGuard)
    (context : AuthenticatedRequestContext) : DownstreamSystem :=
  ⟨s.store.remove guard.address guard.generation, s.live.erase (guard, context)⟩

def Step (s : DownstreamSystem) (act : DownstreamAct) (s' : DownstreamSystem) : Prop :=
  match act with
  | .register address context => s' = s.register address context
  | .drop guard context => (guard, context) ∈ s.live ∧ s' = s.drop guard context

end DownstreamSystem

/-! ### Bridge identity leases -/

structure BridgeIdentityRegistry where
  entries : Finmap fun _ : Str => AccountRequestScope
  capacity : ℕ

/-- `URL_SAFE_NO_PAD.encode` of the 24 random bytes. -/
def leaseToken (bytes : ByteVec 24) : Str := Base64.encode Base64.urlSafe false bytes.1

namespace BridgeIdentityRegistry

def new (capacity : ℕ) : BridgeIdentityRegistry := ⟨∅, capacity⟩

/-- The `for _ in 0..4` loop of `issue`, with `attempts` rounds left; `draws` is what
`getrandom::fill` answers in the coming rounds. -/
def issueLoop (scope : AccountRequestScope) :
    ℕ → (ℕ → Option (ByteVec 24)) → BridgeIdentityRegistry →
      Except String Str × BridgeIdentityRegistry
  | 0, _, registry => (.error "failed to allocate a unique bridge identity lease", registry)
  | attempts + 1, draws, registry =>
    match draws 0 with
    | none => (.error "failed to create bridge identity lease", registry)
    | some bytes =>
      let token := leaseToken bytes
      if registry.capacity ≤ registry.entries.keys.card then
        (.error "bridge identity registry capacity reached", registry)
      else
        let previous := registry.entries.lookup token
        let registry := { registry with entries := registry.entries.insert token scope }
        if previous.isNone then (.ok token, registry)
        else issueLoop scope attempts (fun i => draws (i + 1)) registry

def issue (registry : BridgeIdentityRegistry) (scope : AccountRequestScope)
    (draws : ℕ → Option (ByteVec 24)) : Except String Str × BridgeIdentityRegistry :=
  issueLoop scope 4 draws registry

def resolve (registry : BridgeIdentityRegistry) (token : Str) : Option AccountRequestScope :=
  registry.entries.lookup token

def remove (registry : BridgeIdentityRegistry) (token : Str) : BridgeIdentityRegistry :=
  { registry with entries := registry.entries.erase token }

end BridgeIdentityRegistry

/-- The registry and the live leases: the token of each, beside the scope it was issued for. -/
structure LeaseSystem where
  registry : BridgeIdentityRegistry
  live : List (Str × AccountRequestScope)

inductive LeaseAct
  | issue (scope : AccountRequestScope) (draws : ℕ → Option (ByteVec 24))
  | drop (token : Str) (scope : AccountRequestScope)

namespace LeaseSystem

def new (capacity : ℕ) : LeaseSystem := ⟨.new capacity, []⟩

def issue (s : LeaseSystem) (scope : AccountRequestScope) (draws : ℕ → Option (ByteVec 24)) :
    LeaseSystem :=
  match s.registry.issue scope draws with
  | (.ok token, registry) => ⟨registry, (token, scope) :: s.live⟩
  | (.error _, registry) => ⟨registry, s.live⟩

/-- `BridgeIdentityLease::drop`. -/
def drop (s : LeaseSystem) (token : Str) (scope : AccountRequestScope) : LeaseSystem :=
  ⟨s.registry.remove token, s.live.erase (token, scope)⟩

def Step (s : LeaseSystem) (act : LeaseAct) (s' : LeaseSystem) : Prop :=
  match act with
  | .issue scope draws => s' = s.issue scope draws
  | .drop token scope => (token, scope) ∈ s.live ∧ s' = s.drop token scope

end LeaseSystem

end Cobra
