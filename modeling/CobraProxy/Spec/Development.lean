import CobraProxy.Spec.Ingress
import CobraProxy.Spec.Isolation

/-! Requests of the development mode, which have no account: their isolation is resolved from the headers they
carry, and their material comes from the shared store. -/

namespace Cobra

open Text

structure DevelopmentRequest where
  id : ℕ
  request : IsolationRequest
  resolved : ResolvedIsolation
  deriving DecidableEq

/-- How the request obtains its material: by an allocation of its own in strict mode, else from the store. -/
def DevelopmentRequest.call (r : DevelopmentRequest) : StoreCall :=
  if r.resolved.strict then .strict else .materialForAt r.resolved.identity

/-- `ISOLATION_ID_COUNTER`, the requests resolved so far, the store, and the material that requests obtained. -/
structure DevelopmentSystem where
  idCounter : ℕ
  requests : List DevelopmentRequest
  store : TimedStore
  obtained : List (DevelopmentRequest × IsolationMaterial)

inductive DevelopmentAct
  | resolve (request : IsolationRequest)
  | bridge (request : DevelopmentRequest)
  | obtain (request : DevelopmentRequest)
  | other (event : StoreEvent)

namespace DevelopmentSystem

def init (capacity ttl now : ℕ) : DevelopmentSystem := ⟨1, [], .init capacity ttl now, []⟩

def resolve (s : DevelopmentSystem) (request : IsolationRequest) : DevelopmentSystem :=
  let (resolved, idCounter) := resolveIsolation request s.idCounter
  { s with
    idCounter := idCounter % 2 ^ 64
    requests := ⟨s.requests.length, request, resolved⟩ :: s.requests }

/-- The upstream connection of a request carries its isolation to the bridge, which resolves it again. -/
def bridge (s : DevelopmentSystem) (r : DevelopmentRequest) : DevelopmentSystem :=
  { s with idCounter := (resolveIsolation ⟨some r.resolved.identity, r.resolved.strict⟩ s.idCounter).2 % 2 ^ 64 }

/-- An identity that a caller supplies has been validated. The other calls of the store are the rotations after
failed attempts, whose result nobody uses, and `len`. -/
inductive Step (s : DevelopmentSystem) : DevelopmentAct → DevelopmentSystem → Prop
  | resolve (request : IsolationRequest)
      (h : ∀ identity, request.identity = some identity → ∃ value, validateIsolationIdentity value = .ok identity) :
      Step s (.resolve request) (s.resolve request)
  | bridge (r : DevelopmentRequest) (hmem : r ∈ s.requests) : Step s (.bridge r) (s.bridge r)
  | obtain (r : DevelopmentRequest) (hmem : r ∈ s.requests) {time : ℕ} {material : IsolationMaterial}
      {store : TimedStore} (h : TimedStore.Step s.store ⟨r.call, time, some material⟩ store) :
      Step s (.obtain r) { s with store, obtained := (r, material) :: s.obtained }
  | other {event : StoreEvent} {store : TimedStore} (h : TimedStore.Step s.store event store)
      (hcall : event.call = .len ∨ ∃ identity, event.call = .rotate identity) :
      Step s (.other event) { s with store }

end DevelopmentSystem

end Cobra
