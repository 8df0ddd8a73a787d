import CobraProxy.Spec.Pipeline

/-! The hop from Pingora to the bridge: the headers that `upstream_peer` gives to the CONNECT of an upstream
connection, and how the bridge isolates the streams that it opens for it. -/

namespace Cobra

open Text

/-- The headers of the peer's proxy, in the order of the map that holds them. -/
def upstreamProxyHeaders (ctx : LeasedRequestCtx) : List (Str × Bytes) :=
  (ctx.bridgeIdentityLease.map fun token => (INTERNAL_IDENTITY_HEADER, utf8 token)).toList ++
    [(ISOLATION_HEADER, utf8 ctx.isolationIdentity),
      (ISOLATION_MODE_HEADER, utf8 (if ctx.strictIsolation then "strict".toList else "session".toList))]

/-- The isolation among the preferences of a stream. -/
inductive StreamIsolation
  | everyStream
  | token (token : ℕ)
  deriving DecidableEq

/-- The preferences of an attempt of `connect_with_retry`. -/
def streamIsolation (materialFor : Str → IsolationMaterial) (isolation : ResolvedIsolation) : StreamIsolation :=
  if isolation.strict then .everyStream else .token (materialFor isolation.identity).token

end Cobra
