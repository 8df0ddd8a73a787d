import CobraProxy.Lib.Permits
import CobraProxy.Spec.Drain

/-! The connections of the bridge and what they share: the two connection semaphores, the permits for handshakes,
tunnels and circuit builds, and the counters of `CircuitMetrics` that follow them. A connection goes through the stages
below one atomic operation at a time. At every await it may also end: by an error, a timeout or an abort, when its
guards are dropped in turn. No semaphore is ever closed. Tokio's semaphore is a parameter, `sem`. -/

namespace Cobra

open Semaphores
open scoped UInt64.CommRing

def MAX_CONCURRENT_CIRCUIT_BUILDS : ℕ := 32

def MAX_ACTIVE_TUNNELS : ℕ := 256

def MAX_CONNECTION_TASKS : ℕ := 512

/-- The most permits a semaphore can have: `Semaphore::new` panics above it. -/
def Semaphore.MAX_PERMITS : ℕ := 2 ^ 61 - 1

inductive BridgeSemaphore
  | publicConnection | internalConnection | handshake | tunnel | circuit
  deriving DecidableEq

inductive BridgeCounter
  | queuedTunnels | activeTunnels | completedTunnels | rejectedTunnels | queuedCircuitBuilds | acquireTimeouts
  deriving DecidableEq

/-- How a wait for a permit came out; `aborted` is the end of the task around it. -/
inductive Waited
  | granted | elapsed | aborted
  deriving DecidableEq

/-- How far a connection got. -/
inductive ConnectionEnd
  | served | rejected
  | tunnel (acquireTimeout : Bool)
  deriving DecidableEq

inductive ConnectionStage
  | accepting | refusing | accepted | handshaking | serving
  -- `acquire_active_tunnel_permit`, inside and behind the block with the queue guard
  | enteringTunnelQueue | inTunnelQueue
  | leavingTunnelQueue (waited : Waited)
  | rejectingTunnel | tunnelGranted
  | tunnel
  -- `acquire_circuit_permit`
  | enteringCircuitQueue | inCircuitQueue
  | leavingCircuitQueue (waited : Waited)
  | circuitElapsed
  | building | copying
  -- `ActiveTunnelPermit::drop`, and the permit inside it
  | closingTunnel (acquireTimeout : Bool)
  | tunnelClosed (acquireTimeout : Bool)
  | tunnelCompleted (acquireTimeout : Bool)
  | ending (how : ConnectionEnd)
  | ended (how : ConnectionEnd)
  deriving DecidableEq

/-- The listener that accepts a connection. -/
inductive Listener
  | internal | «public»
  deriving DecidableEq

def Listener.semaphore : Listener → BridgeSemaphore
  | .internal => .internalConnection
  | .public => .publicConnection

abbrev Connection := Listener × ConnectionStage

abbrev ConnectionOp := TaskOp BridgeSemaphore BridgeCounter

/-- What a connection does next. With `tls` the public ingress is `PublicIngressRuntime::AuthenticatedTls`. -/
inductive ConnectionNext (tls : Bool) : Connection → ConnectionOp → Connection → Prop
  | accept (l : Listener) : ConnectionNext tls (l, .accepting) (.tryAcquire l.semaphore) (l, .accepted)
  | full (l : Listener) : ConnectionNext tls (l, .accepting) (.unavailable l.semaphore) (l, .refusing)
  | refuse (l : Listener) : ConnectionNext tls (l, .refusing) (.add .rejectedTunnels) (l, .ended .rejected)
  | serve (l : Listener) (h : l = .internal ∨ tls = false) : ConnectionNext tls (l, .accepted) .idle (l, .serving)
  -- the task is aborted before it has run
  | abandon (l : Listener) : ConnectionNext tls (l, .accepted) .idle (l, .ending .served)
  -- `accept_bounded_tls`
  | handshake (h : tls = true) :
      ConnectionNext tls (.public, .accepted) (.tryAcquire .handshake) (.public, .handshaking)
  | handshakeCapacity (h : tls = true) :
      ConnectionNext tls (.public, .accepted) (.unavailable .handshake) (.public, .ending .served)
  | handshaken : ConnectionNext tls (.public, .handshaking) (.release .handshake) (.public, .serving)
  | handshakeFailed : ConnectionNext tls (.public, .handshaking) (.release .handshake) (.public, .ending .served)
  | finish (l : Listener) : ConnectionNext tls (l, .serving) .idle (l, .ending .served)
  | enterTunnelQueue (l : Listener) :
      ConnectionNext tls (l, .serving) (.add .queuedTunnels) (l, .enteringTunnelQueue)
  | requestTunnel (l : Listener) :
      ConnectionNext tls (l, .enteringTunnelQueue) (.request .tunnel) (l, .inTunnelQueue)
  | tunnelGranted (l : Listener) :
      ConnectionNext tls (l, .inTunnelQueue) (.settle .tunnel) (l, .leavingTunnelQueue .granted)
  | tunnelElapsed (l : Listener) :
      ConnectionNext tls (l, .inTunnelQueue) (.leave .tunnel) (l, .leavingTunnelQueue .elapsed)
  | tunnelWaitAborted (l : Listener) :
      ConnectionNext tls (l, .inTunnelQueue) (.leave .tunnel) (l, .leavingTunnelQueue .aborted)
  | tunnelGrantAborted (l : Listener) :
      ConnectionNext tls (l, .inTunnelQueue) (.release .tunnel) (l, .leavingTunnelQueue .aborted)
  | leaveTunnelQueue (l : Listener) :
      ConnectionNext tls (l, .leavingTunnelQueue .granted) (.sub .queuedTunnels) (l, .tunnelGranted)
  | leaveTunnelQueueElapsed (l : Listener) :
      ConnectionNext tls (l, .leavingTunnelQueue .elapsed) (.sub .queuedTunnels) (l, .rejectingTunnel)
  | leaveTunnelQueueAborted (l : Listener) :
      ConnectionNext tls (l, .leavingTunnelQueue .aborted) (.sub .queuedTunnels) (l, .ending .served)
  | rejectTunnel (l : Listener) :
      ConnectionNext tls (l, .rejectingTunnel) (.add .rejectedTunnels) (l, .ending .rejected)
  | activateTunnel (l : Listener) : ConnectionNext tls (l, .tunnelGranted) (.add .activeTunnels) (l, .tunnel)
  | enterCircuitQueue (l : Listener) :
      ConnectionNext tls (l, .tunnel) (.add .queuedCircuitBuilds) (l, .enteringCircuitQueue)
  | requestCircuit (l : Listener) :
      ConnectionNext tls (l, .enteringCircuitQueue) (.request .circuit) (l, .inCircuitQueue)
  | circuitGranted (l : Listener) :
      ConnectionNext tls (l, .inCircuitQueue) (.settle .circuit) (l, .leavingCircuitQueue .granted)
  | circuitElapsed (l : Listener) :
      ConnectionNext tls (l, .inCircuitQueue) (.leave .circuit) (l, .leavingCircuitQueue .elapsed)
  | circuitWaitAborted (l : Listener) :
      ConnectionNext tls (l, .inCircuitQueue) (.leave .circuit) (l, .leavingCircuitQueue .aborted)
  | circuitGrantAborted (l : Listener) :
      ConnectionNext tls (l, .inCircuitQueue) (.release .circuit) (l, .leavingCircuitQueue .aborted)
  | leaveCircuitQueue (l : Listener) :
      ConnectionNext tls (l, .leavingCircuitQueue .granted) (.sub .queuedCircuitBuilds) (l, .building)
  | leaveCircuitQueueElapsed (l : Listener) :
      ConnectionNext tls (l, .leavingCircuitQueue .elapsed) (.sub .queuedCircuitBuilds) (l, .circuitElapsed)
  | leaveCircuitQueueAborted (l : Listener) :
      ConnectionNext tls (l, .leavingCircuitQueue .aborted) (.sub .queuedCircuitBuilds) (l, .closingTunnel false)
  | countAcquireTimeout (l : Listener) :
      ConnectionNext tls (l, .circuitElapsed) (.add .acquireTimeouts) (l, .closingTunnel true)
  -- the circuit permit goes as soon as `connect_with_retry` returns
  | connected (l : Listener) : ConnectionNext tls (l, .building) (.release .circuit) (l, .copying)
  | connectFailed (l : Listener) : ConnectionNext tls (l, .building) (.release .circuit) (l, .closingTunnel false)
  | copied (l : Listener) : ConnectionNext tls (l, .copying) .idle (l, .closingTunnel false)
  | closeTunnel (l : Listener) (acquireTimeout : Bool) :
      ConnectionNext tls (l, .closingTunnel acquireTimeout) (.sub .activeTunnels) (l, .tunnelClosed acquireTimeout)
  | completeTunnel (l : Listener) (acquireTimeout : Bool) :
      ConnectionNext tls (l, .tunnelClosed acquireTimeout) (.add .completedTunnels) (l, .tunnelCompleted acquireTimeout)
  | releaseTunnel (l : Listener) (acquireTimeout : Bool) :
      ConnectionNext tls (l, .tunnelCompleted acquireTimeout) (.release .tunnel) (l, .ending (.tunnel acquireTimeout))
  | ended (l : Listener) (how : ConnectionEnd) :
      ConnectionNext tls (l, .ending how) (.release l.semaphore) (l, .ended how)

/-- Where a connection starts. -/
def ConnectionStarts (c : Connection) : Prop := c.2 = .accepting

abbrev BridgeSystem (S : Type) := TaskSystem Connection BridgeSemaphore BridgeCounter UInt64 S

namespace BridgeSystem

variable {S : Type} (sem : Semaphore S)

def permits (maxClientConnections maxConcurrentHandshakes : ℕ) : BridgeSemaphore → ℕ
  | .publicConnection => maxClientConnections
  | .internalConnection => MAX_CONNECTION_TASKS
  | .handshake => maxConcurrentHandshakes
  | .tunnel => MAX_ACTIVE_TUNNELS
  | .circuit => MAX_CONCURRENT_CIRCUIT_BUILDS

/-- `Bridge::new` with the handshake semaphore of the ingress. -/
def new (maxClientConnections maxConcurrentHandshakes : ℕ) : Option (BridgeSystem S) :=
  if maxClientConnections ≤ Semaphore.MAX_PERMITS ∧ maxConcurrentHandshakes ≤ Semaphore.MAX_PERMITS then
    some
      { semaphores := fun r => sem.new (permits maxClientConnections maxConcurrentHandshakes r)
        gauges := fun _ => 0
        tasks := [] }
  else none

abbrev Step (tls : Bool) : BridgeSystem S → TaskAct BridgeSemaphore BridgeCounter → BridgeSystem S → Prop :=
  TaskSystem.Step sem (ConnectionNext tls) ConnectionStarts

end BridgeSystem

end Cobra
