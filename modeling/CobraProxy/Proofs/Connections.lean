import CobraProxy.Spec.Connections

/-! The permits and the counters of the bridge, in every interleaving of its connections. -/

namespace Cobra

open Semaphores Runs
open scoped UInt64.CommRing

namespace ConnectionStage

/-- The connection has its permit. -/
def admitted : ConnectionStage → Bool
  | accepting | refusing | ended _ => false
  | _ => true

def tunnelUse : ConnectionStage → Use
  | inTunnelQueue => .asks
  | leavingTunnelQueue .granted | tunnelGranted | tunnel | enteringCircuitQueue | inCircuitQueue
  | leavingCircuitQueue _ | circuitElapsed | building | copying | closingTunnel _ | tunnelClosed _
  | tunnelCompleted _ => .holds
  | _ => .none

def circuitUse : ConnectionStage → Use
  | inCircuitQueue => .asks
  | leavingCircuitQueue .granted | building => .holds
  | _ => .none

def queuedForTunnel : ConnectionStage → Bool
  | enteringTunnelQueue | inTunnelQueue | leavingTunnelQueue _ => true
  | _ => false

/-- From `ActiveTunnelPermit` on until its drop begins. -/
def active : ConnectionStage → Bool
  | tunnel | enteringCircuitQueue | inCircuitQueue | leavingCircuitQueue _ | circuitElapsed | building | copying
  | closingTunnel _ => true
  | _ => false

def completed : ConnectionStage → Bool
  | tunnelCompleted _ | ending (.tunnel _) | ended (.tunnel _) => true
  | _ => false

def rejected : ConnectionStage → Bool
  | ending .rejected | ended .rejected => true
  | _ => false

def queuedForCircuit : ConnectionStage → Bool
  | enteringCircuitQueue | inCircuitQueue | leavingCircuitQueue _ => true
  | _ => false

def timedOut : ConnectionStage → Bool
  | closingTunnel acquireTimeout | tunnelClosed acquireTimeout | tunnelCompleted acquireTimeout
  | ending (.tunnel acquireTimeout) | ended (.tunnel acquireTimeout) => acquireTimeout
  | _ => false

end ConnectionStage

namespace Connection

def use (c : Connection) : BridgeSemaphore → Use
  | .publicConnection => if c.1 = .public ∧ c.2.admitted then .holds else .none
  | .internalConnection => if c.1 = .internal ∧ c.2.admitted then .holds else .none
  | .handshake => if c.2 = .handshaking then .holds else .none
  | .tunnel => c.2.tunnelUse
  | .circuit => c.2.circuitUse

def counted (c : Connection) : BridgeCounter → Bool
  | .queuedTunnels => c.2.queuedForTunnel
  | .activeTunnels => c.2.active
  | .completedTunnels => c.2.completed
  | .rejectedTunnels => c.2.rejected
  | .queuedCircuitBuilds => c.2.queuedForCircuit
  | .acquireTimeouts => c.2.timedOut

attribute [local simp] use counted Listener.semaphore ConnectionStage.admitted ConnectionStage.tunnelUse
  ConnectionStage.circuitUse ConnectionStage.queuedForTunnel ConnectionStage.active ConnectionStage.completed
  ConnectionStage.rejected ConnectionStage.queuedForCircuit ConnectionStage.timedOut

end Connection

namespace BridgeSystem

variable {S : Type} {sem : Semaphore S} {maxClientConnections maxConcurrentHandshakes : ℕ} {tls : Bool}
  {s₀ s : BridgeSystem S}

/-- The connections that `p` holds of. -/
def count (s : BridgeSystem S) (p : Connection → Bool) : ℕ := s.tasks.countP fun t => p t.2

end BridgeSystem

end Cobra
