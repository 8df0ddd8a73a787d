import CobraProxy.Spec.DataLimiter

/-! Sessions and what their checkpoints have stored, sessions that have ended included. -/

namespace Cobra

namespace CustomerDataSession

/-- The row that the session's checkpoints add to. -/
def scope (s : CustomerDataSession) : UsageKey := Database.usageKey s.identity s.periodStart

def persisted (s : CustomerDataSession) : ℤ × ℤ := (s.persistedToTor, s.persistedFromTor)

end CustomerDataSession

/-- Between the commit of a checkpoint and its second store. -/
def CheckpointPhase.storing : CheckpointPhase → Bool
  | .storeTo _ _ => true
  | .storeFrom _ => true
  | _ => false

structure CheckpointSystem where
  data : DataSystem
  ended : List CustomerDataSession

namespace CheckpointSystem

def init (limiter : CustomerDataLimiter) (database : Database) : CheckpointSystem := ⟨.init limiter database, []⟩

def sessions (s : CheckpointSystem) : List CustomerDataSession := s.data.tunnels.map Tunnel.session ++ s.ended

/-- What the sessions of a scope have persisted. -/
def persistedIn (s : CheckpointSystem) (key : UsageKey) : ℤ × ℤ :=
  (s.sessions.map fun session => if session.scope = key then session.persisted else 0).sum

/-- The steps of `DataSystem`; a session that is dropped is kept among the ended ones. -/
inductive Step (s : CheckpointSystem) : DataAct → CheckpointSystem → Prop
  | step {act : DataAct} {data : DataSystem} (h : DataSystem.Step s.data act data)
      (hact : ∀ key, act ≠ .finish key) : Step s act { s with data }
  | finish {t : Tunnel} (pre post : List Tunnel) (htunnels : s.data.tunnels = pre ++ t :: post)
      (h : t.checkpoint = .idle) :
      Step s (.finish t.session.key) ⟨{ s.data with tunnels := pre ++ post }, t.session :: s.ended⟩

end CheckpointSystem

/-- The steps of one tunnel. Between them the rest of the system does what it likes. -/
def Tunnel.Step (t : Tunnel) (systems : DataSystem × DataSystem) (t' : Tunnel) : Prop :=
  DataSystem.TunnelStep systems.1 t systems.2 t'

/-- How a checkpoint returns: `Ok` when there was nothing to write or after its second store, else an error. -/
inductive Tunnel.Returns (t : Tunnel) : Bool → Tunnel → Prop
  | unchanged (bytesToTor bytesFromTor : ℕ) (h : t.checkpoint = .write bytesToTor bytesFromTor)
      (hd : t.session.checkpointDelta bytesToTor bytesFromTor = .ok (0, 0)) :
      Returns t true { t with checkpoint := .idle }
  | stored (bytesFromTor : ℕ) (h : t.checkpoint = .storeFrom bytesFromTor) :
      Returns t true { t with
        session := { t.session with persistedFromTor := bytesFromTor }
        checkpoint := .idle }
  | failed (bytesToTor bytesFromTor : ℕ) (h : t.checkpoint = .write bytesToTor bytesFromTor) :
      Returns t false { t with checkpoint := .idle }

end Cobra
