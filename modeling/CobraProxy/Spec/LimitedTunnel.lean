import CobraProxy.Spec.Checkpoints
import CobraProxy.Spec.Copy

/-! A tunnel with a session, from its connection to Tor on: the bytes that came with the CONNECT head, then the loop of
`copy_bidirectional_with_customer_data_limit`. The loop polls the copy only while it selects, so nothing is copied
while it awaits a checkpoint. Which of its branches is ready, and when, is left open. -/

namespace Cobra

open DataSystem

/-- How the tunnel ends, when it is not aborted. -/
inductive TunnelExit
  | copied (toTor fromTor : ℕ)
  | copyFailed (error : CopyError)
  | timedOut
  | checkpointFailed
  deriving DecidableEq

inductive TunnelPoint
  | buffered
  | selecting
  /-- With what the tunnel returns after the checkpoint, or with nothing when it goes on. -/
  | checkpointing (next : Option TunnelExit)
  | returned (exit : TunnelExit)
  deriving DecidableEq

structure LimitedTunnel where
  tunnel : Tunnel
  point : TunnelPoint

inductive LimitedAct
  | buffered | copy | copied | due | idle | checkpoint
  deriving DecidableEq

namespace LimitedTunnel

def opened (identity : IngressIdentity) (periodStart : UnixTimestamp) (limit state : ℕ) : LimitedTunnel :=
  ⟨.opened identity periodStart limit state, .buffered⟩

/-- What the copy future can be ready with: `try_join` waits for both directions, or for one error. -/
inductive CopyReady (t : Tunnel) : TunnelExit → Prop
  | copied (toTor fromTor : ℕ) (h : ∀ d, t.copying d = .closed) : CopyReady t (.copied toTor fromTor)
  | copyFailed (d : CustomerDataDirection) (error : CopyError) (h : t.copying d = .closed) :
      CopyReady t (.copyFailed error)

/-- What the tunnel does next, in the system around it. -/
inductive StepIn (s : DataSystem) : LimitedTunnel → LimitedAct → DataSystem → LimitedTunnel → Prop
  | noBuffered {t : Tunnel} : StepIn s ⟨t, .buffered⟩ .buffered s ⟨t, .selecting⟩
  -- `allow`, the write and the flush
  | buffered {t t' : Tunnel} {s' : DataSystem} (h : TunnelStep s t s' t') (hsession : t'.session = t.session)
      (hcheckpoint : t'.checkpoint = t.checkpoint) : StepIn s ⟨t, .buffered⟩ .buffered s' ⟨t', .buffered⟩
  | bufferedFailed {t : Tunnel} (error : CopyError) :
      StepIn s ⟨t, .buffered⟩ .buffered s ⟨t, .returned (.copyFailed error)⟩
  | bufferedRecorded {t : Tunnel} {allowance : CustomerDataAllowance}
      (h : t.copying .toTor = .writing allowance allowance.bytes) :
      StepIn s ⟨t, .buffered⟩ .buffered s
        ⟨{ t with session := t.session.recordTransferred .toTor allowance.bytes }.go .toTor
            (if allowance.exhausted then .closed else .reading),
          if allowance.exhausted then .checkpointing (some (.copyFailed .customerDataLimit)) else .selecting⟩
  | copy {t t' : Tunnel} {s' : DataSystem} (h : TunnelStep s t s' t') (hcheckpoint : t'.checkpoint = t.checkpoint) :
      StepIn s ⟨t, .selecting⟩ .copy s' ⟨t', .selecting⟩
  -- what is left of the copy is dropped with it
  | copied {t : Tunnel} {exit : TunnelExit} (h : CopyReady t exit) :
      StepIn s ⟨t, .selecting⟩ .copied s ⟨{ t with copying := fun _ => .closed }, .checkpointing (some exit)⟩
  -- the interval ticks, or what was copied is due to be persisted
  | due {t : Tunnel} : StepIn s ⟨t, .selecting⟩ .due s ⟨t, .checkpointing none⟩
  | idle {t : Tunnel} : StepIn s ⟨t, .selecting⟩ .idle s ⟨t, .checkpointing (some .timedOut)⟩
  | checkpoint {t t' : Tunnel} {s' : DataSystem} {next : Option TunnelExit} (h : TunnelStep s t s' t')
      (hstep : t'.checkpoint ≠ t.checkpoint) (hbusy : t'.checkpoint ≠ .idle) :
      StepIn s ⟨t, .checkpointing next⟩ .checkpoint s' ⟨t', .checkpointing next⟩
  | checkpointed {t t' : Tunnel} {next : Option TunnelExit} (h : t.Returns true t') :
      StepIn s ⟨t, .checkpointing next⟩ .checkpoint s ⟨t', next.elim .selecting .returned⟩
  | checkpointFailed {t t' : Tunnel} {next : Option TunnelExit} (h : t.Returns false t') :
      StepIn s ⟨t, .checkpointing next⟩ .checkpoint s ⟨t', .returned .checkpointFailed⟩

/-- A step in whatever the system around the tunnel has become. -/
def Step (t : LimitedTunnel) (act : LimitedAct) (t' : LimitedTunnel) : Prop := ∃ s s', StepIn s t act s' t'

end LimitedTunnel

/-- The tunnel in one system, which goes on between the tunnel's steps. -/
structure LimitedSystem where
  data : DataSystem
  limited : LimitedTunnel

/-- With the act of the tunnel, or none where another part of the system has a step. -/
inductive LimitedSystem.Step (s : LimitedSystem) : Option LimitedAct → LimitedSystem → Prop
  | own {act : LimitedAct} {data : DataSystem} {limited : LimitedTunnel}
      (h : LimitedTunnel.StepIn s.data s.limited act data limited) : Step s (some act) ⟨data, limited⟩
  | other {act : DataAct} {data : DataSystem} (h : DataSystem.Step s.data act data) : Step s none { s with data }

end Cobra
