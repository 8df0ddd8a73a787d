import CobraProxy.Proofs.Checkpoints
import CobraProxy.Spec.LimitedTunnel

/-! A tunnel does not return before its last bytes are persisted: every way out of the loop goes through a checkpoint,
and what a checkpoint has loaded cannot grow while the loop awaits it. -/

namespace Cobra

open Runs DataSystem

/-- Everything that was transferred is persisted. -/
def CustomerDataSession.Flushed (session : CustomerDataSession) : Prop :=
  session.persistedToTor = session.bytesToTor ∧ session.persistedFromTor = session.bytesFromTor

namespace LimitedTunnel

/-- What a checkpoint has loaded is what the session has transferred. -/
def Current (session : CustomerDataSession) : CheckpointPhase → Prop
  | .idle => True
  | .loadFrom bytesToTor => bytesToTor = session.bytesToTor
  | .write bytesToTor bytesFromTor => bytesToTor = session.bytesToTor ∧ bytesFromTor = session.bytesFromTor
  | .storeTo bytesToTor bytesFromTor => bytesToTor = session.bytesToTor ∧ bytesFromTor = session.bytesFromTor
  | .storeFrom bytesFromTor => session.persistedToTor = session.bytesToTor ∧ bytesFromTor = session.bytesFromTor

/-- What is true at each point of the tunnel. -/
def Persists (s : LimitedTunnel) : Prop :=
  match s.point with
  | .buffered => s.tunnel.checkpoint = .idle ∧ s.tunnel.session.Flushed
  | .selecting => s.tunnel.checkpoint = .idle
  | .checkpointing _ => Current s.tunnel.session s.tunnel.checkpoint
  | .returned exit => exit ≠ .checkpointFailed → s.tunnel.checkpoint = .idle ∧ s.tunnel.session.Flushed

variable {t t' : Tunnel} {s s' : LimitedTunnel} {a : LimitedAct}

theorem current_of_idle (session : CustomerDataSession) {phase : CheckpointPhase} (h : phase = .idle) :
    Current session phase := by
  rw [h]
  trivial

/-- A step of the checkpoint loads what is there and stores what it has loaded. -/
theorem current_step {d d' : DataSystem} (h : TunnelStep d t d' t') (hstep : t'.checkpoint ≠ t.checkpoint)
    (hbusy : t'.checkpoint ≠ .idle) (hcurrent : Current t.session t.checkpoint) :
    Current t'.session t'.checkpoint := by
  cases h with
  | loadTo _ => exact rfl
  | loadFrom bytesToTor hphase =>
    rw [hphase] at hcurrent
    exact ⟨hcurrent, rfl⟩
  | commit bytesToTor bytesFromTor _ _ _ _ hphase _ _ _ =>
    rw [hphase] at hcurrent
    exact hcurrent
  | storeTo bytesToTor bytesFromTor hphase =>
    rw [hphase] at hcurrent
    exact ⟨hcurrent.1, hcurrent.2⟩
  | unchanged _ _ _ _ => exact absurd rfl hbusy
  | fail _ _ _ => exact absurd rfl hbusy
  | storeFrom _ _ => exact absurd rfl hbusy
  | read _ _ _ _ => exact absurd rfl hstep
  | refuse _ _ _ _ _ => exact absurd rfl hstep
  | load _ _ _ _ _ _ => exact absurd rfl hstep
  | grant _ _ _ _ _ _ _ => exact absurd rfl hstep
  | retry _ _ _ _ _ _ => exact absurd rfl hstep
  | write _ _ _ _ _ _ => exact absurd rfl hstep
  | record _ _ _ => exact absurd rfl hstep
  | close _ _ => exact absurd rfl hstep

theorem flushed_of_returns (h : t.Returns true t') (hcurrent : Current t.session t.checkpoint) :
    t'.session.Flushed ∧ t'.checkpoint = .idle := by
  cases h with
  | unchanged bytesToTor bytesFromTor hphase hdelta =>
    rw [hphase] at hcurrent
    unfold CustomerDataSession.checkpointDelta at hdelta
    split_ifs at hdelta
    simp only [Except.ok.injEq, Prod.mk.injEq] at hdelta
    have hto : t.session.persistedToTor = t.session.bytesToTor := by
      have := hcurrent.1
      omega
    have hfrom : t.session.persistedFromTor = t.session.bytesFromTor := by
      have := hcurrent.2
      omega
    exact ⟨⟨hto, hfrom⟩, rfl⟩
  | stored bytesFromTor hphase =>
    rw [hphase] at hcurrent
    exact ⟨hcurrent, rfl⟩

theorem Persists.stepIn {d d' : DataSystem} (h : s.Persists) (hs : StepIn d s a d' s') : s'.Persists := by
  cases hs with
  | noBuffered => exact h.1
  | buffered _ hsession hcheckpoint => exact ⟨hcheckpoint.trans h.1, by rw [hsession]; exact h.2⟩
  | bufferedFailed error => exact fun _ => h
  | @bufferedRecorded t allowance _ =>
    cases hexhausted : allowance.exhausted with
    | true => exact current_of_idle _ h.1
    | false => exact h.1
  | copy _ hcheckpoint => exact hcheckpoint.trans h
  | copied _ => exact current_of_idle _ h
  | due => exact current_of_idle _ h
  | idle => exact current_of_idle _ h
  | checkpoint hstep hne hbusy => exact current_step hstep hne hbusy h
  | @checkpointed t t' next hret =>
    obtain ⟨hflushed, hidle⟩ := flushed_of_returns hret h
    cases next with
    | none => exact hidle
    | some exit => exact fun _ => ⟨hidle, hflushed⟩
  | checkpointFailed _ => exact fun hexit => absurd rfl hexit

/-- However the copies, the timers and the checkpoints interleave, a tunnel that returns anything but the failure of a
checkpoint has persisted every byte that it transferred, in both directions. -/
theorem limited_tunnel_persists {identity : IngressIdentity} {periodStart : UnixTimestamp} {limit state : ℕ}
    {tr : List (LimitedTunnel × LimitedAct)} {exit : TunnelExit}
    (hrun : Run Step (opened identity periodStart limit state) tr s) (hret : s.point = .returned exit)
    (hexit : exit ≠ .checkpointFailed) : s.tunnel.session.Flushed := by
  have hstart : (opened identity periodStart limit state).Persists := ⟨rfl, rfl, rfl⟩
  have h : s.Persists := hrun.invariant hstart fun _ _ _ hI ⟨_, _, hs⟩ => hI.stepIn hs
  unfold Persists at h
  rw [hret] at h
  exact (h hexit).2

/-- Five bytes are copied before the tunnel is idle for too long. -/
theorem limited_tunnel_persists_idle : ∃ tr s, Run Step (opened (sharedIdentity 1) .epoch 100 0) tr s ∧
    s.point = .returned .timedOut ∧ s.tunnel.session.bytesToTor = 5 ∧ s.tunnel.session.Flushed := by
  let d : DataSystem := .init ⟨⟨.ofNat 100⟩, ArcCache.empty default, 1, 1⟩ sharedTenant.database
  have hopened : Run Step (opened (sharedIdentity 1) .epoch 100 0) [] (opened (sharedIdentity 1) .epoch 100 0) := .nil
  have hread := hopened.snoc ⟨d, d, .noBuffered⟩
    |>.snoc ⟨d, _, .copy (TunnelStep.read .toTor 5 rfl (by decide)) rfl⟩
    |>.snoc ⟨d, _, .copy (TunnelStep.load .toTor 5 5 ⟨5, false⟩ rfl
      (Fallible.toOption_eq_some.1 (by decide +kernel))) rfl⟩
  have hcopied := hread.snoc ⟨d, _, .copy (TunnelStep.grant .toTor 5 0 5 ⟨5, false⟩ rfl rfl) rfl⟩
    |>.snoc ⟨d, _, .copy (TunnelStep.write .toTor ⟨5, false⟩ 0 5 rfl (by decide)) rfl⟩
    |>.snoc ⟨d, _, .copy (TunnelStep.record .toTor ⟨5, false⟩ rfl) rfl⟩
  have hloaded := hcopied.snoc ⟨d, d, .idle⟩
    |>.snoc ⟨d, _, .checkpoint (TunnelStep.loadTo rfl) (by decide +kernel) (by simp)⟩
    |>.snoc ⟨d, _, .checkpoint (TunnelStep.loadFrom 5 rfl) (by simp) (by simp)⟩
  have hstored := hloaded.snoc ⟨d, _, .checkpoint (TunnelStep.commit 5 0 5 0 ⟨.ofNat 1, .ofNat 1, .epoch, 0, 5, 0⟩ _
      rfl (Fallible.toOption_eq_some.1 (by decide +kernel)) (by decide)
      (Prod.ext (Fallible.toOption_eq_some.1 (by decide +kernel)) rfl)) (by simp) (by simp)⟩
    |>.snoc ⟨d, _, .checkpoint (TunnelStep.storeTo 5 0 rfl) (by simp) (by simp)⟩
    |>.snoc ⟨d, d, .checkpointed (.stored 0 rfl)⟩
  exact ⟨_, _, hstored, rfl, rfl, limited_tunnel_persists hstored rfl (by simp)⟩

/-! ### The row of the session -/

section Row

variable {d d' : DataSystem}

/-- A step of the tunnel adds to the row of its session what it adds to the session's committed bytes. -/
theorem StepIn.ledger (hs : StepIn d s a d' s') :
    s'.tunnel.session.scope = s.tunnel.session.scope ∧
      (d'.database.counters s.tunnel.session.scope).2 + committed s.tunnel =
        (d.database.counters s.tunnel.session.scope).2 + committed s'.tunnel := by
  have hstep : ∀ {t t' : Tunnel}, TunnelStep d t d' t' → t'.session.scope = t.session.scope ∧
      (d'.database.counters t.session.scope).2 + committed t =
        (d.database.counters t.session.scope).2 + committed t' := by
    intro t t' ht
    obtain ⟨hscope, hledger⟩ := ht.ledger t.session.scope
    rw [if_pos rfl, if_pos rfl] at hledger
    exact ⟨hscope, hledger⟩
  cases hs with
  | buffered h _ _ => exact hstep h
  | copy h _ => exact hstep h
  | checkpoint h _ _ => exact hstep h
  | checkpointed h =>
    cases h with
    | unchanged _ _ hphase _ => exact ⟨rfl, by simp [committed, hphase]⟩
    | stored _ hphase => exact ⟨rfl, by simp [committed, hphase, CustomerDataSession.persisted]⟩
  | checkpointFailed h =>
    cases h with
    | failed _ _ hphase => exact ⟨rfl, by simp [committed, hphase]⟩
  | _ => exact ⟨rfl, rfl⟩

/-- No step takes bytes from a row. -/
theorem counters_le_of_step {act : DataAct} (hs : DataSystem.Step d act d') (key : UsageKey) :
    (d.database.counters key).2 ≤ (d'.database.counters key).2 := by
  cases hs with
  | lock =>
    unfold lockSection
    split <;> exact le_rfl
  | check =>
    unfold checkSection
    split <;> exact le_rfl
  | tunnel pre post _ ht =>
    cases ht with
    | commit bytesToTor bytesFromTor deltaToTor deltaFromTor snapshot database _ _ _ hr =>
      have hrec := recordAccountBytes_eq_ok hr
      show _ ≤ (database.counters key).2
      rw [hrec.counters key, Prod.snd_add]
      refine le_add_of_nonneg_right ?_
      split_ifs
      · exact ⟨Int.natCast_nonneg deltaToTor, Int.natCast_nonneg deltaFromTor⟩
      · exact le_rfl
    | _ => exact le_rfl
  | admitRequest identity periodStart => exact (CheckpointSystem.counters_admitRequest _ identity periodStart key).ge
  | _ => exact le_rfl

/-- The row of the session has what it had at the start and what the session has committed. -/
def Banked (database : Database) (key : UsageKey) (s : LimitedSystem) : Prop :=
  s.limited.tunnel.session.scope = key ∧
    (database.counters key).2 + committed s.limited.tunnel ≤ (s.data.database.counters key).2

theorem Banked.step {database : Database} {key : UsageKey} {s s' : LimitedSystem} {act : Option LimitedAct}
    (h : Banked database key s) (hs : LimitedSystem.Step s act s') : Banked database key s' := by
  obtain ⟨rfl, hle⟩ := h
  cases hs with
  | own hs =>
    obtain ⟨hscope, hledger⟩ := hs.ledger
    refine ⟨hscope, le_of_add_le_add_right (a := committed s.limited.tunnel) ?_⟩
    rw [hledger, add_right_comm]
    exact add_le_add_left hle _
  | other hs => exact ⟨rfl, hle.trans (counters_le_of_step hs _)⟩

theorem Persists.step {s s' : LimitedSystem} {act : Option LimitedAct} (h : s.limited.Persists)
    (hs : LimitedSystem.Step s act s') : s'.limited.Persists := by
  cases hs with
  | own hs => exact h.stepIn hs
  | other _ => exact h

/-- Whatever else the system does meanwhile, the bytes of a tunnel that returns anything but the failure of a checkpoint
are in the row of its workspace, beside what was there when the tunnel was opened. -/
theorem limited_tunnel_fills_row {identity : IngressIdentity} {periodStart : UnixTimestamp} {limit state : ℕ}
    {data : DataSystem} {tr : List (LimitedSystem × Option LimitedAct)} {s : LimitedSystem} {exit : TunnelExit}
    (hrun : Run LimitedSystem.Step ⟨data, opened identity periodStart limit state⟩ tr s)
    (hret : s.limited.point = .returned exit) (hexit : exit ≠ .checkpointFailed) :
    (data.database.counters (Database.usageKey identity periodStart)).2 +
        ((s.limited.tunnel.session.bytesToTor, s.limited.tunnel.session.bytesFromTor) : ℤ × ℤ) ≤
      (s.data.database.counters (Database.usageKey identity periodStart)).2 := by
  have hstart : (opened identity periodStart limit state).Persists ∧
      Banked data.database (Database.usageKey identity periodStart) ⟨data, opened identity periodStart limit state⟩ :=
    ⟨⟨rfl, rfl, rfl⟩, rfl, (add_zero _).le⟩
  obtain ⟨hpersists, -, hle⟩ := hrun.invariant (I := fun s => s.limited.Persists ∧
    Banked data.database (Database.usageKey identity periodStart) s) hstart
    fun _ _ _ hI hs => ⟨hI.1.step hs, hI.2.step hs⟩
  unfold Persists at hpersists
  rw [hret] at hpersists
  obtain ⟨hidle, hto, hfrom⟩ := hpersists hexit
  unfold committed CustomerDataSession.persisted at hle
  rwa [hidle, hto, hfrom] at hle

end Row

end LimitedTunnel

end Cobra
