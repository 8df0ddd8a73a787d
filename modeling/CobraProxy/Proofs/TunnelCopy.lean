import CobraProxy.Proofs.Copy
import CobraProxy.Proofs.DataCap
import CobraProxy.Spec.Checkpoints

/-! The copy of one direction is a run of the tunnel: every chunk is read, granted, handed to the writer and recorded
in steps of `TunnelStep`, with the rest of the system holding at each step the counter that `allow` saw. Of a chunk that
is not flushed the writer may have taken any part, which is not recorded. -/

namespace Cobra

open Text Runs DataSystem

namespace Tunnel

/-- What the run adds to the shared counter `state`, and what it hands to the writer for `key`. -/
def grantedBytes (state : ℕ) (tr : List (Tunnel × DataSystem × DataSystem)) : ℕ :=
  (tr.map fun p => (p.2.2.counter state).usedBytes - (p.2.1.counter state).usedBytes).sum

def handedBytes (key : PeriodKey) (tr : List (Tunnel × DataSystem × DataSystem)) : ℕ :=
  (tr.map fun p => p.2.2.handed key - p.2.1.handed key).sum

/-- A run of the tunnel from `t` to `t'` that adds `granted` to its counter and hands over `handed` bytes. -/
def Moves (t t' : Tunnel) (granted handed : ℕ) : Prop :=
  ∃ tr, Run Tunnel.Step t tr t' ∧ grantedBytes t.session.state tr = granted ∧ handedBytes t.session.key tr = handed

variable {t t' t'' : Tunnel} {d : CustomerDataDirection}

theorem Moves.refl (t : Tunnel) : Moves t t 0 0 := ⟨[], .nil, rfl, rfl⟩

theorem Moves.of_step {s s' : DataSystem} {granted handed : ℕ} (h : TunnelStep s t s' t')
    (hgranted : (s'.counter t.session.state).usedBytes = (s.counter t.session.state).usedBytes + granted)
    (hhanded : s'.handed t.session.key = s.handed t.session.key + handed) : Moves t t' granted handed :=
  ⟨[(t, s, s')], Run.nil.snoc h, by simp [grantedBytes, hgranted], by simp [handedBytes, hhanded]⟩

/-- A step that leaves the rest of the system alone. -/
theorem Moves.of_quiet {s : DataSystem} (h : TunnelStep s t s t') : Moves t t' 0 0 := .of_step h rfl rfl

theorem Moves.trans {granted handed granted' handed' : ℕ} (h : Moves t t' granted handed)
    (hstate : t'.session.state = t.session.state) (hkey : t'.session.key = t.session.key)
    (h' : Moves t' t'' granted' handed') : Moves t t'' (granted + granted') (handed + handed') := by
  obtain ⟨tr, hrun, rfl, rfl⟩ := h
  obtain ⟨tr', hrun', rfl, rfl⟩ := h'
  refine ⟨tr ++ tr', hrun.append hrun', ?_, ?_⟩
  · simp [grantedBytes, hstate]
  · simp [handedBytes, hkey]

@[simp] theorem go_go (t : Tunnel) (d : CustomerDataDirection) (phase phase' : CopyPhase) :
    (t.go d phase).go d phase' = t.go d phase' := by
  simp [go]

@[simp] theorem session_go (t : Tunnel) (d : CustomerDataDirection) (phase : CopyPhase) :
    (t.go d phase).session = t.session := rfl

/-- A system whose counter `state` holds `current`. -/
theorem usedBytes_store (s : DataSystem) (state current : ℕ) :
    ((s.store state current).counter state).usedBytes = current := by
  rw [counter_store, if_pos rfl]

theorem copying_go_self (t : Tunnel) (d : CustomerDataDirection) (phase : CopyPhase) :
    (t.go d phase).copying d = phase := by
  rw [copying_go, if_pos rfl]

/-- A chunk is read, and `allow` reserves what it grants of it. -/
theorem moves_granted (s : DataSystem) (hd : t.copying d = .reading) {requested current : ℕ}
    {allowance : CustomerDataAllowance} (hr : 0 < requested)
    (hallow : t.session.allow requested current = .ok allowance) :
    Moves t (t.go d (.writing allowance 0)) allowance.bytes 0 := by
  have hused := usedBytes_store s t.session.state current
  unfold CustomerDataSession.allow at hallow
  cases hproject : CustomerPeriodUsage.project requested t.session.limit current with
  | error e => rw [hproject] at hallow; cases hallow
  | ok granted =>
    obtain ⟨projected, allowance⟩ := granted
    rw [hproject] at hallow
    cases hallow
    obtain ⟨hprojected, -⟩ := project_eq_ok hproject
    have hread := Moves.of_quiet (TunnelStep.read (s := s.store t.session.state current) d requested hd hr)
    have hload := Moves.of_quiet (TunnelStep.load (s := s.store t.session.state current)
      (t := t.go d (.load requested)) d requested projected allowance (copying_go_self ..)
      (by rw [session_go, hused]; exact hproject))
    have hgrant : Moves (t.go d (.exchange requested current projected allowance))
        ((t.go d (.exchange requested current projected allowance)).go d (.writing allowance 0)) allowance.bytes 0 :=
      .of_step (TunnelStep.grant (s := s.store t.session.state current) d requested current projected allowance
        (copying_go_self ..) hused) (by rw [session_go, usedBytes_store, hused]; exact hprojected) rfl
    rw [session_go, hused, go_go] at hload
    rw [go_go] at hgrant
    simpa using (hread.trans rfl rfl hload).trans rfl rfl hgrant

/-- The writer takes the first bytes of a granted chunk. -/
theorem moves_written (s : DataSystem) (t : Tunnel) (d : CustomerDataDirection) {allowance : CustomerDataAllowance}
    {bytes : ℕ} (hbytes : bytes ≤ allowance.bytes) :
    Moves (t.go d (.writing allowance 0)) (t.go d (.writing allowance bytes)) 0 bytes := by
  have hwrite : Moves (t.go d (.writing allowance 0)) ((t.go d (.writing allowance 0)).go d
      (.writing allowance (0 + bytes))) 0 bytes :=
    .of_step (TunnelStep.write (s := s) d allowance 0 bytes (copying_go_self ..) (by omega)) rfl
      (by simp [DataSystem.hand])
  rwa [go_go, Nat.zero_add] at hwrite

/-- A granted chunk is handed to the writer as a whole and recorded. -/
theorem moves_recorded (s : DataSystem) (t : Tunnel) (d : CustomerDataDirection) (allowance : CustomerDataAllowance) :
    Moves (t.go d (.writing allowance 0))
      ({ t with session := t.session.recordTransferred d allowance.bytes }.go d
        (if allowance.exhausted then .closed else .reading)) 0 allowance.bytes := by
  have hwrite := moves_written s t d (le_refl allowance.bytes)
  have hrecord := Moves.of_quiet (TunnelStep.record (s := s) (t := t.go d (.writing allowance allowance.bytes)) d
    allowance (copying_go_self ..))
  have hgo : ({ t.go d (.writing allowance allowance.bytes) with
      session := t.session.recordTransferred d allowance.bytes }.go d
        (if allowance.exhausted then .closed else .reading)) =
      { t with session := t.session.recordTransferred d allowance.bytes }.go d
        (if allowance.exhausted then .closed else .reading) := by
    simp [go]
  rw [session_go, hgo] at hrecord
  simpa using hwrite.trans rfl rfl hrecord

theorem moves_closed (s : DataSystem)
    (h : t.copying d = .reading ∨ ∃ allowance handed, t.copying d = .writing allowance handed) :
    Moves t (t.go d .closed) 0 0 := .of_quiet (TunnelStep.close (s := s) d h)

/-- A chunk is read, and `allow` refuses it. -/
theorem moves_refused (s : DataSystem) (hd : t.copying d = .reading) {requested current : ℕ}
    {e : CustomerDataAdmissionError} (hr : 0 < requested) (hallow : t.session.allow requested current = .error e) :
    Moves t (t.go d .closed) 0 0 := by
  have hused := usedBytes_store s t.session.state current
  unfold CustomerDataSession.allow at hallow
  cases hproject : CustomerPeriodUsage.project requested t.session.limit current with
  | ok granted => rw [hproject] at hallow; cases hallow
  | error e =>
    have hread := Moves.of_quiet (TunnelStep.read (s := s.store t.session.state current) d requested hd hr)
    have hrefuse := Moves.of_quiet (TunnelStep.refuse (s := s.store t.session.state current)
      (t := t.go d (.load requested)) d requested e (copying_go_self ..) (by rw [session_go, hused]; exact hproject))
    rw [go_go] at hrefuse
    exact hread.trans rfl rfl hrefuse

end Tunnel

open Tunnel

theorem recordTransferred_keeps (session : CustomerDataSession) (d : CustomerDataDirection) (bytes : ℕ) :
    (session.recordTransferred d bytes).state = session.state ∧
      (session.recordTransferred d bytes).key = session.key := by
  cases d <;> exact ⟨rfl, rfl⟩

/-- What a chunk has that was granted and not flushed. -/
def CopyEvent.bytesUnflushed : CopyEvent → Bytes
  | .send _ _ .flushed => []
  | .send _ data _ => data
  | _ => []

/-- What the writer may have taken some of without its being recorded. -/
def bytesUnflushed (events : List CopyEvent) : Bytes := events.flatMap CopyEvent.bytesUnflushed

@[simp] theorem bytesUnflushed_append (events events' : List CopyEvent) :
    bytesUnflushed (events ++ events') = bytesUnflushed events ++ bytesUnflushed events' := List.flatMap_append

@[simp] theorem bytesUnflushed_chunkEvents (session : Option CustomerDataSession) (data : Bytes)
    (allowance : CustomerDataAllowance) (fate : ChunkFate) :
    bytesUnflushed (chunkEvents session data allowance fate) =
      if fate = .flushed then [] else data.take allowance.bytes := by
  cases session <;> cases fate <;> simp [chunkEvents, bytesUnflushed, CopyEvent.bytesUnflushed]

/-- The induction behind `copy_refines_tunnel`. -/
theorem Copied.moves (s : DataSystem) {direction : CustomerDataDirection} {bytesCopied : ℕ} {counters : CopyCounters}
    {result : CopyExit × CopyCounters × List CopyEvent} (h : Copied direction bytesCopied counters result) {t : Tunnel}
    (hsession : counters.dataSession = some t.session) (hd : t.copying direction = .reading) {taken : ℕ}
    (htaken : taken ≤ (bytesUnflushed result.2.2).length) :
    ∃ t', Moves t t' (reservedBytes result.2.2) ((bytesFlushed result.2.2).length + taken) ∧
      t'.copying direction = .closed ∧ result.2.1.dataSession = some t'.session := by
  induction h generalizing t with
  | ended _ =>
    obtain rfl := Nat.le_zero.1 htaken
    exact ⟨_, moves_closed s (.inl hd), copying_go_self .., hsession⟩
  | refused hrefused _ =>
    obtain rfl := Nat.le_zero.1 htaken
    obtain ⟨hdata, current, session, hmem, hallow⟩ := hrefused
    cases hsession.symm.trans hmem
    exact ⟨_, moves_refused s hd hdata hallow, copying_go_self .., hsession⟩
  | @unavailable _ _ _ data e hrefused _ _ =>
    obtain rfl := Nat.le_zero.1 htaken
    obtain ⟨hdata, current, session, hmem, hallow⟩ := hrefused
    cases hsession.symm.trans hmem
    exact ⟨_, moves_refused s hd hdata hallow, copying_go_self .., hsession⟩
  | @unsent _ _ _ data allowance fate hgranted hfate _ =>
    have hbytes := hgranted.bytes.1
    rw [bytesUnflushed_chunkEvents, if_neg hfate, List.length_take, Nat.min_eq_left hbytes] at htaken
    rw [hsession] at hgranted
    obtain ⟨hdata, current, hallow⟩ := hgranted
    have hclosed := moves_closed s (t := t.go direction (.writing allowance taken)) (.inr ⟨_, _, copying_go_self ..⟩)
    rw [go_go] at hclosed
    have hmoves := ((moves_granted s hd hdata hallow).trans rfl rfl (moves_written s t direction htaken)).trans rfl rfl
      hclosed
    refine ⟨t.go direction .closed, ?_, copying_go_self .., hsession⟩
    rw [hsession, reservedBytes_chunkEvents, bytesFlushed_chunkEvents, if_neg hfate]
    simpa using hmoves
  | @exhausted _ counters _ data allowance hgranted hexhausted _ =>
    have hbytes := hgranted.bytes.1
    rw [bytesUnflushed_chunkEvents, if_pos rfl] at htaken
    obtain rfl := Nat.le_zero.1 htaken
    rw [hsession] at hgranted
    obtain ⟨hdata, current, hallow⟩ := hgranted
    have hmoves := (moves_granted s hd hdata hallow).trans rfl rfl (moves_recorded s t direction allowance)
    rw [hexhausted, if_pos rfl, Nat.zero_add, Nat.add_zero] at hmoves
    refine ⟨{ t with session := t.session.recordTransferred direction allowance.bytes }.go direction .closed, ?_,
      copying_go_self .., by simp [CopyCounters.transfer, hsession]⟩
    rw [hsession, reservedBytes_chunkEvents, bytesFlushed_chunkEvents, if_pos rfl, List.length_take,
      Nat.min_eq_left hbytes]
    exact hmoves
  | @moved _ counters left exit data allowance events hgranted hexhausted _ ih =>
    have hbytes := hgranted.bytes.2 hexhausted
    rw [bytesUnflushed_append, bytesUnflushed_chunkEvents, if_pos rfl, List.nil_append] at htaken
    rw [hsession] at hgranted
    obtain ⟨hdata, current, hallow⟩ := hgranted
    obtain ⟨hstate, hkey⟩ := recordTransferred_keeps t.session direction allowance.bytes
    have hmoves := (moves_granted s hd hdata hallow).trans rfl rfl (moves_recorded s t direction allowance)
    rw [hexhausted, if_neg Bool.false_ne_true, Nat.zero_add, Nat.add_zero] at hmoves
    have hleft : (counters.transfer direction allowance.bytes).dataSession =
        some (t.session.recordTransferred direction allowance.bytes) := by
      simp [CopyCounters.transfer, hsession]
    obtain ⟨t', hrest, hclosed, hsession'⟩ := ih hleft
      (t := { t with session := t.session.recordTransferred direction allowance.bytes }.go direction .reading)
      (copying_go_self ..) htaken
    refine ⟨t', ?_, hclosed, hsession'⟩
    rw [hsession, reservedBytes_append, bytesFlushed_append, reservedBytes_chunkEvents, bytesFlushed_chunkEvents,
      if_pos rfl, List.length_append, List.length_take, Nat.min_eq_left hbytes.le, Nat.add_assoc]
    exact hmoves.trans hstate hkey hrest

/-- Whatever its awaits come to, and whatever part the writer took of a chunk whose write or flush failed or was not
waited for, the copy of one direction of a session is a run of the tunnel's steps that ends with the direction closed
and leaves the session as the copy does. The run adds to the shared counter what the copy reserved, and hands to the
writer that part beside what the copy counts as transferred. -/
theorem copy_refines_tunnel (s : DataSystem) (rounds : List CopyRound) (byteCounter secondaryByteCounter : Option UInt64)
    (activity : UInt64) {t : Tunnel} {direction : CustomerDataDirection} (hd : t.copying direction = .reading) :
    let (_, left, events) := copyOneDirectionWithCustomerData direction rounds 0
      ⟨byteCounter, secondaryByteCounter, some t.session, activity⟩
    ∀ taken ≤ (bytesUnflushed events).length,
      ∃ tr t', Run Tunnel.Step t tr t' ∧ t'.copying direction = .closed ∧ left.dataSession = some t'.session ∧
        grantedBytes t.session.state tr = reservedBytes events ∧
        handedBytes t.session.key tr = (bytesFlushed events).length + taken := by
  intro taken htaken
  obtain ⟨t', ⟨tr, hrun, hgranted, hhanded⟩, hclosed, hsession⟩ :=
    (copied direction rounds 0 ⟨byteCounter, secondaryByteCounter, some t.session, activity⟩).moves s rfl hd htaken
  exact ⟨tr, t', hrun, hclosed, hsession, hgranted, hhanded⟩

/-- The first chunk is flushed; the second one exhausts the limit and is written, but its flush fails. -/
def unflushedRounds : List CopyRound :=
  [⟨some (.ok (List.replicate 3 97)), 0, some (.ok ()), some (.ok ()), none⟩,
    ⟨some (.ok (List.replicate 8 98)), 3, some (.ok ()), some (.error .other), none⟩]

/-- Five bytes are handed over, and three of them are recorded. -/
theorem copy_refines_tunnel_unflushed : ∃ tr t', Run Tunnel.Step
    ⟨limitedSession, fun _ => .reading, .idle⟩ tr t' ∧ t'.session.bytesToTor = 3 ∧ grantedBytes 0 tr = 5 ∧
      handedBytes limitedSession.key tr = 5 := by
  obtain ⟨limiter, hlimiter⟩ : ∃ limiter, CustomerDataLimiter.new ⟨.ofNat 5⟩ 1 = .ok limiter := ⟨_, rfl⟩
  have hd : Tunnel.copying ⟨limitedSession, fun _ => .reading, .idle⟩ .toTor = .reading := rfl
  obtain ⟨tr, t', hrun, -, hsession, hgranted, hhanded⟩ :=
    copy_refines_tunnel (.init limiter .empty) unflushedRounds none none 0 hd 2 (by decide +kernel)
  have hleft : some t'.session = some (limitedSession.recordTransferred .toTor 3) := hsession.symm.trans (by rfl)
  refine ⟨tr, t', hrun, ?_, hgranted.trans (by decide +kernel), hhanded.trans (by decide +kernel)⟩
  rw [Option.some.inj hleft]
  rfl

end Cobra
