import CobraProxy.Lib.ArcCache
import CobraProxy.Spec.AccountManager

/-! The data allowance: `CustomerDataLimiter`, its live counters and the sessions that draw from
them. Bytes are reserved in the counter, handed to the peer's writer, recorded in the session and
persisted by a checkpoint. These are separate steps, and a tunnel may end between any two of them. -/

namespace Cobra

inductive CustomerDataAdmissionError
  | limitReached (limit : ℕ)
  | tierConfigurationMismatch (configuredLimit : ℕ) (storedLimit : Option ℕ)
  | stateCapacityReached
  | counterOverflow
  | storage (source : AccountManagementError)
  deriving DecidableEq

structure CustomerDataAllowance where
  bytes : ℕ
  exhausted : Bool
  deriving DecidableEq

structure CustomerPeriodUsage where
  usedBytes : ℕ
  lastUsed : ℕ
  deriving Inhabited

namespace CustomerPeriodUsage

def ensureAvailable (u : CustomerPeriodUsage) (limit : ℕ) : Except CustomerDataAdmissionError Unit :=
  if limit ≤ u.usedBytes then .error (.limitReached limit) else .ok ()

/-- One round of `allow` up to the exchange: the value it is to store and the allowance it returns
if the counter still has the value `current` that was loaded. -/
def project (requested limit current : ℕ) :
    Except CustomerDataAdmissionError (ℕ × CustomerDataAllowance) :=
  if limit ≤ current then .error (.limitReached limit)
  else
    let remaining := limit - current
    let allowed := min requested remaining
    match checkedAdd current allowed with
    | none => .error .counterOverflow
    | some projected => .ok (projected, ⟨allowed, projected == limit⟩)

end CustomerPeriodUsage

structure SingleTierPolicy where
  periodByteLimit : NonZeroU64

/-- What a live counter is kept under. -/
abbrev PeriodKey := AccountId × UnixTimestamp

structure CustomerDataLimiter where
  policy : SingleTierPolicy
  states : ArcCache PeriodKey CustomerPeriodUsage
  maxCachedPeriods : ℕ
  sequence : ℕ

/-- The fold of `state_for` over the workspaces of the account. -/
def Database.persistedBytes (db : Database) (accountId : AccountId) (periodStart : UnixTimestamp) :
    Except AccountManagementError ℕ := do
  let workspaces ← db.listWorkspaces accountId
  workspaces.foldlM (fun total workspace => do
    let snapshot ← db.usageForScope accountId workspace.id periodStart
    let bytes ← snapshot.totalBytes
    match checkedAdd total bytes with
    | some total => return total
    | none => throw .counterOverflow) 0

namespace CustomerDataLimiter

def new (policy : SingleTierPolicy) (maxCachedPeriods : ℕ) : Except String CustomerDataLimiter :=
  if maxCachedPeriods = 0 then .error "customer data-limit cache capacity must be positive"
  else .ok ⟨policy, ArcCache.empty default, maxCachedPeriods, 1⟩

/-- The check before `state_for` draws a sequence number. -/
def checkTier (l : CustomerDataLimiter) (identity : IngressIdentity) :
    Except CustomerDataAdmissionError Unit :=
  let configuredLimit := l.policy.periodByteLimit.1
  let storedLimit := identity.limits.periodByteLimit.map Subtype.val
  if storedLimit ≠ some configuredLimit then
    .error (.tierConfigurationMismatch configuredLimit storedLimit)
  else .ok ()

/-- A full map gives up the least recently used entry that nobody holds, if there is one. -/
def makeRoom (l : CustomerDataLimiter) (candidate : Option PeriodKey) : CustomerDataLimiter :=
  if l.maxCachedPeriods ≤ l.states.size then
    match candidate with
    | some victim => { l with states := l.states.remove victim }
    | none => l
  else l

/-- The section of `state_for` under the lock, with what the search for an entry to evict returns.
The reads of the fold see one database: the rows of a key are written only by its sessions, and
while the key has no counter it has no session. -/
def stateFor (l : CustomerDataLimiter) (db : Database) (identity : IngressIdentity)
    (periodStart : UnixTimestamp) (sequence : ℕ) (candidate : Option PeriodKey) :
    Except CustomerDataAdmissionError ℕ × CustomerDataLimiter :=
  let key := (identity.accountId, periodStart)
  match l.states.find key with
  | some state =>
    (.ok state, { l with states := l.states.modify state fun u => { u with lastUsed := sequence } })
  | none =>
    let l := l.makeRoom candidate
    if l.maxCachedPeriods ≤ l.states.size then (.error .stateCapacityReached, l)
    else
      match db.persistedBytes identity.accountId periodStart with
      | .error e => (.error (.storage e), l)
      | .ok persistedBytes =>
        if l.policy.periodByteLimit.1 ≤ persistedBytes then
          (.error (.limitReached l.policy.periodByteLimit.1), l)
        else (.ok l.states.next, { l with states := l.states.create key ⟨persistedBytes, sequence⟩ })

/-- The whole of `state_for`, with no other call in between. -/
def stateForCall (l : CustomerDataLimiter) (db : Database) (identity : IngressIdentity)
    (periodStart : UnixTimestamp) (candidate : Option PeriodKey) :
    Except CustomerDataAdmissionError ℕ × CustomerDataLimiter :=
  match l.checkTier identity with
  | .error e => (.error e, l)
  | .ok () =>
    { l with sequence := (l.sequence + 1) % 2 ^ 64 }.stateFor db identity periodStart l.sequence candidate

end CustomerDataLimiter

inductive CustomerDataDirection
  | toTor | fromTor
  deriving DecidableEq

structure CustomerDataSession where
  identity : IngressIdentity
  periodStart : UnixTimestamp
  limit : ℕ
  /-- The session's clone of the counter's `Arc`. -/
  state : ℕ
  bytesToTor : ℕ
  bytesFromTor : ℕ
  persistedToTor : ℕ
  persistedFromTor : ℕ

namespace CustomerDataSession

def key (s : CustomerDataSession) : PeriodKey := (s.identity.accountId, s.periodStart)

def recordTransferred (s : CustomerDataSession) (direction : CustomerDataDirection) (bytes : ℕ) :
    CustomerDataSession :=
  match direction with
  | .toTor => { s with bytesToTor := (s.bytesToTor + bytes) % 2 ^ 64 }
  | .fromTor => { s with bytesFromTor := (s.bytesFromTor + bytes) % 2 ^ 64 }

/-- The deltas of a checkpoint that loaded these counters. -/
def checkpointDelta (s : CustomerDataSession) (bytesToTor bytesFromTor : ℕ) : Except String (ℕ × ℕ) :=
  if bytesToTor < s.persistedToTor then .error "account upload checkpoint moved backwards"
  else if bytesFromTor < s.persistedFromTor then .error "account download checkpoint moved backwards"
  else .ok (bytesToTor - s.persistedToTor, bytesFromTor - s.persistedFromTor)

end CustomerDataSession

/-- `record_account_bytes`; the error of the source carries a text only. -/
def Database.recordAccountBytes (db : Database) (identity : IngressIdentity) (periodStart : UnixTimestamp)
    (bytesToTor bytesFromTor : ℕ) : Except AccountManagementError UsageSnapshot × Database :=
  match UsageDelta.new 0 bytesToTor bytesFromTor with
  | .error e => (.error e, db)
  | .ok delta => db.recordUsage identity periodStart delta

/-! ### Tunnels -/

/-- Where the copy in one direction stands. -/
inductive CopyPhase
  | reading
  | load (requested : ℕ)
  | exchange (requested current projected : ℕ) (allowance : CustomerDataAllowance)
  | writing (allowance : CustomerDataAllowance) (handed : ℕ)
  | closed
  deriving DecidableEq

/-- Where the session's checkpoint stands, with the counters it has loaded. -/
inductive CheckpointPhase
  | idle
  | loadFrom (bytesToTor : ℕ)
  | write (bytesToTor bytesFromTor : ℕ)
  | storeTo (bytesToTor bytesFromTor : ℕ)
  | storeFrom (bytesFromTor : ℕ)
  deriving DecidableEq

structure Tunnel where
  session : CustomerDataSession
  copying : CustomerDataDirection → CopyPhase
  checkpoint : CheckpointPhase

namespace Tunnel

def opened (identity : IngressIdentity) (periodStart : UnixTimestamp) (limit state : ℕ) : Tunnel where
  session := ⟨identity, periodStart, limit, state, 0, 0, 0, 0⟩
  copying := fun _ => .reading
  checkpoint := .idle

def go (t : Tunnel) (direction : CustomerDataDirection) (phase : CopyPhase) : Tunnel :=
  { t with copying := Function.update t.copying direction phase }

end Tunnel

inductive DataCallKind
  | ensureAvailable | openSession
  deriving DecidableEq

/-- A call in progress: before the section under the lock, and after it with its clone. -/
inductive DataCall
  | enter (kind : DataCallKind) (identity : IngressIdentity) (periodStart : UnixTimestamp) (sequence : ℕ)
  | check (kind : DataCallKind) (identity : IngressIdentity) (periodStart : UnixTimestamp) (state : ℕ)

def DataCall.holder : DataCall → Option (PeriodKey × ℕ)
  | .enter .. => none
  | .check _ identity periodStart state => some ((identity.accountId, periodStart), state)

/-- The limiter, the database, the calls in progress and the tunnels with a session. `handed` counts
the payload bytes handed to peer writers for an account and period. -/
structure DataSystem where
  limiter : CustomerDataLimiter
  database : Database
  calls : List DataCall
  tunnels : List Tunnel
  handed : PeriodKey → ℕ

inductive DataAct
  | begin (kind : DataCallKind) (identity : IngressIdentity) (periodStart : UnixTimestamp)
  | lock (kind : DataCallKind) (identity : IngressIdentity) (periodStart : UnixTimestamp) (sequence : ℕ)
      (candidate : Option PeriodKey)
  | check
  | tunnel (key : PeriodKey)
  | finish (key : PeriodKey)
  | admitRequest (identity : IngressIdentity) (periodStart : UnixTimestamp)

namespace DataSystem

def init (limiter : CustomerDataLimiter) (database : Database) : DataSystem :=
  ⟨limiter, database, [], [], fun _ => 0⟩

/-- The clones of counter `Arc`s outside the map. -/
def holders (s : DataSystem) : List (PeriodKey × ℕ) :=
  s.calls.filterMap DataCall.holder ++ s.tunnels.map fun t => (t.session.key, t.session.state)

def counter (s : DataSystem) (state : ℕ) : CustomerPeriodUsage := s.limiter.states.cells state

def isCandidate (s : DataSystem) (candidate : Option PeriodKey) : Prop :=
  s.limiter.states.LeastUsed (fun state => ArcCache.strongCount s.holders state = 1)
    CustomerPeriodUsage.lastUsed candidate

instance (s : DataSystem) (candidate : Option PeriodKey) : Decidable (s.isCandidate candidate) :=
  inferInstanceAs (Decidable (ArcCache.LeastUsed _ _ _ _))

/-- The exchange that succeeds. -/
def store (s : DataSystem) (state usedBytes : ℕ) : DataSystem :=
  { s with limiter := { s.limiter with states := s.limiter.states.modify state fun u => { u with usedBytes } } }

def hand (s : DataSystem) (key : PeriodKey) (bytes : ℕ) : DataSystem :=
  { s with handed := Function.update s.handed key (s.handed key + bytes) }

/-- What a tunnel does next. The two directions and the checkpoint take turns in any order; a
compare-exchange may fail spuriously, and a checkpoint's write may fail without an effect. -/
inductive TunnelStep (s : DataSystem) (t : Tunnel) : DataSystem → Tunnel → Prop
  | read (d : CustomerDataDirection) (requested : ℕ) (h : t.copying d = .reading) (hr : 0 < requested) :
      TunnelStep s t s (t.go d (.load requested))
  | refuse (d : CustomerDataDirection) (requested : ℕ) (e : CustomerDataAdmissionError)
      (h : t.copying d = .load requested)
      (hp : CustomerPeriodUsage.project requested t.session.limit (s.counter t.session.state).usedBytes =
        .error e) :
      TunnelStep s t s (t.go d .closed)
  | load (d : CustomerDataDirection) (requested projected : ℕ) (allowance : CustomerDataAllowance)
      (h : t.copying d = .load requested)
      (hp : CustomerPeriodUsage.project requested t.session.limit (s.counter t.session.state).usedBytes =
        .ok (projected, allowance)) :
      TunnelStep s t s
        (t.go d (.exchange requested (s.counter t.session.state).usedBytes projected allowance))
  | grant (d : CustomerDataDirection) (requested current projected : ℕ) (allowance : CustomerDataAllowance)
      (h : t.copying d = .exchange requested current projected allowance)
      (hc : (s.counter t.session.state).usedBytes = current) :
      TunnelStep s t (s.store t.session.state projected) (t.go d (.writing allowance 0))
  | retry (d : CustomerDataDirection) (requested current projected : ℕ) (allowance : CustomerDataAllowance)
      (h : t.copying d = .exchange requested current projected allowance) :
      TunnelStep s t s (t.go d (.load requested))
  | write (d : CustomerDataDirection) (allowance : CustomerDataAllowance) (handed bytes : ℕ)
      (h : t.copying d = .writing allowance handed) (hb : handed + bytes ≤ allowance.bytes) :
      TunnelStep s t (s.hand t.session.key bytes) (t.go d (.writing allowance (handed + bytes)))
  | record (d : CustomerDataDirection) (allowance : CustomerDataAllowance)
      (h : t.copying d = .writing allowance allowance.bytes) :
      TunnelStep s t s ({ t with session := t.session.recordTransferred d allowance.bytes }.go d
        (if allowance.exhausted then .closed else .reading))
  /-- The end of the stream, an error of the reader or the writer, or the other direction's error. -/
  | close (d : CustomerDataDirection)
      (h : t.copying d = .reading ∨ ∃ allowance handed, t.copying d = .writing allowance handed) :
      TunnelStep s t s (t.go d .closed)
  | loadTo (h : t.checkpoint = .idle) :
      TunnelStep s t s { t with checkpoint := .loadFrom t.session.bytesToTor }
  | loadFrom (bytesToTor : ℕ) (h : t.checkpoint = .loadFrom bytesToTor) :
      TunnelStep s t s { t with checkpoint := .write bytesToTor t.session.bytesFromTor }
  | unchanged (bytesToTor bytesFromTor : ℕ) (h : t.checkpoint = .write bytesToTor bytesFromTor)
      (hd : t.session.checkpointDelta bytesToTor bytesFromTor = .ok (0, 0)) :
      TunnelStep s t s { t with checkpoint := .idle }
  | commit (bytesToTor bytesFromTor deltaToTor deltaFromTor : ℕ) (snapshot : UsageSnapshot)
      (database : Database) (h : t.checkpoint = .write bytesToTor bytesFromTor)
      (hd : t.session.checkpointDelta bytesToTor bytesFromTor = .ok (deltaToTor, deltaFromTor))
      (hne : ¬ (deltaToTor = 0 ∧ deltaFromTor = 0))
      (hr : s.database.recordAccountBytes t.session.identity t.session.periodStart deltaToTor deltaFromTor =
        (.ok snapshot, database)) :
      TunnelStep s t { s with database } { t with checkpoint := .storeTo bytesToTor bytesFromTor }
  | fail (bytesToTor bytesFromTor : ℕ) (h : t.checkpoint = .write bytesToTor bytesFromTor) :
      TunnelStep s t s { t with checkpoint := .idle }
  | storeTo (bytesToTor bytesFromTor : ℕ) (h : t.checkpoint = .storeTo bytesToTor bytesFromTor) :
      TunnelStep s t s { t with
        session := { t.session with persistedToTor := bytesToTor }
        checkpoint := .storeFrom bytesFromTor }
  | storeFrom (bytesFromTor : ℕ) (h : t.checkpoint = .storeFrom bytesFromTor) :
      TunnelStep s t s { t with
        session := { t.session with persistedFromTor := bytesFromTor }
        checkpoint := .idle }

/-- The end of `state_for`: the call goes on with its clone or returns the error. -/
def lockSection (s : DataSystem) (kind : DataCallKind) (identity : IngressIdentity)
    (periodStart : UnixTimestamp) (sequence : ℕ) (candidate : Option PeriodKey) (rest : List DataCall) :
    DataSystem :=
  match s.limiter.stateFor s.database identity periodStart sequence candidate with
  | (.ok state, limiter) => { s with limiter, calls := .check kind identity periodStart state :: rest }
  | (.error _, limiter) => { s with limiter, calls := rest }

/-- The clone is dropped, or becomes the session's when the counter is below the limit. -/
def checkSection (s : DataSystem) (kind : DataCallKind) (identity : IngressIdentity)
    (periodStart : UnixTimestamp) (state : ℕ) (rest : List DataCall) : DataSystem :=
  match kind, (s.counter state).ensureAvailable s.limiter.policy.periodByteLimit.1 with
  | .openSession, .ok () => { s with
      calls := rest
      tunnels := .opened identity periodStart s.limiter.policy.periodByteLimit.1 state :: s.tunnels }
  | _, _ => { s with calls := rest }

inductive Step (s : DataSystem) : DataAct → DataSystem → Prop
  | begin (kind : DataCallKind) (identity : IngressIdentity) (periodStart : UnixTimestamp)
      (h : s.limiter.checkTier identity = .ok ()) :
      Step s (.begin kind identity periodStart) { s with
        limiter := { s.limiter with sequence := (s.limiter.sequence + 1) % 2 ^ 64 }
        calls := .enter kind identity periodStart s.limiter.sequence :: s.calls }
  | lock (kind : DataCallKind) (identity : IngressIdentity) (periodStart : UnixTimestamp) (sequence : ℕ)
      (candidate : Option PeriodKey) (pre post : List DataCall)
      (hcalls : s.calls = pre ++ .enter kind identity periodStart sequence :: post)
      (hcandidate : s.isCandidate candidate) :
      Step s (.lock kind identity periodStart sequence candidate)
        (s.lockSection kind identity periodStart sequence candidate (pre ++ post))
  | check (kind : DataCallKind) (identity : IngressIdentity) (periodStart : UnixTimestamp) (state : ℕ)
      (pre post : List DataCall) (hcalls : s.calls = pre ++ .check kind identity periodStart state :: post) :
      Step s .check (s.checkSection kind identity periodStart state (pre ++ post))
  | tunnel {t t' : Tunnel} {s' : DataSystem} (pre post : List Tunnel)
      (htunnels : s.tunnels = pre ++ t :: post) (h : TunnelStep s t s' t') :
      Step s (.tunnel t.session.key) { s' with tunnels := pre ++ t' :: post }
  /-- The session is dropped; its checkpoints have run to their end. -/
  | finish {t : Tunnel} (pre post : List Tunnel) (htunnels : s.tunnels = pre ++ t :: post)
      (h : t.checkpoint = .idle) :
      Step s (.finish t.session.key) { s with tunnels := pre ++ post }
  | admitRequest (identity : IngressIdentity) (periodStart : UnixTimestamp) :
      Step s (.admitRequest identity periodStart)
        { s with database := (s.database.admitRequest identity periodStart).2 }

end DataSystem

end Cobra
