import CobraProxy.Spec.DataLimiter
import CobraProxy.Spec.Registries

/-! Usage periods and the clock. The period of a request is computed once, when the request is admitted, and
stays with its scope: the session of a tunnel is opened for that period and draws on it for as long as the
tunnel lives. -/

namespace Cobra

namespace UnixTimestamp

/-- `UnixTimestamp::now`, from the seconds that have passed since the epoch. -/
def now (elapsed : ℕ) : Except AccountManagementError UnixTimestamp :=
  if elapsed < 2 ^ 63 then .ok ⟨elapsed, Int.natCast_nonneg _⟩ else .error .counterOverflow

/-- The start of the epoch-aligned period of a timestamp. -/
def periodStart (now : UnixTimestamp) (period : ℕ) : UnixTimestamp where
  seconds := now.seconds - now.seconds % period
  nonneg := by
    have hdiv := Int.mul_nonneg (Int.natCast_nonneg period)
      (Int.ediv_nonneg now.nonneg (Int.natCast_nonneg period))
    have hmod := Int.mul_ediv_add_emod now.seconds period
    linarith

def periodStartNow (period elapsed : ℕ) : Except AccountManagementError UnixTimestamp := do
  if 2 ^ 63 ≤ period then throw .counterOverflow
  if period = 0 then throw (.invalidInput "usage period must contain at least one second")
  let now ← UnixTimestamp.now elapsed
  return now.periodStart period

end UnixTimestamp

/-- The bytes that `allow` returned to a copy which went from its exchange to the writer. -/
def CopyPhase.granted : CopyPhase → CopyPhase → ℕ
  | .exchange _ _ _ allowance, .writing _ _ => allowance.bytes
  | _, _ => 0

def Tunnel.granted (t t' : Tunnel) : ℕ :=
  (t.copying .toTor).granted (t'.copying .toTor) + (t.copying .fromTor).granted (t'.copying .fromTor)

/-- The bytes that a session's tunnel was granted in one step, and when. -/
structure Grant where
  session : PeriodKey
  time : ℕ
  bytes : ℕ

/-- The sessions beside the clock, the scopes of the requests admitted so far and what was granted. -/
structure PeriodSystem where
  data : DataSystem
  now : ℕ
  scopes : List AccountRequestScope
  grants : List Grant

inductive PeriodAct
  | wait (time : ℕ)
  | accept (identity : IngressIdentity)
  | call (act : DataAct)
  | tunnel (key : PeriodKey)
  | drop (key : PeriodKey)

namespace PeriodSystem

def init (limiter : CustomerDataLimiter) (database : Database) (now : ℕ) : PeriodSystem :=
  ⟨.init limiter database, now, [], []⟩

/-- A request is admitted in the period of the clock; calls and sessions are for the periods of admitted
requests, and a session may be dropped at any point. -/
inductive Step (usagePeriod : ℕ) (s : PeriodSystem) : PeriodAct → PeriodSystem → Prop
  | wait (time : ℕ) (h : s.now ≤ time) : Step usagePeriod s (.wait time) { s with now := time }
  | accept (identity : IngressIdentity) (periodStart : UnixTimestamp)
      (h : UnixTimestamp.periodStartNow usagePeriod s.now = .ok periodStart) :
      Step usagePeriod s (.accept identity) { s with scopes := ⟨identity, periodStart⟩ :: s.scopes }
  | call (act : DataAct) {data : DataSystem} (h : DataSystem.Step s.data act data)
      (hscope : ∀ kind identity periodStart, act = .begin kind identity periodStart →
        ⟨identity, periodStart⟩ ∈ s.scopes)
      (hcall : ∀ key, act ≠ .tunnel key) : Step usagePeriod s (.call act) { s with data }
  | tunnel {t t' : Tunnel} {data : DataSystem} (pre post : List Tunnel)
      (htunnels : s.data.tunnels = pre ++ t :: post) (h : DataSystem.TunnelStep s.data t data t') :
      Step usagePeriod s (.tunnel t.session.key) { s with
        data := { data with tunnels := pre ++ t' :: post }
        grants := ⟨t.session.key, s.now, t.granted t'⟩ :: s.grants }
  | drop {t : Tunnel} (pre post : List Tunnel) (htunnels : s.data.tunnels = pre ++ t :: post) :
      Step usagePeriod s (.drop t.session.key) { s with data := { s.data with tunnels := pre ++ post } }

/-- What was granted, at any time, to the sessions of an account and period. -/
def grantedTo (s : PeriodSystem) (key : PeriodKey) : ℕ :=
  ((s.grants.filter fun g => g.session = key).map Grant.bytes).sum

end PeriodSystem

end Cobra
