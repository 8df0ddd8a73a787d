import CobraProxy.Spec.AccountManager

/-! The calls that add to the usage of an account, workspace and period. -/

namespace Cobra

inductive UsageCall
  | recordUsage (identity : IngressIdentity) (periodStart : UnixTimestamp) (delta : UsageDelta)
  | recordUsageIfAllowed (identity : IngressIdentity) (periodStart : UnixTimestamp) (delta : UsageDelta)
  | admitRequest (identity : IngressIdentity) (periodStart : UnixTimestamp)

namespace UsageCall

def identity : UsageCall → IngressIdentity
  | .recordUsage identity _ _ => identity
  | .recordUsageIfAllowed identity _ _ => identity
  | .admitRequest identity _ => identity

def periodStart : UsageCall → UnixTimestamp
  | .recordUsage _ periodStart _ => periodStart
  | .recordUsageIfAllowed _ periodStart _ => periodStart
  | .admitRequest _ periodStart => periodStart

/-- Requests, bytes to Tor and bytes from Tor of the call's delta. -/
def delta : UsageCall → ℤ × ℤ × ℤ
  | .recordUsage _ _ delta => (delta.requests, delta.bytesToTor, delta.bytesFromTor)
  | .recordUsageIfAllowed _ _ delta => (delta.requests, delta.bytesToTor, delta.bytesFromTor)
  | .admitRequest _ _ => (1, 0, 0)

def key (call : UsageCall) : UsageKey := Database.usageKey call.identity call.periodStart

/-- The snapshot that the call returns, `none` for any error, and the database after it. -/
def perform (call : UsageCall) (db : Database) : Option UsageSnapshot × Database :=
  match call with
  | .recordUsage identity periodStart delta =>
    let (result, db) := db.recordUsage identity periodStart delta
    (result.toOption, db)
  | .recordUsageIfAllowed identity periodStart delta =>
    let (result, db) := db.recordUsageIfAllowed identity periodStart delta
    (result.toOption, db)
  | .admitRequest identity periodStart =>
    let (result, db) := db.admitRequest identity periodStart
    (result.toOption, db)

def Step (db : Database) (call : UsageCall) (db' : Database) : Prop := db' = (call.perform db).2

end UsageCall

/-- The usage call among the operations of the manager. -/
def ManagerAct.usageCall : ManagerAct → Option UsageCall
  | .recordUsage identity periodStart delta => some (.recordUsage identity periodStart delta)
  | .recordUsageIfAllowed identity periodStart delta => some (.recordUsageIfAllowed identity periodStart delta)
  | .admitRequest identity periodStart => some (.admitRequest identity periodStart)
  | _ => none

end Cobra
