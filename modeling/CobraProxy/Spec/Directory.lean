import CobraProxy.Spec.AccountDatabase

/-! The account methods, and the map of accounts that they stand for: the records in the order of their ids, with
what each method does to them. -/

namespace Cobra

open Text

inductive AccountCall
  | createAccount (email : Str) (stripeCustomerId : Option Str) (plan : PlanCode) (limits : AccountLimits)
  | setAccountStatus (accountId : AccountId) (status : AccountStatus)
  | updateAccountPlanAndLimits (accountId : AccountId) (plan : PlanCode) (limits : AccountLimits)
  | setStripeCustomerId (accountId : AccountId) (stripeCustomerId : Option Str)

inductive AccountReply
  | account (record : AccountRecord)
  | changed (changed : Bool)
  | done

/-- What the tables do. -/
def AccountCall.perform (db : Database) : AccountCall → Except AccountManagementError AccountReply × Database
  | .createAccount email stripeCustomerId plan limits =>
    (db.createAccount email stripeCustomerId plan limits).map (·.map .account) id
  | .setAccountStatus accountId status => (db.setAccountStatus accountId status).map (·.map .changed) id
  | .updateAccountPlanAndLimits accountId plan limits =>
    (db.updateAccountPlanAndLimits accountId plan limits).map (·.map fun () => .done) id
  | .setStripeCustomerId accountId stripeCustomerId =>
    (db.setStripeCustomerId accountId stripeCustomerId).map (·.map fun () => .done) id

/-- The accounts in the order of their ids. -/
abbrev Directory := List AccountRecord

namespace Directory

def find (d : Directory) (accountId : AccountId) : Option AccountRecord := d.find? fun r => r.id = accountId

def set (d : Directory) (accountId : AccountId) (f : AccountRecord → AccountRecord) : Directory :=
  d.map fun r => if r.id = accountId then f r else r

/-- Ids count up from one. -/
def nextId (d : Directory) : Except AccountManagementError AccountId :=
  if h : d.length + 1 < 2 ^ 63 then .ok ⟨d.length + 1, Nat.succ_pos _, h⟩ else .error (.database .full)

/-- What a call is for: its reply and the accounts after it, or the error with which it leaves them alone. -/
def apply (d : Directory) : AccountCall → Except AccountManagementError (AccountReply × Directory)
  | .createAccount email stripeCustomerId plan limits => do
    let email ← normalizeEmail email
    let stripeCustomerId ← normalizeStripeCustomerId stripeCustomerId
    let _ ← limits.databaseValues
    let id ← d.nextId
    if d.any fun r => r.email = email ∨ (stripeCustomerId.isSome ∧ r.stripeCustomerId = stripeCustomerId) then
      throw (.conflict "email or Stripe customer identifier already exists")
    let record : AccountRecord := { id, email, stripeCustomerId, plan, status := .active, limits }
    return (.account record, d ++ [record])
  | .setAccountStatus accountId status => do
    let some r := d.find accountId | throw (.notFound .account)
    return (.changed (r.status ≠ status), d.set accountId fun r => { r with status })
  | .updateAccountPlanAndLimits accountId plan limits => do
    let _ ← limits.databaseValues
    let some _ := d.find accountId | throw (.notFound .account)
    return (.done, d.set accountId fun r => { r with plan, limits })
  | .setStripeCustomerId accountId stripeCustomerId => do
    let stripeCustomerId ← normalizeStripeCustomerId stripeCustomerId
    let some _ := d.find accountId | throw (.notFound .account)
    if d.any fun r => r.id ≠ accountId ∧ stripeCustomerId.isSome ∧ r.stripeCustomerId = stripeCustomerId then
      throw (.conflict "Stripe customer identifier already exists")
    return (.done, d.set accountId fun r => { r with stripeCustomerId })

/-- The map after a call, unchanged by a call that fails. -/
def after (d : Directory) (call : AccountCall) : Directory := ((d.apply call).toOption.map Prod.snd).getD d

end Directory

/-- The replies of a sequence of calls, and the tables after it. -/
def performAll : List AccountCall → Database → List (Except AccountManagementError AccountReply) × Database
  | [], db => ([], db)
  | call :: calls, db =>
    let (reply, db) := call.perform db
    let (replies, db) := performAll calls db
    (reply :: replies, db)

/-- The same for the map of accounts. -/
def applyAll : List AccountCall → Directory → List (Except AccountManagementError AccountReply) × Directory
  | [], d => ([], d)
  | call :: calls, d =>
    let (replies, d') := applyAll calls (d.after call)
    ((d.apply call).map Prod.fst :: replies, d')

end Cobra
