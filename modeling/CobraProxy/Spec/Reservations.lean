import CobraProxy.Spec.DataLimiter

/-! Any number of calls of `CustomerPeriodUsage::allow` on one counter. A call loads the counter and then tries to
exchange what it loaded for what it computed from it. The exchange fails if the counter has changed, may fail if it
has not, and a call whose exchange failed loads again. A `usize` has 64 bits, so `allow` converts the request to
`u64` and the grant back without a failure. -/

namespace Cobra

/-- Where a call is. -/
inductive AllowPhase
  | load
  | exchange (current projected : ℕ) (allowance : CustomerDataAllowance)
  | returned (result : Except CustomerDataAdmissionError CustomerDataAllowance)

structure Contention (ι : Type) where
  usedBytes : ℕ
  phase : ι → AllowPhase

inductive AllowAct (ι : Type)
  | load (i : ι)
  | exchange (i : ι)
  | fail (i : ι)

namespace Contention

variable {ι : Type} [DecidableEq ι]

/-- The counter as it was seeded, and no call has loaded it yet. -/
def init (usedBytes : ℕ) : Contention ι := ⟨usedBytes, fun _ => .load⟩

def go (s : Contention ι) (i : ι) (phase : AllowPhase) : Contention ι :=
  { s with phase := Function.update s.phase i phase }

/-- A call after the load: it returns, or it has a value to store. -/
def loaded (requested limit current : ℕ) : AllowPhase :=
  match CustomerPeriodUsage.project requested limit current with
  | .error e => .returned (.error e)
  | .ok (projected, allowance) => .exchange current projected allowance

inductive Step (limit : ℕ) (requested : ι → ℕ) (s : Contention ι) : AllowAct ι → Contention ι → Prop
  | load (i : ι) (h : s.phase i = .load) :
      Step limit requested s (.load i) (s.go i (loaded (requested i) limit s.usedBytes))
  | exchange (i : ι) (projected : ℕ) (allowance : CustomerDataAllowance)
      (h : s.phase i = .exchange s.usedBytes projected allowance) :
      Step limit requested s (.exchange i) { s.go i (.returned (.ok allowance)) with usedBytes := projected }
  | fail (i : ι) (current projected : ℕ) (allowance : CustomerDataAllowance)
      (h : s.phase i = .exchange current projected allowance) :
      Step limit requested s (.fail i) (s.go i .load)

/-- What a step grants: the allowance of the call whose exchange succeeds. -/
def grant : Contention ι × AllowAct ι → Option (ι × CustomerDataAllowance)
  | (s, .exchange i) =>
    match s.phase i with
    | .exchange _ _ allowance => some (i, allowance)
    | _ => none
  | _ => none

/-- The grants of a run, in their order. -/
def grants (tr : List (Contention ι × AllowAct ι)) : List (ι × CustomerDataAllowance) := tr.filterMap grant

end Contention

end Cobra
