import CobraProxy.Lib.ArcCache
import CobraProxy.Lib.Gcra
import CobraProxy.Spec.Basic

/-! `AccountAdmissionController`: per-account request limiters and tunnel counters in a bounded map.
Calls run on any number of threads. A step is the draw of a sequence number, the section of
`state_for` under the map's lock, one clone, load or compare-exchange, the check of a limiter, or the
drop of a guard. A governor limiter is the generic cell rate algorithm on a common clock. -/

namespace Cobra

inductive AdmissionError
  | rateLimited (retryAfter : ℚ)
  | tunnelLimitReached (limit : ℕ)
  | stateCapacityReached
  deriving DecidableEq

structure AccountAdmissionState where
  limits : AccountLimits
  /-- The `Arc` of the limiter. -/
  requestLimiter : ℕ
  activeTunnels : ℕ
  lastUsed : ℕ

instance : Inhabited AccountLimits :=
  ⟨⟨.ofNat 1, .ofNat 1, .ofNat 1, none, none⟩⟩

instance : Inhabited AccountAdmissionState := ⟨⟨default, 0, 0, 0⟩⟩

def requestLimiter (limits : AccountLimits) : Gcra :=
  Gcra.new limits.requestsPerSecond.1 limits.requestBurst.1

structure AccountAdmissionController where
  states : ArcCache AccountId AccountAdmissionState
  limiters : ℕ → Gcra
  nextLimiter : ℕ
  maxCachedAccounts : ℕ
  sequence : ℕ

namespace AccountAdmissionController

def new (maxCachedAccounts : ℕ) : Except AccountManagementError AccountAdmissionController :=
  if maxCachedAccounts = 0 then .error (.invalidInput "admission cache capacity must be non-zero")
  else .ok ⟨ArcCache.empty default, fun _ => requestLimiter default, 0, maxCachedAccounts, 1⟩

/-- `Arc::new(request_limiter(limits))`. -/
def allocLimiter (c : AccountAdmissionController) (limits : AccountLimits) : AccountAdmissionController :=
  { c with
    limiters := Function.update c.limiters c.nextLimiter (requestLimiter limits)
    nextLimiter := c.nextLimiter + 1 }

def updateLimits (c : AccountAdmissionController) (state : ℕ) (limits : AccountLimits) :
    AccountAdmissionController :=
  if (c.states.cells state).limits = limits then c
  else { c.allocLimiter limits with
    states := c.states.modify state fun st => { st with limits, requestLimiter := c.nextLimiter } }

def createState (c : AccountAdmissionController) (accountId : AccountId) (limits : AccountLimits)
    (sequence : ℕ) : AccountAdmissionController :=
  { c.allocLimiter limits with states := c.states.create accountId ⟨limits, c.nextLimiter, 0, sequence⟩ }

/-- The section under the lock. `candidate` is what the search for a least recently used idle entry
returns; it is looked at only when the map is full. -/
def stateFor (c : AccountAdmissionController) (accountId : AccountId) (limits : AccountLimits)
    (sequence : ℕ) (candidate : Option AccountId) : Except AdmissionError ℕ × AccountAdmissionController :=
  match c.states.find accountId with
  | some state =>
    let c := c.updateLimits state limits
    (.ok state, { c with states := c.states.modify state fun st => { st with lastUsed := sequence } })
  | none =>
    if c.maxCachedAccounts ≤ c.states.size then
      match candidate with
      | none => (.error .stateCapacityReached, c)
      | some victim =>
        let c := { c with states := c.states.remove victim }
        (.ok c.states.next, c.createState accountId limits sequence)
    else (.ok c.states.next, c.createState accountId limits sequence)

end AccountAdmissionController

/-! ### Threads -/

inductive AdmissionCall
  | checkRequestRate | tryAcquireTunnel | activeTunnels
  deriving DecidableEq

/-- Where a call stands; `state` is its clone of the account's `Arc`. -/
inductive AdmissionThread
  | enter (call : AdmissionCall) (accountId : AccountId) (limits : AccountLimits) (sequence : ℕ)
  | rate (accountId : AccountId) (state : ℕ)
  | limited (accountId : AccountId) (state limiter : ℕ)
  | load (accountId : AccountId) (state : ℕ)
  | compare (accountId : AccountId) (state current : ℕ)
  | exchange (accountId : AccountId) (state current limit : ℕ)
  | count (accountId : AccountId) (state : ℕ)
  deriving DecidableEq

namespace AdmissionThread

/-- What a call does once it has its state. -/
def start (accountId : AccountId) (state : ℕ) : AdmissionCall → AdmissionThread
  | .checkRequestRate => .rate accountId state
  | .tryAcquireTunnel => .load accountId state
  | .activeTunnels => .count accountId state

def holder : AdmissionThread → Option (AccountId × ℕ)
  | .enter .. => none
  | .rate accountId state | .limited accountId state _ | .load accountId state
  | .compare accountId state _ | .exchange accountId state _ _ | .count accountId state =>
    some (accountId, state)

end AdmissionThread

/-- The controller, the calls in progress, the live tunnel guards and the clock. `accepted` lists
the requests that were let through, the latest first, and `due` when the limiter that an account
last passed is full again. -/
structure AdmissionSystem where
  controller : AccountAdmissionController
  threads : List AdmissionThread
  guards : List (AccountId × ℕ)
  now : ℚ
  accepted : List (AccountId × ℚ)
  due : AccountId → Option ℚ

inductive AdmissionAct
  | wait (time : ℚ)
  | begin (call : AdmissionCall) (accountId : AccountId) (limits : AccountLimits)
  | lock (call : AdmissionCall) (accountId : AccountId) (limits : AccountLimits) (sequence : ℕ)
      (candidate : Option AccountId)
  | thread (thread : AdmissionThread)
  | drop (accountId : AccountId) (state : ℕ)

namespace AdmissionSystem

def init (controller : AccountAdmissionController) (now : ℚ) : AdmissionSystem :=
  ⟨controller, [], [], now, [], fun _ => none⟩

/-- The clones of state `Arc`s outside the map. -/
def holders (s : AdmissionSystem) : List (AccountId × ℕ) :=
  s.threads.filterMap AdmissionThread.holder ++ s.guards

def cell (s : AdmissionSystem) (state : ℕ) : AccountAdmissionState := s.controller.states.cells state

/-- The thread moves on to where it stands next. -/
def moveOn (s : AdmissionSystem) (thread next : AdmissionThread) : AdmissionSystem :=
  { s with threads := next :: s.threads.erase thread }

/-- The thread's call returns and its clone is dropped. -/
def finish (s : AdmissionSystem) (thread : AdmissionThread) : AdmissionSystem :=
  { s with threads := s.threads.erase thread }

def modifyState (s : AdmissionSystem) (state : ℕ) (f : AccountAdmissionState → AccountAdmissionState) :
    AdmissionSystem :=
  { s with controller := { s.controller with states := s.controller.states.modify state f } }

def isCandidate (s : AdmissionSystem) (candidate : Option AccountId) : Prop :=
  s.controller.states.LeastUsed
    (fun state => (s.cell state).activeTunnels = 0 ∧ ArcCache.strongCount s.holders state = 1)
    AccountAdmissionState.lastUsed candidate

instance (s : AdmissionSystem) (candidate : Option AccountId) : Decidable (s.isCandidate candidate) :=
  inferInstanceAs (Decidable (ArcCache.LeastUsed _ _ _ _))

/-- The end of `state_for`: the call continues with its state or returns the error. -/
def lockSection (s : AdmissionSystem) (call : AdmissionCall) (accountId : AccountId)
    (limits : AccountLimits) (sequence : ℕ) (candidate : Option AccountId) : AdmissionSystem :=
  let thread := .enter call accountId limits sequence
  match s.controller.stateFor accountId limits sequence candidate with
  | (.ok state, controller) => { s with controller }.moveOn thread (.start accountId state call)
  | (.error _, controller) => { s with controller }.finish thread

/-- `limiter.check()` at the time of the clock. -/
def checkLimiter (s : AdmissionSystem) (accountId : AccountId) (limiter : ℕ) : AdmissionSystem :=
  match (s.controller.limiters limiter).check s.now with
  | .ok g =>
    { s with
      controller := { s.controller with limiters := Function.update s.controller.limiters limiter g }
      accepted := (accountId, s.now) :: s.accepted
      due := Function.update s.due accountId g.tat }
  | .error _ => s

/-- What a call that holds its state does next. A compare-exchange may fail spuriously. -/
inductive ThreadStep (s : AdmissionSystem) : AdmissionThread → AdmissionSystem → Prop
  | rate (a : AccountId) (p : ℕ) :
      ThreadStep s (.rate a p) (s.moveOn (.rate a p) (.limited a p (s.cell p).requestLimiter))
  | limited (a : AccountId) (p limiter : ℕ) :
      ThreadStep s (.limited a p limiter) ((s.checkLimiter a limiter).finish (.limited a p limiter))
  | load (a : AccountId) (p : ℕ) :
      ThreadStep s (.load a p) (s.moveOn (.load a p) (.compare a p (s.cell p).activeTunnels))
  | refuse (a : AccountId) (p current : ℕ) (h : (s.cell p).limits.maxConcurrentTunnels.1 ≤ current) :
      ThreadStep s (.compare a p current) (s.finish (.compare a p current))
  | below (a : AccountId) (p current : ℕ) (h : current < (s.cell p).limits.maxConcurrentTunnels.1) :
      ThreadStep s (.compare a p current)
        (s.moveOn (.compare a p current) (.exchange a p current (s.cell p).limits.maxConcurrentTunnels.1))
  | acquire (a : AccountId) (p current limit : ℕ) (h : (s.cell p).activeTunnels = current) :
      ThreadStep s (.exchange a p current limit)
        { (s.modifyState p fun st => { st with activeTunnels := current + 1 }).finish
            (.exchange a p current limit) with guards := (a, p) :: s.guards }
  | retry (a : AccountId) (p current limit : ℕ) :
      ThreadStep s (.exchange a p current limit) (s.moveOn (.exchange a p current limit) (.load a p))
  | count (a : AccountId) (p : ℕ) : ThreadStep s (.count a p) (s.finish (.count a p))

inductive Step (s : AdmissionSystem) : AdmissionAct → AdmissionSystem → Prop
  | wait (t : ℚ) (h : s.now ≤ t) : Step s (.wait t) { s with now := t }
  | begin (call : AdmissionCall) (a : AccountId) (limits : AccountLimits) :
      Step s (.begin call a limits) { s with
        controller := { s.controller with sequence := (s.controller.sequence + 1) % 2 ^ 64 }
        threads := .enter call a limits s.controller.sequence :: s.threads }
  | lock (call : AdmissionCall) (a : AccountId) (limits : AccountLimits) (sequence : ℕ)
      (candidate : Option AccountId) (hmem : .enter call a limits sequence ∈ s.threads)
      (hcandidate : s.isCandidate candidate) :
      Step s (.lock call a limits sequence candidate) (s.lockSection call a limits sequence candidate)
  | thread {th : AdmissionThread} {s' : AdmissionSystem} (hmem : th ∈ s.threads)
      (h : ThreadStep s th s') : Step s (.thread th) s'
  | drop (a : AccountId) (p : ℕ) (hmem : (a, p) ∈ s.guards) :
      Step s (.drop a p) { s.modifyState p fun st => { st with activeTunnels := st.activeTunnels - 1 } with
        guards := s.guards.erase (a, p) }

end AdmissionSystem

end Cobra
