import CobraProxy.Spec.Breaker

/-! The tasks of the bridge: spawned and reaped while it serves, drained when it shuts down. A `JoinSet` yields the
result of each of its tasks once, in any order; tasks end, and timers fire, at any time. -/

namespace Cobra

inductive BridgeTaskKind
  | metrics | internal | «public»
  deriving DecidableEq

inductive BridgeTaskOutcome
  | completed (kind : BridgeTaskKind)
  | failed (kind : BridgeTaskKind)
  deriving DecidableEq

inductive JoinError
  | panic | cancelled
  deriving DecidableEq

abbrev JoinResult := Except JoinError BridgeTaskOutcome

inductive BridgeTaskCompletion
  | completed | failed

structure BridgeDrainSummary where
  completed : ℕ
  failed : ℕ
  deadlineCancelled : ℕ
  forceAborted : ℕ
  deadlineReached : Bool
  terminationConfirmed : Bool

def BridgeDrainSummary.observe (summary : BridgeDrainSummary) : BridgeTaskCompletion → BridgeDrainSummary
  | .completed => { summary with completed := saturatingAdd summary.completed 1 }
  | .failed => { summary with failed := saturatingAdd summary.failed 1 }

/-- The counters of `CircuitMetrics` that tasks change. -/
structure BridgeTaskMetrics where
  active : UInt64
  completed : UInt64
  failed : UInt64
  deadlineCancelled : UInt64
  forceAborted : UInt64

/-- The tasks that run, and the results that wait to be joined. -/
structure JoinSet where
  running : List BridgeTaskKind
  finished : List JoinResult

namespace JoinSet

def new : JoinSet := ⟨[], []⟩

def len (tasks : JoinSet) : ℕ := tasks.running.length + tasks.finished.length

def isEmpty (tasks : JoinSet) : Bool := tasks.len == 0

end JoinSet

def recordJoin (metrics : BridgeTaskMetrics) : JoinResult → BridgeTaskMetrics × BridgeTaskCompletion
  | .ok (.completed _) => ({ metrics with completed := metrics.completed + 1 }, .completed)
  | .ok (.failed _) => ({ metrics with failed := metrics.failed + 1 }, .failed)
  | .error _ => ({ metrics with failed := metrics.failed + 1 }, .failed)

/-- Where the owner of the registry is: before `drain`, in one of its four loops, or after it. -/
inductive DrainPoint
  | serving | firstSweep | waiting | lastSweep | terminating | done
  deriving DecidableEq

/-- The loops that record what they join. -/
def DrainPoint.collects : DrainPoint → Bool
  | .firstSweep | .waiting | .lastSweep => true
  | .serving | .terminating | .done => false

/-- After `abort_all`. A drain that found nothing to abort counts as well. -/
def DrainPoint.settled : DrainPoint → Bool
  | .terminating | .done => true
  | .serving | .firstSweep | .waiting | .lastSweep => false

structure DrainSystem where
  point : DrainPoint
  tasks : JoinSet
  metrics : BridgeTaskMetrics
  summary : BridgeDrainSummary

inductive DrainAct
  | spawn (kind : BridgeTaskKind)
  | finish (result : JoinResult)
  | reap (result : JoinResult)
  | drain
  | observe (result : JoinResult)
  | sweepEnd
  | drained
  | drainDeadline
  | terminated (result : JoinResult)
  | termination
  | forceStopDeadline
  deriving DecidableEq

/-- How a task can end. It is cancelled only once it was aborted. -/
inductive TaskEnds (aborted : Bool) (kind : BridgeTaskKind) : JoinResult → Prop
  | completed : TaskEnds aborted kind (.ok (.completed kind))
  | failed : TaskEnds aborted kind (.ok (.failed kind))
  | panic : TaskEnds aborted kind (.error .panic)
  | cancelled (h : aborted = true) : TaskEnds aborted kind (.error .cancelled)

namespace DrainSystem

/-- The registry when the bridge starts. -/
def init (metrics : BridgeTaskMetrics) : DrainSystem := ⟨.serving, .new, metrics, ⟨0, 0, 0, 0, false, false⟩⟩

/-- The registry when `drain` is called on it. -/
def drainStart (tasks : JoinSet) (metrics : BridgeTaskMetrics) : DrainSystem :=
  ⟨.firstSweep, tasks, metrics, ⟨0, 0, 0, 0, false, true⟩⟩

/-- The task counts as active from the call on. -/
def spawn (s : DrainSystem) (kind : BridgeTaskKind) : DrainSystem :=
  { s with
    tasks.running := s.tasks.running ++ [kind]
    metrics.active := s.metrics.active + 1 }

def reap (s : DrainSystem) (finished : List JoinResult) (result : JoinResult) : DrainSystem :=
  { s with tasks.finished := finished, metrics := (recordJoin s.metrics result).1 }

def observe (s : DrainSystem) (finished : List JoinResult) (result : JoinResult) : DrainSystem :=
  { s.reap finished result with summary := s.summary.observe (recordJoin s.metrics result).2 }

def afterFirstSweep (s : DrainSystem) : DrainSystem :=
  { s with point := if s.tasks.isEmpty then .done else .waiting }

def afterLastSweep (s : DrainSystem) : DrainSystem :=
  if s.tasks.isEmpty then { s with point := .done }
  else
    { s with
      point := .terminating
      summary.deadlineCancelled := s.tasks.len
      metrics.deadlineCancelled := s.metrics.deadlineCancelled + UInt64.ofNat s.tasks.len }

def forceStop (s : DrainSystem) : DrainSystem :=
  { s with
    point := .done
    summary.forceAborted := s.tasks.len
    summary.terminationConfirmed := false
    metrics.forceAborted := s.metrics.forceAborted + UInt64.ofNat s.tasks.len }

/-- A sweep ends when `try_join_next` returns nothing, which may overlook a task that ends just then; so it may end at
any time. -/
inductive Step : DrainSystem → DrainAct → DrainSystem → Prop
  | spawn {s} (kind : BridgeTaskKind) : s.point = .serving → Step s (.spawn kind) (s.spawn kind)
  -- the guard of the task is dropped with it, before its result can be joined
  | finish {s kind} {before after : List BridgeTaskKind} {result : JoinResult} :
      s.tasks.running = before ++ kind :: after → TaskEnds s.point.settled kind result →
      Step s (.finish result)
        { s with
          tasks.running := before ++ after
          tasks.finished := s.tasks.finished ++ [result]
          metrics.active := s.metrics.active - 1 }
  | reap {s} {before after : List JoinResult} {result : JoinResult} :
      s.point = .serving → s.tasks.finished = before ++ result :: after →
      Step s (.reap result) (s.reap (before ++ after) result)
  | drain {s} : s.point = .serving → Step s .drain (drainStart s.tasks s.metrics)
  | observe {s} {before after : List JoinResult} {result : JoinResult} :
      s.point.collects = true → s.tasks.finished = before ++ result :: after →
      Step s (.observe result) (s.observe (before ++ after) result)
  | firstSweepEnd {s} : s.point = .firstSweep → Step s .sweepEnd s.afterFirstSweep
  | drained {s} : s.point = .waiting → s.tasks.isEmpty = true →
      Step s .drained { s with point := .lastSweep }
  | drainDeadline {s} : s.point = .waiting → s.tasks.isEmpty = false →
      Step s .drainDeadline { s with point := .lastSweep, summary.deadlineReached := true }
  | lastSweepEnd {s} : s.point = .lastSweep → Step s .sweepEnd s.afterLastSweep
  -- the loop after `abort_all` drops what it joins
  | terminated {s} {before after : List JoinResult} {result : JoinResult} :
      s.point = .terminating → s.tasks.finished = before ++ result :: after →
      Step s (.terminated result) { s with tasks.finished := before ++ after }
  | termination {s} : s.point = .terminating → s.tasks.isEmpty = true →
      Step s .termination { s with point := .done }
  | forceStopDeadline {s} : s.point = .terminating → s.tasks.isEmpty = false →
      Step s .forceStopDeadline s.forceStop

end DrainSystem

end Cobra
