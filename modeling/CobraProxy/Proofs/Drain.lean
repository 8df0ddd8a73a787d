import CobraProxy.Lib.Run
import CobraProxy.Spec.Drain

/-! Every task is counted once. While a drain collects, what it recorded and what the set still holds add up to the
tasks it began with; what is left when it stops collecting is cancelled, and counted as such. -/

namespace Cobra

open Runs

@[simp] theorem JoinSet.isEmpty_eq_true {tasks : JoinSet} : tasks.isEmpty = true ↔ tasks.len = 0 := by
  simp [JoinSet.isEmpty]

@[simp] theorem JoinSet.isEmpty_eq_false {tasks : JoinSet} : tasks.isEmpty = false ↔ 0 < tasks.len := by
  rw [← Bool.not_eq_true, JoinSet.isEmpty_eq_true]
  omega

/-- Joining takes one task out of the set. -/
theorem JoinSet.len_of_joined {tasks : JoinSet} {before after : List JoinResult} {result : JoinResult}
    (h : tasks.finished = before ++ result :: after) :
    tasks.len = JoinSet.len { tasks with finished := before ++ after } + 1 := by
  simp only [JoinSet.len, h, List.length_append, List.length_cons]
  omega

/-- A task that ends stays in the set until it is joined. -/
theorem JoinSet.len_of_finish {tasks : JoinSet} {before after : List BridgeTaskKind} {kind : BridgeTaskKind}
    (result : JoinResult) (h : tasks.running = before ++ kind :: after) :
    JoinSet.len ⟨before ++ after, tasks.finished ++ [result]⟩ = tasks.len := by
  simp only [JoinSet.len, h, List.length_append, List.length_cons, List.length_nil]
  omega

theorem recordJoin_eq (metrics : BridgeTaskMetrics) (result : JoinResult) :
    recordJoin metrics result = ({ metrics with completed := metrics.completed + 1 }, .completed) ∨
      recordJoin metrics result = ({ metrics with failed := metrics.failed + 1 }, .failed) := by
  rcases result with _ | _ | _
  · exact Or.inr rfl
  · exact Or.inl rfl
  · exact Or.inr rfl

theorem saturatingAdd_one {n : ℕ} (h : n + 1 < 2 ^ 64) : saturatingAdd n 1 = n + 1 := by
  unfold saturatingAdd
  omega

theorem ofNat_saturatingAdd_one {n : ℕ} (h : n + 1 < 2 ^ 64) :
    UInt64.ofNat (saturatingAdd n 1) = UInt64.ofNat n + 1 := by
  rw [saturatingAdd_one h, UInt64.ofNat_add]
  rfl

theorem DrainPoint.collects_iff {point : DrainPoint} :
    point.collects = true ↔ point.settled = false ∧ point ≠ .serving := by
  cases point <;> simp [DrainPoint.collects, DrainPoint.settled]

namespace DrainSystem

/-- The counters have moved from `metrics` by what the summary says. -/
structure Recorded (metrics : BridgeTaskMetrics) (s : DrainSystem) : Prop where
  completed : s.metrics.completed = metrics.completed + UInt64.ofNat s.summary.completed
  failed : s.metrics.failed = metrics.failed + UInt64.ofNat s.summary.failed
  deadlineCancelled :
    s.metrics.deadlineCancelled = metrics.deadlineCancelled + UInt64.ofNat s.summary.deadlineCancelled
  forceAborted : s.metrics.forceAborted = metrics.forceAborted + UInt64.ofNat s.summary.forceAborted

/-- What the summary says of the `n` tasks it was begun with, before and after the drain stopped collecting. -/
structure Accounts (n : ℕ) (metrics : BridgeTaskMetrics) (s : DrainSystem) : Prop where
  draining : s.point ≠ .serving
  counted : s.summary.completed + s.summary.failed +
    (if s.point.settled then s.summary.deadlineCancelled else s.tasks.len) = n
  uncancelled : s.point.settled = false → s.summary.deadlineCancelled = 0
  left : s.point.settled = true → s.tasks.len ≤ s.summary.deadlineCancelled
  late : s.point = .lastSweep ∧ 0 < s.tasks.len ∨ 0 < s.summary.deadlineCancelled → s.summary.deadlineReached = true
  forced : s.summary.forceAborted ≤ s.summary.deadlineCancelled
  unforced : s.point ≠ .done → s.summary.forceAborted = 0
  confirmed : s.summary.terminationConfirmed = true ↔ s.summary.forceAborted = 0
  cleared : s.point = .done → s.summary.terminationConfirmed = true → s.tasks.len = 0
  recorded : s.Recorded metrics

section Steps

variable {n : ℕ} {metrics : BridgeTaskMetrics} {s s' : DrainSystem} {a : DrainAct}

theorem accounts_drainStart (tasks : JoinSet) (metrics : BridgeTaskMetrics) :
    (drainStart tasks metrics).Accounts tasks.len metrics := by
  have hrecorded : (drainStart tasks metrics).Recorded metrics := by constructor <;> simp [drainStart]
  constructor <;> first | exact hrecorded | simp [drainStart, DrainPoint.settled]

theorem Accounts.counted_of_collecting (h : s.Accounts n metrics) (hsettled : s.point.settled = false) :
    s.summary.completed + s.summary.failed + s.tasks.len = n := by
  have hcounted := h.counted
  rwa [hsettled, if_neg Bool.false_ne_true] at hcounted

theorem Accounts.counted_of_settled (h : s.Accounts n metrics) (hsettled : s.point.settled = true) :
    s.summary.completed + s.summary.failed + s.summary.deadlineCancelled = n := by
  have hcounted := h.counted
  rwa [hsettled, if_pos rfl] at hcounted

theorem Accounts.finish (h : s.Accounts n metrics) {tasks : JoinSet} (active : UInt64) (hlen : tasks.len = s.tasks.len) :
    { s with tasks := tasks, metrics.active := active }.Accounts n metrics where
  draining := h.draining
  counted := by rw [hlen]; exact h.counted
  uncancelled := h.uncancelled
  left := by rw [hlen]; exact h.left
  late := by rw [hlen]; exact h.late
  forced := h.forced
  unforced := h.unforced
  confirmed := h.confirmed
  cleared := by rw [hlen]; exact h.cleared
  recorded := ⟨h.recorded.1, h.recorded.2, h.recorded.3, h.recorded.4⟩

theorem Recorded.observe (h : s.Recorded metrics) (hbound : s.summary.completed + s.summary.failed + 1 < 2 ^ 64)
    (finished : List JoinResult) (result : JoinResult) :
    (s.observe finished result).Recorded metrics ∧
      ∃ completed failed, completed + failed = s.summary.completed + s.summary.failed + 1 ∧
        (s.observe finished result).summary = { s.summary with completed := completed, failed := failed } := by
  obtain ⟨hcompleted, hfailed, hcancelled, hforced⟩ := h
  unfold DrainSystem.observe DrainSystem.reap
  rcases recordJoin_eq s.metrics result with hrec | hrec
  · rw [hrec]
    refine ⟨⟨?_, hfailed, hcancelled, hforced⟩, _, _, ?_, rfl⟩
    · change s.metrics.completed + 1 = _ + UInt64.ofNat (saturatingAdd s.summary.completed 1)
      rw [ofNat_saturatingAdd_one (by omega), hcompleted, UInt64.add_assoc]
    · rw [saturatingAdd_one (by omega)]
      omega
  · rw [hrec]
    refine ⟨⟨hcompleted, ?_, hcancelled, hforced⟩, _, _, ?_, rfl⟩
    · change s.metrics.failed + 1 = _ + UInt64.ofNat (saturatingAdd s.summary.failed 1)
      rw [ofNat_saturatingAdd_one (by omega), hfailed, UInt64.add_assoc]
    · rw [saturatingAdd_one (by omega)]
      omega

/-- What is recorded has left the set. -/
theorem Accounts.observe (h : s.Accounts n metrics) (hn : n < 2 ^ 64) (hpoint : s.point.collects = true)
    {before after : List JoinResult} {result : JoinResult} (htasks : s.tasks.finished = before ++ result :: after) :
    (s.observe (before ++ after) result).Accounts n metrics := by
  obtain ⟨hsettled, -⟩ := DrainPoint.collects_iff.1 hpoint
  have hlen := JoinSet.len_of_joined htasks
  have hcounted := h.counted_of_collecting hsettled
  have hzero := h.uncancelled hsettled
  have hdone : s.point ≠ .done := by
    intro hdone
    rw [hdone] at hsettled
    exact absurd hsettled (by decide)
  obtain ⟨hrecorded, completed, failed, hsum, hsummary⟩ :=
    h.recorded.observe (by omega) (before ++ after) result
  have hpoint' : (s.observe (before ++ after) result).point = s.point := rfl
  have hlen' : (s.observe (before ++ after) result).tasks.len + 1 = s.tasks.len := hlen.symm
  generalize s.observe (before ++ after) result = t at hrecorded hsummary hpoint' hlen' ⊢
  obtain ⟨point, tasks, counters, summary⟩ := t
  dsimp only at hsummary hpoint' hlen'
  subst hsummary hpoint'
  exact {
    draining := h.draining
    counted := by
      rw [hsettled, if_neg Bool.false_ne_true]
      dsimp only
      omega
    uncancelled := fun _ => hzero
    left := fun hp => absurd (hsettled.symm.trans hp) Bool.false_ne_true
    late := by
      rintro (⟨hlast, -⟩ | hpos)
      · exact h.late (Or.inl ⟨hlast, by omega⟩)
      · exact h.late (Or.inr hpos)
    forced := h.forced
    unforced := fun _ => h.unforced hdone
    confirmed := h.confirmed
    cleared := fun hp => absurd hp hdone
    recorded := hrecorded }

/-- On to the next loop that collects. -/
theorem Accounts.next (h : s.Accounts n metrics) (hsettled : s.point.settled = false) {point : DrainPoint}
    (hpoint : point.collects = true) (reached : Bool)
    (hlate : point = .lastSweep → 0 < s.tasks.len → reached = true) :
    { s with point := point, summary.deadlineReached := reached }.Accounts n metrics := by
  obtain ⟨hpoint', hserving⟩ := DrainPoint.collects_iff.1 hpoint
  have hcounted := h.counted_of_collecting hsettled
  have hzero := h.uncancelled hsettled
  have hdone : s.point ≠ .done := by rintro hdone; rw [hdone] at hsettled; exact absurd hsettled (by decide)
  exact {
    draining := hserving
    counted := by rw [hpoint', if_neg Bool.false_ne_true]; exact hcounted
    uncancelled := fun _ => hzero
    left := fun hp => absurd (hpoint'.symm.trans hp) Bool.false_ne_true
    late := by
      rintro (⟨hlast, hpos⟩ | hpos)
      · exact hlate hlast hpos
      · dsimp only at hpos
        omega
    forced := h.forced
    unforced := fun _ => h.unforced hdone
    confirmed := h.confirmed
    cleared := by
      rintro (hp : point = .done)
      rw [hp] at hpoint'
      exact absurd hpoint' (by decide)
    recorded := ⟨h.recorded.1, h.recorded.2, h.recorded.3, h.recorded.4⟩ }

/-- Nothing is left, whether or not it had to be aborted. -/
theorem Accounts.emptied (h : s.Accounts n metrics) (hlen : s.tasks.len = 0) :
    { s with point := .done }.Accounts n metrics where
  draining := by simp
  counted := by
    cases hsettled : s.point.settled with
    | true => exact h.counted_of_settled hsettled
    | false =>
      have hcounted := h.counted_of_collecting hsettled
      have hzero := h.uncancelled hsettled
      simp only [DrainPoint.settled, if_true]
      omega
  uncancelled := by simp [DrainPoint.settled]
  left := fun _ => by simp [hlen]
  late := by
    rintro (⟨hp, -⟩ | hpos)
    · exact absurd hp (by simp)
    · exact h.late (Or.inr hpos)
  forced := h.forced
  unforced := fun hp => absurd rfl hp
  confirmed := h.confirmed
  cleared := fun _ _ => hlen
  recorded := ⟨h.recorded.1, h.recorded.2, h.recorded.3, h.recorded.4⟩

theorem Accounts.cancel (h : s.Accounts n metrics) (hpoint : s.point = .lastSweep) (hlen : 0 < s.tasks.len) :
    { s with
      point := .terminating
      summary.deadlineCancelled := s.tasks.len
      metrics.deadlineCancelled := s.metrics.deadlineCancelled + UInt64.ofNat s.tasks.len }.Accounts n metrics where
  draining := by simp
  counted := h.counted_of_collecting (by rw [hpoint]; rfl)
  uncancelled := by simp [DrainPoint.settled]
  left := fun _ => le_rfl
  late := fun _ => h.late (Or.inl ⟨hpoint, hlen⟩)
  forced := by
    rw [h.unforced (by simp [hpoint])]
    exact Nat.zero_le _
  unforced := fun _ => h.unforced (by simp [hpoint])
  confirmed := h.confirmed
  cleared := by simp
  recorded := by
    have hzero := h.uncancelled (by rw [hpoint]; rfl)
    have hcancelled := h.recorded.deadlineCancelled
    rw [hzero] at hcancelled
    refine ⟨h.recorded.1, h.recorded.2, ?_, h.recorded.4⟩
    dsimp only
    rw [hcancelled]
    simp

theorem Accounts.terminated (h : s.Accounts n metrics) (hpoint : s.point = .terminating)
    {before after : List JoinResult} {result : JoinResult} (htasks : s.tasks.finished = before ++ result :: after) :
    { s with tasks.finished := before ++ after }.Accounts n metrics := by
  have hlen := JoinSet.len_of_joined htasks
  have hsettled : s.point.settled = true := by rw [hpoint]; rfl
  have hleft := h.left hsettled
  exact {
    draining := h.draining
    counted := by
      rw [hsettled, if_pos rfl]
      exact h.counted_of_settled hsettled
    uncancelled := h.uncancelled
    left := fun _ => by dsimp only; omega
    late := by
      rintro (⟨hp, -⟩ | hpos)
      · exact absurd (hpoint.symm.trans hp) (by simp)
      · exact h.late (Or.inr hpos)
    forced := h.forced
    unforced := h.unforced
    confirmed := h.confirmed
    cleared := fun hp => absurd (hpoint.symm.trans hp) (by simp)
    recorded := ⟨h.recorded.1, h.recorded.2, h.recorded.3, h.recorded.4⟩ }

theorem Accounts.forceStop (h : s.Accounts n metrics) (hpoint : s.point = .terminating) (hlen : 0 < s.tasks.len) :
    s.forceStop.Accounts n metrics := by
  have hsettled : s.point.settled = true := by rw [hpoint]; rfl
  have hnone := h.unforced (by simp [hpoint])
  exact {
    draining := by simp [DrainSystem.forceStop]
    counted := h.counted_of_settled hsettled
    uncancelled := by simp [DrainSystem.forceStop, DrainPoint.settled]
    left := fun _ => h.left hsettled
    late := by
      rintro (⟨hp, -⟩ | hpos)
      · exact absurd hp (by simp [DrainSystem.forceStop])
      · exact h.late (Or.inr hpos)
    forced := h.left hsettled
    unforced := fun hp => absurd rfl hp
    confirmed := by
      simp only [DrainSystem.forceStop, Bool.false_eq_true, false_iff]
      omega
    cleared := fun _ hp => absurd hp (by simp [DrainSystem.forceStop])
    recorded := by
      have hforced := h.recorded.forceAborted
      rw [hnone] at hforced
      refine ⟨h.recorded.1, h.recorded.2, h.recorded.3, ?_⟩
      simp only [DrainSystem.forceStop, hforced]
      simp }

theorem Accounts.step (hn : n < 2 ^ 64) (h : s.Accounts n metrics) (hs : Step s a s') : s'.Accounts n metrics := by
  cases hs with
  | spawn _ hpoint => exact absurd hpoint h.draining
  | finish hrunning _ => exact h.finish _ (JoinSet.len_of_finish _ hrunning)
  | reap hpoint _ => exact absurd hpoint h.draining
  | drain hpoint => exact absurd hpoint h.draining
  | observe hpoint htasks => exact h.observe hn hpoint htasks
  | firstSweepEnd hpoint =>
    unfold DrainSystem.afterFirstSweep
    by_cases hempty : s.tasks.isEmpty = true
    · rw [if_pos hempty]
      exact h.emptied (JoinSet.isEmpty_eq_true.1 hempty)
    · rw [if_neg hempty]
      exact h.next (by rw [hpoint]; rfl) rfl s.summary.deadlineReached (by simp)
  | drained hpoint hempty =>
    have hlen := JoinSet.isEmpty_eq_true.1 hempty
    exact h.next (by rw [hpoint]; rfl) rfl s.summary.deadlineReached (fun _ hpos => by omega)
  | drainDeadline hpoint _ => exact h.next (by rw [hpoint]; rfl) rfl true (fun _ _ => rfl)
  | lastSweepEnd hpoint =>
    unfold DrainSystem.afterLastSweep
    by_cases hempty : s.tasks.isEmpty = true
    · rw [if_pos hempty]
      exact h.emptied (JoinSet.isEmpty_eq_true.1 hempty)
    · rw [if_neg hempty]
      exact h.cancel hpoint (JoinSet.isEmpty_eq_false.1 (Bool.eq_false_of_not_eq_true hempty))
  | terminated hpoint htasks => exact h.terminated hpoint htasks
  | termination hpoint hempty => exact h.emptied (JoinSet.isEmpty_eq_true.1 hempty)
  | forceStopDeadline hpoint hempty => exact h.forceStop hpoint (JoinSet.isEmpty_eq_false.1 hempty)

end Steps

/-- What a drain returns accounts for the tasks that the registry owned when it began, each once. -/
theorem drain_accounts_for_every_task {tasks : JoinSet} {metrics : BridgeTaskMetrics} {s : DrainSystem}
    {tr : List (DrainSystem × DrainAct)} (hlen : tasks.len < 2 ^ 64)
    (hrun : Run Step (drainStart tasks metrics) tr s) (hdone : s.point = .done) :
    s.summary.completed + s.summary.failed + s.summary.deadlineCancelled = tasks.len ∧
      s.summary.forceAborted ≤ s.summary.deadlineCancelled ∧
      (s.summary.terminationConfirmed = true ↔ s.summary.forceAborted = 0) ∧
      (0 < s.summary.deadlineCancelled → s.summary.deadlineReached = true) ∧
      (s.summary.terminationConfirmed = true → s.tasks.isEmpty = true) ∧
      s.metrics.completed = metrics.completed + UInt64.ofNat s.summary.completed ∧
      s.metrics.failed = metrics.failed + UInt64.ofNat s.summary.failed ∧
      s.metrics.deadlineCancelled = metrics.deadlineCancelled + UInt64.ofNat s.summary.deadlineCancelled ∧
      s.metrics.forceAborted = metrics.forceAborted + UInt64.ofNat s.summary.forceAborted := by
  have h : s.Accounts tasks.len metrics :=
    hrun.invariant (accounts_drainStart tasks metrics) (fun _ _ _ hI hs => hI.step hlen hs)
  exact ⟨h.counted_of_settled (by rw [hdone]; rfl), h.forced, h.confirmed, fun hpos => h.late (Or.inr hpos),
    fun hc => JoinSet.isEmpty_eq_true.2 (h.cleared hdone hc), h.recorded.1, h.recorded.2, h.recorded.3, h.recorded.4⟩

/-- One task completes, and the other one is still running at the deadline. -/
theorem drain_accounts_for_cancelled_task :
    ∃ tr s, Run Step (drainStart ⟨[.metrics, .public], []⟩ ⟨2, 0, 0, 0, 0⟩) tr s ∧ s.point = .done ∧
      s.summary.completed = 1 ∧ s.summary.deadlineCancelled = 1 ∧ s.metrics.active = 0 ∧
      s.summary.completed + s.summary.failed + s.summary.deadlineCancelled = 2 := by
  have hwaiting : Step (drainStart ⟨[.metrics, .public], []⟩ ⟨2, 0, 0, 0, 0⟩) _ _ := .firstSweepEnd rfl
  have hrun := Run.nil.snoc hwaiting
    |>.snoc (Step.finish (show _ = [] ++ BridgeTaskKind.metrics :: _ from rfl) .completed)
    |>.snoc (Step.observe rfl (show _ = [] ++ Except.ok (.completed .metrics) :: _ from rfl))
    |>.snoc (Step.drainDeadline rfl rfl)
    |>.snoc (Step.lastSweepEnd rfl)
    |>.snoc (Step.finish (show _ = [] ++ BridgeTaskKind.public :: _ from rfl) (.cancelled rfl))
    |>.snoc (Step.terminated rfl (show _ = [] ++ Except.error JoinError.cancelled :: _ from rfl))
    |>.snoc (Step.termination rfl rfl)
  exact ⟨_, _, hrun, rfl, by decide, by decide, by decide, (drain_accounts_for_every_task (by decide) hrun rfl).1⟩

/-! ### The whole life of a registry -/

section Life

variable {metrics : BridgeTaskMetrics} {s s' : DrainSystem} {a : DrainAct} {tr : List (DrainSystem × DrainAct)}

def spawns : DrainAct → ℕ
  | .spawn _ => 1
  | _ => 0

/-- The tasks that a run spawns. -/
def spawned (tr : List (DrainSystem × DrainAct)) : ℕ := (tr.map fun p => spawns p.2).sum

/-- The tasks that no counter has yet. -/
def uncounted (s : DrainSystem) : ℕ := if s.point.settled then 0 else s.tasks.len

def countedTasks (metrics : BridgeTaskMetrics) : UInt64 :=
  metrics.completed + metrics.failed + metrics.deadlineCancelled

theorem countedTasks_recordJoin (metrics : BridgeTaskMetrics) (result : JoinResult) :
    countedTasks (recordJoin metrics result).1 = countedTasks metrics + 1 ∧
      (recordJoin metrics result).1.active = metrics.active := by
  unfold countedTasks
  rcases recordJoin_eq metrics result with hrec | hrec
  · rw [hrec]
    exact ⟨by grind, rfl⟩
  · rw [hrec]
    exact ⟨by grind, rfl⟩

/-- `observe` does the same to the counters and to the set. -/
theorem countedTasks_reap {before after : List JoinResult} {result : JoinResult} (hsettled : s.point.settled = false)
    (htasks : s.tasks.finished = before ++ result :: after) :
    countedTasks (s.reap (before ++ after) result).metrics +
        UInt64.ofNat (s.reap (before ++ after) result).uncounted =
      countedTasks s.metrics + UInt64.ofNat s.uncounted + UInt64.ofNat 0 := by
  have hcounted := (countedTasks_recordJoin s.metrics result).1
  have hlen := JoinSet.len_of_joined htasks
  unfold uncounted DrainSystem.reap
  rw [hsettled, if_neg Bool.false_ne_true, if_neg Bool.false_ne_true, hcounted, hlen, UInt64.ofNat_add]
  grind

/-- A step counts a task exactly when it takes it out of those not yet counted. -/
theorem countedTasks_step (hs : Step s a s') :
    countedTasks s'.metrics + UInt64.ofNat s'.uncounted =
      countedTasks s.metrics + UInt64.ofNat s.uncounted + UInt64.ofNat (spawns a) := by
  cases hs with
  | spawn kind hpoint =>
    have hlen : (s.spawn kind).tasks.len = s.tasks.len + 1 := by
      simp only [DrainSystem.spawn, JoinSet.len, List.length_append, List.length_cons, List.length_nil]
      omega
    have hcounted : countedTasks (s.spawn kind).metrics = countedTasks s.metrics := rfl
    have hpoint' : (s.spawn kind).point = .serving := hpoint
    unfold uncounted
    rw [hcounted, hpoint', hpoint, hlen]
    simp only [DrainPoint.settled, Bool.false_eq_true, if_false, spawns, UInt64.ofNat_add]
    grind
  | @finish kind before after result hrunning _ =>
    have hlen := JoinSet.len_of_finish result hrunning
    unfold uncounted
    rw [show spawns (.finish result) = 0 from rfl, hlen]
    simp [countedTasks]
  | reap hpoint htasks => exact countedTasks_reap (by rw [hpoint]; rfl) htasks
  | drain hpoint => simp [drainStart, uncounted, hpoint, DrainPoint.settled, spawns]
  | observe hpoint htasks => exact countedTasks_reap (DrainPoint.collects_iff.1 hpoint).1 htasks
  | firstSweepEnd hpoint =>
    unfold DrainSystem.afterFirstSweep
    by_cases hempty : s.tasks.isEmpty = true
    · have hlen := JoinSet.isEmpty_eq_true.1 hempty
      simp [uncounted, hpoint, hlen, DrainPoint.settled, spawns]
    · simp [uncounted, hpoint, hempty, DrainPoint.settled, spawns]
  | drained hpoint _ => simp [uncounted, hpoint, DrainPoint.settled, spawns]
  | drainDeadline hpoint _ => simp [uncounted, hpoint, DrainPoint.settled, spawns]
  | lastSweepEnd hpoint =>
    unfold DrainSystem.afterLastSweep
    by_cases hempty : s.tasks.isEmpty = true
    · have hlen := JoinSet.isEmpty_eq_true.1 hempty
      simp [uncounted, hpoint, hlen, DrainPoint.settled, spawns]
    · rw [if_neg hempty]
      simp [uncounted, hpoint, DrainPoint.settled, spawns, countedTasks, UInt64.add_assoc]
  | terminated hpoint _ => simp [uncounted, hpoint, DrainPoint.settled, spawns]
  | termination hpoint _ => simp [uncounted, hpoint, DrainPoint.settled, spawns]
  | forceStopDeadline hpoint _ =>
    simp [DrainSystem.forceStop, uncounted, hpoint, DrainPoint.settled, spawns, countedTasks]

/-- The gauge follows the tasks that run. -/
theorem active_step (h : s.metrics.active = metrics.active + UInt64.ofNat s.tasks.running.length) (hs : Step s a s') :
    s'.metrics.active = metrics.active + UInt64.ofNat s'.tasks.running.length := by
  cases hs with
  | spawn kind _ =>
    simp only [DrainSystem.spawn, h, List.length_append, List.length_cons, List.length_nil, UInt64.ofNat_add]
    grind
  | finish hrunning _ =>
    rw [hrunning] at h
    simp only [List.length_append, List.length_cons, UInt64.ofNat_add] at h ⊢
    rw [h]
    grind
  | reap _ _ => exact (countedTasks_recordJoin _ _).2.trans h
  | drain _ => exact h
  | observe _ _ => exact (countedTasks_recordJoin _ _).2.trans h
  | firstSweepEnd _ => exact h
  | drained _ _ => exact h
  | drainDeadline _ _ => exact h
  | lastSweepEnd _ =>
    unfold DrainSystem.afterLastSweep
    split
    · exact h
    · exact h
  | terminated _ _ => exact h
  | termination _ _ => exact h
  | forceStopDeadline _ _ => exact h

/-- From the start of the bridge to the end of its drain, the gauge is the number of tasks that run, and each task that
was spawned is in exactly one of three counters, or the registry still owns it and has not given it up. -/
theorem registry_counts_each_spawn (hrun : Run Step (init metrics) tr s) :
    s.metrics.active = metrics.active + UInt64.ofNat s.tasks.running.length ∧
      countedTasks s.metrics + UInt64.ofNat s.uncounted = countedTasks metrics + UInt64.ofNat (spawned tr) := by
  constructor
  · exact hrun.invariant (I := fun s => s.metrics.active = metrics.active + UInt64.ofNat s.tasks.running.length)
      (by simp [init, JoinSet.new]) (fun _ _ _ hI hs => active_step hI hs)
  · induction hrun with
    | nil => simp [init, JoinSet.new, uncounted, JoinSet.len, spawned]
    | @snoc tr s s' a _ hs ih =>
      have hspawned : spawned (tr ++ [(s, a)]) = spawned tr + spawns a := by simp [spawned]
      rw [countedTasks_step hs, ih, hspawned, UInt64.ofNat_add, UInt64.add_assoc]

theorem registry_counts_two_spawns :
    ∃ tr s, Run Step (init ⟨0, 0, 0, 0, 0⟩) tr s ∧ spawned tr = 2 ∧ s.metrics.active = 1 ∧ s.metrics.failed = 1 ∧
      countedTasks s.metrics + UInt64.ofNat s.uncounted = 2 := by
  have hrun := Run.nil.snoc (Step.spawn (s := init ⟨0, 0, 0, 0, 0⟩) .public rfl)
    |>.snoc (Step.spawn .internal rfl)
    |>.snoc (Step.finish (show _ = [] ++ BridgeTaskKind.public :: _ from rfl) .panic)
    |>.snoc (Step.reap rfl (show _ = [] ++ Except.error JoinError.panic :: _ from rfl))
    |>.snoc (Step.drain rfl)
  exact ⟨_, _, hrun, by decide, by decide, by decide, (registry_counts_each_spawn hrun).2⟩

end Life

end DrainSystem

end Cobra
