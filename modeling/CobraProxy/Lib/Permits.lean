import CobraProxy.Lib.Run
import CobraProxy.Lib.Semaphore

/-! Tasks that hold permits of several semaphores and are counted in shared gauges. Each task goes from stage to stage
by single operations, in any interleaving. When the stage of a task says what it holds and where it is counted, and
every operation agrees with the stages around it, then no permit is lost, held twice or held by a task that has ended,
and every gauge is the number of tasks that it counts. -/

namespace Semaphores

open Runs

/-- What a task has of a semaphore. -/
inductive Use
  | none | asks | holds
  deriving DecidableEq

/-- `settle` finds that a request was granted. -/
inductive TaskOp (Resource Gauge : Type*)
  | idle
  | tryAcquire (r : Resource)
  | unavailable (r : Resource)
  | request (r : Resource)
  | settle (r : Resource)
  | leave (r : Resource)
  | release (r : Resource)
  | add (g : Gauge)
  | sub (g : Gauge)

structure TaskSystem (Stage Resource Gauge G S : Type*) where
  semaphores : Resource → S
  gauges : Gauge → G
  tasks : List (ℕ × Stage)

/-- `none` where a task begins. -/
abbrev TaskAct (Resource Gauge : Type*) := ℕ × Option (TaskOp Resource Gauge)

variable {Stage Resource Gauge G S : Type*} [AddCommGroupWithOne G] {sem : Semaphore S}

/-! ### Accounts -/

/-- The semaphore agrees with what the task has of it. -/
def Use.Agrees (sem : Semaphore S) (s : S) (id : ℕ) : Use → Prop
  | .none => sem.Fresh s id
  | .asks => id ∈ sem.holders s ∨ id ∈ sem.waiting s
  | .holds => id ∈ sem.holders s

structure Accounted (sem : Semaphore S) (capacity : Resource → ℕ) (use : Stage → Resource → Use)
    (counted : Stage → Gauge → Bool) (s : TaskSystem Stage Resource Gauge G S) : Prop where
  ids : (s.tasks.map Prod.fst).Nodup
  conserved : ∀ r, sem.Conserved (capacity r) (s.semaphores r)
  agrees : ∀ t ∈ s.tasks, ∀ r, (use t.2 r).Agrees sem (s.semaphores r) t.1
  owned : ∀ r id, id ∈ sem.holders (s.semaphores r) ∨ id ∈ sem.waiting (s.semaphores r) → id ∈ s.tasks.map Prod.fst
  gauges : ∀ g, s.gauges g = (s.tasks.countP (fun t => counted t.2 g) : ℕ)

variable {capacity : Resource → ℕ} {use : Stage → Resource → Use} {counted : Stage → Gauge → Bool}
  {s s' : TaskSystem Stage Resource Gauge G S}

theorem Accounted.init (hsem : sem.Lawful) (hsemaphores : ∀ r, s.semaphores r = sem.new (capacity r))
    (hgauges : ∀ g, s.gauges g = 0) (htasks : s.tasks = []) : Accounted sem capacity use counted s where
  ids := by simp [htasks]
  conserved r := by
    rw [hsemaphores r]
    exact .new hsem (capacity r)
  agrees t ht := by simp [htasks] at ht
  owned r id hid := by
    rw [hsemaphores r, hsem.holders_new, hsem.waiting_new] at hid
    simp at hid
  gauges g := by simp [htasks, hgauges]

section

variable [DecidableEq Resource] [DecidableEq Gauge]

/-- An operation of the task `id`. -/
inductive Performs (sem : Semaphore S) (id : ℕ) (semaphores : Resource → S) (gauges : Gauge → G) :
    TaskOp Resource Gauge → (Resource → S) → (Gauge → G) → Prop
  | idle : Performs sem id semaphores gauges .idle semaphores gauges
  | tryAcquire (r : Resource) (s' : S) (h : sem.tryAcquire (semaphores r) id = some s') :
      Performs sem id semaphores gauges (.tryAcquire r) (Function.update semaphores r s') gauges
  | unavailable (r : Resource) (h : sem.tryAcquire (semaphores r) id = none) :
      Performs sem id semaphores gauges (.unavailable r) semaphores gauges
  | request (r : Resource) : Performs sem id semaphores gauges (.request r)
      (Function.update semaphores r (sem.request (semaphores r) id)) gauges
  | settle (r : Resource) (h : id ∈ sem.holders (semaphores r)) :
      Performs sem id semaphores gauges (.settle r) semaphores gauges
  | leave (r : Resource) (h : id ∈ sem.waiting (semaphores r)) : Performs sem id semaphores gauges (.leave r)
      (Function.update semaphores r (sem.leave (semaphores r) id)) gauges
  | release (r : Resource) (h : id ∈ sem.holders (semaphores r)) : Performs sem id semaphores gauges (.release r)
      (Function.update semaphores r (sem.release (semaphores r) id)) gauges
  | add (g : Gauge) :
      Performs sem id semaphores gauges (.add g) semaphores (Function.update gauges g (gauges g + 1))
  | sub (g : Gauge) :
      Performs sem id semaphores gauges (.sub g) semaphores (Function.update gauges g (gauges g - 1))

inductive TaskSystem.Step (sem : Semaphore S) (next : Stage → TaskOp Resource Gauge → Stage → Prop)
    (start : Stage → Prop) (s : TaskSystem Stage Resource Gauge G S) :
    TaskAct Resource Gauge → TaskSystem Stage Resource Gauge G S → Prop
  | begin (id : ℕ) (stage : Stage) (hnew : id ∉ s.tasks.map Prod.fst) (hstart : start stage) :
      Step sem next start s (id, none) { s with tasks := s.tasks ++ [(id, stage)] }
  | task (before after : List (ℕ × Stage)) (id : ℕ) (stage stage' : Stage) (op : TaskOp Resource Gauge)
      (semaphores : Resource → S) (gauges : Gauge → G) (htasks : s.tasks = before ++ (id, stage) :: after)
      (hnext : next stage op stage') (hop : Performs sem id s.semaphores s.gauges op semaphores gauges) :
      Step sem next start s (id, some op) ⟨semaphores, gauges, before ++ (id, stage') :: after⟩

/-! ### What the stages say -/

/-- The uses of `r` around an operation. -/
def TaskOp.Uses (r : Resource) (before after : Use) : TaskOp Resource Gauge → Prop
  | .tryAcquire r' => if r = r' then before = .none ∧ after = .holds else after = before
  | .request r' => if r = r' then before = .none ∧ after = .asks else after = before
  | .settle r' => if r = r' then before = .asks ∧ after = .holds else after = before
  | .leave r' => if r = r' then before = .asks ∧ after = .none else after = before
  | .release r' => if r = r' then before ≠ .none ∧ after = .none else after = before
  | .idle | .unavailable _ | .add _ | .sub _ => after = before

/-- Whether `g` counts the task before and after an operation. -/
def TaskOp.Counts (g : Gauge) (before after : Bool) : TaskOp Resource Gauge → Prop
  | .add g' => if g = g' then before = false ∧ after = true else after = before
  | .sub g' => if g = g' then before = true ∧ after = false else after = before
  | .idle | .tryAcquire _ | .unavailable _ | .request _ | .settle _ | .leave _ | .release _ => after = before

structure Discipline (next : Stage → TaskOp Resource Gauge → Stage → Prop) (start : Stage → Prop)
    (use : Stage → Resource → Use) (counted : Stage → Gauge → Bool) : Prop where
  starts : ∀ stage, start stage → (∀ r, use stage r = .none) ∧ ∀ g, counted stage g = false
  uses : ∀ stage op stage', next stage op stage' → ∀ r, op.Uses r (use stage r) (use stage' r)
  counts : ∀ stage op stage', next stage op stage' → ∀ g, op.Counts g (counted stage g) (counted stage' g)

variable {next : Stage → TaskOp Resource Gauge → Stage → Prop} {start : Stage → Prop}
  {semaphores semaphores' : Resource → S} {gauges gauges' : Gauge → G} {op : TaskOp Resource Gauge} {id : ℕ}
  {act : TaskAct Resource Gauge}

/-- What an operation does to one semaphore: nothing, or a step of the task. -/
theorem Performs.semaphore (hsem : sem.Lawful) (hop : Performs sem id semaphores gauges op semaphores' gauges')
    (hconserved : ∀ r, sem.Conserved (capacity r) (semaphores r)) {u u' : Use} (r : Resource) (hu : op.Uses r u u')
    (hagrees : u.Agrees sem (semaphores r) id) :
    (semaphores' r = semaphores r ∨ sem.Step (semaphores r) id (semaphores' r)) ∧
      u'.Agrees sem (semaphores' r) id := by
  have hkept {r' : Resource} {t : S} (hr : r ≠ r') (hsame : u' = u) :
      (Function.update semaphores r' t r = semaphores r ∨
        sem.Step (semaphores r) id (Function.update semaphores r' t r)) ∧
      u'.Agrees sem (Function.update semaphores r' t r) id := by
    rw [Function.update_of_ne hr, hsame]
    exact ⟨.inl rfl, hagrees⟩
  cases hop with
  | tryAcquire r' t h =>
    simp only [TaskOp.Uses] at hu
    split_ifs at hu with hr
    · obtain ⟨rfl, rfl⟩ := hu
      subst hr
      rw [Function.update_self]
      have htakes := hsem.tryAcquire _ _ _ hagrees h
      refine ⟨.inr (.takes hagrees htakes), ?_⟩
      show id ∈ sem.holders t
      rw [htakes.holders]
      exact Finset.mem_insert_self _ _
    · exact hkept hr hu
  | request r' =>
    simp only [TaskOp.Uses] at hu
    split_ifs at hu with hr
    · obtain ⟨rfl, rfl⟩ := hu
      subst hr
      rw [Function.update_self]
      rcases hsem.request _ _ hagrees with htakes | hwaits
      · refine ⟨.inr (.takes hagrees htakes), .inl ?_⟩
        rw [htakes.holders]
        exact Finset.mem_insert_self _ _
      · refine ⟨.inr (.waits hagrees hwaits), .inr ?_⟩
        rw [hwaits.waiting]
        exact Finset.mem_insert_self _ _
    · exact hkept hr hu
  | settle r' h =>
    simp only [TaskOp.Uses] at hu
    split_ifs at hu with hr
    · obtain ⟨rfl, rfl⟩ := hu
      subst hr
      exact ⟨.inl rfl, h⟩
    · rw [hu]
      exact ⟨.inl rfl, hagrees⟩
  | leave r' h =>
    simp only [TaskOp.Uses] at hu
    split_ifs at hu with hr
    · obtain ⟨rfl, rfl⟩ := hu
      subst hr
      rw [Function.update_self]
      have hleaves := hsem.leave _ _ h
      exact ⟨.inr (.leaves h hleaves), hleaves.fresh (hconserved r) h⟩
    · exact hkept hr hu
  | release r' h =>
    simp only [TaskOp.Uses] at hu
    split_ifs at hu with hr
    · obtain ⟨-, rfl⟩ := hu
      subst hr
      rw [Function.update_self]
      rcases hsem.release _ _ h with hfrees | ⟨j, hpasses⟩
      · exact ⟨.inr (.frees h hfrees), hfrees.fresh⟩
      · exact ⟨.inr (.passes h j hpasses), hpasses.fresh (hconserved r) h⟩
    · exact hkept hr hu
  | _ =>
    have hsame : u' = u := hu
    rw [hsame]
    exact ⟨.inl rfl, hagrees⟩

/-- What it does to one gauge. -/
theorem Performs.gauge (hop : Performs sem id semaphores gauges op semaphores' gauges') {c c' : Bool} (g : Gauge)
    (hc : op.Counts g c c') :
    gauges' g + ((if c then 1 else 0 : ℕ) : G) = gauges g + ((if c' then 1 else 0 : ℕ) : G) := by
  cases hop with
  | add g' =>
    simp only [TaskOp.Counts] at hc
    split_ifs at hc with hg
    · obtain ⟨rfl, rfl⟩ := hc
      subst hg
      simp
    · rw [Function.update_of_ne hg, hc]
  | sub g' =>
    simp only [TaskOp.Counts] at hc
    split_ifs at hc with hg
    · obtain ⟨rfl, rfl⟩ := hc
      subst hg
      simp
    · rw [Function.update_of_ne hg, hc]
  | _ =>
    have hsame : c' = c := hc
    rw [hsame]

/-- Another task has what it had, or has been granted what it asked for. -/
theorem Use.Agrees.others {t t' : S} {u : Use} {j : ℕ} (h : u.Agrees sem t j)
    (hmem : j ∈ sem.holders t' ∨ j ∈ sem.waiting t' ↔ j ∈ sem.holders t ∨ j ∈ sem.waiting t)
    (hholds : j ∈ sem.holders t → j ∈ sem.holders t') : u.Agrees sem t' j := by
  cases u with
  | none => exact not_or.1 fun hj => not_or.2 h (hmem.1 hj)
  | asks => exact hmem.2 h
  | holds => exact hholds h

theorem countP_replace (p : Stage → Bool) (before after : List (ℕ × Stage)) (id : ℕ) (stage : Stage) :
    (before ++ (id, stage) :: after).countP (fun t => p t.2) =
      (before ++ after).countP (fun t => p t.2) + if p stage then 1 else 0 := by
  rw [List.countP_append, List.countP_cons, List.countP_append, Nat.add_assoc]

theorem Accounted.task (hsem : sem.Lawful) (hd : Discipline next start use counted)
    (hs : Accounted sem capacity use counted s) {before after : List (ℕ × Stage)} {stage stage' : Stage}
    (htasks : s.tasks = before ++ (id, stage) :: after) (hnext : next stage op stage')
    (hop : Performs sem id s.semaphores s.gauges op semaphores' gauges') :
    Accounted sem capacity use counted ⟨semaphores', gauges', before ++ (id, stage') :: after⟩ := by
  have hids : (before ++ (id, stage') :: after).map Prod.fst = s.tasks.map Prod.fst := by simp [htasks]
  have hmem : (id, stage) ∈ s.tasks := by simp [htasks]
  have hown := fun r => hop.semaphore hsem hs.conserved r (hd.uses _ _ _ hnext r) (hs.agrees _ hmem r)
  have hothers : ∀ r j, j ≠ id →
      (j ∈ sem.holders (semaphores' r) ∨ j ∈ sem.waiting (semaphores' r) ↔
        j ∈ sem.holders (s.semaphores r) ∨ j ∈ sem.waiting (s.semaphores r)) ∧
      (j ∈ sem.holders (s.semaphores r) → j ∈ sem.holders (semaphores' r)) := by
    intro r j hj
    rcases (hown r).1 with hsame | hstep
    · rw [hsame]
      exact ⟨Iff.rfl, fun h => h⟩
    · exact hstep.others hj
  refine ⟨hids ▸ hs.ids, fun r => ?_, fun t ht r => ?_, fun r j hj => ?_, fun g => ?_⟩
  · rcases (hown r).1 with hsame | hstep
    · show sem.Conserved (capacity r) (semaphores' r)
      rw [hsame]
      exact hs.conserved r
    · exact (hs.conserved r).step hstep
  · rcases List.mem_cons.1 (List.perm_middle.mem_iff.1 ht) with rfl | ht
    · exact (hown r).2
    · have hne : t.1 ≠ id := by
        have hnodup := hs.ids
        rw [htasks, List.map_append, List.map_cons, List.nodup_middle, List.nodup_cons, ← List.map_append] at hnodup
        exact fun h => hnodup.1 (List.mem_map.2 ⟨t, ht, h⟩)
      have hold : t ∈ s.tasks := by
        rw [htasks]
        exact List.perm_middle.mem_iff.2 (List.mem_cons_of_mem _ ht)
      exact (hs.agrees t hold r).others (hothers r t.1 hne).1 (hothers r t.1 hne).2
  · rw [hids]
    by_cases hid : j = id
    · rw [hid]
      exact List.mem_map.2 ⟨_, hmem, rfl⟩
    · exact hs.owned r j ((hothers r j hid).1.1 hj)
  · have hgauge := hop.gauge g (hd.counts _ _ _ hnext g)
    have hbefore := hs.gauges g
    rw [htasks, countP_replace (fun stage => counted stage g), Nat.cast_add] at hbefore
    rw [countP_replace (fun stage => counted stage g), Nat.cast_add]
    rw [hbefore, add_right_comm] at hgauge
    exact add_right_cancel hgauge

/-- Every operation of a disciplined system keeps the accounts. -/
theorem Accounted.step (hsem : sem.Lawful) (hd : Discipline next start use counted)
    (hs : Accounted sem capacity use counted s) (h : TaskSystem.Step sem next start s act s') :
    Accounted sem capacity use counted s' := by
  cases h with
  | begin id stage hnew hstart =>
    obtain ⟨huse, hcounted⟩ := hd.starts stage hstart
    have hids : (s.tasks ++ [(id, stage)]).map Prod.fst = s.tasks.map Prod.fst ++ [id] := by simp
    refine ⟨?_, hs.conserved, fun t ht r => ?_, fun r j hj => ?_, fun g => ?_⟩
    · rw [hids, ← List.concat_eq_append]
      exact hs.ids.concat hnew
    · rcases List.mem_append.1 ht with ht | ht
      · exact hs.agrees t ht r
      · rw [List.mem_singleton.1 ht, huse r]
        exact not_or.1 fun hmem => hnew (hs.owned r id hmem)
    · rw [hids]
      exact List.mem_append_left _ (hs.owned r j hj)
    · rw [List.countP_append, List.countP_singleton, hcounted g]
      exact hs.gauges g
  | task before after id stage stage' op semaphores' gauges' htasks hnext hop =>
    exact hs.task hsem hd htasks hnext hop

end

end Semaphores
