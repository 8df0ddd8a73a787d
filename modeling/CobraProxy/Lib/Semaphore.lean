import Mathlib

/-! Counting semaphores, by what is documented of them: how many permits are free, which requests hold one and which
wait for one. Every request has its own name. -/

namespace Semaphores

/-- The operations of a semaphore that is never closed, and what there is to see of it. A `request` takes a permit or
waits for one. -/
structure Semaphore (S : Type*) where
  new : ℕ → S
  tryAcquire : S → ℕ → Option S
  request : S → ℕ → S
  leave : S → ℕ → S
  release : S → ℕ → S
  available : S → ℕ
  holders : S → Finset ℕ
  waiting : S → Finset ℕ

namespace Semaphore

variable {S : Type*} (sem : Semaphore S)

/-- A request that has nothing to do with the semaphore. -/
def Fresh (s : S) (i : ℕ) : Prop := i ∉ sem.holders s ∧ i ∉ sem.waiting s

/-- A free permit goes to the request. -/
structure Takes (s : S) (i : ℕ) (s' : S) : Prop where
  available : sem.available s = sem.available s' + 1
  holders : sem.holders s' = insert i (sem.holders s)
  waiting : sem.waiting s' = sem.waiting s

structure Waits (s : S) (i : ℕ) (s' : S) : Prop where
  none : sem.available s = 0
  available : sem.available s' = 0
  holders : sem.holders s' = sem.holders s
  waiting : sem.waiting s' = insert i (sem.waiting s)

structure Leaves (s : S) (i : ℕ) (s' : S) : Prop where
  available : sem.available s' = sem.available s
  holders : sem.holders s' = sem.holders s
  waiting : sem.waiting s' = (sem.waiting s).erase i

/-- A permit comes back when nothing waits for it. -/
structure Frees (s : S) (i : ℕ) (s' : S) : Prop where
  none : sem.waiting s = ∅
  available : sem.available s' = sem.available s + 1
  holders : sem.holders s' = (sem.holders s).erase i
  waiting : sem.waiting s' = ∅

/-- A permit passes from `i` to `j`. -/
structure Passes (s : S) (i j : ℕ) (s' : S) : Prop where
  waits : j ∈ sem.waiting s
  available : sem.available s' = sem.available s
  holders : sem.holders s' = insert j ((sem.holders s).erase i)
  waiting : sem.waiting s' = (sem.waiting s).erase j

/-- What is documented of the operations. -/
structure Lawful : Prop where
  available_new : ∀ n, sem.available (sem.new n) = n
  holders_new : ∀ n, sem.holders (sem.new n) = ∅
  waiting_new : ∀ n, sem.waiting (sem.new n) = ∅
  tryAcquire : ∀ s i s', sem.Fresh s i → sem.tryAcquire s i = some s' → sem.Takes s i s'
  request : ∀ s i, sem.Fresh s i → sem.Takes s i (sem.request s i) ∨ sem.Waits s i (sem.request s i)
  leave : ∀ s i, i ∈ sem.waiting s → sem.Leaves s i (sem.leave s i)
  release : ∀ s i, i ∈ sem.holders s → sem.Frees s i (sem.release s i) ∨ ∃ j, sem.Passes s i j (sem.release s i)

/-- What an operation of the request `i` does. -/
inductive Step (s : S) (i : ℕ) (s' : S) : Prop
  | takes (hfresh : sem.Fresh s i) (h : sem.Takes s i s')
  | waits (hfresh : sem.Fresh s i) (h : sem.Waits s i s')
  | leaves (hi : i ∈ sem.waiting s) (h : sem.Leaves s i s')
  | frees (hi : i ∈ sem.holders s) (h : sem.Frees s i s')
  | passes (hi : i ∈ sem.holders s) (j : ℕ) (h : sem.Passes s i j s')

/-- No permit of the `capacity` ones is lost or held twice. -/
structure Conserved (capacity : ℕ) (s : S) : Prop where
  conserved : sem.available s + (sem.holders s).card = capacity
  busy : sem.waiting s ≠ ∅ → sem.available s = 0
  disjoint : Disjoint (sem.holders s) (sem.waiting s)

variable {sem} {s s' : S} {i j capacity : ℕ}

theorem Conserved.new (hsem : sem.Lawful) (capacity : ℕ) : sem.Conserved capacity (sem.new capacity) where
  conserved := by simp [hsem.available_new, hsem.holders_new]
  busy h := absurd (hsem.waiting_new capacity) h
  disjoint := by simp [hsem.holders_new]

theorem Conserved.step (hs : sem.Conserved capacity s) (h : sem.Step s i s') : sem.Conserved capacity s' := by
  have hconserved := hs.conserved
  cases h with
  | takes hfresh h =>
    have hcard := Finset.card_insert_of_notMem hfresh.1
    have havailable := h.available
    refine ⟨?_, fun hwaiting => ?_, ?_⟩
    · rw [h.holders]
      omega
    · rw [h.waiting] at hwaiting
      have := hs.busy hwaiting
      omega
    · rw [h.holders, h.waiting]
      exact Finset.disjoint_insert_left.2 ⟨hfresh.2, hs.disjoint⟩
  | waits hfresh h =>
    refine ⟨?_, fun _ => h.available, ?_⟩
    · rw [h.available, h.holders, ← h.none]
      exact hconserved
    · rw [h.holders, h.waiting]
      exact Finset.disjoint_insert_right.2 ⟨hfresh.1, hs.disjoint⟩
  | leaves hi h =>
    refine ⟨?_, fun _ => ?_, ?_⟩
    · rw [h.available, h.holders]
      exact hconserved
    · rw [h.available]
      exact hs.busy (Finset.ne_empty_of_mem hi)
    · rw [h.holders, h.waiting]
      exact hs.disjoint.mono_right (Finset.erase_subset _ _)
  | frees hi h =>
    have hcard := Finset.card_erase_add_one hi
    refine ⟨?_, fun hwaiting => absurd h.waiting hwaiting, ?_⟩
    · rw [h.available, h.holders]
      omega
    · rw [h.waiting]
      exact Finset.disjoint_empty_right _
  | passes hi j h =>
    have hj : j ∉ (sem.holders s).erase i := fun hmem =>
      Finset.disjoint_right.1 hs.disjoint h.waits (Finset.mem_of_mem_erase hmem)
    have hcard := Finset.card_insert_of_notMem hj
    have herase := Finset.card_erase_add_one hi
    refine ⟨?_, fun _ => ?_, ?_⟩
    · rw [h.available, h.holders]
      omega
    · rw [h.available]
      exact hs.busy (Finset.ne_empty_of_mem h.waits)
    · rw [h.holders, h.waiting]
      refine Finset.disjoint_insert_left.2 ⟨Finset.notMem_erase _ _, ?_⟩
      exact (hs.disjoint.mono_left (Finset.erase_subset _ _)).mono_right (Finset.erase_subset _ _)

theorem Leaves.fresh (hs : sem.Conserved capacity s) (hi : i ∈ sem.waiting s) (h : sem.Leaves s i s') :
    sem.Fresh s' i := by
  refine ⟨?_, ?_⟩
  · rw [h.holders]
    exact Finset.disjoint_right.1 hs.disjoint hi
  · rw [h.waiting]
    exact Finset.notMem_erase _ _

theorem Frees.fresh (h : sem.Frees s i s') : sem.Fresh s' i := by
  refine ⟨?_, ?_⟩
  · rw [h.holders]
    exact Finset.notMem_erase _ _
  · rw [h.waiting]
    exact Finset.notMem_empty _

theorem Passes.fresh (hs : sem.Conserved capacity s) (hi : i ∈ sem.holders s) (h : sem.Passes s i j s') :
    sem.Fresh s' i := by
  have hwaiting := Finset.disjoint_left.1 hs.disjoint hi
  have hne : i ≠ j := fun heq => hwaiting (heq ▸ h.waits)
  refine ⟨?_, ?_⟩
  · rw [h.holders, Finset.mem_insert, not_or]
    exact ⟨hne, Finset.notMem_erase _ _⟩
  · rw [h.waiting]
    exact fun hmem => hwaiting (Finset.mem_of_mem_erase hmem)

/-- An operation does not take a permit or a place among those that wait from anybody else. -/
theorem Step.others (h : sem.Step s i s') (hj : j ≠ i) :
    (j ∈ sem.holders s' ∨ j ∈ sem.waiting s' ↔ j ∈ sem.holders s ∨ j ∈ sem.waiting s) ∧
      (j ∈ sem.holders s → j ∈ sem.holders s') := by
  cases h with
  | takes hfresh h => simp [h.holders, h.waiting, hj]
  | waits hfresh h => simp [h.holders, h.waiting, hj]
  | leaves hi h => simp [h.holders, h.waiting, hj]
  | frees hi h => simp [h.holders, h.waiting, h.none, hj]
  | passes hi k h =>
    have hk := h.waits
    by_cases heq : j = k
    · subst heq
      simp [h.holders, h.waiting, hk]
    · simp [h.holders, h.waiting, hj, heq]

end Semaphore

/-! ### A semaphore that is lawful -/

/-- Those that wait stand in the order in which they came. -/
structure Queue where
  available : ℕ
  holders : Finset ℕ
  queue : List ℕ

/-- A permit that comes back goes to the request that has waited longest. -/
def Queue.semaphore : Semaphore Queue where
  new n := ⟨n, ∅, []⟩
  tryAcquire s i := if s.available = 0 then none else some ⟨s.available - 1, insert i s.holders, s.queue⟩
  request s i :=
    if s.available = 0 then ⟨0, s.holders, s.queue ++ [i]⟩
    else ⟨s.available - 1, insert i s.holders, s.queue⟩
  leave s i := ⟨s.available, s.holders, s.queue.filter (· ≠ i)⟩
  release s i :=
    match s.queue with
    | [] => ⟨s.available + 1, s.holders.erase i, []⟩
    | j :: queue => ⟨s.available, insert j (s.holders.erase i), queue.filter (· ≠ j)⟩
  available := Queue.available
  holders := Queue.holders
  waiting s := s.queue.toFinset

end Semaphores
