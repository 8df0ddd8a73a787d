import Mathlib

/-! Finite runs of a transition relation. A run keeps, for each step, the state before it and
its label, so that a condition on the steps and a property of the states reached can both be
read off the trace. -/

namespace Runs

variable {σ α : Type*}

inductive Run (step : σ → α → σ → Prop) (s₀ : σ) : List (σ × α) → σ → Prop
  | nil : Run step s₀ [] s₀
  | snoc {tr : List (σ × α)} {s s' : σ} {a : α} :
      Run step s₀ tr s → step s a s' → Run step s₀ (tr ++ [(s, a)]) s'

/-- The states a run passes through, the first and the last included. -/
def reached (tr : List (σ × α)) (s : σ) : List σ := tr.map Prod.fst ++ [s]

variable {step : σ → α → σ → Prop} {s₀ s : σ} {tr : List (σ × α)}

@[simp] theorem mem_reached {t : σ} : t ∈ reached tr s ↔ (∃ a, (t, a) ∈ tr) ∨ t = s := by
  simp [reached]

theorem Run.append {tr' : List (σ × α)} {s' : σ} (h : Run step s₀ tr s) (h' : Run step s tr' s') :
    Run step s₀ (tr ++ tr') s' := by
  induction h' with
  | nil => simpa using h
  | snoc _ hs ih => rw [← List.append_assoc]; exact ih.snoc hs

/-- A step function runs through every list of labels. -/
theorem Run.of_foldl (f : σ → α → σ) (acts : List α) (s₀ : σ) :
    ∃ tr, Run (fun s a s' => s' = f s a) s₀ tr (acts.foldl f s₀) := by
  induction acts generalizing s₀ with
  | nil => exact ⟨[], .nil⟩
  | cons a acts ih =>
    obtain ⟨tr, htr⟩ := ih (f s₀ a)
    exact ⟨_, (Run.nil.snoc rfl).append htr⟩

/-- What the guarded steps preserve holds in every state of a run whose steps all meet the guard. -/
theorem Run.invariant_of {I : σ → Prop} {C : σ → α → Prop} (h0 : I s₀)
    (hs : ∀ s a s', I s → C s a → step s a s' → I s') (h : Run step s₀ tr s)
    (hC : ∀ p ∈ tr, C p.1 p.2) : I s ∧ ∀ p ∈ tr, I p.1 := by
  induction h with
  | nil => exact ⟨h0, by simp⟩
  | snoc _ hst ih =>
    obtain ⟨hI, htr⟩ := ih (fun p hp => hC p (List.mem_append_left _ hp))
    have hlast := hC _ (List.mem_append_right _ (List.mem_singleton_self _))
    refine ⟨hs _ _ _ hI hlast hst, fun p hp => ?_⟩
    rcases List.mem_append.1 hp with hp | hp
    · exact htr p hp
    · rw [List.mem_singleton.1 hp]; exact hI

theorem Run.invariant {I : σ → Prop} (h0 : I s₀) (hs : ∀ s a s', I s → step s a s' → I s')
    (h : Run step s₀ tr s) : I s :=
  (h.invariant_of (C := fun _ _ => True) h0 (fun s a s' hI _ => hs s a s' hI) (by simp)).1

/-- A run can be cut at each of its steps. -/
theorem Run.split {pre post : List (σ × α)} {q : σ} {a : α} (h : Run step s₀ (pre ++ (q, a) :: post) s) :
    Run step s₀ pre q ∧ ∃ s', step q a s' ∧ Run step s' post s := by
  generalize htr : pre ++ (q, a) :: post = tr at h
  induction h generalizing post with
  | nil => simp at htr
  | @snoc tr s s' b h hst ih =>
    rcases List.eq_nil_or_concat post with rfl | ⟨post', p, rfl⟩
    · obtain ⟨rfl, hlast⟩ := List.append_inj' htr rfl
      cases hlast
      exact ⟨h, s', hst, .nil⟩
    · rw [List.concat_eq_append, ← List.cons_append, ← List.append_assoc] at htr
      obtain ⟨hinit, hlast⟩ := List.append_inj' htr rfl
      cases hlast
      obtain ⟨hpre, r, hr, hpost⟩ := ih hinit
      rw [List.concat_eq_append]
      exact ⟨hpre, r, hr, hpost.snoc hst⟩

/-- Every step of a run starts where a run of earlier steps ends. -/
theorem Run.split_at {p : σ × α} (h : Run step s₀ tr s) (hp : p ∈ tr) :
    ∃ pre post s', tr = pre ++ p :: post ∧ Run step s₀ pre p.1 ∧ step p.1 p.2 s' ∧
      Run step s' post s := by
  obtain ⟨pre, post, rfl⟩ := List.append_of_mem hp
  obtain ⟨hpre, s', hs, hpost⟩ := h.split
  exact ⟨pre, post, s', rfl, hpre, hs, hpost⟩

/-- The steps of a run, each with the state it leads to. -/
def transitions : List (σ × α) → σ → List (σ × α × σ)
  | [], _ => []
  | p :: tr, last => (p.1, p.2, tr.head?.elim last Prod.fst) :: transitions tr last

@[simp] theorem transitions_nil : transitions ([] : List (σ × α)) s = [] := rfl

theorem transitions_snoc (tr : List (σ × α)) (s : σ) (a : α) (s' : σ) :
    transitions (tr ++ [(s, a)]) s' = transitions tr s ++ [(s, a, s')] := by
  induction tr with
  | nil => rfl
  | cons p tr ih =>
    have hhead : (tr ++ [(s, a)]).head?.elim s' Prod.fst = tr.head?.elim s Prod.fst := by
      cases tr <;> rfl
    rw [List.cons_append, transitions, transitions, ih, hhead]
    rfl

/-- Every transition of a run is a step from a state with the invariant. -/
theorem Run.of_mem_transitions {I : σ → Prop} (h0 : I s₀) (hs : ∀ s a s', I s → step s a s' → I s')
    (h : Run step s₀ tr s) {t t' : σ} {a : α} (ht : (t, a, t') ∈ transitions tr s) :
    I t ∧ step t a t' := by
  induction h with
  | nil => simp at ht
  | snoc h hst ih =>
    rw [transitions_snoc] at ht
    rcases List.mem_append.1 ht with ht | ht
    · exact ih ht
    · cases List.mem_singleton.1 ht
      exact ⟨h.invariant h0 hs, hst⟩

/-- When the guard is exactly what keeps the invariant, the runs whose steps all meet the guard
are the runs whose states all satisfy the invariant. -/
theorem Run.guard_iff {I : σ → Prop} {C : σ → α → Prop} (h0 : I s₀)
    (hs : ∀ s a s', I s → step s a s' → (C s a ↔ I s')) (h : Run step s₀ tr s) :
    (∀ p ∈ tr, C p.1 p.2) ↔ ∀ t ∈ reached tr s, I t := by
  constructor
  · intro hC t ht
    obtain ⟨hI, htr⟩ := h.invariant_of h0 (fun s a s' hI hc hst => (hs s a s' hI hst).1 hc) hC
    rcases mem_reached.1 ht with ⟨a, ha⟩ | rfl
    · exact htr _ ha
    · exact hI
  · intro hI
    induction h with
    | nil => simp
    | @snoc tr s s' a h hst ih =>
      have hlast : I s := hI s (by simp)
      intro p hp
      rcases List.mem_append.1 hp with hp | hp
      · refine ih (fun t ht => ?_) p hp
        rcases mem_reached.1 ht with ⟨b, hb⟩ | rfl
        · exact hI t (mem_reached.2 (Or.inl ⟨b, List.mem_append_left _ hb⟩))
        · exact hlast
      · rw [List.mem_singleton.1 hp]
        exact (hs s a s' hlast hst).2 (hI s' (by simp))

end Runs
