import Mathlib

/-! When a sequence of fallible steps succeeds, and with what. -/

namespace Fallible

universe u v w

variable {ε : Type u} {ε' : Type w} {α β : Type v}

@[simp] theorem bind_eq_ok {x : Except ε α} {f : α → Except ε β} {b : β} :
    (x >>= f) = .ok b ↔ ∃ a, x = .ok a ∧ f a = .ok b := by
  cases x <;> simp [bind, Except.bind]

@[simp] theorem ok_bind {a : α} {f : α → Except ε β} : ((.ok a : Except ε α) >>= f) = f a := rfl

@[simp] theorem error_bind {e : ε} {f : α → Except ε β} :
    ((.error e : Except ε α) >>= f) = .error e := rfl

@[simp] theorem throw_eq_error {e : ε} : (throw e : Except ε α) = .error e := rfl

@[simp] theorem pure_eq_ok {a : α} : (pure a : Except ε α) = .ok a := rfl

@[simp] theorem mapError_eq_ok {x : Except ε α} {f : ε → ε'} {a : α} :
    x.mapError f = .ok a ↔ x = .ok a := by
  cases x <;> simp [Except.mapError]

@[simp] theorem map_eq_ok {x : Except ε α} {f : α → β} {b : β} :
    x.map f = .ok b ↔ ∃ a, x = .ok a ∧ f a = b := by
  cases x <;> simp [Except.map]

@[simp] theorem ite_error_eq_ok {p : Prop} [Decidable p] {e : ε} {x : Except ε α} {a : α} :
    (if p then .error e else x) = .ok a ↔ ¬p ∧ x = .ok a := by
  by_cases h : p <;> simp [h]

@[simp] theorem ite_else_error_eq_ok {p : Prop} [Decidable p] {e : ε} {x : Except ε α} {a : α} :
    (if p then x else .error e) = .ok a ↔ p ∧ x = .ok a := by
  by_cases h : p <;> simp [h]

theorem toOption_eq_some {x : Except ε α} {a : α} : x.toOption = some a ↔ x = .ok a := by
  cases x <;> simp [Except.toOption]

/-- A successful `mapM` succeeded at every element. -/
theorem forall₂_of_mapM {ε : Type u} {α β : Type v} {f : α → Except ε β} {l : List α} {l' : List β}
    (h : l.mapM f = .ok l') : List.Forall₂ (fun a b => f a = .ok b) l l' := by
  induction l generalizing l' with
  | nil =>
    cases h
    exact .nil
  | cons a l ih =>
    simp only [List.mapM_cons, bind_eq_ok, pure_eq_ok, Except.ok.injEq] at h
    obtain ⟨b, hb, bs, hbs, rfl⟩ := h
    exact .cons hb (ih hbs)

/-- A `mapM` succeeds if it succeeds at every element. -/
theorem exists_mapM {ε : Type u} {α β : Type v} {f : α → Except ε β} {l : List α}
    (h : ∀ a ∈ l, ∃ b, f a = .ok b) : ∃ l', l.mapM f = .ok l' := by
  induction l with
  | nil => exact ⟨[], rfl⟩
  | cons a l ih =>
    obtain ⟨b, hb⟩ := h a (List.mem_cons_self ..)
    obtain ⟨l', hl⟩ := ih fun a ha => h a (List.mem_cons_of_mem _ ha)
    exact ⟨b :: l', by rw [List.mapM_cons, hb, ok_bind, hl]; rfl⟩

theorem mem_mapM {ε : Type u} {α β : Type v} {f : α → Except ε β} {l : List α} {l' : List β} {b : β}
    (h : l.mapM f = .ok l') : b ∈ l' ↔ ∃ a ∈ l, f a = .ok b := by
  have hall := forall₂_of_mapM h
  clear h
  induction hall with
  | nil => simp
  | cons ha _ ih => simp [ih, ha, eq_comm]

theorem foldlM_invariant {ε : Type u} {α : Type w} {σ : Type v} {step : σ → α → Except ε σ} {I : σ → Prop}
    (hstep : ∀ s a t, I s → step s a = .ok t → I t) {l : List α} {s t : σ} (hs : I s) (h : l.foldlM step s = .ok t) :
    I t := by
  induction l generalizing s with
  | nil =>
    cases h
    exact hs
  | cons a l ih =>
    simp only [List.foldlM_cons, bind_eq_ok] at h
    obtain ⟨s', hs', h⟩ := h
    exact ih (hstep s a s' hs hs') h

/-- A fold whose steps add up, when they succeed, returns the sum. -/
theorem eq_add_sum_of_foldlM {ε : Type u} {α : Type v} {step : ℕ → α → Except ε ℕ} {g : α → ℕ}
    (hstep : ∀ n a m, step n a = .ok m → m = n + g a) {l : List α} {n m : ℕ}
    (h : l.foldlM step n = .ok m) : m = n + (l.map g).sum := by
  induction l generalizing n with
  | nil =>
    cases h
    rfl
  | cons a l ih =>
    simp only [List.foldlM_cons, bind_eq_ok] at h
    obtain ⟨k, hk, hm⟩ := h
    rw [ih hm, hstep n a k hk, List.map_cons, List.sum_cons, add_assoc]

end Fallible
