import Mathlib

/-! The generic cell rate algorithm. One cell is due every `interval`; a cell may come early by up
to `tolerance`. The state is the theoretical arrival time of the next cell, `none` for a limiter that
has not accepted any yet. -/

structure Gcra where
  interval : ℚ
  tolerance : ℚ
  tat : Option ℚ

namespace Gcra

/-- A full limiter for `rate` cells a second with bursts of `burst`. -/
def new (rate burst : ℕ) : Gcra := ⟨1 / rate, (burst - 1) / rate, none⟩

/-- The theoretical arrival time once a cell is accepted. -/
def advance (interval : ℚ) (tat : Option ℚ) (now : ℚ) : ℚ := tat.elim now (fun t => max t now) + interval

/-- Accepts a cell, or tells how long to wait. -/
def check (g : Gcra) (now : ℚ) : Except ℚ Gcra :=
  if g.tat.all fun t => decide (t - g.tolerance ≤ now) then
    .ok { g with tat := some (advance g.interval g.tat now) }
  else .error (g.tat.elim 0 fun t => t - g.tolerance - now)

/-- Two accepted cells, the later one first: the cells from one to the other fit in the time between
them plus the tolerance. -/
def Conforms (interval tolerance : ℚ) (accepted : List ℚ) : Prop :=
  ∀ post w mid u pre, accepted = post ++ w :: (mid ++ u :: pre) →
    u + (mid.length + 1) * interval ≤ w + tolerance

/-- The theoretical arrival time is late enough for every accepted cell and those after it. -/
def Covers (interval : ℚ) (tat : Option ℚ) (accepted : List ℚ) : Prop :=
  ∀ post u pre, accepted = post ++ u :: pre → ∃ t, tat = some t ∧ u + (post.length + 1) * interval ≤ t

variable {interval tolerance now : ℚ} {tat : Option ℚ} {accepted : List ℚ}

theorem conforms_nil : Conforms interval tolerance [] := by
  intro post w mid u pre h
  simp at h

theorem covers_nil : Covers interval tat [] := by
  intro post u pre h
  simp at h

/-- A cell that is not too early keeps the accepted cells conforming. -/
theorem Conforms.accept (h : Conforms interval tolerance accepted) (hcov : Covers interval tat accepted)
    (hnow : ∀ t, tat = some t → t - tolerance ≤ now) : Conforms interval tolerance (now :: accepted) := by
  intro post w mid u pre heq
  cases post with
  | nil =>
    obtain ⟨rfl, hrest⟩ := List.cons.inj heq
    obtain ⟨t, ht, hle⟩ := hcov mid u pre hrest
    have := hnow t ht
    linarith
  | cons p post =>
    obtain ⟨-, heq⟩ := List.cons.inj heq
    exact h post w mid u pre heq

theorem Covers.accept (h : Covers interval tat accepted) :
    Covers interval (some (advance interval tat now)) (now :: accepted) := by
  intro post u pre heq
  refine ⟨_, rfl, ?_⟩
  cases post with
  | nil =>
    obtain ⟨rfl, -⟩ := List.cons.inj heq
    have : now ≤ tat.elim now fun t => max t now := by cases tat <;> simp
    simp only [advance, List.length_nil, Nat.cast_zero, zero_add, one_mul]
    linarith
  | cons p post =>
    obtain ⟨-, heq⟩ := List.cons.inj heq
    obtain ⟨t, rfl, hle⟩ := h post u pre heq
    have hmax : t ≤ max t now := le_max_left _ _
    simp only [advance, Option.elim_some, List.length_cons, Nat.cast_add, Nat.cast_one]
    linarith

/-- A limiter whose next cell is due already behaves as one that is full. -/
theorem advance_of_le {t : ℚ} (h : t ≤ now) : advance interval (some t) now = advance interval none now := by
  simp [advance, h]

theorem exists_first {α : Type*} {p : α → Bool} {l : List α} (h : 0 < l.countP p) :
    ∃ post w rest, l = post ++ w :: rest ∧ p w ∧ l.countP p = rest.countP p + 1 := by
  induction l with
  | nil => simp at h
  | cons a l ih =>
    by_cases ha : p a
    · exact ⟨[], a, l, rfl, ha, by rw [List.countP_cons_of_pos ha]⟩
    · rw [List.countP_cons_of_neg ha] at h ⊢
      obtain ⟨post, w, rest, rfl, hw, hcount⟩ := ih h
      exact ⟨a :: post, w, rest, rfl, hw, hcount⟩

theorem exists_last {α : Type*} {p : α → Bool} {l : List α} (h : 0 < l.countP p) :
    ∃ mid u pre, l = mid ++ u :: pre ∧ p u ∧ l.countP p ≤ mid.length + 1 := by
  induction l with
  | nil => simp at h
  | cons a l ih =>
    by_cases hl : 0 < l.countP p
    · obtain ⟨mid, u, pre, rfl, hu, hcount⟩ := ih hl
      refine ⟨a :: mid, u, pre, rfl, hu, ?_⟩
      rw [List.countP_cons, List.length_cons]
      split_ifs <;> omega
    · rw [List.countP_cons] at h ⊢
      split_ifs at h ⊢ with ha
      · exact ⟨[], a, l, rfl, ha, by rw [List.length_nil]; omega⟩
      · omega

/-- Conforming cells in a window of length `T` number at most one more than the intervals that fit
into the window and the tolerance together. -/
theorem Conforms.window (h : Conforms interval tolerance accepted) (hint : 0 < interval)
    (htol : 0 ≤ tolerance) (start : ℚ) {T : ℚ} (hT : 0 ≤ T) :
    (accepted.countP fun t => decide (start ≤ t ∧ t ≤ start + T)) * interval ≤
      tolerance + interval + T := by
  set p : ℚ → Bool := fun t => decide (start ≤ t ∧ t ≤ start + T) with hp
  rcases Nat.lt_or_ge 0 (accepted.countP p) with hpos | hzero
  · obtain ⟨post, w, rest, rfl, hw, hcount⟩ := exists_first hpos
    rw [hcount]
    rcases Nat.lt_or_ge 0 (rest.countP p) with hrest | hrest
    · obtain ⟨mid, u, pre, rfl, hu, hle⟩ := exists_last hrest
      have hcell := h post w mid u pre rfl
      simp only [hp, decide_eq_true_eq] at hw hu
      have hn : (mid ++ u :: pre).countP p + 1 ≤ mid.length + 2 := by omega
      have hn' : (((mid ++ u :: pre).countP p + 1 : ℕ) : ℚ) ≤ mid.length + 2 := by exact_mod_cast hn
      calc (((mid ++ u :: pre).countP p + 1 : ℕ) : ℚ) * interval
          ≤ (mid.length + 2) * interval := by gcongr
        _ = (mid.length + 1) * interval + interval := by ring
        _ ≤ tolerance + interval + T := by linarith
    · have : rest.countP p = 0 := by omega
      rw [this]
      norm_num
      linarith
  · have : accepted.countP p = 0 := by omega
    rw [this]
    norm_num
    linarith

end Gcra
