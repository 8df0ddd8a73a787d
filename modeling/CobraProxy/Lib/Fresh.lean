import Mathlib

/-! Numbers that a counter hands out. Each is in use by at most one owner for as long as every use is
a draw from the counter or a copy of an earlier use. -/

structure Fresh {ω : Type*} (uses : ℕ → ω → Prop) (next : ℕ) : Prop where
  bounded : ∀ n o, uses n o → n < next
  unique : ∀ n o o', uses n o → uses n o' → o = o'

namespace Fresh

variable {ω : Type*} {uses uses' : ℕ → ω → Prop} {next : ℕ}

theorem mono (h : Fresh uses next) (hsub : ∀ n o, uses' n o → uses n o) : Fresh uses' next :=
  ⟨fun n o hu => h.bounded n o (hsub n o hu), fun n o o' hu hu' => h.unique n o o' (hsub n o hu) (hsub n o' hu')⟩

/-- The next number goes to one owner. -/
theorem draw (h : Fresh uses next) (owner : ω)
    (hsub : ∀ n o, uses' n o → uses n o ∨ n = next ∧ o = owner) : Fresh uses' (next + 1) := by
  refine ⟨fun n o hu => ?_, fun n o o' hu hu' => ?_⟩
  · rcases hsub n o hu with hold | ⟨rfl, -⟩
    · exact Nat.lt_succ_of_lt (h.bounded n o hold)
    · exact Nat.lt_succ_self _
  · rcases hsub n o hu with hold | ⟨rfl, rfl⟩ <;> rcases hsub n o' hu' with hold' | ⟨hn, rfl⟩
    · exact h.unique n o o' hold hold'
    · exact absurd (h.bounded n o hold) (hn ▸ Nat.lt_irrefl _)
    · exact absurd (h.bounded _ o' hold') (Nat.lt_irrefl _)
    · rfl

end Fresh
