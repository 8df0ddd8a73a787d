import CobraProxy.Lib.FiniteMap
import CobraProxy.Lib.Run
import CobraProxy.Spec.Registries

/-! Bridge identity leases. `issue` stores the scope under the drawn token before it looks whether
the token was taken, so a draw that hits the token of a live lease moves that lease to the scope of
the call. The leases keep their own scopes in exactly the runs where no draw that is tried hits a
live token of another scope. -/

namespace Cobra

open Runs Text

/-- The registry holds the live leases, each under its own token and with its own scope. -/
structure LeasesOwnTokens (s : LeaseSystem) : Prop where
  resolve_live : ∀ p ∈ s.live, s.registry.resolve p.1 = some p.2
  tokens_nodup : (s.live.map Prod.fst).Nodup
  resolve_none : ∀ token, token ∉ s.live.map Prod.fst → s.registry.resolve token = none

/-- The draws up to the `i`th all hit registered tokens, so that `issue` tries the `i`th one too. -/
def Clashes (registry : BridgeIdentityRegistry) (draws : ℕ → Option (ByteVec 24)) (i : ℕ) : Prop :=
  ∀ j ≤ i, ∃ bytes, draws j = some bytes ∧ leaseToken bytes ∈ registry.entries

/-- Below capacity, every registered token among the first `attempts` draws tried has `scope`. -/
def DrawsClear (registry : BridgeIdentityRegistry) (scope : AccountRequestScope) (attempts : ℕ)
    (draws : ℕ → Option (ByteVec 24)) : Prop :=
  registry.entries.keys.card < registry.capacity → ∀ i < attempts, Clashes registry draws i →
    ∀ bytes, draws i = some bytes → registry.resolve (leaseToken bytes) = some scope

def NoForeignClash (s : LeaseSystem) : LeaseAct → Prop
  | .issue scope draws => DrawsClear s.registry scope 4 draws
  | .drop _ _ => True

def FailedIssueKeepsRegistry (s : LeaseSystem) : LeaseAct → Prop
  | .issue scope draws => ∀ e registry,
      s.registry.issue scope draws = (.error e, registry) → registry = s.registry
  | .drop _ _ => True

namespace BridgeIdentityRegistry

variable {registry : BridgeIdentityRegistry} {scope : AccountRequestScope} {token : Str}

theorem insert_of_resolve (h : registry.resolve token = some scope) :
    { registry with entries := registry.entries.insert token scope } = registry := by
  rw [Finmap.insert_eq_self h]

/-- One round of the loop on a draw that hits a registered token. -/
theorem issueLoop_clash {attempts : ℕ} {draws : ℕ → Option (ByteVec 24)} {bytes : ByteVec 24}
    (hd : draws 0 = some bytes) (hcap : registry.entries.keys.card < registry.capacity)
    (hm : leaseToken bytes ∈ registry.entries) :
    issueLoop scope (attempts + 1) draws registry =
      issueLoop scope attempts (fun i => draws (i + 1))
        { registry with entries := registry.entries.insert (leaseToken bytes) scope } := by
  have hs : (registry.entries.lookup (leaseToken bytes)).isNone = false := by
    rw [← Option.not_isSome, Finmap.lookup_isSome.2 hm]; rfl
  simp [issueLoop, hd, Nat.not_le.2 hcap, hs]

/-- With clear draws the loop fails and changes nothing, or adds a free token. -/
theorem issueLoop_of_clear (attempts : ℕ) (draws : ℕ → Option (ByteVec 24))
    (h : DrawsClear registry scope attempts draws) :
    (∃ e, issueLoop scope attempts draws registry = (.error e, registry)) ∨
      ∃ token, token ∉ registry.entries ∧ issueLoop scope attempts draws registry =
        (.ok token, { registry with entries := registry.entries.insert token scope }) := by
  induction attempts generalizing draws with
  | zero => exact Or.inl ⟨_, rfl⟩
  | succ attempts ih =>
    cases hd : draws 0 with
    | none =>
      left
      simp [issueLoop, hd]
    | some bytes =>
      by_cases hcap : registry.capacity ≤ registry.entries.keys.card
      · left
        simp [issueLoop, hd, hcap]
      · by_cases hm : leaseToken bytes ∈ registry.entries
        · have hlt := Nat.lt_of_not_le hcap
          have hfirst : Clashes registry draws 0 := fun j hj => by
            rw [Nat.le_zero.1 hj]; exact ⟨bytes, hd, hm⟩
          rw [issueLoop_clash hd hlt hm, insert_of_resolve (h hlt 0 (by omega) hfirst bytes hd)]
          refine ih _ fun _ i hi hc => h hlt (i + 1) (by omega) fun j hj => ?_
          cases j with
          | zero => exact ⟨bytes, hd, hm⟩
          | succ j => exact hc j (by omega)
        · refine Or.inr ⟨_, hm, ?_⟩
          simp [issueLoop, hd, hcap, Finmap.lookup_eq_none.2 hm]

/-- Once a token has the scope of the call, it keeps it to the end of the call. -/
theorem issueLoop_keeps_scope (attempts : ℕ) (draws : ℕ → Option (ByteVec 24))
    (h : registry.resolve token = some scope) :
    (issueLoop scope attempts draws registry).2.resolve token = some scope := by
  induction attempts generalizing draws registry with
  | zero => exact h
  | succ attempts ih =>
    have hins : ∀ t, ({ registry with entries := registry.entries.insert t scope } :
        BridgeIdentityRegistry).resolve token = some scope := by
      intro t
      by_cases ht : token = t
      · subst ht; exact Finmap.lookup_insert _
      · exact (Finmap.lookup_insert_of_ne _ ht).trans h
    unfold issueLoop
    split
    · exact h
    · simp only
      split_ifs
      · exact h
      · exact hins _
      · exact ih _ (hins _)

/-- A registered token that is tried ends up with the scope of the call. -/
theorem issueLoop_takes_token (attempts : ℕ) (draws : ℕ → Option (ByteVec 24)) (i : ℕ)
    (hi : i < attempts) (hcap : registry.entries.keys.card < registry.capacity)
    (hc : Clashes registry draws i) {bytes : ByteVec 24} (hd : draws i = some bytes) :
    (issueLoop scope attempts draws registry).2.resolve (leaseToken bytes) = some scope := by
  induction attempts generalizing draws registry i with
  | zero => omega
  | succ attempts ih =>
    obtain ⟨first, hd0, hm0⟩ := hc 0 (Nat.zero_le _)
    rw [issueLoop_clash hd0 hcap hm0]
    cases i with
    | zero =>
      obtain rfl : first = bytes := Option.some.inj (hd0.symm.trans hd)
      exact issueLoop_keeps_scope _ _ (Finmap.lookup_insert _)
    | succ i =>
      refine ih (fun i => draws (i + 1)) i (by omega) ?_ ?_ hd
      · simpa only [Finmap.card_insert_of_mem _ hm0] using hcap
      · intro j hj
        obtain ⟨b, hb, hmb⟩ := hc (j + 1) (by omega)
        exact ⟨b, hb, Finmap.mem_insert.2 (Or.inr hmb)⟩

end BridgeIdentityRegistry

open BridgeIdentityRegistry

namespace LeasesOwnTokens

variable {s : LeaseSystem}

theorem new (capacity : ℕ) : LeasesOwnTokens (.new capacity) := by
  constructor <;> simp [LeaseSystem.new, BridgeIdentityRegistry.new, resolve]

/-- What is registered is the scope of a live lease. -/
theorem mem_of_resolve (h : LeasesOwnTokens s) {token : Str} {scope : AccountRequestScope}
    (hr : s.registry.resolve token = some scope) : (token, scope) ∈ s.live := by
  have hm : token ∈ s.live.map Prod.fst := by
    by_contra hn
    rw [h.resolve_none token hn] at hr
    cases hr
  obtain ⟨p, hp, rfl⟩ := List.mem_map.1 hm
  have := h.resolve_live p hp
  rw [hr, Option.some.injEq] at this
  rwa [this]

theorem issue_of_clear (h : LeasesOwnTokens s) {scope : AccountRequestScope}
    {draws : ℕ → Option (ByteVec 24)} (hc : DrawsClear s.registry scope 4 draws) :
    LeasesOwnTokens (s.issue scope draws) := by
  unfold LeaseSystem.issue BridgeIdentityRegistry.issue
  obtain ⟨e, he⟩ | ⟨token, hfree, ht⟩ := issueLoop_of_clear 4 draws hc
  · rw [he]; exact h
  · rw [ht]
    have hnew : ∀ p ∈ s.live, p.1 ≠ token := by
      rintro p hp rfl
      exact hfree (Finmap.mem_of_lookup_eq_some (h.resolve_live p hp))
    refine ⟨fun p hp => ?_, ?_, fun t htl => ?_⟩
    · rcases List.mem_cons.1 hp with rfl | hp
      · exact Finmap.lookup_insert _
      · exact (Finmap.lookup_insert_of_ne _ (hnew p hp)).trans (h.resolve_live p hp)
    · rw [List.map_cons, List.nodup_cons]
      refine ⟨fun hm => ?_, h.tokens_nodup⟩
      obtain ⟨p, hp, hpt⟩ := List.mem_map.1 hm
      exact hnew p hp hpt
    · simp only [List.map_cons, List.mem_cons, not_or] at htl
      exact (Finmap.lookup_insert_of_ne _ htl.1).trans (h.resolve_none t htl.2)

theorem drop (h : LeasesOwnTokens s) {token : Str} {scope : AccountRequestScope}
    (hm : (token, scope) ∈ s.live) : LeasesOwnTokens (s.drop token scope) := by
  have hperm := (List.perm_cons_erase hm).map Prod.fst
  have hnd := h.tokens_nodup
  rw [hperm.nodup_iff, List.map_cons, List.nodup_cons] at hnd
  refine ⟨fun p hp => ?_, hnd.2, fun t ht => ?_⟩
  · have hne : p.1 ≠ token := fun hpt => hnd.1 (List.mem_map.2 ⟨p, hp, hpt⟩)
    exact (Finmap.lookup_erase_ne hne).trans (h.resolve_live p (List.mem_of_mem_erase hp))
  · by_cases htt : t = token
    · subst htt; exact Finmap.lookup_erase _ _
    · refine (Finmap.lookup_erase_ne htt).trans (h.resolve_none t fun hmem => ht ?_)
      rw [hperm.mem_iff, List.map_cons, List.mem_cons] at hmem
      exact hmem.resolve_left htt

/-- If the leases own their tokens after the call too, no draw tried hit a foreign token. -/
theorem clear_of_issue (h : LeasesOwnTokens s) {scope : AccountRequestScope}
    {draws : ℕ → Option (ByteVec 24)} (h' : LeasesOwnTokens (s.issue scope draws)) :
    DrawsClear s.registry scope 4 draws := by
  intro hcap i hi hc bytes hd
  obtain ⟨b, hb, hmem⟩ := hc i le_rfl
  obtain rfl : b = bytes := Option.some.inj (hb.symm.trans hd)
  obtain ⟨old, hold⟩ := Finmap.mem_iff.1 hmem
  -- the lease that held the token before the call is live after it, with its own scope
  have hlive : (leaseToken b, old) ∈ (s.issue scope draws).live := by
    have := h.mem_of_resolve hold
    unfold LeaseSystem.issue
    split
    · exact List.mem_cons_of_mem _ this
    · exact this
  have hkept := h'.resolve_live _ hlive
  have htaken : (issueLoop scope 4 draws s.registry).2.resolve (leaseToken b) = some scope :=
    issueLoop_takes_token 4 draws i hi hcap hc hd
  have hreg : (s.issue scope draws).registry = (issueLoop scope 4 draws s.registry).2 := by
    unfold LeaseSystem.issue BridgeIdentityRegistry.issue
    split <;> simp_all
  rw [hreg, htaken, Option.some.injEq] at hkept
  rw [hkept]
  exact hold

theorem step_iff {act : LeaseAct} {s' : LeaseSystem} (h : LeasesOwnTokens s) (hs : s.Step act s') :
    NoForeignClash s act ↔ LeasesOwnTokens s' := by
  cases act with
  | issue scope draws =>
    subst hs
    exact ⟨h.issue_of_clear, h.clear_of_issue⟩
  | drop token scope =>
    obtain ⟨hm, rfl⟩ := hs
    exact ⟨fun _ => h.drop hm, fun _ => trivial⟩

end LeasesOwnTokens

theorem failedIssueKeepsRegistry_of_clear {s : LeaseSystem} {act : LeaseAct}
    (h : NoForeignClash s act) : FailedIssueKeepsRegistry s act := by
  cases act with
  | issue scope draws =>
    intro e registry he
    unfold BridgeIdentityRegistry.issue at he
    obtain ⟨e', he'⟩ | ⟨token, -, ht⟩ := issueLoop_of_clear 4 draws h
    · rw [he'] at he; exact (Prod.mk.inj he).2.symm
    · rw [ht] at he; cases (Prod.mk.inj he).1
  | drop token scope => trivial

/-- Every live lease resolves to its own scope, and nothing else resolves, in every state of a run
exactly when no draw tried in the run hit a live token of another scope; and then no failed call
has changed the registry. -/
theorem leases_own_tokens_iff (capacity : ℕ) {tr : List (LeaseSystem × LeaseAct)} {s : LeaseSystem}
    (hrun : Run LeaseSystem.Step (.new capacity) tr s) :
    ((∀ t ∈ reached tr s, LeasesOwnTokens t) ∧ ∀ p ∈ tr, FailedIssueKeepsRegistry p.1 p.2) ↔
      ∀ p ∈ tr, NoForeignClash p.1 p.2 := by
  have hiff := hrun.guard_iff (LeasesOwnTokens.new capacity) (C := NoForeignClash)
    fun _ _ _ h hs => h.step_iff hs
  constructor
  · exact fun h => hiff.2 h.1
  · exact fun h => ⟨hiff.1 h, fun p hp => failedIssueKeepsRegistry_of_clear (h p hp)⟩

/-! ### A repeated draw -/

namespace RepeatedDraw

def limits : AccountLimits :=
  ⟨.ofNat 1, .ofNat 1, .ofNat 1, none, none⟩

def scopeOf (n : ℕ) : AccountRequestScope :=
  ⟨⟨.ofNat n, .ofNat n, .ofNat n, .ofNat n, limits⟩, .epoch⟩

def first : AccountRequestScope := scopeOf 1

def second : AccountRequestScope := scopeOf 2

/-- Draws that repeat the all-zero draw once and then differ. -/
def draws (i : ℕ) : Option (ByteVec 24) :=
  some ⟨List.replicate 24 (if i = 0 then 0 else 1), List.length_replicate⟩

def token : Str := leaseToken ⟨List.replicate 24 0, rfl⟩

def s₀ : LeaseSystem := .new 4

def s₁ : LeaseSystem := s₀.issue first draws

def s₂ : LeaseSystem := s₁.issue second draws

theorem run₁ : Run LeaseSystem.Step s₀ [(s₀, .issue first draws)] s₁ := Run.nil.snoc rfl

end RepeatedDraw

open RepeatedDraw in
/-- The second call succeeds with its second draw, and the first lease, still live, resolves to the
scope of the second. -/
theorem repeated_draw_moves_lease :
    Run LeaseSystem.Step s₀ [(s₀, .issue first draws), (s₁, .issue second draws)] s₂ ∧
      (token, first) ∈ s₂.live ∧ s₂.registry.resolve token = some second ∧
      ¬ LeasesOwnTokens s₂ := by
  refine ⟨run₁.snoc rfl, by decide, by decide, fun h => ?_⟩
  exact absurd (h.resolve_live (token, first) (by decide)) (by decide)

/-! ### A draw that is free again -/

namespace ReturnedLease

open RepeatedDraw

def ones (_ : ℕ) : Option (ByteVec 24) := some ⟨List.replicate 24 1, List.length_replicate⟩

def both : LeaseSystem := s₁.issue second ones

def dropped : LeaseSystem := both.drop token first

def again : LeaseSystem := dropped.issue (scopeOf 3) draws

def acts : List (LeaseSystem × LeaseAct) :=
  [(s₀, .issue first draws), (s₁, .issue second ones), (both, .drop token first),
    (dropped, .issue (scopeOf 3) draws)]

end ReturnedLease

open RepeatedDraw ReturnedLease in
/-- Two leases are issued, the first is dropped, and its draw comes again for another scope. -/
theorem leases_own_tokens_iff_returned :
    ((∀ t ∈ reached acts again, LeasesOwnTokens t) ∧ ∀ p ∈ acts, FailedIssueKeepsRegistry p.1 p.2) ∧
      again.registry.resolve token = some (scopeOf 3) ∧ again.live.length = 2 := by
  have hrun : Run LeaseSystem.Step (.new 4) acts again :=
    (((Run.nil.snoc rfl).snoc rfl).snoc ⟨by decide, rfl⟩).snoc rfl
  refine ⟨(leases_own_tokens_iff 4 hrun).2 fun p hp => ?_, by decide, by decide⟩
  simp only [acts, List.mem_cons, List.not_mem_nil, or_false] at hp
  -- the first draw of every call is free
  rcases hp with rfl | rfl | rfl | rfl
  · intro _ i _ hc
    obtain ⟨_, -, hm⟩ := hc i le_rfl
    exact absurd hm Finmap.notMem_empty
  · intro _ i _ hc
    obtain ⟨_, hdraw, hm⟩ := hc 0 (Nat.zero_le i)
    cases hdraw
    exact absurd hm (by decide)
  · trivial
  · intro _ i _ hc
    obtain ⟨_, hdraw, hm⟩ := hc 0 (Nat.zero_le i)
    cases hdraw
    exact absurd hm (by decide)

end Cobra
