import CobraProxy.Lib.Run
import CobraProxy.Spec.Reservations

/-! Reservations under contention. A call has a value to store only while it has seen the counter below the limit,
so the exchange that reaches the limit is the last that can succeed. -/

namespace Cobra

open Runs

theorem CustomerPeriodUsage.project_of_lt {requested limit current : ℕ} (hlimit : limit < 2 ^ 64)
    (h : current < limit) : project requested limit current =
      .ok (current + min requested (limit - current),
        ⟨min requested (limit - current), current + min requested (limit - current) == limit⟩) := by
  have hfits : current + min requested (limit - current) < 2 ^ 64 := by omega
  unfold project checkedAdd
  rw [if_neg (by omega)]
  dsimp only
  rw [if_pos hfits]

theorem CustomerPeriodUsage.project_of_le {requested limit current : ℕ} (h : limit ≤ current) :
    project requested limit current = .error (.limitReached limit) := if_pos h

namespace Contention

variable {ι : Type} [DecidableEq ι] {limit : ℕ} {requested : ι → ℕ} {s s' : Contention ι} {act : AllowAct ι}
  {tr : List (Contention ι × AllowAct ι)} {i j : ι}

@[simp] theorem usedBytes_go (phase : AllowPhase) : (s.go i phase).usedBytes = s.usedBytes := rfl

theorem phase_go (phase : AllowPhase) : (s.go i phase).phase j = if j = i then phase else s.phase j := by
  by_cases h : j = i
  · subst h; simp [go]
  · simp [go, h]

omit [DecidableEq ι] in
theorem grants_snoc (tr : List (Contention ι × AllowAct ι)) (s : Contention ι) (act : AllowAct ι) :
    grants (tr ++ [(s, act)]) = grants tr ++ (grant (s, act)).toList := by
  rw [grants, List.filterMap_append, grants, List.filterMap_cons, List.filterMap_nil]
  cases grant (s, act) <;> rfl

/-- What a call has computed, it has computed from a counter below the limit. -/
structure Projected (limit requested current projected : ℕ) (allowance : CustomerDataAllowance) : Prop where
  below : current < limit
  bytes : allowance.bytes = min requested (limit - current)
  sum : projected = current + allowance.bytes
  exhausted : allowance.exhausted = true ↔ projected = limit

theorem loaded_cases (hlimit : limit < 2 ^ 64) (requested current : ℕ) :
    (limit ≤ current ∧ loaded requested limit current = .returned (.error (.limitReached limit))) ∨
    ∃ projected allowance, loaded requested limit current = .exchange current projected allowance ∧
      Projected limit requested current projected allowance := by
  unfold loaded
  rcases Nat.lt_or_ge current limit with h | h
  · rw [CustomerPeriodUsage.project_of_lt hlimit h]
    exact .inr ⟨_, _, rfl, h, rfl, rfl, beq_iff_eq⟩
  · rw [CustomerPeriodUsage.project_of_le h]
    exact .inl ⟨h, rfl⟩

/-- What is true of the calls: a value to store was computed as `allow` computes it, and the only error is that
the limit is reached. -/
structure Sound (limit : ℕ) (requested : ι → ℕ) (s : Contention ι) : Prop where
  exchange : ∀ i current projected allowance, s.phase i = .exchange current projected allowance →
    Projected limit (requested i) current projected allowance
  error : ∀ i e, s.phase i = .returned (.error e) → e = .limitReached limit

omit [DecidableEq ι] in
theorem sound_init (u0 : ℕ) : Sound limit requested (init u0) :=
  ⟨fun _ _ _ _ h => (by cases h), fun _ _ h => (by cases h)⟩

theorem Sound.go (h : Sound limit requested s) {phase : AllowPhase}
    (hexchange : ∀ current projected allowance, phase = .exchange current projected allowance →
      Projected limit (requested i) current projected allowance)
    (herror : ∀ e, phase = .returned (.error e) → e = .limitReached limit) :
    Sound limit requested (s.go i phase) := by
  refine ⟨fun j current projected allowance hj => ?_, fun j e hj => ?_⟩
  · rw [phase_go] at hj
    split_ifs at hj with hij
    · rw [hij]
      exact hexchange _ _ _ hj
    · exact h.exchange _ _ _ _ hj
  · rw [phase_go] at hj
    split_ifs at hj
    · exact herror e hj
    · exact h.error j e hj

theorem Sound.step (hlimit : limit < 2 ^ 64) (h : Sound limit requested s) (hs : Step limit requested s act s') :
    Sound limit requested s' := by
  cases hs with
  | load i _ =>
    rcases loaded_cases hlimit (requested i) s.usedBytes with ⟨-, heq⟩ | ⟨projected, allowance, heq, hp⟩
    · rw [heq]
      exact h.go (by simp) (by simp [eq_comm])
    · rw [heq]
      refine h.go (fun _ _ _ he => ?_) (by simp)
      cases he
      exact hp
  | exchange i projected allowance _ =>
    have hgo : Sound limit requested (s.go i (.returned (.ok allowance))) := h.go (by simp) (by simp)
    exact ⟨hgo.exchange, hgo.error⟩
  | fail i => exact h.go (by simp) (by simp)

/-- What the grants so far say about the counter and about the calls. -/
structure Ledger (limit u0 : ℕ) (gs : List (ι × CustomerDataAllowance)) (s : Contention ι) : Prop where
  used : s.usedBytes = u0 + (gs.map fun g => g.2.bytes).sum
  within : s.usedBytes ≤ limit
  returned : ∀ i a, s.phase i = .returned (.ok a) ↔ (i, a) ∈ gs
  once : (gs.map Prod.fst).Nodup
  exhausted : ∀ g ∈ gs, g.2.exhausted = true → s.usedBytes = limit ∧ gs.getLast? = some g

omit [DecidableEq ι] in
theorem ledger_init {u0 : ℕ} (h : u0 ≤ limit) : Ledger limit u0 [] (init u0 : Contention ι) :=
  ⟨rfl, h, fun i a => ⟨fun h => (by cases h), fun h => (by cases h)⟩, List.nodup_nil, fun _ h => (by cases h)⟩

/-- A call that goes on without a grant. -/
theorem Ledger.go {u0 : ℕ} {gs : List (ι × CustomerDataAllowance)} (h : Ledger limit u0 gs s) {phase : AllowPhase}
    (hbefore : ∀ a, s.phase i ≠ .returned (.ok a)) (hafter : ∀ a, phase ≠ .returned (.ok a)) :
    Ledger limit u0 gs (s.go i phase) := by
  refine ⟨h.used, h.within, fun j a => ?_, h.once, h.exhausted⟩
  rw [phase_go, ← h.returned]
  split_ifs with hij
  · subst hij
    exact iff_of_false (hafter a) (hbefore a)
  · rfl

/-- One step adds its grant to the ledger. -/
theorem Ledger.step {u0 : ℕ} {gs : List (ι × CustomerDataAllowance)} (hlimit : limit < 2 ^ 64)
    (hsound : Sound limit requested s) (h : Ledger limit u0 gs s) (hs : Step limit requested s act s') :
    Ledger limit u0 (gs ++ (grant (s, act)).toList) s' := by
  cases hs with
  | load i hi =>
    rw [show grant (s, .load i) = none from rfl, Option.toList_none, List.append_nil]
    rcases loaded_cases hlimit (requested i) s.usedBytes with ⟨-, heq⟩ | ⟨projected, allowance, heq, -⟩
    · rw [heq]
      exact h.go (by simp [hi]) (by simp)
    · rw [heq]
      exact h.go (by simp [hi]) (by simp)
  | fail i current projected allowance hi =>
    rw [show grant (s, .fail i) = none from rfl, Option.toList_none, List.append_nil]
    exact h.go (by simp [hi]) (by simp)
  | exchange i projected allowance hi =>
    have hp := hsound.exchange i _ _ _ hi
    have hgrant : grant (s, .exchange i) = some (i, allowance) := by simp [grant, hi]
    have hnot : ∀ a, (i, a) ∉ gs := fun a hmem => by
      rw [(h.returned i a).2 hmem] at hi
      cases hi
    rw [hgrant, Option.toList_some]
    refine ⟨?_, ?_, fun j a => ?_, ?_, ?_⟩
    · rw [List.map_append, List.sum_append, List.map_singleton, List.sum_singleton, ← Nat.add_assoc, ← h.used]
      exact hp.sum
    · show projected ≤ limit
      have := hp.sum
      have := hp.bytes
      have := hp.below
      omega
    · show (s.go i (.returned (.ok allowance))).phase j = _ ↔ _
      rw [phase_go, List.mem_append, List.mem_singleton, ← h.returned]
      split_ifs with hij
      · subst hij
        rw [hi]
        simp [eq_comm]
      · simp [hij]
    · rw [List.map_append, List.map_singleton, List.nodup_append]
      refine ⟨h.once, List.nodup_singleton _, ?_⟩
      intro j hj k hk
      obtain ⟨⟨j', a⟩, hmem, rfl⟩ := List.mem_map.1 hj
      rw [List.mem_singleton.1 hk]
      rintro rfl
      exact hnot a hmem
    · -- a grant before this one cannot have reached the limit
      intro g hg hexhausted
      rcases List.mem_append.1 hg with hg | hg
      · have hreached := (h.exhausted g hg hexhausted).1
        have := hp.below
        omega
      · rw [List.mem_singleton.1 hg] at hexhausted ⊢
        exact ⟨hp.exhausted.1 hexhausted, by simp⟩

/-- What a step grants is the least of what is requested and what remains, and it is less than what is requested
only if it reaches the limit. -/
theorem Sound.grant_eq (h : Sound limit requested s) (hs : Step limit requested s act s') {a : CustomerDataAllowance}
    (hgrant : grant (s, act) = some (i, a)) :
    a.bytes = min (requested i) (limit - s.usedBytes) ∧ (a.bytes < requested i → a.exhausted = true) := by
  cases hs with
  | load | fail => cases hgrant
  | exchange j projected allowance hj =>
    rw [show grant (s, .exchange j) = some (j, allowance) by simp [grant, hj]] at hgrant
    cases hgrant
    have hp := h.exchange _ _ _ _ hj
    refine ⟨hp.bytes, fun hless => hp.exhausted.2 ?_⟩
    have := hp.bytes
    have := hp.sum
    have := hp.below
    omega

/-- At the limit nothing is granted and the counter stays; a call that loads it returns. -/
theorem Sound.at_limit (hlimit : limit < 2 ^ 64) (h : Sound limit requested s) (hs : Step limit requested s act s')
    (hused : s.usedBytes = limit) : grant (s, act) = none ∧ s'.usedBytes = limit ∧
      ∀ i, act = .load i → s'.phase i = .returned (.error (.limitReached limit)) := by
  cases hs with
  | load i hi =>
    refine ⟨rfl, hused, fun j hj => ?_⟩
    cases hj
    rw [phase_go, if_pos rfl]
    rcases loaded_cases hlimit (requested i) s.usedBytes with ⟨-, heq⟩ | ⟨projected, allowance, -, hp⟩
    · exact heq
    · have := hp.below
      omega
  | exchange i projected allowance hi =>
    have := (h.exchange i _ _ _ hi).below
    omega
  | fail i => exact ⟨rfl, hused, fun j hj => by cases hj⟩

/-- A call that has failed has loaded the counter at the limit. -/
theorem Step.refused (hlimit : limit < 2 ^ 64) (hs : Step limit requested s act s')
    {e : CustomerDataAdmissionError} (hi : s'.phase i = .returned (.error e)) :
    s.phase i = .returned (.error e) ∨ act = .load i ∧ limit ≤ s.usedBytes := by
  cases hs with
  | load j _ =>
    rw [phase_go] at hi
    split_ifs at hi with hij
    · rcases loaded_cases hlimit (requested j) s.usedBytes with ⟨hused, -⟩ | ⟨projected, allowance, heq, -⟩
      · exact .inr ⟨by rw [hij], hused⟩
      · rw [heq] at hi
        cases hi
    · exact .inl hi
  | exchange j projected allowance _ =>
    change (s.go j (.returned (.ok allowance))).phase i = _ at hi
    rw [phase_go] at hi
    split_ifs at hi
    · cases hi
    · exact .inl hi
  | fail j =>
    rw [phase_go] at hi
    split_ifs at hi
    exact .inl hi

/-- What holds of a run of calls on a counter that was seeded with `u0`. -/
structure Exact (limit u0 : ℕ) (requested : ι → ℕ) (tr : List (Contention ι × AllowAct ι)) (s : Contention ι) :
    Prop where
  /-- The counter has the bytes that were granted, and at most the limit. -/
  used : s.usedBytes = u0 + ((grants tr).map fun g => g.2.bytes).sum
  within : s.usedBytes ≤ limit
  /-- The grants are what the calls returned, each call once. -/
  returned : ∀ i a, s.phase i = .returned (.ok a) ↔ (i, a) ∈ grants tr
  once : ((grants tr).map Prod.fst).Nodup
  /-- A call is granted what it requested, or what remains when its exchange succeeds. -/
  amount : ∀ p ∈ tr, ∀ i a, grant p = some (i, a) → a.bytes = min (requested i) (limit - p.1.usedBytes)
  /-- Only an exhausted grant is less than what was requested. -/
  short : ∀ i a, s.phase i = .returned (.ok a) → a.bytes < requested i → a.exhausted = true
  /-- At most one call is marked exhausted, and its grant is the last. -/
  exhausted_once : ∀ i j a b, s.phase i = .returned (.ok a) → s.phase j = .returned (.ok b) →
    a.exhausted = true → b.exhausted = true → i = j
  exhausted_last : ∀ g ∈ grants tr, g.2.exhausted = true → (grants tr).getLast? = some g
  /-- Once the limit is reached it stays reached, nothing is granted, and a call that loads the counter fails. -/
  closed : ∀ q act q', (q, act, q') ∈ transitions tr s → q.usedBytes = limit →
    grant (q, act) = none ∧ q'.usedBytes = limit ∧
      ∀ i, act = .load i → q'.phase i = .returned (.error (.limitReached limit))
  /-- No call fails in another way. -/
  error : ∀ i e, s.phase i = .returned (.error e) → e = .limitReached limit
  /-- A call that failed has loaded the counter at the limit. -/
  refused : ∀ i e, s.phase i = .returned (.error e) → ∃ q, (q, .load i) ∈ tr ∧ q.usedBytes = limit

/-- Reservations are exact under contention: for any calls and any interleaving of their loads and exchanges. -/
theorem reservations_are_exact {u0 : ℕ} (hlimit : limit < 2 ^ 64) (hseed : u0 ≤ limit)
    (h : Run (Step limit requested) (init u0) tr s) : Exact limit u0 requested tr s := by
  have hsound : ∀ {tr s}, Run (Step limit requested) (init u0) tr s → Sound limit requested s :=
    fun hrun => hrun.invariant (sound_init u0) fun _ _ _ hI hs => hI.step hlimit hs
  have hledger : ∀ {tr s}, Run (Step limit requested) (init u0) tr s → Ledger limit u0 (grants tr) s := by
    intro tr s hrun
    induction hrun with
    | nil => exact ledger_init hseed
    | snoc hrun hs ih =>
      rw [grants_snoc]
      exact ih.step hlimit (hsound hrun) hs
  have hrefused : ∀ i e, s.phase i = .returned (.error e) → ∃ q, (q, .load i) ∈ tr ∧ q.usedBytes = limit := by
    intro i e hi
    induction h with
    | nil => cases hi
    | @snoc tr q s' act hrun hs ih =>
      rcases hs.refused hlimit hi with hi | ⟨rfl, hused⟩
      · obtain ⟨q', hq', hused⟩ := ih hi
        exact ⟨q', List.mem_append_left _ hq', hused⟩
      · exact ⟨q, by simp, (hledger hrun).within.antisymm hused⟩
  have hgrant : ∀ p ∈ tr, ∀ i a, grant p = some (i, a) →
      a.bytes = min (requested i) (limit - p.1.usedBytes) ∧ (a.bytes < requested i → a.exhausted = true) := by
    intro p hp i a hg
    obtain ⟨pre, post, s', -, hpre, hs, -⟩ := h.split_at hp
    exact (hsound hpre).grant_eq hs hg
  have hledger := hledger h
  refine ⟨hledger.used, hledger.within, hledger.returned, hledger.once, fun p hp i a hg => (hgrant p hp i a hg).1,
    fun i a hi => ?_, fun i j a b hi hj ha hb => ?_, fun g hg he => (hledger.exhausted g hg he).2,
    fun q act q' hq hused => ?_, (hsound h).error, hrefused⟩
  · obtain ⟨p, hp, hg⟩ := List.mem_filterMap.1 ((hledger.returned i a).1 hi)
    exact (hgrant p hp i a hg).2
  · have hlast := (hledger.exhausted _ ((hledger.returned i a).1 hi) ha).2
    rw [(hledger.exhausted _ ((hledger.returned j b).1 hj) hb).2] at hlast
    exact (Prod.mk.inj (Option.some.inj hlast)).1.symm
  · obtain ⟨hI, hs⟩ := h.of_mem_transitions (sound_init u0) (fun _ _ _ hI hs => hI.step hlimit hs) hq
    exact hI.at_limit hlimit hs hused

/-- Two calls of sixty bytes load the counter, the exchange of one makes that of the other fail, and its second
round gets the forty bytes that are left. -/
theorem reservations_are_exact_pair : ∃ tr s, Run (Step 100 fun _ : Bool => 60) (init 0) tr s ∧
    s.phase false = .returned (.ok ⟨60, false⟩) ∧ s.phase true = .returned (.ok ⟨40, true⟩) ∧
    Exact 100 0 (fun _ : Bool => 60) tr s := by
  have hstart : Run (Step 100 fun _ : Bool => 60) (init 0) [] (init 0) := .nil
  have hloaded := (hstart.snoc (.load false rfl)).snoc (.load true rfl)
  have hfirst := (hloaded.snoc (.exchange false 60 ⟨60, false⟩ (by rfl))).snoc
    (.fail true 0 60 ⟨60, false⟩ (by rfl))
  have hsecond := (hfirst.snoc (.load true (by rfl))).snoc (.exchange true 100 ⟨40, true⟩ (by rfl))
  exact ⟨_, _, hsecond, by rfl, by rfl, reservations_are_exact (by decide) (by decide) hsecond⟩

end Contention

end Cobra
