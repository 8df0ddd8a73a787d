import CobraProxy.Proofs.Destination
import CobraProxy.Proofs.Materials
import CobraProxy.Spec.Development

/-! Generated isolation identities. The counter makes them differ from each other; a caller can choose a name of
the same form, so they differ from chosen ones only where no caller does. -/

namespace Cobra

open Text Runs

/-- The identity that is generated from a value of the counter. -/
def generatedName (strict : Bool) (n : ℕ) : Str :=
  (if strict then "strict-".toList else "anonymous-".toList) ++ Nat.toDigits 10 n

theorem generatedName_inj {strict strict' : Bool} {n n' : ℕ} (h : generatedName strict n = generatedName strict' n') :
    strict = strict' ∧ n = n' := by
  cases strict <;> cases strict'
  · exact ⟨rfl, toDigits_inj (List.append_cancel_left h)⟩
  · cases h
  · cases h
  · exact ⟨rfl, toDigits_inj (List.append_cancel_left h)⟩

/-- The request has an identity of its own choice, which is used in session mode only. -/
def DevelopmentRequest.Chooses (r : DevelopmentRequest) (identity : Str) : Prop :=
  r.request.strict = false ∧ r.request.identity = some identity

/-- The identity of the request was generated from this value of the counter. -/
def DevelopmentRequest.Generated (r : DevelopmentRequest) (n : ℕ) : Prop :=
  (r.request.strict = true ∨ r.request.identity = none) ∧
    r.resolved.identity = generatedName r.request.strict n

/-- A request draws an identity from the counter, or uses the one that its caller chose. -/
theorem resolveIsolation_cases (request : IsolationRequest) (idCounter : ℕ) :
    (resolveIsolation request idCounter).1.strict = request.strict ∧
    (((request.strict = true ∨ request.identity = none) ∧
        (resolveIsolation request idCounter).1.identity = generatedName request.strict idCounter ∧
        (resolveIsolation request idCounter).2 = idCounter + 1) ∨
      (request.strict = false ∧ ∃ identity, request.identity = some identity ∧
        (resolveIsolation request idCounter).1.identity = identity ∧
        (resolveIsolation request idCounter).2 = idCounter)) := by
  obtain ⟨identity, strict⟩ := request
  cases strict with
  | true => exact ⟨rfl, .inl ⟨.inl rfl, rfl, rfl⟩⟩
  | false =>
    cases identity with
    | none => exact ⟨rfl, .inl ⟨.inr rfl, rfl, rfl⟩⟩
    | some identity => exact ⟨rfl, .inr ⟨rfl, identity, rfl, rfl, rfl⟩⟩

namespace DevelopmentSystem

variable {s s' : DevelopmentSystem} {act : DevelopmentAct}

/-- After this many steps every value of the counter names one request, and a request that has no such name
uses its caller's. -/
structure Numbered (steps : ℕ) (s : DevelopmentSystem) : Prop where
  counter : s.idCounter ≤ steps + 1
  fresh : Fresh (fun n r => r ∈ s.requests ∧ r.Generated n) s.idCounter
  named : ∀ r ∈ s.requests, (∃ n, r.Generated n) ∨ ∃ identity, r.Chooses identity ∧ r.resolved.identity = identity
  strict : ∀ r ∈ s.requests, r.resolved.strict = r.request.strict

theorem not_generated_of_chooses {r : DevelopmentRequest} {identity : Str} (h : r.Chooses identity) (n : ℕ) :
    ¬ r.Generated n := by
  rintro ⟨hstrict | hnone, -⟩
  · rw [h.1] at hstrict
    cases hstrict
  · rw [h.2] at hnone
    cases hnone

theorem Numbered.resolve {steps : ℕ} (h : Numbered steps s) (request : IsolationRequest)
    (hsteps : steps + 1 < 2 ^ 64 - 1) : Numbered (steps + 1) (s.resolve request) := by
  have hle := h.counter
  obtain ⟨hstrict, hcases⟩ := resolveIsolation_cases request s.idCounter
  have hmodes : ∀ r ∈ (s.resolve request).requests, r.resolved.strict = r.request.strict := by
    intro r hr
    rcases List.mem_cons.1 hr with rfl | hr
    · exact hstrict
    · exact h.strict r hr
  rcases hcases with ⟨hdraws, hname, hnext⟩ | ⟨hsession, identity, hidentity, hname, hnext⟩
  · -- the new request takes the next value of the counter
    have hcounter : (s.resolve request).idCounter = s.idCounter + 1 := by
      show (resolveIsolation request s.idCounter).2 % 2 ^ 64 = _
      rw [hnext, Nat.mod_eq_of_lt (by omega)]
    have hlast : ∀ n, DevelopmentRequest.Generated
        ⟨s.requests.length, request, (resolveIsolation request s.idCounter).1⟩ n → n = s.idCounter :=
      fun n hn => (generatedName_inj (hn.2.symm.trans hname)).2
    refine ⟨?_, ?_, fun r hr => ?_, hmodes⟩
    · rw [hcounter]
      exact Nat.succ_le_succ hle
    · rw [hcounter]
      refine h.fresh.draw ⟨s.requests.length, request, (resolveIsolation request s.idCounter).1⟩ fun n r hu => ?_
      rcases List.mem_cons.1 hu.1 with rfl | hr
      · exact .inr ⟨hlast n hu.2, rfl⟩
      · exact .inl ⟨hr, hu.2⟩
    · rcases List.mem_cons.1 hr with rfl | hr
      · exact .inl ⟨s.idCounter, hdraws, hname⟩
      · exact h.named r hr
  · have hcounter : (s.resolve request).idCounter = s.idCounter := by
      show (resolveIsolation request s.idCounter).2 % 2 ^ 64 = _
      rw [hnext, Nat.mod_eq_of_lt (by omega)]
    have hchooses : DevelopmentRequest.Chooses
        ⟨s.requests.length, request, (resolveIsolation request s.idCounter).1⟩ identity := ⟨hsession, hidentity⟩
    refine ⟨?_, ?_, fun r hr => ?_, hmodes⟩
    · rw [hcounter]
      exact hle.trans (Nat.le_succ _)
    · rw [hcounter]
      refine h.fresh.mono fun n r hu => ?_
      rcases List.mem_cons.1 hu.1 with rfl | hr
      · exact absurd hu.2 (not_generated_of_chooses hchooses n)
      · exact ⟨hr, hu.2⟩
    · rcases List.mem_cons.1 hr with rfl | hr
      · exact .inr ⟨identity, hchooses, hname⟩
      · exact h.named r hr

/-- A value that the bridge draws names no request. -/
theorem Numbered.bridge {steps : ℕ} (h : Numbered steps s) (r : DevelopmentRequest)
    (hsteps : steps + 1 < 2 ^ 64 - 1) : Numbered (steps + 1) (s.bridge r) := by
  have hle := h.counter
  have hnext : (s.bridge r).idCounter = s.idCounter ∨ (s.bridge r).idCounter = s.idCounter + 1 := by
    show (resolveIsolation _ s.idCounter).2 % 2 ^ 64 = _ ∨ (resolveIsolation _ s.idCounter).2 % 2 ^ 64 = _
    rcases (resolveIsolation_cases ⟨some r.resolved.identity, r.resolved.strict⟩ s.idCounter).2 with
      ⟨-, -, hnext⟩ | ⟨-, -, -, -, hnext⟩
    · rw [hnext, Nat.mod_eq_of_lt (by omega)]
      exact .inr rfl
    · rw [hnext, Nat.mod_eq_of_lt (by omega)]
      exact .inl rfl
  refine ⟨by omega, ⟨fun n r hu => ?_, h.fresh.unique⟩, h.named, h.strict⟩
  have hbound := h.fresh.bounded n r hu
  omega

theorem numbered_of_run {capacity ttl now : ℕ} {tr : List (DevelopmentSystem × DevelopmentAct)}
    (h : Run Step (init capacity ttl now) tr s) (hsteps : tr.length < 2 ^ 64 - 1) : Numbered tr.length s := by
  induction h with
  | nil => exact ⟨by simp [init], ⟨by simp [init], by simp [init]⟩, by simp [init], by simp [init]⟩
  | snoc _ hs ih =>
    rw [List.length_append] at hsteps ⊢
    have hbefore := ih (Nat.lt_of_succ_lt hsteps)
    have hcounter := Nat.le_succ_of_le hbefore.counter
    cases hs with
    | resolve request => exact hbefore.resolve request hsteps
    | bridge r => exact hbefore.bridge r hsteps
    | obtain => exact ⟨hcounter, hbefore.fresh, hbefore.named, hbefore.strict⟩
    | other => exact ⟨hcounter, hbefore.fresh, hbefore.named, hbefore.strict⟩

/-- The requests are those that the run has resolved, each with the counter as it was then. -/
structure FromSteps (tr : List (DevelopmentSystem × DevelopmentAct)) (s : DevelopmentSystem) : Prop where
  step_of : ∀ r ∈ s.requests, ∃ q, (q, .resolve r.request) ∈ tr ∧
    r.resolved = (resolveIsolation r.request q.idCounter).1
  request_of : ∀ q request, (q, .resolve request) ∈ tr →
    ∃ r ∈ s.requests, r.request = request ∧ r.resolved = (resolveIsolation request q.idCounter).1

namespace FromSteps

variable {tr : List (DevelopmentSystem × DevelopmentAct)}

theorem keep (h : FromSteps tr s) (hrequests : s'.requests = s.requests) (hact : ∀ request, act ≠ .resolve request) :
    FromSteps (tr ++ [(s, act)]) s' := by
  refine ⟨fun r hr => ?_, fun q request hq => ?_⟩
  · rw [hrequests] at hr
    obtain ⟨q, hq, hresolved⟩ := h.step_of r hr
    exact ⟨q, List.mem_append_left _ hq, hresolved⟩
  · rw [hrequests]
    rcases List.mem_append.1 hq with hq | hq
    · exact h.request_of q request hq
    · cases List.mem_singleton.1 hq
      exact absurd rfl (hact request)

theorem resolve (h : FromSteps tr s) (request : IsolationRequest) :
    FromSteps (tr ++ [(s, .resolve request)]) (s.resolve request) := by
  refine ⟨fun r hr => ?_, fun q request' hq => ?_⟩
  · rcases List.mem_cons.1 hr with rfl | hr
    · exact ⟨s, by simp, rfl⟩
    · obtain ⟨q, hq, hresolved⟩ := h.step_of r hr
      exact ⟨q, List.mem_append_left _ hq, hresolved⟩
  · rcases List.mem_append.1 hq with hq | hq
    · obtain ⟨r, hr, hfor⟩ := h.request_of q request' hq
      exact ⟨r, List.mem_cons_of_mem _ hr, hfor⟩
    · cases List.mem_singleton.1 hq
      exact ⟨_, List.mem_cons_self, rfl, rfl⟩

theorem of_run {capacity ttl now : ℕ} (h : Run Step (init capacity ttl now) tr s) : FromSteps tr s := by
  induction h with
  | nil => exact ⟨fun r hr => absurd hr List.not_mem_nil, fun q request hq => absurd hq List.not_mem_nil⟩
  | snoc _ hs ih =>
    cases hs with
    | resolve request => exact ih.resolve request
    | bridge => exact ih.keep rfl (by simp)
    | obtain => exact ih.keep rfl (by simp)
    | other => exact ih.keep rfl (by simp)

end FromSteps

/-! ### Material -/

/-- The calls of the store so far, each with the request that obtained its result. -/
def Served (ttl : ℕ) (s : DevelopmentSystem) : Prop :=
  ∃ served : List (Option DevelopmentRequest × StoreTransition),
    Chronicle ttl (served.map Prod.snd) s.store ∧
    ∀ r m, (r, m) ∈ s.obtained → ∃ x, (some r, x) ∈ served ∧ x.2.1.call = r.call ∧ x.2.1.returned = some m

theorem call_ne_put (r : DevelopmentRequest) (identity : Str) (token : ℕ) (ttl : Option ℕ) :
    r.call ≠ .put identity token ttl := by
  unfold DevelopmentRequest.call
  split_ifs <;> simp

theorem groupCounter_le_succ (hs : Step s act s') :
    s'.store.store.groupCounter ≤ s.store.store.groupCounter + 1 := by
  cases hs with
  | resolve => exact Nat.le_succ _
  | bridge => exact Nat.le_succ _
  | obtain r hmem h => exact (groupCounter_step h (call_ne_put r)).2
  | other h hcall =>
    refine (groupCounter_step h fun identity token ttl hput => ?_).2
    rcases hcall with hc | ⟨k, hc⟩ <;> rw [hc] at hput <;> cases hput

theorem groupCounter_le {capacity ttl now : ℕ} {tr : List (DevelopmentSystem × DevelopmentAct)}
    (h : Run Step (init capacity ttl now) tr s) : s.store.store.groupCounter ≤ tr.length + 1 := by
  induction h with
  | nil => exact le_rfl
  | snoc _ hs ih =>
    rw [List.length_append]
    exact (groupCounter_le_succ hs).trans (Nat.succ_le_succ ih)

theorem configured_step {capacity ttl : ℕ} (h : TimedStore.Configured capacity ttl s.store) (hs : Step s act s') :
    TimedStore.Configured capacity ttl s'.store := by
  cases hs with
  | resolve => exact h
  | bridge => exact h
  | obtain r hmem hstep => exact h.step hstep
  | other hstep => exact h.step hstep

theorem Served.step {ttl : ℕ} (h : Served ttl s) (httl : s.store.store.ttl = ttl) (hs : Step s act s')
    (hgroups : s'.store.store.groupCounter ≤ 2 ^ 64) : Served ttl s' := by
  obtain ⟨served, hchronicle, hobtained⟩ := h
  cases hs with
  | resolve => exact ⟨served, hchronicle, hobtained⟩
  | bridge => exact ⟨served, hchronicle, hobtained⟩
  | @obtain r hmem time material store hstep =>
    refine ⟨served ++ [(some r, s.store, ⟨r.call, time, some material⟩, store)], ?_, fun r' m hm => ?_⟩
    · rw [List.map_append]
      exact hchronicle.step httl hstep (call_ne_put r) hgroups
    · rcases List.mem_cons.1 hm with heq | hm
      · cases heq
        exact ⟨_, List.mem_append_right _ (List.mem_singleton_self _), rfl, rfl⟩
      · obtain ⟨x, hx, hcall, hret⟩ := hobtained r' m hm
        exact ⟨x, List.mem_append_left _ hx, hcall, hret⟩
  | @other event store hstep hcall =>
    refine ⟨served ++ [(none, s.store, event, store)], ?_, fun r' m hm => ?_⟩
    · rw [List.map_append]
      refine hchronicle.step httl hstep (fun identity token ttl hput => ?_) hgroups
      rcases hcall with hc | ⟨k, hc⟩ <;> rw [hc] at hput <;> cases hput
    · obtain ⟨x, hx, hcall, hret⟩ := hobtained r' m hm
      exact ⟨x, List.mem_append_left _ hx, hcall, hret⟩

theorem served_of_run {capacity ttl now : ℕ} {tr : List (DevelopmentSystem × DevelopmentAct)}
    (h : Run Step (init capacity ttl now) tr s) (hsteps : tr.length < 2 ^ 64 - 1) : Served ttl s := by
  induction h with
  | nil => exact ⟨[], chronicle_of_run .nil (by simp) (show 1 ≤ 2 ^ 64 by decide), by simp [init]⟩
  | snoc h hs ih =>
    have hgroups := groupCounter_le (h.snoc hs)
    have hconf := h.invariant (I := fun s => TimedStore.Configured capacity ttl s.store) ⟨rfl, rfl⟩
      fun _ _ _ hI hs => configured_step hI hs
    rw [List.length_append] at hsteps hgroups
    exact (ih (Nat.lt_of_succ_lt hsteps)).step hconf.2 hs (hgroups.trans (Nat.succ_le_of_lt (by omega)))

/-- The request does not choose a name that the run generates for a request without an identity. -/
def Unreserved (tr : List (DevelopmentSystem × DevelopmentAct)) (r : DevelopmentRequest) : Prop :=
  ∀ identity, r.Chooses identity → ∀ q request, (q, .resolve request) ∈ tr → request.identity = none →
    identity ≠ generatedName request.strict q.idCounter

/-- The generated identity of `r` is not that of `r'`, and the two share no material. -/
def Apart (s : DevelopmentSystem) (r r' : DevelopmentRequest) : Prop :=
  r.resolved.identity ≠ r'.resolved.identity ∧
    ∀ m m', (r, m) ∈ s.obtained → (r', m') ∈ s.obtained → m.token ≠ m'.token ∧ m.groupKey ≠ m'.groupKey

theorem generatedName_of_resolve {r : DevelopmentRequest} {idCounter : ℕ} (hnone : r.request.identity = none)
    (h : r.resolved = (resolveIsolation r.request idCounter).1) :
    r.resolved.identity = generatedName r.request.strict idCounter := by
  rcases (resolveIsolation_cases r.request idCounter).2 with ⟨-, hname, -⟩ | ⟨-, identity, hidentity, -⟩
  · rw [h, hname]
  · rw [hnone] at hidentity
    cases hidentity

end DevelopmentSystem

open DevelopmentSystem

/-- The identity of a request without an identity header is that of no other request, and such a request shares no
token and no group key with another, in exactly the runs in which no caller chooses, in session mode, a name that is
generated for a request without one. -/
theorem generated_identity_is_private {capacity ttl now : ℕ} {tr : List (DevelopmentSystem × DevelopmentAct)}
    {s : DevelopmentSystem} (h : Run Step (init capacity ttl now) tr s) (hsteps : tr.length < 2 ^ 64 - 1) :
    (∀ r ∈ s.requests, ∀ r' ∈ s.requests, r ≠ r' → r.request.identity = none → Apart s r r') ↔
      ∀ r ∈ s.requests, Unreserved tr r := by
  obtain ⟨hfrom, hto⟩ := FromSteps.of_run h
  constructor
  · intro hapart r' hr' identity hchooses q request hq hnone heq
    obtain ⟨r, hr, rfl, hresolved⟩ := hto q request hq
    have hname := generatedName_of_resolve hnone hresolved
    have hne : r ≠ r' := by
      rintro rfl
      rw [hchooses.2] at hnone
      cases hnone
    obtain ⟨q', -, hresolved'⟩ := hfrom r' hr'
    refine (hapart r hr r' hr' hne hnone).1 ?_
    rcases (resolveIsolation_cases r'.request q'.idCounter).2 with
      ⟨hstrict | hnone', -⟩ | ⟨-, identity', hidentity', hname', -⟩
    · rw [hchooses.1] at hstrict
      cases hstrict
    · rw [hchooses.2] at hnone'
      cases hnone'
    · rw [hchooses.2, Option.some.injEq] at hidentity'
      rw [hname, hresolved', hname', ← hidentity', heq]
  intro hchosen r hr r' hr' hne hnone
  have hnumbered := numbered_of_run h hsteps
  obtain ⟨q, hq, hresolved⟩ := hfrom r hr
  have hname := generatedName_of_resolve hnone hresolved
  have hgenerated : r.Generated q.idCounter := ⟨.inr hnone, hname⟩
  have hnames : r.resolved.identity ≠ r'.resolved.identity := by
    intro heq
    rcases hnumbered.named r' hr' with ⟨n', hn'⟩ | ⟨identity, hchooses, hidentity⟩
    · obtain ⟨-, rfl⟩ := generatedName_inj (hname.symm.trans (heq.trans hn'.2))
      exact hne (hnumbered.fresh.unique q.idCounter r r' ⟨hr, hgenerated⟩ ⟨hr', hn'⟩)
    · refine hchosen r' hr' identity hchooses q r.request hq hnone ?_
      rw [← hidentity, ← heq, hname]
  refine ⟨hnames, fun m m' hm hm' => ?_⟩
  obtain ⟨served, hchronicle, hobtained⟩ := served_of_run h hsteps
  obtain ⟨x, hx, hcall, hret⟩ := hobtained r m hm
  obtain ⟨y, hy, hcall', hret'⟩ := hobtained r' m' hm'
  have hseparate : Separate x y := by
    have hpairs := List.pairwise_map.1 hchronicle.issued.separate
    have : Std.Symm fun a b : Option DevelopmentRequest × StoreTransition => Separate a.2 b.2 :=
      ⟨fun a b hab => Std.Symm.symm _ _ hab⟩
    exact hpairs.forall hx hy fun heq => hne (Option.some.inj (congrArg Prod.fst heq))
  -- two calls that share material are lookups of one identity
  have hapart : ¬ (m.token = m'.token ∨ m.groupKey = m'.groupKey) := by
    intro hshared
    obtain ⟨⟨identity, hidx, hidy⟩, -⟩ := hseparate m m' hret hret' hshared
    rw [hcall] at hidx
    rw [hcall'] at hidy
    unfold DevelopmentRequest.call at hidx hidy
    split_ifs at hidx hidy
    · cases hidx
    · cases hidx
    · cases hidy
    · exact hnames (Option.some.inj (hidx.trans hidy.symm))
  exact not_or.1 hapart

/-- A request without an identity and one that chose its own. -/
theorem generated_identity_is_private_pair :
    ∃ tr s r r' m m', Run Step (init 2 60 0) tr s ∧ r ∈ s.requests ∧ r' ∈ s.requests ∧
      r.resolved.identity = "anonymous-1".toList ∧ r'.resolved.identity = "alice".toList ∧
      (r, m) ∈ s.obtained ∧ (r', m') ∈ s.obtained ∧ m.token ≠ m'.token ∧ m.groupKey ≠ m'.groupKey := by
  let r : DevelopmentRequest := ⟨0, ⟨none, false⟩, ⟨"anonymous-1".toList, false⟩⟩
  let r' : DevelopmentRequest := ⟨1, ⟨some "alice".toList, false⟩, ⟨"alice".toList, false⟩⟩
  have hstart : Run Step (init 2 60 0) [] (init 2 60 0) := .nil
  have hfirst := hstart.snoc (.resolve ⟨none, false⟩ (by simp))
  have hsecond := hfirst.snoc (.resolve ⟨some "alice".toList, false⟩ fun identity h =>
    ⟨utf8 "alice".toList, by cases h; exact Fallible.toOption_eq_some.1 (by decide +kernel)⟩)
  have hgets := hsecond.snoc (.obtain r (by decide +kernel)
    (.call (.materialForAt "anonymous-1".toList) 0 none (by decide) (by decide +kernel)))
  have hlast := hgets.snoc (.obtain r' (by decide +kernel)
    (.call (.materialForAt "alice".toList) 0 (some "anonymous-1".toList) (by decide) (by decide +kernel)))
  have hunreserved : ∀ strict n, "alice".toList ≠ generatedName strict n := by
    intro strict n h
    cases strict <;> cases h
  have hprivate := (generated_identity_is_private hlast (by simp)).2 (fun x hx => ?_) r (by decide +kernel) r'
    (by decide +kernel) (by decide +kernel) rfl
  · exact ⟨_, _, r, r', ⟨1, 1⟩, ⟨2, 2⟩, hlast, by decide +kernel, by decide +kernel, rfl, rfl, by decide +kernel,
      by decide +kernel, hprivate.2 ⟨1, 1⟩ ⟨2, 2⟩ (by decide +kernel) (by decide +kernel)⟩
  · intro identity hchooses q request _ _
    rcases List.mem_cons.1 hx with rfl | hx
    · cases hchooses.2
      exact hunreserved request.strict q.idCounter
    · cases List.mem_singleton.1 hx
      cases hchooses.2

/-- A caller chooses the name that the next request without an identity is given. -/
theorem generated_identity_is_shared :
    ¬ ∀ (capacity ttl now : ℕ) (tr : List (DevelopmentSystem × DevelopmentAct)) (s : DevelopmentSystem),
      Run Step (init capacity ttl now) tr s → tr.length < 2 ^ 64 - 1 →
      ∀ r ∈ s.requests, ∀ r' ∈ s.requests, r ≠ r' → r.request.identity = none →
        r.resolved.identity ≠ r'.resolved.identity ∧
          ∀ m m', (r, m) ∈ s.obtained → (r', m') ∈ s.obtained → m.token ≠ m'.token ∧ m.groupKey ≠ m'.groupKey := by
  intro hall
  have hstart : Run Step (init 2 60 0) [] (init 2 60 0) := .nil
  have hchosen := hstart.snoc (.resolve ⟨some "anonymous-1".toList, false⟩ fun identity h =>
    ⟨utf8 "anonymous-1".toList, by cases h; exact Fallible.toOption_eq_some.1 (by decide +kernel)⟩)
  have hgenerated := hchosen.snoc (.resolve ⟨none, false⟩ (by simp))
  let r : DevelopmentRequest := ⟨1, ⟨none, false⟩, ⟨"anonymous-1".toList, false⟩⟩
  let r' : DevelopmentRequest := ⟨0, ⟨some "anonymous-1".toList, false⟩, ⟨"anonymous-1".toList, false⟩⟩
  have hgets := hgenerated.snoc (.obtain r (by decide +kernel)
    (.call (.materialForAt "anonymous-1".toList) 0 none (by decide) (by decide +kernel)))
  have hlast := hgets.snoc (.obtain r' (by decide +kernel)
    (.call (.materialForAt "anonymous-1".toList) 0 (some "anonymous-1".toList) (by decide) (by decide +kernel)))
  have hprivate := hall 2 60 0 _ _ hlast (by simp) r (by decide +kernel) r' (by decide +kernel)
    (by decide +kernel) rfl
  exact (hprivate.2 ⟨1, 1⟩ ⟨1, 1⟩ (by decide +kernel) (by decide +kernel)).1 rfl

end Cobra
