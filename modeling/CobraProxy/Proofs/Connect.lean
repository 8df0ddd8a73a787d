import CobraProxy.Spec.Connect

/-! `connect_with_retry` against every clock, token store and network: what it may do before each call, and what it has
done when it returns. -/

namespace Cobra

open Text Program Prog

/-- A connection that was tried. -/
structure Attempt where
  isolation : StreamIsolation
  timeout : ℕ
  result : Option (Except ArtiErrorKind Unit)

namespace Attempt

def failure (attempt : Attempt) : Option RetryFailure :=
  match attempt.result with
  | some (.ok ()) => none
  | some (.error kind) => some (.tor kind)
  | none => some .timeout

end Attempt

def RetryFailure.reportedAs : RetryFailure → String
  | .timeout => "timeout"
  | .tor kind => artiErrorClass kind

inductive StoreUse
  | lookup (identity : Str) (token : ℕ)
  | rotate (identity : Str)
  deriving DecidableEq

/-- What has happened so far, the latest first. -/
structure Seen where
  clocks : List ℕ
  attempts : List Attempt
  uses : List StoreUse
  timeouts : ℕ
  reports : List String

namespace Seen

def note (s : Seen) : RetryEvent → Seen
  | ⟨.now, now⟩ => { s with clocks := now :: s.clocks }
  | ⟨.materialFor identity, material⟩ => { s with uses := .lookup identity material.token :: s.uses }
  | ⟨.connectWithPrefs _ isolation timeout, result⟩ =>
    { s with attempts := ⟨isolation, timeout, result⟩ :: s.attempts }
  | ⟨.connectTimeouts, _⟩ => { s with timeouts := s.timeouts + 1 }
  | ⟨.recordArtiFailure failure, _⟩ => { s with reports := failure :: s.reports }
  | ⟨.rotate identity, _⟩ => { s with uses := .rotate identity :: s.uses }
  | ⟨.recordBuildLatency, _⟩ | ⟨.retries, _⟩ | ⟨.sleep _, _⟩ => s

/-- What is reported for the attempts. -/
def expected (s : Seen) : List String := s.attempts.filterMap fun a => a.failure.map RetryFailure.reportedAs

def elapsed (s : Seen) : ℕ := s.attempts.countP fun a => a.failure = some .timeout

/-- `duration` from now on is within the time for the whole connection. -/
def Within (s : Seen) (duration : ℕ) : Prop :=
  ∃ start ∈ s.clocks.getLast?, ∃ now ∈ s.clocks.head?, now + duration ≤ start + TOR_CONNECT_TIMEOUT

/-- At most `slack` of the time for the whole connection is left. -/
def Over (s : Seen) (slack : ℕ) : Prop :=
  ∃ start ∈ s.clocks.getLast?, ∃ now ∈ s.clocks.head?, start + TOR_CONNECT_TIMEOUT ≤ now + slack

/-- Every failure has been counted once. -/
def Counted (s : Seen) : Prop := s.reports = s.expected ∧ s.timeouts = s.elapsed

end Seen

def seen (h : List RetryEvent) : Seen := h.foldr (fun e s => s.note e) ⟨[], [], [], 0, []⟩

@[simp] theorem seen_cons (e : RetryEvent) (h : List RetryEvent) : seen (e :: h) = (seen h).note e := rfl

/-- The lookup behind the isolation of an attempt. -/
def lookups (isolation : ResolvedIsolation) : StreamIsolation → List StoreUse
  | .everyStream => []
  | .token token => [.lookup isolation.identity token]

/-- Before the attempt with this number: the second one follows a failure that may pass, on a token that was rotated
since. -/
inductive Ready (isolation : ResolvedIsolation) (s : Seen) : ℕ → Prop
  | first (hattempts : s.attempts = []) (huses : s.uses = []) : Ready isolation s 0
  | second {attempt : Attempt} {failure : RetryFailure} (hattempts : s.attempts = [attempt])
      (hfailure : attempt.failure = some failure) (hretryable : failure.retryable = true)
      (huses : s.uses = (if isolation.strict then [] else [.rotate isolation.identity]) ++
        lookups isolation attempt.isolation) : Ready isolation s 1

/-- What may happen when. The first attempt leaves the second one as much time as it has. -/
def Permits (target : TorAddr) (isolation : ResolvedIsolation) (h : List RetryEvent) : RetryCall → Prop
  | .connectWithPrefs target' used timeout =>
    target' = target ∧ (used = .everyStream ↔ isolation.strict = true) ∧ (seen h).Within timeout ∧
      ∃ attempt uses, (seen h).uses = lookups isolation used ++ uses ∧
        Ready isolation { seen h with uses := uses } attempt ∧ (attempt = 0 → (seen h).Within (2 * timeout))
  | .materialFor identity => identity = isolation.identity ∧ isolation.strict = false
  | .rotate identity => identity = isolation.identity ∧ isolation.strict = false
  | .sleep backoff => (seen h).Within backoff ∧ RETRY_BACKOFF_MIN_MS * 10 ^ 6 ≤ backoff ∧
      backoff < (RETRY_BACKOFF_MIN_MS + RETRY_BACKOFF_JITTER_MS) * 10 ^ 6
  | _ => True

/-- What has happened when it returns. -/
def Concluded (h : List RetryEvent) : Except RetryError Unit → Prop
  | .ok () => ∃ last earlier, (seen h).attempts = last :: earlier ∧ earlier.length ≤ 1 ∧ last.failure = none ∧
      (seen h).Counted
  | .error (.failed failure) =>
    -- a first failure that may pass is the last one only when the time is too short for the wait
    (∃ last earlier, (seen h).attempts = last :: earlier ∧ earlier.length ≤ 1 ∧ last.failure = some failure ∧
      (earlier = [] → failure.retryable = true →
        (seen h).Over ((RETRY_BACKOFF_MIN_MS + RETRY_BACKOFF_JITTER_MS) * 10 ^ 6)) ∧ (seen h).Counted) ∨
    -- the time was over before another attempt
    (failure = .timeout ∧ (seen h).attempts.length ≤ 1 ∧ (seen h).Over 0 ∧
      (seen h).reports = "timeout" :: (seen h).expected ∧ (seen h).timeouts = (seen h).elapsed + 1)
  | .error .unreachable => False

section Attempts

variable {target : TorAddr} {isolation : ResolvedIsolation} {h : List RetryEvent}

theorem wp_call {pre : List RetryEvent → RetryCall → Prop} {α : Type} {c : RetryCall} {f : c.Result → Retry α}
    {post : List RetryEvent → Except RetryError α → Prop} (hpre : pre h c)
    (hf : ∀ answer, wp pre (⟨c, answer⟩ :: h) (f answer) post) : wp pre h (perform c >>= f) post := by
  rw [wp_bind, wp_perform]
  exact ⟨hpre, hf⟩

/-- The isolation of an attempt is looked up for a session, and only there. -/
theorem attemptIsolation_spec {α : Type} {f : StreamIsolation → Retry α}
    {post : List RetryEvent → Except RetryError α → Prop}
    (hf : ∀ h' used, (used = .everyStream ↔ isolation.strict = true) →
      seen h' = { seen h with uses := lookups isolation used ++ (seen h).uses } →
      wp (Permits target isolation) h' (f used) post) :
    wp (Permits target isolation) h (attemptIsolation isolation >>= f) post := by
  unfold attemptIsolation
  cases hstrict : isolation.strict with
  | true =>
    rw [if_pos rfl, wp_bind]
    exact hf h .everyStream (by simp [hstrict]) rfl
  | false =>
    rw [if_neg Bool.false_ne_true, wp_bind]
    exact wp_call (h := h) ⟨rfl, hstrict⟩ fun material => hf _ (.token material.token) (by simp [hstrict]) rfl

/-- A failure is counted as it is found. -/
theorem connectFailure_spec {α : Type} {result : Option (Except ArtiErrorKind Unit)}
    {f : Option RetryFailure → Retry α} {post : List RetryEvent → Except RetryError α → Prop}
    (used : StreamIsolation) (timeout : ℕ)
    (hf : ∀ h', seen h' =
        { seen h with
          timeouts := (seen h).timeouts + if result = none then 1 else 0
          reports := (Attempt.failure ⟨used, timeout, result⟩).toList.map RetryFailure.reportedAs ++ (seen h).reports } →
      wp (Permits target isolation) h' (f (Attempt.failure ⟨used, timeout, result⟩)) post) :
    wp (Permits target isolation) h (connectFailure result >>= f) post := by
  rcases result with _ | kind | _
  · exact wp_call (h := h) trivial fun _ => wp_call trivial fun _ => hf _ rfl
  · exact wp_call (h := h) trivial fun _ => hf _ rfl
  · exact hf h rfl

theorem failure_eq_timeout (used : StreamIsolation) (timeout : ℕ) (result : Option (Except ArtiErrorKind Unit)) :
    Attempt.failure ⟨used, timeout, result⟩ = some .timeout ↔ result = none := by
  rcases result with _ | kind | _ <;> simp [Attempt.failure]

/-- A counted history stays counted when an attempt is added with its reports. -/
theorem Seen.Counted.attempted {s s' : Seen} {used : StreamIsolation} {timeout : ℕ}
    {result : Option (Except ArtiErrorKind Unit)} (hs : s.Counted)
    (hattempts : s'.attempts = ⟨used, timeout, result⟩ :: s.attempts)
    (htimeouts : s'.timeouts = s.timeouts + if result = none then 1 else 0)
    (hreports : s'.reports = (Attempt.failure ⟨used, timeout, result⟩).toList.map RetryFailure.reportedAs ++ s.reports) :
    s'.Counted := by
  obtain ⟨hexpected, helapsed⟩ := hs
  constructor
  · rw [hreports, hexpected, Seen.expected, Seen.expected, hattempts, List.filterMap_cons]
    cases Attempt.failure ⟨used, timeout, result⟩ <;> rfl
  · rw [htimeouts, helapsed, Seen.elapsed, Seen.elapsed, hattempts, List.countP_cons]
    simp only [decide_eq_true_eq, failure_eq_timeout]

theorem Ready.length {s : Seen} {k : ℕ} (hs : Ready isolation s k) : s.attempts.length ≤ 1 := by
  cases hs with
  | first hattempts _ => simp [hattempts]
  | second hattempts _ _ _ => simp [hattempts]

theorem getLast?_cons {start : ℕ} {clocks : List ℕ} (now : ℕ) (hstart : start ∈ clocks.getLast?) :
    start ∈ (now :: clocks).getLast? := by
  cases clocks with
  | nil => cases hstart
  | cons clock clocks => exact hstart

/-- A token that failed is rotated before the wait, and no wait goes past the deadline. -/
theorem prepareRetry_spec {start : ℕ} {attempt : Attempt} {failure : RetryFailure} {next : Retry Unit}
    (hattempts : (seen h).attempts = [attempt]) (hfailure : attempt.failure = some failure)
    (hretryable : failure.retryable = true) (huses : (seen h).uses = lookups isolation attempt.isolation)
    (hstart : start ∈ (seen h).clocks.getLast?) (hcounted : (seen h).Counted)
    (hnext : ∀ h', Ready isolation (seen h') 1 → start ∈ (seen h').clocks.getLast? → (seen h').Counted →
      wp (Permits target isolation) h' next Concluded) :
    wp (Permits target isolation) h
      (prepareRetry isolation (start + TOR_CONNECT_TIMEOUT) failure >>= fun _ => next) Concluded := by
  unfold prepareRetry
  rw [wp_bind]
  refine wp_call trivial fun retryNumber => ?_
  suffices hrest : ∀ h₁, seen h₁ =
      { seen h with uses := (if isolation.strict then [] else [.rotate isolation.identity]) ++ (seen h).uses } →
      wp (Permits target isolation) h₁ _ (andThen (Permits target isolation) (fun _ => next) Concluded) by
    refine wp_ite (fun hstrict => hrest _ ?_) fun hsession => wp_call ⟨rfl, ?_⟩ fun _ => hrest _ ?_
    · rw [if_pos hstrict]
      rfl
    · simpa using hsession
    · rw [if_neg hsession]
      rfl
  intro h₁ hseen₁
  refine wp_call trivial fun now => ?_
  have hclock : seen (⟨.now, now⟩ :: h₁) = { seen h₁ with clocks := now :: (seen h₁).clocks } := rfl
  rw [hseen₁] at hclock
  have hjitter := Nat.mod_lt retryNumber (show 0 < RETRY_BACKOFF_JITTER_MS by decide)
  have hbackoff : (RETRY_BACKOFF_MIN_MS + retryNumber % RETRY_BACKOFF_JITTER_MS) * 10 ^ 6 <
      (RETRY_BACKOFF_MIN_MS + RETRY_BACKOFF_JITTER_MS) * 10 ^ 6 := Nat.mul_lt_mul_of_pos_right (by omega) (by decide)
  refine wp_ite (fun hshort => .inl ⟨attempt, [], ?_, Nat.zero_le 1, hfailure, fun _ _ => ?_, ?_⟩) fun hslack =>
    ⟨⟨?_, ?_, hbackoff⟩, fun _ => hnext _ (.second ?_ hfailure hretryable ?_) ?_ ?_⟩
  · rw [hclock]
    exact hattempts
  · rw [hclock]
    refine ⟨start, getLast?_cons now hstart, now, rfl, ?_⟩
    omega
  · rw [hclock]
    exact hcounted
  · rw [hclock]
    refine ⟨start, getLast?_cons now hstart, now, rfl, ?_⟩
    omega
  · have := Nat.le_add_right RETRY_BACKOFF_MIN_MS (retryNumber % RETRY_BACKOFF_JITTER_MS)
    exact Nat.mul_le_mul_right _ this
  · rw [seen_cons, hclock]
    exact hattempts
  · rw [seen_cons, hclock]
    exact congrArg _ huses
  · rw [seen_cons, hclock]
    exact getLast?_cons now hstart
  · rw [seen_cons, hclock]
    exact hcounted

theorem attempt_spec {start k : ℕ} {rest : List ℕ} (hready : Ready isolation (seen h) k)
    (hstart : start ∈ (seen h).clocks.getLast?) (hcounted : (seen h).Counted)
    (hnext : k = 0 → ∀ h', Ready isolation (seen h') 1 → start ∈ (seen h').clocks.getLast? → (seen h').Counted →
      wp (Permits target isolation) h' (connectAttempts target isolation (start + TOR_CONNECT_TIMEOUT) rest) Concluded) :
    wp (Permits target isolation) h
      (connectAttempts target isolation (start + TOR_CONNECT_TIMEOUT) (k :: rest)) Concluded := by
  have hlength := hready.length
  unfold connectAttempts
  refine attemptIsolation_spec fun h₁ used hused hseen₁ => wp_call trivial fun now => ?_
  have hstart₁ := getLast?_cons now hstart
  have hclock : seen (⟨.now, now⟩ :: h₁) =
      { seen h with uses := lookups isolation used ++ (seen h).uses, clocks := now :: (seen h).clocks } := by
    rw [seen_cons, hseen₁]
    rfl
  refine wp_ite (fun hover => ?_) fun hleft => ?_
  · refine wp_call trivial fun _ => wp_call trivial fun _ => Or.inr ⟨rfl, ?_, ?_, ?_, ?_⟩
    all_goals rw [seen_cons, seen_cons, hclock]
    · exact hlength
    · refine ⟨start, hstart₁, now, rfl, ?_⟩
      omega
    · exact congrArg _ hcounted.1
    · exact congrArg (· + 1) hcounted.2
  · generalize htimeout : (if k = 0 then (start + TOR_CONNECT_TIMEOUT - now) / 2
      else start + TOR_CONNECT_TIMEOUT - now) = timeout
    refine wp_call ⟨rfl, hused, ?_, k, (seen h).uses, ?_, ?_, fun hk => ?_⟩ fun result => wp_call trivial fun _ =>
      connectFailure_spec used timeout fun h₂ hseen₂ => ?_
    · rw [hclock]
      refine ⟨start, hstart₁, now, rfl, ?_⟩
      rw [← htimeout]
      split_ifs <;> omega
    · rw [hclock]
    · rw [hclock]
      cases hready with
      | first hattempts huses => exact .first hattempts huses
      | second hattempts hfailure hretryable huses => exact .second hattempts hfailure hretryable huses
    · rw [hclock]
      refine ⟨start, hstart₁, now, rfl, ?_⟩
      rw [← htimeout, if_pos hk]
      omega
    · rw [seen_cons, seen_cons, hclock] at hseen₂
      have hattempts₂ : (seen h₂).attempts = ⟨used, timeout, result⟩ :: (seen h).attempts := by rw [hseen₂]; rfl
      have hcounted₂ : (seen h₂).Counted := hcounted.attempted hattempts₂ (by rw [hseen₂]; rfl) (by rw [hseen₂]; rfl)
      cases hfailure : Attempt.failure ⟨used, timeout, result⟩ with
      | none => exact ⟨_, _, hattempts₂, hlength, hfailure, hcounted₂⟩
      | some failure =>
        refine wp_ite (fun hlast => .inl ⟨_, _, hattempts₂, hlength, hfailure, fun hnone hretryable => ?_, hcounted₂⟩)
          fun hagain => ?_
        · -- it is a second attempt, after a first one
          exfalso
          simp only [hretryable, Bool.not_true, Bool.or_false, decide_eq_true_eq] at hlast
          cases hready with
          | first => cases hlast
          | second hattempts => simp [hattempts] at hnone
        simp only [Bool.or_eq_true, decide_eq_true_eq, Bool.not_eq_true', not_or, Bool.not_eq_false] at hagain
        obtain ⟨hfirst, hretryable⟩ := hagain
        obtain ⟨rfl, hnone, hunused⟩ : k = 0 ∧ (seen h).attempts = [] ∧ (seen h).uses = [] := by
          cases hready with
          | first hattempts huses => exact ⟨rfl, hattempts, huses⟩
          | second => exact absurd rfl hfirst
        rw [hnone] at hattempts₂
        refine prepareRetry_spec hattempts₂ hfailure hretryable ?_ ?_ hcounted₂ (hnext rfl)
        · rw [hseen₂]
          simp [Seen.note, hunused]
        · rw [hseen₂]
          exact hstart₁

theorem connectWithRetry_spec (target : TorAddr) (isolation : ResolvedIsolation) :
    wp (Permits target isolation) [] (connectWithRetry target isolation) Concluded := by
  unfold connectWithRetry
  refine wp_call trivial fun start => attempt_spec (.first rfl rfl) rfl ⟨rfl, rfl⟩ fun _ h' hready hstart hcounted => ?_
  exact attempt_spec hready hstart hcounted fun hfirst => absurd hfirst (by decide)

/-- `connect_with_retry` makes at most two attempts, the second one only after a failure that may pass and on a token
rotated since; none of them, and no wait, goes past the time there is; it gives up on a first failure that may pass, or
without an attempt, only when there is no time left; and each failure is counted once. -/
theorem connect_with_retry_is_disciplined (target : TorAddr) (isolation : ResolvedIsolation) :
    wp (Permits target isolation) [] (connectWithRetry target isolation) Concluded :=
  connectWithRetry_spec target isolation

end Attempts

end Cobra
