import CobraProxy.Lib.Run
import CobraProxy.Spec.Breaker

/-! The circuit breaker answers from the history alone: a destination is refused while its failures since the
last success number at least the threshold and the latest of them is within the cooldown. The count of an entry
is rewritten when its cooldown ends, so it follows the history only up to that; what the next failure makes of
it does not depend on the difference. -/

namespace Cobra

open Text Runs

/-- The times of the destination's failures since its last success, the latest first. -/
def failuresSince (destination : Str) (events : List BreakerEvent) : List ℕ :=
  events.foldl (fun times e =>
    match e with
    | .failure d time => if d = destination then time :: times else times
    | .success d => if d = destination then [] else times
    | .allow .. => times) []

/-- Enough failures, and the latest is within the cooldown. -/
def Refuses (threshold cooldown : ℕ) (times : List ℕ) (now : ℕ) : Prop :=
  threshold ≤ times.length ∧ ∃ last ∈ times.head?, now < last + cooldown

def BreakerEvent.failed : BreakerEvent → Option Str
  | .failure destination _ => some destination
  | _ => none

/-- The destinations that ever fail. -/
def failing (events : List BreakerEvent) : Finset Str := (events.filterMap BreakerEvent.failed).toFinset

/-- The failures and successes of a history. -/
def changes (events : List BreakerEvent) : List BreakerEvent :=
  events.filter fun e => match e with
    | .allow .. => false
    | _ => true

variable {destination : Str} {events : List BreakerEvent} {e : BreakerEvent}

theorem failuresSince_snoc : failuresSince destination (events ++ [e]) =
    match e with
    | .failure d time =>
      if d = destination then time :: failuresSince destination events else failuresSince destination events
    | .success d => if d = destination then [] else failuresSince destination events
    | .allow .. => failuresSince destination events := by
  rw [failuresSince, List.foldl_append]
  rfl

/-- Requests leave no trace in the history. -/
theorem failuresSince_changes (destination : Str) (events : List BreakerEvent) :
    failuresSince destination (changes events) = failuresSince destination events := by
  induction events using List.reverseRecOn with
  | nil => rfl
  | append_singleton events e ih =>
    rw [changes, List.filter_append, ← changes, failuresSince_snoc]
    cases e with
    | allow => exact (congrArg _ (List.append_nil _)).trans ih
    | failure d time => exact failuresSince_snoc.trans (by rw [ih])
    | success d => exact failuresSince_snoc.trans (by rw [ih])

theorem mem_failing_of_failuresSince (h : failuresSince destination events ≠ []) :
    destination ∈ failing events := by
  rw [failing, List.mem_toFinset, List.mem_filterMap]
  induction events using List.reverseRecOn with
  | nil => exact absurd rfl h
  | append_singleton events e ih =>
    have hmem : failuresSince destination events ≠ [] →
        ∃ a ∈ events ++ [e], BreakerEvent.failed a = some destination := by
      intro hne
      obtain ⟨a, ha, hfailed⟩ := ih hne
      exact ⟨a, List.mem_append_left _ ha, hfailed⟩
    rw [failuresSince_snoc] at h
    cases e with
    | allow => exact hmem h
    | failure d time =>
      by_cases hd : d = destination
      · exact ⟨_, List.mem_append_right _ (List.mem_singleton_self _), congrArg some hd⟩
      · exact hmem (by simpa only [hd, if_false] using h)
    | success d =>
      by_cases hd : d = destination
      · simp [hd] at h
      · exact hmem (by simpa only [hd, if_false] using h)

/-! ### Entries and histories -/

/-- The entry of a destination with these failures since its last success. -/
def Mirrors (threshold cooldown now : ℕ) : List ℕ → Option BreakerEntry → Prop
  | [], entry => entry = none
  | last :: earlier, entry => ∃ e, entry = some e ∧
      (earlier.length + 1 < threshold ∧ e.failures = earlier.length + 1 ∧ e.openUntil = none ∨
        threshold ≤ earlier.length + 1 ∧ threshold ≤ e.failures ∧ e.openUntil = some (last + cooldown) ∨
        -- a request was let through after the cooldown
        threshold ≤ earlier.length + 1 ∧ e.failures + 1 = threshold ∧ e.openUntil = none ∧ last + cooldown ≤ now)

variable {threshold cooldown now time : ℕ} {times : List ℕ} {entry : Option BreakerEntry} {b : CircuitBreaker}

theorem Mirrors.later (h : Mirrors threshold cooldown now times entry) (htime : now ≤ time) :
    Mirrors threshold cooldown time times entry := by
  cases times with
  | nil => exact h
  | cons last earlier =>
    obtain ⟨e, he, hcases⟩ := h
    exact ⟨e, he, hcases.imp_right fun h => h.imp_right fun ⟨hle, hf, ho, hn⟩ => ⟨hle, hf, ho, hn.trans htime⟩⟩

namespace CircuitBreaker

theorem lookup_set_self (e : BreakerEntry) : (b.set destination e).entries.lookup destination = some e :=
  Finmap.lookup_insert _

theorem frame_allowAt (b : CircuitBreaker) (destination : Str) (now : ℕ) :
    (b.allowAt destination now).2.capacity = b.capacity ∧
      (b.allowAt destination now).2.failureThreshold = b.failureThreshold ∧
      (b.allowAt destination now).2.cooldown = b.cooldown := by
  unfold allowAt
  split
  · exact ⟨rfl, rfl, rfl⟩
  · split
    · split_ifs <;> exact ⟨rfl, rfl, rfl⟩
    · exact ⟨rfl, rfl, rfl⟩

theorem lookup_allowAt_of_ne {k : Str} (h : k ≠ destination) :
    (b.allowAt destination now).2.entries.lookup k = b.entries.lookup k := by
  unfold allowAt
  split
  · rfl
  · split
    · split_ifs <;> exact Finmap.lookup_insert_of_ne _ h
    · exact Finmap.lookup_insert_of_ne _ h

theorem keys_allowAt (b : CircuitBreaker) (destination : Str) (now : ℕ) :
    (b.allowAt destination now).2.entries.keys = b.entries.keys := by
  unfold allowAt
  split
  · rfl
  · rename_i e he
    have hmem : destination ∈ b.entries.keys := Finmap.mem_keys.2 (Finmap.mem_iff.2 ⟨e, he⟩)
    have hset : ∀ e', (b.set destination e').entries.keys = b.entries.keys := by
      intro e'
      rw [set, Finmap.keys_insert, Finset.insert_eq_self.2 hmem]
    split
    · split_ifs <;> exact hset _
    · exact hset _

/-- A request is refused exactly when the failures since the last success refuse it. -/
theorem allowAt_spec (h : Mirrors b.failureThreshold b.cooldown now times (b.entries.lookup destination))
    (htime : now ≤ time) :
    ((b.allowAt destination time).1 = false ↔ Refuses b.failureThreshold b.cooldown times time) ∧
      Mirrors b.failureThreshold b.cooldown time times
        ((b.allowAt destination time).2.entries.lookup destination) := by
  have hpos := b.threshold_pos
  cases times with
  | nil =>
    have hnone : b.entries.lookup destination = none := h
    rw [allowAt, hnone]
    refine ⟨iff_of_false (by simp) ?_, hnone⟩
    rintro ⟨hle, -⟩
    exact absurd hle (by simpa using hpos.ne')
  | cons last earlier =>
    obtain ⟨e, he, hcases⟩ := h
    rcases hcases with ⟨hlt, hfail, hopen⟩ | ⟨hle, hfail, hopen⟩ | ⟨hle, hfail, hopen, hnow⟩
    · rw [allowAt, he]
      dsimp only
      rw [hopen]
      refine ⟨iff_of_false (by simp) ?_, _, lookup_set_self _, .inl ⟨hlt, hfail, rfl⟩⟩
      rintro ⟨hle, -⟩
      exact absurd hle (not_le.2 hlt)
    · rw [allowAt, he]
      dsimp only
      rw [hopen]
      dsimp only
      split_ifs with hlt
      · exact ⟨iff_of_true rfl ⟨hle, last, rfl, hlt⟩, _, lookup_set_self _, .inr (.inl ⟨hle, hfail, rfl⟩)⟩
      · refine ⟨iff_of_false (by simp) ?_, _, lookup_set_self _, .inr (.inr ⟨hle, ?_, rfl, not_lt.1 hlt⟩)⟩
        · rintro ⟨-, last', hlast, hlt'⟩
          cases hlast
          exact hlt hlt'
        · exact Nat.sub_add_cancel hpos
    · rw [allowAt, he]
      dsimp only
      rw [hopen]
      refine ⟨iff_of_false (by simp) ?_, _, lookup_set_self _,
        .inr (.inr ⟨hle, hfail, rfl, hnow.trans htime⟩)⟩
      rintro ⟨-, last', hlast, hlt⟩
      cases hlast
      omega

/-- The entry of the destination that a failure is recorded for. -/
theorem lookup_recordFailureAt (b : CircuitBreaker) (destination : Str) (time : ℕ) (oldest : Option Str) :
    (b.recordFailureAt destination time oldest).entries.lookup destination =
      some ⟨saturatingAdd ((b.entries.lookup destination).elim 0 BreakerEntry.failures) 1,
        if b.failureThreshold ≤ saturatingAdd ((b.entries.lookup destination).elim 0 BreakerEntry.failures) 1 then
          some (time + b.cooldown)
        else (b.entries.lookup destination).bind BreakerEntry.openUntil, time⟩ := by
  have hlookup : (if destination ∈ b.entries then b.entries else b.entries.makeRoom b.capacity oldest).lookup
      destination = b.entries.lookup destination := by
    split_ifs with hmem
    · rfl
    · have hnone : b.entries.lookup destination = none := Finmap.lookup_eq_none.2 hmem
      cases hroom : (b.entries.makeRoom b.capacity oldest).lookup destination with
      | none => exact hnone.symm
      | some e => exact (Finmap.lookup_makeRoom hroom).symm
  unfold recordFailureAt
  dsimp only
  rw [Finmap.lookup_insert, hlookup]
  cases b.entries.lookup destination <;> rfl

/-- The entry that a failure leaves is open once the threshold is reached. -/
theorem mirrors_recorded {failures : ℕ} {openUntil : Option ℕ}
    (h : times.length + 1 < threshold ∧ failures = times.length + 1 ∧ openUntil = none ∨
      threshold ≤ times.length + 1 ∧ threshold ≤ failures) :
    Mirrors threshold cooldown time (time :: times)
      (some ⟨failures, if threshold ≤ failures then some (time + cooldown) else openUntil, time⟩) := by
  refine ⟨_, rfl, ?_⟩
  rcases h with ⟨hshort, rfl, rfl⟩ | ⟨hreach, hfail⟩
  · exact .inl ⟨hshort, rfl, if_neg (not_le.2 hshort)⟩
  · exact .inr (.inl ⟨hreach, hfail, if_pos hfail⟩)

/-- A failure reaches the threshold with the history, also from the count that a request after the cooldown
left. -/
theorem recordFailureAt_spec (h : Mirrors b.failureThreshold b.cooldown now times (b.entries.lookup destination))
    (oldest : Option Str) : Mirrors b.failureThreshold b.cooldown time (time :: times)
      ((b.recordFailureAt destination time oldest).entries.lookup destination) := by
  have hlt := b.threshold_lt
  rw [lookup_recordFailureAt]
  apply mirrors_recorded
  cases times with
  | nil =>
    have hnone : b.entries.lookup destination = none := h
    rw [hnone]
    simp only [Option.elim_none, Option.bind_none, List.length_nil, saturatingAdd, and_true]
    omega
  | cons last earlier =>
    obtain ⟨e, he, hcases⟩ := h
    rw [he]
    simp only [Option.elim_some, Option.bind_some, List.length_cons, saturatingAdd]
    rcases hcases with ⟨hshort, hfail, hopen⟩ | ⟨hle, hfail, -⟩ | ⟨hle, hfail, -, -⟩
    · rw [hopen, hfail]
      simp only [and_true]
      omega
    · exact .inr (by omega)
    · exact .inr (by omega)

/-- A failure that finds room leaves the entries of other destinations alone. -/
theorem lookup_recordFailureAt_of_ne {k : Str} (h : k ≠ destination) {oldest : Option Str}
    (hroom : destination ∈ b.entries ∨ b.entries.keys.card < b.capacity) :
    (b.recordFailureAt destination time oldest).entries.lookup k = b.entries.lookup k := by
  have hsame : (if destination ∈ b.entries then b.entries else b.entries.makeRoom b.capacity oldest) =
      b.entries := by
    split_ifs with hmem
    · rfl
    · exact if_neg (not_le.2 (hroom.resolve_left hmem))
  unfold recordFailureAt
  dsimp only
  rw [hsame, Finmap.lookup_insert_of_ne _ h]

theorem card_recordFailureAt_le {oldest : Option Str} (hroom : b.entries.keys.card ≤ b.capacity)
    (holdest : b.entries.IsMinBy BreakerEntry.lastUsed oldest) :
    (b.recordFailureAt destination time oldest).entries.keys.card ≤ b.capacity := by
  unfold recordFailureAt
  dsimp only
  by_cases hmem : destination ∈ b.entries
  · rw [if_pos hmem, Finmap.card_insert_of_mem _ hmem]
    exact hroom
  · rw [if_neg hmem]
    exact Finmap.card_insert_le _ (Finmap.card_makeRoom_lt b.capacity_pos hroom holdest)

end CircuitBreaker

/-! ### Runs -/

namespace TimedBreaker

variable {s s' : TimedBreaker} {capacity : ℕ}

def Configured (capacity threshold cooldown : ℕ) (s : TimedBreaker) : Prop :=
  s.breaker.capacity = capacity ∧ s.breaker.failureThreshold = threshold ∧ s.breaker.cooldown = cooldown

theorem Configured.step (h : Configured capacity threshold cooldown s) (hs : Step s e s') :
    Configured capacity threshold cooldown s' := by
  cases hs with
  | allow destination time =>
    obtain ⟨hcapacity, hthreshold, hcooldown⟩ := s.breaker.frame_allowAt destination time
    exact ⟨hcapacity.trans h.1, hthreshold.trans h.2.1, hcooldown.trans h.2.2⟩
  | failure => exact h
  | success => exact h

theorem room_step (h : s.breaker.entries.keys.card ≤ s.breaker.capacity) (hs : Step s e s') :
    s'.breaker.entries.keys.card ≤ s'.breaker.capacity := by
  cases hs with
  | allow destination time =>
    rw [CircuitBreaker.keys_allowAt, (s.breaker.frame_allowAt destination time).1]
    exact h
  | failure destination time oldest htime holdest => exact CircuitBreaker.card_recordFailureAt_le h holdest
  | success destination =>
    refine le_trans (Finset.card_le_card ?_) h
    rw [CircuitBreaker.recordSuccess, Finmap.keys_erase]
    exact Finset.erase_subset ..

/-- The entries are those of the history. -/
def Follows (threshold cooldown : ℕ) (events : List BreakerEvent) (s : TimedBreaker) : Prop :=
  ∀ destination, Mirrors threshold cooldown s.now (failuresSince destination events)
    (s.breaker.entries.lookup destination)

/-- Only destinations that have failed have an entry. -/
theorem Follows.keys_subset (h : Follows threshold cooldown events s) :
    s.breaker.entries.keys ⊆ failing events := by
  intro destination hmem
  obtain ⟨e, he⟩ := Finmap.mem_iff.1 (Finmap.mem_keys.1 hmem)
  refine mem_failing_of_failuresSince fun hnil => ?_
  have hnone := h destination
  rw [hnil, he] at hnone
  cases hnone

theorem failing_snoc (events : List BreakerEvent) (destination : Str) (time : ℕ) :
    failing (events ++ [.failure destination time]) = insert destination (failing events) := by
  ext d
  simp [failing, BreakerEvent.failed]

theorem Follows.step (h : Follows threshold cooldown events s) (hconf : Configured capacity threshold cooldown s)
    (hs : Step s e s') (hfew : (failing (events ++ [e])).card ≤ capacity) :
    Follows threshold cooldown (events ++ [e]) s' := by
  obtain ⟨rfl, rfl, rfl⟩ := hconf
  intro d
  rw [failuresSince_snoc]
  cases hs with
  | allow destination time htime =>
    by_cases hd : d = destination
    · subst hd
      exact (CircuitBreaker.allowAt_spec (h d) htime).2
    · rw [CircuitBreaker.lookup_allowAt_of_ne hd]
      exact (h d).later htime
  | failure destination time oldest htime =>
    dsimp only
    by_cases hd : destination = d
    · subst hd
      rw [if_pos rfl]
      exact CircuitBreaker.recordFailureAt_spec (h destination) oldest
    · -- the entries are among the destinations that have failed, and this one is another
      have hroom : destination ∈ s.breaker.entries ∨ s.breaker.entries.keys.card < s.breaker.capacity := by
        by_cases hmem : destination ∈ s.breaker.entries
        · exact .inl hmem
        · have hcard := Finset.card_le_card (Finset.insert_subset_insert destination h.keys_subset)
          rw [Finset.card_insert_of_notMem fun hk => hmem (Finmap.mem_keys.1 hk), ← failing_snoc events _ time] at hcard
          exact .inr (hcard.trans hfew)
      rw [if_neg hd, CircuitBreaker.lookup_recordFailureAt_of_ne (Ne.symm hd) hroom]
      exact (h d).later htime
  | success destination =>
    dsimp only
    by_cases hd : destination = d
    · subst hd
      rw [if_pos rfl]
      exact Finmap.lookup_erase _ _
    · rw [if_neg hd, CircuitBreaker.recordSuccess, Finmap.lookup_erase_ne (Ne.symm hd)]
      exact h d

/-- A breaker without entries. -/
def init (capacity threshold cooldown now : ℕ) (hcapacity : 0 < capacity) (hpos : 0 < threshold)
    (hlt : threshold < 2 ^ 64) : TimedBreaker :=
  ⟨.new capacity threshold cooldown hcapacity hpos hlt, now⟩

variable {tr : List (TimedBreaker × BreakerEvent)} {hcapacity : 0 < capacity} {hpos : 0 < threshold}
  {hlt : threshold < 2 ^ 64}

theorem failing_mono {events' : List BreakerEvent} (h : events ⊆ events') : failing events ⊆ failing events' := by
  intro d hd
  simp only [failing, List.mem_toFinset, List.mem_filterMap] at hd ⊢
  obtain ⟨e, he, hfailed⟩ := hd
  exact ⟨e, h he, hfailed⟩

theorem configured_of_run (h : Run Step (init capacity threshold cooldown now hcapacity hpos hlt) tr s) :
    Configured capacity threshold cooldown s :=
  h.invariant (I := Configured capacity threshold cooldown) ⟨rfl, rfl, rfl⟩ fun _ _ _ hI hs => hI.step hs

theorem follows_of_run (h : Run Step (init capacity threshold cooldown now hcapacity hpos hlt) tr s)
    (hfew : (failing (tr.map Prod.snd)).card ≤ capacity) :
    Follows threshold cooldown (tr.map Prod.snd) s := by
  induction h with
  | nil => exact fun d => Finmap.lookup_empty d
  | snoc h hs ih =>
    rw [List.map_append, List.map_singleton] at hfew ⊢
    have hpre := ih (le_trans (Finset.card_le_card (failing_mono (List.subset_append_left _ _))) hfew)
    exact hpre.step (configured_of_run h) hs hfew

/-- The answer to a request, from the history before it. -/
theorem answer_of_run {pre post : List (TimedBreaker × BreakerEvent)} {q : TimedBreaker} {answer : Bool}
    (h : Run Step (init capacity threshold cooldown now hcapacity hpos hlt)
      (pre ++ (q, .allow destination time answer) :: post) s)
    (hfew : (failing ((pre ++ (q, .allow destination time answer) :: post).map Prod.snd)).card ≤ capacity) :
    answer = false ↔ Refuses threshold cooldown (failuresSince destination (pre.map Prod.snd)) time := by
  obtain ⟨hpre, s', hs, -⟩ := h.split
  have hsub : pre.map Prod.snd ⊆ (pre ++ (q, BreakerEvent.allow destination time answer) :: post).map Prod.snd := by
    rw [List.map_append]
    exact List.subset_append_left _ _
  have hfollows := follows_of_run hpre (le_trans (Finset.card_le_card (failing_mono hsub)) hfew)
  obtain ⟨-, rfl, rfl⟩ := configured_of_run hpre
  cases hs with
  | allow _ _ htime => exact (CircuitBreaker.allowAt_spec (hfollows destination) htime).1

end TimedBreaker

open TimedBreaker in
/-- In every run the breaker has at most `capacity` entries. Where at most that many destinations ever fail, a
request is refused if and only if the failures of its destination since the last success number at least the
threshold and it is made before the latest of them plus the cooldown; so another run with the same failures and
successes answers it the same, whatever requests came before. -/
theorem breaker_follows_history {capacity threshold cooldown : ℕ} (hcapacity : 0 < capacity)
    (hpos : 0 < threshold) (hlt : threshold < 2 ^ 64) {now : ℕ} {tr : List (TimedBreaker × BreakerEvent)}
    {s : TimedBreaker} (h : Run Step (init capacity threshold cooldown now hcapacity hpos hlt) tr s) :
    s.breaker.entries.keys.card ≤ capacity ∧
    ((failing (tr.map Prod.snd)).card ≤ capacity → ∀ pre q destination time answer post,
      tr = pre ++ (q, .allow destination time answer) :: post →
      (answer = false ↔ Refuses threshold cooldown (failuresSince destination (pre.map Prod.snd)) time) ∧
      ∀ now' tr' s', Run Step (init capacity threshold cooldown now' hcapacity hpos hlt) tr' s' →
        (failing (tr'.map Prod.snd)).card ≤ capacity → ∀ pre' q' answer' post',
        tr' = pre' ++ (q', .allow destination time answer') :: post' →
        changes (pre'.map Prod.snd) = changes (pre.map Prod.snd) → answer' = answer) := by
  constructor
  · have hroom := h.invariant (I := fun s => s.breaker.entries.keys.card ≤ s.breaker.capacity) (Nat.zero_le _)
      fun _ _ _ hI hs => room_step hI hs
    exact (configured_of_run h).1 ▸ hroom
  · rintro hfew pre q destination time answer post rfl
    have hanswer := answer_of_run h hfew
    refine ⟨hanswer, ?_⟩
    rintro now' tr' s' h' hfew' pre' q' answer' post' rfl hsame
    have hanswer' := answer_of_run h' hfew'
    rw [← failuresSince_changes, hsame, failuresSince_changes, ← hanswer] at hanswer'
    cases answer <;> cases answer' <;> simp_all

open TimedBreaker in
/-- Two failures open the breaker of a destination, and a request after the cooldown is let through. -/
theorem breaker_follows_history_single : ∃ tr s,
    Run Step (init 1 2 10 0 Nat.one_pos Nat.two_pos (by decide)) tr s ∧
    tr.map Prod.snd = [.failure "a".toList 0, .failure "a".toList 1, .allow "a".toList 5 false,
      .allow "a".toList 11 true] ∧
    s.breaker.entries.keys.card ≤ 1 ∧
    ∀ pre q destination time answer post, tr = pre ++ (q, .allow destination time answer) :: post →
      (answer = false ↔ Refuses 2 10 (failuresSince destination (pre.map Prod.snd)) time) := by
  have hstart : Run Step (init 1 2 10 0 Nat.one_pos Nat.two_pos (by decide)) [] _ := .nil
  have hopened := (hstart.snoc (.failure "a".toList 0 none (by decide) (by decide +kernel))).snoc
    (.failure "a".toList 1 (some "a".toList) (by decide) (by decide +kernel))
  have hasked := (hopened.snoc (.allow "a".toList 5 (by decide))).snoc (.allow "a".toList 11 (by decide))
  obtain ⟨hroom, hanswers⟩ := breaker_follows_history _ _ _ hasked
  refine ⟨_, _, hasked, by decide +kernel, hroom, fun pre q destination time answer post htr => ?_⟩
  exact (hanswers (by decide +kernel) pre q destination time answer post htr).1

end Cobra
