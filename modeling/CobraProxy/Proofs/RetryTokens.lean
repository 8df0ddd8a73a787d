import CobraProxy.Proofs.Connect
import CobraProxy.Proofs.Isolation

/-! A retry against the store that every connection shares: while other connections look up, rotate and evict, the
second attempt is not made on the token that the first one failed with. -/

namespace Cobra

open Text Program Prog

/-- What a connection sees of the store: its own lookups and rotations, with calls for other connections between them.
Nothing calls `put`. -/
inductive Served (start : TimedStore) : List RetryEvent → TimedStore → Prop
  | start : Served start [] start
  | other {h : List RetryEvent} {s s' : TimedStore} {e : StoreEvent} (hserved : Served start h s)
      (hput : ∀ identity token ttl, e.call ≠ .put identity token ttl) (hstep : TimedStore.Step s e s') :
      Served start h s'
  | lookup {h : List RetryEvent} {s s' : TimedStore} {identity : Str} {time : ℕ} {material : IsolationMaterial}
      (hserved : Served start h s)
      (hstep : TimedStore.Step s ⟨.materialForAt identity, time, some material⟩ s') :
      Served start (⟨.materialFor identity, material⟩ :: h) s'
  | rotate {h : List RetryEvent} {s s' : TimedStore} {identity : Str} {time : ℕ} {material : IsolationMaterial}
      (hserved : Served start h s) (hstep : TimedStore.Step s ⟨.rotate identity, time, some material⟩ s') :
      Served start (⟨.rotate identity, ()⟩ :: h) s'
  | elsewhere {h : List RetryEvent} {s : TimedStore} {e : RetryEvent} (hserved : Served start h s)
      (hlookup : ∀ identity, e.1 ≠ .materialFor identity) (hrotate : ∀ identity, e.1 ≠ .rotate identity) :
      Served start (e :: h) s

namespace TimedStore

variable {s s' : TimedStore} {e : StoreEvent} {identity : Str} {time : ℕ} {material : IsolationMaterial}

/-- The tokens of the entries were drawn before. -/
def Drew (s : TimedStore) : Prop :=
  ∀ k entry, s.store.entries.lookup k = some entry → entry.material.token < s.store.nextToken

/-- A token that the entry of the identity no longer has, and will not have again. -/
def Retired (s : TimedStore) (identity : Str) (token : ℕ) : Prop :=
  token < s.store.nextToken ∧ ∀ entry, s.store.entries.lookup identity = some entry → entry.material.token ≠ token

/-- What a call does to the tokens of the entries: an entry keeps its token or has one that is new. -/
def Renews (s s' : TimedStore) : Prop :=
  s.store.nextToken ≤ s'.store.nextToken ∧ ∀ k entry, s'.store.entries.lookup k = some entry →
    (∃ old, s.store.entries.lookup k = some old ∧ old.material = entry.material) ∨
      s.store.nextToken ≤ entry.material.token ∧ entry.material.token < s'.store.nextToken

theorem renews_drawn (hextends : IsolationStore.Extends s.store s'.store identity material)
    (hdrawn : IsolationStore.Drawn s.store s'.store material) :
    Renews s s' ∧ s.store.nextToken ≤ material.token ∧ material.token < s'.store.nextToken := by
  obtain ⟨rfl, htoken, -⟩ := hdrawn
  have hnew : s.store.nextToken < s'.store.nextToken := by omega
  refine ⟨⟨hnew.le, fun k entry hentry => (hextends k entry hentry).imp_right ?_⟩, le_rfl, hnew⟩
  rintro ⟨-, heq⟩
  rw [heq]
  exact ⟨le_rfl, hnew⟩

/-- A lookup returns the token of the entry, or a new one. -/
theorem renews_lookup {oldest : Option Str} (now : ℕ)
    (hstore : s'.store = (s.store.materialForAt identity now oldest).2)
    (hmaterial : material = (s.store.materialForAt identity now oldest).1) :
    Renews s s' ∧ ((∃ entry, s.store.entries.lookup identity = some entry ∧ entry.material = material) ∨
      s.store.nextToken ≤ material.token ∧ material.token < s'.store.nextToken) := by
  subst hmaterial
  obtain ⟨hextends, ⟨hkept, hentry⟩ | hdrawn⟩ := s.store.materialForAt_spec identity now oldest
  all_goals rw [← hstore] at hextends
  · rw [← hstore] at hkept
    obtain ⟨found, hfound, heq⟩ := hentry
    refine ⟨⟨hkept.1.ge, fun k entry hk => .inl ?_⟩, .inl ⟨found, hfound, heq⟩⟩
    rcases hextends k entry hk with hold | ⟨rfl, hsame⟩
    · exact hold
    · exact ⟨found, hfound, heq.trans hsame.symm⟩
  · rw [← hstore] at hdrawn
    exact (renews_drawn hextends hdrawn).imp_right .inr

theorem renews_rotate (now : ℕ) (hstore : s'.store = (s.store.rotate identity now).2) :
    Renews s s' ∧ ∀ entry, s'.store.entries.lookup identity = some entry → s.store.nextToken ≤ entry.material.token := by
  obtain ⟨hextends, hdrawn⟩ := s.store.rotate_spec identity now
  rw [← hstore] at hextends hdrawn
  obtain ⟨hrenews, hnew, -⟩ := renews_drawn hextends hdrawn
  refine ⟨hrenews, fun entry hentry => ?_⟩
  have hlookup : s'.store.entries.lookup identity =
      some ⟨(s.store.rotate identity now).1, now, now + s.store.ttl⟩ := by
    rw [hstore]
    exact Finmap.lookup_insert _
  cases hlookup.symm.trans hentry
  exact hnew

theorem renews_step (hput : ∀ identity token ttl, e.call ≠ .put identity token ttl) (hstep : Step s e s') :
    Renews s s' := by
  have hkept : ∀ now, Renews s ⟨s.store.retain now, now⟩ := fun now =>
    ⟨le_rfl, fun k entry hentry => .inl ⟨entry, IsolationStore.lookup_retain hentry, rfl⟩⟩
  cases hstep with
  | call call now oldest =>
    cases call with
    | materialForAt identity => exact (renews_lookup now rfl rfl).1
    | put identity token ttl => exact absurd rfl (hput identity token ttl)
    | rotate identity => exact (renews_rotate now rfl).1
    | len => exact hkept now
    | strict => exact ⟨Nat.le_succ _, fun k entry hentry => .inl ⟨entry, hentry, rfl⟩⟩

theorem Drew.renews (hs : Drew s) (h : Renews s s') : Drew s' := by
  intro k entry hentry
  rcases h.2 k entry hentry with ⟨old, hold, heq⟩ | ⟨-, hnew⟩
  · rw [← heq]
    exact (hs k old hold).trans_le h.1
  · exact hnew

theorem Retired.renews {token : ℕ} (ht : Retired s identity token) (h : Renews s s') : Retired s' identity token := by
  refine ⟨ht.1.trans_le h.1, fun entry hentry => ?_⟩
  rcases h.2 identity entry hentry with ⟨old, hold, heq⟩ | ⟨hnew, -⟩
  · rw [← heq]
    exact ht.2 old hold
  · exact (ht.1.trans_le hnew).ne'

end TimedStore

open TimedStore in
/-- What holds of the lookups and rotations of a connection, the latest first. -/
structure Refreshed (uses : List StoreUse) (s : TimedStore) : Prop where
  drew : Drew s
  drawn : ∀ identity token, .lookup identity token ∈ uses → token < s.store.nextToken
  retired : ∀ later identity earlier token, uses = later ++ .rotate identity :: earlier →
    .lookup identity token ∈ earlier → Retired s identity token ∧ .lookup identity token ∉ later

namespace Refreshed

variable {uses : List StoreUse} {s s' : TimedStore} {identity : Str}

theorem renews (hs : Refreshed uses s) (h : s.Renews s') : Refreshed uses s' where
  drew := hs.drew.renews h
  drawn identity token hmem := (hs.drawn identity token hmem).trans_le h.1
  retired later identity earlier token huses hmem := (hs.retired later identity earlier token huses hmem).imp_left
    fun hretired => hretired.renews h

/-- A lookup does not return a token that was rotated away. -/
theorem lookup {material : IsolationMaterial} (hs : Refreshed uses s) (h : s.Renews s')
    (hmaterial : (∃ entry, s.store.entries.lookup identity = some entry ∧ entry.material = material) ∨
      s.store.nextToken ≤ material.token ∧ material.token < s'.store.nextToken) :
    Refreshed (.lookup identity material.token :: uses) s' := by
  have hs' := hs.renews h
  refine ⟨hs'.drew, fun identity' token hmem => ?_, fun later identity' earlier token huses hmem => ?_⟩
  · rcases List.mem_cons.1 hmem with heq | hmem
    · cases heq
      rcases hmaterial with ⟨entry, hentry, rfl⟩ | ⟨-, hlt⟩
      · exact (hs.drew identity entry hentry).trans_le h.1
      · exact hlt
    · exact hs'.drawn identity' token hmem
  · rcases later with _ | ⟨use, later⟩
    · cases huses
    · obtain ⟨rfl, rfl⟩ := List.cons.inj huses
      obtain ⟨hretired, hnot⟩ := hs.retired later identity' earlier token rfl hmem
      refine ⟨hretired.renews h, fun hin => (List.mem_cons.1 hin).elim (fun heq => ?_) hnot⟩
      cases heq
      rcases hmaterial with ⟨entry, hentry, rfl⟩ | ⟨hle, -⟩
      · exact hretired.2 entry hentry rfl
      · exact absurd hretired.1 hle.not_gt

theorem rotate (hs : Refreshed uses s) (h : s.Renews s')
    (hnew : ∀ entry, s'.store.entries.lookup identity = some entry → s.store.nextToken ≤ entry.material.token) :
    Refreshed (.rotate identity :: uses) s' := by
  have hs' := hs.renews h
  refine ⟨hs'.drew, fun identity' token hmem => ?_, fun later identity' earlier token huses hmem => ?_⟩
  · exact hs'.drawn identity' token ((List.mem_cons.1 hmem).resolve_left (by simp))
  · rcases later with _ | ⟨use, later⟩
    · obtain ⟨huse, rfl⟩ := List.cons.inj huses
      cases huse
      have hdrawn := hs.drawn identity token hmem
      refine ⟨⟨hdrawn.trans_le h.1, fun entry hentry => ?_⟩, List.not_mem_nil⟩
      exact (hdrawn.trans_le (hnew entry hentry)).ne'
    · obtain ⟨rfl, rfl⟩ := List.cons.inj huses
      obtain ⟨hretired, hnot⟩ := hs.retired later identity' earlier token rfl hmem
      exact ⟨hretired.renews h, fun hin => hnot ((List.mem_cons.1 hin).resolve_left (by simp))⟩

end Refreshed

theorem refreshed_of_served {capacity ttl now : ℕ} {h : List RetryEvent} {s : TimedStore}
    (hserved : Served (.init capacity ttl now) h s) : Refreshed (seen h).uses s := by
  induction hserved with
  | start =>
    refine ⟨fun k entry hentry => ?_, by simp [seen], by simp [seen]⟩
    exact absurd hentry (by simp [TimedStore.init, IsolationStore.new])
  | other hserved hput hstep ih => exact ih.renews (TimedStore.renews_step hput hstep)
  | @lookup h s s' identity time material hserved hstep ih =>
    cases hstep with
    | call _ _ oldest =>
      have hrenews := @TimedStore.renews_lookup s ⟨(s.store.materialForAt identity time oldest).2, time⟩ identity _
        oldest time rfl rfl
      exact ih.lookup hrenews.1 hrenews.2
  | @rotate h s s' identity time material hserved hstep ih =>
    cases hstep with
    | call _ _ oldest =>
      have hrenews := @TimedStore.renews_rotate s ⟨(s.store.rotate identity time).2, time⟩ identity time rfl
      exact ih.rotate hrenews.1 hrenews.2
  | @elsewhere h s e hserved hlookup hrotate ih =>
    have huses : (seen (e :: h)).uses = (seen h).uses := by
      obtain ⟨c, answer⟩ := e
      cases c with
      | materialFor identity => exact absurd rfl (hlookup identity)
      | rotate identity => exact absurd rfl (hrotate identity)
      | _ => rfl
    rwa [huses]

/-- Two attempts of a session are made on two tokens. -/
theorem attempts_apart {target : TorAddr} {isolation : ResolvedIsolation} {capacity ttl now : ℕ} {h : List RetryEvent}
    {s : TimedStore} (hsession : isolation.strict = false) (hserved : Served (.init capacity ttl now) h s)
    (hh : Honours (Permits target isolation) h) : ((seen h).attempts.map Attempt.isolation).Nodup := by
  induction hserved with
  | start => exact .nil
  | other hserved hput hstep ih => exact ih hh
  | lookup hserved hstep ih => exact ih hh.2
  | rotate hserved hstep ih => exact ih hh.2
  | @elsewhere h s e hserved hlookup hrotate ih =>
    obtain ⟨c, answer⟩ := e
    cases c with
    | connectWithPrefs target' used timeout =>
      obtain ⟨-, hstrict, -, attempt, uses, huses, hready, -⟩ := hh.1
      show (used :: (seen h).attempts.map Attempt.isolation).Nodup
      refine List.nodup_cons.2 ⟨fun hmem => ?_, ih hh.2⟩
      obtain ⟨earlier, hearlier, hsame⟩ := List.mem_map.1 hmem
      cases hready with
      | first hattempts _ =>
        have hnone : (seen h).attempts = [] := hattempts
        rw [hnone] at hearlier
        cases hearlier
      | second hattempts _ _ hrotated =>
        have hone : (seen h).attempts = [_] := hattempts
        have hbefore : uses = _ := hrotated
        rw [hone, List.mem_singleton] at hearlier
        subst hearlier
        cases hused : used with
        | everyStream => exact absurd (hstrict.1 hused) (by simp [hsession])
        | token token =>
          -- the lookup before the rotation and the one after it gave the same token
          have huses' : (seen h).uses =
              [.lookup isolation.identity token] ++ .rotate isolation.identity :: [.lookup isolation.identity token] := by
            rw [huses, hbefore, hsession, hsame, hused]
            rfl
          have hretired := (refreshed_of_served hserved).retired _ _ _ token huses' (List.mem_singleton_self _)
          exact hretired.2 (List.mem_singleton_self _)
    | _ => exact ih hh.2

/-- In session mode `connect_with_retry` never tries again on the token that it failed with, whatever other connections
do with the store before, between and after its calls. -/
theorem retry_leaves_failed_token {target : TorAddr} {isolation : ResolvedIsolation} {capacity ttl now : ℕ}
    {h : List RetryEvent} {result : Except RetryError Unit} {s : TimedStore} (hsession : isolation.strict = false)
    (hends : Ends [] (connectWithRetry target isolation) h result) (hserved : Served (.init capacity ttl now) h s) :
    ((seen h).attempts.map Attempt.isolation).Nodup :=
  attempts_apart hsession hserved (hends.of_wp (wp_honours (connectWithRetry_spec target isolation) trivial)).2

/-- The calls of a connection whose first attempt takes too long. -/
def retriedEvents : List RetryEvent :=
  let target : TorAddr := "example.org:443".toList
  let identity := "a".toList
  [⟨.recordBuildLatency, ()⟩,
    ⟨.connectWithPrefs target (.token 4) 22400000000, some (.ok ())⟩, ⟨.now, 22600000000⟩,
    ⟨.materialFor identity, ⟨4, 4⟩⟩, ⟨.sleep 50000000, ()⟩, ⟨.now, 22550000000⟩, ⟨.rotate identity, ()⟩,
    ⟨.retries, 0⟩, ⟨.recordArtiFailure "timeout", ()⟩, ⟨.connectTimeouts, ()⟩, ⟨.recordBuildLatency, ()⟩,
    ⟨.connectWithPrefs target (.token 1) 22500000000, none⟩, ⟨.now, 0⟩, ⟨.materialFor identity, ⟨1, 1⟩⟩,
    ⟨.now, 0⟩]

theorem ends_retriedEvents : Ends [] (connectWithRetry "example.org:443".toList ⟨"a".toList, false⟩) retriedEvents
    (.ok ()) := by
  refine .call 0 (.call ⟨1, 1⟩ (.call 0 (.call none (.call () (.call () (.call () (.call 0 (.call () ?_))))))))
  exact .call 22550000000 (.call () (.call ⟨4, 4⟩ (.call 22600000000 (.call (some (.ok ())) (.call () (.done _ _))))))

/-- A lookup of the connection, with what the store answers. -/
theorem Served.answered {start s : TimedStore} {h : List RetryEvent} (hserved : Served start h s) (identity : Str)
    (time : ℕ) (oldest : Option Str) (material : IsolationMaterial) (htime : s.now ≤ time)
    (holdest : (s.store.retain time).IsOldest oldest)
    (hmaterial : (s.store.materialForAt identity time oldest).1 = material) :
    Served start (⟨.materialFor identity, material⟩ :: h) ⟨(s.store.materialForAt identity time oldest).2, time⟩ := by
  subst hmaterial
  exact hserved.lookup (.call (.materialForAt identity) time oldest htime holdest)

/-- Another connection's lookup evicts the rotated entry while the connection waits. -/
theorem served_retriedEvents : ∃ s, Served (.init 1 900000000000 0) retriedEvents s := by
  have helse {h : List RetryEvent} {s : TimedStore} (hserved : Served (.init 1 900000000000 0) h s) (e : RetryEvent)
      (hlookup : ∀ identity, e.1 ≠ .materialFor identity) (hrotate : ∀ identity, e.1 ≠ .rotate identity) :
      Served (.init 1 900000000000 0) (e :: h) s := hserved.elsewhere hlookup hrotate
  have hfirst := (helse .start ⟨.now, 0⟩ (by simp) (by simp)).answered "a".toList 0 none ⟨1, 1⟩
    (by decide) (by decide +kernel) (by decide +kernel)
  have hfailed := helse (helse (helse hfirst ⟨.now, 0⟩ (by simp) (by simp))
    ⟨.connectWithPrefs "example.org:443".toList (.token 1) 22500000000, none⟩ (by simp) (by simp))
    ⟨.recordBuildLatency, ()⟩ (by simp) (by simp)
  have hcounted := helse (helse (helse hfailed ⟨.connectTimeouts, ()⟩ (by simp) (by simp))
    ⟨.recordArtiFailure "timeout", ()⟩ (by simp) (by simp)) ⟨.retries, 0⟩ (by simp) (by simp)
  have hrotated := hcounted.rotate (.call (.rotate "a".toList) 22550000000 (some "a".toList) (by decide)
    (by decide +kernel))
  have hslept := helse (helse hrotated ⟨.now, 22550000000⟩ (by simp) (by simp)) ⟨.sleep 50000000, ()⟩ (by simp) (by simp)
  have hevicted := hslept.other (by simp) (.call (.materialForAt "b".toList) 22560000000 (some "a".toList) (by decide)
    (by decide +kernel))
  have hsecond := hevicted.answered "a".toList 22600000000 (some "b".toList) ⟨4, 4⟩ (by decide)
    (by decide +kernel) (by decide +kernel)
  exact ⟨_, helse (helse (helse hsecond ⟨.now, 22600000000⟩ (by simp) (by simp))
    ⟨.connectWithPrefs "example.org:443".toList (.token 4) 22400000000, some (.ok ())⟩ (by simp) (by simp))
    ⟨.recordBuildLatency, ()⟩ (by simp) (by simp)⟩

theorem retry_leaves_failed_token_once : (seen retriedEvents).attempts.length = 2 ∧
    ((seen retriedEvents).attempts.map Attempt.isolation).Nodup := by
  obtain ⟨s, hserved⟩ := served_retriedEvents
  exact ⟨rfl, retry_leaves_failed_token rfl ends_retriedEvents hserved⟩

end Cobra
