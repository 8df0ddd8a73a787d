import CobraProxy.Lib.Run
import CobraProxy.Proofs.Handlers
import CobraProxy.Proofs.Isolation
import CobraProxy.Proofs.Leases

/-! The pipeline fails closed. The scopes in the registries are traced back to the public requests
they were admitted for: a lease was issued for a downstream context, and the context registered by a
public connection behind its gates. The registries overwrite entries where they should refuse, but
never with a scope that was not admitted. -/

namespace Cobra

open Text Program Handler Prog Runs

/-- A public connection registered the context after its gates. -/
def Admitted (tasks : List Task) (address : SocketAddr) (context : AuthenticatedRequestContext) : Prop :=
  ∃ t ∈ tasks, t.origin = .publicConnection ∧ ∃ answer earlier,
    ⟨.registerDownstream address context, answer⟩ :: earlier <:+ t.history ∧ GatesPassed earlier context.scope

/-- `request_filter` issued a lease for the scope of a registered context. -/
def Leased (tasks : List Task) (scope : AccountRequestScope) : Prop :=
  ∃ t ∈ tasks, ∃ address header context answer earlier, t.origin = .downstreamRequest (some address) header ∧
    ⟨.issueBridgeIdentity scope, answer⟩ :: earlier <:+ t.history ∧
    ⟨.downstreamContext address, some context⟩ ∈ earlier ∧ context.scope = scope ∧
    Admitted tasks address context

/-- Every task is still there, with more calls behind it. -/
def Grows (tasks tasks' : List Task) : Prop :=
  ∀ t ∈ tasks, ∃ t' ∈ tasks', t'.origin = t.origin ∧ t.history <:+ t'.history

section Growth

variable {tasks tasks' : List Task} (hgrows : Grows tasks tasks')

include hgrows

theorem Admitted.mono {address : SocketAddr} {context : AuthenticatedRequestContext}
    (h : Admitted tasks address context) : Admitted tasks' address context := by
  obtain ⟨t, ht, horigin, answer, earlier, hsuffix, hgates⟩ := h
  obtain ⟨t', ht', horigin', hhistory⟩ := hgrows t ht
  exact ⟨t', ht', horigin'.trans horigin, answer, earlier, hsuffix.trans hhistory, hgates⟩

theorem Leased.mono {scope : AccountRequestScope} (h : Leased tasks scope) : Leased tasks' scope := by
  obtain ⟨t, ht, address, header, context, answer, earlier, horigin, hsuffix, hlookup, hscope, hadmitted⟩ := h
  obtain ⟨t', ht', horigin', hhistory⟩ := hgrows t ht
  exact ⟨t', ht', address, header, context, answer, earlier, horigin'.trans horigin, hsuffix.trans hhistory,
    hlookup, hscope, hadmitted.mono hgrows⟩

end Growth

/-! ### The registries -/

theorem AuthenticatedDownstreamStore.context_of_register {store : AuthenticatedDownstreamStore}
    {address a : SocketAddr} {context c : AuthenticatedRequestContext}
    (h : (store.register address context).2.context a = some c) :
    store.context a = some c ∨ a = address ∧ c = context := by
  have hinsert : ∀ generation, ((store.entries.insert address ⟨generation, context⟩).lookup a).map
      DownstreamContextEntry.context = some c → store.context a = some c ∨ a = address ∧ c = context := by
    intro generation h
    by_cases ha : a = address
    · subst ha
      rw [Finmap.lookup_insert] at h
      exact .inr ⟨rfl, (Option.some.inj h).symm⟩
    · rw [Finmap.lookup_insert_of_ne _ ha] at h
      exact .inl h
  unfold register at h
  dsimp only at h
  split_ifs at h
  · exact .inl h
  · exact hinsert _ h
  · exact hinsert _ h

theorem AuthenticatedDownstreamStore.context_of_remove {store : AuthenticatedDownstreamStore}
    {address a : SocketAddr} {generation : ℕ} {c : AuthenticatedRequestContext}
    (h : (store.remove address generation).context a = some c) : store.context a = some c := by
  unfold remove at h
  split_ifs at h
  · by_cases ha : a = address
    · subst ha
      simp [context] at h
    · rwa [context, Finmap.lookup_erase_ne ha] at h
  · exact h

/-- What a token resolves to after `issue` it resolved to before, or it is the scope of the call; and
a token that was not registered is the one returned. -/
theorem BridgeIdentityRegistry.resolve_of_issueLoop {scope scope' : AccountRequestScope} {token : Str}
    (attempts : ℕ) {draws : ℕ → Option (ByteVec 24)} {registry : BridgeIdentityRegistry}
    (h : (issueLoop scope attempts draws registry).2.resolve token = some scope') :
    (registry.resolve token = some scope' ∨ scope' = scope) ∧
      (token ∈ registry.entries ∨ (issueLoop scope attempts draws registry).1 = .ok token) := by
  induction attempts generalizing draws registry with
  | zero => exact ⟨.inl h, .inl (Finmap.mem_iff.2 ⟨_, h⟩)⟩
  | succ attempts ih =>
    have hkeep : registry.resolve token = some scope' → token ∈ registry.entries := fun h =>
      Finmap.mem_iff.2 ⟨_, h⟩
    have hinsert : ∀ t, ({ registry with entries := registry.entries.insert t scope } :
        BridgeIdentityRegistry).resolve token = some scope' → registry.resolve token = some scope' ∨
          token = t ∧ scope' = scope := by
      intro t ht
      by_cases heq : token = t
      · subst heq
        exact .inr ⟨rfl, (Option.some.inj ((Finmap.lookup_insert _).symm.trans ht)).symm⟩
      · exact .inl ((Finmap.lookup_insert_of_ne _ heq).symm.trans ht)
    cases hd : draws 0 with
    | none =>
      have heq : ∃ e, issueLoop scope (attempts + 1) draws registry = (.error e, registry) := by
        simp [issueLoop, hd]
      obtain ⟨e, heq⟩ := heq
      rw [heq] at h ⊢
      exact ⟨.inl h, .inl (hkeep h)⟩
    | some bytes =>
      by_cases hcap : registry.capacity ≤ registry.entries.keys.card
      · have heq : ∃ e, issueLoop scope (attempts + 1) draws registry = (.error e, registry) := by
          simp [issueLoop, hd, hcap]
        obtain ⟨e, heq⟩ := heq
        rw [heq] at h ⊢
        exact ⟨.inl h, .inl (hkeep h)⟩
      · by_cases hm : leaseToken bytes ∈ registry.entries
        · rw [issueLoop_clash hd (Nat.lt_of_not_le hcap) hm] at h ⊢
          obtain ⟨hscope, htoken⟩ := ih h
          refine ⟨hscope.elim (fun hs => (hinsert _ hs).imp_right And.right) .inr, htoken.imp_left fun ht => ?_⟩
          rcases Finmap.mem_insert.1 ht with rfl | ht
          · exact hm
          · exact ht
        · have heq : issueLoop scope (attempts + 1) draws registry = (.ok (leaseToken bytes),
              { registry with entries := registry.entries.insert (leaseToken bytes) scope }) := by
            simp [issueLoop, hd, hcap, Finmap.lookup_eq_none.2 hm]
          rw [heq] at h ⊢
          rcases hinsert _ h with h | ⟨rfl, rfl⟩
          · exact ⟨.inl h, .inl (hkeep h)⟩
          · exact ⟨.inr rfl, .inr rfl⟩

theorem BridgeIdentityRegistry.resolve_of_remove {registry : BridgeIdentityRegistry} {token t : Str}
    {scope : AccountRequestScope} (h : (registry.remove token).resolve t = some scope) :
    registry.resolve t = some scope := by
  by_cases ht : t = token
  · subst ht
    simp [remove, resolve] at h
  · rwa [resolve, remove, Finmap.lookup_erase_ne ht] at h

theorem DownstreamSystem.store_register (s : DownstreamSystem) (address : SocketAddr)
    (context : AuthenticatedRequestContext) :
    (s.register address context).store = (s.store.register address context).2 := by
  unfold register
  split <;> rename_i heq <;> rw [heq]

theorem LeaseSystem.registry_issue (s : LeaseSystem) (scope : AccountRequestScope)
    (draws : ℕ → Option (ByteVec 24)) : (s.issue scope draws).registry = (s.registry.issue scope draws).2 := by
  unfold issue
  split <;> rename_i heq <;> rw [heq]

theorem LeaseSystem.live_issue (s : LeaseSystem) (scope : AccountRequestScope)
    (draws : ℕ → Option (ByteVec 24)) {token : Str}
    (h : token ∈ s.live.map Prod.fst ∨ (s.registry.issue scope draws).1 = .ok token) :
    token ∈ (s.issue scope draws).live.map Prod.fst := by
  unfold issue
  split
  · rename_i issued registry heq
    rw [heq] at h
    rcases h with h | h
    · exact List.mem_cons_of_mem _ h
    · cases h
      exact List.mem_cons_self ..
  · rename_i heq
    rw [heq] at h
    exact h.resolve_right nofun

/-! ### Steps -/

namespace PipelineSystem

/-- Every token that the registry resolves is the token of a live lease. -/
def TokensLive (leases : LeaseSystem) : Prop :=
  ∀ token ∈ leases.registry.entries, token ∈ leases.live.map Prod.fst

theorem tokensLive_issue {leases : LeaseSystem} (h : TokensLive leases) (scope : AccountRequestScope)
    (draws : ℕ → Option (ByteVec 24)) : TokensLive (leases.issue scope draws) := by
  intro token htoken
  obtain ⟨scope', hscope'⟩ := Finmap.mem_iff.1 htoken
  rw [LeaseSystem.registry_issue] at hscope'
  have hsource := (BridgeIdentityRegistry.resolve_of_issueLoop 4 hscope').2
  exact leases.live_issue scope draws (hsource.imp_left (h token))

theorem tokensLive_drop {leases : LeaseSystem} (h : TokensLive leases) (token : Str)
    (scope : AccountRequestScope) : TokensLive (leases.drop token scope) := by
  intro other hother
  obtain ⟨hne, hmem⟩ := Finmap.mem_erase.1 hother
  obtain ⟨p, hp, rfl⟩ := List.mem_map.1 (h other hmem)
  refine List.mem_map.2 ⟨p, (List.mem_erase_of_ne ?_).2 hp, rfl⟩
  rintro rfl
  exact hne rfl

variable {lib : Libraries} {s s' : PipelineSystem}

section Answers

variable {c : Call} {answer : c.Result} {downstream : DownstreamSystem} {leases : LeaseSystem}
  (h : s.Answers c answer downstream leases)

include h

theorem Answers.context_of {address : SocketAddr} {context : AuthenticatedRequestContext}
    (hcontext : downstream.store.context address = some context) :
    s.downstream.store.context address = some context ∨ c = .registerDownstream address context := by
  cases c with
  | registerDownstream a b =>
    obtain ⟨-, rfl, -⟩ := h
    rw [DownstreamSystem.store_register] at hcontext
    refine (AuthenticatedDownstreamStore.context_of_register hcontext).imp_right ?_
    rintro ⟨rfl, rfl⟩
    rfl
  | downstreamContext | resolveBridgeIdentity | read => exact .inl (h.2.1 ▸ hcontext)
  | issueBridgeIdentity =>
    obtain ⟨draws, -, rfl, -⟩ := h
    exact .inl hcontext
  | _ => exact .inl (h.1 ▸ hcontext)

theorem Answers.resolve_of {token : Str} {scope : AccountRequestScope}
    (hresolve : leases.registry.resolve token = some scope) :
    s.leases.registry.resolve token = some scope ∨ c = .issueBridgeIdentity scope := by
  cases c with
  | issueBridgeIdentity issued =>
    obtain ⟨draws, -, -, rfl⟩ := h
    rw [LeaseSystem.registry_issue] at hresolve
    refine (BridgeIdentityRegistry.resolve_of_issueLoop 4 hresolve).1.imp_right ?_
    rintro rfl
    rfl
  | registerDownstream | downstreamContext | resolveBridgeIdentity | read => exact .inl (h.2.2 ▸ hresolve)
  | _ => exact .inl (h.2 ▸ hresolve)

theorem Answers.tokensLive (hlive : TokensLive s.leases) : TokensLive leases := by
  cases c with
  | issueBridgeIdentity issued =>
    obtain ⟨draws, -, -, rfl⟩ := h
    exact tokensLive_issue hlive issued draws
  | registerDownstream | downstreamContext | resolveBridgeIdentity | read => exact h.2.2 ▸ hlive
  | _ => exact h.2 ▸ hlive

theorem Answers.context_eq {address : SocketAddr} {context : AuthenticatedRequestContext}
    (hevent : (⟨c, answer⟩ : CallEvent) = ⟨.downstreamContext address, some context⟩) :
    s.downstream.store.context address = some context := by
  cases hevent
  exact h.1.symm

theorem Answers.resolve_eq {token : Str} {scope : AccountRequestScope}
    (hevent : (⟨c, answer⟩ : CallEvent) = ⟨.resolveBridgeIdentity token, some scope⟩) :
    s.leases.registry.resolve token = some scope := by
  cases hevent
  exact h.1.symm

end Answers

/-- The running tasks are permitted what they still do, and what the registries hold, or have answered,
goes back to admitted requests. -/
structure Sealed (lib : Libraries) (s : PipelineSystem) : Prop where
  running : ∀ t ∈ s.tasks, ∀ program, t.rest = some program →
    wp (Permitted lib t.origin) t.history program fun _ _ => True
  stored : ∀ address context, s.downstream.store.context address = some context →
    Admitted s.tasks address context
  found : ∀ t ∈ s.tasks, ∀ address context, ⟨.downstreamContext address, some context⟩ ∈ t.history →
    Admitted s.tasks address context
  leased : ∀ token scope, s.leases.registry.resolve token = some scope → Leased s.tasks scope
  resolved : ∀ t ∈ s.tasks, ∀ token scope, ⟨.resolveBridgeIdentity token, some scope⟩ ∈ t.history →
    Leased s.tasks scope
  tokensLive : TokensLive s.leases

theorem sealed_init (lib : Libraries) (downstreamCapacity leaseCapacity : ℕ) :
    Sealed lib (init downstreamCapacity leaseCapacity) := by
  refine ⟨nofun, ?_, nofun, ?_, nofun, ?_⟩
  · intro address context h
    cases h
  · intro token scope h
    cases h
  · intro token h
    cases h

theorem Sealed.start (h : Sealed lib s) (origin : TaskOrigin) :
    Sealed lib { s with tasks := ⟨origin, [], some (origin.program lib .authenticatedTls)⟩ :: s.tasks } := by
  have hgrows : Grows s.tasks (⟨origin, [], some (origin.program lib .authenticatedTls)⟩ :: s.tasks) :=
    fun t ht => ⟨t, List.mem_cons_of_mem _ ht, rfl, List.suffix_refl _⟩
  refine ⟨?_, fun _ _ hc => (h.stored _ _ hc).mono hgrows, ?_, fun _ _ hr => (h.leased _ _ hr).mono hgrows, ?_,
    h.tokensLive⟩
  · intro t ht program hprogram
    rcases List.mem_cons.1 ht with rfl | ht
    · cases hprogram
      exact program_spec origin
    · exact h.running t ht program hprogram
  · intro t ht address context hevent
    rcases List.mem_cons.1 ht with rfl | ht
    · cases hevent
    · exact (h.found t ht _ _ hevent).mono hgrows
  · intro t ht token scope hevent
    rcases List.mem_cons.1 ht with rfl | ht
    · cases hevent
    · exact (h.resolved t ht _ _ hevent).mono hgrows

theorem grows_replace {before after : List Task} {task task' : Task} (horigin : task'.origin = task.origin)
    (hhistory : task.history <:+ task'.history) : Grows (before ++ task :: after) (before ++ task' :: after) := by
  intro t ht
  rcases List.mem_append.1 ht with ht | ht
  · exact ⟨t, List.mem_append_left _ ht, rfl, List.suffix_refl _⟩
  rcases List.mem_cons.1 ht with rfl | ht
  · exact ⟨task', List.mem_append_right _ (List.mem_cons_self ..), horigin, hhistory⟩
  · exact ⟨t, List.mem_append_right _ (List.mem_cons_of_mem _ ht), rfl, List.suffix_refl _⟩

/-- One task goes on, and the registries with it. -/
theorem Sealed.replace (h : Sealed lib s) {before after : List Task} {task task' : Task}
    {downstream : DownstreamSystem} {leases : LeaseSystem} (htasks : s.tasks = before ++ task :: after)
    (hgrows : Grows s.tasks (before ++ task' :: after))
    (hrunning : ∀ program, task'.rest = some program →
      wp (Permitted lib task'.origin) task'.history program fun _ _ => True)
    (hstored : ∀ address context, downstream.store.context address = some context →
      s.downstream.store.context address = some context ∨ Admitted (before ++ task' :: after) address context)
    (hfound : ∀ address context, ⟨.downstreamContext address, some context⟩ ∈ task'.history →
      s.downstream.store.context address = some context ∨
        ⟨.downstreamContext address, some context⟩ ∈ task.history)
    (hleased : ∀ token scope, leases.registry.resolve token = some scope →
      s.leases.registry.resolve token = some scope ∨ Leased (before ++ task' :: after) scope)
    (hresolved : ∀ token scope, ⟨.resolveBridgeIdentity token, some scope⟩ ∈ task'.history →
      s.leases.registry.resolve token = some scope ∨ ⟨.resolveBridgeIdentity token, some scope⟩ ∈ task.history)
    (hlive : TokensLive leases) : Sealed lib ⟨downstream, leases, before ++ task' :: after⟩ := by
  have hmem : task ∈ s.tasks := htasks ▸ List.mem_append_right _ (List.mem_cons_self ..)
  have hcases : ∀ t ∈ before ++ task' :: after, t = task' ∨ t ∈ s.tasks := by
    intro t ht
    rw [htasks]
    simp only [List.mem_append, List.mem_cons] at ht ⊢
    tauto
  refine ⟨?_, ?_, ?_, ?_, ?_, hlive⟩
  · intro t ht
    rcases hcases t ht with rfl | ht
    · exact hrunning
    · exact h.running t ht
  · exact fun address context hc => (hstored address context hc).elim
      (fun hold => (h.stored _ _ hold).mono hgrows) id
  · intro t ht address context hevent
    rcases hcases t ht with rfl | ht
    · rcases hfound address context hevent with hc | hevent
      · exact (h.stored _ _ hc).mono hgrows
      · exact (h.found task hmem _ _ hevent).mono hgrows
    · exact (h.found t ht _ _ hevent).mono hgrows
  · exact fun token scope hr => (hleased token scope hr).elim (fun hold => (h.leased _ _ hold).mono hgrows) id
  · intro t ht token scope hevent
    rcases hcases t ht with rfl | ht
    · rcases hresolved token scope hevent with hr | hevent
      · exact (h.leased _ _ hr).mono hgrows
      · exact (h.resolved task hmem _ _ hevent).mono hgrows
    · exact (h.resolved t ht _ _ hevent).mono hgrows

theorem Sealed.call (h : Sealed lib s) {before after : List Task} {task : Task} {c : Call}
    {next : c.Result → Handler Unit} {downstream : DownstreamSystem} {leases : LeaseSystem} {answer : c.Result}
    (htasks : s.tasks = before ++ task :: after) (hrest : task.rest = some (.call c next))
    (hanswer : s.Answers c answer downstream leases) :
    Sealed lib ⟨downstream, leases,
      before ++ ⟨task.origin, ⟨c, answer⟩ :: task.history, some (next answer)⟩ :: after⟩ := by
  have hmem : task ∈ s.tasks := htasks ▸ List.mem_append_right _ (List.mem_cons_self ..)
  have hmem' : (⟨task.origin, ⟨c, answer⟩ :: task.history, some (next answer)⟩ : Task) ∈
      before ++ ⟨task.origin, ⟨c, answer⟩ :: task.history, some (next answer)⟩ :: after :=
    List.mem_append_right _ (List.mem_cons_self ..)
  obtain ⟨⟨-, hjustified⟩, hnext⟩ := h.running task hmem _ hrest
  have hgrows : Grows s.tasks
      (before ++ ⟨task.origin, ⟨c, answer⟩ :: task.history, some (next answer)⟩ :: after) :=
    htasks ▸ grows_replace rfl (List.suffix_cons _ _)
  refine h.replace htasks hgrows ?_ ?_ ?_ ?_ ?_ (hanswer.tokensLive h.tokensLive)
  · intro program hprogram
    cases hprogram
    exact hnext answer
  · intro address context hcontext
    refine (hanswer.context_of hcontext).imp_right ?_
    rintro rfl
    exact ⟨_, hmem', hjustified.1, answer, task.history, List.suffix_refl _, hjustified.2⟩
  · intro address context hevent
    exact (List.mem_cons.1 hevent).imp_left fun heq => hanswer.context_eq heq.symm
  · intro token scope hresolve
    refine (hanswer.resolve_of hresolve).imp_right ?_
    rintro rfl
    obtain ⟨address, header, context, horigin, hevent, hscope⟩ := hjustified
    exact ⟨_, hmem', address, header, context, answer, task.history, horigin, List.suffix_refl _, hevent, hscope,
      (h.found task hmem _ _ hevent).mono hgrows⟩
  · intro token scope hevent
    exact (List.mem_cons.1 hevent).imp_left fun heq => hanswer.resolve_eq heq.symm

/-- Dropping takes entries out of the registries and puts none in. -/
theorem release_spec (s : PipelineSystem) (resources : List Resource) (hlive : TokensLive s.leases) :
    let s' := resources.foldl release s
    (∀ address context, s'.downstream.store.context address = some context →
        s.downstream.store.context address = some context) ∧
      (∀ token scope, s'.leases.registry.resolve token = some scope →
        s.leases.registry.resolve token = some scope) ∧ TokensLive s'.leases := by
  induction resources generalizing s with
  | nil => exact ⟨fun _ _ h => h, fun _ _ h => h, hlive⟩
  | cons resource resources ih =>
    cases resource with
    | downstreamGuard guard context =>
      obtain ⟨hcontext, hresolve, hlive⟩ := ih (s.release (.downstreamGuard guard context)) hlive
      exact ⟨fun a c h => AuthenticatedDownstreamStore.context_of_remove (hcontext a c h), hresolve, hlive⟩
    | bridgeIdentityLease token scope =>
      obtain ⟨hcontext, hresolve, hlive⟩ := ih (s.release (.bridgeIdentityLease token scope))
        (tokensLive_drop hlive token scope)
      exact ⟨hcontext, fun t c h => BridgeIdentityRegistry.resolve_of_remove (hresolve t c h), hlive⟩
    | _ => exact ih s hlive

theorem Sealed.finish (h : Sealed lib s) {before after : List Task} {task : Task}
    (htasks : s.tasks = before ++ task :: after) :
    Sealed lib { (held task.history).foldl release s with
      tasks := before ++ ⟨task.origin, task.history, none⟩ :: after } := by
  obtain ⟨hcontext, hresolve, hlive⟩ := release_spec s (held task.history) h.tokensLive
  have hgrows : Grows s.tasks (before ++ ⟨task.origin, task.history, none⟩ :: after) :=
    htasks ▸ grows_replace rfl (List.suffix_refl _)
  exact h.replace htasks hgrows nofun (fun a c hc => .inl (hcontext a c hc)) (fun _ _ hevent => .inr hevent)
    (fun t c hr => .inl (hresolve t c hr)) (fun _ _ hevent => .inr hevent) hlive

theorem Sealed.step {act : PipelineAct} (h : Sealed lib s) (hs : Step lib .authenticatedTls s act s') :
    Sealed lib s' := by
  cases hs with
  | start origin => exact h.start origin
  | call answer htasks hrest hanswer => exact h.call htasks hrest hanswer
  | finish htasks hrest => exact h.finish htasks

end PipelineSystem

/-- How the scope of a tunnel goes back to the gates. -/
def Granted (tasks : List Task) (task : Task) (scope : AccountRequestScope) : Prop :=
  match task.origin with
  | .publicConnection => GatesPassed task.history scope
  | .internalConnection =>
    ∃ token, ⟨.resolveBridgeIdentity token, some scope⟩ ∈ task.history ∧ Leased tasks scope
  | .downstreamRequest .. => False

open PipelineSystem

/-- Whatever the clients send and the services answer, a task that is about to call
`connect_with_retry` is behind all of its gates, and a public request with the header of the inner hop
is about to be rejected. The registry resolves only live leases, of admitted scopes. -/
theorem pipeline_fails_closed (lib : Libraries) (downstreamCapacity leaseCapacity : ℕ)
    {tr : List (PipelineSystem × PipelineAct)} {s : PipelineSystem}
    (h : Run (Step lib .authenticatedTls) (init downstreamCapacity leaseCapacity) tr s) :
    (∀ task ∈ s.tasks, ∀ c next, task.rest = some (.call c next) →
      (∀ target isolation, c = .connectWithRetry target isolation →
        ConnectReady lib (Granted s.tasks task) task.history target) ∧
      (task.origin = .publicConnection → CarriesLease lib task.history → c = .write .badRequest)) ∧
    ∀ token scope, s.leases.registry.resolve token = some scope →
      token ∈ s.leases.live.map Prod.fst ∧ Leased s.tasks scope := by
  have hsealed : Sealed lib s := h.invariant (sealed_init lib _ _) fun _ _ _ hI hs => hI.step hs
  refine ⟨fun task htask c next hrest => ?_, fun token scope hresolve =>
    ⟨hsealed.tokensLive token (Finmap.mem_iff.2 ⟨_, hresolve⟩), hsealed.leased token scope hresolve⟩⟩
  obtain ⟨⟨hclean, hjustified⟩, -⟩ := hsealed.running task htask _ hrest
  refine ⟨?_, fun horigin hcarries => hclean.resolve_left fun hclean => hclean horigin hcarries⟩
  rintro target isolation rfl
  obtain ⟨scope, destination, key, hgranted, hready⟩ := hjustified
  refine ⟨scope, destination, key, ?_, hready⟩
  cases horigin : task.origin with
  | publicConnection => simpa [Granted, ScopeGranted, horigin] using hgranted
  | internalConnection =>
    simp only [ScopeGranted, horigin] at hgranted
    obtain ⟨token, htoken⟩ := hgranted
    simp only [Granted, horigin]
    exact ⟨token, htoken, hsealed.resolved task htask token scope htoken⟩
  | downstreamRequest => simp [ScopeGranted, horigin] at hgranted

/-! The gates can be passed: a CONNECT that authenticates, to a destination the policy allows. -/

/-- A run with one public connection can come to where `program` is what remains of it. -/
def Arrives (lib : Libraries) (program : Handler Unit) : Prop :=
  ∃ history tr, Run (Step lib .authenticatedTls) (init 1 1) tr
    ⟨.new 1, .new 1, [⟨.publicConnection, history, some program⟩]⟩

theorem Arrives.answer {lib : Libraries} {c : Call} {next : c.Result → Handler Unit}
    (h : Arrives lib (.call c next)) (answer : c.Result)
    (hanswer : ∀ s : PipelineSystem, s.Answers c answer s.downstream s.leases) : Arrives lib (next answer) := by
  obtain ⟨history, tr, hrun⟩ := h
  let task : Task := ⟨.publicConnection, history, some (.call c next)⟩
  exact ⟨_, _, hrun.snoc (@Step.call lib _ _ [] [] task c next _ _ answer rfl rfl (hanswer _))⟩

theorem arrives_start (lib : Libraries) : Arrives lib (handlePublicTcpConnection lib .authenticatedTls) :=
  ⟨[], _, Run.nil.snoc (Step.start .publicConnection)⟩

theorem arrives_serve (lib : Libraries) {bytes : Bytes} {request : ParsedProxyRequest}
    (hlen : bytes.length ≤ 1024) (hne : bytes ≠ []) (hnone : parseProxyRequest lib.httparse [] = .ok none)
    (hsome : parseProxyRequest lib.httparse bytes = .ok (some request)) (fingerprint : CertificateFingerprint) :
    Arrives lib (servePublicRequest lib request bytes (some fingerprint)) := by
  obtain _ | ⟨byte, rest⟩ := bytes
  · exact absurd rfl hne
  have hhello := (arrives_start lib).answer (c := .acceptBoundedTls) (.ok ()) fun _ => ⟨rfl, rfl⟩
  have hread : Arrives lib (handlePublicConnection lib (some fingerprint) true) :=
    hhello.answer (c := .tlsClientFingerprint) (.ok fingerprint) fun _ => ⟨rfl, rfl⟩
  rw [handlePublicConnection, readProxyRequest, readProxyRequestLoop, hnone] at hread
  have hchunk := hread.answer (c := .read 1024 true) (.ok ⟨byte :: rest, hlen⟩) fun _ => ⟨(fun heq => by cases heq), rfl, rfl⟩
  have hloop : readProxyRequestLoop lib true (16383 + 1) (byte :: rest) = pure (request, byte :: rest) := by
    rw [readProxyRequestLoop, hsome]
    rfl
  change Arrives lib ((readProxyRequestLoop lib true (16383 + 1) (byte :: rest)).attempt.bind _) at hchunk
  rw [hloop] at hchunk
  exact hchunk

/-- A request that passes every check gets to `connect_with_retry`, if the services let it. -/
theorem connect_reachable (lib : Libraries) {method destination authorization : Str} {headerLen : ℕ}
    {isolation : IsolationRequest} {request : Bytes} (target : TorAddr) (key : Str)
    (hlen : request.length ≤ 1024) (hne : request ≠ [])
    (hnone : parseProxyRequest lib.httparse [] = .ok none)
    (hsome : parseProxyRequest lib.httparse request =
      .ok (some ⟨method, some destination, headerLen, isolation, some authorization, none⟩))
    (hmethod : eqIgnoreAsciiCase method "CONNECT".toList = true)
    (htarget : parseConnectDestination lib destination = .ok target)
    (hallowed : connectDestinationAllowed lib.parseAuthority destination = .ok true)
    (hkey : canonicalConnectDestinationKey lib.parseAuthority destination = .ok key)
    (fingerprint : CertificateFingerprint) (scope : AccountRequestScope) :
    ∃ resolved next, Arrives lib (.call (.connectWithRetry target resolved) next) := by
  have hserve := arrives_serve lib hlen hne hnone hsome fingerprint
  have hidentity := hserve.answer (c := .authenticateAccount authorization fingerprint)
    (.ok scope.identity) fun _ => ⟨rfl, rfl⟩
  have hrate := hidentity.answer (c := .checkRequestRate scope.identity) (.ok ()) fun _ => ⟨rfl, rfl⟩
  have hperiod := hrate.answer (c := .periodStart) (.ok scope.periodStart) fun _ => ⟨rfl, rfl⟩
  have hdata := hperiod.answer (c := .ensureCustomerDataAvailable scope.identity scope.periodStart) (.ok ())
    fun _ => ⟨rfl, rfl⟩
  have hquota := hdata.answer (c := .admitAccountRequest scope.identity scope.periodStart) (.ok ())
    fun _ => ⟨rfl, rfl⟩
  change Arrives lib (if eqIgnoreAsciiCase method "CONNECT".toList = true then
    handleConnectRequest lib destination isolation (request.drop headerLen) true (some scope) else _) at hquota
  rw [if_pos hmethod, handleConnectRequest, checkDestination, htarget, hkey, hallowed] at hquota
  have hbreaker := hquota.answer (c := .circuitBreakerAllow key) true fun _ => ⟨rfl, rfl⟩
  have htunnel := hbreaker.answer (c := .tryAcquireTunnel scope.identity) (.ok ()) fun _ => ⟨rfl, rfl⟩
  have hsession := htunnel.answer (c := .openCustomerDataSession scope.identity scope.periodStart) (.ok ())
    fun _ => ⟨rfl, rfl⟩
  have hactive := hsession.answer (c := .acquireActiveTunnelPermit) .acquired fun _ => ⟨rfl, rfl⟩
  have hcounter := hactive.answer (c := .isolationIdCounter) 1 fun _ => ⟨rfl, rfl⟩
  have hpermit := hcounter.answer (c := .acquireCircuitPermit) .acquired fun _ => ⟨rfl, rfl⟩
  exact ⟨_, _, hpermit⟩

/-- The head of the CONNECT, as httparse reads it. -/
def connectHead : HttpHead where
  headerLen := 73
  method := some "CONNECT".toList
  path := some "Example.com:443".toList
  version := some 1
  headers := [("Proxy-Authorization".toList, utf8 "Basic cHItdjE6".toList)]

def connectBytes : Bytes :=
  utf8 "CONNECT Example.com:443 HTTP/1.1\r\nProxy-Authorization: Basic cHItdjE6\r\n\r\n".toList

def exampleLibraries : Libraries where
  httparse := fun buffer => if buffer = connectBytes then .ok (some connectHead) else .ok none
  parseAuthority := exampleAuthority
  torAddr := .ok
  hash := fieldHash

theorem pipeline_fails_closed_connect :
    ∃ tr s, Run (Step exampleLibraries .authenticatedTls) (init 1 1) tr s ∧ ∃ task ∈ s.tasks, ∃ isolation next,
      task.rest = some (.call (.connectWithRetry "Example.com:443".toList isolation) next) ∧
      ConnectReady exampleLibraries (Granted s.tasks task) task.history "Example.com:443".toList := by
  have hnone : parseProxyRequest exampleLibraries.httparse [] = .ok none :=
    Fallible.toOption_eq_some.1 (by decide +kernel)
  have hsome : parseProxyRequest exampleLibraries.httparse connectBytes =
      .ok (some ⟨"CONNECT".toList, some "Example.com:443".toList, 73, ⟨none, false⟩,
        some "Basic cHItdjE6".toList, none⟩) := Fallible.toOption_eq_some.1 (by decide +kernel)
  obtain ⟨isolation, next, history, tr, hrun⟩ := connect_reachable exampleLibraries "Example.com:443".toList
    "example.com:443".toList (by decide +kernel) (by decide +kernel) hnone hsome (by decide +kernel)
    (Fallible.toOption_eq_some.1 (by decide +kernel)) (Fallible.toOption_eq_some.1 (by decide +kernel))
    (Fallible.toOption_eq_some.1 (by decide +kernel)) ⟨List.replicate 32 0, rfl⟩ ⟨tenantIdentity, .epoch⟩
  have hclosed := (pipeline_fails_closed exampleLibraries 1 1 hrun).1 _ (List.mem_singleton_self _) _ next rfl
  exact ⟨tr, _, hrun, _, List.mem_singleton_self _, isolation, next, rfl, hclosed.1 _ _ rfl⟩

end Cobra
