import MaasBoot.NodeStoreRuns
import MaasBoot.Server

/-!
# Runs of the server

In every interleaving of requests, reloads, sweeps and changes of the files, the configuration, the node store and the
cache run as they do on their own, so what was proved about them holds in the server.
-/

namespace MaasBoot

variable {R : Type} (env : ServerEnv R)

/-! ### What a step does to the shared state -/

section Steps

variable (i : Nat) (order : VisitOrder)

/-- A step leaves the configuration alone, or it is the call or a step of `reloadConfig`. -/
theorem config_reloadServerStep (s : Shared) (q : ReloadPhase) :
    (reloadServerStep env i order s q).1.config = s.config ∨
      ∃ e, (e = .call i ∨ e = .step i order) ∧
        (reloadServerStep env i order s q).1.config = configNext env.config s.config e := by
  cases q with
  | start => exact .inr ⟨.call i, .inl rfl, rfl⟩
  | config =>
    refine .inr ⟨.step i order, .inr rfl, ?_⟩
    rw [reloadServerStep]
    split <;> rfl
  | nodes =>
    left
    rw [reloadServerStep]
    split <;> rfl

/-- A step leaves the node store alone, or it is the call or a step of `NodeStore.Reload`. -/
theorem nodes_reloadServerStep (s : Shared) (q : ReloadPhase) :
    (reloadServerStep env i order s q).1.nodes = s.nodes ∨
      ∃ e, (e = .call i ∨ e = .step i) ∧
        (reloadServerStep env i order s q).1.nodes = storeNext env.store s.nodes e := by
  cases q with
  | start => exact .inl rfl
  | config =>
    rw [reloadServerStep]
    split
    · exact .inr ⟨.call i, .inl rfl, rfl⟩
    · exact .inl rfl
  | nodes =>
    refine .inr ⟨.step i, .inr rfl, ?_⟩
    rw [reloadServerStep]
    split <;> rfl

theorem cache_reloadServerStep (s : Shared) (q : ReloadPhase) :
    (reloadServerStep env i order s q).1.cache = s.cache ∧ (reloadServerStep env i order s q).1.clock = s.clock := by
  cases q with
  | start => exact ⟨rfl, rfl⟩
  | config =>
    rw [reloadServerStep]
    split <;> exact ⟨rfl, rfl⟩
  | nodes =>
    rw [reloadServerStep]
    split <;> exact ⟨rfl, rfl⟩

theorem shared_resolveStep (norm : Bytes) (deadline : Int) (s : Shared) (q : ResolvePhase) :
    (resolveStep env i order norm deadline s q).1 = s ∨
      ∃ q', q = .reload q' ∧ (resolveStep env i order norm deadline s q).1 =
        (reloadServerStep env i order s q').1 := by
  cases q with
  | reload q' =>
    refine .inr ⟨q', rfl, ?_⟩
    rw [resolveStep]
    split <;> simp [*]
  | _ =>
    left
    rw [resolveStep]
    split <;> rfl

/-- A step of a goroutine leaves the shared state alone, or it is one of `Reload` or of `cachedISO`. -/
theorem shared_goroutineStep (s : Shared) (g : Goroutine) :
    (goroutineStep env i order s g).1 = s ∨
      (∃ q, (goroutineStep env i order s g).1 = (reloadServerStep env i order s q).1) ∨
      ∃ r cfg name q, g = .serving r cfg (.composing name q) ∧
        (goroutineStep env i order s g).1 =
          { s with cache := (cachedISOStep env.iso env.unicode s.clock s.cache q).1 } := by
  cases g with
  | idle => exact .inl rfl
  | arrived r => exact .inl rfl
  | ended => exact .inl rfl
  | reloading q =>
    refine .inr (.inl ⟨q, ?_⟩)
    rw [goroutineStep]
    split <;> simp [*]
  | serving r cfg q =>
    rw [goroutineStep]
    dsimp only
    cases q with
    | resolving purpose norm deadline q =>
      have hstep : (handlerStep env i order r cfg s (.resolving purpose norm deadline q)).1 =
          (resolveStep env i order norm deadline s q).1 := by
        rw [handlerStep]
        split <;> simp [*]
      rw [hstep]
      rcases shared_resolveStep env i order norm deadline s q with h | ⟨q', -, h⟩
      · exact .inl h
      · exact .inr (.inl ⟨q', h⟩)
    | composing name q =>
      refine .inr (.inr ⟨r, cfg, name, q, rfl, ?_⟩)
      rw [handlerStep]
      split <;> simp [*]
    | forwarding genesisMAC up => exact .inl rfl
    | rewriting genesisMAC code header body =>
      left
      rw [handlerStep]
      split
      · rfl
      · dsimp only
        split <;> rfl
    | done reply => exact .inl rfl

theorem config_goroutineStep (s : Shared) (g : Goroutine) :
    (goroutineStep env i order s g).1.config = s.config ∨
      ∃ e, (e = .call i ∨ e = .step i order) ∧
        (goroutineStep env i order s g).1.config = configNext env.config s.config e := by
  rcases shared_goroutineStep env i order s g with h | ⟨q, h⟩ | ⟨r, cfg, name, q, -, h⟩
  · exact .inl (by rw [h])
  · rw [h]
    exact config_reloadServerStep env i order s q
  · exact .inl (by rw [h])

theorem nodes_goroutineStep (s : Shared) (g : Goroutine) :
    (goroutineStep env i order s g).1.nodes = s.nodes ∨
      ∃ e, (e = .call i ∨ e = .step i) ∧ (goroutineStep env i order s g).1.nodes = storeNext env.store s.nodes e := by
  rcases shared_goroutineStep env i order s g with h | ⟨q, h⟩ | ⟨r, cfg, name, q, -, h⟩
  · exact .inl (by rw [h])
  · rw [h]
    exact nodes_reloadServerStep env i order s q
  · exact .inl (by rw [h])

/-- A goroutine's step does not move the calls of the others. -/
theorem calls_goroutineStep (s : Shared) (g : Goroutine) {j : Nat} (hj : j ≠ i) :
    (goroutineStep env i order s g).1.config.calls j = s.config.calls j ∧
      (goroutineStep env i order s g).1.nodes.calls j = s.nodes.calls j := by
  constructor
  · rcases config_goroutineStep env i order s g with h | ⟨e, rfl | rfl, h⟩
    · rw [h]
    · rw [h, configNext]
      split
      · exact Function.update_of_ne hj ..
      · exact Function.update_of_ne hj ..
      · rfl
    · rw [h]
      exact Function.update_of_ne hj ..
  · rcases nodes_goroutineStep env i order s g with h | ⟨e, he, h⟩
    · rw [h]
    · rw [h]
      refine storeNext_calls_of_other env.store s.nodes ?_ ?_
      · rcases he with rfl | rfl <;> simp [hj.symm]
      · rcases he with rfl | rfl <;> simp [hj.symm]

theorem clock_goroutineStep (s : Shared) (g : Goroutine) : (goroutineStep env i order s g).1.clock = s.clock := by
  rcases shared_goroutineStep env i order s g with h | ⟨q, h⟩ | ⟨r, cfg, name, q, -, h⟩
  · rw [h]
  · rw [h]
    exact (cache_reloadServerStep env i order s q).2
  · rw [h]

end Steps

/-! ### The parts of the server -/

/-- The configuration takes the steps that it can take on its own. -/
theorem config_serverNext (s : ServerState) (e : ServerEvent) :
    ∃ es, (serverNext env s e).shared.config = runEvents (configNext env.config) s.shared.config es := by
  cases e with
  | configFile f => exact ⟨[.file f], rfl⟩
  | step i order =>
    rcases config_goroutineStep env i order s.shared (s.goroutines i) with h | ⟨e, -, h⟩
    · exact ⟨[], h⟩
    · exact ⟨[e], h⟩
  | _ => exact ⟨[], rfl⟩

/-- So does the node store. -/
theorem nodes_serverNext (s : ServerState) (e : ServerEvent) :
    ∃ es, (serverNext env s e).shared.nodes = runEvents (storeNext env.store) s.shared.nodes es := by
  cases e with
  | nodesFile f => exact ⟨[.file f], rfl⟩
  | step i order =>
    rcases nodes_goroutineStep env i order s.shared (s.goroutines i) with h | ⟨e, -, h⟩
    · exact ⟨[], h⟩
    · exact ⟨[e], h⟩
  | _ => exact ⟨[], rfl⟩

section Runs

variable {env} in
/-- Only the event of a request makes a goroutine one that has arrived. -/
theorem arrived_of_serverNext {s : ServerState} {e : ServerEvent} {j : Nat} {r : HttpRequest}
    (h : (serverNext env s e).goroutines j = .arrived r) : s.goroutines j = .arrived r ∨ e = .request j r := by
  have hupdate : ∀ {i : Nat} {g : Goroutine}, (g = .arrived r → s.goroutines i = .arrived r ∨ e = .request i r) →
      Function.update s.goroutines i g j = .arrived r → s.goroutines j = .arrived r ∨ e = .request j r := by
    intro i g hg hj
    rcases eq_or_ne j i with rfl | hne
    · rw [Function.update_self] at hj
      exact hg hj
    · rw [Function.update_of_ne hne] at hj
      exact .inl hj
  cases e with
  | request i r' =>
    refine hupdate (fun hg => ?_) h
    cases hgi : s.goroutines i with
    | idle =>
      rw [hgi] at hg
      exact .inr (congrArg _ (Goroutine.arrived.inj hg))
    | _ =>
      rw [hgi] at hg
      exact .inl hg
  | reload i =>
    refine hupdate (fun hg => ?_) h
    cases hgi : s.goroutines i with
    | idle =>
      rw [hgi] at hg
      cases hg
    | _ =>
      rw [hgi] at hg
      exact .inl hg
  | step i order =>
    refine hupdate (fun hg => ?_) h
    cases hgi : s.goroutines i with
    | reloading q =>
      rw [hgi, goroutineStep] at hg
      split at hg <;> cases hg
    | _ =>
      rw [hgi] at hg
      cases hg
  | cancel i =>
    refine hupdate (fun hg => ?_) h
    unfold Goroutine.cancel at hg
    split at hg
    · cases hg
    · exact .inl hg
  | upstream i res =>
    refine hupdate (fun hg => ?_) h
    unfold Goroutine.receive at hg
    split at hg
    · cases hg
    · exact .inl hg
  | _ => exact .inl h

variable (configFile nodesFile : FileState) (order : VisitOrder) (ttl clock : Int)

/-- The state after some events. -/
def serverRun (es : List ServerEvent) : ServerState :=
  runEvents (serverNext env) (.start env configFile nodesFile order ttl clock) es

theorem good_config_serverRun (es : List ServerEvent) :
    (serverRun env configFile nodesFile order ttl clock es).shared.config.Good env.config := by
  obtain ⟨es', h⟩ := runEvents_part (fun s : ServerState => s.shared.config) (config_serverNext env)
    (.start env configFile nodesFile order ttl clock) es
  rw [serverRun, h]
  exact ConfigState.good_run configFile order es'

theorem good_nodes_serverRun (es : List ServerEvent) :
    (serverRun env configFile nodesFile order ttl clock es).shared.nodes.Good env.store := by
  obtain ⟨es', h⟩ := runEvents_part (fun s : ServerState => s.shared.nodes) (nodes_serverNext env)
    (.start env configFile nodesFile order ttl clock) es
  rw [serverRun, h]
  exact StoreState.good_run env.store nodesFile es'

end Runs

/-! ### The cache -/

/-- A goroutine is about to build the image of the request. -/
def ServerState.Builds (s : ServerState) (req : IsoRequest) : Prop :=
  ∃ i r cfg name, s.goroutines i = .serving r cfg (.composing name (.building req))

section Cache

variable (built : IsoRequest → Prop)

/-- A call of `cachedISO` holds an image of a request with its key. -/
def Goroutine.Holds (c : ISOCache) : Goroutine → Prop
  | .serving _ _ (.composing _ q) => env.iso.Holds built env.unicode c q
  | _ => True

/-- The cache and what goroutines have got from it, if these are the requests whose images were built. -/
structure ServerState.CacheGood (s : ServerState) : Prop where
  cache : env.iso.Good built env.unicode s.shared.cache
  calls : ∀ i, (s.goroutines i).Holds env built s.shared.cache

variable {env built}

theorem Goroutine.Holds.mono {c c' : ISOCache} (hc : c.Extends c') {g : Goroutine} (h : g.Holds env built c) :
    g.Holds env built c' := by
  cases g with
  | serving r cfg q =>
    cases q with
    | composing name q => exact IsoOps.Holds.mono hc h
    | _ => trivial
  | _ => trivial

theorem Goroutine.Holds.imp {built' : IsoRequest → Prop} (hb : ∀ req, built req → built' req) {c : ISOCache}
    {g : Goroutine} (h : g.Holds env built c) : g.Holds env built' c := by
  cases g with
  | serving r cfg q =>
    cases q with
    | composing name q => exact IsoOps.Holds.imp hb h
    | _ => trivial
  | _ => trivial

theorem holds_resolved (c : ISOCache) (r : HttpRequest) (cfg : Config) (purpose : Purpose) (node : Option Node) :
    Goroutine.Holds env built c (.serving r cfg (resolved env r cfg purpose node)) := by
  cases purpose <;> cases node <;> trivial

theorem holds_resolve (c : ISOCache) (now : Int) (r : HttpRequest) (cfg : Config) (purpose : Purpose) (mac : Bytes) :
    Goroutine.Holds env built c (.serving r cfg (startResolving env now r cfg purpose mac)) := by
  unfold startResolving
  dsimp only
  split
  · exact holds_resolved ..
  · trivial

theorem holds_serve (c : ISOCache) (now : Int) (r : HttpRequest) (cfg : Config) :
    Goroutine.Holds env built c (.serving r cfg (serve env now r cfg)) := by
  unfold serve
  split
  · trivial
  · trivial
  · exact holds_resolve ..
  · trivial
  · split <;> trivial

theorem holds_receive (c : ISOCache) (r : HttpRequest) (cfg : Config) (genesisMAC : Bytes) (res : UpstreamResult) :
    Goroutine.Holds env built c (.serving r cfg (receive r genesisMAC res)) := by
  unfold receive
  split
  · trivial
  · split
    · trivial
    · split <;> trivial

/-- A step in `cachedISO`. -/
theorem Goroutine.Holds.step_composing {s : Shared} (hs : env.iso.Good built env.unicode s.cache) {r : HttpRequest}
    {cfg : Config} {name : Bytes} {q : IsoPhase IsoRequest GoError} (hq : env.iso.Holds built env.unicode s.cache q)
    (i : Nat) (order : VisitOrder)
    (hbuilt : ∀ req, (goroutineStep env i order s (.serving r cfg (.composing name q))).2 =
      .serving r cfg (.composing name (.building req)) → built req) :
    let next := goroutineStep env i order s (.serving r cfg (.composing name q))
    env.iso.Good built env.unicode next.1.cache ∧ next.2.Holds env built next.1.cache ∧
      s.cache.Extends next.1.cache := by
  intro next
  have hgood := hs.step s.clock hq
  have hext := extends_cachedISOStep env.iso env.unicode s.clock s.cache q
  have hholds := IsoOps.Holds.step hs s.clock hq fun req hreq => by
    refine hbuilt req ?_
    rw [goroutineStep, handlerStep]
    split <;> simp_all
  simp only [next, goroutineStep, handlerStep]
  split
  · rename_i heq
    rw [heq] at hgood hext
    exact ⟨hgood, trivial, hext⟩
  · rename_i heq
    rw [heq] at hgood hext
    exact ⟨hgood, trivial, hext⟩
  · rename_i heq
    rw [heq] at hgood hholds hext
    exact ⟨hgood, hholds, hext⟩

/-- A step of a goroutine: the cache, the goroutine and the objects that the others hold on to. -/
theorem Goroutine.Holds.step {s : Shared} (hs : env.iso.Good built env.unicode s.cache) {g : Goroutine}
    (hg : g.Holds env built s.cache) (i : Nat) (order : VisitOrder)
    (hbuilt : ∀ r cfg name req, (goroutineStep env i order s g).2 = .serving r cfg (.composing name (.building req)) →
      built req) :
    env.iso.Good built env.unicode (goroutineStep env i order s g).1.cache ∧
      (goroutineStep env i order s g).2.Holds env built (goroutineStep env i order s g).1.cache ∧
      s.cache.Extends (goroutineStep env i order s g).1.cache := by
  -- only in `cachedISO` is there something to show about the cache
  have hother : (goroutineStep env i order s g).1.cache = s.cache →
      (∀ c, (goroutineStep env i order s g).2.Holds env built c) →
      env.iso.Good built env.unicode (goroutineStep env i order s g).1.cache ∧
        (goroutineStep env i order s g).2.Holds env built (goroutineStep env i order s g).1.cache ∧
        s.cache.Extends (goroutineStep env i order s g).1.cache := by
    intro hcache hholds
    refine ⟨?_, hholds _, ?_⟩
    · rw [hcache]
      exact hs
    · rw [hcache]
      exact .refl _
  cases g with
  | idle => exact hother rfl fun _ => trivial
  | arrived r => exact hother rfl fun c => holds_serve c ..
  | ended => exact hother rfl fun _ => trivial
  | reloading q =>
    have hcache := (cache_reloadServerStep env i order s q).1
    refine hother ?_ fun c => ?_
    · rw [goroutineStep]
      split <;> simp_all
    · rw [goroutineStep]
      split <;> trivial
  | serving r cfg q =>
    cases q with
    | resolving purpose norm deadline q =>
      refine hother ?_ fun c => ?_
      · rcases shared_goroutineStep env i order s (.serving r cfg (.resolving purpose norm deadline q)) with
          h | ⟨q', h⟩ | ⟨_, _, _, _, h, -⟩
        · rw [h]
        · rw [h]
          exact (cache_reloadServerStep env i order s q').1
        · cases h
      · rw [goroutineStep, handlerStep]
        split
        · trivial
        · exact holds_resolved ..
    | composing name q => exact step_composing hs hg i order (hbuilt r cfg name)
    | forwarding genesisMAC up => exact hother rfl fun _ => trivial
    | rewriting genesisMAC code header body =>
      refine hother ?_ fun c => ?_
      · rw [goroutineStep, handlerStep]
        split
        · rfl
        · dsimp only
          split <;> rfl
      · rw [goroutineStep, handlerStep]
        split
        · trivial
        · dsimp only
          split
          · trivial
          · exact holds_resolve ..
    | done reply => exact hother rfl fun _ => trivial

theorem Goroutine.holds_start {c : ISOCache} {new g : Goroutine} (hnew : new.Holds env built c)
    (hg : g.Holds env built c) : (g.start new).Holds env built c := by
  cases g with
  | idle => exact hnew
  | _ => exact hg

theorem Goroutine.holds_cancel {c : ISOCache} {g : Goroutine} (hg : g.Holds env built c) :
    (g.cancel env).Holds env built c := by
  unfold Goroutine.cancel
  split
  · exact holds_resolved ..
  · exact hg

theorem Goroutine.holds_receive {c : ISOCache} {g : Goroutine} (hg : g.Holds env built c) (res : UpstreamResult) :
    (g.receive res).Holds env built c := by
  unfold Goroutine.receive
  split
  · exact MaasBoot.holds_receive ..
  · exact hg

theorem ServerState.CacheGood.next {built' : IsoRequest → Prop} (hb : ∀ req, built req → built' req) {s : ServerState}
    (hs : s.CacheGood env built) (e : ServerEvent) (hbuilt : ∀ req, (serverNext env s e).Builds req → built' req) :
    (serverNext env s e).CacheGood env built' := by
  have hcache : env.iso.Good built' env.unicode s.shared.cache := hs.cache.imp hb
  have hcalls : ∀ j, (s.goroutines j).Holds env built' s.shared.cache := fun j => (hs.calls j).imp hb
  have hupdate : ∀ {i : Nat} {g : Goroutine} {c : ISOCache}, g.Holds env built' c →
      (∀ j, (s.goroutines j).Holds env built' c) → ∀ j, (Function.update s.goroutines i g j).Holds env built' c :=
    fun hg hall => (Function.forall_update_iff _ fun _ (g : Goroutine) => g.Holds env built' _).mpr
      ⟨hg, fun j _ => hall j⟩
  cases e with
  | configFile f => exact ⟨hcache, hcalls⟩
  | nodesFile f => exact ⟨hcache, hcalls⟩
  | request i r => exact ⟨hcache, hupdate (Goroutine.holds_start trivial (hcalls i)) hcalls⟩
  | reload i => exact ⟨hcache, hupdate (Goroutine.holds_start trivial (hcalls i)) hcalls⟩
  | step i order =>
    obtain ⟨hcache, hg, hext⟩ := (hcalls i).step hcache i order fun r cfg name req hq => by
      exact hbuilt req ⟨i, r, cfg, name, (Function.update_self ..).trans hq⟩
    exact ⟨hcache, hupdate hg fun j => (hcalls j).mono hext⟩
  | cancel i => exact ⟨hcache, hupdate (Goroutine.holds_cancel (hcalls i)) hcalls⟩
  | upstream i res => exact ⟨hcache, hupdate (Goroutine.holds_receive (hcalls i) res) hcalls⟩
  | reap =>
    have hshrinks := ISOCache.shrinks_reap s.shared.cache s.shared.clock
    exact ⟨hcache.shrinks hshrinks, fun j => (hcalls j).mono hshrinks.toExtends⟩
  | tick d => exact ⟨hcache, hcalls⟩

end Cache

/-- The image of the request was built in a run. -/
def BuiltIn (s₀ : ServerState) (es : List ServerEvent) (req : IsoRequest) : Prop :=
  Sometime (serverNext env) (·.Builds req) s₀ es

variable {env}

theorem BuiltIn.append {s₀ : ServerState} {es : List ServerEvent} {req : IsoRequest} (h : BuiltIn env s₀ es req)
    (es' : List ServerEvent) : BuiltIn env s₀ (es ++ es') req := Sometime.append h es'

theorem builtIn_now {s₀ : ServerState} {es : List ServerEvent} {req : IsoRequest}
    (h : (runEvents (serverNext env) s₀ es).Builds req) : BuiltIn env s₀ es req := ⟨es, [], by simp, h⟩

/-- What is in the cache was built in the run. -/
theorem cacheGood_run {s₀ : ServerState} (hidle : ∀ i, s₀.goroutines i = .idle)
    (hcache : env.iso.Good (fun _ => False) env.unicode s₀.shared.cache) (es : List ServerEvent) :
    (runEvents (serverNext env) s₀ es).CacheGood env (BuiltIn env s₀ es) := by
  refine runEvents_induction (P := fun es (s : ServerState) => s.CacheGood env (BuiltIn env s₀ es)) ?_
    (fun es e hs => ?_) es
  · exact ⟨hcache.imp fun _ => False.elim, fun i => by rw [hidle i]; trivial⟩
  · refine hs.next (fun req h => h.append [e]) e fun req h => builtIn_now ?_
    rw [runEvents_concat]
    exact h

end MaasBoot
