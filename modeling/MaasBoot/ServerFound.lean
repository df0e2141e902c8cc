import MaasBoot.ServerReplies

/-!
# A node that is in the nodes file is found

A request that does not find its node reloads the files and looks again.  So as long as every content of the nodes
file has a record for a node, no request misses it, whatever the node store has loaded before, how often the file is
replaced, and which other reloads are under way (`recorded_node_found`).
-/

namespace MaasBoot

/-! ### Reloads of the nodes -/

/-- A call of `NodeStore.Reload` that has met with no failure. -/
def Phase.active : Phase → Bool
  | .start | .checking _ | .parsing _ | .installing _ _ => true
  | _ => false

/-- There is no call. -/
def Phase.quiet : Phase → Bool
  | .idle | .done _ _ => true
  | _ => false

section Store

variable {env : StoreEnv} {s : StoreState}

theorem loaded_storeNext (hs : s.store.loaded = true) (e : StoreEvent) : (storeNext env s e).store.loaded = true := by
  cases e with
  | file f => exact hs
  | call i =>
    rw [storeNext]
    split <;> exact hs
  | step i =>
    by_cases hinst : ∃ b m, s.calls i = .installing b m
    · obtain ⟨b, m, hinst⟩ := hinst
      rw [storeNext_store, hinst]
      rfl
    · have hserved := served_reloadStep env s.file s.store fun b m h => hinst ⟨b, m, h⟩
      simp only [NodeStore.served, Prod.mk.injEq] at hserved
      rw [storeNext_store, hserved.2.2, hs]

/-- With a file whose contents can all be parsed a call goes on until the nodes are loaded. -/
theorem active_storeNext (hgood : s.Good env) (hpath : env.path ≠ []) (hfile : ∃ b, s.file = .content b)
    (hheld : ∀ b ∈ s.held, ∃ nodes, parseNodes env b = .ok nodes) {i : Nat} (hi : (s.calls i).active = true) :
    ((storeNext env s (.step i)).calls i).active = true ∨
      (∃ changed err, (storeNext env s (.step i)).calls i = .done changed err) ∧
        (storeNext env s (.step i)).store.loaded = true := by
  have hholds := hgood.calls i
  rw [storeNext_calls_self, storeNext_store]
  cases hq : s.calls i with
  | start =>
    obtain ⟨b, hb⟩ := hfile
    rw [hb]
    simp only [reloadStep, if_neg hpath]
    exact .inl rfl
  | checking b =>
    rw [reloadStep]
    split
    · rename_i hsame
      exact .inr ⟨⟨_, _, rfl⟩, hsame.1⟩
    · exact .inl rfl
  | parsing b =>
    rw [hq] at hholds
    obtain ⟨nodes, hnodes⟩ := hheld b hholds
    rw [reloadStep, hnodes]
    exact .inl rfl
  | installing b nodes => exact .inr ⟨⟨_, _, rfl⟩, rfl⟩
  | _ =>
    rw [hq] at hi
    cases hi

/-- A call of a goroutine that has none starts. -/
theorem active_call (env : StoreEnv) {i : Nat} (hi : (s.calls i).quiet = true) :
    ((storeNext env s (.call i)).calls i).active = true := by
  rw [storeNext]
  cases hq : s.calls i with
  | idle =>
    dsimp only
    rw [Function.update_self]
    rfl
  | done changed err =>
    dsimp only
    rw [Function.update_self]
    rfl
  | _ =>
    rw [hq] at hi
    cases hi

end Store

/-! ### Goroutines -/

/-- The goroutine is in `NodeStore.Reload`. -/
def Goroutine.reloadsNodes : Goroutine → Bool
  | .serving _ _ (.resolving _ _ _ (.reload .nodes)) => true
  | .reloading .nodes => true
  | _ => false

/-- The goroutine is about to look into the node store after a reload. -/
def Goroutine.rechecks : Goroutine → Bool
  | .serving _ _ (.resolving _ _ _ (.nodes true)) => true
  | _ => false

variable {R : Type} (env : ServerEnv R)

/-- The content has a record under the key. -/
def HasRecord (norm b : Bytes) : Prop :=
  ∃ nodes n, parseNodes env.store b = .ok nodes ∧ nodes.lookup (normalizeKey env.unicode norm) = some n

/-- The call of `NodeStore.Reload` of a goroutine is where the goroutine is, and after it the nodes are loaded. -/
structure Synced (s : Shared) (i : Nat) (g : Goroutine) : Prop where
  call : if g.reloadsNodes then (s.nodes.calls i).active = true else (s.nodes.calls i).quiet = true
  loaded : g.rechecks = true → s.nodes.store.loaded = true

/-- Every content of the nodes file so far has the record. -/
structure Keeps (norm : Bytes) (s : ServerState) : Prop where
  nodes : s.shared.nodes.Good env.store
  file : ∃ b, s.shared.nodes.file = .content b
  held : ∀ b ∈ s.shared.nodes.held, HasRecord env norm b
  synced : ∀ i, Synced s.shared i (s.goroutines i)

variable {env}

/-- A goroutine that neither reloads nor has reloaded. -/
theorem Synced.of_other {s : Shared} {i : Nat} {g : Goroutine} (hcall : (s.nodes.calls i).quiet = true)
    (hreload : g.reloadsNodes = false) (hcheck : g.rechecks = false) : Synced s i g :=
  ⟨by rw [hreload]; exact hcall, by simp [hcheck]⟩

section Other

variable (env) (r : HttpRequest) (cfg : Config)

theorem other_resolved (purpose : Purpose) (node : Option Node) :
    (Goroutine.serving r cfg (resolved env r cfg purpose node)).reloadsNodes = false ∧
      (Goroutine.serving r cfg (resolved env r cfg purpose node)).rechecks = false := by
  cases purpose <;> cases node <;> exact ⟨rfl, rfl⟩

theorem other_resolve (now : Int) (purpose : Purpose) (mac : Bytes) :
    (Goroutine.serving r cfg (startResolving env now r cfg purpose mac)).reloadsNodes = false ∧
      (Goroutine.serving r cfg (startResolving env now r cfg purpose mac)).rechecks = false := by
  unfold startResolving
  dsimp only
  split
  · exact other_resolved ..
  · exact ⟨rfl, rfl⟩

theorem other_serve (now : Int) :
    (Goroutine.serving r cfg (serve env now r cfg)).reloadsNodes = false ∧
      (Goroutine.serving r cfg (serve env now r cfg)).rechecks = false := by
  unfold serve
  split
  · exact ⟨rfl, rfl⟩
  · exact ⟨rfl, rfl⟩
  · exact other_resolve ..
  · exact ⟨rfl, rfl⟩
  · split <;> exact ⟨rfl, rfl⟩

theorem other_receive (genesisMAC : Bytes) (res : UpstreamResult) :
    (Goroutine.serving r cfg (receive r genesisMAC res)).reloadsNodes = false ∧
      (Goroutine.serving r cfg (receive r genesisMAC res)).rechecks = false := by
  unfold receive
  split
  · exact ⟨rfl, rfl⟩
  · split
    · exact ⟨rfl, rfl⟩
    · split <;> exact ⟨rfl, rfl⟩

/-- All steps of a request but those of `Reload`. -/
theorem other_handlerStep (i : Nat) (order : VisitOrder) (s : Shared) {q : HandlerPhase}
    (hq : ∀ purpose norm deadline q', q ≠ .resolving purpose norm deadline (.reload q')) :
    (handlerStep env i order r cfg s q).1.nodes = s.nodes ∧
      (Goroutine.serving r cfg (handlerStep env i order r cfg s q).2).reloadsNodes = false ∧
      (Goroutine.serving r cfg (handlerStep env i order r cfg s q).2).rechecks = false := by
  cases q with
  | resolving purpose norm deadline q =>
    cases q with
    | reload q => exact absurd rfl (hq purpose norm deadline q)
    | config again =>
      rw [handlerStep, resolveStep]
      cases s.config.server.cfg.nodes.lookup norm with
      | some node => exact ⟨rfl, other_resolved env r cfg purpose (some node)⟩
      | none => cases again <;> exact ⟨rfl, rfl, rfl⟩
    | nodes again =>
      rw [handlerStep, resolveStep]
      cases s.nodes.store.get env.store norm with
      | some node => exact ⟨rfl, other_resolved env r cfg purpose (some node)⟩
      | none => exact ⟨rfl, rfl, rfl⟩
    | deadline =>
      rw [handlerStep, resolveStep]
      by_cases h : s.clock < deadline
      · rw [if_pos h]
        exact ⟨rfl, rfl, rfl⟩
      · rw [if_neg h]
        exact ⟨rfl, other_resolved env r cfg purpose none⟩
    | waiting since =>
      rw [handlerStep, resolveStep]
      by_cases h : since + missPollInterval ≤ s.clock
      · rw [if_pos h]
        exact ⟨rfl, rfl, rfl⟩
      · rw [if_neg h]
        exact ⟨rfl, rfl, rfl⟩
  | composing name q =>
    rw [handlerStep]
    split <;> exact ⟨rfl, rfl, rfl⟩
  | forwarding genesisMAC up => exact ⟨rfl, rfl, rfl⟩
  | rewriting genesisMAC code header body =>
    rw [handlerStep]
    split
    · exact ⟨rfl, rfl, rfl⟩
    · dsimp only
      split
      · exact ⟨rfl, rfl, rfl⟩
      · exact ⟨rfl, other_resolve env r cfg ..⟩
  | done reply => exact ⟨rfl, rfl, rfl⟩

end Other

/-- A step of `Server.Reload`. -/
theorem reloadServerStep_synced {norm : Bytes} {s : Shared} (hpath : env.nodesPath ≠ [])
    (hgood : s.nodes.Good env.store) (hfile : ∃ b, s.nodes.file = .content b)
    (hheld : ∀ b ∈ s.nodes.held, HasRecord env norm b) (i : Nat)
    (order : VisitOrder) {q : ReloadPhase}
    (hcall : if q = .nodes then (s.nodes.calls i).active = true else (s.nodes.calls i).quiet = true) :
    (∃ q', (reloadServerStep env i order s q).2 = some q' ∧
      if q' = .nodes then ((reloadServerStep env i order s q).1.nodes.calls i).active = true
      else ((reloadServerStep env i order s q).1.nodes.calls i).quiet = true) ∨
    (reloadServerStep env i order s q).2 = none ∧ ((reloadServerStep env i order s q).1.nodes.calls i).quiet = true ∧
      (reloadServerStep env i order s q).1.nodes.store.loaded = true := by
  cases q with
  | start => exact .inl ⟨.config, rfl, hcall⟩
  | config =>
    rw [reloadServerStep]
    split
    · exact .inl ⟨.nodes, rfl, active_call env.store hcall⟩
    · exact .inl ⟨.config, rfl, hcall⟩
  | nodes =>
    have hparse : ∀ b ∈ s.nodes.held, ∃ nodes, parseNodes env.store b = .ok nodes := by
      intro b hb
      obtain ⟨nodes, -, h, -⟩ := hheld b hb
      exact ⟨nodes, h⟩
    have hnext := active_storeNext hgood hpath hfile hparse hcall
    rw [reloadServerStep]
    split
    · rename_i changed err hdone
      refine .inr ⟨rfl, by rw [hdone]; rfl, ?_⟩
      rcases hnext with hactive | ⟨-, hloaded⟩
      · rw [hdone] at hactive
        cases hactive
      · exact hloaded
    · rename_i hnot
      rcases hnext with hactive | ⟨⟨changed, err, hdone⟩, -⟩
      · exact .inl ⟨.nodes, rfl, hactive⟩
      · exact absurd hdone (hnot changed err)

/-- A step of a goroutine. -/
theorem Synced.step {norm : Bytes} {s : Shared} (hpath : env.nodesPath ≠ []) (hgood : s.nodes.Good env.store)
    (hfile : ∃ b, s.nodes.file = .content b) (hheld : ∀ b ∈ s.nodes.held, HasRecord env norm b) {i : Nat}
    {g : Goroutine} (hg : Synced s i g) (order : VisitOrder) :
    Synced (goroutineStep env i order s g).1 i (goroutineStep env i order s g).2 := by
  have hcall := hg.call
  cases g with
  | idle => exact hg
  | arrived r =>
    obtain ⟨hreload, hcheck⟩ := other_serve env r s.config.server.cfg s.clock
    exact .of_other hcall hreload hcheck
  | ended => exact hg
  | reloading q =>
    have hstep := reloadServerStep_synced hpath hgood hfile hheld i order (q := q) (by cases q <;> exact hcall)
    rw [goroutineStep]
    split
    · rename_i s' q' heq
      rw [heq] at hstep
      rcases hstep with ⟨q'', hq, hstep⟩ | ⟨hq, -⟩
      · obtain rfl := Option.some.inj hq
        exact ⟨by cases q' <;> exact hstep, by simp [Goroutine.rechecks]⟩
      · cases hq
    · rename_i s' heq
      rw [heq] at hstep
      rcases hstep with ⟨q'', hq, -⟩ | ⟨-, hquiet, -⟩
      · cases hq
      · exact .of_other hquiet rfl rfl
  | serving r cfg q =>
    by_cases hreload : ∃ purpose norm' deadline q', q = .resolving purpose norm' deadline (.reload q')
    · obtain ⟨purpose, norm', deadline, q, rfl⟩ := hreload
      have hstep := reloadServerStep_synced hpath hgood hfile hheld i order (q := q) (by cases q <;> exact hcall)
      rw [goroutineStep, handlerStep, resolveStep]
      obtain ⟨s', q', heq⟩ : ∃ s' q', reloadServerStep env i order s q = (s', q') := ⟨_, _, rfl⟩
      rw [heq] at hstep ⊢
      cases q' with
      | some q' =>
        rcases hstep with ⟨q'', hq, hstep⟩ | ⟨hq, -⟩
        · obtain rfl := Option.some.inj hq
          exact ⟨by cases q' <;> exact hstep, by simp [Goroutine.rechecks]⟩
        · cases hq
      | none =>
        rcases hstep with ⟨q'', hq, -⟩ | ⟨-, hquiet, hloaded⟩
        · cases hq
        · exact ⟨hquiet, fun _ => hloaded⟩
    · have hq : ∀ purpose norm' deadline q', q ≠ .resolving purpose norm' deadline (.reload q') :=
        fun purpose norm' deadline q' h => hreload ⟨purpose, norm', deadline, q', h⟩
      obtain ⟨hnodes, hother⟩ := other_handlerStep env r cfg i order s hq
      have hquiet : (Goroutine.serving r cfg q).reloadsNodes = false := by
        cases q with
        | resolving purpose norm' deadline q =>
          cases q with
          | reload q => exact absurd rfl (hq purpose norm' deadline q)
          | _ => rfl
        | _ => rfl
      rw [hquiet] at hcall
      refine .of_other ?_ hother.1 hother.2
      rw [goroutineStep, hnodes]
      exact hcall

/-- What another goroutine's step does. -/
theorem Synced.other {s s' : Shared} {i : Nat} {g : Goroutine} (hg : Synced s i g)
    (hcalls : s'.nodes.calls i = s.nodes.calls i)
    (hloaded : s.nodes.store.loaded = true → s'.nodes.store.loaded = true) :
    Synced s' i g :=
  ⟨by rw [hcalls]; exact hg.call, fun h => hloaded (hg.loaded h)⟩

theorem Synced.start {s : Shared} {i : Nat} {new g : Goroutine} (hnew : new.reloadsNodes = false)
    (hcheck : new.rechecks = false) (hg : Synced s i g) : Synced s i (g.start new) := by
  cases g with
  | idle => exact .of_other hg.call hnew hcheck
  | _ => exact hg

theorem Synced.cancel {s : Shared} {i : Nat} {g : Goroutine} (hg : Synced s i g) : Synced s i (g.cancel env) := by
  unfold Goroutine.cancel
  split
  · exact .of_other hg.call (other_resolved env _ _ _ none).1 (other_resolved env _ _ _ none).2
  · exact hg

theorem Synced.receive {s : Shared} {i : Nat} {g : Goroutine} (hg : Synced s i g) (res : UpstreamResult) :
    Synced s i (g.receive res) := by
  unfold Goroutine.receive
  split
  · exact .of_other hg.call (other_receive ..).1 (other_receive ..).2
  · exact hg

/-! ### Runs -/

theorem file_held_storeNext (env : StoreEnv) (s : StoreState) {i : Nat} {e : StoreEvent}
    (he : e = .call i ∨ e = .step i) :
    (storeNext env s e).file = s.file ∧ (storeNext env s e).held = s.held := by
  rcases he with rfl | rfl
  · rw [storeNext]
    split <;> exact ⟨rfl, rfl⟩
  · exact ⟨record_file s i, storeNext_held env s i⟩

variable (env) in
/-- The event does not take the record out of the nodes file. -/
def KeepsRecord (norm : Bytes) (e : ServerEvent) : Prop :=
  ∀ f, e = .nodesFile f → ∃ b, f = .content b ∧ HasRecord env norm b

theorem Keeps.next {norm : Bytes} (hpath : env.nodesPath ≠ []) {s : ServerState} (hs : Keeps env norm s)
    {e : ServerEvent} (he : KeepsRecord env norm e) : Keeps env norm (serverNext env s e) := by
  have hupdate : ∀ {i : Nat} {g : Goroutine}, Synced s.shared i g →
      ∀ j, Synced s.shared j (Function.update s.goroutines i g j) := fun hg =>
    (Function.forall_update_iff _ fun j (g : Goroutine) => Synced s.shared j g).mpr ⟨hg, fun j _ => hs.synced j⟩
  cases e with
  | configFile f => exact ⟨hs.nodes, hs.file, hs.held, fun j => (hs.synced j).other rfl id⟩
  | nodesFile f =>
    obtain ⟨b, rfl, hb⟩ := he f rfl
    refine ⟨hs.nodes.next env.store (.file (.content b)), ⟨b, rfl⟩, ?_, fun j => (hs.synced j).other rfl id⟩
    intro b' hb'
    rcases List.mem_append.mp hb' with hb' | hb'
    · exact hs.held b' hb'
    · obtain rfl := List.mem_singleton.mp hb'
      exact hb
  | request i r => exact ⟨hs.nodes, hs.file, hs.held, hupdate ((hs.synced i).start rfl rfl)⟩
  | reload i => exact ⟨hs.nodes, hs.file, hs.held, hupdate ((hs.synced i).start rfl rfl)⟩
  | step i order =>
    have hself := (hs.synced i).step hpath hs.nodes hs.file hs.held order
    rcases nodes_goroutineStep env i order s.shared (s.goroutines i) with h | ⟨e, he, h⟩
    · have hother : ∀ j, Synced (goroutineStep env i order s.shared (s.goroutines i)).1 j (s.goroutines j) := fun j =>
        (hs.synced j).other (by rw [h]) (by rw [h]; exact id)
      refine ⟨?_, ?_, ?_, ?_⟩
      · rw [serverNext, h]
        exact hs.nodes
      · rw [serverNext, h]
        exact hs.file
      · rw [serverNext, h]
        exact hs.held
      · exact (Function.forall_update_iff _ fun j (g : Goroutine) => Synced _ j g).mpr ⟨hself, fun j _ => hother j⟩
    · obtain ⟨hfile, hheld⟩ := file_held_storeNext env.store s.shared.nodes he
      have hother : ∀ j, j ≠ i → Synced (goroutineStep env i order s.shared (s.goroutines i)).1 j
          (s.goroutines j) := by
        intro j hj
        refine (hs.synced j).other ?_ ?_
        · exact (calls_goroutineStep env i order s.shared (s.goroutines i) hj).2
        · rw [h]
          exact fun hl => loaded_storeNext hl e
      refine ⟨?_, ?_, ?_, ?_⟩
      · rw [serverNext, h]
        exact hs.nodes.next env.store e
      · rw [serverNext, h, hfile]
        exact hs.file
      · rw [serverNext, h, hheld]
        exact hs.held
      · exact (Function.forall_update_iff _ fun j (g : Goroutine) => Synced _ j g).mpr ⟨hself, hother⟩
  | cancel i => exact ⟨hs.nodes, hs.file, hs.held, hupdate (hs.synced i).cancel⟩
  | upstream i res => exact ⟨hs.nodes, hs.file, hs.held, hupdate ((hs.synced i).receive res)⟩
  | reap => exact ⟨hs.nodes, hs.file, hs.held, fun j => (hs.synced j).other rfl id⟩
  | tick d => exact ⟨hs.nodes, hs.file, hs.held, fun j => (hs.synced j).other rfl id⟩

/-- After a reload the record is in the node store. -/
theorem Keeps.get_ne_none {norm : Bytes} {s : ServerState} (hs : Keeps env norm s) {i : Nat}
    (hi : ResolvingAt i s norm (.nodes true)) : s.shared.nodes.store.get env.store norm ≠ none := by
  obtain ⟨r, cfg, purpose, deadline, hgi⟩ := hi
  have hloaded := (hs.synced i).loaded (by rw [hgi]; rfl)
  have hserves := hs.nodes.serves
  unfold Serves at hserves
  cases hinst : s.shared.nodes.installed with
  | none =>
    rw [hinst] at hserves
    rw [hserves.1] at hloaded
    cases hloaded
  | some b =>
    rw [hinst] at hserves
    obtain ⟨hb, -, -, hparse⟩ := hserves
    obtain ⟨nodes, n, hnodes, hn⟩ := hs.held b hb
    obtain rfl := Except.ok.inj (hparse.symm.trans hnodes)
    rw [NodeStore.get]
    exact Option.ne_none_iff_exists'.mpr ⟨n, hn⟩

theorem not_missedNodes {norm : Bytes} (hpath : env.nodesPath ≠ []) (configFile : FileState) {b₀ : Bytes}
    (hb₀ : HasRecord env norm b₀) (order : VisitOrder) (ttl clock : Int) {es : List ServerEvent}
    (hes : ∀ e ∈ es, KeepsRecord env norm e) (i : Nat) :
    ¬ (evidence env (.start env configFile (.content b₀) order ttl clock) es i).missedNodes norm := by
  rintro ⟨es₁, es₂, rfl, hresolving, hnone⟩
  have hstart : Keeps env norm (.start env configFile (.content b₀) order ttl clock) := by
    refine ⟨StoreState.good_init env.store _, ⟨b₀, rfl⟩, fun b hb => ?_, fun j => .of_other rfl rfl rfl⟩
    obtain rfl := List.mem_singleton.mp hb
    exact hb₀
  have hkeeps := (along_of_forall_mem fun e he => hes e (List.mem_append_left _ he)).invariant (Keeps env norm)
    (fun _ _ he hs => hs.next hpath he) hstart
  exact hkeeps.get_ne_none hresolving hnone

/-- If the first content of the nodes file and every content that it is replaced by have a record for a node, then
no request misses the node.  A request for its image gets an image, or the error of building one, for a record of
the node seen meanwhile: an image that was built in the run for a request with the same key and the same config
hash, hence the one of this record unless another image was built for these; and an iPXE script of the rack for the
node gets the parameters of such a record. -/
theorem recorded_node_found (norm : Bytes) (hnorm : norm ≠ []) (hpath : env.nodesPath ≠ []) (configFile : FileState)
    (b₀ : Bytes) (hb₀ : HasRecord env norm b₀) (order : VisitOrder) (ttl clock : Int) (es : List ServerEvent)
    (hes : ∀ e ∈ es, KeepsRecord env norm e) (i : Nat) (r : HttpRequest) (cfg : Config) (reply : Reply)
    (h : (serverRun env configFile (.content b₀) order ttl clock es).goroutines i = .serving r cfg (.done reply)) :
    let ev := evidence env (.start env configFile (.content b₀) order ttl clock) es i
    let u := env.unicode
    (∀ rawMAC, route u cfg r.toRequest = .nodeISO rawMAC → normalizeKey u (isoMAC u rawMAC) = norm →
      ∃ n, ev.seen norm n ∧
        let req := IsoRequest.node n (isoMAC u rawMAC) (cfg.base r.host)
        (∃ t data, env.iso.Cached ev.built u (ISOCache.key u (env.iso.key req)) (env.iso.hash req) data ∧
          (env.iso.Tells ev.built u req → env.iso.build req = .ok data) ∧
          reply = .content (str "application/x-iso9660-image")
          (str "ipxe-" ++ isoMAC u rawMAC ++ str ".iso") t data) ∨
        ∃ err, env.iso.build req = .error err ∧
          reply = .error (str "failed to build ISO") (isoErrorStatus env.ipxeEFI)) ∧
    ∀ genesisMAC upURL, route u cfg r.toRequest = .upstream genesisMAC upURL → isBinary r.path = false →
      r.method = str "GET" → ipxeMAC r.path genesisMAC ≠ [] → normalizeKey u (ipxeMAC r.path genesisMAC) = norm →
      (∃ n code header body, ev.seen norm n ∧ Rewritten env ev r cfg genesisMAC code header body ∧
        reply = rewritten code header (injectNode u cfg.overlayURL (cfg.base r.host) n body)) ∨
      ∃ text code, code ∈ [500, 502] ∧ reply = .error text code := by
  intro ev u
  have hmissed : ¬ ev.Missed norm := by
    rintro (hnil | ⟨hnodes, -⟩)
    · exact hnorm hnil
    · exact not_missedNodes hpath configFile hb₀ order ttl clock hes i hnodes
  have hexpected : Expected env ev r cfg reply := (expected_serverRun h).2
  constructor
  · rintro rawMAC hroute rfl
    rcases hexpected.nodeISO_cases hroute with ⟨hmissed', -⟩ | ⟨n, hseen, ⟨t, data, hcached, hreply⟩ | herr⟩
    · exact absurd hmissed' hmissed
    · exact ⟨n, hseen, .inl ⟨t, data, hcached, fun htells => htells.build_eq hcached, hreply⟩⟩
    · exact ⟨n, hseen, .inr herr⟩
  · rintro genesisMAC upURL hroute hbinary hmethod hmac rfl
    rcases hexpected.upstream_cases hroute hbinary hmethod with herr | ⟨code, header, body, hbody, hreply⟩
    · exact .inr herr
    · rcases hreply with ⟨hmac', -⟩ | ⟨n, -, hseen, hreply⟩
      · exact absurd (hmac'.resolve_left hmac) hmissed
      · exact .inl ⟨n, code, header, body, hseen, hbody, hreply⟩

set_option maxRecDepth 4096 in
theorem hasRecord_uplinksDoc : HasRecord sampleServerEnv sampleKey uplinksDoc := ⟨_, uplinksNode, rfl, rfl⟩

/-- The node of `uplinksDoc` is found, and its image is served. -/
theorem recorded_node_found_sample : HasRecord sampleServerEnv sampleKey uplinksDoc ∧ ∃ t data n,
    (sampleRun sampleEvents).goroutines 0 = .serving sampleISORequest sampleConfig
      (.done (.content (str "application/x-iso9660-image") (str "ipxe-02:5e:1c:9a:47:d3.iso") t data)) ∧
    (evidence sampleServerEnv (.start sampleServerEnv .missing (.content uplinksDoc) sampleOrder 0 0) sampleEvents
      0).seen sampleKey n := by
  obtain ⟨t, data, -, hrun⟩ := sampleRun_served
  have hes : ∀ e ∈ sampleEvents, KeepsRecord sampleServerEnv sampleKey e := by
    intro e he f hf
    rw [hf] at he
    simp [sampleEvents] at he
  obtain ⟨n, hseen, -⟩ := (recorded_node_found sampleKey (by decide)
    (by decide) .missing uplinksDoc hasRecord_uplinksDoc sampleOrder 0 0 sampleEvents hes 0 sampleISORequest
    sampleConfig _ hrun).1 sampleKey (by decide) (by decide)
  exact ⟨hasRecord_uplinksDoc, t, data, n, hrun, hseen⟩

end MaasBoot
