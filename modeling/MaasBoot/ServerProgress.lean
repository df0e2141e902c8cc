import MaasBoot.ServerReplies

/-!
# Requests are answered

No goroutine waits for another one: the steps that a request has left to take are bounded by numbers that other
goroutines cannot raise.  A request that looks for its node does so once, and then once more for every
`missPollInterval` that fits into `missWait`.  So after a fixed number of steps of its own, not counting those at
which it waits for the time to go by or for the rack, a request is answered (`request_answered`).
-/

namespace MaasBoot

/-! ### Calls of `reloadConfig` and `NodeStore.Reload` -/

/-- The steps that a call has left to take, at most. -/
def ConfigPhase.left : ConfigPhase → Nat
  | .start => 4
  | .checking _ => 3
  | .parsing _ => 2
  | .installing _ _ => 1
  | _ => 0

/-- The steps that a call has left to take, at most. -/
def Phase.left : Phase → Nat
  | .start => 4
  | .checking _ => 3
  | .counting => 2
  | .parsing _ => 2
  | .noting _ _ => 1
  | .installing _ _ => 1
  | _ => 0

theorem left_reloadConfigStep (env : ConfigEnv) (file : FileState) (order : VisitOrder) (s : ConfigServer)
    {q : ConfigPhase} (hq : 0 < q.left) : (reloadConfigStep env file order s q).2.left < q.left ∧
      ((reloadConfigStep env file order s q).2.left = 0 → ∃ res, (reloadConfigStep env file order s q).2 =
        .done res) := by
  cases q with
  | start =>
    rw [reloadConfigStep.eq_def]
    dsimp only
    split
    · exact ⟨by simp [ConfigPhase.left], fun _ => ⟨_, rfl⟩⟩
    · split
      · exact ⟨by simp [ConfigPhase.left], fun h => by cases h⟩
      · exact ⟨by simp [ConfigPhase.left], fun _ => ⟨_, rfl⟩⟩
      · exact ⟨by simp [ConfigPhase.left], fun _ => ⟨_, rfl⟩⟩
  | checking b =>
    rw [reloadConfigStep]
    split
    · exact ⟨by simp [ConfigPhase.left], fun _ => ⟨_, rfl⟩⟩
    · exact ⟨by simp [ConfigPhase.left], fun h => by cases h⟩
  | parsing b =>
    rw [reloadConfigStep]
    split
    · exact ⟨by simp [ConfigPhase.left], fun _ => ⟨_, rfl⟩⟩
    · exact ⟨by simp [ConfigPhase.left], fun h => by cases h⟩
  | installing b c => exact ⟨Nat.one_pos, fun _ => ⟨_, rfl⟩⟩
  | idle => cases hq
  | done res => cases hq

theorem left_reloadStep (env : StoreEnv) (file : FileState) (s : NodeStore) {q : Phase} (hq : 0 < q.left) :
    (reloadStep env file s q).2.left < q.left ∧
      ((reloadStep env file s q).2.left = 0 → ∃ changed err, (reloadStep env file s q).2 = .done changed err) := by
  cases q with
  | start =>
    rw [reloadStep.eq_def]
    dsimp only
    split
    · exact ⟨by simp [Phase.left], fun _ => ⟨_, _, rfl⟩⟩
    · split
      · exact ⟨by simp [Phase.left], fun h => by cases h⟩
      · exact ⟨by simp [Phase.left], fun h => by cases h⟩
      · exact ⟨by simp [Phase.left], fun h => by cases h⟩
  | counting => exact ⟨Nat.one_lt_two, fun h => by cases h⟩
  | noting msg err => exact ⟨Nat.one_pos, fun _ => ⟨_, _, rfl⟩⟩
  | checking b =>
    rw [reloadStep]
    split
    · exact ⟨by simp [Phase.left], fun _ => ⟨_, _, rfl⟩⟩
    · exact ⟨by simp [Phase.left], fun h => by cases h⟩
  | parsing b =>
    rw [reloadStep]
    split
    · exact ⟨by simp [Phase.left], fun h => by cases h⟩
    · exact ⟨by simp [Phase.left], fun h => by cases h⟩
  | installing b nodes => exact ⟨Nat.one_pos, fun _ => ⟨_, _, rfl⟩⟩
  | idle => cases hq
  | done changed err => cases hq

/-- A call that has returned, or was never made, starts anew. -/
theorem calls_configNext_call (env : ConfigEnv) {s : ConfigState} {i : Nat} (h : (s.calls i).left = 0) :
    (configNext env s (.call i)).calls i = .start := by
  rw [configNext]
  cases hq : s.calls i with
  | idle => exact Function.update_self ..
  | done res => exact Function.update_self ..
  | _ =>
    rw [hq] at h
    cases h

theorem calls_storeNext_call (env : StoreEnv) {s : StoreState} {i : Nat} (h : (s.calls i).left = 0) :
    (storeNext env s (.call i)).calls i = .start := by
  rw [storeNext]
  cases hq : s.calls i with
  | idle => exact Function.update_self ..
  | done changed err => exact Function.update_self ..
  | _ =>
    rw [hq] at h
    cases h

/-! ### Where a goroutine's calls stand -/

/-- The call of `Server.Reload` that the loop of `resolveNode` is in. -/
def ResolvePhase.inReload : ResolvePhase → Option ReloadPhase
  | .reload q => some q
  | _ => none

/-- The call of `Server.Reload` that a goroutine is in. -/
def Goroutine.inReload : Goroutine → Option ReloadPhase
  | .serving _ _ (.resolving _ _ _ q) => q.inReload
  | .reloading q => some q
  | _ => none

/-- A goroutine has calls under way exactly where it is in them. -/
structure Placed (s : Shared) (i : Nat) (q : Option ReloadPhase) : Prop where
  config : 0 < (s.config.calls i).left ↔ q = some .config
  nodes : 0 < (s.nodes.calls i).left ↔ q = some .nodes

/-- The steps that a call of `Server.Reload` has left to take, at most. -/
def reloadWork (s : Shared) (i : Nat) : ReloadPhase → Nat
  | .start => 9
  | .config => (s.config.calls i).left + 4
  | .nodes => (s.nodes.calls i).left

variable {R : Type} (env : ServerEnv R)

/-- A step of `Server.Reload`. -/
theorem Placed.reloadServerStep {s : Shared} {i : Nat} {q : ReloadPhase} (h : Placed s i (some q))
    (order : VisitOrder) :
    Placed (reloadServerStep env i order s q).1 i (reloadServerStep env i order s q).2 ∧ 0 < reloadWork s i q ∧
      ∀ q', (MaasBoot.reloadServerStep env i order s q).2 = some q' →
        reloadWork (MaasBoot.reloadServerStep env i order s q).1 i q' < reloadWork s i q := by
  obtain ⟨hconfig, hnodes⟩ := h
  cases q with
  | start =>
    have hc : (s.config.calls i).left = 0 := by simpa using hconfig
    have hn : (s.nodes.calls i).left = 0 := by simpa using hnodes
    have hcalls := calls_configNext_call env.config hc
    simp only [MaasBoot.reloadServerStep]
    refine ⟨⟨?_, ?_⟩, Nat.succ_pos _, ?_⟩
    · simp [hcalls, ConfigPhase.left]
    · simp [hn]
    · rintro q' ⟨rfl⟩
      simp [reloadWork, hcalls, ConfigPhase.left]
  | config =>
    have hpos : 0 < (s.config.calls i).left := hconfig.mpr rfl
    have hn : (s.nodes.calls i).left = 0 := by simpa using hnodes
    obtain ⟨hlt, hdone⟩ := left_reloadConfigStep env.config s.config.file order s.config.server hpos
    have hcalls : (configNext env.config s.config (.step i order)).calls i =
        (reloadConfigStep env.config s.config.file order s.config.server (s.config.calls i)).2 :=
          Function.update_self ..
    rw [← hcalls] at hlt hdone
    have hstart := calls_storeNext_call env.store hn
    rw [MaasBoot.reloadServerStep]
    split
    · rename_i res hres
      refine ⟨⟨?_, ?_⟩, Nat.add_pos_left hpos 4, ?_⟩
      · simp [hres, ConfigPhase.left]
      · simp [hstart, Phase.left]
      · rintro q' ⟨rfl⟩
        simpa [reloadWork, hstart, Phase.left] using hpos
    · rename_i hnot
      have hpos' : 0 < ((configNext env.config s.config (.step i order)).calls i).left := by
        by_contra h0
        obtain ⟨res, hres⟩ := hdone (by omega)
        exact hnot res hres
      refine ⟨⟨iff_of_true hpos' rfl, by simp [hn]⟩, Nat.add_pos_left hpos 4, ?_⟩
      rintro q' ⟨rfl⟩
      simpa [reloadWork] using hlt
  | nodes =>
    have hc : (s.config.calls i).left = 0 := by simpa using hconfig
    have hpos : 0 < (s.nodes.calls i).left := hnodes.mpr rfl
    obtain ⟨hlt, hdone⟩ := left_reloadStep env.store s.nodes.file s.nodes.store hpos
    rw [← storeNext_calls_self] at hlt hdone
    rw [MaasBoot.reloadServerStep]
    split
    · rename_i changed err hres
      exact ⟨⟨by simp [hc], by simp [hres, Phase.left]⟩, hpos, by simp⟩
    · rename_i hnot
      have hpos' : 0 < ((storeNext env.store s.nodes (.step i)).calls i).left := by
        by_contra h0
        obtain ⟨changed, err, hres⟩ := hdone (by omega)
        exact hnot changed err hres
      refine ⟨⟨by simp [hc], iff_of_true hpos' rfl⟩, hpos, ?_⟩
      rintro q' ⟨rfl⟩
      exact hlt

/-! ### The loop of `resolveNode` -/

/-- How often the loop may still go round again. -/
def rounds (deadline now : Int) : Nat := ((deadline - now + (missPollInterval - 1)) / missPollInterval).toNat

theorem rounds_anti {now now' : Int} (h : now ≤ now') (deadline : Int) :
    rounds deadline now' ≤ rounds deadline now := by
  unfold rounds missPollInterval
  omega

/-- Waiting takes up a round. -/
theorem rounds_wait {deadline now : Int} (h : now < deadline) :
    rounds deadline (now + missPollInterval) + 1 = rounds deadline now := by
  unfold rounds missPollInterval
  omega

theorem rounds_start (missWait now : Int) : rounds (now + missWait) now = rounds missWait 0 := by
  unfold rounds
  congr 3
  omega

/-- The steps that the loop has left to take, at most: fifteen for every round to come, and those of this round. -/
def resolveWork (s : Shared) (i : Nat) (deadline : Int) : ResolvePhase → Nat
  | .nodes false => 14 + 15 * rounds deadline s.clock
  | .config false => 13 + 15 * rounds deadline s.clock
  | .reload q => reloadWork s i q + 3 + 15 * rounds deadline s.clock
  | .nodes true => 3 + 15 * rounds deadline s.clock
  | .config true => 2 + 15 * rounds deadline s.clock
  | .deadline => 1 + 15 * rounds deadline s.clock
  | .waiting since => 15 + 15 * rounds deadline (since + missPollInterval)

/-- The loop waits for the time to go by. -/
def ResolvePhase.blocked (clock : Int) : ResolvePhase → Bool
  | .waiting since => clock < since + missPollInterval
  | _ => false

/-- A step of the loop that does not wait. -/
theorem resolveWork_step {s : Shared} {i : Nat} {q : ResolvePhase} (h : Placed s i q.inReload)
    (hq : q.blocked s.clock = false) (order : VisitOrder) (norm : Bytes) (deadline : Int) :
    0 < resolveWork s i deadline q ∧
      ((∃ q', (resolveStep env i order norm deadline s q).2 = .inl q' ∧
          resolveWork (resolveStep env i order norm deadline s q).1 i deadline q' < resolveWork s i deadline q ∧
          Placed (resolveStep env i order norm deadline s q).1 i q'.inReload) ∨
        ∃ node, (resolveStep env i order norm deadline s q).2 = .inr node ∧
          Placed (resolveStep env i order norm deadline s q).1 i none) := by
  cases q with
  | nodes again =>
    rw [resolveStep]
    cases s.nodes.store.get env.store norm with
    | some node => cases again <;> exact ⟨by simp [resolveWork], .inr ⟨_, rfl, h⟩⟩
    | none => cases again <;> exact ⟨by simp [resolveWork], .inl ⟨_, rfl, by simp [resolveWork], h⟩⟩
  | config again =>
    rw [resolveStep]
    cases s.config.server.cfg.nodes.lookup norm with
    | some node => cases again <;> exact ⟨by simp [resolveWork], .inr ⟨_, rfl, h⟩⟩
    | none =>
      cases again with
      | true => exact ⟨by simp [resolveWork], .inl ⟨_, rfl, by simp [resolveWork], h⟩⟩
      | false =>
        refine ⟨by simp [resolveWork], .inl ⟨_, rfl, by simp [resolveWork, reloadWork], ?_⟩⟩
        exact ⟨h.config.trans (by simp [ResolvePhase.inReload]), h.nodes.trans (by simp [ResolvePhase.inReload])⟩
  | reload q =>
    obtain ⟨hplaced, hpos, hlt⟩ := h.reloadServerStep env order
    have hclock := (cache_reloadServerStep env i order s q).2
    refine ⟨by rw [resolveWork]; omega, .inl ?_⟩
    rw [resolveStep]
    split
    · rename_i s' q' heq
      rw [heq] at hplaced hlt hclock
      refine ⟨_, rfl, ?_, hplaced⟩
      have hwork := hlt q' rfl
      dsimp only at hclock hwork ⊢
      rw [resolveWork, resolveWork, hclock]
      omega
    · rename_i s' heq
      rw [heq] at hplaced hclock
      refine ⟨_, rfl, ?_, hplaced⟩
      dsimp only at hclock ⊢
      rw [resolveWork, resolveWork, hclock]
      omega
  | deadline =>
    rw [resolveStep]
    split
    · rename_i hlt
      have hwait := rounds_wait hlt
      refine ⟨by simp [resolveWork], .inl ⟨_, rfl, ?_, h⟩⟩
      rw [resolveWork, resolveWork]
      omega
    · exact ⟨by simp [resolveWork], .inr ⟨_, rfl, h⟩⟩
  | waiting since =>
    have hle : since + missPollInterval ≤ s.clock := by simpa [ResolvePhase.blocked] using hq
    have hrounds := rounds_anti hle deadline
    rw [resolveStep, if_pos hle]
    refine ⟨by simp [resolveWork], .inl ⟨_, rfl, ?_, h⟩⟩
    dsimp only
    rw [resolveWork, resolveWork]
    omega

/-! ### Requests -/

/-- The steps that follow on the end of `resolveNode`, at most. -/
def Purpose.work : Purpose → Nat
  | .iso _ _ => 5
  | .ipxe _ _ _ => 0

/-- The steps that a request has left to take, at most. -/
def handlerWork (s : Shared) (i : Nat) : HandlerPhase → Nat
  | .resolving purpose _ deadline q => resolveWork s i deadline q + purpose.work
  | .composing _ q => q.left
  | .forwarding _ _ => 16 + 15 * rounds env.missWait 0
  | .rewriting _ _ _ _ => 15 + 15 * rounds env.missWait 0
  | .done _ => 0

def goroutineWork (s : Shared) (i : Nat) : Goroutine → Nat
  | .arrived _ => 20 + 15 * rounds env.missWait 0
  | .serving _ _ q => handlerWork env s i q
  | _ => 0

/-- The goroutine waits for the time to go by, or for the rack. -/
def Goroutine.blocked (clock : Int) : Goroutine → Bool
  | .serving _ _ (.resolving _ _ _ q) => q.blocked clock
  | .serving _ _ (.forwarding _ _) => true
  | _ => false

/-- A call of `cachedISO` is under way where the goroutine is in it. -/
def Goroutine.Composes : Goroutine → Prop
  | .serving _ _ (.composing _ q) => 0 < q.left
  | _ => True

/-- The calls of a goroutine are where it is in them. -/
structure Orderly (s : Shared) (i : Nat) (g : Goroutine) : Prop where
  placed : Placed s i g.inReload
  composes : g.Composes

section Handler

variable (r : HttpRequest) (cfg : Config) {s : Shared} {i : Nat} (hs : Placed s i none)
include hs

theorem orderly_resolved (purpose : Purpose) (node : Option Node) :
    Orderly s i (.serving r cfg (resolved env r cfg purpose node)) ∧
      handlerWork env s i (resolved env r cfg purpose node) ≤ purpose.work := by
  cases purpose with
  | iso rawMAC normMAC =>
    cases node with
    | none => exact ⟨⟨hs, trivial⟩, Nat.zero_le _⟩
    | some node => exact ⟨⟨hs, Nat.succ_pos _⟩, le_rfl⟩
  | ipxe code header body => cases node <;> exact ⟨⟨hs, trivial⟩, le_rfl⟩

theorem orderly_resolve (now : Int) (hnow : now = s.clock) (purpose : Purpose) (mac : Bytes) :
    Orderly s i (.serving r cfg (startResolving env now r cfg purpose mac)) ∧
      handlerWork env s i (startResolving env now r cfg purpose mac) ≤
        14 + 15 * rounds env.missWait 0 + purpose.work := by
  unfold startResolving
  dsimp only
  split
  · obtain ⟨hreq, hwork⟩ := orderly_resolved env r cfg hs purpose none
    exact ⟨hreq, hwork.trans (Nat.le_add_left ..)⟩
  · refine ⟨⟨hs, trivial⟩, ?_⟩
    rw [handlerWork, resolveWork, hnow, rounds_start]

theorem orderly_serve :
    Orderly s i (.serving r cfg (serve env s.clock r cfg)) ∧
      handlerWork env s i (serve env s.clock r cfg) ≤ 19 + 15 * rounds env.missWait 0 := by
  unfold serve
  split
  · exact ⟨⟨hs, Nat.succ_pos _⟩, by rw [handlerWork, IsoPhase.left]; omega⟩
  · exact ⟨⟨hs, trivial⟩, Nat.zero_le _⟩
  · rename_i rawMAC _
    obtain ⟨hreq, hwork⟩ := orderly_resolve env r cfg hs s.clock rfl (.iso rawMAC (isoMAC env.unicode rawMAC))
      (isoMAC env.unicode rawMAC)
    exact ⟨hreq, hwork.trans (by rw [Purpose.work]; omega)⟩
  · exact ⟨⟨hs, trivial⟩, Nat.zero_le _⟩
  · split
    · exact ⟨⟨hs, trivial⟩, Nat.zero_le _⟩
    · exact ⟨⟨hs, trivial⟩, by rw [handlerWork]; omega⟩

theorem orderly_receive (genesisMAC : Bytes) (res : UpstreamResult) :
    Orderly s i (.serving r cfg (receive r genesisMAC res)) ∧
      handlerWork env s i (receive r genesisMAC res) ≤ 15 + 15 * rounds env.missWait 0 := by
  unfold receive
  split
  · exact ⟨⟨hs, trivial⟩, Nat.zero_le _⟩
  · split
    · exact ⟨⟨hs, trivial⟩, Nat.zero_le _⟩
    · split
      · exact ⟨⟨hs, trivial⟩, le_rfl⟩
      · exact ⟨⟨hs, trivial⟩, Nat.zero_le _⟩

end Handler

/-- The steps of `cachedISO`. -/
theorem left_isoStep (ops : IsoOps IsoRequest GoError) (u : Unicode) (clock : Int) (c : ISOCache)
    {q : IsoPhase IsoRequest GoError} (hq : 0 < q.left) : (cachedISOStep ops u clock c q).2.left < q.left ∧
      ((cachedISOStep ops u clock c q).2.left = 0 → ∃ r res, (cachedISOStep ops u clock c q).2 =
        .returned r res) := by
  have hleft := left_cachedISOStep ops u clock c q
  refine ⟨by omega, fun hzero => ?_⟩
  have hreq := request_cachedISOStep ops u clock c q
  cases hr : q.request with
  | none =>
    cases q with
    | idle => cases hq
    | _ => cases hr
  | some r =>
    obtain ⟨res, hres⟩ := IsoPhase.eq_returned (hreq.trans hr) hzero
    exact ⟨r, res, hres⟩

/-- A step of a goroutine that does not wait. -/
theorem Orderly.step {s : Shared} {i : Nat} {g : Goroutine} (hg : Orderly s i g)
    (hblocked : g.blocked s.clock = false) (order : VisitOrder) :
    Orderly (goroutineStep env i order s g).1 i (goroutineStep env i order s g).2 ∧
      goroutineWork env (goroutineStep env i order s g).1 i (goroutineStep env i order s g).2 ≤
        goroutineWork env s i g - 1 := by
  obtain ⟨h, hq⟩ := hg
  cases g with
  | idle => exact ⟨⟨h, hq⟩, le_rfl⟩
  | ended => exact ⟨⟨h, hq⟩, le_rfl⟩
  | reloading q =>
    obtain ⟨hplaced, -, -⟩ := h.reloadServerStep env order
    rw [goroutineStep]
    split
    · rename_i heq
      rw [heq] at hplaced
      exact ⟨⟨hplaced, trivial⟩, le_rfl⟩
    · rename_i heq
      rw [heq] at hplaced
      exact ⟨⟨hplaced, trivial⟩, le_rfl⟩
  | arrived r =>
    obtain ⟨hreq, hwork⟩ := orderly_serve env r s.config.server.cfg h
    exact ⟨hreq, hwork.trans (by rw [goroutineWork]; omega)⟩
  | serving r cfg q =>
    cases q with
    | resolving purpose norm deadline q =>
      obtain ⟨hpos, hstep⟩ := resolveWork_step env h hblocked order norm deadline
      have hwork : goroutineWork env s i (.serving r cfg (.resolving purpose norm deadline q)) =
          resolveWork s i deadline q + purpose.work := rfl
      rw [hwork, goroutineStep, handlerStep]
      obtain ⟨s', q', heq⟩ : ∃ s' q', resolveStep env i order norm deadline s q = (s', q') := ⟨_, _, rfl⟩
      rw [heq] at hstep ⊢
      rcases hstep with ⟨q'', rfl, hlt, hplaced⟩ | ⟨node, rfl, hplaced⟩
      · refine ⟨⟨hplaced, trivial⟩, ?_⟩
        dsimp only [goroutineWork, handlerWork] at hlt ⊢
        omega
      · obtain ⟨hreq, hwork⟩ := orderly_resolved env r cfg hplaced purpose node
        refine ⟨hreq, ?_⟩
        dsimp only [goroutineWork] at hwork ⊢
        omega
    | composing name q =>
      obtain ⟨hlt, hdone⟩ := left_isoStep env.iso env.unicode s.clock s.cache hq
      have hwork : goroutineWork env s i (.serving r cfg (.composing name q)) = q.left := rfl
      rw [hwork, goroutineStep, handlerStep]
      split
      · exact ⟨⟨⟨h.config, h.nodes⟩, trivial⟩, Nat.zero_le _⟩
      · exact ⟨⟨⟨h.config, h.nodes⟩, trivial⟩, Nat.zero_le _⟩
      · rename_i c q' hok herr heq
        rw [heq] at hlt hdone
        refine ⟨⟨⟨h.config, h.nodes⟩, ?_⟩, Nat.le_sub_one_of_lt hlt⟩
        refine Nat.pos_of_ne_zero fun h0 => ?_
        obtain ⟨req, res, hres⟩ := hdone h0
        cases res with
        | ok p => exact hok req p hres
        | error err => exact herr req err hres
    | forwarding genesisMAC up => cases hblocked
    | rewriting genesisMAC code header body =>
      obtain ⟨body', hres⟩ := rewriteData_eq_ok env body (cfg.base r.host) cfg.rewrites
      have hwork : goroutineWork env s i (.serving r cfg (.rewriting genesisMAC code header body)) =
          15 + 15 * rounds env.missWait 0 := rfl
      rw [hwork, goroutineStep, handlerStep, hres]
      dsimp only
      split
      · exact ⟨⟨h, trivial⟩, Nat.zero_le _⟩
      · obtain ⟨hreq, hwork⟩ := orderly_resolve env r cfg h s.clock rfl (.ipxe code header body')
          (ipxeMAC r.path genesisMAC)
        exact ⟨hreq, hwork.trans (by rw [Purpose.work]; omega)⟩
    | done reply => exact ⟨⟨h, trivial⟩, Nat.zero_le _⟩

/-! ### Runs -/

/-- The calls of a goroutine and the clock are all that its work depends on. -/
theorem goroutineWork_anti {s s' : Shared} {i : Nat} (hconfig : s'.config.calls i = s.config.calls i)
    (hnodes : s'.nodes.calls i = s.nodes.calls i) (hclock : s.clock ≤ s'.clock) (g : Goroutine) :
    goroutineWork env s' i g ≤ goroutineWork env s i g := by
  have hreload : ∀ q, reloadWork s' i q = reloadWork s i q := by
    intro q
    cases q with
    | start => rfl
    | config => rw [reloadWork, reloadWork, hconfig]
    | nodes => rw [reloadWork, reloadWork, hnodes]
  cases g with
  | serving r cfg q =>
    cases q with
    | resolving purpose norm deadline q =>
      have hrounds := rounds_anti hclock deadline
      have hresolve : resolveWork s' i deadline q ≤ resolveWork s i deadline q := by
        cases q with
        | nodes again => cases again <;> simp only [resolveWork] <;> omega
        | config again => cases again <;> simp only [resolveWork] <;> omega
        | reload q =>
          rw [resolveWork, resolveWork, hreload]
          omega
        | deadline => simp only [resolveWork]; omega
        | waiting since => exact le_rfl
      exact Nat.add_le_add_right hresolve _
    | _ => exact le_rfl
  | _ => exact le_rfl

theorem Orderly.congr {s s' : Shared} {i : Nat} (hconfig : s'.config.calls i = s.config.calls i)
    (hnodes : s'.nodes.calls i = s.nodes.calls i) {g : Goroutine} (hg : Orderly s i g) : Orderly s' i g :=
  ⟨⟨by rw [hconfig]; exact hg.placed.config, by rw [hnodes]; exact hg.placed.nodes⟩, hg.composes⟩

/-- The event is a step of the goroutine at which it does not wait. -/
def ownStep (i : Nat) (s : ServerState) : ServerEvent → Bool
  | .step j _ => j == i && !(s.goroutines i).blocked s.shared.clock
  | _ => false

/-- A step at which a goroutine waits changes nothing. -/
theorem goroutineStep_blocked {s : Shared} {g : Goroutine} (h : g.blocked s.clock = true) (i : Nat)
    (order : VisitOrder) :
    goroutineStep env i order s g = (s, g) := by
  cases g with
  | serving r cfg q =>
    cases q with
    | resolving purpose norm deadline q =>
      cases q with
      | waiting since =>
        have hlt : ¬ since + missPollInterval ≤ s.clock := by
          simpa [Goroutine.blocked, ResolvePhase.blocked] using h
        rw [goroutineStep, handlerStep, resolveStep, if_neg hlt]
      | _ => cases h
    | forwarding genesisMAC up => rfl
    | _ => cases h
  | _ => cases h

/-- What an event does to a goroutine: nothing, at most letting time go by; a step; its start; or what it waits for.
-/
inductive Moves (s : ServerState) (i : Nat) : ServerEvent → ServerState → Prop
  | other {e : ServerEvent} {s' : ServerState} (hown : ownStep i s e = false) (hg : s'.goroutines i = s.goroutines i)
      (hconfig : s'.shared.config.calls i = s.shared.config.calls i)
      (hnodes : s'.shared.nodes.calls i = s.shared.nodes.calls i) (hclock : s.shared.clock ≤ s'.shared.clock) :
      Moves s i e s'
  | step {order : VisitOrder} {s' : ServerState} (hblocked : (s.goroutines i).blocked s.shared.clock = false)
      (hs : s'.shared = (goroutineStep env i order s.shared (s.goroutines i)).1)
      (hg : s'.goroutines i = (goroutineStep env i order s.shared (s.goroutines i)).2) : Moves s i (.step i order) s'
  | start {e : ServerEvent} {s' : ServerState} (hown : ownStep i s e = false) (hidle : s.goroutines i = .idle)
      (hs : s'.shared = s.shared) (hg : (∃ r, s'.goroutines i = .arrived r) ∨ s'.goroutines i = .reloading .start) :
      Moves s i e s'
  | cancel {s' : ServerState} {r : HttpRequest} {cfg : Config} {purpose : Purpose} {norm : Bytes}
      {deadline since : Int}
      (hwaits : s.goroutines i = .serving r cfg (.resolving purpose norm deadline (.waiting since)))
      (hs : s'.shared = s.shared) (hg : s'.goroutines i = .serving r cfg (resolved env r cfg purpose none)) :
      Moves s i (.cancel i) s'
  | receive {s' : ServerState} {r : HttpRequest} {cfg : Config} {genesisMAC : Bytes} {up : UpstreamRequest}
      {res : UpstreamResult} (hwaits : s.goroutines i = .serving r cfg (.forwarding genesisMAC up))
      (hs : s'.shared = s.shared) (hg : s'.goroutines i = .serving r cfg (MaasBoot.receive r genesisMAC res)) :
      Moves s i (.upstream i res) s'

theorem moves_serverNext (s : ServerState) (i : Nat) (e : ServerEvent) : Moves env s i e (serverNext env s e) := by
  -- events that are about the goroutine `j`
  have hupdate : ∀ {e : ServerEvent} {g : Goroutine} {j : Nat}, ownStep i s e = false → i ≠ j →
      Moves env s i e { s with goroutines := Function.update s.goroutines j g } :=
    fun hown hj => .other hown (Function.update_of_ne hj ..) rfl rfl le_rfl
  have hsame : ∀ {e : ServerEvent} {g : Goroutine}, ownStep i s e = false → g = s.goroutines i →
      Moves env s i e { s with goroutines := Function.update s.goroutines i g } :=
    fun hown hg => .other hown ((Function.update_self ..).trans hg) rfl rfl le_rfl
  cases e with
  | configFile f => exact .other rfl rfl rfl rfl le_rfl
  | nodesFile f => exact .other rfl rfl rfl rfl le_rfl
  | request j r =>
    rcases eq_or_ne i j with rfl | hj
    · cases hg : s.goroutines i with
      | idle => exact .start rfl hg rfl (.inl ⟨r, by rw [serverNext, hg]; exact Function.update_self ..⟩)
      | _ => exact hsame rfl (by rw [hg]; rfl)
    · exact hupdate rfl hj
  | reload j =>
    rcases eq_or_ne i j with rfl | hj
    · cases hg : s.goroutines i with
      | idle => exact .start rfl hg rfl (.inr (by rw [serverNext, hg]; exact Function.update_self ..))
      | _ => exact hsame rfl (by rw [hg]; rfl)
    · exact hupdate rfl hj
  | step j order =>
    rcases eq_or_ne i j with rfl | hj
    · cases hblocked : (s.goroutines i).blocked s.shared.clock with
      | false => exact .step hblocked rfl (Function.update_self ..)
      | true =>
        have hstep := goroutineStep_blocked env hblocked i order
        refine .other (by simp [ownStep, hblocked]) ?_ ?_ ?_ ?_
        · rw [serverNext, hstep]
          exact Function.update_self ..
        all_goals rw [serverNext, hstep]
    · obtain ⟨hconfig, hnodes⟩ := calls_goroutineStep env j order s.shared (s.goroutines j) hj
      exact .other (by simp [ownStep, hj.symm]) (Function.update_of_ne hj ..) hconfig hnodes
        (clock_goroutineStep env j order s.shared (s.goroutines j)).ge
  | cancel j =>
    rcases eq_or_ne i j with rfl | hj
    · by_cases hwaits : ∃ r cfg purpose norm deadline since,
          s.goroutines i = .serving r cfg (.resolving purpose norm deadline (.waiting since))
      · obtain ⟨r, cfg, purpose, norm, deadline, since, hwaits⟩ := hwaits
        exact .cancel hwaits rfl (by rw [serverNext, hwaits]; exact Function.update_self ..)
      · refine hsame rfl ?_
        unfold Goroutine.cancel
        split
        · rename_i heq
          exact absurd ⟨_, _, _, _, _, _, heq⟩ hwaits
        · rfl
    · exact hupdate rfl hj
  | upstream j res =>
    rcases eq_or_ne i j with rfl | hj
    · by_cases hwaits : ∃ r cfg genesisMAC up, s.goroutines i = .serving r cfg (.forwarding genesisMAC up)
      · obtain ⟨r, cfg, genesisMAC, up, hwaits⟩ := hwaits
        exact .receive hwaits rfl (by rw [serverNext, hwaits]; exact Function.update_self ..)
      · refine hsame rfl ?_
        unfold Goroutine.receive
        split
        · rename_i heq
          exact absurd ⟨_, _, _, _, heq⟩ hwaits
        · rfl
    · exact hupdate rfl hj
  | reap => exact .other rfl rfl rfl rfl le_rfl
  | tick d => exact .other rfl rfl rfl rfl (Int.le_add_of_nonneg_right (Int.natCast_nonneg d))

section Moves

variable {env} {s s' : ServerState} {i : Nat} {e : ServerEvent}

theorem Orderly.next (hi : Orderly s.shared i (s.goroutines i)) (h : Moves env s i e s') :
    Orderly s'.shared i (s'.goroutines i) := by
  cases h with
  | other hown hg hconfig hnodes hclock =>
    rw [hg]
    exact hi.congr hconfig hnodes
  | step hblocked hs hg =>
    rw [hs, hg]
    exact (hi.step env hblocked _).1
  | start hown hidle hs hg =>
    rw [hidle] at hi
    rw [hs]
    rcases hg with ⟨r, hg⟩ | hg
    · rw [hg]
      exact ⟨hi.placed, trivial⟩
    · rw [hg]
      exact ⟨⟨hi.placed.config.trans (by simp [Goroutine.inReload]),
        hi.placed.nodes.trans (by simp [Goroutine.inReload])⟩, trivial⟩
  | cancel hwaits hs hg =>
    rw [hwaits] at hi
    rw [hs, hg]
    exact (orderly_resolved env _ _ hi.placed _ none).1
  | receive hwaits hs hg =>
    rw [hwaits] at hi
    rw [hs, hg]
    exact (orderly_receive env _ _ hi.placed _ _).1

/-- What a request is about. -/
def Goroutine.request : Goroutine → Option HttpRequest
  | .arrived r => some r
  | .serving r _ _ => some r
  | _ => none

/-- A request stays one, and its work gets less with every step of its own. -/
theorem work_next (hi : Orderly s.shared i (s.goroutines i)) {r : HttpRequest}
    (hr : (s.goroutines i).request = some r) (h : Moves env s i e s') :
    (s'.goroutines i).request = some r ∧ goroutineWork env s'.shared i (s'.goroutines i) ≤
      goroutineWork env s.shared i (s.goroutines i) - if ownStep i s e then 1 else 0 := by
  cases h with
  | other hown hg hconfig hnodes hclock =>
    rw [hg, hown]
    exact ⟨hr, goroutineWork_anti env hconfig hnodes hclock _⟩
  | step hblocked hs hg =>
    rename_i order
    have hown : ownStep i s (.step i order) = true := by simp [ownStep, hblocked]
    rw [hs, hg, hown]
    refine ⟨?_, (hi.step env hblocked _).2⟩
    cases hgi : s.goroutines i with
    | arrived r' =>
      rw [hgi] at hr
      exact hr
    | serving r' cfg q =>
      rw [hgi] at hr
      exact hr
    | _ =>
      rw [hgi] at hr
      cases hr
  | start hown hidle hs hg =>
    rw [hidle] at hr
    cases hr
  | cancel hwaits hs hg =>
    rw [hwaits] at hi hr ⊢
    rw [hs, hg]
    refine ⟨hr, (orderly_resolved env _ _ hi.placed _ none).2.trans ?_⟩
    exact Nat.le_add_left ..
  | receive hwaits hs hg =>
    rename_i r' cfg genesisMAC up res
    rw [hwaits] at hi hr ⊢
    rw [hs, hg]
    refine ⟨hr, (orderly_receive env r' cfg hi.placed genesisMAC res).2.trans ?_⟩
    exact Nat.add_le_add_right (by decide) _

end Moves

/-- All goroutines. -/
def ServerState.Orderly (s : ServerState) : Prop := ∀ i, MaasBoot.Orderly s.shared i (s.goroutines i)

theorem ServerState.Orderly.next {s : ServerState} (hs : s.Orderly) (e : ServerEvent) :
    (serverNext env s e).Orderly :=
  fun i => (hs i).next (moves_serverNext env s i e)

theorem orderly_serverRun (configFile nodesFile : FileState) (order : VisitOrder) (ttl clock : Int)
    (es : List ServerEvent) :
    (serverRun env configFile nodesFile order ttl clock es).Orderly := by
  refine runEvents_invariant (fun _ e hs => hs.next env e) (fun i => ⟨?_, trivial⟩) es
  constructor <;>
    simp [ServerState.start, ConfigState.start, StoreState.init, ConfigPhase.left, Phase.left, Goroutine.inReload]

/-- Without work left a request has been answered. -/
theorem Orderly.done {s : Shared} {i : Nat} {g : Goroutine} (hg : Orderly s i g) {r : HttpRequest}
    (hr : g.request = some r) (hwork : goroutineWork env s i g = 0) :
    ∃ cfg reply, g = .serving r cfg (.done reply) := by
  cases g with
  | arrived r' =>
    rw [goroutineWork] at hwork
    omega
  | serving r' cfg q =>
    obtain rfl := Option.some.inj hr
    cases q with
    | done reply => exact ⟨cfg, reply, rfl⟩
    | resolving purpose norm deadline q =>
      have hpos : 0 < resolveWork s i deadline q := by
        cases q with
        | nodes again => cases again <;> simp [resolveWork]
        | config again => cases again <;> simp [resolveWork]
        | reload q => rw [resolveWork]; omega
        | deadline => simp [resolveWork]
        | waiting since => simp [resolveWork]
      rw [goroutineWork, handlerWork] at hwork
      omega
    | composing name q =>
      have hpos : 0 < q.left := hg.composes
      rw [goroutineWork, handlerWork] at hwork
      omega
    | forwarding genesisMAC up =>
      rw [goroutineWork, handlerWork] at hwork
      omega
    | rewriting genesisMAC code header body =>
      rw [goroutineWork, handlerWork] at hwork
      omega
  | _ => cases hr

/-- Whatever the other goroutines do meanwhile, and however often the files are replaced, a request that has arrived
is answered after so many steps of its own at which it does not wait, where the waiting for a node that is not there
takes fifteen steps for every `missPollInterval` that fits into `missWait`. -/
theorem request_answered (configFile nodesFile : FileState) (order : VisitOrder) (ttl clock : Int)
    (es : List ServerEvent) (i : Nat) (r : HttpRequest)
    (harrived : (serverRun env configFile nodesFile order ttl clock es).goroutines i = .arrived r)
    (es' : List ServerEvent) (hsteps : 20 + 15 * rounds env.missWait 0 ≤
      countAlong (serverNext env) (ownStep i) (serverRun env configFile nodesFile order ttl clock es) es') :
    ∃ cfg reply, (serverRun env configFile nodesFile order ttl clock (es ++ es')).goroutines i =
      .serving r cfg (.done reply) := by
  generalize hs : serverRun env configFile nodesFile order ttl clock es = s at harrived hsteps
  have hrun : serverRun env configFile nodesFile order ttl clock (es ++ es') = runEvents (serverNext env) s es' := by
    rw [← hs]
    exact runEvents_append ..
  have horderly : s.Orderly := hs ▸ orderly_serverRun env configFile nodesFile order ttl clock es
  have hrequest : (s.goroutines i).request = some r := by
    rw [harrived]
    rfl
  obtain ⟨⟨horderly', hrequest'⟩, hwork⟩ :=
    work_le_sub_countAlong (fun s => s.Orderly ∧ (s.goroutines i).request = some r)
    (fun s => goroutineWork env s.shared i (s.goroutines i)) (ownStep i)
    (fun s e h =>
      have hnext := work_next (h.1 i) h.2 (moves_serverNext env s i e)
      ⟨⟨h.1.next env e, hnext.1⟩, hnext.2⟩) ⟨horderly, hrequest⟩ es'
  rw [harrived] at hwork
  rw [hrun]
  exact (horderly' i).done env hrequest' (by rw [goroutineWork] at hwork; omega)

/-- A request for the image of a node that is not there: it waits twice, and looks again after each time. -/
theorem request_answered_sample :
    let steps := List.replicate 20 (ServerEvent.step 0 sampleOrder)
    let es' := steps ++ .tick 500000000 :: steps ++ .tick 500000000 :: (steps ++ steps)
    (∃ since, ResolvingAt 0 (serverRun sampleServerEnv .missing (.content emptyDoc) sampleOrder 0 0
      (.request 0 sampleISORequest :: steps)) sampleKey (.waiting since)) ∧
    ∃ cfg reply, (serverRun sampleServerEnv .missing (.content emptyDoc) sampleOrder 0 0
      ([.request 0 sampleISORequest] ++ es')).goroutines 0 = .serving sampleISORequest cfg (.done reply) :=
  ⟨⟨0, _, _, _, _, rfl⟩, request_answered sampleServerEnv .missing (.content emptyDoc) sampleOrder 0 0 _ 0
    sampleISORequest rfl _ (by decide +kernel)⟩

end MaasBoot
