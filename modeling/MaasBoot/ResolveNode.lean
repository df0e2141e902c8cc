import MaasBoot.IpArgument
import MaasBoot.IsoRequests
import MaasBoot.MacKeys
import MaasBoot.NodeOrder
import MaasBoot.ServeHTTP

/-!
# Finding a node by its MAC address

`resolveNode` looks a node up in the nodes file and then in the configuration, and reads both files again when it
misses.  The keys of the three places in which a record can be stored, and the addresses in requests, go through
`normalizeKey` once or twice, so it does not matter in which spelling an address was stored and in which it is asked
for (`resolveNode_spelling`).
-/

namespace MaasBoot

/-- What a lookup sees: the node store and the configuration at that moment. -/
structure Snapshot where
  store : NodeStore
  cfg : Config

/-- A round of the loop of `resolveNode`: what is seen before and after `Reload`, whether the deadline has passed
then, and whether the request is cancelled while waiting for the next round. -/
structure Round where
  before : Snapshot
  reloaded : Snapshot
  expired : Bool
  cancelled : Bool

variable (env : StoreEnv)

/-- `Server.lookup` -/
def Snapshot.lookup (v : Snapshot) (norm : Bytes) : Option Node :=
  match v.store.get env norm with
  | some node => some node
  | none => v.cfg.nodes.lookup norm

/-- The loop of `resolveNode`, given its rounds up to the one that ends it. -/
def resolveLoop (norm : Bytes) : List Round → Option Node
  | [] => none
  | r :: rs =>
    match r.before.lookup env norm with
    | some node => some node
    | none =>
      match r.reloaded.lookup env norm with
      | some node => some node
      | none => if r.expired || r.cancelled then none else resolveLoop norm rs

def resolveNode (rounds : List Round) (mac : Bytes) : Option Node :=
  let norm := normalizeKey env.unicode mac
  if norm = [] then none else resolveLoop env norm rounds

/-- The request that `ServeHTTP` passes to `cachedISO` for `/iso/<mac>.iso`, unless there is no such node. -/
def nodeISORequest (cfg : Config) (host : Bytes) (rounds : List Round) (rawMAC : Bytes) : Option IsoRequest :=
  let normMAC := if normalizeMAC env.unicode rawMAC = [] then toLower env.unicode rawMAC
    else normalizeMAC env.unicode rawMAC
  let proxyBase := if cfg.proxyBase = [] then str "http://" ++ host else cfg.proxyBase
  (resolveNode env rounds normMAC).map fun node => .node node normMAC proxyBase

/-! ### Lookups -/

section Address

variable {env} {hw : Bytes} (hlen : hw.length = 6)
include hlen

theorem normalizeKey_macString : normalizeKey env.unicode (macString hw) = macString hw :=
  normalizeKey_of_macOf _ ((isMacText_macString hw).spells.macOf_eq hlen)

theorem normalizeKey_of_spells {s : Bytes} (h : Spells hw s) : normalizeKey env.unicode s = macString hw :=
  normalizeKey_of_macOf _ (h.macOf_eq hlen)

/-- Whatever the spelling, the normal form of the address is looked up. -/
theorem resolveNode_of_spells {s : Bytes} (h : Spells hw s) (rounds : List Round) :
    resolveNode env rounds s = resolveLoop env (macString hw) rounds := by
  unfold resolveNode
  rw [normalizeKey_of_spells hlen h, if_neg (macString_ne_nil hlen)]

/-- A record that the first lookup sees is found. -/
theorem resolveNode_of_lookup {s : Bytes} (h : Spells hw s) {r : Round} {n : Node}
    (hr : r.before.lookup env (macString hw) = some n) (rs : List Round) : resolveNode env (r :: rs) s = some n := by
  rw [resolveNode_of_spells hlen h, resolveLoop, hr]

theorem lookup_of_store {v : Snapshot} {n : Node} (h : v.store.nodes.lookup (macString hw) = some n) :
    v.lookup env (macString hw) = some n := by
  unfold Snapshot.lookup NodeStore.get
  rw [normalizeKey_macString hlen, h]

/-- The only record for the address, under whatever spelling, is found in the normalised nodes. -/
theorem lookup_normalizeNodeKeys (hu : env.unicode.HexFree) {nodes : List (Bytes × Node)} {k : Bytes} {n : Node}
    (hk : Spells hw k) (hmem : (k, n) ∈ nodes) (hone : ∀ e ∈ nodes, macOf e.1 = some hw → e = (k, n)) :
    (normalizeNodeKeys env.unicode nodes).lookup (macString hw) = some n := by
  have hkey : normalizeKey env.unicode k = macString hw := normalizeKey_of_spells hlen hk
  have hfound : (insertAll (fun e : Bytes × Node => normalizeKey env.unicode e.1) (fun e => e.2) nodes).lookup
      (normalizeKey env.unicode (k, n).1) = some (k, n).2 := by
    refine lookup_insertAll_of_mem hmem fun e he hek => ?_
    have hmac : macOf e.1 = some hw := (normalizeKey_eq_macString_iff hu hlen e.1).mp (hek.trans hkey)
    rw [hone e he hmac]
  rw [hkey] at hfound
  exact hfound

end Address

/-! ### Requests -/

/-- The path of a node's ISO image. -/
def isoPath (mac : Bytes) : Bytes := str "/iso/" ++ (mac ++ str ".iso")

/-- The address is taken from the path as it stands there. -/
theorem isoRe_isoPath {s : Bytes} (hne : s ≠ []) (hs : ∀ c ∈ s, isMacByte c = true) : isoRe (isoPath s) = some s := by
  have hpos := List.length_pos_iff.mpr hne
  have hlen : (s ++ str ".iso").length = (s.length - 1) + (1 + 4) := by
    rw [List.length_append, show (str ".iso").length = 4 from by decide]
    omega
  have hdrop : (isoPath s).drop 5 = s ++ str ".iso" := List.drop_left' (by decide)
  have hrange : List.range' 1 (s ++ str ".iso").length =
      List.range' 1 (s.length - 1) ++ s.length :: List.range' (s.length + 1) 4 := by
    rw [hlen, ← List.range'_append_1, show 1 + (s.length - 1) = s.length from by omega, Nat.add_comm 1 4,
      List.range'_succ]
  unfold isoRe
  rw [if_pos (show str "/iso/" <+: isoPath s from List.prefix_append ..), hdrop]
  dsimp only
  rw [hrange, List.find?_append]
  have hbefore : (List.range' 1 (s.length - 1)).find? (fun n => ((s ++ str ".iso").take n).all isMacByte &&
      ((s ++ str ".iso").drop n == str ".iso" || (s ++ str ".iso").drop n == [])) = none := by
    rw [List.find?_eq_none]
    intro n hn
    rw [List.mem_range'_1] at hn
    -- something of the address is still left
    have hrest : ((s ++ str ".iso").drop n).length = s.length - n + 4 := by
      rw [List.length_drop, hlen]
      omega
    have h₁ : (s ++ str ".iso").drop n ≠ str ".iso" := fun h => by
      rw [h, show (str ".iso").length = 4 from by decide] at hrest
      omega
    have h₂ : (s ++ str ".iso").drop n ≠ [] := fun h => by
      rw [h, List.length_nil] at hrest
      omega
    simp [h₁, h₂]
  have hat : (((s ++ str ".iso").take s.length).all isMacByte &&
      ((s ++ str ".iso").drop s.length == str ".iso" || (s ++ str ".iso").drop s.length == [])) = true := by
    rw [List.take_left, List.drop_left, List.all_eq_true.mpr hs]
    simp
  rw [hbefore, Option.none_or, List.find?_cons, hat]
  exact congrArg some List.take_left

theorem route_isoPath (u : Unicode) (cfg : Config) {s : Bytes} (hne : s ≠ []) (hs : ∀ c ∈ s, isMacByte c = true)
    (rawQuery host : Bytes) :
    route u cfg { path := isoPath s, rawQuery := rawQuery, host := host } = .nodeISO s := by
  have hother : ∀ p : Bytes, p.take 5 ≠ str "/iso/" → isoPath s ≠ p := by
    rintro p hp rfl
    exact hp (List.take_left' (by decide))
  unfold route
  rw [if_neg (hother _ (by decide)), if_neg (not_or.mpr ⟨hother _ (by decide), hother _ (by decide)⟩),
    isoRe_isoPath hne hs]

section Address

variable {env} {hw : Bytes} (hlen : hw.length = 6)
include hlen

/-- Every notation of an address asks for the same image. -/
theorem nodeISORequest_of_isMacText {s : Bytes} (h : IsMacText hw s) (cfg : Config) (host : Bytes)
    (rounds : List Round) :
    nodeISORequest env cfg host rounds s = nodeISORequest env cfg host rounds (macString hw) := by
  have hs := normalizeMAC_of_macOf env.unicode (h.spells.macOf_eq hlen)
  have hm := normalizeMAC_of_macOf env.unicode ((isMacText_macString hw).spells.macOf_eq hlen)
  unfold nodeISORequest
  rw [hs, hm]
  simp only [if_neg (macString_ne_nil hlen)]

end Address

/-! ### Spellings do not matter -/

/-- A store, a nodes file or a configuration that holds the node `n` under the key `k`, and under no other key that
denotes the same address. -/
inductive Snapshot.Stores (v : Snapshot) (hw k : Bytes) (n : Node) : Prop
  /-- The last change of the store was a `Put`. -/
  | put (store : NodeStore) (h : v.store = store.put env k n)
  /-- The store was loaded from a nodes file. -/
  | file (b : Bytes) (f : NodesFile) (hf : env.unmarshal b = .ok f) (hv : parseNodes env b = .ok v.store.nodes)
      (hmem : (k, n) ∈ f.nodes) (hone : ∀ e ∈ f.nodes, macOf e.1 = some hw → e = (k, n))
  /-- The configuration was loaded from a file, and the store has no record for the address. -/
  | config (f : ConfigFile) (order : VisitOrder) (overrides : Config)
      (hv : v.cfg = applyOverrides (f.config env.unicode order) overrides) (hmem : (k, n) ∈ f.nodes)
      (hone : ∀ e ∈ f.nodes, macOf e.1 = some hw → e = (k, n)) (hstore : v.store.get env k = none)

/-- The node is found under the normal form of the address. -/
theorem Snapshot.Stores.lookup_eq (hu : env.unicode.HexFree) {hw k : Bytes} (hlen : hw.length = 6) (hk : Spells hw k)
    {v : Snapshot} {n : Node} (h : v.Stores env hw k n) : v.lookup env (macString hw) = some n := by
  cases h with
  | put store h =>
    refine lookup_of_store hlen ?_
    rw [h, NodeStore.put, normalizeKey_of_spells hlen hk]
    exact Finmap.lookup_insert _
  | file b f hf hv hmem hone =>
    refine lookup_of_store hlen ?_
    have hnodes : normalizeNodeKeys env.unicode f.nodes = v.store.nodes := by
      unfold parseNodes at hv
      rw [hf] at hv
      simp only [bind, Except.bind] at hv
      split at hv
      · cases hv
      · exact Except.ok.inj hv
    rw [← hnodes]
    exact lookup_normalizeNodeKeys hlen hu hk hmem hone
  | config f order overrides hv hmem hone hstore =>
    unfold NodeStore.get at hstore
    unfold Snapshot.lookup NodeStore.get
    rw [normalizeKey_of_spells hlen hk] at hstore
    rw [normalizeKey_macString hlen, hstore, hv]
    have hperm := order.perm f.nodes
    exact lookup_normalizeNodeKeys hlen hu hk (hperm.mem_iff.mpr hmem) fun e he => hone e (hperm.mem_iff.mp he)

/-- The spelling of a MAC address does not matter: all spellings have one normal form, which no other address has;
normalising twice is normalising once; a record is found under every spelling, wherever and under whatever spelling
it was stored; and requests for an image in all notations ask for the same one. -/
theorem resolveNode_spelling (hu : env.unicode.HexFree) :
    (∀ hw s t, hw.length = 6 → Spells hw s → Spells hw t → normalizeKey env.unicode s = normalizeKey env.unicode t) ∧
    (∀ hw hw' s t, hw.length = 6 → hw'.length = 6 → Spells hw s → Spells hw' t → hw ≠ hw' →
      normalizeKey env.unicode s ≠ normalizeKey env.unicode t) ∧
    (∀ s, IsAscii s → normalizeKey env.unicode (normalizeKey env.unicode s) = normalizeKey env.unicode s) ∧
    (∀ hw k k' n r rs, hw.length = 6 → Spells hw k → Spells hw k' → r.before.Stores env hw k n →
      resolveNode env (r :: rs) k' = some n) ∧
    (∀ hw s t, hw.length = 6 → IsMacText hw s → IsMacText hw t → ∀ cfg rawQuery host rounds,
      route env.unicode cfg { path := isoPath s, rawQuery := rawQuery, host := host } = .nodeISO s ∧
      nodeISORequest env cfg host rounds s = nodeISORequest env cfg host rounds t) := by
  refine ⟨?_, ?_, fun s hs => normalizeKey_normalizeKey _ hs, ?_, ?_⟩
  · intro hw s t hlen hs ht
    rw [normalizeKey_of_spells hlen hs, normalizeKey_of_spells hlen ht]
  · intro hw hw' s t hlen hlen' hs ht hne heq
    rw [normalizeKey_of_spells hlen hs, normalizeKey_of_spells hlen' ht] at heq
    exact hne (macString_inj hlen hlen' heq)
  · intro hw k k' n r rs hlen hk hk' hstores
    exact resolveNode_of_lookup hlen hk' (hstores.lookup_eq env hu hlen hk) rs
  · intro hw s t hlen hs ht cfg rawQuery host rounds
    have hne : s ≠ [] := by
      rintro rfl
      have := parseMAC_of_isMacText hlen hs
      cases this
    refine ⟨route_isoPath _ cfg hne (fun c hc => hs.isMacByte hc) rawQuery host, ?_⟩
    rw [nodeISORequest_of_isMacText hlen hs, nodeISORequest_of_isMacText hlen ht]

/-- An environment without a nodes file. -/
def bareEnv : StoreEnv where
  unicode := Unicode.asciiOnly
  unmarshal := fun _ => .error []
  sha256 := fun _ => Vector.replicate 32 0
  path := []

/-- A record that was put under one spelling is found under another one. -/
theorem resolveNode_spelling_put : bareEnv.unicode.HexFree ∧
    resolveNode bareEnv [⟨⟨NodeStore.put bareEnv {} (str "02-5E-1C-9A-47-D3") vlanNode, {}⟩, ⟨{}, {}⟩, true, false⟩]
      (str " 025e.1c9a.47d3 ") = some vlanNode := by
  have hu : bareEnv.unicode.HexFree := fun r hr h => by
    have : (97 ≤ r ∧ r ≤ 102) := h
    omega
  refine ⟨hu, ?_⟩
  refine (resolveNode_spelling bareEnv hu).2.2.2.1 [0x02, 0x5E, 0x1C, 0x9A, 0x47, 0xD3]
    (str "02-5E-1C-9A-47-D3") _ _ _ _ rfl (IsMacText.spells (by decide)) ?_ (.put _ rfl)
  refine ⟨[32], str "025e.1c9a.47d3", [32], by decide, by decide, fun c hc => ?_⟩
  obtain rfl : c = 32 := by simpa using hc
  decide

/-- With spaces around the address a path is not one of an image. -/
theorem route_spaced_mac : Spells [0x02, 0x5E, 0x1C, 0x9A, 0x47, 0xD3] (str " 02:5e:1c:9a:47:d3") ∧
    route Unicode.asciiOnly {} { path := isoPath (str " 02:5e:1c:9a:47:d3") } = .noUpstream ∧
    route Unicode.asciiOnly {} { path := isoPath (str "02:5e:1c:9a:47:d3") } =
      .nodeISO (str "02:5e:1c:9a:47:d3") := by
  refine ⟨⟨[32], str "02:5e:1c:9a:47:d3", [], by decide, by decide, fun c hc => ?_⟩, by decide, by decide⟩
  obtain rfl : c = 32 := by simpa using hc
  decide

end MaasBoot
