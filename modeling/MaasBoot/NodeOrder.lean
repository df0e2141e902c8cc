import MaasBoot.ConfigReload
import MaasBoot.Lib.MapFold

/-!
# Nodes and the order of map entries

Documents give nodes in maps.  Go visits the entries of a map in any order, and the nodes are put into a new map
under the normal forms of their keys.  Two spellings of one MAC address are two keys of a document and one key of
the store, so the node that is visited last wins.  The store does not depend on the order exactly when all spellings
of a key come with the same node.
-/

namespace MaasBoot

/-- All spellings of a key come with the same node. -/
def Unambiguous (u : Unicode) (nodes : List (Bytes × Node)) : Prop :=
  ∀ a ∈ nodes, ∀ b ∈ nodes, normalizeKey u a.1 = normalizeKey u b.1 → a.2 = b.2

/-- The environment in which the nodes of a document are visited in an order. -/
def StoreEnv.visiting (env : StoreEnv) (order : VisitOrder) : StoreEnv :=
  { env with unmarshal := fun b => (env.unmarshal b).map fun f => { f with nodes := order.visit f.nodes } }

/-- The order that visits one list as another one and leaves all others alone. -/
def VisitOrder.swapping {l l' : List (Bytes × Node)} (h : l'.Perm l) : VisitOrder where
  visit nodes := if nodes = l then l' else nodes
  perm nodes := by
    split
    · rename_i heq
      rw [heq]
      exact h
    · exact .refl nodes

theorem VisitOrder.visit_swapping {l l' : List (Bytes × Node)} (h : l'.Perm l) : (swapping h).visit l = l' :=
  if_pos rfl

theorem normalizeNodeKeys_eq_insertAll (u : Unicode) (visited : List (Bytes × Node)) :
    normalizeNodeKeys u visited = insertAll (fun kv => normalizeKey u kv.1) (fun kv => kv.2) visited := rfl

theorem normalizeNodeKeys_visit_iff (u : Unicode) (nodes : List (Bytes × Node)) :
    (∀ o o' : VisitOrder, normalizeNodeKeys u (o.visit nodes) = normalizeNodeKeys u (o'.visit nodes)) ↔
      Unambiguous u nodes := by
  rw [Unambiguous, ← insertAll_perm_iff]
  simp only [normalizeNodeKeys_eq_insertAll]
  constructor
  · intro h l₁ l₂ h₁ h₂
    have := h (.swapping h₁) (.swapping h₂)
    rwa [VisitOrder.visit_swapping, VisitOrder.visit_swapping] at this
  · intro h o o'
    exact h _ _ (o.perm nodes) (o'.perm nodes)

/-- What a document is parsed to, in terms of its nodes in the order of the visit. -/
theorem parseNodes_visiting (env : StoreEnv) (order : VisitOrder) (b : Bytes) :
    parseNodes (env.visiting order) b = (do
      let f ← env.unmarshal b
      if f.version > nodesFileVersion then
        throw (str "unsupported nodes file version " ++ decimal f.version.toNat ++ str " (max " ++
          decimal nodesFileVersion.toNat ++ str ")")
      else pure (normalizeNodeKeys env.unicode (order.visit f.nodes))) := by
  unfold parseNodes StoreEnv.visiting
  dsimp only
  cases env.unmarshal b with
  | error err => rfl
  | ok f => rfl

/-- Loading the nodes of a nodes file, and those of a config file, gives the same for all orders in which the
entries of the document may be visited if and only if all spellings of a key come with the same node. -/
theorem nodes_order_iff (env : StoreEnv) (b : Bytes) (nodes : List (Bytes × Node)) :
    ((∀ o o' : VisitOrder, parseNodes (env.visiting o) b = parseNodes (env.visiting o') b) ↔
      ∀ f, env.unmarshal b = .ok f → f.version ≤ nodesFileVersion → Unambiguous env.unicode f.nodes) ∧
    ((∀ o o' : VisitOrder, normalizeNodeKeys env.unicode (o.visit nodes) =
      normalizeNodeKeys env.unicode (o'.visit nodes)) ↔ Unambiguous env.unicode nodes) := by
  refine ⟨?_, normalizeNodeKeys_visit_iff env.unicode nodes⟩
  simp only [parseNodes_visiting]
  cases hf : env.unmarshal b with
  | error err => simp [bind, Except.bind]
  | ok f =>
    by_cases hv : f.version > nodesFileVersion
    · have hno : ¬ f.version ≤ nodesFileVersion := not_le.mpr hv
      simp [bind, Except.bind, hv, hno]
    · have hle : f.version ≤ nodesFileVersion := not_lt.mp hv
      simp [bind, Except.bind, hv, hle, pure, Except.pure, normalizeNodeKeys_visit_iff]

/-- A MAC address in two spellings: its node is the one that is visited last. -/
theorem normalizeNodeKeys_order_matters :
    let nodes : List (Bytes × Node) :=
      [(str "02:5E:1C:9A:47:D3", { hostname := str "n1" }), (str "02-5e-1c-9a-47-d3", { hostname := str "n2" })]
    (nodes.map (·.1)).Nodup ∧
      (normalizeNodeKeys .asciiOnly nodes).lookup (str "02:5e:1c:9a:47:d3") = some { hostname := str "n2" } ∧
      (normalizeNodeKeys .asciiOnly nodes.reverse).lookup (str "02:5e:1c:9a:47:d3") =
        some { hostname := str "n1" } := by
  decide

end MaasBoot
