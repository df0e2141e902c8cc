import MaasBoot.HookArgs

/-!
# The addresses in the `ip=` argument

The kernel reads the argument `ip=` by position: client, server, gateway, netmask, host name, device,
autoconfiguration and up to two name servers, separated by colons.  `buildKernelNet` writes a node's values in this
order, for bonded and other nodes alike, but a second name server only behind a first one, so a node whose only name
server is `dns2` boots without any (`ipFields_buildKernelNet_iff`).
-/

namespace MaasBoot

open Hook

/-! ### Reading the arguments -/

/-- The fields of the argument `ip=`. -/
def ipFields (kernelNet : Bytes) : Option (List Bytes) :=
  ((words kernelNet).find? (str "ip=").isPrefixOf).map fun w => (w.drop 3).splitOn colon

/-- The fields of the argument `vlan=`: the interface and its parent. -/
def vlanFields (kernelNet : Bytes) : Option (List Bytes) :=
  ((words kernelNet).find? (str "vlan=").isPrefixOf).map fun w => (w.drop 5).splitOn colon

/-! ### The values of a node -/

/-- The values that make up the static addressing of a node. -/
def Node.addressing (n : Node) : List Bytes :=
  [n.ip, n.gw, n.netmask, n.hostname, n.dev, n.bondName, n.vlan, n.dns, n.dns2]

/-- The device of the addresses. -/
def Node.device (n : Node) : Bytes := vlanDevice (if n.bonded then n.bond else n.dev) n.vlan

/-- The name servers of a node. -/
def Node.nameServers (n : Node) : List Bytes := [n.dns, n.dns2].filter (· ≠ [])

/-- The name servers that `dnsSuffix` writes. -/
def Node.ipServers (n : Node) : List Bytes := if n.dns = [] then [] else n.nameServers

theorem dnsSuffix_eq (n : Node) : dnsSuffix n = n.ipServers.flatMap ([colon] ++ ·) := by
  have h1 : str ":" = [colon] := by decide
  unfold dnsSuffix Node.ipServers Node.nameServers
  rw [h1]
  by_cases hdns : n.dns = []
  · simp [hdns]
  · by_cases hdns2 : n.dns2 = []
    · simp [hdns, hdns2]
    · simp [hdns, hdns2]

/-- The argument lists its fields between colons. -/
theorem ipArg_eq_join (n : Node) (vdev : Bytes) :
    ipArg n vdev = str "ip=" ++
      join [colon] ([n.ip, [], n.gw, n.netmask, n.hostname, vdev, str "none"] ++ n.ipServers) := by
  have hjoin : ∀ (a : Bytes) (ls : List Bytes), join [colon] (a :: ls) = a ++ ls.flatMap ([colon] ++ ·) := by
    intro a ls
    unfold join
    induction ls generalizing a with
    | nil => simp
    | cons l ls ih => rw [List.intercalate_cons_cons, ih, List.flatMap_cons, List.append_assoc, List.append_assoc]
  rw [ipArg_eq, dnsSuffix_eq, List.cons_append, hjoin]
  simp

section Node

variable {n : Node} (hv : ∀ v ∈ n.addressing, BlankFree v ∧ colon ∉ v)
include hv

theorem device_spec : BlankFree n.device ∧ colon ∉ n.device := by
  simp only [Node.addressing, List.forall_mem_cons] at hv
  obtain ⟨-, -, -, -, hdev, hbond, hvlan, -⟩ := hv
  have hbase : BlankFree (if n.bonded then n.bond else n.dev) ∧ colon ∉ (if n.bonded then n.bond else n.dev) := by
    split
    · unfold Node.bond orDefault
      split
      · decide
      · exact hbond
    · exact hdev
  have hdot : BlankFree (str ".") ∧ colon ∉ str "." := by decide
  unfold Node.device vlanDevice
  split
  · exact ⟨(hbase.1.append hdot.1).append hvlan.1, by simp [hbase.2, hdot.2, hvlan.2]⟩
  · exact hbase

/-- No field of the argument contains a colon. -/
theorem colon_notMem_ipFields {f : Bytes}
    (hf : f ∈ [n.ip, [], n.gw, n.netmask, n.hostname, n.device, str "none"] ++ n.ipServers) : colon ∉ f := by
  have hdevice := (device_spec hv).2
  have hservers : ∀ f ∈ n.ipServers, f = n.dns ∨ f = n.dns2 := by
    intro f hf
    unfold Node.ipServers at hf
    split at hf
    · cases hf
    · simpa using List.mem_of_mem_filter hf
  simp only [Node.addressing, List.forall_mem_cons] at hv
  obtain ⟨hip, hgw, hmask, hhost, -, -, -, hdns, hdns2, -⟩ := hv
  rcases List.mem_append.mp hf with hf | hf
  · simp only [List.mem_cons, List.not_mem_nil, or_false] at hf
    rcases hf with rfl | rfl | rfl | rfl | rfl | rfl | rfl
    · exact hip.2
    · exact List.not_mem_nil
    · exact hgw.2
    · exact hmask.2
    · exact hhost.2
    · exact hdevice
    · decide
  · rcases hservers f hf with rfl | rfl
    · exact hdns.2
    · exact hdns2.2

private theorem words_ipArg_device : words (ipArg n n.device) = [ipArg n n.device] := by
  refine words_ipArg ?_
  have hdevice := (device_spec hv).1
  simp only [Node.addressing, List.forall_mem_cons] at hv
  obtain ⟨hip, hgw, hmask, hhost, -, -, -, hdns, hdns2, -⟩ := hv
  simp only [List.forall_mem_cons]
  exact ⟨hip.1, hgw.1, hmask.1, hhost.1, hdevice, hdns.1, hdns2.1, List.forall_mem_nil _⟩

variable (hkernel : n.kernelNet = [])
include hkernel

omit hv in
theorem buildKernelNet_eq_argText :
    buildKernelNet n = argText (ipArg n n.device) (if n.bonded then bondArgs n else devArgs n) := by
  unfold buildKernelNet Node.device
  rw [if_neg (not_not_intro hkernel)]
  split <;> rfl

/-- The fields are the node's values, up to the name servers. -/
theorem ipFields_buildKernelNet :
    ipFields (buildKernelNet n) =
      some ([n.ip, [], n.gw, n.netmask, n.hostname, n.device, str "none"] ++ n.ipServers) := by
  have hpre := List.isPrefixOf_iff_prefix.mpr (ip_prefix_ipArg n n.device)
  unfold ipFields
  rw [buildKernelNet_eq_argText hkernel, words_argText, words_ipArg_device hv, List.singleton_append,
    List.find?_cons_of_pos hpre, Option.map_some, ipArg_eq_join, List.drop_left' (by decide)]
  exact congrArg some (List.splitOn_intercalate colon (fun f hf => colon_notMem_ipFields hv hf) (by simp))

/-- The interface of a VLAN without a bond, and its parent. -/
theorem vlanFields_buildKernelNet (hbonded : n.bonded = false) (hvlan : n.vlan ≠ []) :
    vlanFields (buildKernelNet n) = some [n.device, n.dev] := by
  obtain ⟨hdevice, hcolon⟩ := device_spec hv
  have hdev := hv n.dev (by simp [Node.addressing])
  have hsep : str ":" = [colon] := by decide
  have hargs : devArgs n = [str "vlan=" ++ join [colon] [n.device, n.dev], str "network-config=disabled"] := by
    simp [devArgs, Node.device, hbonded, hvlan, hsep, join]
  have hblank : BlankFree (str "vlan=" ++ join [colon] [n.device, n.dev]) := by
    have h : join [colon] [n.device, n.dev] = n.device ++ [colon] ++ n.dev := by simp [join]
    rw [h]
    exact BlankFree.append (by decide) ((hdevice.append (by decide)).append hdev.1)
  have hlit : str "vlan=" ≠ [] := by decide
  have hword := words_eq_singleton (List.append_ne_nil_of_left_ne_nil hlit _) hblank
  -- the argument in front of it starts with another name
  have hip : ¬ (str "vlan=").isPrefixOf (ipArg n n.device) := by
    obtain ⟨t, ht⟩ := ip_prefix_ipArg n n.device
    have hchars : str "ip=" = [105, 112, 61] ∧ str "vlan=" = [118, 108, 97, 110, 61] := by decide
    rw [← ht, hchars.1, hchars.2]
    simp [List.isPrefixOf]
  have hvlanWord : (str "vlan=").isPrefixOf (str "vlan=" ++ join [colon] [n.device, n.dev]) = true :=
    List.isPrefixOf_iff_prefix.mpr (List.prefix_append ..)
  unfold vlanFields
  rw [buildKernelNet_eq_argText hkernel, if_neg (by simp [hbonded]), hargs, words_argText, words_ipArg_device hv,
    List.singleton_append, List.find?_cons_of_neg hip, List.flatMap_cons, hword, List.singleton_append,
    List.find?_cons_of_pos hvlanWord, Option.map_some, List.drop_left' (by decide)]
  exact congrArg some (List.splitOn_intercalate colon (by simp [hcolon, hdev.2]) (by simp))

end Node

/-- The `ip=` argument recovers the addressing of a node, name servers included, and the `vlan=` argument its
interface, exactly if there is no second name server without a first one. -/
theorem ipFields_buildKernelNet_iff (n : Node) (hkernel : n.kernelNet = [])
    (hv : ∀ v ∈ n.addressing, BlankFree v ∧ colon ∉ v) :
    (ipFields (buildKernelNet n) =
        some ([n.ip, [], n.gw, n.netmask, n.hostname, n.device, str "none"] ++ n.nameServers) ∧
      (n.bonded = false → n.vlan ≠ [] → vlanFields (buildKernelNet n) = some [n.device, n.dev])) ↔
    (n.dns ≠ [] ∨ n.dns2 = []) := by
  rw [ipFields_buildKernelNet hv hkernel]
  constructor
  · rintro ⟨hfields, -⟩
    have hservers := List.append_cancel_left (Option.some.inj hfields)
    by_contra hdns
    simp only [not_or, ne_eq, not_not] at hdns
    simp [Node.ipServers, Node.nameServers, hdns] at hservers
  · intro hdns
    refine ⟨?_, vlanFields_buildKernelNet hv hkernel⟩
    unfold Node.ipServers
    split
    · rename_i hnil
      simp [Node.nameServers, hnil, hdns.resolve_left (not_not_intro hnil)]
    · rfl

/-- A node with a VLAN and a single name server. -/
def vlanNode : Node where
  ip := str "198.51.100.98"
  netmask := str "255.255.255.192"
  gw := str "198.51.100.121"
  hostname := str "node-b"
  dev := str "eno1"
  vlan := str "120"
  dns := str "203.0.113.5"

theorem ipFields_buildKernelNet_vlan : vlanNode.kernelNet = [] ∧
    ipFields (buildKernelNet vlanNode) = some [str "198.51.100.98", [], str "198.51.100.121", str "255.255.255.192",
      str "node-b", str "eno1.120", str "none", str "203.0.113.5"] ∧
    vlanFields (buildKernelNet vlanNode) = some [str "eno1.120", str "eno1"] := by
  obtain ⟨hip, hvlan⟩ := (ipFields_buildKernelNet_iff vlanNode rfl (by decide)).mpr (.inl (by decide))
  refine ⟨rfl, hip.trans (by decide), (hvlan (by decide) (by decide)).trans (by decide)⟩

/-- A second name server without a first one is lost. -/
theorem ipFields_only_dns2 :
    ipFields (buildKernelNet { vlanNode with dns := [], dns2 := str "203.0.113.6" }) =
      some [str "198.51.100.98", [], str "198.51.100.121", str "255.255.255.192", str "node-b", str "eno1.120",
        str "none"] ∧
    ({ vlanNode with dns := [], dns2 := str "203.0.113.6" } : Node).nameServers = [str "203.0.113.6"] := by
  decide +kernel

end MaasBoot
