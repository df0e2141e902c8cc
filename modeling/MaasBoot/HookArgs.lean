import MaasBoot.KernelNet
import MaasBoot.BondHook

/-!
# The hook decodes the kernel parameters

The proxy writes a bonded node's parameters as words of the kernel command line, the hook reads them back.  Both sides
have their own defaults.  When no value contains a blank the hook's variables are the node's values, and when the
values in front of the device of the `ip=` argument contain no colon the hook brings up that device.
-/

namespace MaasBoot

open Hook

/-- The values of a node. -/
def Node.values (n : Node) : List Bytes :=
  [n.ip, n.netmask, n.gw, n.vlan, n.dev, n.hostname, n.dns, n.dns2, n.bondName, n.bondMode, n.lacpRate,
    n.hashPolicy] ++ n.bondMembers

theorem BlankFree.orDefault {v d : Bytes} (hv : BlankFree v) (hd : BlankFree d) : BlankFree (orDefault v d) := by
  unfold MaasBoot.orDefault
  split
  · exact hd
  · exact hv

/-- The device field of the argument `ip=`: client, server, gateway, netmask and host name come before it. -/
def ipDevice (kernelNet : Bytes) : Option Bytes := do
  let w ← (words kernelNet).find? (str "ip=").isPrefixOf
  ((w.drop 3).splitOn colon)[5]?

/-! ### The words of the parameters -/

/-- The fields of the `ip=` argument, up to the device each with a colon behind it. -/
theorem ipArg_eq (n : Node) (vdev : Bytes) :
    ipArg n vdev = str "ip=" ++ ([n.ip, [], n.gw, n.netmask, n.hostname, vdev].flatMap (· ++ [colon]) ++
      (str "none" ++ dnsSuffix n)) := by
  have h1 : str ":" = [colon] := by decide
  have h2 : str "::" = [colon, colon] := by decide
  have h3 : str ":none" = [colon] ++ str "none" := by decide
  unfold ipArg
  rw [h1, h2, h3]
  simp

theorem ip_prefix_ipArg (n : Node) (vdev : Bytes) : str "ip=" <+: ipArg n vdev := by
  rw [ipArg_eq]
  exact List.prefix_append _ _

/-- The argument is one word. -/
theorem words_ipArg {n : Node} {vdev : Bytes}
    (h : ∀ v ∈ [n.ip, n.gw, n.netmask, n.hostname, vdev, n.dns, n.dns2], BlankFree v) :
    words (ipArg n vdev) = [ipArg n vdev] := by
  simp only [List.forall_mem_cons] at h
  obtain ⟨hip, hgw, hmask, hhost, hvdev, hdns, hdns2, -⟩ := h
  have hsuffix : BlankFree (dnsSuffix n) := by
    unfold dnsSuffix
    split
    · exact ((BlankFree.append (by decide) hdns).append (by decide)).append hdns2
    · split
      · exact BlankFree.append (by decide) hdns
      · decide
  refine words_eq_singleton ?_ ?_
  · intro hnil
    have := (ip_prefix_ipArg n vdev).length_le
    rw [hnil] at this
    exact absurd this (by decide)
  · unfold ipArg
    refine BlankFree.append (.append
      (.append (.append (.append (.append (.append (.append (.append (.append (.append ?_ hip)
      ?_) hgw) ?_) hmask) ?_) hhost) ?_) hvdev) ?_) hsuffix <;> decide

section Words

variable {n : Node} (hblank : ∀ v ∈ n.values, BlankFree v)
include hblank

private theorem blankFree_join : BlankFree (join [comma] n.bondMembers) := by
  intro c hc
  rcases mem_or_mem_of_mem_join hc with h | ⟨m, hm, h⟩
  · obtain rfl : c = comma := by simpa using h
    decide
  · exact hblank m (List.mem_append_right _ hm) c h

theorem blankFree_vlanDevice {dev : Bytes} (hdev : BlankFree dev) : BlankFree (vlanDevice dev n.vlan) := by
  unfold vlanDevice
  split
  · exact (hdev.append (by decide)).append (hblank _ (by simp [Node.values]))
  · exact hdev

theorem blankFree_bond : BlankFree n.bond :=
  BlankFree.orDefault (hblank _ (by simp [Node.values])) (by decide)

/-- Every argument is one word. -/
private theorem words_of_mem_bondArgs {x : Bytes} (hx : x ∈ bondArgs n) : words x = [x] := by
  have hv : ∀ v ∈ n.values, BlankFree v := hblank
  simp only [Node.values, List.cons_append, List.nil_append, List.forall_mem_cons] at hv
  obtain ⟨-, -, -, hvlan, -, -, -, -, -, hmode, hrate, hhash, -⟩ := hv
  have hone : ∀ k : Arg, ∀ v, BlankFree v → words (k.key ++ v) = [k.key ++ v] := by
    intro k v h
    refine words_eq_singleton ?_ (BlankFree.append ?_ h)
    · exact List.append_ne_nil_of_left_ne_nil
        (List.ne_nil_of_length_pos (Nat.lt_of_lt_of_le (by decide) (length_key k))) _
    · cases k <;> decide
  simp only [bondArgs, List.cons_append, List.nil_append, List.mem_cons, List.mem_append] at hx
  rcases hx with rfl | rfl | rfl | rfl | rfl | hx | rfl | hx
  · exact hone .bond _ (blankFree_bond hblank)
  · exact hone .members _ (blankFree_join hblank)
  · exact hone .mode _ (hmode.orDefault (by decide))
  · exact hone .rate _ (hrate.orDefault (by decide))
  · exact hone .hash _ (hhash.orDefault (by decide))
  · split at hx
    · obtain rfl : x = str "gen_vlan=" ++ n.vlan := by simpa using hx
      exact hone .vlan _ hvlan
    · simp at hx
  · decide
  · simp at hx

/-- The words of a bonded node's parameters are its arguments. -/
theorem words_buildKernelNet (hbonded : n.bonded) (hkernel : n.kernelNet = []) :
    words (buildKernelNet n) = ipArg n (vlanDevice n.bond n.vlan) :: bondArgs n := by
  have hargs : (bondArgs n).flatMap words = bondArgs n := by
    rw [List.flatMap_congr (g := fun x => [x]) fun x hx => words_of_mem_bondArgs hblank hx]
    simp
  have hip : words (ipArg n (vlanDevice n.bond n.vlan)) = [ipArg n (vlanDevice n.bond n.vlan)] := by
    refine words_ipArg ?_
    have hdevice := blankFree_vlanDevice hblank (blankFree_bond hblank)
    simp only [Node.values, List.cons_append, List.nil_append, List.forall_mem_cons] at hblank
    simp only [List.forall_mem_cons]
    obtain ⟨hip, hmask, hgw, -, -, hhost, hdns, hdns2, -⟩ := hblank
    exact ⟨hip, hgw, hmask, hhost, hdevice, hdns, hdns2, List.forall_mem_nil _⟩
  unfold buildKernelNet
  rw [if_neg (by simpa using hkernel), if_pos hbonded, words_argText, hargs, hip, List.singleton_append]

end Words

/-- The device of the `ip=` argument, when no colon occurs in the fields before it or in the device. -/
theorem ipDevice_buildKernelNet {n : Node} (hblank : ∀ v ∈ n.values, BlankFree v) (hbonded : n.bonded)
    (hkernel : n.kernelNet = [])
    (hcolon : ∀ v ∈ [n.ip, n.gw, n.netmask, n.hostname, vlanDevice n.bond n.vlan], colon ∉ v) :
    ipDevice (buildKernelNet n) = some (vlanDevice n.bond n.vlan) := by
  have hpre := List.isPrefixOf_iff_prefix.mpr (ip_prefix_ipArg n (vlanDevice n.bond n.vlan))
  unfold ipDevice
  rw [words_buildKernelNet hblank hbonded hkernel, List.find?_cons_of_pos hpre]
  simp only [Option.bind_eq_bind, Option.bind_some]
  rw [ipArg_eq, List.drop_left' (by decide), splitOn_flatMap_append]
  · rfl
  · simp only [List.forall_mem_cons] at hcolon ⊢
    exact ⟨hcolon.1, List.not_mem_nil, hcolon.2⟩

/-! ### The arguments read back -/

/-- The value of an argument of a bonded node. -/
def argValue (n : Node) : Arg → Bytes
  | .bond => n.bond
  | .members => join [comma] n.bondMembers
  | .mode => orDefault n.bondMode (str "802.3ad")
  | .rate => orDefault n.lacpRate (str "fast")
  | .hash => orDefault n.hashPolicy (str "layer3+4")
  | .vlan => n.vlan

/-- Every argument is written once, except that there may be no VLAN. -/
theorem filter_bondArgs (n : Node) (k : Arg) :
    ((bondArgs n).filter fun x => argOf x = some k) =
      if k = .vlan ∧ n.vlan = [] then [] else [k.key ++ argValue n k] := by
  have hargs : bondArgs n = (([Arg.bond, .members, .mode, .rate, .hash] ++ if n.vlan ≠ [] then [Arg.vlan] else []).map
      fun k : Arg => k.key ++ argValue n k) ++ [str "network-config=disabled"] := by
    unfold bondArgs
    split <;> rfl
  have hlast : argOf (str "network-config=disabled") = none := by decide
  rw [hargs, List.filter_append, List.filter_map, List.filter_cons_of_neg (by simp [hlast]), List.filter_nil,
    List.append_nil]
  simp only [Function.comp_def, argOf_key_append, Option.some.injEq]
  by_cases hvlan : n.vlan = []
  · cases k <;> simp [hvlan]
  · cases k <;> simp [hvlan]

section Read

variable {n : Node} {cmdline : Bytes} {before after : List Bytes} (hblank : ∀ v ∈ n.values, BlankFree v)
  (hbonded : n.bonded) (hkernel : n.kernelNet = [])
  (hwords : words cmdline = before ++ words (buildKernelNet n) ++ after)
  (hothers : ∀ x ∈ before ++ after, ∀ k : Arg, ¬ k.key <+: x)
include hblank hbonded hkernel hwords hothers

/-- The words of the command line that are read as the argument `k`. -/
private theorem filter_words (k : Arg) :
    ((words cmdline).filter fun x => argOf x = some k) = (bondArgs n).filter fun x => argOf x = some k := by
  have hnone : ∀ l : List Bytes, (∀ x ∈ l, ∀ k : Arg, ¬ k.key <+: x) → l.filter (fun x => argOf x = some k) = [] := by
    intro l hl
    refine List.filter_eq_nil_iff.mpr fun x hx => ?_
    simpa [argOf_eq_some_iff] using hl x hx k
  have hip : ¬ argOf (ipArg n (vlanDevice n.bond n.vlan)) = some k := by
    rw [argOf_eq_some_iff, ipArg_eq]
    rintro ⟨s, hs⟩
    have := congrArg (List.take 3) hs
    rw [List.take_append_of_le_length (Nat.le_trans (by decide) (length_key k)),
      List.take_append_of_le_length (by decide)] at this
    cases k <;> exact absurd this (by decide)
  rw [hwords, words_buildKernelNet hblank hbonded hkernel, List.filter_append, List.filter_append,
    hnone _ fun x hx => hothers x (List.mem_append_left _ hx), hnone _ fun x hx =>
      hothers x (List.mem_append_right _ hx),
    List.filter_cons_of_neg (by simpa using hip), List.nil_append, List.append_nil]

/-- The hook's variables hold the values of the node. -/
private theorem readArgs_words (k : Arg) : readArgs (words cmdline) k = argValue n k := by
  have hfilter := filter_words hblank hbonded hkernel hwords hothers k
  by_cases hk : k = .vlan ∧ n.vlan = []
  · obtain ⟨rfl, hvlan⟩ := hk
    rw [readArgs_of_absent, argValue, hvlan]
    rw [hfilter, filter_bondArgs, if_pos ⟨rfl, hvlan⟩]
  · rw [readArgs_of_unique (x := k.key ++ argValue n k), List.drop_left]
    rw [hfilter, filter_bondArgs, if_neg hk]

/-- The configuration of the hook; the proxy has put in the defaults already. -/
theorem config_words (hmembers : join [comma] n.bondMembers ≠ []) :
    config cmdline = some {
      bond := n.bond
      members := join [comma] n.bondMembers
      mode := orDefault n.bondMode (str "802.3ad")
      rate := orDefault n.lacpRate (str "fast")
      hash := orDefault n.hashPolicy (str "layer3+4")
      vid := n.vlan } := by
  have hread := readArgs_words hblank hbonded hkernel hwords hothers
  have hdef : ∀ v d : Bytes, d ≠ [] → orDefault v d ≠ [] := by
    intro v d hd
    unfold orDefault
    split
    · exact hd
    · assumption
  unfold config
  simp only [hread, argValue]
  rw [if_pos ⟨hdef _ _ (by decide), hmembers⟩, if_pos (hdef _ _ (by decide)), if_pos (hdef _ _ (by decide)),
    if_pos (hdef _ _ (by decide))]

end Read

/-- The configuration of the hook has the values of the node, or the defaults. -/
structure Decodes (n : Node) (c : Config) : Prop where
  bond : c.bond = if n.bondName = [] then str "bond0" else n.bondName
  mode : c.mode = if n.bondMode = [] then str "802.3ad" else n.bondMode
  rate : c.rate = if n.lacpRate = [] then str "fast" else n.lacpRate
  hash : c.hash = if n.hashPolicy = [] then str "layer3+4" else n.hashPolicy
  vid : c.vid = n.vlan
  specs : c.specs = n.bondMembers

/-- The bond hook decodes what the proxy encodes, on every command line that contains the parameters as a run of words
and no other argument of the hook.  The interface that the hook configures is the device of the `ip=` argument, if no
colon occurs in that device or in a field before it. -/
theorem config_buildKernelNet (n : Node) (cmdline : Bytes) (before after : List Bytes)
    (hbonded : n.bonded) (hkernel : n.kernelNet = []) (hblank : ∀ v ∈ n.values, BlankFree v)
    (hmembers : ∀ m ∈ n.bondMembers, m ≠ [] ∧ comma ∉ m)
    (hwords : words cmdline = before ++ words (buildKernelNet n) ++ after)
    (hothers : ∀ x ∈ before ++ after, ∀ k : Arg, ¬ k.key <+: x) :
    ∃ c, config cmdline = some c ∧ Decodes n c ∧
      (∀ pciNet s, Hook.run pciNet cmdline = some s → s.config = c ∧ s.interface = c.interface) ∧
      ((∀ v ∈ [n.ip, n.gw, n.netmask, n.hostname, n.bondName, n.vlan], colon ∉ v) →
        ipDevice (buildKernelNet n) = some c.interface) := by
  have hne : n.bondMembers ≠ [] := by
    intro h
    simp [Node.bonded, h] at hbonded
  have hjoin : join [comma] n.bondMembers ≠ [] := by
    obtain ⟨m, hm⟩ := List.exists_mem_of_ne_nil _ hne
    obtain ⟨b, hb⟩ := List.exists_mem_of_ne_nil _ (hmembers m hm).1
    exact List.ne_nil_of_mem (mem_join hm hb)
  have hconfig := config_words hblank hbonded hkernel hwords hothers hjoin
  refine ⟨_, hconfig, ⟨rfl, rfl, rfl, rfl, rfl, ?_⟩, ?_, ?_⟩
  · exact fields_join (fun m hm => (hmembers m hm).2) (fun m hm => (hmembers m hm).1) hne
  · intro pciNet s hs
    unfold Hook.run at hs
    rw [hconfig] at hs
    simp only [Option.bind_eq_bind, Option.bind_some, Option.ite_none_left_eq_some, Option.some.injEq] at hs
    obtain ⟨-, rfl⟩ := hs
    exact ⟨rfl, rfl⟩
  · intro hcolon
    simp only [List.forall_mem_cons] at hcolon
    obtain ⟨hip, hgw, hmask, hhost, hbond, hvlan, -⟩ := hcolon
    have hdevice : colon ∉ vlanDevice n.bond n.vlan := by
      have hb : colon ∉ n.bond := by
        unfold Node.bond orDefault
        split
        · decide
        · exact hbond
      have hdot : colon ∉ str "." := by decide
      unfold vlanDevice
      split <;> simp [hb, hdot, hvlan]
    exact ipDevice_buildKernelNet hblank hbonded hkernel (by simp [hip, hgw, hmask, hhost, hdevice])

/-- A node with a VLAN on its bond. -/
def bondedNode : Node where
  ip := str "10.0.0.5"
  netmask := str "255.255.255.0"
  gw := str "10.0.0.1"
  vlan := str "42"
  hostname := str "node1"
  bondMembers := [str "0000:3b:00.0", str "ens2f1"]

/-- A command line around the parameters of a node. -/
def bootCmdline (n : Node) : Bytes := str "ro root=/dev/ram0 " ++ buildKernelNet n ++ str " quiet"

theorem config_buildKernelNet_bonded :
    ∃ c, config (bootCmdline bondedNode) = some c ∧ Decodes bondedNode c ∧
      ipDevice (buildKernelNet bondedNode) = some c.interface := by
  obtain ⟨c, hc, hdec, -, hdev⟩ := config_buildKernelNet bondedNode (bootCmdline bondedNode)
    [str "ro", str "root=/dev/ram0"] [str "quiet"] (by decide) (by decide) (by decide) (by decide) (by decide +kernel)
    (fun x hx k => by revert x; cases k <;> decide)
  exact ⟨c, hc, hdec, hdev (by decide)⟩

/-- With an IPv6 address the device is no longer the sixth field of the `ip=` argument. -/
theorem ipDevice_ne_interface :
    ¬ ∀ (n : Node) (cmdline : Bytes) (before after : List Bytes), n.bonded → n.kernelNet = [] →
      (∀ v ∈ n.values, BlankFree v) → (∀ m ∈ n.bondMembers, m ≠ [] ∧ comma ∉ m) →
      words cmdline = before ++ words (buildKernelNet n) ++ after →
      (∀ x ∈ before ++ after, ∀ k : Arg, ¬ k.key <+: x) →
      ∃ c, config cmdline = some c ∧ Decodes n c ∧ ipDevice (buildKernelNet n) = some c.interface := by
  intro h
  obtain ⟨c, hc, -, hdev⟩ := h { bondedNode with ip := str "fd00::2" }
    (bootCmdline { bondedNode with ip := str "fd00::2" }) [str "ro", str "root=/dev/ram0"] [str "quiet"]
    (by decide) (by decide) (by decide) (by decide) (by decide +kernel)
    (fun x hx k => by revert x; cases k <;> decide)
  have hiface : (config (bootCmdline { bondedNode with ip := str "fd00::2" })).map Config.interface =
      some (str "bond0.42") := by decide +kernel
  have hmask : ipDevice (buildKernelNet { bondedNode with ip := str "fd00::2" }) = some (str "255.255.255.0") := by
    decide +kernel
  rw [hc, Option.map_some, ← hdev, hmask] at hiface
  exact absurd hiface (by decide)

end MaasBoot
