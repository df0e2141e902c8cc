import MaasBoot.Lib.FieldLines
import MaasBoot.Lib.Sha256
import MaasBoot.NodeScript

/-!
# The config hash of a node's ISO

`ComputeNodeConfigHash` names the content of a node's ISO: a cached ISO is served again as long as the hash stays the
same.  The hash is taken of the node's values, one line each; the bond members go into one line, joined by commas.

Equal hashes mean equal scripts for two requests unless they have the same lines and show different values in their
scripts (`render_eq_of_hash_eq_iff`).  There are two ways to get there.  The script names the members that are PCI
addresses one by one, so a comma in a member can make two lists of one text.  And a value with a newline can contain
what looks like the next field; a request in which no value does so shares its lines only with requests that have
the same values (`configLines_eq_iff`).
-/

namespace MaasBoot

/-- The names and values that are hashed. -/
def configFields (n : Node) (mac proxyBase : Bytes) : Fields :=
  [(str "mac", mac), (str "ip", n.ip), (str "netmask", n.netmask), (str "gw", n.gw), (str "vlan", n.vlan),
    (str "dev", n.dev), (str "hostname", n.hostname), (str "dns", n.dns), (str "dns2", n.dns2),
    (str "bond_members", join (str ",") n.bondMembers), (str "bond_name", n.bondName), (str "bond_mode", n.bondMode),
    (str "lacp_rate", n.lacpRate), (str "hash_policy", n.hashPolicy), (str "kernel_net", n.kernelNet),
    (str "proxy_base", trimRight proxyBase 47)]

/-- The text that is hashed. -/
def configText (n : Node) (mac proxyBase : Bytes) : Bytes := (configFields n mac proxyBase).text

def computeNodeConfigHash (sha256 : Bytes → Bytes) (n : Node) (mac proxyBase : Bytes) : Bytes :=
  (hexEncode (sha256 (configText n mac proxyBase))).take 16

/-! ### The lines of a request -/

/-- The lines of a request: one for every value, and more for a value with newlines. -/
def configLines (n : Node) (mac proxyBase : Bytes) : List Bytes := (configFields n mac proxyBase).lines

/-- The text of a request is given by its lines. -/
theorem configText_eq_iff {n₁ n₂ : Node} {mac₁ mac₂ base₁ base₂ : Bytes} :
    configText n₁ mac₁ base₁ = configText n₂ mac₂ base₂ ↔ configLines n₁ mac₁ base₁ = configLines n₂ mac₂ base₂ :=
  Fields.text_eq_iff

theorem computeNodeConfigHash_congr (sha256 : Bytes → Bytes) {n₁ n₂ : Node} {mac₁ mac₂ base₁ base₂ : Bytes}
    (h : configLines n₁ mac₁ base₁ = configLines n₂ mac₂ base₂) :
    computeNodeConfigHash sha256 n₁ mac₁ base₁ = computeNodeConfigHash sha256 n₂ mac₂ base₂ := by
  unfold computeNodeConfigHash
  rw [configText_eq_iff.mpr h]

/-- The two requests differ at most in the list of bond members, and in slashes at the end of the proxy base. -/
def SameOtherwise (n₁ n₂ : Node) (mac₁ mac₂ base₁ base₂ : Bytes) : Prop :=
  mac₁ = mac₂ ∧ { n₁ with bondMembers := [] } = { n₂ with bondMembers := [] } ∧
    trimRight base₁ 47 = trimRight base₂ 47

theorem configFields_eq_iff {n₁ n₂ : Node} {mac₁ mac₂ base₁ base₂ : Bytes} :
    configFields n₁ mac₁ base₁ = configFields n₂ mac₂ base₂ ↔
      SameOtherwise n₁ n₂ mac₁ mac₂ base₁ base₂ ∧ join (str ",") n₁.bondMembers = join (str ",") n₂.bondMembers := by
  simp only [configFields, SameOtherwise, List.cons.injEq, Prod.mk.injEq, true_and, and_true, Node.mk.injEq]
  tauto

/-- The lines of a readable request determine its values, and of the bond members the joined text. -/
theorem configLines_eq_iff {n₁ n₂ : Node} {mac₁ mac₂ base₁ base₂ : Bytes}
    (hread : (configFields n₁ mac₁ base₁).Readable) :
    configLines n₁ mac₁ base₁ = configLines n₂ mac₂ base₂ ↔
      SameOtherwise n₁ n₂ mac₁ mac₂ base₁ base₂ ∧ join (str ",") n₁.bondMembers = join (str ",") n₂.bondMembers := by
  have hnames : Fields.Names ((configFields {} [] []).map (·.1)) := ⟨by decide, by decide, by decide⟩
  rw [← configFields_eq_iff]
  exact Fields.lines_eq_iff rfl hnames hread

/-! ### What a script shows -/

/-- The values that are written into the script as they are. -/
def shownValues (n : Node) (mac proxyBase : Bytes) : List Bytes :=
  [mac, n.hostname, n.vlan, n.ip, n.netmask, n.gw, n.dns, trimRight proxyBase 47]

/-- The two requests agree in the values that their scripts show. -/
def SameShown (u : Unicode) (n₁ n₂ : Node) (mac₁ mac₂ base₁ base₂ : Bytes) : Prop :=
  shownValues n₁ mac₁ base₁ = shownValues n₂ mac₂ base₂ ∧ n₁.pciMembers u = n₂.pciMembers u

theorem SameOtherwise.shownValues_eq {n₁ n₂ : Node} {mac₁ mac₂ base₁ base₂ : Bytes}
    (h : SameOtherwise n₁ n₂ mac₁ mac₂ base₁ base₂) : shownValues n₁ mac₁ base₁ = shownValues n₂ mac₂ base₂ := by
  obtain ⟨rfl, hn, hbase⟩ := h
  simp only [Node.mk.injEq, true_and] at hn
  obtain ⟨hip, hmask, hgw, hvlan, -, hhost, hdns, -⟩ := hn
  simp only [shownValues, hip, hmask, hgw, hvlan, hhost, hdns, hbase]

/-- Requests that differ only in their bond members show the same if these have the same PCI members. -/
theorem SameOtherwise.sameShown {u : Unicode} {n₁ n₂ : Node} {mac₁ mac₂ base₁ base₂ : Bytes}
    (h : SameOtherwise n₁ n₂ mac₁ mac₂ base₁ base₂) (hpci : n₁.pciMembers u = n₂.pciMembers u) :
    SameShown u n₁ n₂ mac₁ mac₂ base₁ base₂ := ⟨h.shownValues_eq, hpci⟩

theorem renderNodeIPXEScript_congr {u : Unicode} {n₁ n₂ : Node} {mac₁ mac₂ base₁ base₂ : Bytes}
    (h : SameShown u n₁ n₂ mac₁ mac₂ base₁ base₂) :
    renderNodeIPXEScript u n₁ mac₁ base₁ = renderNodeIPXEScript u n₂ mac₂ base₂ := by
  obtain ⟨hvalues, hpci⟩ := h
  simp only [shownValues, List.cons.injEq, and_true] at hvalues
  obtain ⟨rfl, hhost, hvlan, hip, hmask, hgw, hdns, hbase⟩ := hvalues
  simp only [renderNodeIPXEScript, nodeScriptLines, introLines, targetLines, matchLines, attemptLines, setLine,
    effIface, hpci, hip, hmask, hgw, hvlan, hhost, hdns, hbase]

/-- The values that the script shows have no newlines, nor have the bond members. -/
def NewlineFree (n : Node) (mac proxyBase : Bytes) : Prop :=
  ∀ v ∈ shownValues n mac proxyBase ++ n.bondMembers, 10 ∉ v

/-- A request that shares the lines of a readable one has no newlines if that has none. -/
theorem NewlineFree.of_readable {n₁ n₂ : Node} {mac₁ mac₂ base₁ base₂ : Bytes} (h : NewlineFree n₁ mac₁ base₁)
    (hread : (configFields n₁ mac₁ base₁).Readable)
    (hlines : configLines n₁ mac₁ base₁ = configLines n₂ mac₂ base₂) : NewlineFree n₂ mac₂ base₂ := by
  obtain ⟨hsame, hjoin⟩ := (configLines_eq_iff hread).mp hlines
  have hvalues := hsame.shownValues_eq
  intro v hv
  rcases List.mem_append.mp hv with hv | hv
  · exact h v (List.mem_append_left _ (hvalues ▸ hv))
  · intro hnl
    have hin : (10 : UInt8) ∈ join (str ",") n₁.bondMembers := hjoin ▸ mem_join hv hnl
    rcases mem_or_mem_of_mem_join hin with hsep | ⟨m, hm, hnl⟩
    · revert hsep
      decide
    · exact h m (List.mem_append_right _ hm) hnl

/-! ### The script determines what it shows -/

private theorem newline_not_mem_formatNat {b w n : Nat} (hb : 1 < b) (hb' : b ≤ 16) :
    (10 : UInt8) ∉ formatNat b w n := by
  intro h
  have := isLowerHex_of_mem_formatNat hb hb' h
  revert this
  decide

theorem newline_not_mem_formatIPXEPCI {u : Unicode} {m : Bytes} (h : (10 : UInt8) ∉ m) : 10 ∉ formatIPXEPCI u m := by
  unfold formatIPXEPCI
  split
  · have hf : ∀ w n, (10 : UInt8) ∉ formatNat 16 w n := fun w n => newline_not_mem_formatNat (by decide) (by decide)
    simp only [PCIAddr.format, List.mem_append, List.mem_singleton, hf, colon, dot, false_or, or_false]
    decide
  · intro hm
    exact h (mem_of_mem_trimSpace (mem_of_mem_toLower hm (by decide) (by decide)))

private theorem not_prefix_append {p a : Bytes} (b : Bytes) (hlen : p.length ≤ a.length) (h : ¬ p <+: a) :
    ¬ p <+: a ++ b :=
  fun hp => h (List.prefix_of_prefix_length_le hp (List.prefix_append a b) hlen)

private theorem pciLine_injective {p q : Nat × Bytes} (h : pciLine p = pciLine q) : p = q := by
  have hspace : ∀ n, (32 : UInt8) ∉ decimal n := by
    intro n hm
    have := isLowerHex_of_mem_formatNat (b := 10) (by decide) (by decide) hm
    revert this
    decide
  simp only [pciLine, List.append_assoc, List.append_cancel_left_eq] at h
  obtain ⟨h1, h2⟩ := append_cons_cancel (hspace p.1) (hspace q.1) h
  exact Prod.ext (formatNat_injective (by decide) (by decide) h1) h2

/-- The lines behind those of the PCI members, up to those that configure an uplink. -/
private def searchLines (u : Unicode) (n : Node) (mac : Bytes) : List Bytes :=
  targetLines u n mac ++
    [str ":top",
      str "set nic:int32 0",
      str ":loop",
      str "isset " ++ nicMac ++ str " || goto endpass",
      str "echo Checking " ++ netNic ++ str " (" ++ nicMac ++ str " " ++ nicBusdevfn ++ str ")..."] ++
    matchLines u n mac

/-- The lines behind those that configure an uplink. -/
private def finalLines (u : Unicode) (n : Node) (mac : Bytes) : List Bytes :=
  (if n.pciMembers u ≠ [] ∨ mac ≠ [] then [str ":next"] else []) ++
    [str "inc nic && goto loop",
      str ":endpass",
      str "echo no matching uplink reached proxy; retry in 3s",
      str "sleep 3",
      str "goto top",
      str ":os_done",
      str "exit 0"]

private theorem renderNodeIPXEScript_eq (u : Unicode) (n : Node) (mac base : Bytes) :
    renderNodeIPXEScript u n mac base =
      unlines (introLines n mac) ++ (unlines ((n.pciMembers u).map pciLine) ++ (unlines (searchLines u n mac) ++
        (unlines (attemptLines n (trimRight base 47)) ++ unlines (finalLines u n mac)))) := by
  unfold renderNodeIPXEScript nodeScriptLines searchLines finalLines
  simp only [← unlines_append, List.append_assoc]

/-- Behind the lines of the PCI members comes a line of another kind. -/
private theorem not_prefix_searchLines (u : Unicode) (n : Node) (mac rest : Bytes) :
    ¬ str "set pci" <+: unlines (searchLines u n mac) ++ rest := by
  unfold searchLines
  rw [unlines_append, unlines_append, List.append_assoc, List.append_assoc]
  unfold targetLines
  split
  · rw [unlines_cons, List.append_assoc, List.append_assoc]
    exact not_prefix_append _ (by decide) (by decide)
  · rw [show unlines [] = [] from rfl, List.nil_append, unlines_cons, List.append_assoc]
    rintro ⟨s, hs⟩
    have hhead := congrArg List.head? hs
    rw [List.head?_append, List.head?_append, show (str "set pci").head? = some 115 by decide,
      show (str ":top").head? = some 58 by decide] at hhead
    simp at hhead

private theorem newline_not_mem_pciMembers {u : Unicode} {n : Node} (h : ∀ m ∈ n.bondMembers, (10 : UInt8) ∉ m) :
    ∀ p ∈ n.pciMembers u, 10 ∉ p.2 := by
  intro p hp
  obtain ⟨m, hm, rfl⟩ := List.mem_map.mp hp
  have := List.fst_mem_of_mem_zipIdx (List.mem_filter.mp hm).1
  exact newline_not_mem_formatIPXEPCI (h m.1 this)

/-- The lines of the PCI members end where a line of another kind starts. -/
private theorem pciMembers_eq_of_append_eq {u : Unicode} {n₁ n₂ : Node} (h₁ : ∀ m ∈ n₁.bondMembers, (10 : UInt8) ∉ m)
    (h₂ : ∀ m ∈ n₂.bondMembers, (10 : UInt8) ∉ m) {t₁ t₂ : Bytes} (ht₁ : ¬ str "set pci" <+: t₁)
    (ht₂ : ¬ str "set pci" <+: t₂)
    (h : unlines ((n₁.pciMembers u).map pciLine) ++ t₁ = unlines ((n₂.pciMembers u).map pciLine) ++ t₂) :
    n₁.pciMembers u = n₂.pciMembers u := by
  have hkind : ∀ n : Node, (∀ m ∈ n.bondMembers, (10 : UInt8) ∉ m) →
      ∀ l ∈ (n.pciMembers u).map pciLine, 10 ∉ l ∧ str "set pci" <+: l := by
    intro n hn l hl
    obtain ⟨p, hp, rfl⟩ := List.mem_map.mp hl
    refine ⟨?_, by simp [pciLine]⟩
    simp only [pciLine, List.mem_append, not_or]
    exact ⟨⟨⟨by decide, newline_not_mem_formatNat (by decide) (by decide)⟩, by decide⟩,
      newline_not_mem_pciMembers hn p hp⟩
  exact List.map_injective_iff.mpr (fun p q => pciLine_injective)
    (unlines_append_inj (hkind n₁ h₁) (hkind n₂ h₂) ht₁ ht₂ h)

/-- The hostname is the rest of its line. -/
private theorem hostname_eq_of_append_eq {n₁ n₂ : Node} {mac : Bytes} (hvlan : n₁.vlan = n₂.vlan) (hmac : 10 ∉ mac)
    (h₁ : 10 ∉ n₁.hostname) (h₂ : 10 ∉ n₂.hostname) {t₁ t₂ : Bytes}
    (h : unlines (introLines n₁ mac) ++ t₁ = unlines (introLines n₂ mac) ++ t₂) :
    n₁.hostname = n₂.hostname ∧ t₁ = t₂ := by
  have hline : ∀ n : Node, 10 ∉ n.hostname → 10 ∉ n.hostname ++ (str " (" ++ (mac ++ str ")")) := by
    intro n hn
    simp only [List.mem_append, not_or]
    exact ⟨hn, by decide, hmac, by decide⟩
  simp only [introLines, List.cons_append, List.nil_append, unlines_cons, List.append_assoc,
    List.append_cancel_left_eq, List.cons.injEq, true_and, hvlan] at h
  obtain ⟨hhost, htail⟩ := append_cons_cancel (hline n₁ h₁) (hline n₂ h₂) (by simpa only [List.append_assoc] using h)
  exact ⟨List.append_cancel_right hhost, List.append_cancel_left htail⟩

/-- The lines that configure an uplink determine the name server and the proxy. -/
private theorem dns_base_eq_of_attemptLines_eq {n₁ n₂ : Node} (hvlan : n₁.vlan = n₂.vlan) (hip : n₁.ip = n₂.ip)
    (hmask : n₁.netmask = n₂.netmask) (hgw : n₁.gw = n₂.gw) (h₁ : 10 ∉ n₁.dns) (h₂ : 10 ∉ n₂.dns)
    {base₁ base₂ : Bytes} (h : unlines (attemptLines n₁ base₁) = unlines (attemptLines n₂ base₂)) :
    n₁.dns = n₂.dns ∧ base₁ = base₂ := by
  have hiface : effIface n₁ = effIface n₂ := by
    unfold effIface
    rw [hvlan]
  have hiface' : 10 ∉ effIface n₂ := by
    unfold effIface
    split <;> decide
  have hset : ∀ setting value, setLine n₁ setting value = setLine n₂ setting value := by
    intro setting value
    unfold setLine
    rw [hiface]
  simp only [attemptLines, unlines_append, hvlan, hip, hmask, hgw, hset, hiface, List.append_assoc,
    List.append_cancel_left_eq] at h
  have hkind : ∀ v : Bytes, 10 ∉ v → ∀ l ∈ setLine n₂ "/dns " v, 10 ∉ l ∧ str "set " <+: l := by
    intro v hv l hl
    unfold setLine at hl
    split at hl
    · obtain rfl := List.mem_singleton.mp hl
      refine ⟨?_, by simp⟩
      simp only [List.mem_append, not_or]
      exact ⟨⟨⟨by decide, hiface'⟩, by decide⟩, hv⟩
    · cases hl
  have hifopen : ∀ rest, ¬ str "set " <+: str "ifopen " ++ rest := fun rest =>
    not_prefix_append rest (by decide) (by decide)
  simp only [unlines_cons, List.append_assoc] at h
  have hdns : n₁.dns = n₂.dns := by
    have hlines := unlines_append_inj (hkind n₁.dns h₁) (hkind n₂.dns h₂) (hifopen _) (hifopen _) h
    unfold setLine at hlines
    split at hlines <;> split at hlines
    · simpa using hlines
    · cases hlines
    · cases hlines
    · rename_i hnil₁ hnil₂
      rw [not_not.mp hnil₁, not_not.mp hnil₂]
  rw [hdns] at h
  simp only [List.append_cancel_left_eq, List.append_cancel_right_eq, List.cons.injEq, true_and] at h
  exact ⟨hdns, h⟩

/-- Requests with the same lines and the same script, both without newlines, agree in what the script shows. -/
theorem sameShown_of_render_eq {u : Unicode} {n₁ n₂ : Node} {mac₁ mac₂ base₁ base₂ : Bytes}
    (h₁ : NewlineFree n₁ mac₁ base₁) (h₂ : NewlineFree n₂ mac₂ base₂)
    (hlines : configLines n₁ mac₁ base₁ = configLines n₂ mac₂ base₂)
    (h : renderNodeIPXEScript u n₁ mac₁ base₁ = renderNodeIPXEScript u n₂ mac₂ base₂) :
    SameShown u n₁ n₂ mac₁ mac₂ base₁ base₂ := by
  simp only [NewlineFree, shownValues, List.forall_mem_append, List.forall_mem_cons] at h₁ h₂
  obtain ⟨⟨hmac₁, hhost₁, hvlan₁, hip₁, hmask₁, hgw₁, hdns₁, -⟩, hmem₁⟩ := h₁
  obtain ⟨⟨hmac₂, hhost₂, hvlan₂, hip₂, hmask₂, hgw₂, hdns₂, -⟩, hmem₂⟩ := h₂
  -- the first five lines are those of values that the script shows
  have hfirst : mac₁ = mac₂ ∧ n₁.ip = n₂.ip ∧ n₁.netmask = n₂.netmask ∧ n₁.gw = n₂.gw ∧ n₁.vlan = n₂.vlan := by
    unfold configLines configFields at hlines
    rw [Fields.lines_cons_of_notMem (by decide) hmac₁, Fields.lines_cons_of_notMem (by decide) hip₁,
      Fields.lines_cons_of_notMem (by decide) hmask₁, Fields.lines_cons_of_notMem (by decide) hgw₁,
      Fields.lines_cons_of_notMem (by decide) hvlan₁, Fields.lines_cons_of_notMem (by decide) hmac₂,
      Fields.lines_cons_of_notMem (by decide) hip₂, Fields.lines_cons_of_notMem (by decide) hmask₂,
      Fields.lines_cons_of_notMem (by decide) hgw₂, Fields.lines_cons_of_notMem (by decide) hvlan₂] at hlines
    simp only [List.cons.injEq, List.append_cancel_left_eq] at hlines
    obtain ⟨hmac, hip, hmask, hgw, hvlan, -⟩ := hlines
    exact ⟨hmac, hip, hmask, hgw, hvlan⟩
  obtain ⟨rfl, hip, hmask, hgw, hvlan⟩ := hfirst
  rw [renderNodeIPXEScript_eq, renderNodeIPXEScript_eq] at h
  obtain ⟨hhost, h⟩ := hostname_eq_of_append_eq hvlan hmac₁ hhost₁ hhost₂ h
  have hpci := pciMembers_eq_of_append_eq hmem₁ hmem₂ (not_prefix_searchLines _ _ _ _)
    (not_prefix_searchLines _ _ _ _) h
  have hsearch : searchLines u n₁ mac₁ = searchLines u n₂ mac₁ := by
    simp only [searchLines, targetLines, matchLines, hpci]
  have hfinal : finalLines u n₁ mac₁ = finalLines u n₂ mac₁ := by simp only [finalLines, hpci]
  rw [hpci, hsearch, hfinal] at h
  have hattempt := List.append_cancel_right (List.append_cancel_left (List.append_cancel_left h))
  obtain ⟨hdns, hbase⟩ := dns_base_eq_of_attemptLines_eq hvlan hip hmask hgw hdns₁ hdns₂ hattempt
  exact ⟨by simp only [shownValues, hhost, hvlan, hip, hmask, hgw, hdns, hbase], hpci⟩

/-! ### When equal hashes mean equal scripts -/

/-- Assume that the hash does not collide on the two texts.  Equal hashes mean equal scripts if the two requests, in
case they have the same lines, agree in what the script shows.  This is also necessary if what the scripts show has
no newlines; for the second request this need not be assumed if the first is readable. -/
theorem render_eq_of_hash_eq_iff (u : Unicode) (sha256 : Bytes → Bytes) (n₁ n₂ : Node)
    (mac₁ mac₂ base₁ base₂ : Bytes)
    (hsha : computeNodeConfigHash sha256 n₁ mac₁ base₁ = computeNodeConfigHash sha256 n₂ mac₂ base₂ →
      configText n₁ mac₁ base₁ = configText n₂ mac₂ base₂) :
    ((configLines n₁ mac₁ base₁ = configLines n₂ mac₂ base₂ → SameShown u n₁ n₂ mac₁ mac₂ base₁ base₂) →
      computeNodeConfigHash sha256 n₁ mac₁ base₁ = computeNodeConfigHash sha256 n₂ mac₂ base₂ →
      renderNodeIPXEScript u n₁ mac₁ base₁ = renderNodeIPXEScript u n₂ mac₂ base₂) ∧
    (NewlineFree n₁ mac₁ base₁ → (configFields n₁ mac₁ base₁).Readable ∨ NewlineFree n₂ mac₂ base₂ →
      ((computeNodeConfigHash sha256 n₁ mac₁ base₁ = computeNodeConfigHash sha256 n₂ mac₂ base₂ →
        renderNodeIPXEScript u n₁ mac₁ base₁ = renderNodeIPXEScript u n₂ mac₂ base₂) ↔
      (configLines n₁ mac₁ base₁ = configLines n₂ mac₂ base₂ → SameShown u n₁ n₂ mac₁ mac₂ base₁ base₂))) := by
  have henough : (configLines n₁ mac₁ base₁ = configLines n₂ mac₂ base₂ → SameShown u n₁ n₂ mac₁ mac₂ base₁ base₂) →
      computeNodeConfigHash sha256 n₁ mac₁ base₁ = computeNodeConfigHash sha256 n₂ mac₂ base₂ →
      renderNodeIPXEScript u n₁ mac₁ base₁ = renderNodeIPXEScript u n₂ mac₂ base₂ := fun h hhash =>
    renderNodeIPXEScript_congr (h (configText_eq_iff.mp (hsha hhash)))
  refine ⟨henough, fun h₁ h₂ => ⟨fun h hlines => ?_, henough⟩⟩
  have hrender := h (computeNodeConfigHash_congr sha256 hlines)
  have h₂' : NewlineFree n₂ mac₂ base₂ := h₂.elim (fun hread => h₁.of_readable hread hlines) id
  exact sameShown_of_render_eq h₁ h₂' hlines hrender

/-- The text of a script from the hostname `a` to the name server `b`. -/
private def hostToDns : Bytes :=
  (join [10] ((nodeScriptLines .asciiOnly { hostname := str "a", dns := str "b" } [] []).take 11)).drop 33

-- With newlines in what both scripts show, no condition on the values alone is exact: these two requests have the
-- same lines, and their hostnames and name servers differ, but in such a way that the scripts are the same.
example : ∃ n₁ n₂ : Node, configLines n₁ [] [] = configLines n₂ [] [] ∧ n₁.hostname ≠ n₂.hostname ∧
    renderNodeIPXEScript .asciiOnly n₁ [] [] = renderNodeIPXEScript .asciiOnly n₂ [] [] :=
  ⟨{ dev := str "eth0\nhostname=" ++ hostToDns ++ str "\ndns2=", hostname := str "a",
      dns := str "b\ndns2=\nhostname=" ++ hostToDns },
    { dev := str "eth0", hostname := hostToDns ++ str "\ndns2=\nhostname=a", dns := str "b",
      dns2 := str "\nhostname=" ++ hostToDns ++ str "\ndns2=" }, by decide +kernel⟩

/-- A node with two uplinks that are given by name. -/
def sampleNode (bondMembers : List Bytes) : Node := { ip := str "192.0.2.1", bondMembers := bondMembers }

def sampleMac : Bytes := str "02:5e:1c:9a:47:d3"

def sampleBase : Bytes := str "http://maas.example.com/boot"

def digest (s : Bytes) : Bytes := (sum256 s).toList

/-- The names of interfaces do not occur in the script. -/
theorem render_eq_of_hash_eq_sample :
    computeNodeConfigHash digest (sampleNode [str "ens1f0", str "ens1f1"]) sampleMac sampleBase =
        computeNodeConfigHash digest (sampleNode [str "ens1f0,ens1f1"]) sampleMac sampleBase ∧
      renderNodeIPXEScript .asciiOnly (sampleNode [str "ens1f0", str "ens1f1"]) sampleMac sampleBase =
        renderNodeIPXEScript .asciiOnly (sampleNode [str "ens1f0,ens1f1"]) sampleMac sampleBase := by
  have hlines : configLines (sampleNode [str "ens1f0", str "ens1f1"]) sampleMac sampleBase =
      configLines (sampleNode [str "ens1f0,ens1f1"]) sampleMac sampleBase := by decide
  have hhash := computeNodeConfigHash_congr digest hlines
  exact ⟨hhash, (render_eq_of_hash_eq_iff _ _ _ _ _ _ _ _ fun _ => configText_eq_iff.mpr hlines).1
    (fun _ => ⟨rfl, by decide⟩) hhash⟩

/-- Two members in one string, as a careless list would have them. -/
def membersInOneString : Node := { bondMembers := [str "0000:3b:00.0,0000:af:00.1"] }

def membersInTwoStrings : Node := { bondMembers := [str "0000:3b:00.0", str "0000:af:00.1"] }

/-- An address with a line that looks like a netmask. -/
def netmaskInAddress : Node := { ip := str "192.0.2.1\nnetmask=255.255.0.0", netmask := str "255.0.0.0" }

def netmaskInNetmask : Node := { ip := str "192.0.2.1", netmask := str "255.255.0.0\nnetmask=255.0.0.0" }

/-- Both pairs have the same hash, whatever the hash function, and different scripts. -/
theorem hash_eq_render_ne :
    (∀ sha256 : Bytes → Bytes, computeNodeConfigHash sha256 membersInOneString sampleMac sampleBase =
        computeNodeConfigHash sha256 membersInTwoStrings sampleMac sampleBase) ∧
      renderNodeIPXEScript .asciiOnly membersInOneString sampleMac sampleBase ≠
        renderNodeIPXEScript .asciiOnly membersInTwoStrings sampleMac sampleBase ∧
    (∀ sha256 : Bytes → Bytes, computeNodeConfigHash sha256 netmaskInAddress sampleMac sampleBase =
        computeNodeConfigHash sha256 netmaskInNetmask sampleMac sampleBase) ∧
      renderNodeIPXEScript .asciiOnly netmaskInAddress sampleMac sampleBase ≠
        renderNodeIPXEScript .asciiOnly netmaskInNetmask sampleMac sampleBase :=
  ⟨fun sha256 => computeNodeConfigHash_congr sha256 (by decide +kernel), by decide +kernel,
    fun sha256 => computeNodeConfigHash_congr sha256 (by decide +kernel), by decide +kernel⟩

end MaasBoot
