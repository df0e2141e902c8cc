import MaasBoot.Lib.Ascii
import MaasBoot.NodeScript

/-!
# The program of a node's script

The text that `RenderNodeIPXEScript` writes, read as iPXE reads it: `parseScript_renderNodeIPXEScript` gives the
lines of the program with their labels and commands.  It needs that the texts put into the script stand as words
there (`Plain`): a blank or a newline would end the word, a hash would start a comment, and a backslash could
continue the line.
-/

namespace MaasBoot

open Ipxe

/-- A text that iPXE takes as one word and leaves as it is. -/
structure Plain (s : Bytes) : Prop where
  visible : ∀ c ∈ s, 32 < c ∧ c ≠ 92 ∧ c ≠ 36 ∧ c ≠ 35
  not_link : s ≠ str "||" ∧ s ≠ str "&&" ∧ s ≠ str ";"

/-- The texts of a node that its script has. -/
structure Node.Plain (n : Node) : Prop where
  hostname : MaasBoot.Plain n.hostname
  vlan : MaasBoot.Plain n.vlan
  ip : MaasBoot.Plain n.ip
  netmask : MaasBoot.Plain n.netmask
  gw : MaasBoot.Plain n.gw
  dns : MaasBoot.Plain n.dns
  bondMembers : ∀ m ∈ n.bondMembers, MaasBoot.Plain m

/-! ### The program -/

def vlanProgram (n : Node) : List Line :=
  if n.vlan ≠ [] then [runLine [str "set", str "vlan", n.vlan]] else []

/-- The variable of a PCI member. -/
def pciVar (i : Nat) : Bytes := str "pci" ++ decimal i

def pciProgram (u : Unicode) (n : Node) : List Line :=
  (n.pciMembers u).map fun p => runLine [str "set", pciVar p.1, p.2]

def targetProgram (u : Unicode) (n : Node) (mac : Bytes) : List Line :=
  if n.pciMembers u = [] ∧ mac ≠ [] then [runLine [str "set", str "target_mac", toLower u mac]] else []

/-- The first lines of the loop. -/
def examineProgram : List Line :=
  [orLine [str "isset", nicMac] [str "goto", str "endpass"],
    runLine [str "echo", str "Checking", netNic, str "(" ++ nicMac, nicBusdevfn ++ str ")..."]]

def matchProgram (u : Unicode) (n : Node) (mac : Bytes) : List Line :=
  if n.pciMembers u ≠ [] then
    ((n.pciMembers u).map fun p =>
      andTryLine [str "iseq", nicBusdevfn, ref (pciVar p.1)] [str "goto", str "hit"]) ++
      [runLine [str "goto", str "next"], labelLine (str "hit")]
  else if mac ≠ [] then
    [andTryLine [str "iseq", nicMac, ref (str "target_mac")] [str "goto", str "hit"],
      runLine [str "goto", str "next"], labelLine (str "hit")]
  else []

/-- The settings of the interface, those that are not empty. -/
def addresses (n : Node) : List (Bytes × Bytes) :=
  [(str "/ip", n.ip), (str "/netmask", n.netmask), (str "/gateway", n.gw), (str "/dns", n.dns)].filter fun a =>
    a.2 ≠ []

def configureProgram (n : Node) : List Line :=
  [runLine [str "echo", str "Configuring", netNic, str "(" ++ nicMac ++ str ")..."],
    tryLine [str "ifclose", netNic], tryLine [str "ifopen", netNic]] ++
    (if n.vlan ≠ [] then [tryLine [str "vcreate", str "--tag", ref (str "vlan"), netNic]] else []) ++
    (addresses n).map (fun a => runLine [str "set", effIface n ++ a.1, a.2]) ++
    [tryLine [str "ifopen", effIface n]]

def chainProgram (base : Bytes) : List Line :=
  [andTryLine [str "chain", str "--autofree", base ++ str "/ipxe.cfg-" ++ nicMac] [str "goto", str "os_done"]]

def takeDownProgram (n : Node) : List Line :=
  (if n.vlan ≠ [] then [tryLine [str "ifclose", effIface n], tryLine [str "vdestroy", effIface n]] else []) ++
    [tryLine [str "ifclose", netNic]]

def nextProgram (u : Unicode) (n : Node) (mac : Bytes) : List Line :=
  (if n.pciMembers u ≠ [] ∨ mac ≠ [] then [labelLine (str "next")] else []) ++
    [andLine [str "inc", str "nic"] [str "goto", str "loop"]]

def endProgram : List Line :=
  [labelLine (str "endpass"),
    runLine [str "echo", str "no", str "matching", str "uplink", str "reached", str "proxy;", str "retry", str "in",
      str "3s"],
    runLine [str "sleep", str "3"],
    runLine [str "goto", str "top"],
    labelLine (str "os_done"),
    runLine [str "exit", str "0"]]

/-- The lines that set the script's variables. -/
def setupProgram (u : Unicode) (n : Node) (mac : Bytes) : List Line :=
  vlanProgram n ++ pciProgram u n ++ targetProgram u n mac

/-- The lines from the loop's label on. -/
def loopProgram (u : Unicode) (n : Node) (mac base : Bytes) : List Line :=
  labelLine (str "loop") :: (examineProgram ++ (matchProgram u n mac ++ (configureProgram n ++ (chainProgram base ++
    (takeDownProgram n ++ (nextProgram u n mac ++ endProgram))))))

/-- The lines from the label of a pass on. -/
def passProgram (u : Unicode) (n : Node) (mac base : Bytes) : List Line :=
  labelLine (str "top") :: runLine [str "set", str "nic:int32", str "0"] :: loopProgram u n mac base

/-- The lines of the script; the first two are comments. -/
def nodeProgram (u : Unicode) (n : Node) (mac proxyBase : Bytes) : List Line :=
  runLine [] :: runLine [] :: (setupProgram u n mac ++ passProgram u n mac (trimRight proxyBase 47))

/-! ### Labels -/

theorem labels_setup (u : Unicode) (n : Node) (mac : Bytes) : labels (setupProgram u n mac) = [] := by
  have hrun : ∀ ln ∈ setupProgram u n mac, ∃ cmd, ln = runLine cmd := by
    intro ln hln
    simp only [setupProgram, vlanProgram, pciProgram, targetProgram, List.mem_append] at hln
    rcases hln with (hln | hln) | hln
    · split at hln
      · exact ⟨_, List.mem_singleton.mp hln⟩
      · simp at hln
    · obtain ⟨p, -, rfl⟩ := List.mem_map.mp hln
      exact ⟨_, rfl⟩
    · split at hln
      · exact ⟨_, List.mem_singleton.mp hln⟩
      · simp at hln
  rw [labels, List.filterMap_eq_nil_iff]
  intro ln hln
  obtain ⟨cmd, rfl⟩ := hrun ln hln
  rfl

theorem labels_pciMatch (ps : List (Nat × Bytes)) : labels (ps.map fun p =>
    andTryLine [str "iseq", nicBusdevfn, ref (pciVar p.1)] [str "goto", str "hit"]) = [] := by
  rw [labels, List.filterMap_eq_nil_iff]
  intro ln hln
  obtain ⟨p, -, rfl⟩ := List.mem_map.mp hln
  rfl

theorem labels_attempt (n : Node) (base : Bytes) :
    labels (configureProgram n ++ (chainProgram base ++ takeDownProgram n)) = [] := by
  rw [labels, List.filterMap_eq_nil_iff]
  intro ln hln
  simp only [configureProgram, chainProgram, takeDownProgram, List.mem_append] at hln
  rcases hln with (((hln | hln) | hln) | hln) | hln | hln | hln
  · simp only [List.mem_cons, List.not_mem_nil, or_false] at hln
    rcases hln with rfl | rfl | rfl <;> rfl
  · split at hln
    · rw [List.mem_singleton.mp hln]
      rfl
    · simp at hln
  · obtain ⟨a, -, rfl⟩ := List.mem_map.mp hln
    rfl
  · rw [List.mem_singleton.mp hln]
    rfl
  · rw [List.mem_singleton.mp hln]
    rfl
  · split at hln
    · simp only [List.mem_cons, List.not_mem_nil, or_false] at hln
      rcases hln with rfl | rfl <;> rfl
    · simp at hln
  · rw [List.mem_singleton.mp hln]
    rfl

theorem labels_match (u : Unicode) (n : Node) (mac : Bytes) :
    labels (matchProgram u n mac) = if n.pciMembers u ≠ [] ∨ mac ≠ [] then [str "hit"] else [] := by
  unfold matchProgram
  by_cases hp : n.pciMembers u = []
  · by_cases hm : mac = []
    · simp [hp, hm, labels]
    · rw [if_neg (not_not_intro hp), if_pos hm, if_pos (.inr hm)]
      rfl
  · rw [if_pos hp, if_pos (.inl hp), labels, List.filterMap_append, ← labels, labels_pciMatch]
    rfl

theorem labels_next (u : Unicode) (n : Node) (mac : Bytes) :
    labels (nextProgram u n mac) = if n.pciMembers u ≠ [] ∨ mac ≠ [] then [str "next"] else [] := by
  unfold nextProgram
  split <;> rfl

theorem labels_nodeProgram (u : Unicode) (n : Node) (mac proxyBase : Bytes) : labels (nodeProgram u n mac proxyBase) =
    if n.pciMembers u ≠ [] ∨ mac ≠ [] then
      [str "top", str "loop", str "hit", str "next", str "endpass", str "os_done"]
    else [str "top", str "loop", str "endpass", str "os_done"] := by
  have happend : ∀ a b, labels (a ++ b) = labels a ++ labels b := fun a b => List.filterMap_append ..
  have hsplit : nodeProgram u n mac proxyBase = [runLine [], runLine []] ++ (setupProgram u n mac ++
      ([labelLine (str "top"), runLine [str "set", str "nic:int32", str "0"], labelLine (str "loop")] ++
        (examineProgram ++ (matchProgram u n mac ++
          ((configureProgram n ++ (chainProgram (trimRight proxyBase 47) ++ takeDownProgram n)) ++
          (nextProgram u n mac ++ endProgram)))))) := by
    simp [nodeProgram, passProgram, loopProgram]
  rw [hsplit, happend, happend, happend, happend, happend, happend (configureProgram n ++ _),
    happend (nextProgram u n mac), labels_setup, labels_attempt, labels_match, labels_next]
  split <;> rfl

/-! ### The text is that of the program -/

/-- Words in a line, one after the other. -/
theorem print_runLine (cmd : List Bytes) : (runLine cmd).print = join (str " ") cmd := by
  simp [Line.print, Line.words, runLine, commandWords, Link.words]

theorem vlanLines_eq (n : Node) :
    (if n.vlan ≠ [] then [str "set vlan " ++ n.vlan] else []) = (vlanProgram n).map Line.print := by
  unfold vlanProgram
  split
  · rw [List.map_singleton, print_runLine, show str "set vlan " =
      str "set" ++ str " " ++ (str "vlan" ++ str " ") by decide]
    simp [join]
  · rfl

theorem pciLines_eq (u : Unicode) (n : Node) : (n.pciMembers u).map pciLine = (pciProgram u n).map Line.print := by
  rw [pciProgram, List.map_map]
  refine List.map_congr_left fun p _ => ?_
  rw [Function.comp, print_runLine, pciLine, show str "set pci" = str "set" ++ str " " ++ str "pci" by decide]
  simp [join, pciVar]

theorem targetLines_eq (u : Unicode) (n : Node) (mac : Bytes) :
    targetLines u n mac = (targetProgram u n mac).map Line.print := by
  unfold targetLines targetProgram
  split
  · rw [List.map_singleton, print_runLine,
      show str "set target_mac " = str "set" ++ str " " ++ (str "target_mac" ++ str " ") by decide]
    simp [join]
  · rfl

theorem pciMatchLine_eq (p : Nat × Bytes) : pciMatchLine p =
    (andTryLine [str "iseq", nicBusdevfn, ref (pciVar p.1)] [str "goto", str "hit"]).print := by
  rw [pciMatchLine, show str "iseq " = str "iseq" ++ str " " by decide, show str " && goto hit ||" =
    str " " ++ (str "&&" ++ (str " " ++ (str "goto" ++ (str " " ++ (str "hit" ++ (str " " ++ str "||")))))) by decide]
  simp [Line.print, Line.words, andTryLine, commandWords, Link.words, join, pciVar]

theorem matchLines_eq (u : Unicode) (n : Node) (mac : Bytes) :
    matchLines u n mac = (matchProgram u n mac).map Line.print := by
  unfold matchLines matchProgram
  split
  · rw [List.map_append, List.map_map]
    refine congrArg₂ (· ++ ·) (List.map_congr_left fun p _ => pciMatchLine_eq p) (by decide)
  · split
    · decide
    · rfl

theorem setLine_eq {n : Node} {setting : String} {name value : Bytes} (h : str setting = name ++ str " ") :
    setLine n setting value = ([(name, value)].filter fun a => a.2 ≠ []).map fun a =>
      (runLine [str "set", effIface n ++ a.1, a.2]).print := by
  unfold setLine
  by_cases hv : value = []
  · simp [hv]
  · rw [if_pos hv, h, show str "set " = str "set" ++ str " " by decide]
    simp [hv, print_runLine, join]

theorem setLines_eq (n : Node) :
    setLine n "/ip " n.ip ++ setLine n "/netmask " n.netmask ++ setLine n "/gateway " n.gw ++
      setLine n "/dns " n.dns = ((addresses n).map fun a => runLine [str "set", effIface n ++ a.1, a.2]).map
      Line.print := by
  rw [setLine_eq (show str "/ip " = str "/ip" ++ str " " by decide),
    setLine_eq (show str "/netmask " = str "/netmask" ++ str " " by decide),
    setLine_eq (show str "/gateway " = str "/gateway" ++ str " " by decide),
    setLine_eq (show str "/dns " = str "/dns" ++ str " " by decide),
    ← List.map_append, ← List.map_append, ← List.map_append, ← List.filter_append, ← List.filter_append,
    ← List.filter_append, List.map_map]
  rfl

theorem chainLine_eq (base : Bytes) :
    [str "chain --autofree " ++ base ++ str "/ipxe.cfg-" ++ nicMac ++ str " && goto os_done ||"] =
      (chainProgram base).map Line.print := by
  rw [show str "chain --autofree " = str "chain" ++ (str " " ++ (str "--autofree" ++ str " ")) by decide,
    show str " && goto os_done ||" =
      str " " ++ (str "&&" ++ (str " " ++ (str "goto" ++ (str " " ++ (str "os_done" ++ (str " " ++ str "||")))))) by
        decide]
  simp [chainProgram, Line.print, Line.words, andTryLine, commandWords, Link.words, join]

theorem attemptLines_eq (n : Node) (base : Bytes) :
    attemptLines n base = (configureProgram n ++ (chainProgram base ++ takeDownProgram n)).map Line.print := by
  have hopen : [str "ifopen " ++ effIface n ++ str " ||"] = [tryLine [str "ifopen", effIface n]].map Line.print := by
    unfold effIface
    split <;> decide
  have hvlan :
      (if n.vlan ≠ [] then [str "vcreate --tag " ++ ref (str "vlan") ++ str " " ++ netNic ++ str " ||"] else []) =
      (if n.vlan ≠ [] then [tryLine [str "vcreate", str "--tag", ref (str "vlan"), netNic]] else []).map
        Line.print := by
    split <;> decide
  have hdown : (if n.vlan ≠ [] then
        [str "ifclose " ++ effIface n ++ str " ||", str "vdestroy " ++ effIface n ++ str " ||"]
        else []) ++ [str "ifclose " ++ netNic ++ str " ||"] = (takeDownProgram n).map Line.print := by
    unfold takeDownProgram effIface
    split <;> decide
  have hfirst : [str "echo Configuring " ++ netNic ++ str " (" ++ nicMac ++ str ")...",
      str "ifclose " ++ netNic ++ str " ||", str "ifopen " ++ netNic ++ str " ||"] =
      [runLine [str "echo", str "Configuring", netNic, str "(" ++ nicMac ++ str ")..."],
        tryLine [str "ifclose", netNic], tryLine [str "ifopen", netNic]].map Line.print := by
    decide
  simp only [List.map_append, configureProgram, ← hopen, ← hvlan, ← hdown, ← hfirst, ← setLines_eq, ← chainLine_eq]
  simp [attemptLines]

theorem nextLines_eq (u : Unicode) (n : Node) (mac : Bytes) :
    (if n.pciMembers u ≠ [] ∨ mac ≠ [] then [str ":next"] else []) ++ [str "inc nic && goto loop"] =
      (nextProgram u n mac).map Line.print := by
  unfold nextProgram
  split <;> decide

/-- The first two lines are comments, and the others those of the program. -/
theorem nodeScriptLines_eq (u : Unicode) (n : Node) (mac proxyBase : Bytes) :
    nodeScriptLines u n mac proxyBase =
      str "#!ipxe" :: (str "# Dynamic boot script for " ++ n.hostname ++ str " (" ++ mac ++ str ")") ::
        (setupProgram u n mac ++ passProgram u n mac (trimRight proxyBase 47)).map Line.print := by
  have htop : [str ":top", str "set nic:int32 0", str ":loop", str "isset " ++ nicMac ++ str " || goto endpass",
      str "echo Checking " ++ netNic ++ str " (" ++ nicMac ++ str " " ++ nicBusdevfn ++ str ")..."] =
      (labelLine (str "top") :: runLine [str "set", str "nic:int32", str "0"] :: labelLine (str "loop") ::
        examineProgram).map Line.print := by
    decide
  have hend : [str ":endpass", str "echo no matching uplink reached proxy; retry in 3s", str "sleep 3",
      str "goto top", str ":os_done", str "exit 0"] = endProgram.map Line.print := by
    decide
  have hpass : passProgram u n mac (trimRight proxyBase 47) = (labelLine (str "top") ::
      runLine [str "set", str "nic:int32", str "0"] :: labelLine (str "loop") :: examineProgram) ++
        (matchProgram u n mac ++ ((configureProgram n ++
          (chainProgram (trimRight proxyBase 47) ++ takeDownProgram n)) ++
          (nextProgram u n mac ++ endProgram))) := by
    simp [passProgram, loopProgram]
  rw [hpass, setupProgram]
  simp only [List.map_append, ← htop, ← hend, ← matchLines_eq, ← nextLines_eq, ← targetLines_eq, ← pciLines_eq,
    ← vlanLines_eq]
  rw [← List.map_append, ← List.map_append, ← attemptLines_eq]
  simp [nodeScriptLines, introLines]

/-! ### Words of the program -/

theorem Plain.isVisible {s : Bytes} (h : Plain s) : ∀ c ∈ s, isVisible c = true := fun c hc =>
  isVisible_iff.mpr ⟨(h.visible c hc).1, (h.visible c hc).2.1⟩

theorem Plain.dollar_not_mem {s : Bytes} (h : Plain s) : 36 ∉ s := fun hmem => (h.visible 36 hmem).2.2.1 rfl

theorem Plain.hash_not_mem {s : Bytes} (h : Plain s) : 35 ∉ s := fun hmem => (h.visible 35 hmem).2.2.2 rfl

theorem Plain.isWord {s : Bytes} (h : Plain s) (hne : s ≠ []) : isWord s = true := by
  refine isWord_iff.mpr ⟨hne, h.isVisible, ?_⟩
  have hhead : s.head? ≠ some 35 := fun hh => h.hash_not_mem (List.mem_of_mem_head? hh)
  rw [linkOf, if_neg hhead, if_neg h.not_link.1, if_neg h.not_link.2.1, if_neg h.not_link.2.2]

theorem Plain.toLower {u : Unicode} {s : Bytes} (h : Plain s) : Plain (toLower u s) := by
  refine ⟨fun c hc => ?_, fun hl => ?_, fun hl => ?_, fun hl => ?_⟩
  · by_cases hc' : c.toNat < 0x80 ∧ ¬ (97 ≤ c.toNat ∧ c.toNat ≤ 122)
    · exact h.visible c (mem_of_mem_toLower hc hc'.1 hc'.2)
    · have hall : ∀ c : UInt8, ¬ (c.toNat < 0x80 ∧ ¬ (97 ≤ c.toNat ∧ c.toNat ≤ 122)) →
          32 < c ∧ c ≠ 92 ∧ c ≠ 36 ∧ c ≠ 35 := forall_byte (by decide +kernel)
      exact hall c hc'
  · exact h.not_link.1 (eq_of_toLower_eq hl (List.forall_iff_forall_mem.mp (by decide)))
  · exact h.not_link.2.1 (eq_of_toLower_eq hl (List.forall_iff_forall_mem.mp (by decide)))
  · exact h.not_link.2.2 (eq_of_toLower_eq hl (List.forall_iff_forall_mem.mp (by decide)))

/-- Texts with a colon are no links. -/
theorem plain_of_colon {s : Bytes} (hvis : ∀ c ∈ s, 32 < c ∧ c ≠ 92 ∧ c ≠ 36 ∧ c ≠ 35) (hc : colon ∈ s) :
    Plain s := by
  refine ⟨hvis, ?_, ?_, ?_⟩
  · rintro rfl
    exact absurd hc (by decide)
  · rintro rfl
    exact absurd hc (by decide)
  · rintro rfl
    exact absurd hc (by decide)

theorem colon_mem_of_isPCIAddr {m : Bytes} (h : isPCIAddr m = true) : colon ∈ m := by
  simp only [isPCIAddr, Bool.or_eq_true, decide_eq_true_eq, Bool.and_eq_true, List.contains_iff_mem] at h
  rcases h with h | h
  · exact List.count_pos_iff.mp (by omega)
  · exact h.1

theorem colon_mem_trimSpace {m : Bytes} (h : colon ∈ m) : colon ∈ trimSpace m := by
  obtain ⟨a, c, hm, ha, hc⟩ := exists_trimSpace m
  have hcolon : ¬ SpaceByte colon := by
    rintro (h | h)
    · exact absurd h (by decide)
    · exact absurd h (by decide)
  rw [hm, List.append_assoc, List.mem_append, List.mem_append] at h
  rcases h with h | h | h
  · exact absurd (ha _ h) hcolon
  · exact h
  · exact absurd (hc _ h) hcolon

theorem colon_mem_formatIPXEPCI {u : Unicode} {m : Bytes} (h : colon ∈ m) : colon ∈ formatIPXEPCI u m := by
  unfold formatIPXEPCI
  split
  · simp [PCIAddr.format]
  · exact mem_toLower (colon_mem_trimSpace h) (by decide) (by decide)

theorem plain_formatIPXEPCI {u : Unicode} {m : Bytes} (h : Plain m) (hpci : isPCIAddr m = true) :
    Plain (formatIPXEPCI u m) := by
  refine plain_of_colon ?_ (colon_mem_formatIPXEPCI (colon_mem_of_isPCIAddr hpci))
  unfold formatIPXEPCI
  split
  · rename_i a _
    intro c hc
    have hdigit : ∀ {w k : Nat}, c ∈ formatNat 16 w k → 32 < c ∧ c ≠ 92 ∧ c ≠ 36 ∧ c ≠ 35 := by
      intro w k hmem
      have hhex := isLowerHex_of_mem_formatNat (by decide) (by decide) hmem
      have hvisible : ∀ c : UInt8, isLowerHex c = true → 32 < c ∧ c ≠ 92 ∧ c ≠ 36 ∧ c ≠ 35 :=
        forall_byte (by decide +kernel)
      exact hvisible c hhex
    simp only [PCIAddr.format, List.mem_append, List.mem_singleton] at hc
    rcases hc with ((((((hc | rfl) | hc) | rfl) | hc) | rfl) | hc)
    · exact hdigit hc
    · decide
    · exact hdigit hc
    · decide
    · exact hdigit hc
    · decide
    · exact hdigit hc
  · have htrim : Plain (trimSpace m) := by
      refine plain_of_colon (fun c hc => h.visible c (mem_of_mem_trimSpace hc)) ?_
      exact colon_mem_trimSpace (colon_mem_of_isPCIAddr hpci)
    exact htrim.toLower.visible

theorem plain_of_mem_pciMembers {u : Unicode} {n : Node} (h : n.Plain) {p : Nat × Bytes} (hp : p ∈ n.pciMembers u) :
    Plain p.2 ∧ p.2 ≠ [] := by
  obtain ⟨m, hm, rfl⟩ := List.mem_map.mp hp
  obtain ⟨hmem, hpci⟩ := List.mem_filter.mp hm
  have hplain := h.bondMembers m.1 (List.fst_mem_of_mem_zipIdx hmem)
  exact ⟨plain_formatIPXEPCI hplain hpci, List.ne_nil_of_mem (colon_mem_formatIPXEPCI (colon_mem_of_isPCIAddr hpci))⟩

theorem toLower_ne_nil {u : Unicode} {s : Bytes} (h : s ≠ []) : toLower u s ≠ [] := fun hl =>
  h (eq_of_toLower_eq hl (by simp))

theorem plain_trimRight {s : Bytes} (h : Plain s) {c : UInt8} (hc : c ∈ trimRight s 47) :
    32 < c ∧ c ≠ 92 ∧ c ≠ 36 ∧ c ≠ 35 :=
  h.visible c ((List.rdropWhile_prefix _ _).subset hc)

theorem decimal_visible {i : Nat} {c : UInt8} (hc : c ∈ decimal i) : isVisible c = true ∧ c ≠ 36 ∧ c ≠ 125 := by
  have hhex := isLowerHex_of_mem_formatNat (by decide) (by decide) hc
  have hvisible : ∀ c : UInt8, isLowerHex c = true → isVisible c = true ∧ c ≠ 36 ∧ c ≠ 125 :=
    forall_byte (by decide +kernel)
  exact hvisible c hhex

theorem isWord_pciVar (i : Nat) : isWord (pciVar i) = true := by
  refine isWord_of_mem (c := 112) (List.mem_append_left _ (by decide)) (by decide) ?_ fun c hc => ?_
  · rw [pciVar, List.head?_append_of_ne_nil _ (by decide)]
    decide
  · rcases List.mem_append.mp hc with hc | hc
    · exact List.all_eq_true.mp (show (str "pci").all isVisible = true by decide) c hc
    · exact (decimal_visible hc).1

theorem isWord_ref_pciVar (i : Nat) : isWord (ref (pciVar i)) = true := by
  have hvis : ∀ c ∈ pciVar i, isVisible c = true := (isWord_iff.mp (isWord_pciVar i)).2.1
  refine isWord_of_mem (c := 36) (by simp [ref, show str "$\x7b" = [36, 123] by decide]) (by decide) ?_ fun c hc => ?_
  · simp [ref, show str "$\x7b" = [36, 123] by decide]
  · rw [ref, show str "$\x7b" = [36, 123] by decide, show str "\x7d" = [125] by decide] at hc
    simp only [List.mem_append, List.mem_cons, List.not_mem_nil, or_false] at hc
    rcases hc with ((rfl | rfl) | hc) | rfl
    · decide
    · decide
    · exact hvis c hc
    · decide

theorem isWord_chainURL {base : Bytes} (h : Plain base) :
    isWord (trimRight base 47 ++ str "/ipxe.cfg-" ++ nicMac) = true := by
  refine isWord_of_mem (c := 47) (by simp [show str "/ipxe.cfg-" = 47 :: str "ipxe.cfg-" by decide]) (by decide) ?_ ?_
  · cases hb : trimRight base 47 with
    | nil => decide
    | cons c s =>
      have := plain_trimRight h (hb ▸ List.mem_cons_self .. : c ∈ trimRight base 47)
      simpa using this.2.2.2
  · intro c hc
    rw [List.append_assoc] at hc
    rcases List.mem_append.mp hc with hc | hc
    · have := plain_trimRight h hc
      exact isVisible_iff.mpr ⟨this.1, this.2.1⟩
    · exact List.all_eq_true.mp (show (str "/ipxe.cfg-" ++ nicMac).all isVisible = true by decide) c hc

/-! ### Reading the text -/

section Printable

variable {u : Unicode} {n : Node} {mac : Bytes} (hn : n.Plain)
include hn

theorem printable_setup (hm : Plain mac) : ∀ ln ∈ setupProgram u n mac, ln.Printable := by
  intro ln hln
  simp only [setupProgram, List.mem_append] at hln
  rcases hln with (hln | hln) | hln
  · unfold vlanProgram at hln
    split at hln
    · rename_i hv
      rw [List.mem_singleton.mp hln]
      refine printable_run (isCommand_cons (by decide) ?_)
      simp [hn.vlan.isWord hv, show isWord (str "vlan") = true by decide]
    · simp at hln
  · obtain ⟨p, hp, rfl⟩ := List.mem_map.mp hln
    obtain ⟨hplain, hne⟩ := plain_of_mem_pciMembers hn hp
    refine printable_run (isCommand_cons (by decide) ?_)
    simp [hplain.isWord hne, isWord_pciVar]
  · unfold targetProgram at hln
    split at hln
    · rename_i hv
      rw [List.mem_singleton.mp hln]
      refine printable_run (isCommand_cons (by decide) ?_)
      simp [hm.toLower.isWord (toLower_ne_nil hv.2), show isWord (str "target_mac") = true by decide]
    · simp at hln

omit hn in
theorem printable_match : ∀ ln ∈ matchProgram u n mac, ln.Printable := by
  have hends : ∀ ln ∈ [runLine [str "goto", str "next"], labelLine (str "hit")], ln.Printable :=
    List.forall_mem_cons.mpr ⟨printable_run (by decide), List.forall_mem_singleton.mpr (printable_label (by decide))⟩
  unfold matchProgram
  split
  · intro ln hln
    rcases List.mem_append.mp hln with hln | hln
    · obtain ⟨p, -, rfl⟩ := List.mem_map.mp hln
      refine printable_andTry (isCommand_cons (by decide) ?_) (by decide)
      simp [isWord_ref_pciVar, show isWord nicBusdevfn = true by decide]
    · exact hends ln hln
  · split
    · exact List.forall_mem_cons.mpr ⟨printable_andTry (by decide) (by decide), hends⟩
    · simp

theorem printable_configure : ∀ ln ∈ configureProgram n, ln.Printable := by
  intro ln hln
  simp only [configureProgram, List.mem_append] at hln
  rcases hln with ((hln | hln) | hln) | hln
  · revert ln
    simp only [List.forall_mem_cons]
    exact ⟨printable_run (by decide), printable_try (by decide), printable_try (by decide), by simp⟩
  · split at hln
    · rw [List.mem_singleton.mp hln]
      exact printable_try (by decide)
    · simp at hln
  · obtain ⟨a, ha, rfl⟩ := List.mem_map.mp hln
    obtain ⟨hmem, hne⟩ := List.mem_filter.mp ha
    have hname : isWord (effIface n ++ a.1) = true := by
      unfold effIface
      simp only [List.mem_cons, List.not_mem_nil, or_false] at hmem
      rcases hmem with rfl | rfl | rfl | rfl <;> dsimp only <;> split <;> decide
    have hvalue : isWord a.2 = true := by
      have hne : a.2 ≠ [] := by simpa using hne
      simp only [List.mem_cons, List.not_mem_nil, or_false] at hmem
      rcases hmem with rfl | rfl | rfl | rfl
      · exact hn.ip.isWord hne
      · exact hn.netmask.isWord hne
      · exact hn.gw.isWord hne
      · exact hn.dns.isWord hne
    refine printable_run (isCommand_cons (by decide) ?_)
    simp only [List.forall_mem_cons, hname, hvalue]
    simp
  · rw [List.mem_singleton.mp hln]
    unfold effIface
    split <;> exact printable_try (by decide)

omit hn in
theorem printable_takeDown : ∀ ln ∈ takeDownProgram n, ln.Printable := by
  unfold takeDownProgram effIface
  split
  · simp only [List.cons_append, List.nil_append, List.forall_mem_cons]
    exact ⟨printable_try (by decide), printable_try (by decide), printable_try (by decide), by simp⟩
  · exact List.forall_mem_singleton.mpr (printable_try (by decide))

omit hn in
theorem printable_next : ∀ ln ∈ nextProgram u n mac, ln.Printable := by
  unfold nextProgram
  split
  · simp only [List.cons_append, List.nil_append, List.forall_mem_cons]
    exact ⟨printable_label (by decide), printable_and (by decide) (by decide), by simp⟩
  · exact List.forall_mem_singleton.mpr (printable_and (by decide) (by decide))

omit hn in
theorem printable_end : ∀ ln ∈ endProgram, ln.Printable := by
  unfold endProgram
  simp only [List.forall_mem_cons]
  exact ⟨printable_label (by decide), printable_run (by decide), printable_run (by decide), printable_run (by decide),
    printable_label (by decide), printable_run (by decide), by simp⟩

theorem printable_pass {base : Bytes} (hb : Plain base) :
    ∀ ln ∈ passProgram u n mac (trimRight base 47), ln.Printable := by
  have hchain : ∀ ln ∈ chainProgram (trimRight base 47), ln.Printable := by
    refine List.forall_mem_singleton.mpr (printable_andTry (isCommand_cons (by decide) ?_) (by decide))
    simp only [List.forall_mem_cons, isWord_chainURL hb]
    exact ⟨by decide, trivial, by simp⟩
  have hexamine : ∀ ln ∈ examineProgram, ln.Printable := by
    unfold examineProgram
    simp only [List.forall_mem_cons]
    exact ⟨printable_or (by decide) (by decide), printable_run (by decide), by simp⟩
  unfold passProgram loopProgram
  simp only [List.forall_mem_cons, List.forall_mem_append]
  exact ⟨printable_label (by decide), printable_run (by decide), printable_label (by decide), hexamine,
    printable_match, printable_configure hn, hchain, printable_takeDown, printable_next, printable_end⟩

end Printable

/-- iPXE reads the text of a node's script as the node's program. -/
theorem parseScript_renderNodeIPXEScript (u : Unicode) {n : Node} {mac proxyBase : Bytes} (hn : n.Plain)
    (hm : Plain mac) (hb : Plain proxyBase) :
    parseScript (renderNodeIPXEScript u n mac proxyBase) = nodeProgram u n mac proxyBase := by
  have hprint : ∀ ln ∈ setupProgram u n mac ++ passProgram u n mac (trimRight proxyBase 47), ln.Printable :=
    List.forall_mem_append.mpr ⟨printable_setup hn hm, printable_pass hn hb⟩
  have hcomment : IsLine (str "# Dynamic boot script for " ++ n.hostname ++ str " (" ++ mac ++ str ")") := by
    refine isLine_of_visible fun c hc => ?_
    simp only [List.mem_append] at hc
    have hlit : ∀ t : Bytes, t.all (fun c => isVisible c || c == 32) = true → c ∈ t → isVisible c = true ∨
        c = 32 := by
      intro t ht hmem
      simpa using List.all_eq_true.mp ht c hmem
    rcases hc with (((hc | hc) | hc) | hc) | hc
    · exact hlit _ (by decide) hc
    · exact .inl (hn.hostname.isVisible c hc)
    · exact hlit _ (by decide) hc
    · exact .inl (hm.isVisible c hc)
    · exact hlit _ (by decide) hc
  rw [renderNodeIPXEScript, nodeScriptLines_eq, parseScript_unlines, nodeProgram]
  · have h1 : parseLine (str "#!ipxe") = runLine [] := parseLine_comment (str "!ipxe")
    have h2 : ∀ s, parseLine (str "# Dynamic boot script for " ++ s) = runLine [] := by
      intro s
      rw [show str "# Dynamic boot script for " = 35 :: str " Dynamic boot script for " by decide]
      exact parseLine_comment _
    rw [List.map_cons, List.map_cons, h1, List.append_assoc, List.append_assoc, List.append_assoc, h2, List.map_map]
    refine congrArg (runLine [] :: runLine [] :: ·) ?_
    exact (List.map_congr_left fun ln hln => parseLine_print (hprint ln hln)).trans (List.map_id _)
  · refine List.forall_mem_cons.mpr ⟨isLine_of_visible ?_, List.forall_mem_cons.mpr ⟨hcomment, ?_⟩⟩
    · intro c hc
      exact .inl (List.all_eq_true.mp (show (str "#!ipxe").all isVisible = true by decide) c hc)
    · intro l hl
      obtain ⟨ln, hln, rfl⟩ := List.mem_map.mp hl
      exact (hprint ln hln).isLine

end MaasBoot
