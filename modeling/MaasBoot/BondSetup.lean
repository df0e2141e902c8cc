import MaasBoot.HookArgs
import MaasBoot.Lib.NetLinks

/-!
# Setting up the bond

The rest of `scripts/init-premount/bond`: the hook waits for the devices of the members, one after the other,
creates the bond and sets its options, makes the members its slaves, brings everything up, adds the VLAN interface,
and waits for the carrier.  No failure of a command ends it.

The devices may come at any time and in any order.  If each of them is there within a minute of the start of the
hook, the bond has the options of the node's record and its members as slaves, in their order
(`runHook_bondedLinks`).
-/

namespace MaasBoot.Hook

open NetLinks

/-- What the hook finds, second by second, as long as it does nothing itself: the state of the kernel, the entries
of the directory `net` of a PCI device in `/sys` if there is one, and whether the bond has a carrier.  The modules
for bonds and VLANs are loaded. -/
structure SysEnv (σ : Type) where
  state : Nat → σ
  pciNet : Nat → Bytes → Option (List Bytes)
  carrier : Nat → Bool

section

variable {σ : Type} (K : Kernel σ) (env : SysEnv σ)

/-! ### The members -/

/-- The loop for a PCI device: the name that it prints, and the time after it. -/
def waitPCI (pci : Bytes) : Nat → Nat → Bytes × Nat
  | 0, t => ([], t)
  | left + 1, t => match env.pciNet t pci with
    | some (name :: _) => if name ≠ [] then (name, t) else waitPCI pci left (t + 1)
    | _ => waitPCI pci left (t + 1)

/-- The loop for the name of an interface: the time after it.  Without a name it finds `/sys/class/net` itself. -/
def waitLink (name : Bytes) : Nat → Nat → Nat
  | 0, t => t
  | left + 1, t => if name = [] ∨ (K.links (env.state t) name).isSome then t else waitLink name left (t + 1)

/-- `resolve_member`: what it prints, and the time after it.  The name of an interface is printed even if the
interface does not appear. -/
def resolveMemberAt (spec : Bytes) (t : Nat) : Bytes × Nat :=
  match resolveMember spec with
  | .pci pci => waitPCI env pci 60 t
  | .iface name => (name, waitLink K env name 60 t)

/-- One round of the loop over the members: `RESOLVED` and the time. -/
def resolveStep (r : Bytes × Nat) (spec : Bytes) : Bytes × Nat :=
  let (name, t) := resolveMemberAt K env spec r.2
  (if name = [] then r.1 else if r.1 = [] then name else r.1 ++ str " " ++ name, t)

/-! ### The bond -/

variable (c : Config)

def createBond (s : σ) : σ := if (K.links s c.bond).isSome then s else K.exec (.addBond c.bond) s

def setOptions (s : σ) : σ :=
  K.exec (.setHashPolicy c.bond c.hash) (K.exec (.setLacpRate c.bond c.rate) (K.exec (.setMode c.bond c.mode) s))

/-- The loop that makes the members slaves. -/
def enslaveAll (names : List Bytes) (s : σ) : σ :=
  names.foldl (fun s name => K.exec (.enslave c.bond name) (K.exec (.setUp false name) s)) s

def bringUp (names : List Bytes) (s : σ) : σ :=
  names.foldl (fun s name => K.exec (.setUp true name) s) (K.exec (.setUp true c.bond) s)

/-- `ip link add link $BOND name $VDEV type vlan id $VID || vconfig add $BOND $VID` -/
def addVlanLink (vdev : Bytes) (s : σ) : σ :=
  match K.run (.addVlan c.bond vdev c.vid) s with
  | (true, s) => s
  | (false, s) => K.exec (.vconfigAdd c.bond c.vid) s

def setUpVlan (s : σ) : σ :=
  if c.vid ≠ [] then
    let vdev := c.bond ++ str "." ++ c.vid
    K.exec (.setUp true vdev) (if (K.links s vdev).isSome then s else addVlanLink K c vdev s)
  else s

def setUpBond (names : List Bytes) (s : σ) : σ :=
  setUpVlan K c (bringUp K c names (enslaveAll K c names (setOptions K c (createBond K c s))))

/-- The loop that waits for the carrier. -/
def waitCarrier : Nat → Nat → Nat
  | 0, t => t
  | left + 1, t => if env.carrier t then t else waitCarrier left (t + 1)

/-- A run of the hook: the state of the kernel after its last command, and the time. -/
def runHook (cmdline : Bytes) : σ × Nat :=
  match config cmdline with
  | none => (env.state 0, 0)
  | some c =>
    let (resolved, t) := c.specs.foldl (resolveStep K env) ([], 0)
    if resolved = [] then (env.state t, t)
    else (setUpBond K c (words resolved) (env.state t), waitCarrier env 30 t + 2)

end

/-! ### Waiting -/

section

variable {σ : Type} {K : Kernel σ} {env : SysEnv σ}

/-- Once a device has a name, that name is found. -/
theorem waitPCI_of_head {pci name : Bytes} {t : Nat} (hne : name ≠ [])
    (h : (env.pciNet t pci).bind List.head? = some name) (left : Nat) : waitPCI env pci (left + 1) t = (name, t) := by
  obtain ⟨entries, hentries, hhead⟩ := Option.bind_eq_some_iff.mp h
  obtain ⟨rest, rfl⟩ := List.head?_eq_some_iff.mp hhead
  simp only [waitPCI, hentries]
  rw [if_pos hne]

theorem waitPCI_of_none {pci : Bytes} {t : Nat} (h : (env.pciNet t pci).bind List.head? = none) (left : Nat) :
    waitPCI env pci (left + 1) t = waitPCI env pci left (t + 1) := by
  cases hentries : env.pciNet t pci with
  | none => simp only [waitPCI, hentries]
  | some entries =>
    rw [hentries, Option.bind_some, List.head?_eq_none_iff] at h
    simp only [waitPCI, hentries, h]

/-- A device that comes while the hook waits for it is found. -/
theorem waitPCI_eq {pci name : Bytes} {d : Nat} (hne : name ≠ [])
    (h : ∀ t, (env.pciNet t pci).bind List.head? = if d ≤ t then some name else none) {left t : Nat}
    (hd : d ≤ t + left) :
    waitPCI env pci (left + 1) t = (name, max t d) := by
  induction left generalizing t with
  | zero =>
    rw [Nat.add_zero] at hd
    rw [waitPCI_of_head hne (by rw [h t, if_pos hd]), Nat.max_eq_left hd]
  | succ left ih =>
    by_cases hle : d ≤ t
    · rw [waitPCI_of_head hne (by rw [h t, if_pos hle]), Nat.max_eq_left hle]
    · rw [waitPCI_of_none (by rw [h t, if_neg hle]), ih (by omega)]
      congr 1
      omega

theorem waitLink_eq {name : Bytes} {d : Nat} (hne : name ≠ [])
    (h : ∀ t, (K.links (env.state t) name).isSome = decide (d ≤ t)) {left t : Nat} (hd : d ≤ t + left) :
    waitLink K env name left t = max t d := by
  induction left generalizing t with
  | zero =>
    rw [waitLink]
    omega
  | succ left ih =>
    rw [waitLink, h t]
    by_cases hle : d ≤ t
    · rw [if_pos (by simp [hle]), Nat.max_eq_left hle]
    · rw [if_neg (by simp [hne, hle]), ih (by omega)]
      omega

variable (K env) in
/-- From some second of the first minute on there is an interface for a member, free to become a slave; a PCI device
has it as its first. -/
structure Arrives (spec name : Bytes) (d : Nat) : Prop where
  inTime : d < 60
  ne_nil : name ≠ []
  blankFree : BlankFree name
  free : ∀ t, d ≤ t → IsFree (K.links (env.state t)) name
  absent : ∀ t < d, K.links (env.state t) name = none
  found : match resolveMember spec with
    | .pci pci => ∀ t, (env.pciNet t pci).bind List.head? = if d ≤ t then some name else none
    | .iface spec => spec = name

theorem Arrives.resolveMemberAt_eq {spec name : Bytes} {d : Nat} (h : Arrives K env spec name d) (t : Nat) :
    resolveMemberAt K env spec t = (name, max t d) := by
  have hfound := h.found
  have htime := h.inTime
  unfold resolveMemberAt
  cases hspec : resolveMember spec with
  | pci pci =>
    rw [hspec] at hfound
    exact waitPCI_eq h.ne_nil hfound (by omega)
  | iface spec' =>
    rw [hspec] at hfound
    obtain rfl : spec' = name := hfound
    have hsome : ∀ t, (K.links (env.state t) spec').isSome = decide (d ≤ t) := by
      intro t
      by_cases hle : d ≤ t
      · obtain ⟨up, hl⟩ := h.free t hle
        simp [hl, hle]
      · simp [h.absent t (by omega), hle]
    exact congrArg (Prod.mk spec') (waitLink_eq h.ne_nil hsome (by omega))

/-- One more member. -/
theorem Arrives.resolveStep_eq {spec name : Bytes} {d : Nat} (h : Arrives K env spec name d) (r : Bytes × Nat) :
    words (resolveStep K env r spec).1 = words r.1 ++ [name] ∧ (resolveStep K env r spec).2 = max r.2 d := by
  have hname := words_eq_singleton h.ne_nil h.blankFree
  rw [resolveStep, h.resolveMemberAt_eq]
  simp only [h.ne_nil, if_false, and_true]
  by_cases hnil : r.1 = []
  · rw [if_pos hnil, hnil, hname]
    rfl
  · have hblank : str " " ++ name = 32 :: name := rfl
    rw [if_neg hnil, List.append_assoc, hblank, words_append_cons (by decide), hname]

/-- The names of the members, in their order; all of them are there when the last one is found. -/
theorem resolve_arrived {specs names : List Bytes}
    (h : List.Forall₂ (fun spec name => ∃ d, Arrives K env spec name d) specs names) {r : Bytes × Nat}
    (hr : r.2 < 60) :
    words (specs.foldl (resolveStep K env) r).1 = words r.1 ++ names ∧ r.2 ≤ (specs.foldl (resolveStep K env) r).2 ∧
      (specs.foldl (resolveStep K env) r).2 < 60 ∧
      ∀ name ∈ names, IsFree (K.links (env.state (specs.foldl (resolveStep K env) r).2)) name := by
  induction h generalizing r with
  | nil => simp [hr]
  | @cons spec name specs names hd _ ih =>
    obtain ⟨d, hd⟩ := hd
    obtain ⟨hwords, htime⟩ := hd.resolveStep_eq r
    have hd60 := hd.inTime
    obtain ⟨hwords', hle, hlt, hfree⟩ := ih (show (resolveStep K env r spec).2 < 60 by omega)
    rw [List.foldl_cons]
    refine ⟨?_, by omega, hlt, ?_⟩
    · rw [hwords', hwords, List.append_assoc]
      rfl
    · intro x hx
      rcases List.mem_cons.mp hx with rfl | hx
      · exact hd.free _ (by omega)
      · exact hfree x hx

theorem waitPCI_le (pci : Bytes) (left t : Nat) : (waitPCI env pci left t).2 ≤ t + left := by
  induction left generalizing t with
  | zero => exact Nat.le_refl _
  | succ left ih =>
    have hrest := ih (t + 1)
    rw [waitPCI]
    split
    · split
      · simp only; omega
      · omega
    · omega

theorem waitLink_le (name : Bytes) (left t : Nat) : waitLink K env name left t ≤ t + left := by
  induction left generalizing t with
  | zero => exact Nat.le_refl _
  | succ left ih =>
    rw [waitLink]
    have hrest := ih (t + 1)
    split <;> omega

theorem resolve_le (specs : List Bytes) (r : Bytes × Nat) :
    (specs.foldl (resolveStep K env) r).2 ≤ r.2 + 60 * specs.length := by
  induction specs generalizing r with
  | nil => exact Nat.le_refl _
  | cons spec specs ih =>
    have hstep : (resolveStep K env r spec).2 ≤ r.2 + 60 := by
      unfold resolveStep resolveMemberAt
      cases resolveMember spec with
      | pci pci => exact waitPCI_le pci 60 r.2
      | iface name => exact waitLink_le name 60 r.2
    have hrest := ih (resolveStep K env r spec)
    rw [List.foldl_cons, List.length_cons]
    omega

theorem waitCarrier_le (left t : Nat) : waitCarrier env left t ≤ t + left := by
  induction left generalizing t with
  | zero => exact Nat.le_refl _
  | succ left ih =>
    rw [waitCarrier]
    have hrest := ih (t + 1)
    split <;> omega

/-! ### Operations -/

variable {c : Config} {names : List Bytes} {s : σ} {l : NetLinks} {o : BondOptions}

theorem links_createBond (h : IsUnused (K.links s) c.bond) :
    ∃ o, K.links (createBond K c s) = bondedLinks c.bond false o [] (K.links s) := by
  rcases h with ⟨hnone, hname⟩ | ⟨o, hsome⟩
  · rw [createBond, hnone, if_neg (by simp)]
    exact Kernel.links_addBond hnone hname
  · refine ⟨o, ?_⟩
    rw [createBond, hsome, if_pos (Option.isSome_some), ← update_eq_bondedLinks, ← hsome, Function.update_eq_self]

variable (K) in
/-- The options of the configuration; a rate is set only for LACP. -/
structure HasOptions (c : Config) (o : BondOptions) : Prop where
  mode : K.mode c.mode = some o.mode
  lacpRate : o.mode = .lacp → K.lacpRate c.rate = some o.lacpRate
  hashPolicy : K.hashPolicy c.hash = some o.hashPolicy

variable (K) in
/-- The texts of the configuration are options that the kernel knows. -/
def KnownOptions (c : Config) : Prop :=
  (K.mode c.mode).isSome ∧ (K.lacpRate c.rate).isSome ∧ (K.hashPolicy c.hash).isSome

theorem links_setOptions (h : KnownOptions K c) (hs : K.links s = bondedLinks c.bond false o [] l) :
    ∃ o', K.links (setOptions K c s) = bondedLinks c.bond false o' [] l ∧ HasOptions K c o' := by
  obtain ⟨mode, hmode⟩ := Option.isSome_iff_exists.mp h.1
  obtain ⟨rate, hrate⟩ := Option.isSome_iff_exists.mp h.2.1
  obtain ⟨policy, hpolicy⟩ := Option.isSome_iff_exists.mp h.2.2
  refine ⟨⟨mode, if mode = .lacp then rate else o.lacpRate, policy⟩, ?_, ?_⟩
  · exact Kernel.links_setHashPolicy (Kernel.links_setLacpRate (Kernel.links_setMode hs hmode) hrate) hpolicy
  · refine ⟨hmode, fun hlacp => ?_, hpolicy⟩
    have hlacp' : mode = .lacp := hlacp
    rw [hrate, if_pos hlacp']

/-- The members become slaves in their order. -/
theorem links_enslaveAll (hbond : c.bond ∉ names) (hfree : ∀ name ∈ names, IsFree l name) {up : Bool}
    {slaves : List Bytes} (hnodup : (slaves ++ names).Nodup) (hs : K.links s = bondedLinks c.bond up o slaves l) :
    K.links (enslaveAll K c names s) = bondedLinks c.bond up o (slaves ++ names) l := by
  unfold enslaveAll
  induction names generalizing slaves s with
  | nil =>
    rw [List.append_nil]
    exact hs
  | cons name names ih =>
    rw [List.mem_cons, not_or] at hbond
    rw [List.forall_mem_cons] at hfree
    have hnew : name ∉ slaves := fun hmem =>
      List.disjoint_of_nodup_append hnodup hmem (List.mem_cons_self ..)
    have happend : slaves ++ name :: names = (slaves ++ [name]) ++ names := by simp
    rw [List.foldl_cons, happend]
    exact ih hbond.2 hfree.2 (happend ▸ hnodup) (Kernel.links_enslave hs hfree.1 (Ne.symm hbond.1) hnew)

theorem links_bringUp (hbond : c.bond ∉ names) (hfree : ∀ name ∈ names, IsFree l name) {up : Bool}
    (hs : K.links s = bondedLinks c.bond up o names l) :
    K.links (bringUp K c names s) = bondedLinks c.bond true o names l := by
  have hslaves : ∀ (ns : List Bytes) (s : σ), (∀ name ∈ ns, name ∈ names) →
      K.links s = bondedLinks c.bond true o names l →
      K.links (ns.foldl (fun s name => K.exec (.setUp true name) s) s) = bondedLinks c.bond true o names l := by
    intro ns
    induction ns with
    | nil => exact fun s _ hs => hs
    | cons name ns ih =>
      intro s hns hs
      rw [List.forall_mem_cons] at hns
      have hne : name ≠ c.bond := fun heq => hbond (heq ▸ hns.1)
      exact ih _ hns.2 (Kernel.links_setUp_slave hs (hfree name hns.1) hne hns.1)
  exact hslaves names _ (fun _ h => h) (Kernel.links_setUp_bond hs)

variable (K) in
/-- The interfaces after the hook: the bond with its slaves, and the VLAN interface on it if there is one. -/
def hookLinks (c : Config) (o : BondOptions) (names : List Bytes) (l : NetLinks) : NetLinks :=
  if c.vid = [] then bondedLinks c.bond true o names l
  else vlanLinks c.bond c.interface ((K.vlanId c.vid).getD 0) (bondedLinks c.bond true o names l)

variable (K) in
/-- The VLAN of the configuration is one that the kernel knows, and its interface is not there. -/
def VlanUnused (c : Config) (names : List Bytes) (l : NetLinks) : Prop :=
  c.vid = [] ∨ (K.vlanId c.vid).isSome ∧ IsIfName c.interface ∧ c.interface ∉ names ∧ l c.interface = none

theorem links_setUpVlan (h : VlanUnused K c names l) (hs : K.links s = bondedLinks c.bond true o names l) :
    K.links (setUpVlan K c s) = hookLinks K c o names l := by
  unfold setUpVlan hookLinks
  by_cases hvid : c.vid = []
  · rw [if_neg (not_not.mpr hvid), if_pos hvid, hs]
  · obtain ⟨hid, hname, hnames, hnone⟩ := h.resolve_left hvid
    obtain ⟨id, hid⟩ := Option.isSome_iff_exists.mp hid
    have hinterface : c.interface = c.bond ++ str "." ++ c.vid := by rw [Config.interface, if_pos hvid]
    have hne : c.interface ≠ c.bond := by
      intro heq
      have hlen := congrArg List.length (hinterface.symm.trans heq)
      simp [str] at hlen
    have hfresh : K.links s c.interface = none := by rw [hs, bondedLinks_other hne hnames, hnone]
    have hbond : K.links s c.bond = some (bondLink true o names) := by rw [hs, bondedLinks_bond]
    obtain ⟨hdone, hlinks⟩ := Kernel.links_addVlan hid hbond rfl List.not_mem_nil hfresh hname
    have hadd : addVlanLink K c c.interface s = (K.run (.addVlan c.bond c.interface c.vid) s).2 := by
      rw [addVlanLink, ← Prod.mk.eta (p := K.run (.addVlan c.bond c.interface c.vid) s), hdone]
    rw [if_pos hvid, if_neg hvid, ← hinterface, hid]
    dsimp only
    rw [hfresh, if_neg (by simp), hadd, hlinks, hs]
    rfl

/-- What the hook makes of the members, once they are there. -/
theorem links_setUpBond (hbond : IsUnused (K.links s) c.bond) (hoptions : KnownOptions K c)
    (hvlan : VlanUnused K c names (K.links s)) (hne : c.bond ∉ names)
    (hfree : ∀ name ∈ names, IsFree (K.links s) name) (hnodup : names.Nodup) :
    ∃ o, HasOptions K c o ∧ K.links (setUpBond K c names s) = hookLinks K c o names (K.links s) := by
  obtain ⟨o₀, hcreate⟩ := links_createBond hbond
  obtain ⟨o, hset, ho⟩ := links_setOptions hoptions hcreate
  have henslave := links_enslaveAll hne hfree (show ([] ++ names).Nodup from hnodup) hset
  exact ⟨o, ho, links_setUpVlan hvlan (links_bringUp hne hfree henslave)⟩

end

/-- The configuration of a bonded node. -/
def nodeConfig (n : Node) : Config where
  bond := n.bond
  members := join [comma] n.bondMembers
  mode := orDefault n.bondMode (str "802.3ad")
  rate := orDefault n.lacpRate (str "fast")
  hash := orDefault n.hashPolicy (str "layer3+4")
  vid := n.vlan

theorem join_bondMembers_ne_nil {n : Node} (hbonded : n.bonded) (hmembers : ∀ m ∈ n.bondMembers, m ≠ []) :
    n.bondMembers ≠ [] ∧ join [comma] n.bondMembers ≠ [] := by
  have hne : n.bondMembers ≠ [] := by
    intro h
    simp [Node.bonded, h] at hbonded
  obtain ⟨m, hm⟩ := List.exists_mem_of_ne_nil _ hne
  obtain ⟨b, hb⟩ := List.exists_mem_of_ne_nil _ (hmembers m hm)
  exact ⟨hne, List.ne_nil_of_mem (mem_join hm hb)⟩

section

variable {σ : Type} {K : Kernel σ}

/-- The hook takes no more than a minute for each member, and half a minute for the carrier. -/
theorem runHook_le (env : SysEnv σ) {cmdline : Bytes} {c : Config} (hc : config cmdline = some c) :
    (runHook K env cmdline).2 ≤ 60 * c.specs.length + 32 := by
  have htime : (c.specs.foldl (resolveStep K env) ([], 0)).2 ≤ 0 + 60 * c.specs.length := resolve_le c.specs ([], 0)
  unfold runHook
  rw [hc]
  dsimp only
  split
  · simp only; omega
  · have hcarrier : waitCarrier env 30 (c.specs.foldl (resolveStep K env) ([], 0)).2 ≤ _ + 30 := waitCarrier_le 30 _
    simp only
    omega

/-- The members of a bonded node come in any order within a minute.  Then the hook makes a bond of them, in the
order of the record, with the options and the VLAN of the record, and leaves the other interfaces alone.  However
the members come, it takes a minute for each of them at most, and half a minute more. -/
theorem runHook_bondedLinks {n : Node} {cmdline : Bytes} {before after : List Bytes}
    (hbonded : n.bonded) (hkernel : n.kernelNet = []) (hblank : ∀ v ∈ n.values, BlankFree v)
    (hmembers : ∀ m ∈ n.bondMembers, m ≠ [] ∧ comma ∉ m)
    (hwords : words cmdline = before ++ words (buildKernelNet n) ++ after)
    (hothers : ∀ x ∈ before ++ after, ∀ k : Arg, ¬ k.key <+: x) (hoptions : KnownOptions K (nodeConfig n)) :
    (∀ env, (runHook K env cmdline).2 ≤ 60 * n.bondMembers.length + 32) ∧
    ∀ (env : SysEnv σ) (names : List Bytes),
      List.Forall₂ (fun spec name => ∃ d, Arrives K env spec name d) n.bondMembers names → names.Nodup →
      n.bond ∉ names →
      (∀ t < 60, IsUnused (K.links (env.state t)) n.bond ∧
        VlanUnused K (nodeConfig n) names (K.links (env.state t))) →
      ∃ o t, t < 60 ∧ HasOptions K (nodeConfig n) o ∧
        K.links (runHook K env cmdline).1 = hookLinks K (nodeConfig n) o names (K.links (env.state t)) := by
  obtain ⟨hne, hjoin⟩ := join_bondMembers_ne_nil hbonded fun m hm => (hmembers m hm).1
  have hconfig : config cmdline = some (nodeConfig n) := config_words hblank hbonded hkernel hwords hothers hjoin
  have hspecs : (nodeConfig n).specs = n.bondMembers :=
    fields_join (fun m hm => (hmembers m hm).2) (fun m hm => (hmembers m hm).1) hne
  refine ⟨fun env => hspecs ▸ runHook_le env hconfig, ?_⟩
  intro env names harrive hnodup hbond hunused
  obtain ⟨hresolved, -, htime, hfree⟩ := resolve_arrived harrive (show (([], 0) : Bytes × Nat).2 < 60 by decide)
  have hnames : names ≠ [] := by
    intro hnil
    rw [hnil, List.forall₂_nil_right_iff] at harrive
    exact hne harrive
  have hnonempty : (n.bondMembers.foldl (resolveStep K env) ([], 0)).1 ≠ [] := by
    intro hnil
    rw [hnil] at hresolved
    exact hnames hresolved.symm
  obtain ⟨hbond', hvlan⟩ := hunused _ htime
  obtain ⟨o, ho, hlinks⟩ := links_setUpBond hbond' hoptions hvlan hbond hfree hnodup
  refine ⟨o, _, htime, ho, ?_⟩
  rw [← hlinks]
  unfold runHook
  rw [hconfig]
  dsimp only
  rw [hspecs, if_neg hnonempty, hresolved]
  rfl

end

/-- The PCI device of a member comes after three seconds, the other member is there from the start. -/
def twoMembers : SysEnv NetLinks where
  state t x :=
    if x = str "ens2f1" then some { up := true } else if x = str "ens2f0" ∧ 3 ≤ t then some { up := false } else none
  pciNet t pci := if pci = str "0000:3b:00.0" ∧ 3 ≤ t then some [str "ens2f0"] else none
  carrier t := decide (10 ≤ t)

theorem arrives_twoMembers :
    List.Forall₂ (fun spec name => ∃ d, Arrives plainKernel twoMembers spec name d) bondedNode.bondMembers
      [str "ens2f0", str "ens2f1"] := by
  have hne : str "ens2f0" ≠ str "ens2f1" := by decide
  refine .cons ⟨3, ?_⟩ (.cons ⟨0, ?_⟩ .nil)
  · refine ⟨by decide, by decide, by decide, fun t ht => ?_, fun t ht => ?_, fun t => ?_⟩
    · exact ⟨false, by simp [plainKernel, twoMembers, hne, ht]⟩
    · simp [plainKernel, twoMembers, hne, show ¬ 3 ≤ t by omega]
    · have hpci : (if hasDomain (str "0000:3b:00.0") then str "0000:3b:00.0" else str "0000:" ++ str "0000:3b:00.0") =
          str "0000:3b:00.0" := by decide
      by_cases ht : 3 ≤ t <;> simp [twoMembers, hpci, ht]
  · refine ⟨by decide, by decide, by decide, fun t _ => ?_, fun t ht => by omega, rfl⟩
    exact ⟨true, rfl⟩

theorem runHook_twoMembers : (runHook plainKernel twoMembers (bootCmdline bondedNode)).2 ≤ 152 ∧
    ∃ o t, t < 60 ∧ HasOptions plainKernel (nodeConfig bondedNode) o ∧
      plainKernel.links (runHook plainKernel twoMembers (bootCmdline bondedNode)).1 =
        hookLinks plainKernel (nodeConfig bondedNode) o [str "ens2f0", str "ens2f1"]
          (plainKernel.links (twoMembers.state t)) := by
  have hunused : ∀ x : Bytes, x ≠ str "ens2f0" → x ≠ str "ens2f1" → ∀ t,
      plainKernel.links (twoMembers.state t) x = none := by
    intro x h₀ h₁ t
    simp [plainKernel, twoMembers, h₀, h₁]
  have hwords : words (bootCmdline bondedNode) =
      [str "ro", str "root=/dev/ram0"] ++ words (buildKernelNet bondedNode) ++ [str "quiet"] := by decide +kernel
  have h := runHook_bondedLinks (K := plainKernel) (n := bondedNode) (by decide) (by decide) (by decide)
    (by decide) hwords (fun x hx k => by revert x; cases k <;> decide)
    ⟨by decide +kernel, by decide +kernel, by decide +kernel⟩
  refine ⟨h.1 twoMembers, h.2 twoMembers _ arrives_twoMembers (by decide) (by decide) fun t _ => ?_⟩
  refine ⟨.inl ⟨hunused _ (by decide) (by decide) t, by decide +kernel⟩,
    .inr ⟨by decide +kernel, by decide +kernel, by decide, ?_⟩⟩
  exact hunused _ (by decide) (by decide) t

end MaasBoot.Hook
