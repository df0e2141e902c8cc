import Mathlib
import MaasBoot.Lib.Format
import MaasBoot.Lib.Scan
import MaasBoot.Lib.Strings

/-!
# Network interfaces of a Linux kernel

Interfaces by name: Ethernet devices, bonds with their options and slaves, and VLAN interfaces.  They are set up by
writes to files in `/sys/class/net` and calls of `ip`, which a kernel may refuse.  A `Kernel` is anything that
carries out those which the drivers document: the mode of a bond can be set while it is down and has no slaves, the
rate of LACP while it is down and in the mode for LACP, and an Ethernet device that is down and has no master
becomes a slave.

`bondedLinks` says what a bond looks like that has been set up; `Kernel.links_enslave` and the lemmas around it say
how it is built up step by step.
-/

namespace MaasBoot

/-! ### Options of bonds -/

inductive BondMode where
  | balanceRR
  | activeBackup
  | balanceXOR
  | broadcast
  | lacp
  | balanceTLB
  | balanceALB
  deriving DecidableEq

inductive LacpRate where
  | slow
  | fast
  deriving DecidableEq

inductive HashPolicy where
  | layer2
  | layer34
  | layer23
  | encap23
  | encap34
  | vlanSrcmac
  deriving DecidableEq

structure BondOptions where
  mode : BondMode := .balanceRR
  lacpRate : LacpRate := .slow
  hashPolicy : HashPolicy := .layer2
  deriving DecidableEq

/-! ### Interfaces -/

inductive LinkKind where
  | ethernet
  | bond (options : BondOptions) (slaves : List Bytes)
  | vlan (parent : Bytes) (id : Nat)
  | other
  deriving DecidableEq

/-- An interface; `vlans` are the ids of the VLAN interfaces on top of it. -/
structure NetLink where
  up : Bool
  master : Option Bytes := none
  vlans : List Nat := []
  kind : LinkKind := .ethernet
  deriving DecidableEq

abbrev NetLinks := Bytes → Option NetLink

/-- A bond without a master and without VLAN interfaces. -/
abbrev bondLink (up : Bool) (o : BondOptions) (slaves : List Bytes) : NetLink := { up := up, kind := .bond o slaves }

/-- A name that an interface can have. -/
def IsIfName (name : Bytes) : Prop :=
  name ≠ [] ∧ name.length < 16 ∧ name ≠ str "." ∧ name ≠ str ".." ∧
    ∀ c ∈ name, c ≠ 47 ∧ c ≠ 58 ∧ ¬ (9 ≤ c ∧ c ≤ 13) ∧ c ≠ 32 ∧ c ≠ 0xA0

instance (name : Bytes) : Decidable (IsIfName name) := inferInstanceAs (Decidable (_ ∧ _))

namespace NetLinks

/-- The interfaces with a bond, up or down, and its slaves. -/
def bondedLinks (bond : Bytes) (up : Bool) (o : BondOptions) (slaves : List Bytes) (s : NetLinks) :
    NetLinks := fun x =>
  if x = bond then some (bondLink up o slaves)
  else if x ∈ slaves then (s x).map fun l => { l with up := true, master := some bond }
  else s x

/-- The interfaces with a VLAN interface on top of another one. -/
def vlanLinks (parent name : Bytes) (id : Nat) (s : NetLinks) : NetLinks :=
  Function.update (Function.update s parent ((s parent).map fun l => { l with vlans := id :: l.vlans })) name
    (some { up := true, kind := .vlan parent id })

/-- An Ethernet device that can become a slave once it is down. -/
def IsFree (s : NetLinks) (name : Bytes) : Prop := ∃ up, s name = some { up := up }

/-- No interface yet, or a bond that nobody has used. -/
def IsUnused (s : NetLinks) (bond : Bytes) : Prop :=
  (s bond = none ∧ IsIfName bond) ∨ ∃ o, s bond = some (bondLink false o [])

/-- A VLAN interface is brought up only if its parent is up. -/
def CanSetUp (s : NetLinks) (up : Bool) (l : NetLink) : Prop :=
  l.vlans = [] ∧ ∀ parent id, l.kind = .vlan parent id → up = true → ∃ p, s parent = some p ∧ p.up = true

variable {s : NetLinks} {bond name : Bytes} {up : Bool} {o : BondOptions} {slaves : List Bytes}

theorem bondedLinks_bond : bondedLinks bond up o slaves s bond = some (bondLink up o slaves) := if_pos rfl

theorem bondedLinks_slave (hne : name ≠ bond) (h : name ∈ slaves) :
    bondedLinks bond up o slaves s name = (s name).map fun l => { l with up := true, master := some bond } := by
  rw [bondedLinks, if_neg hne, if_pos h]

theorem bondedLinks_other (hne : name ≠ bond) (h : name ∉ slaves) : bondedLinks bond up o slaves s name = s name := by
  rw [bondedLinks, if_neg hne, if_neg h]

/-- Only the bond changes. -/
theorem update_bondedLinks (up' : Bool) (o' : BondOptions) :
    Function.update (bondedLinks bond up o slaves s) bond (some (bondLink up' o' slaves)) =
      bondedLinks bond up' o' slaves s := by
  funext x
  by_cases hx : x = bond
  · rw [hx, Function.update_self, bondedLinks_bond]
  · rw [Function.update_of_ne hx, bondedLinks, bondedLinks, if_neg hx, if_neg hx]

/-- A new bond. -/
theorem update_eq_bondedLinks :
    Function.update s bond (some (bondLink up o [])) = bondedLinks bond up o [] s := by
  funext x
  by_cases hx : x = bond
  · rw [hx, Function.update_self, bondedLinks_bond]
  · rw [Function.update_of_ne hx, bondedLinks_other hx (by simp)]

/-- One more slave. -/
theorem update_enslave (hfree : IsFree s name) (hne : name ≠ bond) :
    Function.update
        (Function.update (bondedLinks bond up o slaves s) name (some { up := true, master := some bond }))
        bond (some (bondLink up o (slaves ++ [name]))) =
      bondedLinks bond up o (slaves ++ [name]) s := by
  obtain ⟨up', hname⟩ := hfree
  funext x
  by_cases hx : x = bond
  · rw [hx, Function.update_self, bondedLinks_bond]
  · rw [Function.update_of_ne hx]
    by_cases hxn : x = name
    · rw [hxn, Function.update_self, bondedLinks_slave hne (by simp), hname]
      rfl
    · rw [Function.update_of_ne hxn]
      simp [bondedLinks, hx, hxn]

end NetLinks

/-! ### Kernels -/

open NetLinks

/-- A write to a file in `/sys/class/net`, or a call of `ip` or `vconfig`. -/
inductive NetCommand where
  | addBond (bond : Bytes)
  | setMode (bond value : Bytes)
  | setLacpRate (bond value : Bytes)
  | setHashPolicy (bond value : Bytes)
  | enslave (bond name : Bytes)
  | setUp (up : Bool) (name : Bytes)
  | addVlan (parent name vid : Bytes)
  | vconfigAdd (parent vid : Bytes)

structure Kernel (σ : Type) where
  links : σ → NetLinks
  /-- Whether a command succeeds, and the state after it. -/
  run : NetCommand → σ → Bool × σ
  /-- The texts of the options of a bond and of the id of a VLAN. -/
  mode : Bytes → Option BondMode
  lacpRate : Bytes → Option LacpRate
  hashPolicy : Bytes → Option HashPolicy
  vlanId : Bytes → Option Nat
  addBond : ∀ {bond s}, links s bond = none → IsIfName bond → ∃ o,
    links (run (.addBond bond) s).2 = Function.update (links s) bond (some (bondLink false o []))
  setMode : ∀ {bond value m s o}, mode value = some m → links s bond = some (bondLink false o []) →
    links (run (.setMode bond value) s).2 =
      Function.update (links s) bond (some (bondLink false { o with mode := m } []))
  /-- Only the mode for LACP has a rate. -/
  setLacpRate : ∀ {bond value rate s o}, lacpRate value = some rate →
    links s bond = some (bondLink false o []) → links (run (.setLacpRate bond value) s).2 =
      Function.update (links s) bond
        (some (bondLink false { o with lacpRate := if o.mode = .lacp then rate else o.lacpRate } []))
  setHashPolicy : ∀ {bond value policy s o}, hashPolicy value = some policy →
    links s bond = some (bondLink false o []) → links (run (.setHashPolicy bond value) s).2 =
      Function.update (links s) bond (some (bondLink false { o with hashPolicy := policy } []))
  /-- An interface that becomes a slave is brought up. -/
  enslave : ∀ {bond name s up o slaves}, links s bond = some (bondLink up o slaves) →
    links s name = some { up := false } → links (run (.enslave bond name) s).2 =
      Function.update (Function.update (links s) name (some { up := true, master := some bond })) bond
        (some (bondLink up o (slaves ++ [name])))
  setUp : ∀ {up name s l}, links s name = some l → CanSetUp (links s) up l →
    links (run (.setUp up name) s).2 = Function.update (links s) name (some { l with up := up })
  addVlan : ∀ {parent name vid id s l}, vlanId vid = some id → links s parent = some l → id ∉ l.vlans →
    links s name = none → IsIfName name → (run (.addVlan parent name vid) s).1 = true ∧
      links (run (.addVlan parent name vid) s).2 = Function.update (Function.update (links s) parent
        (some { l with vlans := id :: l.vlans })) name (some { up := false, kind := .vlan parent id })

namespace Kernel

variable {σ : Type} (K : Kernel σ)

/-- A command whose failure does not matter. -/
def exec (c : NetCommand) (s : σ) : σ := (K.run c s).2

variable {K} {s : σ} {l : NetLinks} {bond name : Bytes} {up : Bool} {o : BondOptions} {slaves : List Bytes}

theorem links_addBond (hnone : K.links s bond = none) (hname : IsIfName bond) :
    ∃ o, K.links (K.exec (.addBond bond) s) = bondedLinks bond false o [] (K.links s) := by
  obtain ⟨o, ho⟩ := K.addBond hnone hname
  exact ⟨o, ho.trans update_eq_bondedLinks⟩

section Options

variable {value : Bytes} (hs : K.links s = bondedLinks bond false o [] l)
include hs

theorem links_setMode {m : BondMode} (h : K.mode value = some m) :
    K.links (K.exec (.setMode bond value) s) = bondedLinks bond false { o with mode := m } [] l := by
  rw [exec, K.setMode h (by rw [hs, bondedLinks_bond]), hs, update_bondedLinks]

theorem links_setLacpRate {rate : LacpRate} (h : K.lacpRate value = some rate) :
    K.links (K.exec (.setLacpRate bond value) s) =
      bondedLinks bond false { o with lacpRate := if o.mode = .lacp then rate else o.lacpRate } [] l := by
  rw [exec, K.setLacpRate h (by rw [hs, bondedLinks_bond]), hs, update_bondedLinks]

theorem links_setHashPolicy {policy : HashPolicy} (h : K.hashPolicy value = some policy) :
    K.links (K.exec (.setHashPolicy bond value) s) = bondedLinks bond false { o with hashPolicy := policy } [] l := by
  rw [exec, K.setHashPolicy h (by rw [hs, bondedLinks_bond]), hs, update_bondedLinks]

end Options

section Slaves

variable (hs : K.links s = bondedLinks bond up o slaves l)
include hs

/-- A free interface is taken down and becomes a slave. -/
theorem links_enslave (hfree : IsFree l name) (hne : name ≠ bond) (hnew : name ∉ slaves) :
    K.links (K.exec (.enslave bond name) (K.exec (.setUp false name) s)) =
      bondedLinks bond up o (slaves ++ [name]) l := by
  obtain ⟨up', hname⟩ := id hfree
  have hdown : K.links (K.exec (.setUp false name) s) = Function.update (bondedLinks bond up o slaves l) name
      (some { up := false }) := by
    rw [exec, K.setUp (l := { up := up' }) (by rw [hs, bondedLinks_other hne hnew, hname]) ⟨rfl, by simp⟩, hs]
  have hbond : K.links (K.exec (.setUp false name) s) bond = some (bondLink up o slaves) := by
    rw [hdown, Function.update_of_ne (Ne.symm hne), bondedLinks_bond]
  rw [exec, K.enslave hbond (by rw [hdown, Function.update_self]), hdown, Function.update_idem,
    update_enslave hfree hne]

theorem links_setUp_bond : K.links (K.exec (.setUp true bond) s) = bondedLinks bond true o slaves l := by
  have hbond : K.links s bond = some (bondLink up o slaves) := by rw [hs, bondedLinks_bond]
  rw [exec, K.setUp hbond ⟨rfl, by simp⟩, hs, update_bondedLinks]

/-- A slave is up already. -/
theorem links_setUp_slave (hfree : IsFree l name) (hne : name ≠ bond) (hslave : name ∈ slaves) :
    K.links (K.exec (.setUp true name) s) = bondedLinks bond up o slaves l := by
  obtain ⟨up', hname⟩ := hfree
  have hup : bondedLinks bond up o slaves l name = some { up := true, master := some bond } := by
    rw [bondedLinks_slave hne hslave, hname]
    rfl
  rw [exec, K.setUp (by rw [hs, hup]) ⟨rfl, by simp⟩, hs, Function.update_eq_self_iff.mpr hup.symm]

end Slaves

/-- A new VLAN interface can be brought up. -/
theorem links_addVlan {parent vid : Bytes} {id : Nat} {p : NetLink} (hid : K.vlanId vid = some id)
    (hparent : K.links s parent = some p) (hup : p.up = true) (hnew : id ∉ p.vlans) (hnone : K.links s name = none)
    (hname : IsIfName name) : (K.run (.addVlan parent name vid) s).1 = true ∧
      K.links (K.exec (.setUp true name) (K.run (.addVlan parent name vid) s).2) =
        vlanLinks parent name id (K.links s) := by
  obtain ⟨hdone, hlinks⟩ := K.addVlan hid hparent hnew hnone hname
  refine ⟨hdone, ?_⟩
  have hne : parent ≠ name := by
    rintro rfl
    rw [hparent] at hnone
    cases hnone
  have hcan : CanSetUp (K.links (K.run (.addVlan parent name vid) s).2) true
      { up := false, kind := .vlan parent id } := by
    refine ⟨rfl, ?_⟩
    rintro parent' id' hkind -
    cases hkind
    refine ⟨{ p with vlans := id :: p.vlans }, ?_, hup⟩
    rw [hlinks, Function.update_of_ne hne, Function.update_self]
  rw [exec, K.setUp (by rw [hlinks, Function.update_self]) hcan, hlinks, Function.update_idem, vlanLinks, hparent]
  rfl

end Kernel

/-! ### A plain kernel -/

namespace PlainKernel

/-- The value of an option: its name, or its number in the table. -/
def optionValue {α : Type} (table : List (Bytes × α)) (s : Bytes) : Option α :=
  (table.zipIdx.find? fun e => e.1.1 = s ∨ decimal e.2 = s).map fun e => e.1.2

def mode : Bytes → Option BondMode :=
  optionValue [(str "balance-rr", .balanceRR), (str "active-backup", .activeBackup), (str "balance-xor", .balanceXOR),
    (str "broadcast", .broadcast), (str "802.3ad", .lacp), (str "balance-tlb", .balanceTLB),
    (str "balance-alb", .balanceALB)]

def lacpRate : Bytes → Option LacpRate := optionValue [(str "slow", .slow), (str "fast", .fast)]

def hashPolicy : Bytes → Option HashPolicy :=
  optionValue [(str "layer2", .layer2), (str "layer3+4", .layer34), (str "layer2+3", .layer23),
    (str "encap2+3", .encap23), (str "encap3+4", .encap34), (str "vlan+srcmac", .vlanSrcmac)]

/-- A number with the base that its first characters tell. -/
def vlanId (s : Bytes) : Option Nat :=
  let (base, digits) := match s with
    | 48 :: 120 :: t => (16, t)
    | 48 :: t => (8, 48 :: t)
    | t => (10, t)
  if digits ≠ [] ∧ (∀ c ∈ digits, isHexDigit c ∧ digitVal c < base) ∧ parseNat base digits < 4095 then
    some (parseNat base digits)
  else none

def setOption (bond : Bytes) (s : NetLinks) (f : BondOptions → Option BondOptions) : Option NetLinks :=
  match s bond with
  | some ⟨false, none, [], .bond o []⟩ => (f o).map fun o => Function.update s bond (some (bondLink false o []))
  | _ => none

def newVlan (parent name : Bytes) (id : Nat) (s : NetLinks) : Option NetLinks :=
  match s parent with
  | some l =>
    if id ∉ l.vlans ∧ s name = none ∧ IsIfName name then
      some (Function.update (Function.update s parent (some { l with vlans := id :: l.vlans })) name
        (some { up := false, kind := .vlan parent id }))
    else none
  | none => none

def canSetUp (s : NetLinks) (up : Bool) (l : NetLink) : Bool :=
  l.vlans.isEmpty && match l.kind with
    | .vlan parent _ => !up || (s parent).any NetLink.up
    | _ => true

/-- Only the commands of the laws succeed, and an interface with VLAN interfaces is left alone. -/
def apply (s : NetLinks) : NetCommand → Option NetLinks
  | .addBond bond =>
    if s bond = none ∧ IsIfName bond then some (Function.update s bond (some (bondLink false {} []))) else none
  | .setMode bond value => setOption bond s fun o => (mode value).map fun m => { o with mode := m }
  | .setLacpRate bond value => setOption bond s fun o =>
    if o.mode = .lacp then (lacpRate value).map fun rate => { o with lacpRate := rate } else none
  | .setHashPolicy bond value => setOption bond s fun o =>
    (hashPolicy value).map fun policy => { o with hashPolicy := policy }
  | .enslave bond name => match s bond, s name with
    | some ⟨up, none, [], .bond o slaves⟩, some ⟨false, none, [], .ethernet⟩ =>
      some (Function.update (Function.update s name (some { up := true, master := some bond })) bond
        (some (bondLink up o (slaves ++ [name]))))
    | _, _ => none
  | .setUp up name => match s name with
    | some l => if canSetUp s up l then some (Function.update s name (some { l with up := up })) else none
    | none => none
  | .addVlan parent name vid => (vlanId vid).bind fun id => newVlan parent name id s
  | .vconfigAdd parent vid => (vlanId vid).bind fun id => newVlan parent (parent ++ str "." ++ decimal id) id s

def run (c : NetCommand) (s : NetLinks) : Bool × NetLinks :=
  match apply s c with
  | some s' => (true, s')
  | none => (false, s)

variable {s s' : NetLinks} {c : NetCommand}

theorem run_of_apply (h : apply s c = some s') : run c s = (true, s') := by rw [run, h]

theorem setOption_eq {bond : Bytes} {o o' : BondOptions} {f : BondOptions → Option BondOptions}
    (hbond : s bond = some (bondLink false o [])) (hf : f o = some o') :
    setOption bond s f = some (Function.update s bond (some (bondLink false o' []))) := by
  rw [setOption, hbond]
  simp [hf]

theorem canSetUp_of {up : Bool} {l : NetLink} (h : CanSetUp s up l) : canSetUp s up l = true := by
  rw [canSetUp, h.1]
  cases hkind : l.kind with
  | ethernet => rfl
  | bond o slaves => rfl
  | other => rfl
  | vlan parent id =>
    cases up with
    | false => rfl
    | true =>
      obtain ⟨p, hp, hup⟩ := h.2 parent id hkind rfl
      simp [hp, hup]

end PlainKernel

open PlainKernel in
/-- The state is what can be seen of it. -/
def plainKernel : Kernel NetLinks where
  links s := s
  run := run
  mode := mode
  lacpRate := lacpRate
  hashPolicy := hashPolicy
  vlanId := vlanId
  addBond {bond s} hnone hname := by
    refine ⟨{}, ?_⟩
    have hdone : apply s (.addBond bond) = some (Function.update s bond (some (bondLink false {} []))) :=
      if_pos ⟨hnone, hname⟩
    rw [run_of_apply hdone]
  setMode {bond value m s o} hvalue hbond := by
    have hdone : apply s (.setMode bond value) =
        some (Function.update s bond (some (bondLink false { o with mode := m } []))) :=
      setOption_eq hbond (by rw [hvalue]; rfl)
    rw [run_of_apply hdone]
  setLacpRate {bond value rate s o} hvalue hbond := by
    by_cases hmode : o.mode = .lacp
    · have hdone : apply s (.setLacpRate bond value) =
          some (Function.update s bond (some (bondLink false { o with lacpRate := rate } []))) :=
        setOption_eq hbond (by rw [if_pos hmode, hvalue]; rfl)
      rw [run_of_apply hdone, if_pos hmode]
    · have hrefused : apply s (.setLacpRate bond value) = none := by
        simp [apply, setOption, hbond, hmode]
      rw [run, hrefused, if_neg hmode]
      exact (Function.update_eq_self_iff.mpr hbond.symm).symm
  setHashPolicy {bond value policy s o} hvalue hbond := by
    have hdone : apply s (.setHashPolicy bond value) =
        some (Function.update s bond (some (bondLink false { o with hashPolicy := policy } []))) :=
      setOption_eq hbond (by rw [hvalue]; rfl)
    rw [run_of_apply hdone]
  enslave {bond name s up o slaves} hbond hname := by
    have hdone : apply s (.enslave bond name) =
        some (Function.update (Function.update s name (some { up := true, master := some bond })) bond
          (some (bondLink up o (slaves ++ [name])))) := by
      rw [apply, hbond, hname]
    rw [run_of_apply hdone]
  setUp {up name s l} hname hcan := by
    have hdone : apply s (.setUp up name) = some (Function.update s name (some { l with up := up })) := by
      rw [apply, hname]
      exact if_pos (canSetUp_of hcan)
    rw [run_of_apply hdone]
  addVlan {parent name vid id s l} hid hparent hnew hnone hname := by
    have hdone : apply s (.addVlan parent name vid) =
        some (Function.update (Function.update s parent (some { l with vlans := id :: l.vlans })) name
          (some { up := false, kind := .vlan parent id })) := by
      rw [apply, hid, Option.bind_some, newVlan, hparent]
      exact if_pos ⟨hnew, hnone, hname⟩
    rw [run_of_apply hdone]
    exact ⟨rfl, rfl⟩

end MaasBoot
