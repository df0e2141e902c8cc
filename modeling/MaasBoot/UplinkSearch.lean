import MaasBoot.Lib.IpxeMachine
import MaasBoot.Lib.Runs
import MaasBoot.NodeProgram

/-!
# What a node's script does

The script goes through the interfaces of the machine, pass after pass.  On every uplink (`Uplink`) it sets up the
interface, tries to chain to the proxy and takes the interface down again; the first chain that succeeds ends it.
Here is what these commands are, in the order in which the script is to run them and with all references replaced.
-/

namespace MaasBoot

open Ipxe

/-! ### Interfaces -/

/-- A network interface as iPXE shows it. -/
structure Nic where
  mac : Bytes
  busdevfn : Bytes
  mac_ne_nil : mac ≠ []
  not_dollar : 36 ∉ mac ∧ 36 ∉ busdevfn

/-- The interfaces of a machine; their numbers fit into the script's counter. -/
structure Nics where
  list : List Nic
  length_lt : list.length < 2 ^ 31

def net (i : Nat) : Bytes := str "net" ++ decimal i

/-- The settings of the interfaces from number `i` on. -/
def nicSetting (name : Bytes) : Nat → List Nic → Option Bytes
  | _, [] => none
  | i, nic :: nics =>
    if name = net i ++ str "/mac" then some nic.mac
    else if name = net i ++ str "/busloc:busdevfn" then some nic.busdevfn
    else nicSetting name (i + 1) nics

/-- iPXE on a machine with these interfaces. -/
def bootEnv (nics : Nics) (accepts : Bytes → Bytes → Bool) (succeeds : List (List Bytes) → List Bytes → Bool) :
    Env where
  settings := fun name => nicSetting name 0 nics.list
  accepts := accepts
  succeeds := succeeds

/-! ### What the script is for -/

/-- The interfaces over which the node is booted: those at the PCI addresses of bond members, or else the one with the
node's address, or any if there is none. -/
def Uplink (u : Unicode) (n : Node) (mac : Bytes) (nic : Nic) : Prop :=
  (∃ m ∈ n.bondMembers, isPCIAddr m = true ∧ nic.busdevfn = formatIPXEPCI u m) ∨
    ((∀ m ∈ n.bondMembers, isPCIAddr m = false) ∧ (mac = [] ∨ toLower u mac = nic.mac))

instance (u : Unicode) (n : Node) (mac : Bytes) (nic : Nic) : Decidable (Uplink u n mac nic) :=
  inferInstanceAs (Decidable (_ ∨ _))

/-- The interface that gets the address. -/
def iface (n : Node) (i : Nat) : Bytes := if n.vlan ≠ [] then net i ++ str "-" ++ n.vlan else net i

def checking (i : Nat) (nic : Nic) : List Bytes :=
  [str "echo", str "Checking", net i, str "(" ++ nic.mac, nic.busdevfn ++ str ")..."]

/-- The commands that set an uplink up. -/
def configure (n : Node) (i : Nat) (nic : Nic) : List (List Bytes) :=
  [[str "echo", str "Configuring", net i, str "(" ++ nic.mac ++ str ")..."],
    [str "ifclose", net i], [str "ifopen", net i]] ++
    (if n.vlan ≠ [] then [[str "vcreate", str "--tag", n.vlan, net i]] else []) ++
    (addresses n).map (fun a => [str "set", iface n i ++ a.1, a.2]) ++
    [[str "ifopen", iface n i]]

def chainTo (proxyBase : Bytes) (nic : Nic) : List Bytes :=
  [str "chain", str "--autofree", trimRight proxyBase 47 ++ str "/ipxe.cfg-" ++ nic.mac]

/-- The commands that take an uplink down. -/
def takeDown (n : Node) (i : Nat) : List (List Bytes) :=
  (if n.vlan ≠ [] then [[str "ifclose", iface n i], [str "vdestroy", iface n i]] else []) ++ [[str "ifclose", net i]]

/-- The commands for interface `i`, if no chain succeeds. -/
def visit (u : Unicode) (n : Node) (mac proxyBase : Bytes) (i : Nat) (nic : Nic) : List (List Bytes) :=
  checking i nic ::
    if Uplink u n mac nic then configure n i nic ++ chainTo proxyBase nic :: takeDown n i else []

/-- The commands at the end of a pass. -/
def retry : List (List Bytes) :=
  [[str "echo", str "no", str "matching", str "uplink", str "reached", str "proxy;", str "retry", str "in", str "3s"],
    [str "sleep", str "3"]]

/-- The commands for the first `k` interfaces. -/
def visits (u : Unicode) (n : Node) (mac proxyBase : Bytes) (nics : Nics) (k : Nat) : List (List Bytes) :=
  (nics.list.zipIdx.take k).flatMap fun p => visit u n mac proxyBase p.2 p.1

/-- The commands of the first `p` passes, if no chain succeeds. -/
def passes (u : Unicode) (n : Node) (mac proxyBase : Bytes) (nics : Nics) (p : Nat) : List (List Bytes) :=
  (List.replicate p (visits u n mac proxyBase nics nics.list.length ++ retry)).flatten

/-- The commands before the chain on interface `i` in pass `p`. -/
def beforeChain (u : Unicode) (n : Node) (mac proxyBase : Bytes) (nics : Nics) (p i : Nat) (nic : Nic) :
    List (List Bytes) :=
  passes u n mac proxyBase nics p ++ visits u n mac proxyBase nics i ++ checking i nic :: configure n i nic

/-- Interface `i` is an uplink, and the chain on it in pass `p` succeeds. -/
def ChainSucceeds (u : Unicode) (n : Node) (mac proxyBase : Bytes) (nics : Nics)
    (succeeds : List (List Bytes) → List Bytes → Bool) (p i : Nat) (nic : Nic) : Prop :=
  nics.list[i]? = some nic ∧ Uplink u n mac nic ∧
    succeeds (beforeChain u n mac proxyBase nics p i nic) (chainTo proxyBase nic) = true

/-! ### Names -/

theorem decimal_injective {i j : Nat} (h : decimal i = decimal j) : i = j :=
  formatNat_injective (by decide) (by decide) h

theorem net_append_injective {i j : Nat} {t : Bytes} (h : net i ++ t = net j ++ t) : i = j :=
  decimal_injective (List.append_cancel_left (List.append_cancel_right h))

/-- Texts that end in different characters. -/
theorem append_ne_append {a b s t : Bytes} (hs : s ≠ []) (ht : t ≠ []) (h : s.getLast? ≠ t.getLast?) :
    a ++ s ≠ b ++ t := by
  intro heq
  have := congrArg List.getLast? heq
  rw [List.getLast?_append_of_ne_nil _ hs, List.getLast?_append_of_ne_nil _ ht] at this
  exact h this

theorem nicSetting_mac (nics : List Nic) (i j : Nat) :
    nicSetting (net (i + j) ++ str "/mac") i nics = nics[j]?.map (·.mac) := by
  induction nics generalizing i j with
  | nil => rfl
  | cons nic nics ih =>
    cases j with
    | zero => simp [nicSetting]
    | succ j =>
      have hne : net (i + (j + 1)) ++ str "/mac" ≠ net i ++ str "/mac" := fun h => by
        have := net_append_injective h
        omega
      rw [nicSetting, if_neg hne, if_neg (append_ne_append (by decide) (by decide) (by decide)),
        show i + (j + 1) = i + 1 + j by omega, ih]
      simp

theorem nicSetting_busdevfn (nics : List Nic) (i j : Nat) :
    nicSetting (net (i + j) ++ str "/busloc:busdevfn") i nics = nics[j]?.map (·.busdevfn) := by
  induction nics generalizing i j with
  | nil => rfl
  | cons nic nics ih =>
    rw [nicSetting, if_neg (append_ne_append (by decide) (by decide) (by decide))]
    cases j with
    | zero => simp
    | succ j =>
      have hne : net (i + (j + 1)) ++ str "/busloc:busdevfn" ≠ net i ++ str "/busloc:busdevfn" := fun h => by
        have := net_append_injective h
        omega
      rw [if_neg hne, show i + (j + 1) = i + 1 + j by omega, ih]
      simp

end MaasBoot
