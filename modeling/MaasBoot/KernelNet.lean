import MaasBoot.Node
import MaasBoot.Lib.Shell

/-!
# Kernel parameters

`buildKernelNet` of `main.go`: the network parameters of a node as words of the kernel command line.
-/

namespace MaasBoot

/-- The character `,`. -/
def comma : UInt8 := 44

/-- `def`: a value, or its default if it is empty. -/
def orDefault (v d : Bytes) : Bytes := if v = [] then d else v

/-- The name servers of the `ip=` argument. -/
def dnsSuffix (n : Node) : Bytes :=
  if n.dns ≠ [] ∧ n.dns2 ≠ [] then str ":" ++ n.dns ++ str ":" ++ n.dns2
  else if n.dns ≠ [] then str ":" ++ n.dns
  else []

/-- A device, or its VLAN interface if there is a VLAN. -/
def vlanDevice (dev vlan : Bytes) : Bytes := if vlan ≠ [] then dev ++ str "." ++ vlan else dev

/-- The argument `ip=` with the device `vdev`. -/
def ipArg (n : Node) (vdev : Bytes) : Bytes :=
  str "ip=" ++ n.ip ++ str "::" ++ n.gw ++ str ":" ++ n.netmask ++ str ":" ++ n.hostname ++ str ":" ++ vdev ++
    str ":none" ++ dnsSuffix n

/-- The bond of a node. -/
def Node.bond (n : Node) : Bytes := orDefault n.bondName (str "bond0")

/-- The arguments that follow `ip=` for a bonded node. -/
def bondArgs (n : Node) : List Bytes :=
  [str "gen_bond=" ++ n.bond,
    str "gen_members=" ++ join [comma] n.bondMembers,
    str "gen_mode=" ++ orDefault n.bondMode (str "802.3ad"),
    str "gen_rate=" ++ orDefault n.lacpRate (str "fast"),
    str "gen_hash=" ++ orDefault n.hashPolicy (str "layer3+4")] ++
    (if n.vlan ≠ [] then [str "gen_vlan=" ++ n.vlan] else []) ++
    [str "network-config=disabled"]

/-- The arguments that follow `ip=` for a node with a single uplink. -/
def devArgs (n : Node) : List Bytes :=
  (if n.vlan ≠ [] then [str "vlan=" ++ vlanDevice n.dev n.vlan ++ str ":" ++ n.dev] else []) ++
    [str "network-config=disabled"]

/-- A first argument and more of them, each behind a space. -/
def argText (first : Bytes) (args : List Bytes) : Bytes := first ++ args.flatMap (str " " ++ ·)

def buildKernelNet (n : Node) : Bytes :=
  if n.kernelNet ≠ [] then n.kernelNet
  else if n.bonded then argText (ipArg n (vlanDevice n.bond n.vlan)) (bondArgs n)
  else argText (ipArg n (vlanDevice n.dev n.vlan)) (devArgs n)

/-- The words of the parameters are the words of the arguments. -/
theorem words_argText (first : Bytes) (args : List Bytes) :
    words (argText first args) = words first ++ args.flatMap words := by
  unfold argText
  induction args generalizing first with
  | nil => simp
  | cons a args ih =>
    have hs : ∀ t, str " " ++ t = 32 :: t := fun t => rfl
    rw [List.flatMap_cons, List.flatMap_cons, hs, List.cons_append, words_append_cons (by decide), ih]

end MaasBoot
