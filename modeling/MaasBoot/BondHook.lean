import MaasBoot.Lib.Shell

/-!
# The bond hook

The initramfs script `scripts/init-premount/bond`: it reads its arguments from the words of the kernel command line,
looks up the device of every bond member and brings up the bond, or the VLAN interface on top of it.
-/

namespace MaasBoot.Hook

/-- The arguments the hook knows. -/
inductive Arg where
  | bond
  | members
  | mode
  | rate
  | hash
  | vlan
  deriving DecidableEq

/-- The text before the value of an argument. -/
def Arg.key : Arg → Bytes
  | .bond => str "gen_bond="
  | .members => str "gen_members="
  | .mode => str "gen_mode="
  | .rate => str "gen_rate="
  | .hash => str "gen_hash="
  | .vlan => str "gen_vlan="

/-- The branch of the `case` that a word takes. -/
def argOf (x : Bytes) : Option Arg :=
  [Arg.bond, .members, .mode, .rate, .hash, .vlan].find? fun k => k.key.isPrefixOf x

/-- One round of the loop over the command line. -/
def argStep (a : Arg → Bytes) (x : Bytes) : Arg → Bytes :=
  match argOf x with
  | some k => Function.update a k (x.drop k.key.length)
  | none => a

/-- The variables after the loop over the words `ws`. -/
def readArgs (ws : List Bytes) : Arg → Bytes := ws.foldl argStep fun _ => []

structure Config where
  bond : Bytes
  members : Bytes
  mode : Bytes
  rate : Bytes
  hash : Bytes
  vid : Bytes
  deriving DecidableEq

/-- The configuration with its defaults; without a bond or members there is nothing to do. -/
def config (cmdline : Bytes) : Option Config :=
  let a := readArgs (words cmdline)
  if a .bond ≠ [] ∧ a .members ≠ [] then
    some {
      bond := a .bond
      members := a .members
      mode := if a .mode ≠ [] then a .mode else str "802.3ad"
      rate := if a .rate ≠ [] then a .rate else str "fast"
      hash := if a .hash ≠ [] then a .hash else str "layer3+4"
      vid := a .vlan }
  else none

/-- The specs of the members: `$MEMBERS` split at commas. -/
def Config.specs (c : Config) : List Bytes := fields 44 c.members

/-- Where the hook looks for a member: under `/sys/bus/pci/devices` or under `/sys/class/net`. -/
inductive Lookup where
  | pci (name : Bytes)
  | iface (name : Bytes)
  deriving DecidableEq

/-- The pattern `*:*:*.*`. -/
def hasDomain (s : Bytes) : Bool :=
  match s.dropWhile (· != 58) with
  | [] => false
  | _ :: s =>
    match s.dropWhile (· != 58) with
    | [] => false
    | _ :: s => s.contains 46

/-- The place that `resolve_member` looks up. -/
def resolveMember (spec : Bytes) : Lookup :=
  if spec.contains 58 then .pci (if hasDomain spec then spec else str "0000:" ++ spec) else .iface spec

/-- The lookups of a run, in order. -/
def lookups (cmdline : Bytes) : List Lookup :=
  match config cmdline with
  | some c => c.specs.map resolveMember
  | none => []

/-- The interface that ends up configured: the bond, or the VLAN interface on it. -/
def Config.interface (c : Config) : Bytes := if c.vid ≠ [] then c.bond ++ str "." ++ c.vid else c.bond

/-- What `resolve_member` prints; `pciNet` gives the interface of a PCI device if one appears in time.  The name of an
interface is printed even if that interface does not appear. -/
def Lookup.resolve (pciNet : Bytes → Option Bytes) : Lookup → Option Bytes
  | .pci name => pciNet name
  | .iface name => some name

structure Setup where
  config : Config
  slaves : List Bytes
  interface : Bytes
  deriving DecidableEq

/-- A run of the hook: the bond with its members, unless no member is found. -/
def run (pciNet : Bytes → Option Bytes) (cmdline : Bytes) : Option Setup := do
  let c ← config cmdline
  let slaves := (c.specs.filterMap fun m => (resolveMember m).resolve pciNet).filter (· ≠ [])
  if slaves = [] then none else some { config := c, slaves := slaves, interface := c.interface }

/-! ### Arguments -/

theorem argStep_apply (a : Arg → Bytes) (x : Bytes) (k : Arg) :
    argStep a x k = if argOf x = some k then x.drop k.key.length else a k := by
  unfold argStep
  cases h : argOf x with
  | none => simp
  | some k' =>
    by_cases hk : k' = k
    · subst hk; simp
    · simp [Function.update_of_ne (Ne.symm hk), hk]

/-- A variable holds the value of the last word with its key. -/
theorem readArgs_eq (ws : List Bytes) (k : Arg) :
    readArgs ws k = ((ws.filter fun x => argOf x = some k).getLast?.map (·.drop k.key.length)).getD [] := by
  unfold readArgs
  induction ws using List.reverseRecOn with
  | nil => rfl
  | append_singleton ws x ih =>
    rw [List.foldl_append, List.foldl_cons, List.foldl_nil, argStep_apply, ih, List.filter_append]
    by_cases hx : argOf x = some k
    · simp [hx]
    · simp [hx]

/-- One word with the key of an argument sets it. -/
theorem readArgs_of_unique {ws : List Bytes} {k : Arg} {x : Bytes} (h : (ws.filter fun x => argOf x = some k) = [x]) :
    readArgs ws k = x.drop k.key.length := by
  rw [readArgs_eq, h]
  rfl

theorem readArgs_of_absent {ws : List Bytes} {k : Arg} (h : (ws.filter fun x => argOf x = some k) = []) :
    readArgs ws k = [] := by
  rw [readArgs_eq, h]
  rfl

theorem length_key (k : Arg) : 6 ≤ k.key.length := by
  cases k <;> decide

/-- The first six characters tell the keys apart. -/
theorem eq_of_take_key_eq {k k' : Arg} (h : k.key.take 6 = k'.key.take 6) : k = k' := by
  revert h
  cases k <;> cases k' <;> decide

theorem eq_of_key_leads {k k' : Arg} {v : Bytes} (h : k'.key <+: k.key ++ v) : k' = k := by
  obtain ⟨s, hs⟩ := h
  have htake := congrArg (List.take 6) hs
  rw [List.take_append_of_le_length (length_key k'), List.take_append_of_le_length (length_key k)] at htake
  exact eq_of_take_key_eq htake

theorem argOf_eq_some_iff {x : Bytes} {k : Arg} : argOf x = some k ↔ k.key <+: x := by
  constructor
  · intro h
    simpa using List.find?_some h
  · rintro ⟨v, rfl⟩
    unfold argOf
    cases h : [Arg.bond, .members, .mode, .rate, .hash, .vlan].find? (fun k' => k'.key.isPrefixOf (k.key ++ v)) with
    | none =>
      have := List.find?_eq_none.mp h k (by cases k <;> simp)
      simp at this
    | some k' =>
      have hk := List.find?_some h
      rw [eq_of_key_leads (List.isPrefixOf_iff_prefix.mp hk)]

/-- A word that is a key with a value is read as that argument. -/
theorem argOf_key_append (k : Arg) (v : Bytes) : argOf (k.key ++ v) = some k :=
  argOf_eq_some_iff.mpr (List.prefix_append _ _)

end MaasBoot.Hook
