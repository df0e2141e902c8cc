import MaasBoot.UplinkSearch

/-!
# The variables and words of a running script

A node that boots with its script (`Boot`).  Between the lines the script's own variables hold what they are for
(`Knows`), and the only setting without a value that the script has asked for is the address of the interface after
the last one (`Ready`).  `Reads` says what a word of the script stands for while it is at some interface, and every
`goto` has one line to go to.
-/

namespace MaasBoot

open Ipxe

/-- A node that boots with its script: what iPXE finds there, and that the texts in the script stand as words and iPXE
takes the node's addresses. -/
structure Boot where
  unicode : Unicode
  node : Node
  mac : Bytes
  proxyBase : Bytes
  nics : Nics
  accepts : Bytes → Bytes → Bool
  succeeds : List (List Bytes) → List Bytes → Bool
  node_plain : node.Plain
  mac_plain : Plain mac
  proxyBase_plain : Plain proxyBase
  accepted : ∀ i, ∀ a ∈ addresses node, accepts (iface node i ++ a.1) a.2 = true

namespace Boot

variable (b : Boot)

def env : Env := bootEnv b.nics b.accepts b.succeeds

def program : List Line := nodeProgram b.unicode b.node b.mac b.proxyBase

def next (s : State) : State := step b.env b.program s

/-- The lines from some point of the program on. -/
def nextRest : List Line := nextProgram b.unicode b.node b.mac ++ endProgram

@[inherit_doc nextRest]
def downRest : List Line := takeDownProgram b.node ++ b.nextRest

@[inherit_doc nextRest]
def chainRest : List Line := chainProgram (trimRight b.proxyBase 47) ++ b.downRest

@[inherit_doc nextRest]
def attemptRest : List Line := configureProgram b.node ++ b.chainRest

@[inherit_doc nextRest]
def matchRest : List Line := matchProgram b.unicode b.node b.mac ++ b.attemptRest

@[inherit_doc nextRest]
def loopRest : List Line := labelLine (str "loop") :: (examineProgram ++ b.matchRest)

@[inherit_doc nextRest]
def passRest : List Line := labelLine (str "top") :: runLine [str "set", str "nic:int32", str "0"] :: b.loopRest

/-- The script compares interfaces with something. -/
def Compares : Prop := b.node.pciMembers b.unicode ≠ [] ∨ b.mac ≠ []

/-! ### Jumps -/

theorem program_eq : b.program =
    runLine [] :: runLine [] :: (setupProgram b.unicode b.node b.mac ++ b.passRest) := rfl

theorem labels_program (h : b.Compares) :
    labels b.program = [str "top", str "loop", str "hit", str "next", str "endpass", str "os_done"] := by
  rw [program, labels_nodeProgram, if_pos (show _ ∨ _ from h)]

theorem jump_top (s : State) : s.jump b.program (str "top") = (s.move b.passRest, .left) := by
  refine jump_of_unique (b.program_eq.trans (List.append_assoc [runLine [], runLine []] _ _).symm) rfl ?_
  rw [program, labels_nodeProgram]
  split <;> decide

theorem jump_loop (s : State) : s.jump b.program (str "loop") = (s.move b.loopRest, .left) := by
  have hsplit : b.program = (runLine [] :: runLine [] :: (setupProgram b.unicode b.node b.mac ++
      [labelLine (str "top"), runLine [str "set", str "nic:int32", str "0"]])) ++ b.loopRest := by
    simp [program_eq, passRest]
  refine jump_of_unique hsplit rfl ?_
  rw [program, labels_nodeProgram]
  split <;> decide

/-- The program up to some lines of the loop. -/
private theorem exists_program_append {rest : List Line} (h : rest <:+ b.matchRest) :
    ∃ pre, b.program = pre ++ rest := by
  obtain ⟨pre, hpre⟩ := h
  refine ⟨(runLine [] :: runLine [] :: (setupProgram b.unicode b.node b.mac ++
    [labelLine (str "top"), runLine [str "set", str "nic:int32", str "0"], labelLine (str "loop")])) ++
      (examineProgram ++ pre), ?_⟩
  rw [program_eq, passRest, loopRest, ← hpre]
  simp

private theorem endProgram_suffix : endProgram <:+ b.matchRest :=
  ((((List.suffix_append _ _).trans (List.suffix_append _ _)).trans (List.suffix_append _ _)).trans
    (List.suffix_append _ _)).trans (List.suffix_append _ _)

theorem jump_endpass (s : State) : s.jump b.program (str "endpass") = (s.move endProgram, .left) := by
  obtain ⟨pre, hpre⟩ := b.exists_program_append b.endProgram_suffix
  refine jump_of_unique hpre rfl ?_
  rw [program, labels_nodeProgram]
  split <;> decide

theorem jump_os_done (s : State) :
    s.jump b.program (str "os_done") =
      (s.move [labelLine (str "os_done"), runLine [str "exit", str "0"]], .left) := by
  obtain ⟨pre, hpre⟩ := b.exists_program_append ((List.suffix_append (endProgram.take 4) _).trans b.endProgram_suffix)
  refine jump_of_unique hpre rfl ?_
  rw [program, labels_nodeProgram]
  split <;> decide

theorem jump_next (h : b.Compares) (s : State) : s.jump b.program (str "next") = (s.move b.nextRest, .left) := by
  have hsuffix : b.nextRest <:+ b.matchRest :=
    (((List.suffix_append _ _).trans (List.suffix_append _ _)).trans (List.suffix_append _ _)).trans
      (List.suffix_append _ _)
  obtain ⟨pre, hpre⟩ := b.exists_program_append hsuffix
  have hnext : b.nextRest = labelLine (str "next") ::
      (andLine [str "inc", str "nic"] [str "goto", str "loop"] :: endProgram) := by
    rw [nextRest, nextProgram, if_pos (show _ ∨ _ from h)]
    rfl
  rw [hnext] at hpre ⊢
  refine jump_of_unique hpre rfl ?_
  rw [b.labels_program h]
  decide

theorem jump_hit (h : b.Compares) (s : State) :
    s.jump b.program (str "hit") = (s.move (labelLine (str "hit") :: b.attemptRest), .left) := by
  have hsuffix : labelLine (str "hit") :: b.attemptRest <:+ b.matchRest := by
    rw [matchRest, matchProgram]
    by_cases hp : b.node.pciMembers b.unicode = []
    · rw [if_neg (not_not_intro hp), if_pos (h.resolve_left (not_not_intro hp))]
      exact ⟨[andTryLine [str "iseq", nicMac, ref (str "target_mac")] [str "goto", str "hit"],
        runLine [str "goto", str "next"]], rfl⟩
    · rw [if_pos hp]
      refine ⟨((b.node.pciMembers b.unicode).map fun p =>
        andTryLine [str "iseq", nicBusdevfn, ref (pciVar p.1)] [str "goto", str "hit"]) ++
          [runLine [str "goto", str "next"]], ?_⟩
      simp
  obtain ⟨pre, hpre⟩ := b.exists_program_append hsuffix
  refine jump_of_unique hpre rfl ?_
  rw [b.labels_program h]
  decide

/-! ### Variables -/

/-- The script's variables, apart from the number of the interface. -/
structure Knows (vars : Bytes → Option Value) : Prop where
  vlan : b.node.vlan ≠ [] → vars (str "vlan") = some (.text b.node.vlan)
  pci : ∀ p ∈ b.node.pciMembers b.unicode, vars (pciVar p.1) = some (.text p.2)
  target : b.node.pciMembers b.unicode = [] → b.mac ≠ [] →
    vars (str "target_mac") = some (.text (toLower b.unicode b.mac))
  mac : ∀ i, vars (net i ++ str "/mac") = none
  busdevfn : ∀ i, vars (net i ++ str "/busloc:busdevfn") = none

/-- A name that is none of these variables. -/
structure Foreign (x : Bytes) : Prop where
  vlan : x ≠ str "vlan"
  pci : ∀ i, x ≠ pciVar i
  target : x ≠ str "target_mac"
  mac : ∀ i, x ≠ net i ++ str "/mac"
  busdevfn : ∀ i, x ≠ net i ++ str "/busloc:busdevfn"

/-- A state between two lines of the loop. -/
structure Ready (s : State) : Prop where
  halted : s.halted = none
  knows : b.Knows s.vars
  faults : ∀ f ∈ s.faults, f = .unset (net b.nics.list.length ++ str "/mac")

/-- The script is at some lines, with the commands `tr` behind it. -/
structure At (rest : List Line) (tr : List (List Bytes)) (s : State) : Prop extends b.Ready s where
  rest_eq : s.rest = rest
  trace_eq : s.trace = tr

/-- In a pass, at interface `i`. -/
structure AtNic (i : Nat) (rest : List Line) (tr : List (List Bytes)) (s : State) : Prop extends b.At rest tr s where
  nic : s.vars (str "nic") = some (.int32 i)

variable {b}

theorem Knows.setVar {vars : Bytes → Option Value} (h : b.Knows vars) {x : Bytes} (hx : Foreign x)
    (v : Option Value) :
    b.Knows fun y => if y = x then v else vars y where
  vlan := fun hv => (if_neg hx.vlan.symm).trans (h.vlan hv)
  pci := fun p hp => (if_neg (hx.pci p.1).symm).trans (h.pci p hp)
  target := fun hp hm => (if_neg hx.target.symm).trans (h.target hp hm)
  mac := fun i => (if_neg (hx.mac i).symm).trans (h.mac i)
  busdevfn := fun i => (if_neg (hx.busdevfn i).symm).trans (h.busdevfn i)

theorem foreign_nic : Foreign (str "nic") where
  vlan := by decide
  pci := fun i h => by
    have := congrArg List.head? h
    rw [pciVar, List.head?_append_of_ne_nil _ (by decide)] at this
    exact absurd this (by decide)
  target := by decide
  mac := fun i h => absurd (h ▸ List.mem_append_right _ (by decide) : (47 : UInt8) ∈ str "nic") (by decide)
  busdevfn := fun i h => absurd (h ▸ List.mem_append_right _ (by decide) : (47 : UInt8) ∈ str "nic") (by decide)

theorem slash_not_mem_pciVar (i : Nat) : (47 : UInt8) ∉ pciVar i := by
  intro h
  rcases List.mem_append.mp h with h | h
  · exact absurd h (by decide)
  · exact absurd (isLowerHex_of_mem_formatNat (by decide) (by decide) h) (by decide)

/-- The settings that the script makes for an interface. -/
theorem foreign_setting {a s : Bytes} (hslash : (47 : UInt8) ∈ s) (hc : s.getLast? ≠ some 99)
    (hn : s.getLast? ≠ some 110) :
    Foreign (a ++ s) where
  vlan := fun h => absurd (h ▸ List.mem_append_right a hslash : (47 : UInt8) ∈ str "vlan") (by decide)
  pci := fun i h => slash_not_mem_pciVar i (h ▸ List.mem_append_right a hslash)
  target := fun h => absurd (h ▸ List.mem_append_right a hslash : (47 : UInt8) ∈ str "target_mac") (by decide)
  mac := fun _ => append_ne_append (List.ne_nil_of_mem hslash) (by decide) hc
  busdevfn := fun _ => append_ne_append (List.ne_nil_of_mem hslash) (by decide) hn

/-! ### References -/

section Lookup

variable {lk : Bytes → Option Bytes} {i : Nat} {n : Node}

theorem dollar_not_mem_decimal (i : Nat) : 36 ∉ decimal i ∧ 125 ∉ decimal i :=
  ⟨fun h => (decimal_visible h).2.1 rfl, fun h => (decimal_visible h).2.2 rfl⟩

theorem resolve_netNic (hnic : lk (str "nic") = some (decimal i)) {t : Bytes} (ht : 36 ∉ t) :
    resolve lk (netNic ++ t) = (net i ++ t, []) := by
  have := resolve_ref (a := str "net") (s := t) (by decide) ht (by decide)
    (by decide) hnic (dollar_not_mem_decimal i).1
  rw [netNic, net, List.append_assoc, List.append_assoc]
  exact this

/-- A setting of the interface, with texts around it. -/
theorem resolve_nicRef (hnic : lk (str "nic") = some (decimal i)) {a t s x : Bytes} (ha : 36 ∉ a) (hs : 36 ∉ s)
    (ht : 36 ∉ t ∧ 125 ∉ t) (hx : lk (net i ++ t) = some x) (hx' : 36 ∉ x) :
    resolve lk (a ++ (ref (netNic ++ t) ++ s)) = (a ++ (x ++ s), []) := by
  have := (resolve_nested (b := str "net") (c := t) (y := x) ha hs (by decide) ht (by decide) hnic
    (dollar_not_mem_decimal i)).1
  rw [netNic, List.append_assoc]
  exact this (by rwa [net, List.append_assoc] at hx) hx'

theorem resolve_nicRef_unset (hnic : lk (str "nic") = some (decimal i)) {t : Bytes} (ht : 36 ∉ t ∧ 125 ∉ t)
    (hx : lk (net i ++ t) = none) : resolve lk (ref (netNic ++ t)) = ([], [net i ++ t]) := by
  have := (resolve_nested (a := []) (b := str "net") (c := t) (y := []) (s := []) (by decide) (by decide)
    (by decide) ht (by decide) hnic (dollar_not_mem_decimal i)).2
  rw [List.nil_append, List.append_nil] at this
  rw [netNic, net, List.append_assoc, List.append_assoc]
  exact this (by rwa [net, List.append_assoc] at hx)

theorem resolve_effIface (hnic : lk (str "nic") = some (decimal i))
    (hvlan : n.vlan ≠ [] → lk (str "vlan") = some n.vlan) (hplain : 36 ∉ n.vlan) {t : Bytes} (ht : 36 ∉ t) :
    resolve lk (effIface n ++ t) = (iface n i ++ t, []) := by
  unfold effIface iface
  by_cases hv : n.vlan = []
  · rw [if_neg (not_not_intro hv), if_neg (not_not_intro hv)]
    exact resolve_netNic hnic ht
  · rw [if_pos hv, if_pos hv]
    have hcount : (netNic ++ str "-" ++ ref (str "vlan") ++ t).count 36 = 0 + 1 + 1 := by
      rw [List.count_append, List.count_eq_zero_of_not_mem ht]
      decide
    have hnet : 36 ∉ net i ++ str "-" := by
      have := (dollar_not_mem_decimal i).1
      simp only [net, List.mem_append, not_or]
      exact ⟨⟨by decide, this⟩, by decide⟩
    have hsplit : netNic ++ str "-" ++ ref (str "vlan") ++ t =
        str "net" ++ (ref (str "nic") ++ (str "-" ++ (ref (str "vlan") ++ t))) := by
      simp [netNic]
    rw [resolve, hcount, hsplit, resolveN_ref (by decide) (by decide) (by decide) hnic,
      show str "net" ++ (decimal i ++ (str "-" ++ (ref (str "vlan") ++ t))) =
        (net i ++ str "-") ++ (ref (str "vlan") ++ t) by simp [net],
      resolveN_ref hnet (by decide) (by decide) (hvlan hv),
      resolveN_of_not_mem (by simp only [List.mem_append] at hnet ⊢; tauto), List.append_assoc (net i ++ str "-")]

end Lookup

/-! ### Words -/

section Words

variable {i : Nat} {rest : List Line} {tr : List (List Bytes)} {s : State}

theorem AtNic.lookup_nic (h : b.AtNic i rest tr s) : s.lookup b.env (str "nic") = some (decimal i) := by
  rw [State.lookup, h.nic]
  simp [Value.format]

theorem Ready.lookup_mac (h : b.Ready s) (i : Nat) :
    s.lookup b.env (net i ++ str "/mac") = b.nics.list[i]?.map (·.mac) := by
  rw [State.lookup, h.knows.mac i]
  have := nicSetting_mac b.nics.list 0 i
  rwa [Nat.zero_add] at this

theorem Ready.lookup_busdevfn (h : b.Ready s) (i : Nat) :
    s.lookup b.env (net i ++ str "/busloc:busdevfn") = b.nics.list[i]?.map (·.busdevfn) := by
  rw [State.lookup, h.knows.busdevfn i]
  have := nicSetting_busdevfn b.nics.list 0 i
  rwa [Nat.zero_add] at this

theorem Ready.lookup_vlan (h : b.Ready s) (hv : b.node.vlan ≠ []) :
    s.lookup b.env (str "vlan") = some b.node.vlan := by
  rw [State.lookup, h.knows.vlan hv]
  rfl

/-- What a word of the script stands for at interface `i`. -/
def Reads (b : Boot) (i : Nat) (w t : Bytes) : Prop :=
  ∀ rest tr s, b.AtNic i rest tr s → resolve (s.lookup b.env) w = (t, [])

theorem reads_self {w : Bytes} (h : 36 ∉ w) : b.Reads i w w := fun _ _ _ _ => resolve_of_not_mem h

theorem reads_netNic : b.Reads i netNic (net i) := by
  intro rest tr s hs
  have := resolve_netNic hs.lookup_nic (t := []) (by decide)
  rwa [List.append_nil, List.append_nil] at this

theorem reads_effIface {t : Bytes} (ht : 36 ∉ t) : b.Reads i (effIface b.node ++ t) (iface b.node i ++ t) :=
  fun _ _ _ hs => resolve_effIface hs.lookup_nic hs.lookup_vlan b.node_plain.vlan.dollar_not_mem ht

/-- A reference to a variable of the script. -/
theorem reads_ref {v x : Bytes} (hv : 36 ∉ v ∧ 125 ∉ v) (hx : 36 ∉ x)
    (h : ∀ rest tr s, b.AtNic i rest tr s → s.vars v = some (.text x)) : b.Reads i (ref v) x := by
  intro rest tr s hs
  have hlookup : s.lookup b.env v = some x := by
    rw [State.lookup, h rest tr s hs]
    rfl
  have := resolve_ref (a := []) (s := []) (by decide) (by decide) hv.1 hv.2 hlookup hx
  rwa [List.append_nil, List.append_nil, List.nil_append, List.nil_append] at this

theorem reads_vlan (hv : b.node.vlan ≠ []) : b.Reads i (ref (str "vlan")) b.node.vlan :=
  reads_ref (by decide) b.node_plain.vlan.dollar_not_mem fun _ _ _ hs => hs.knows.vlan hv

theorem reads_pciVar {p : Nat × Bytes} (hp : p ∈ b.node.pciMembers b.unicode) : b.Reads i (ref (pciVar p.1)) p.2 := by
  have hdigit := dollar_not_mem_decimal p.1
  refine reads_ref ⟨?_, ?_⟩ (plain_of_mem_pciMembers b.node_plain hp).1.dollar_not_mem fun _ _ _ hs =>
    hs.knows.pci p hp
  · rw [pciVar, List.mem_append, not_or]
    exact ⟨by decide, hdigit.1⟩
  · rw [pciVar, List.mem_append, not_or]
    exact ⟨by decide, hdigit.2⟩

theorem reads_target (hp : b.node.pciMembers b.unicode = []) (hm : b.mac ≠ []) :
    b.Reads i (ref (str "target_mac")) (toLower b.unicode b.mac) :=
  reads_ref (by decide) b.mac_plain.toLower.dollar_not_mem fun _ _ _ hs => hs.knows.target hp hm

variable {nic : Nic} (hnic : b.nics.list[i]? = some nic)
include hnic

theorem reads_mac {a t : Bytes} (ha : 36 ∉ a) (ht : 36 ∉ t) : b.Reads i (a ++ nicMac ++ t) (a ++ nic.mac ++ t) := by
  intro rest tr s hs
  have hlookup : s.lookup b.env (net i ++ str "/mac") = some nic.mac := by
    rw [hs.lookup_mac, hnic]
    rfl
  rw [List.append_assoc, List.append_assoc]
  exact resolve_nicRef hs.lookup_nic ha ht (by decide) hlookup nic.not_dollar.1

theorem reads_nicMac : b.Reads i nicMac nic.mac := by
  have := reads_mac hnic (a := []) (t := []) (by decide) (by decide)
  rwa [List.append_nil, List.append_nil, List.nil_append, List.nil_append] at this

theorem reads_busdevfn {t : Bytes} (ht : 36 ∉ t) : b.Reads i (nicBusdevfn ++ t) (nic.busdevfn ++ t) := by
  intro rest tr s hs
  have hlookup : s.lookup b.env (net i ++ str "/busloc:busdevfn") = some nic.busdevfn := by
    rw [hs.lookup_busdevfn, hnic]
    rfl
  exact resolve_nicRef hs.lookup_nic (a := []) (by decide) ht (by decide) hlookup nic.not_dollar.2

omit hnic in
theorem resolveWords_of_reads {ws ts : List Bytes} (h : List.Forall₂ (b.Reads i) ws ts) (hs : b.AtNic i rest tr s) :
    resolveWords (s.lookup b.env) ws = (ts, []) :=
  resolveWords_eq (h.imp fun _ _ hr => hr rest tr s hs)

end Words

end Boot

end MaasBoot
