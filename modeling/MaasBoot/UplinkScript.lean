import MaasBoot.UplinkPass

/-!
# The run of a node's script

The script sets its variables and then makes passes until a chain succeeds.  `renderNodeIPXEScript_uplinks` says which
commands the text of `RenderNodeIPXEScript` makes iPXE run, in which order.
-/

namespace MaasBoot

open Ipxe

namespace Boot

variable {b : Boot}

/-! ### The start of the script -/

/-- The variables that the script sets first. -/
def assignments (b : Boot) : List (Bytes × Bytes) :=
  (if b.node.vlan ≠ [] then [(str "vlan", b.node.vlan)] else []) ++
    (b.node.pciMembers b.unicode).map (fun p => (pciVar p.1, p.2)) ++
    (if b.node.pciMembers b.unicode = [] ∧ b.mac ≠ [] then [(str "target_mac", toLower b.unicode b.mac)] else [])

theorem setupProgram_eq :
    setupProgram b.unicode b.node b.mac = b.assignments.map fun a => runLine [str "set", a.1, a.2] := by
  unfold setupProgram assignments vlanProgram pciProgram targetProgram
  rw [List.map_append, List.map_append, List.map_map]
  refine congrArg₂ (· ++ ·) (congrArg₂ (· ++ ·) ?_ rfl) ?_
  · split <;> rfl
  · split <;> rfl

theorem mem_assignments_iff {a : Bytes × Bytes} : a ∈ b.assignments ↔
    (b.node.vlan ≠ [] ∧ a = (str "vlan", b.node.vlan)) ∨
    (∃ p ∈ b.node.pciMembers b.unicode, a = (pciVar p.1, p.2)) ∨
    ((b.node.pciMembers b.unicode = [] ∧ b.mac ≠ []) ∧ a = (str "target_mac", toLower b.unicode b.mac)) := by
  have hite : ∀ (c : Prop) [Decidable c] (x : Bytes × Bytes), (a ∈ if c then [x] else []) ↔ c ∧ a = x := by
    intro c _ x
    split <;> simp [*]
  rw [assignments, List.mem_append, List.mem_append, hite, hite, List.mem_map, or_assoc]
  simp only [eq_comm]

/-- A name of a variable is not split, and is no setting of an interface. -/
theorem pciVar_not_mem (i : Nat) {c : UInt8} (hc : isLowerHex c = false) (hc' : c ∉ str "pci") : c ∉ pciVar i := by
  intro h
  rcases List.mem_append.mp h with h | h
  · exact hc' h
  · rw [isLowerHex_of_mem_formatNat (by decide) (by decide) h] at hc
    exact absurd hc (by decide)

theorem assignments_words : ∀ a ∈ b.assignments, (36 ∉ a.1 ∧ 47 ∉ a.1 ∧ 58 ∉ a.1) ∧ 36 ∉ a.2 ∧ a.2 ≠ [] := by
  intro a ha
  rcases mem_assignments_iff.mp ha with ⟨hv, rfl⟩ | ⟨p, hp, rfl⟩ | ⟨⟨-, hm⟩, rfl⟩
  · exact ⟨by dsimp only; decide, b.node_plain.vlan.dollar_not_mem, hv⟩
  · obtain ⟨hplain, hne⟩ := plain_of_mem_pciMembers b.node_plain hp
    exact ⟨⟨pciVar_not_mem p.1 (by decide) (by decide), pciVar_not_mem p.1 (by decide) (by decide),
      pciVar_not_mem p.1 (by decide) (by decide)⟩, hplain.dollar_not_mem, hne⟩
  · exact ⟨by dsimp only; decide, b.mac_plain.toLower.dollar_not_mem, toLower_ne_nil hm⟩

theorem pciVar_injective {i j : Nat} (h : pciVar i = pciVar j) : i = j :=
  decimal_injective (List.append_cancel_left h)

theorem pciVar_ne {i : Nat} {x : Bytes} (hx : x.head? ≠ some 112) : pciVar i ≠ x := by
  intro h
  rw [← h, pciVar, List.head?_append_of_ne_nil _ (by decide)] at hx
  exact hx (by decide)

theorem nodup_pciMembers (u : Unicode) (n : Node) : ((n.pciMembers u).map (·.1)).Nodup := by
  have hsub : ((n.pciMembers u).map (·.1)).Sublist (n.bondMembers.zipIdx.map (·.2)) := by
    rw [Node.pciMembers, List.map_map]
    exact List.filter_sublist.map _
  refine hsub.nodup ?_
  rw [List.zipIdx_map_snd]
  exact List.nodup_range'

theorem nodup_assignments : (b.assignments.map (·.1)).Nodup := by
  have hpci : (((b.node.pciMembers b.unicode).map fun p => (pciVar p.1, p.2)).map (·.1)).Nodup := by
    rw [List.map_map]
    have := (nodup_pciMembers b.unicode b.node).map (fun i j h => pciVar_injective h : Function.Injective pciVar)
    rwa [List.map_map] at this
  have hite : ∀ (c : Prop) [Decidable c] (x : Bytes × Bytes) y, y ∈ (if c then [x] else []).map (·.1) → y = x.1 := by
    intro c _ x y hy
    split at hy
    · simpa using hy
    · simp at hy
  have hnodup : ∀ (c : Prop) [Decidable c] (x : Bytes × Bytes), ((if c then [x] else []).map (·.1)).Nodup := by
    intro c _ x
    split <;> simp
  have hvar : ∀ y ∈ ((b.node.pciMembers b.unicode).map fun p => (pciVar p.1, p.2)).map (·.1), ∃ i, y = pciVar i := by
    intro y hy
    simp only [List.map_map, List.mem_map] at hy
    obtain ⟨p, -, rfl⟩ := hy
    exact ⟨p.1, rfl⟩
  rw [assignments, List.map_append, List.map_append, List.nodup_append', List.nodup_append']
  refine ⟨⟨hnodup _ _, hpci, ?_⟩, hnodup _ _, ?_⟩
  · intro y hy hy'
    obtain ⟨i, rfl⟩ := hvar y hy'
    exact pciVar_ne (by dsimp only; decide) (hite _ _ _ hy)
  · intro y hy hy'
    obtain rfl := hite _ _ _ hy'
    rcases List.mem_append.mp hy with hy | hy
    · exact absurd (hite _ _ _ hy) (by dsimp only; decide)
    · obtain ⟨i, hi⟩ := hvar _ hy
      exact pciVar_ne (by dsimp only; decide) hi.symm

/-- The variables at the first pass. -/
theorem knows_assignAll : b.Knows (assignAll (fun _ => none) b.assignments) := by
  have hset : ∀ a ∈ b.assignments, assignAll (fun _ => none) b.assignments a.1 = some (.text a.2) :=
    fun a ha => assignAll_of_mem nodup_assignments ha
  have hunset : ∀ {i : Nat} {t : Bytes}, (47 : UInt8) ∈ t →
      assignAll (fun _ => none) b.assignments (net i ++ t) = none := by
    intro i t ht
    refine assignAll_of_not_mem fun hmem => ?_
    obtain ⟨a, ha, heq⟩ := List.mem_map.mp hmem
    exact (assignments_words a ha).1.2.1 (heq ▸ List.mem_append_right _ ht)
  exact {
    vlan := fun hv => hset _ (mem_assignments_iff.mpr (.inl ⟨hv, rfl⟩))
    pci := fun p hp => hset _ (mem_assignments_iff.mpr (.inr (.inl ⟨p, hp, rfl⟩)))
    target := fun hp hm => hset _ (mem_assignments_iff.mpr (.inr (.inr ⟨⟨hp, hm⟩, rfl⟩)))
    mac := fun _ => hunset (by decide)
    busdevfn := fun _ => hunset (by decide) }

theorem exists_setup : ∃ k, b.At b.passRest [] (b.next^[k] (start b.program)) := by
  have hcomment : ∀ {s : State} {rest}, s.halted = none → s.rest = runLine [] :: rest → b.next s = s.move rest := by
    intro s rest hh hr
    rw [next, step_run hh hr (runCommand_nil _) (by simp)]
  have h1 : b.next (start b.program) =
      (start b.program).move (runLine [] :: (setupProgram b.unicode b.node b.mac ++ b.passRest)) :=
        hcomment rfl b.program_eq
  have h2 : b.next ((start b.program).move (runLine [] :: (setupProgram b.unicode b.node b.mac ++ b.passRest))) =
      (start b.program).move (setupProgram b.unicode b.node b.mac ++ b.passRest) := hcomment rfl rfl
  have hset : b.next^[b.assignments.length]
    ((start b.program).move (setupProgram b.unicode b.node b.mac ++ b.passRest)) =
      { start b.program with rest := b.passRest, vars := assignAll (fun _ => none) b.assignments } := by
    rw [setupProgram_eq]
    exact iterate_step_set assignments_words rfl rfl
  refine ⟨b.assignments.length + 1 + 1, ?_⟩
  rw [Function.iterate_succ_apply, Function.iterate_succ_apply, h1, h2, hset]
  exact { halted := rfl, knows := knows_assignAll, faults := by simp [start], rest_eq := rfl, trace_eq := rfl }

/-! ### Runs -/

/-- Interface `i` is an uplink, and the chain on it in pass `p` succeeds. -/
def ChainsIn (b : Boot) (p i : Nat) (nic : Nic) : Prop :=
  ChainSucceeds b.unicode b.node b.mac b.proxyBase b.nics b.succeeds p i nic

theorem passes_succ (p : Nat) : passes b.unicode b.node b.mac b.proxyBase b.nics (p + 1) =
    passes b.unicode b.node b.mac b.proxyBase b.nics p ++
      (visits b.unicode b.node b.mac b.proxyBase b.nics b.nics.list.length ++ retry) := by
  rw [passes, List.replicate_succ', List.flatten_append, List.flatten_singleton, passes]

/-- Pass `p` begins, if no chain succeeds before. -/
theorem exists_pass {p : Nat} (hfail : ∀ q i nic, q < p → ¬ b.ChainsIn q i nic) :
    ∃ k, p ≤ k ∧ b.At b.passRest (passes b.unicode b.node b.mac b.proxyBase b.nics p)
    (b.next^[k] (start b.program)) := by
  induction p with
  | zero =>
    obtain ⟨k, hk⟩ := b.exists_setup
    exact ⟨k, Nat.zero_le _, hk⟩
  | succ p ih =>
    obtain ⟨k, hle, hk⟩ := ih fun q i nic hq => hfail q i nic (by omega)
    obtain ⟨k', hk'⟩ := pass_of_failures (fun i nic => hfail p i nic (Nat.lt_succ_self p)) hk
    refine ⟨k' + 1 + k, by omega, ?_⟩
    rw [Function.iterate_add_apply, passes_succ]
    exact hk'

/-- The first chain that succeeds ends the script. -/
theorem exists_done {p i : Nat} {nic : Nic} (h : b.ChainsIn p i nic)
    (hfirst : ∀ q j nic, q < p ∨ q = p ∧ j < i → ¬ b.ChainsIn q j nic) :
    ∃ k, b.Done (beforeChain b.unicode b.node b.mac b.proxyBase b.nics p i nic ++ [chainTo b.proxyBase nic])
      (b.next^[k] (start b.program)) := by
  obtain ⟨k, -, hk⟩ := exists_pass fun q j nic hq => hfirst q j nic (.inl hq)
  obtain ⟨k', hk'⟩ := pass_of_success h (fun j nic hj => hfirst p j nic (.inr ⟨rfl, hj⟩)) hk
  exact ⟨k' + k, by rwa [Function.iterate_add_apply]⟩

theorem iterate_done {s : State} (h : s.halted = some true) (m : Nat) : b.next^[m] s = s := by
  induction m with
  | zero => rfl
  | succ m ih => rw [Function.iterate_succ_apply', ih, next, step_of_halted h]

/-- If some chain succeeds, there is a first one. -/
theorem exists_first {p i : Nat} {nic : Nic} (h : b.ChainsIn p i nic) :
    ∃ p i nic, b.ChainsIn p i nic ∧ ∀ q j nic, q < p ∨ q = p ∧ j < i → ¬ b.ChainsIn q j nic := by
  classical
  have hpass : ∃ p i nic, b.ChainsIn p i nic := ⟨p, i, nic, h⟩
  have hnic := Nat.find_spec hpass
  obtain ⟨nic, hfound⟩ := Nat.find_spec hnic
  refine ⟨_, _, nic, hfound, ?_⟩
  rintro q j nic' (hq | ⟨rfl, hj⟩) hc
  · exact Nat.find_min hpass hq ⟨j, nic', hc⟩
  · exact Nat.find_min hnic hj ⟨nic', hc⟩

/-- The only setting without a value that the script asks for is the address after the last interface. -/
theorem faults_run (k : Nat) :
    ∀ f ∈ (b.next^[k] (start b.program)).faults, f = .unset (net b.nics.list.length ++ str "/mac") := by
  by_cases hex : ∃ p i nic, b.ChainsIn p i nic
  · obtain ⟨p, i, nic, h⟩ := hex
    obtain ⟨p, i, nic, hfound, hfirst⟩ := exists_first h
    obtain ⟨m, hm⟩ := exists_done hfound hfirst
    rcases Nat.le_total k m with hle | hle
    · obtain ⟨d, rfl⟩ := Nat.exists_eq_add_of_le hle
      exact fun f hf => hm.faults f ((iterate_grows _ k d).faults.subset hf)
    · obtain ⟨d, rfl⟩ := Nat.exists_eq_add_of_le hle
      rw [Nat.add_comm, Function.iterate_add_apply, iterate_done hm.halted]
      exact hm.faults
  · obtain ⟨m, hle, hm⟩ := exists_pass fun q i nic (_ : q < k) hc => hex ⟨q, i, nic, hc⟩
    obtain ⟨d, rfl⟩ := Nat.exists_eq_add_of_le hle
    exact fun f hf => hm.faults f ((iterate_grows _ k d).faults.subset hf)

end Boot

/-- iPXE runs the text of a node's script as follows.  It jumps to labels that occur once, and the only setting
without a value that it asks for is the address of the interface after the last one.  As long as no chain succeeds
it makes complete passes, each from the first interface on; in a pass it checks every interface in order, and only
on uplinks it sets the interface up, chains once and takes the interface down again.  The first chain that succeeds
ends the script. -/
theorem renderNodeIPXEScript_uplinks (u : Unicode) {n : Node} {mac proxyBase : Bytes} (hn : n.Plain) (hm : Plain mac)
    (hb : Plain proxyBase) (nics : Nics) (accepts : Bytes → Bytes → Bool)
    (haccepts : ∀ i, ∀ a ∈ addresses n, accepts (iface n i ++ a.1) a.2 = true)
    (succeeds : List (List Bytes) → List Bytes → Bool) :
    let run := Ipxe.run (bootEnv nics accepts succeeds) (renderNodeIPXEScript u n mac proxyBase)
    let chains := ChainSucceeds u n mac proxyBase nics succeeds
    (∀ k, ∀ f ∈ (run k).faults, f = .unset (net nics.list.length ++ str "/mac")) ∧
      (∀ p, (∀ q i nic, q < p → ¬ chains q i nic) → ∃ k, (run k).halted = none ∧
        (run k).rest = passProgram u n mac (trimRight proxyBase 47) ∧
          (run k).trace = passes u n mac proxyBase nics p) ∧
      ∀ p i nic, chains p i nic → (∀ q j nic', q < p ∨ q = p ∧ j < i → ¬ chains q j nic') → ∃ k,
        (run k).halted = some true ∧
          (run k).trace = beforeChain u n mac proxyBase nics p i nic ++ [chainTo proxyBase nic] := by
  intro run chains
  have hparse := parseScript_renderNodeIPXEScript u hn hm hb
  -- the run is that of the program
  let b : Boot := ⟨u, n, mac, proxyBase, nics, accepts, succeeds, hn, hm, hb, haccepts⟩
  have hrun : ∀ k, run k = b.next^[k] (start b.program) := by
    intro k
    change Ipxe.run _ _ k = _
    rw [Ipxe.run, hparse]
    rfl
  simp only [hrun]
  refine ⟨b.faults_run, fun p hfail => ?_, fun p i nic h hfirst => ?_⟩
  · obtain ⟨k, -, hk⟩ := Boot.exists_pass (b := b) hfail
    exact ⟨k, hk.halted, hk.rest_eq, hk.trace_eq⟩
  · obtain ⟨k, hk⟩ := Boot.exists_done (b := b) h hfirst
    exact ⟨k, hk.halted, hk.trace_eq⟩

/-- Two interfaces, of which the second is at the PCI address of a bond member. -/
def sampleNics : Nics where
  list := [⟨str "52:54:00:00:00:01", str "0000:01:00.0", by decide, by decide⟩,
    ⟨str "52:54:00:00:00:02", str "0000:3b:00.0", by decide, by decide⟩]
  length_lt := by decide

def sampleVlanNode : Node :=
  { hostname := str "node1", ip := str "10.0.0.5", vlan := str "42", bondMembers := [str "eno1", str "3B:00.0"] }

theorem plain_of_all {s : Bytes} (h : s.all (fun c => 32 < c && c ≠ 92 && c ≠ 36 && c ≠ 35) = true)
    (hlink : s ≠ str "||" ∧ s ≠ str "&&" ∧ s ≠ str ";") : Plain s :=
  ⟨fun c hc => by simpa [and_assoc] using List.all_eq_true.mp h c hc, hlink⟩

theorem plain_sampleVlanNode : sampleVlanNode.Plain where
  hostname := plain_of_all (by decide) (by decide)
  vlan := plain_of_all (by decide) (by decide)
  ip := plain_of_all (by decide) (by decide)
  netmask := plain_of_all (by decide) (by decide)
  gw := plain_of_all (by decide) (by decide)
  dns := plain_of_all (by decide) (by decide)
  bondMembers := List.forall_mem_cons.mpr ⟨plain_of_all (by decide) (by decide),
    List.forall_mem_singleton.mpr (plain_of_all (by decide) (by decide))⟩

theorem renderNodeIPXEScript_uplinks_sample :
    ∃ k, (Ipxe.run (bootEnv sampleNics (fun _ _ => true) fun _ argv => argv.head? = some (str "chain"))
        (renderNodeIPXEScript .asciiOnly sampleVlanNode (str "52:54:00:00:00:01")
          (str "http://proxy/boot/")) k).trace =
      [[str "echo", str "Checking", str "net0", str "(52:54:00:00:00:01", str "0000:01:00.0)..."],
        [str "echo", str "Checking", str "net1", str "(52:54:00:00:00:02", str "0000:3b:00.0)..."],
        [str "echo", str "Configuring", str "net1", str "(52:54:00:00:00:02)..."],
        [str "ifclose", str "net1"], [str "ifopen", str "net1"], [str "vcreate", str "--tag", str "42", str "net1"],
        [str "set", str "net1-42/ip", str "10.0.0.5"], [str "ifopen", str "net1-42"],
        [str "chain", str "--autofree", str "http://proxy/boot/ipxe.cfg-52:54:00:00:00:02"]] := by
  obtain ⟨-, -, h⟩ := renderNodeIPXEScript_uplinks .asciiOnly plain_sampleVlanNode
    (plain_of_all (by decide) (by decide) : Plain (str "52:54:00:00:00:01"))
    (plain_of_all (by decide) (by decide) : Plain (str "http://proxy/boot/")) sampleNics (fun _ _ => true)
    (fun _ _ _ => rfl) fun _ argv => argv.head? = some (str "chain")
  have hfirst : ∀ q j nic, q < 0 ∨ q = 0 ∧ j < 1 → ¬ ChainSucceeds .asciiOnly sampleVlanNode (str "52:54:00:00:00:01")
      (str "http://proxy/boot/") sampleNics (fun _ argv => argv.head? = some (str "chain")) q j nic := by
    rintro q j nic (hq | ⟨rfl, hj⟩) ⟨hnic, hup, -⟩
    · omega
    · obtain rfl : j = 0 := by omega
      obtain rfl := Option.some.inj hnic
      exact absurd hup (by decide)
  obtain ⟨k, -, hk⟩ := h 0 1 ⟨str "52:54:00:00:00:02", str "0000:3b:00.0", by decide, by decide⟩
    ⟨rfl, by decide, by decide⟩ hfirst
  exact ⟨k, hk.trans (by decide)⟩

/-- What the script does with other texts: a newline in the address that is looked for starts a line of its own, a
hash starts a comment, a backslash continues the line, and an address that iPXE does not take ends the script. -/
theorem renderNodeIPXEScript_not_plain :
    let run := fun accepts n mac => Ipxe.run (bootEnv sampleNics (fun _ _ => accepts) fun _ _ => false)
      (renderNodeIPXEScript .asciiOnly n mac (str "http://proxy/boot/"))
    (run true {} (str "\ngoto nowhere\n") 3).faults = [.label (str "nowhere")] ∧
      (run true { vlan := str "#5" } [] 12).faults = [.unset (str "vlan")] ∧
      (run true { vlan := str "5\\" } [] 40).faults = [.unset (str "net2/mac"), .label (str "top")] ∧
      (run false { ip := str "host" } [] 12).halted = some false := by
  decide +kernel

end MaasBoot
