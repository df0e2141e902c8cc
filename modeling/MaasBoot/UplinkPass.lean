import MaasBoot.UplinkRun

/-!
# Passes of a node's script

Every part of the program is followed from its first line to the first line of the next part.  Put together they give
what the script does for one interface, in a pass, and in a run.
-/

namespace MaasBoot

open Ipxe

namespace Boot

variable {b : Boot} {i : Nat} {rest : List Line} {tr : List (List Bytes)}

/-! ### Single lines -/

theorem AtNic.move {s : State} (h : b.AtNic i rest tr s) (rest' : List Line) : b.AtNic i rest' tr (s.move rest') :=
  { h with rest_eq := rfl }

theorem AtNic.record {s : State} (h : b.AtNic i rest tr s) (argv : List Bytes) :
    b.AtNic i rest (tr ++ [argv]) (s.record argv) :=
  { h with trace_eq := congrArg (· ++ [argv]) h.trace_eq }

/-- A line of the loop gives one command to iPXE and goes on with the next line. -/
def Does (b : Boot) (i : Nat) (ln : Line) (argv : List Bytes) : Prop :=
  ∀ rest tr s, b.AtNic i (ln :: rest) tr s → b.AtNic i rest (tr ++ [argv]) (b.next s)

theorem does_say {cmd argv : List Bytes} (hr : List.Forall₂ (b.Reads i) cmd argv) (hsay : readInstr argv = .say) :
    b.Does i (runLine cmd) argv := by
  intro rest tr s hs
  have hc : runCommand b.env b.program (s.move rest) cmd = ((s.move rest).record argv, .ok) := by
    rw [runCommand_of_expandWords (resolveWords_of_reads hr (hs.move rest)), exec, hsay]
  rw [next, step_run hs.halted hs.rest_eq hc (by simp)]
  exact (hs.move rest).record argv

/-- Whether the command succeeds does not matter. -/
theorem does_try {cmd argv : List Bytes} (hr : List.Forall₂ (b.Reads i) cmd argv) (hother : readInstr argv = .other) :
    b.Does i (tryLine cmd) argv := by
  intro rest tr s hs
  have hc : runCommand b.env b.program (s.move rest) cmd =
      ((s.move rest).record argv, .ofBool (b.env.succeeds s.trace argv)) := by
    rw [runCommand_of_expandWords (resolveWords_of_reads hr (hs.move rest)), exec, hother]
    rfl
  rw [next, step_try hs.halted hs.rest_eq hc]
  exact (hs.move rest).record argv

/-- Setting an address of the interface. -/
theorem does_set {a : Bytes × Bytes} (ha : a ∈ addresses b.node) :
    b.Does i (runLine [str "set", effIface b.node ++ a.1, a.2]) [str "set", iface b.node i ++ a.1, a.2] := by
  have hmem := (List.mem_filter.mp ha).1
  simp only [List.mem_cons, List.not_mem_nil, or_false] at hmem
  have hname : (47 : UInt8) ∈ a.1 ∧ 36 ∉ a.1 ∧ a.1.getLast? ≠ some 99 ∧ a.1.getLast? ≠ some 110 := by
    rcases hmem with rfl | rfl | rfl | rfl <;> dsimp only <;> decide
  have hvalue : 36 ∉ a.2 := by
    rcases hmem with rfl | rfl | rfl | rfl
    · exact b.node_plain.ip.dollar_not_mem
    · exact b.node_plain.netmask.dollar_not_mem
    · exact b.node_plain.gw.dollar_not_mem
    · exact b.node_plain.dns.dollar_not_mem
  have hslash : (47 : UInt8) ∈ iface b.node i ++ a.1 := List.mem_append_right _ hname.1
  intro rest tr s hs
  have hr : List.Forall₂ (b.Reads i) [str "set", effIface b.node ++ a.1, a.2]
      [str "set", iface b.node i ++ a.1, a.2] :=
    .cons (reads_self (by decide)) (.cons (reads_effIface hname.2.1) (.cons (reads_self hvalue) .nil))
  have hc : runCommand b.env b.program (s.move rest) [str "set", effIface b.node ++ a.1, a.2] =
      (((s.move rest).record [str "set", iface b.node i ++ a.1, a.2]).setVar (iface b.node i ++ a.1)
        (some (.text a.2)), .ok) := by
    rw [runCommand_of_expandWords (resolveWords_of_reads hr (hs.move rest)), exec, readInstr_set]
    dsimp only
    rw [State.assign, if_pos hslash, if_pos]
    · simp [join]
    · simpa [join, env, bootEnv] using b.accepted i a ha
  rw [next, step_run hs.halted hs.rest_eq hc (by simp)]
  have hrec := (hs.move rest).record [str "set", iface b.node i ++ a.1, a.2]
  have hnic : str "nic" ≠ iface b.node i ++ a.1 := fun h => absurd (h ▸ hslash) (by decide)
  exact { hrec with
    knows := hrec.knows.setVar (foreign_setting hname.1 hname.2.2.1 hname.2.2.2) _
    nic := (if_neg hnic).trans hrec.nic }

/-- Lines that each give a command to iPXE. -/
theorem leads_does {lns : List Line} {argvs : List (List Bytes)} (h : List.Forall₂ (b.Does i) lns argvs) :
    ∀ tr, Leads b.next (b.AtNic i (lns ++ rest) tr) (b.AtNic i rest (tr ++ argvs)) := by
  induction h with
  | nil =>
    intro tr
    rw [List.append_nil]
    exact .of_imp fun _ hs => hs
  | @cons ln argv lns argvs hdoes _ ih =>
    intro tr
    have hrest : Leads b.next (b.AtNic i (lns ++ rest) (tr ++ [argv])) (b.AtNic i rest (tr ++ argv :: argvs)) := by
      have := ih (tr ++ [argv])
      rwa [List.append_assoc, List.singleton_append] at this
    exact Leads.trans (.of_step fun s hs => hdoes _ tr s hs) hrest

/-- A comparison of two words, with a jump if they are equal. -/
theorem next_iseq (hcmp : b.Compares) {v w x y : Bytes} (hv : b.Reads i v x) (hw : b.Reads i w y) {s : State}
    (hs : b.AtNic i (andTryLine [str "iseq", v, w] [str "goto", str "hit"] :: rest) tr s) :
    (x = y → b.AtNic i (labelLine (str "hit") :: b.attemptRest) tr (b.next s)) ∧
      (x ≠ y → b.AtNic i rest tr (b.next s)) := by
  have hr : List.Forall₂ (b.Reads i) [str "iseq", v, w] [str "iseq", x, y] :=
    .cons (reads_self (by decide)) (.cons hv (.cons hw .nil))
  have hc : runCommand b.env b.program (s.move rest) [str "iseq", v, w] = (s.move rest, .ofBool (x = y)) := by
    rw [runCommand_of_expandWords (resolveWords_of_reads hr (hs.move rest)), exec, readInstr_iseq]
  constructor
  · intro heq
    rw [decide_eq_true heq] at hc
    rw [next, step_andTry_ok hs.halted hs.rest_eq hc ((runCommand_goto (by decide)).trans (b.jump_hit hcmp _))]
    exact (hs.move rest).move _
  · intro hne
    rw [decide_eq_false hne] at hc
    rw [next, step_andTry_failed hs.halted hs.rest_eq hc]
    exact hs.move rest

/-- A line that jumps. -/
theorem next_goto {l : Bytes} (hl : 36 ∉ l) {rest' : List Line}
    (hjump : ∀ s : State, s.jump b.program l = (s.move rest', .left))
    {s : State} (hh : s.halted = none) (hr : s.rest = runLine [str "goto", l] :: rest) : b.next s = s.move rest' := by
  rw [next, step_run hh hr ((runCommand_goto hl).trans (hjump _)) (by simp)]
  rfl

theorem leads_label {l : Bytes} : Leads b.next (b.AtNic i (labelLine l :: rest) tr) (b.AtNic i rest tr) := by
  refine .of_step fun s hs => ?_
  rw [next, step_label hs.halted hs.rest_eq]
  exact hs.move rest

/-! ### Interfaces -/

theorem exists_mem_pciMembers (u : Unicode) {n : Node} {m : Bytes} (hm : m ∈ n.bondMembers)
    (hpci : isPCIAddr m = true) :
    ∃ k, (k, formatIPXEPCI u m) ∈ n.pciMembers u := by
  obtain ⟨k, hk, rfl⟩ := List.getElem_of_mem hm
  refine ⟨k, List.mem_map.mpr ⟨(n.bondMembers[k], k), List.mem_filter.mpr ⟨?_, hpci⟩, rfl⟩⟩
  exact List.mk_mem_zipIdx_iff_getElem?.mpr (List.getElem?_eq_getElem hk)

theorem uplink_iff_of_pci (hp : b.node.pciMembers b.unicode ≠ []) (nic : Nic) :
    Uplink b.unicode b.node b.mac nic ↔ ∃ p ∈ b.node.pciMembers b.unicode, nic.busdevfn = p.2 := by
  obtain ⟨p₀, hp₀⟩ := List.exists_mem_of_ne_nil _ hp
  obtain ⟨m₀, hm₀, -⟩ := List.mem_map.mp hp₀
  obtain ⟨hmem₀, hpci₀⟩ := List.mem_filter.mp hm₀
  constructor
  · rintro (⟨m, hm, hpci, heq⟩ | ⟨hnone, -⟩)
    · obtain ⟨k, hk⟩ := exists_mem_pciMembers b.unicode hm hpci
      exact ⟨_, hk, heq⟩
    · exact absurd (hnone m₀.1 (List.fst_mem_of_mem_zipIdx hmem₀)) (by simp [hpci₀])
  · rintro ⟨p, hp, heq⟩
    obtain ⟨m, hm, rfl⟩ := List.mem_map.mp hp
    obtain ⟨hmem, hpci⟩ := List.mem_filter.mp hm
    exact .inl ⟨m.1, List.fst_mem_of_mem_zipIdx hmem, hpci, heq⟩

theorem uplink_iff_of_mac (hp : b.node.pciMembers b.unicode = []) (nic : Nic) :
    Uplink b.unicode b.node b.mac nic ↔ b.mac = [] ∨ toLower b.unicode b.mac = nic.mac := by
  have hnone : ∀ m ∈ b.node.bondMembers, isPCIAddr m = false := by
    intro m hm
    by_contra hpci
    obtain ⟨k, hk⟩ := exists_mem_pciMembers b.unicode hm (Bool.not_eq_false _ ▸ hpci)
    rw [hp] at hk
    exact absurd hk List.not_mem_nil
  constructor
  · rintro (⟨m, hm, hpci, -⟩ | ⟨-, h⟩)
    · rw [hnone m hm] at hpci
      exact absurd hpci Bool.false_ne_true
    · exact h
  · exact fun h => .inr ⟨hnone, h⟩

/-- The comparisons with the PCI members from some point on. -/
theorem leads_pciMatch (hcmp : b.Compares) {nic : Nic} (hnic : b.nics.list[i]? = some nic) {ps : List (Nat × Bytes)}
    (hps : ∀ p ∈ ps, p ∈ b.node.pciMembers b.unicode) :
    ((∃ p ∈ ps, nic.busdevfn = p.2) → Leads b.next
      (b.AtNic i (ps.map (fun p => andTryLine [str "iseq", nicBusdevfn, ref (pciVar p.1)] [str "goto", str "hit"]) ++
        rest) tr)
      (b.AtNic i (labelLine (str "hit") :: b.attemptRest) tr)) ∧
    ((∀ p ∈ ps, nic.busdevfn ≠ p.2) → Leads b.next
      (b.AtNic i (ps.map (fun p => andTryLine [str "iseq", nicBusdevfn, ref (pciVar p.1)] [str "goto", str "hit"]) ++
        rest) tr)
      (b.AtNic i rest tr)) := by
  have hbus : b.Reads i nicBusdevfn nic.busdevfn := by
    have := reads_busdevfn hnic (t := []) (by decide)
    rwa [List.append_nil, List.append_nil] at this
  induction ps with
  | nil => exact ⟨fun h => by simp at h, fun _ => .of_imp fun _ hs => hs⟩
  | cons p ps ih =>
    rw [List.forall_mem_cons] at hps
    obtain ⟨ihhit, ihmiss⟩ := ih hps.2
    constructor
    · intro hex
      by_cases heq : nic.busdevfn = p.2
      · exact .of_step fun s hs => (next_iseq hcmp hbus (reads_pciVar hps.1) hs).1 heq
      · refine Leads.trans (.of_step fun s hs => (next_iseq hcmp hbus (reads_pciVar hps.1) hs).2 heq) (ihhit ?_)
        obtain ⟨q, hq, hqeq⟩ := hex
        rcases List.mem_cons.mp hq with rfl | hq
        · exact absurd hqeq heq
        · exact ⟨q, hq, hqeq⟩
    · intro hall
      rw [List.forall_mem_cons] at hall
      exact Leads.trans (.of_step fun s hs => (next_iseq hcmp hbus (reads_pciVar hps.1) hs).2 hall.1) (ihmiss hall.2)

/-- The script goes on to set an interface up exactly if it is an uplink. -/
theorem leads_match {nic : Nic} (hnic : b.nics.list[i]? = some nic) :
    (Uplink b.unicode b.node b.mac nic → Leads b.next (b.AtNic i b.matchRest tr) (b.AtNic i b.attemptRest tr)) ∧
      (¬ Uplink b.unicode b.node b.mac nic → Leads b.next (b.AtNic i b.matchRest tr) (b.AtNic i b.nextRest tr)) := by
  have hgoto : b.Compares → ∀ rest, Leads b.next (b.AtNic i (runLine [str "goto", str "next"] :: rest) tr)
      (b.AtNic i b.nextRest tr) := by
    intro hcmp rest
    refine .of_step fun s hs => ?_
    rw [next_goto (by decide) (b.jump_next hcmp) hs.halted hs.rest_eq]
    exact hs.move _
  unfold matchRest matchProgram
  -- PCI members come before the MAC, and without either there is nothing to compare
  by_cases hp : b.node.pciMembers b.unicode = []
  · rw [if_neg (not_not_intro hp), uplink_iff_of_mac hp]
    by_cases hm : b.mac = []
    · rw [if_neg (not_not_intro hm), List.nil_append]
      exact ⟨fun _ => .of_imp fun _ hs => hs, fun h => absurd (.inl hm) h⟩
    · rw [if_pos hm]
      have hstep : ∀ s,
          b.AtNic i (_ :: (runLine [str "goto", str "next"] :: labelLine (str "hit") :: b.attemptRest)) tr s → _ :=
        fun s hs => next_iseq (.inr hm) (reads_nicMac hnic) (reads_target hp hm) hs
      constructor
      · intro hup
        have heq := (hup.resolve_left hm).symm
        exact Leads.trans (.of_step fun s hs => (hstep s hs).1 heq) leads_label
      · intro hup
        rw [not_or] at hup
        exact Leads.trans (.of_step fun s hs => (hstep s hs).2 (Ne.symm hup.2)) (hgoto (.inr hm) _)
  · rw [if_pos hp, uplink_iff_of_pci hp, List.append_assoc]
    obtain ⟨hhit, hmiss⟩ := leads_pciMatch (.inl hp) hnic fun p hp => hp
    constructor
    · exact fun hup => Leads.trans (hhit hup) leads_label
    · intro hup
      refine Leads.trans (hmiss fun p hp heq => hup ⟨p, hp, heq⟩) (hgoto (.inl hp) _)

/-- Setting an uplink up. -/
theorem leads_configure {nic : Nic} (hnic : b.nics.list[i]? = some nic) :
    Leads b.next (b.AtNic i b.attemptRest tr) (b.AtNic i b.chainRest (tr ++ configure b.node i nic)) := by
  refine leads_does ?_ tr
  have hopen : b.Does i (tryLine [str "ifopen", effIface b.node]) [str "ifopen", iface b.node i] := by
    have := reads_effIface (b := b) (i := i) (t := []) (by decide)
    rw [List.append_nil, List.append_nil] at this
    exact does_try (.cons (reads_self (by decide)) (.cons this .nil)) (readInstr_other _ (by decide))
  have hmac : b.Reads i (str "(" ++ nicMac ++ str ")...") (str "(" ++ nic.mac ++ str ")...") :=
    reads_mac hnic (by decide) (by decide)
  refine List.rel_append (List.rel_append (List.rel_append ?_ ?_) ?_) (.cons hopen .nil)
  · refine .cons (does_say ?_ (readInstr_echo _)) (.cons (does_try ?_ (readInstr_other _ (by decide)))
      (.cons (does_try ?_ (readInstr_other _ (by decide))) .nil))
    · exact .cons (reads_self (by decide)) (.cons (reads_self (by decide)) (.cons reads_netNic (.cons hmac .nil)))
    · exact .cons (reads_self (by decide)) (.cons reads_netNic .nil)
    · exact .cons (reads_self (by decide)) (.cons reads_netNic .nil)
  · split
    · rename_i hv
      refine .cons (does_try ?_ (readInstr_other _ (by decide))) .nil
      exact .cons (reads_self (by decide))
        (.cons (reads_self (by decide)) (.cons (reads_vlan hv) (.cons reads_netNic .nil)))
    · exact .nil
  · rw [List.forall₂_map_left_iff, List.forall₂_map_right_iff, List.forall₂_same]
    exact fun a ha => does_set ha

/-- Taking an uplink down. -/
theorem leads_takeDown : Leads b.next (b.AtNic i b.downRest tr) (b.AtNic i b.nextRest (tr ++ takeDown b.node i)) := by
  refine leads_does (List.rel_append ?_ ?_) tr
  · have hread := reads_effIface (b := b) (i := i) (t := []) (by decide)
    rw [List.append_nil, List.append_nil] at hread
    split
    · refine .cons (does_try ?_ (readInstr_other _ (by decide)))
        (.cons (does_try ?_ (readInstr_other _ (by decide))) .nil)
      · exact .cons (reads_self (by decide)) (.cons hread .nil)
      · exact .cons (reads_self (by decide)) (.cons hread .nil)
    · exact .nil
  · refine .cons (does_try ?_ (readInstr_other _ (by decide))) .nil
    exact .cons (reads_self (by decide)) (.cons reads_netNic .nil)

/-! ### The ends of an interface and of a pass -/

/-- The script has ended with success. -/
structure Done (b : Boot) (tr : List (List Bytes)) (s : State) : Prop where
  halted : s.halted = some true
  faults : ∀ f ∈ s.faults, f = .unset (net b.nics.list.length ++ str "/mac")
  trace_eq : s.trace = tr

/-- The chain on an uplink, and the end of the script if it succeeds. -/
theorem leads_chain {nic : Nic} (hnic : b.nics.list[i]? = some nic) :
    (b.succeeds tr (chainTo b.proxyBase nic) = false → Leads b.next (b.AtNic i b.chainRest tr)
      (b.AtNic i b.downRest (tr ++ [chainTo b.proxyBase nic]))) ∧
    (b.succeeds tr (chainTo b.proxyBase nic) = true → Leads b.next (b.AtNic i b.chainRest tr)
      (b.Done (tr ++ [chainTo b.proxyBase nic]))) := by
  have hbase : 36 ∉ trimRight b.proxyBase 47 ++ str "/ipxe.cfg-" := by
    rw [List.mem_append, not_or]
    exact ⟨fun h => (plain_trimRight b.proxyBase_plain h).2.2.1 rfl, by decide⟩
  have hurl : b.Reads i (trimRight b.proxyBase 47 ++ str "/ipxe.cfg-" ++ nicMac)
      (trimRight b.proxyBase 47 ++ str "/ipxe.cfg-" ++ nic.mac) := by
    have := reads_mac hnic hbase (t := []) (by decide)
    rwa [List.append_nil, List.append_nil] at this
  have hr := List.Forall₂.cons (reads_self (b := b) (i := i) (w := str "chain") (by decide))
    (.cons (reads_self (w := str "--autofree") (by decide)) (.cons hurl .nil))
  have hc : ∀ s, b.AtNic i b.chainRest tr s → runCommand b.env b.program (s.move b.downRest)
      [str "chain", str "--autofree", trimRight b.proxyBase 47 ++ str "/ipxe.cfg-" ++ nicMac] =
        ((s.move b.downRest).record (chainTo b.proxyBase nic),
          .ofBool (b.succeeds tr (chainTo b.proxyBase nic))) := by
    intro s hs
    rw [runCommand_of_expandWords (resolveWords_of_reads hr (hs.move _)), exec, readInstr_other _ (by decide),
      ← hs.trace_eq]
    rfl
  constructor
  · intro hfail
    refine .of_step fun s hs => ?_
    have := hc s hs
    rw [hfail] at this
    rw [next, step_andTry_failed hs.halted hs.rest_eq this]
    exact (hs.move _).record _
  · intro hok
    have hjump : Leads b.next (b.AtNic i b.chainRest tr)
        (b.AtNic i [labelLine (str "os_done"), runLine [str "exit", str "0"]]
          (tr ++ [chainTo b.proxyBase nic])) := by
      refine .of_step fun s hs => ?_
      have := hc s hs
      rw [hok] at this
      rw [next, step_andTry_ok hs.halted hs.rest_eq this ((runCommand_goto (by decide)).trans (b.jump_os_done _))]
      exact ((hs.move b.downRest).record _).move _
    refine Leads.trans hjump (Leads.trans leads_label (.of_step fun s hs => ?_))
    have hexit : runCommand b.env b.program (s.move []) [str "exit", str "0"] =
        ({ s.move [] with halted := some true }, .left) := by
      have hr : List.Forall₂ (b.Reads i) [str "exit", str "0"] [str "exit", str "0"] :=
        .cons (reads_self (by decide)) (.cons (reads_self (by decide)) .nil)
      rw [runCommand_of_expandWords (resolveWords_of_reads hr (hs.move _)), exec]
      rfl
    rw [next, step_run hs.halted hs.rest_eq hexit (by simp)]
    exact ⟨rfl, hs.faults, hs.trace_eq⟩

/-- On to the next interface. -/
theorem leads_next (hi : i < b.nics.list.length) :
    Leads b.next (b.AtNic i b.nextRest tr) (b.AtNic (i + 1) b.loopRest tr) := by
  have hinc : Leads b.next
      (b.AtNic i (andLine [str "inc", str "nic"] [str "goto", str "loop"] :: endProgram) tr)
      (b.AtNic (i + 1) b.loopRest tr) := by
    refine .of_step fun s hs => ?_
    -- there are too few interfaces for the counter to wrap
    have hwrap : wrap32 ((i : Int) + 1) = ((i + 1 : Nat) : Int) := by
      have := b.nics.length_lt
      rw [wrap32, Int.bmod_eq_of_le (by omega) (by omega)]
      omega
    have hc : runCommand b.env b.program (s.move endProgram) [str "inc", str "nic"] =
        ((s.move endProgram).setVar (str "nic") (some (.int32 (i + 1 : Nat))), .ok) := by
      have hr : List.Forall₂ (b.Reads i) [str "inc", str "nic"] [str "inc", str "nic"] :=
        .cons (reads_self (by decide)) (.cons (reads_self (by decide)) .nil)
      have hinstr : readInstr [str "inc", str "nic"] = .inc (str "nic") := by decide
      have hvar : (s.move endProgram).vars (str "nic") = some (.int32 i) := hs.nic
      rw [runCommand_of_expandWords (resolveWords_of_reads hr (hs.move _)), exec, hinstr]
      dsimp only
      rw [State.increment, hvar]
      dsimp only
      rw [hwrap]
    rw [next, step_and_ok hs.halted hs.rest_eq hc ((runCommand_goto (by decide)).trans (b.jump_loop _))]
    exact { hs with
      knows := hs.knows.setVar foreign_nic _
      rest_eq := rfl
      nic := by simp [State.setVar, State.move] }
  unfold nextRest nextProgram
  split
  · exact Leads.trans leads_label hinc
  · exact hinc

/-- An interface that is there. -/
theorem leads_examine {nic : Nic} (hnic : b.nics.list[i]? = some nic) :
    Leads b.next (b.AtNic i b.loopRest tr) (b.AtNic i b.matchRest (tr ++ [checking i nic])) := by
  have hmac : b.Reads i (str "(" ++ nicMac) (str "(" ++ nic.mac) := by
    have := reads_mac hnic (a := str "(") (t := []) (by decide) (by decide)
    rwa [List.append_nil, List.append_nil] at this
  have hecho : b.Does i (runLine [str "echo", str "Checking", netNic, str "(" ++ nicMac, nicBusdevfn ++ str ")..."])
      (checking i nic) := by
    refine does_say ?_ (readInstr_echo _)
    exact .cons (reads_self (by decide)) (.cons (reads_self (by decide)) (.cons reads_netNic
      (.cons hmac (.cons (reads_busdevfn hnic (by decide)) .nil))))
  refine Leads.trans leads_label (Leads.trans (.of_step fun s hs => ?_) (.of_step fun s hs => hecho _ tr s hs))
  have hr : List.Forall₂ (b.Reads i) [str "isset", nicMac] [str "isset", nic.mac] :=
    .cons (reads_self (by decide)) (.cons (reads_nicMac hnic) .nil)
  have hc : ∀ rest, runCommand b.env b.program (s.move rest) [str "isset", nicMac] = (s.move rest, .ok) := by
    intro rest
    rw [runCommand_of_expandWords (resolveWords_of_reads hr (hs.move _)), exec, readInstr_isset]
    dsimp only
    rw [decide_eq_true nic.mac_ne_nil]
    rfl
  rw [next, step_or_ok hs.halted hs.rest_eq (hc _)]
  exact hs.move _

/-- After the last interface the next pass begins. -/
theorem leads_endpass : Leads b.next (b.AtNic b.nics.list.length b.loopRest tr) (b.At b.passRest (tr ++ retry)) := by
  have hnone : b.nics.list[b.nics.list.length]? = none := List.getElem?_eq_none (Nat.le_refl _)
  have hisset : Leads b.next (b.AtNic b.nics.list.length (examineProgram ++ b.matchRest) tr)
      (b.AtNic b.nics.list.length endProgram tr) := by
    refine .of_step fun s hs => ?_
    -- the only reference without a value: the MAC of an interface that is not there
    have hlookup : s.lookup b.env (net b.nics.list.length ++ str "/mac") = none := by
      rw [hs.lookup_mac, hnone]
      rfl
    have hwords : resolveWords (s.lookup b.env) [str "isset", nicMac] =
        ([str "isset", []], [net b.nics.list.length ++ str "/mac"]) := by
      have hmac : resolve (s.lookup b.env) nicMac = ([], [net b.nics.list.length ++ str "/mac"]) :=
        resolve_nicRef_unset hs.lookup_nic (by decide) hlookup
      have hcmd : resolve (s.lookup b.env) (str "isset") = (str "isset", []) := resolve_of_not_mem (by decide)
      simp [resolveWords, hmac, hcmd]
    have hc : ∀ rest, runCommand b.env b.program (s.move rest) [str "isset", nicMac] =
        ((s.move rest).note [.unset (net b.nics.list.length ++ str "/mac")], .failed) := by
      intro rest
      have hmove : resolveWords ((s.move rest).lookup b.env) [str "isset", nicMac] =
          ([str "isset", []], [net b.nics.list.length ++ str "/mac"]) := hwords
      rw [runCommand, hmove, exec, readInstr_isset]
      rfl
    rw [next, step_or_failed hs.halted hs.rest_eq (hc _) ((runCommand_goto (by decide)).trans (b.jump_endpass _))]
    exact { hs with
      rest_eq := rfl
      faults := fun f hf => (List.mem_append.mp hf).elim (hs.faults f) List.mem_singleton.mp }
  have hsay : List.Forall₂ (b.Does b.nics.list.length)
      [runLine [str "echo", str "no", str "matching", str "uplink", str "reached", str "proxy;", str "retry",
        str "in", str "3s"], runLine [str "sleep", str "3"]] retry := by
    have hdollar : ∀ argv ∈ retry, ∀ w ∈ argv, 36 ∉ w := by decide
    have hreads : ∀ argv ∈ retry, List.Forall₂ (b.Reads b.nics.list.length) argv argv := fun argv hmem =>
      List.forall₂_same.mpr fun w hw => reads_self (hdollar argv hmem w hw)
    exact .cons (does_say (hreads _ (by simp [retry])) (readInstr_echo _))
      (.cons (does_say (hreads _ (by simp [retry])) (by decide)) .nil)
  refine Leads.trans leads_label (Leads.trans hisset (Leads.trans leads_label (Leads.trans (leads_does hsay tr) ?_)))
  refine .of_step fun s hs => ?_
  rw [next_goto (by decide) b.jump_top hs.halted hs.rest_eq]
  exact (hs.move b.passRest).toAt

/-! ### Passes -/

/-- The chain on interface `i` succeeds, if the script gets there with the commands `tr` behind it. -/
def Chains (b : Boot) (tr : List (List Bytes)) (i : Nat) (nic : Nic) : Prop :=
  b.nics.list[i]? = some nic ∧ Uplink b.unicode b.node b.mac nic ∧
    b.succeeds (tr ++ checking i nic :: configure b.node i nic) (chainTo b.proxyBase nic) = true

theorem leads_visit {nic : Nic} (hnic : b.nics.list[i]? = some nic) (hfail : ¬ b.Chains tr i nic) :
    Leads b.next (b.AtNic i b.loopRest tr)
      (b.AtNic (i + 1) b.loopRest (tr ++ visit b.unicode b.node b.mac b.proxyBase i nic)) := by
  obtain ⟨hi, -⟩ := List.getElem?_eq_some_iff.mp hnic
  refine Leads.trans (leads_examine hnic) ?_
  unfold visit
  by_cases hup : Uplink b.unicode b.node b.mac nic
  · rw [if_pos hup]
    have hno : b.succeeds (tr ++ [checking i nic] ++ configure b.node i nic) (chainTo b.proxyBase nic) = false := by
      rw [List.append_assoc, List.singleton_append]
      exact Bool.not_eq_true _ ▸ fun hyes => hfail ⟨hnic, hup, hyes⟩
    have := Leads.trans (Leads.trans ((leads_match hnic).1 hup) (leads_configure hnic))
      (Leads.trans ((leads_chain hnic).1 hno) (Leads.trans leads_takeDown (leads_next hi)))
    simpa using this
  · rw [if_neg hup]
    exact Leads.trans ((leads_match hnic).2 hup) (leads_next hi)

theorem leads_done {nic : Nic} (h : b.Chains tr i nic) : Leads b.next (b.AtNic i b.loopRest tr)
    (b.Done (tr ++ checking i nic :: configure b.node i nic ++ [chainTo b.proxyBase nic])) := by
  obtain ⟨hnic, hup, hyes⟩ := h
  have happend : tr ++ checking i nic :: configure b.node i nic =
      tr ++ [checking i nic] ++ configure b.node i nic := by
    simp
  rw [happend] at hyes ⊢
  exact Leads.trans (leads_examine hnic) (Leads.trans ((leads_match hnic).1 hup)
    (Leads.trans (leads_configure hnic) ((leads_chain hnic).2 hyes)))

theorem visits_succ {nic : Nic} (hnic : b.nics.list[i]? = some nic) :
    visits b.unicode b.node b.mac b.proxyBase b.nics (i + 1) =
      visits b.unicode b.node b.mac b.proxyBase b.nics i ++ visit b.unicode b.node b.mac b.proxyBase i nic := by
  rw [visits, visits, List.take_add_one, List.flatMap_append, List.getElem?_zipIdx, hnic]
  simp

/-- The first `k` interfaces of a pass. -/
theorem leads_visits {k : Nat} (hk : k ≤ b.nics.list.length)
    (hfail : ∀ i nic, i < k → ¬ b.Chains (tr ++ visits b.unicode b.node b.mac b.proxyBase b.nics i) i nic) :
    Leads b.next (b.AtNic 0 b.loopRest tr)
      (b.AtNic k b.loopRest (tr ++ visits b.unicode b.node b.mac b.proxyBase b.nics k)) := by
  induction k with
  | zero =>
    rw [show visits b.unicode b.node b.mac b.proxyBase b.nics 0 = [] by simp [visits], List.append_nil]
    exact .of_imp fun _ hs => hs
  | succ k ih =>
    have hnic := List.getElem?_eq_getElem (show k < b.nics.list.length by omega)
    rw [visits_succ hnic, ← List.append_assoc]
    exact Leads.trans (ih (by omega) fun i nic hi => hfail i nic (by omega)) (leads_visit hnic (hfail k _ (by omega)))

/-- The beginning of a pass. -/
theorem leads_top : Leads b.next (b.At (runLine [str "set", str "nic:int32", str "0"] :: b.loopRest) tr)
    (b.AtNic 0 b.loopRest tr) := by
  refine .of_step fun s hs => ?_
  have hc : runCommand b.env b.program (s.move b.loopRest) [str "set", str "nic:int32", str "0"] =
      ((s.move b.loopRest).setVar (str "nic") (some (.int32 (0 : Nat))), .ok) := by
    have hwords : resolveWords ((s.move b.loopRest).lookup b.env) [str "set", str "nic:int32", str "0"] =
        ([str "set", str "nic:int32", str "0"], []) :=
      resolveWords_eq (.cons (resolve_of_not_mem (by decide)) (.cons (resolve_of_not_mem (by decide))
        (.cons (resolve_of_not_mem (by decide)) .nil)))
    have hvalue : wrap32 (parseNat 10 (join (str " ") [str "0"])) = ((0 : Nat) : Int) := by decide
    rw [runCommand_of_expandWords hwords, exec, readInstr_set]
    dsimp only
    rw [State.assign, if_neg (by decide), show (str "nic:int32").splitOn 58 = [str "nic", str "int32"] by decide]
    dsimp only
    rw [if_pos (by decide), hvalue]
  rw [next, step_run hs.halted hs.rest_eq hc (by simp)]
  exact { hs with
    knows := hs.knows.setVar foreign_nic _
    rest_eq := rfl
    nic := by simp [State.setVar, State.move] }

/-- The label at which a pass begins. -/
private theorem at_top {s : State} (hs : b.At b.passRest tr s) :
    b.At (runLine [str "set", str "nic:int32", str "0"] :: b.loopRest) tr (b.next s) := by
  rw [next, step_label hs.halted hs.rest_eq]
  exact { hs with rest_eq := rfl }

/-- A pass in which no chain succeeds. -/
theorem pass_of_failures
    (hfail : ∀ i nic, ¬ b.Chains (tr ++ visits b.unicode b.node b.mac b.proxyBase b.nics i) i nic)
    {s : State} (hs : b.At b.passRest tr s) : ∃ k, b.At b.passRest
      (tr ++ (visits b.unicode b.node b.mac b.proxyBase b.nics b.nics.list.length ++ retry)) (b.next^[k + 1] s) := by
  have hpass := Leads.trans leads_top (Leads.trans (leads_visits (Nat.le_refl _) fun i nic _ => hfail i nic)
    leads_endpass)
  obtain ⟨k, hk⟩ := hpass _ (at_top hs)
  rw [List.append_assoc] at hk
  exact ⟨k, hk⟩

/-- A pass in which the chain on interface `i` is the first to succeed. -/
theorem pass_of_success {nic : Nic} (h : b.Chains (tr ++ visits b.unicode b.node b.mac b.proxyBase b.nics i) i nic)
    (hfail : ∀ j nic, j < i → ¬ b.Chains (tr ++ visits b.unicode b.node b.mac b.proxyBase b.nics j) j nic)
    {s : State} (hs : b.At b.passRest tr s) : ∃ k, b.Done (tr ++ visits b.unicode b.node b.mac b.proxyBase b.nics i ++
      checking i nic :: configure b.node i nic ++ [chainTo b.proxyBase nic]) (b.next^[k] s) := by
  obtain ⟨hi, -⟩ := List.getElem?_eq_some_iff.mp h.1
  have hvisits := Leads.trans leads_top (Leads.trans (leads_visits (Nat.le_of_lt hi) hfail) (leads_done h))
  exact Leads.trans (.of_step fun s hs => at_top hs) hvisits s hs

end Boot

end MaasBoot
