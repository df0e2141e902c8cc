import MaasBoot.UplinkScript

/-!
# The run of the generic script

`RenderGenericIPXEScript` of `iso_builder.go` is the script of the image that belongs to no node.  It goes through
the interfaces of the machine, pass after pass: it asks for an address by DHCP, and if it gets one it tries to chain
to the proxy.  `discover` says what is to happen in the first passes; `renderGenericIPXEScript_discovers` says that
iPXE does just that with the text of the script.
-/

namespace MaasBoot

open Ipxe

/-! ### What the script is for -/

section Search

variable (proxyBase : Bytes) (succeeds : List (List Bytes) → List Bytes → Bool)

/-- The commands before an address is asked for. -/
def reopen (i : Nat) : List (List Bytes) := [[str "ifclose", net i], [str "ifopen", net i]]

def dhcp (i : Nat) : List Bytes := [str "dhcp", net i]

/-- The commands at the end of a pass. -/
def genericRetry : List (List Bytes) :=
  [[str "echo", str "no", str "uplink", str "reached", str "proxy;", str "retrying", str "in", str "3s"],
    [str "sleep", str "3"]]

/-- Interface `i` after the commands `tr`: all commands up to the next interface, and whether the chain has
succeeded. -/
def tryNic (tr : List (List Bytes)) (i : Nat) (nic : Nic) : List (List Bytes) × Bool :=
  if succeeds (tr ++ reopen i) (dhcp i) then
    if succeeds (tr ++ reopen i ++ [dhcp i]) (chainTo proxyBase nic) then
      (tr ++ reopen i ++ [dhcp i, chainTo proxyBase nic], true)
    else (tr ++ reopen i ++ [dhcp i, chainTo proxyBase nic, [str "ifclose", net i]], false)
  else (tr ++ reopen i ++ [dhcp i, [str "ifclose", net i]], false)

/-- The interfaces from number `i` on, up to the first chain that succeeds. -/
def tryNics : List (List Bytes) → Nat → List Nic → List (List Bytes) × Bool
  | tr, _, [] => (tr ++ genericRetry, false)
  | tr, i, nic :: nics =>
    if (tryNic proxyBase succeeds tr i nic).2 then tryNic proxyBase succeeds tr i nic
    else tryNics (tryNic proxyBase succeeds tr i nic).1 (i + 1) nics

/-- The first `p` passes, up to the first chain that succeeds. -/
def discover (nics : Nics) : Nat → List (List Bytes) × Bool
  | 0 => ([], false)
  | p + 1 =>
    if (discover nics p).2 then discover nics p else tryNics proxyBase succeeds (discover nics p).1 0 nics.list

end Search

/-! ### The program -/

/-- The lines from some point of the program on. -/
def genericEnd : List Line :=
  [labelLine (str "endpass"),
    runLine [str "echo", str "no", str "uplink", str "reached", str "proxy;", str "retrying", str "in", str "3s"],
    runLine [str "sleep", str "3"],
    runLine [str "goto", str "top"]]

@[inherit_doc genericEnd]
def genericNext : List Line :=
  labelLine (str "next") :: tryLine [str "ifclose", netNic] ::
    andLine [str "inc", str "nic"] [str "goto", str "loop"] :: genericEnd

@[inherit_doc genericEnd]
def genericChain (base : Bytes) : List Line :=
  andTryLine [str "chain", str "--autofree", base ++ str "/ipxe.cfg-" ++ nicMac] [str "exit", str "0"] :: genericNext

@[inherit_doc genericEnd]
def genericLoop (base : Bytes) : List Line :=
  labelLine (str "loop") :: orLine [str "isset", nicMac] [str "goto", str "endpass"] ::
    tryLine [str "ifclose", netNic] :: tryLine [str "ifopen", netNic] ::
    orLine [str "dhcp", netNic] [str "goto", str "next"] :: genericChain base

@[inherit_doc genericEnd]
def genericPass (base : Bytes) : List Line :=
  labelLine (str "top") :: runLine [str "set", str "nic:int32", str "0"] :: genericLoop base

/-- The lines of the script; the first two are comments. -/
def genericProgram (proxyBase : Bytes) : List Line :=
  runLine [] :: runLine [] :: genericPass (trimRight proxyBase 47)

theorem labels_genericProgram (proxyBase : Bytes) :
    labels (genericProgram proxyBase) = [str "top", str "loop", str "next", str "endpass"] := rfl

theorem genericChainLine_eq (base : Bytes) :
    str "chain --autofree " ++ base ++ str "/ipxe.cfg-" ++ nicMac ++ str " && exit 0 ||" =
      (andTryLine [str "chain", str "--autofree", base ++ str "/ipxe.cfg-" ++ nicMac]
        [str "exit", str "0"]).print := by
  rw [show str "chain --autofree " = str "chain" ++ (str " " ++ (str "--autofree" ++ str " ")) by decide,
    show str " && exit 0 ||" =
      str " " ++ (str "&&" ++ (str " " ++ (str "exit" ++ (str " " ++ (str "0" ++ (str " " ++ str "||")))))) by decide]
  simp [Line.print, Line.words, andTryLine, commandWords, Link.words, join]

/-- The text of the script. -/
theorem renderGenericIPXEScript_eq (proxyBase : Bytes) :
    renderGenericIPXEScript proxyBase = unlines (str "#!ipxe" :: str "# Generic discovery & boot script" ::
      (genericPass (trimRight proxyBase 47)).map Line.print) := by
  have hstart : [str ":top", str "set nic:int32 0", str ":loop", str "isset " ++ nicMac ++ str " || goto endpass",
      str "ifclose " ++ netNic ++ str " ||", str "ifopen " ++ netNic ++ str " ||",
      str "dhcp " ++ netNic ++ str " || goto next"] =
      [labelLine (str "top"), runLine [str "set", str "nic:int32", str "0"], labelLine (str "loop"),
        orLine [str "isset", nicMac] [str "goto", str "endpass"], tryLine [str "ifclose", netNic],
        tryLine [str "ifopen", netNic], orLine [str "dhcp", netNic] [str "goto", str "next"]].map Line.print := by
    decide
  have hend : [str ":next", str "ifclose " ++ netNic ++ str " ||", str "inc nic && goto loop", str ":endpass",
      str "echo no uplink reached proxy; retrying in 3s", str "sleep 3", str "goto top"] =
      genericNext.map Line.print := by
    decide
  have hpass : genericPass (trimRight proxyBase 47) = [labelLine (str "top"),
      runLine [str "set", str "nic:int32", str "0"], labelLine (str "loop"),
      orLine [str "isset", nicMac] [str "goto", str "endpass"], tryLine [str "ifclose", netNic],
      tryLine [str "ifopen", netNic], orLine [str "dhcp", netNic] [str "goto", str "next"]] ++
        andTryLine [str "chain", str "--autofree", trimRight proxyBase 47 ++ str "/ipxe.cfg-" ++ nicMac]
          [str "exit", str "0"] :: genericNext := rfl
  rw [hpass, List.map_append, ← hstart, List.map_cons, ← hend, ← genericChainLine_eq]
  rfl

theorem printable_genericPass {base : Bytes} (hb : Plain base) :
    ∀ ln ∈ genericPass (trimRight base 47), ln.Printable := by
  have hchain : isCommand [str "chain", str "--autofree", trimRight base 47 ++ str "/ipxe.cfg-" ++ nicMac] =
      true := by
    refine isCommand_cons (by decide) ?_
    simp only [List.forall_mem_cons, isWord_chainURL hb]
    exact ⟨by decide, trivial, by simp⟩
  simp only [genericPass, genericLoop, genericChain, genericNext, genericEnd, List.forall_mem_cons]
  exact ⟨printable_label (by decide), printable_run (by decide), printable_label (by decide),
    printable_or (by decide) (by decide), printable_try (by decide), printable_try (by decide),
    printable_or (by decide) (by decide), printable_andTry hchain (by decide), printable_label (by decide),
    printable_try (by decide), printable_and (by decide) (by decide), printable_label (by decide),
    printable_run (by decide), printable_run (by decide), printable_run (by decide), by simp⟩

/-- What iPXE reads. -/
theorem parseScript_renderGenericIPXEScript {proxyBase : Bytes} (hb : Plain proxyBase) :
    parseScript (renderGenericIPXEScript proxyBase) = genericProgram proxyBase := by
  have hprint := printable_genericPass hb
  have hlines : ∀ l ∈ str "#!ipxe" :: str "# Generic discovery & boot script" ::
      (genericPass (trimRight proxyBase 47)).map Line.print, IsLine l := by
    simp only [List.forall_mem_cons]
    refine ⟨⟨by decide, by decide, by decide⟩, ⟨by decide, by decide, by decide⟩, fun l hl => ?_⟩
    obtain ⟨ln, hln, rfl⟩ := List.mem_map.mp hl
    exact (hprint ln hln).isLine
  have hmap : ((genericPass (trimRight proxyBase 47)).map Line.print).map parseLine =
      genericPass (trimRight proxyBase 47) := by
    rw [List.map_map]
    exact (List.map_congr_left fun ln hln => parseLine_print (hprint ln hln)).trans (List.map_id _)
  rw [renderGenericIPXEScript_eq, parseScript_unlines hlines, List.map_cons, List.map_cons, hmap]
  rfl

/-! ### A machine that boots -/

/-- A machine that boots with the generic script. -/
structure Discovery where
  proxyBase : Bytes
  nics : Nics
  accepts : Bytes → Bytes → Bool
  succeeds : List (List Bytes) → List Bytes → Bool
  proxyBase_plain : Plain proxyBase

namespace Discovery

variable (d : Discovery)

def env : Env := bootEnv d.nics d.accepts d.succeeds

def program : List Line := genericProgram d.proxyBase

def next (s : State) : State := step d.env d.program s

def base : Bytes := trimRight d.proxyBase 47

theorem count_labels {l : Bytes} (hl : l ∈ [str "top", str "loop", str "next", str "endpass"]) :
    (labels d.program).count l = 1 := by
  rw [program, labels_genericProgram]
  revert l
  decide

theorem jump_top (s : State) : s.jump d.program (str "top") = (s.move (genericPass d.base), .left) := by
  have hsplit : d.program = [runLine [], runLine []] ++ genericPass d.base := rfl
  exact jump_of_unique hsplit rfl (d.count_labels (by decide))

theorem jump_loop (s : State) : s.jump d.program (str "loop") = (s.move (genericLoop d.base), .left) := by
  have hsplit : d.program = d.program.take 4 ++ genericLoop d.base := rfl
  exact jump_of_unique hsplit rfl (d.count_labels (by decide))

theorem jump_next (s : State) : s.jump d.program (str "next") = (s.move genericNext, .left) := by
  have hsplit : d.program = d.program.take 10 ++ genericNext := rfl
  exact jump_of_unique hsplit rfl (d.count_labels (by decide))

theorem jump_endpass (s : State) : s.jump d.program (str "endpass") = (s.move genericEnd, .left) := by
  have hsplit : d.program = d.program.take 13 ++ genericEnd := rfl
  exact jump_of_unique hsplit rfl (d.count_labels (by decide))

/-- The script is at some lines, with the commands `tr` behind it.  It has set no variable but the number of the
interface, and the only setting without a value that it has asked for is the address after the last interface. -/
structure At (rest : List Line) (tr : List (List Bytes)) (s : State) : Prop where
  halted : s.halted = none
  vars : ∀ x, x ≠ str "nic" → s.vars x = none
  faults : ∀ f ∈ s.faults, f = .unset (net d.nics.list.length ++ str "/mac")
  rest_eq : s.rest = rest
  trace_eq : s.trace = tr

/-- In a pass, at interface `i`. -/
structure AtNic (i : Nat) (rest : List Line) (tr : List (List Bytes)) (s : State) : Prop extends d.At rest tr s where
  nic : s.vars (str "nic") = some (.int32 i)

/-- The script has ended with success. -/
structure Done (tr : List (List Bytes)) (s : State) : Prop where
  halted : s.halted = some true
  faults : ∀ f ∈ s.faults, f = .unset (net d.nics.list.length ++ str "/mac")
  trace_eq : s.trace = tr

variable {d} {i : Nat} {rest : List Line} {tr : List (List Bytes)} {s : State}

theorem AtNic.move (h : d.AtNic i rest tr s) (rest' : List Line) : d.AtNic i rest' tr (s.move rest') :=
  { h with rest_eq := rfl }

theorem AtNic.record (h : d.AtNic i rest tr s) (argv : List Bytes) : d.AtNic i rest (tr ++ [argv]) (s.record argv) :=
  { h with trace_eq := congrArg (· ++ [argv]) h.trace_eq }

/-! ### Words -/

theorem AtNic.lookup_nic (h : d.AtNic i rest tr s) : s.lookup d.env (str "nic") = some (decimal i) := by
  rw [State.lookup, h.nic]
  simp [Value.format]

theorem At.lookup_mac (h : d.At rest tr s) (i : Nat) :
    s.lookup d.env (net i ++ str "/mac") = d.nics.list[i]?.map (·.mac) := by
  have hne : net i ++ str "/mac" ≠ str "nic" := fun heq =>
    absurd (heq ▸ List.mem_append_right _ (by decide) : (47 : UInt8) ∈ str "nic") (by decide)
  rw [State.lookup, h.vars _ hne]
  have := nicSetting_mac d.nics.list 0 i
  rwa [Nat.zero_add] at this

/-- What a word of the script stands for at interface `i`. -/
def Reads (d : Discovery) (i : Nat) (w t : Bytes) : Prop :=
  ∀ rest tr s, d.AtNic i rest tr s → Ipxe.resolve (s.lookup d.env) w = (t, [])

theorem reads_self {w : Bytes} (h : 36 ∉ w) : d.Reads i w w := fun _ _ _ _ => resolve_of_not_mem h

theorem reads_netNic : d.Reads i netNic (net i) := by
  intro rest tr s hs
  have := Boot.resolve_netNic hs.lookup_nic (t := []) (by decide)
  rwa [List.append_nil, List.append_nil] at this

/-- The address of the interface, after some text. -/
theorem reads_mac {nic : Nic} (hnic : d.nics.list[i]? = some nic) {a : Bytes} (ha : 36 ∉ a) :
    d.Reads i (a ++ nicMac) (a ++ nic.mac) := by
  intro rest tr s hs
  have hlookup : s.lookup d.env (net i ++ str "/mac") = some nic.mac := by
    rw [hs.lookup_mac, hnic]
    rfl
  have := Boot.resolve_nicRef hs.lookup_nic ha (s := []) (by decide) (t := str "/mac")
    (by decide) hlookup nic.not_dollar.1
  rwa [List.append_nil, List.append_nil] at this

theorem resolveWords_of_reads {ws ts : List Bytes} (h : List.Forall₂ (d.Reads i) ws ts) (hs : d.AtNic i rest tr s) :
    resolveWords (s.lookup d.env) ws = (ts, []) :=
  resolveWords_eq (h.imp fun _ _ hr => hr rest tr s hs)

/-- A command that iPXE itself runs. -/
theorem runCommand_other {cmd argv : List Bytes} (hr : List.Forall₂ (d.Reads i) cmd argv)
    (hother : readInstr argv = .other) (hs : d.AtNic i rest tr s) :
    runCommand d.env d.program s cmd = (s.record argv, .ofBool (d.succeeds tr argv)) := by
  rw [runCommand_of_expandWords (resolveWords_of_reads hr hs), exec, hother, ← hs.trace_eq]
  rfl

/-! ### Lines -/

theorem leads_label {l : Bytes} : Leads d.next (d.AtNic i (labelLine l :: rest) tr) (d.AtNic i rest tr) := by
  refine .of_step fun s hs => ?_
  rw [next, step_label hs.halted hs.rest_eq]
  exact hs.move rest

/-- A command that may fail. -/
theorem leads_try {cmd argv : List Bytes} (hr : List.Forall₂ (d.Reads i) cmd argv)
    (hother : readInstr argv = .other) :
    Leads d.next (d.AtNic i (tryLine cmd :: rest) tr) (d.AtNic i rest (tr ++ [argv])) := by
  refine .of_step fun s hs => ?_
  rw [next, step_try hs.halted hs.rest_eq (runCommand_other hr hother (hs.move rest))]
  exact (hs.move rest).record argv

theorem leads_say {argv : List Bytes} (hdollar : ∀ w ∈ argv, 36 ∉ w) (hsay : readInstr argv = .say) :
    Leads d.next (d.AtNic i (runLine argv :: rest) tr) (d.AtNic i rest (tr ++ [argv])) := by
  refine .of_step fun s hs => ?_
  have hr : List.Forall₂ (d.Reads i) argv argv := List.forall₂_same.mpr fun w hw => reads_self (hdollar w hw)
  have hc : runCommand d.env d.program (s.move rest) argv = ((s.move rest).record argv, .ok) := by
    rw [runCommand_of_expandWords (resolveWords_of_reads hr (hs.move rest)), exec, hsay]
  rw [next, step_run hs.halted hs.rest_eq hc (by simp)]
  exact (hs.move rest).record argv

/-! ### One interface -/

/-- An interface that is there is taken down and up. -/
theorem leads_reopen {nic : Nic} (hnic : d.nics.list[i]? = some nic) :
    Leads d.next (d.AtNic i (genericLoop d.base) tr)
      (d.AtNic i (orLine [str "dhcp", netNic] [str "goto", str "next"] :: genericChain d.base) (tr ++ reopen i)) := by
  have hisset : ∀ rest, Leads d.next
      (d.AtNic i (orLine [str "isset", nicMac] [str "goto", str "endpass"] :: rest) tr) (d.AtNic i rest tr) := by
    intro rest
    refine .of_step fun s hs => ?_
    have hr : List.Forall₂ (d.Reads i) [str "isset", nicMac] [str "isset", nic.mac] :=
      .cons (reads_self (by decide)) (.cons (reads_mac hnic (a := []) (by decide)) .nil)
    have hc : runCommand d.env d.program (s.move rest) [str "isset", nicMac] = (s.move rest, .ok) := by
      rw [runCommand_of_expandWords (resolveWords_of_reads hr (hs.move rest)), exec, readInstr_isset]
      dsimp only
      rw [decide_eq_true nic.mac_ne_nil]
      rfl
    rw [next, step_or_ok hs.halted hs.rest_eq hc]
    exact hs.move rest
  have hcmd : ∀ cmd rest tr, 36 ∉ cmd → readInstr [cmd, net i] = .other →
      Leads d.next (d.AtNic i (tryLine [cmd, netNic] :: rest) tr) (d.AtNic i rest (tr ++ [[cmd, net i]])) :=
    fun cmd rest tr hcmd hother => leads_try (.cons (reads_self hcmd) (.cons reads_netNic .nil)) hother
  have hclose := hcmd (str "ifclose") (tryLine [str "ifopen", netNic] ::
    orLine [str "dhcp", netNic] [str "goto", str "next"] :: genericChain d.base) tr (by decide)
    (readInstr_other _ (by decide))
  have hopen := hcmd (str "ifopen") (orLine [str "dhcp", netNic] [str "goto", str "next"] :: genericChain d.base)
    (tr ++ [[str "ifclose", net i]]) (by decide) (readInstr_other _ (by decide))
  rw [List.append_assoc] at hopen
  exact Leads.trans leads_label (Leads.trans (hisset _) (Leads.trans hclose hopen))

/-- Asking for an address: with one the script goes on to the chain, without one to the end of the interface. -/
theorem leads_dhcp : Leads d.next
    (d.AtNic i (orLine [str "dhcp", netNic] [str "goto", str "next"] :: genericChain d.base) tr)
    (d.AtNic i (if d.succeeds tr (dhcp i) then genericChain d.base else genericNext) (tr ++ [dhcp i])) := by
  refine .of_step fun s hs => ?_
  have hr : List.Forall₂ (d.Reads i) [str "dhcp", netNic] (dhcp i) :=
    .cons (reads_self (by decide)) (.cons reads_netNic .nil)
  have hc := runCommand_other hr (readInstr_other _ (by decide)) (hs.move (genericChain d.base))
  by_cases hok : d.succeeds tr (dhcp i) = true
  · rw [hok] at hc
    rw [if_pos hok, next, step_or_ok hs.halted hs.rest_eq hc]
    exact (hs.move _).record _
  · have hno : d.succeeds tr (dhcp i) = false := Bool.not_eq_true _ ▸ hok
    rw [hno] at hc
    rw [if_neg hok, next, step_or_failed hs.halted hs.rest_eq hc
      ((runCommand_goto (by decide)).trans (d.jump_next _))]
    exact ((hs.move _).record _).move _

theorem runCommand_chain {nic : Nic} (hnic : d.nics.list[i]? = some nic) (hs : d.AtNic i rest tr s) :
    runCommand d.env d.program s [str "chain", str "--autofree", d.base ++ str "/ipxe.cfg-" ++ nicMac] =
      (s.record (chainTo d.proxyBase nic), .ofBool (d.succeeds tr (chainTo d.proxyBase nic))) := by
  have hbase : 36 ∉ d.base ++ str "/ipxe.cfg-" := by
    rw [List.mem_append, not_or]
    exact ⟨fun h => (plain_trimRight d.proxyBase_plain h).2.2.1 rfl, by decide⟩
  have hr : List.Forall₂ (d.Reads i) [str "chain", str "--autofree", d.base ++ str "/ipxe.cfg-" ++ nicMac]
      (chainTo d.proxyBase nic) :=
    .cons (reads_self (by decide)) (.cons (reads_self (by decide)) (.cons (reads_mac hnic hbase) .nil))
  exact runCommand_other hr (readInstr_other _ (by decide)) hs

theorem leads_chain_failed {nic : Nic} (hnic : d.nics.list[i]? = some nic)
    (hfail : d.succeeds tr (chainTo d.proxyBase nic) = false) :
    Leads d.next (d.AtNic i (genericChain d.base) tr) (d.AtNic i genericNext (tr ++ [chainTo d.proxyBase nic])) := by
  refine .of_step fun s hs => ?_
  have hc := runCommand_chain hnic (hs.move genericNext)
  rw [hfail] at hc
  rw [next, step_andTry_failed hs.halted hs.rest_eq hc]
  exact (hs.move _).record _

theorem leads_chain_ok {nic : Nic} (hnic : d.nics.list[i]? = some nic)
    (hok : d.succeeds tr (chainTo d.proxyBase nic) = true) :
    Leads d.next (d.AtNic i (genericChain d.base) tr) (d.Done (tr ++ [chainTo d.proxyBase nic])) := by
  refine .of_step fun s hs => ?_
  have hs' := (hs.move genericNext).record (chainTo d.proxyBase nic)
  have hc := runCommand_chain hnic (hs.move genericNext)
  rw [hok] at hc
  have hexit : runCommand d.env d.program ((s.move genericNext).record (chainTo d.proxyBase nic))
        [str "exit", str "0"] =
      ({ (s.move genericNext).record (chainTo d.proxyBase nic) with halted := some true }, .left) := by
    have hr : List.Forall₂ (d.Reads i) [str "exit", str "0"] [str "exit", str "0"] :=
      .cons (reads_self (by decide)) (.cons (reads_self (by decide)) .nil)
    rw [runCommand_of_expandWords (resolveWords_of_reads hr hs'), exec]
    rfl
  rw [next, step_andTry_ok hs.halted hs.rest_eq hc hexit]
  exact ⟨rfl, hs'.faults, hs'.trace_eq⟩

/-- On to the next interface. -/
theorem leads_next (hi : i < d.nics.list.length) :
    Leads d.next (d.AtNic i genericNext tr)
    (d.AtNic (i + 1) (genericLoop d.base) (tr ++ [[str "ifclose", net i]])) := by
  have hclose : Leads d.next
      (d.AtNic i (tryLine [str "ifclose", netNic] :: andLine [str "inc", str "nic"] [str "goto", str "loop"] ::
        genericEnd) tr)
      (d.AtNic i (andLine [str "inc", str "nic"] [str "goto", str "loop"] :: genericEnd)
        (tr ++ [[str "ifclose", net i]])) :=
    leads_try (.cons (reads_self (by decide)) (.cons reads_netNic .nil)) (readInstr_other _ (by decide))
  refine Leads.trans leads_label (Leads.trans hclose (.of_step fun s hs => ?_))
  -- there are too few interfaces for the counter to wrap
  have hwrap : wrap32 ((i : Int) + 1) = ((i + 1 : Nat) : Int) := by
    have := d.nics.length_lt
    rw [wrap32, Int.bmod_eq_of_le (by omega) (by omega)]
    omega
  have hc : runCommand d.env d.program (s.move genericEnd) [str "inc", str "nic"] =
      ((s.move genericEnd).setVar (str "nic") (some (.int32 (i + 1 : Nat))), .ok) := by
    have hr : List.Forall₂ (d.Reads i) [str "inc", str "nic"] [str "inc", str "nic"] :=
      .cons (reads_self (by decide)) (.cons (reads_self (by decide)) .nil)
    have hinstr : readInstr [str "inc", str "nic"] = .inc (str "nic") := by decide
    have hvar : (s.move genericEnd).vars (str "nic") = some (.int32 i) := hs.nic
    rw [runCommand_of_expandWords (resolveWords_of_reads hr (hs.move _)), exec, hinstr]
    dsimp only
    rw [State.increment, hvar]
    dsimp only
    rw [hwrap]
  rw [next, step_and_ok hs.halted hs.rest_eq hc ((runCommand_goto (by decide)).trans (d.jump_loop _))]
  exact { hs with
    vars := fun x hx => (if_neg hx).trans (hs.vars x hx)
    rest_eq := rfl
    nic := by simp [State.setVar, State.move] }

/-- What the script has reached: the next lines, or its end. -/
def Reached (d : Discovery) (P : List (List Bytes) → State → Prop) (r : List (List Bytes) × Bool) (s : State) :
    Prop :=
  if r.2 then d.Done r.1 s else P r.1 s

theorem reached_of_true {P : List (List Bytes) → State → Prop} {r : List (List Bytes) × Bool} (h : r.2 = true) :
    d.Reached P r = d.Done r.1 := funext fun _ => if_pos h

theorem reached_of_false {P : List (List Bytes) → State → Prop} {r : List (List Bytes) × Bool} (h : ¬ r.2 = true) :
    d.Reached P r = P r.1 := funext fun _ => if_neg h

theorem leads_tryNic {nic : Nic} (hnic : d.nics.list[i]? = some nic) :
    Leads d.next (d.AtNic i (genericLoop d.base) tr)
      (d.Reached (d.AtNic (i + 1) (genericLoop d.base)) (tryNic d.proxyBase d.succeeds tr i nic)) := by
  obtain ⟨hi, -⟩ := List.getElem?_eq_some_iff.mp hnic
  have hdhcp : Leads d.next (d.AtNic i (genericLoop d.base) tr) (d.AtNic i
      (if d.succeeds (tr ++ reopen i) (dhcp i) then genericChain d.base else genericNext)
      (tr ++ reopen i ++ [dhcp i])) :=
    Leads.trans (leads_reopen hnic) leads_dhcp
  unfold tryNic
  by_cases hok : d.succeeds (tr ++ reopen i) (dhcp i) = true
  · rw [if_pos hok] at hdhcp
    rw [if_pos hok]
    by_cases hchain : d.succeeds (tr ++ reopen i ++ [dhcp i]) (chainTo d.proxyBase nic) = true
    · rw [if_pos hchain]
      have := Leads.trans hdhcp (leads_chain_ok hnic hchain)
      rw [reached_of_true rfl]
      simpa using this
    · rw [if_neg hchain]
      have := Leads.trans hdhcp (Leads.trans (leads_chain_failed hnic (Bool.not_eq_true _ ▸ hchain)) (leads_next hi))
      rw [reached_of_false Bool.false_ne_true]
      simpa using this
  · rw [if_neg hok] at hdhcp
    rw [if_neg hok]
    have := Leads.trans hdhcp (leads_next hi)
    rw [reached_of_false Bool.false_ne_true]
    simpa using this

/-! ### Passes -/

/-- After the last interface the next pass begins. -/
theorem leads_endpass : Leads d.next (d.AtNic d.nics.list.length (genericLoop d.base) tr)
    (d.At (genericPass d.base) (tr ++ genericRetry)) := by
  have hisset : ∀ rest, Leads d.next
      (d.AtNic d.nics.list.length (orLine [str "isset", nicMac] [str "goto", str "endpass"] :: rest) tr)
      (d.AtNic d.nics.list.length genericEnd tr) := by
    intro rest
    refine .of_step fun s hs => ?_
    -- the only reference without a value: the MAC of an interface that is not there
    have hlookup : (s.move rest).lookup d.env (net d.nics.list.length ++ str "/mac") = none := by
      rw [(hs.move rest).lookup_mac, List.getElem?_eq_none (Nat.le_refl _)]
      rfl
    have hmac : Ipxe.resolve ((s.move rest).lookup d.env) nicMac = ([], [net d.nics.list.length ++ str "/mac"]) :=
      Boot.resolve_nicRef_unset (hs.move rest).lookup_nic (by decide) hlookup
    have hcmd : Ipxe.resolve ((s.move rest).lookup d.env) (str "isset") = (str "isset", []) :=
      resolve_of_not_mem (by decide)
    have hwords : resolveWords ((s.move rest).lookup d.env) [str "isset", nicMac] =
        ([str "isset", []], [net d.nics.list.length ++ str "/mac"]) := by
      simp [resolveWords, hmac, hcmd]
    have hc : runCommand d.env d.program (s.move rest) [str "isset", nicMac] =
        ((s.move rest).note [.unset (net d.nics.list.length ++ str "/mac")], .failed) := by
      rw [runCommand, hwords, exec, readInstr_isset]
      rfl
    rw [next, step_or_failed hs.halted hs.rest_eq hc ((runCommand_goto (by decide)).trans (d.jump_endpass _))]
    exact { hs with
      rest_eq := rfl
      faults := fun f hf => (List.mem_append.mp hf).elim (hs.faults f) List.mem_singleton.mp }
  have hecho : Leads d.next
      (d.AtNic d.nics.list.length (runLine [str "echo", str "no", str "uplink", str "reached", str "proxy;",
        str "retrying", str "in", str "3s"] :: [runLine [str "sleep", str "3"], runLine [str "goto", str "top"]]) tr)
      (d.AtNic d.nics.list.length [runLine [str "sleep", str "3"], runLine [str "goto", str "top"]]
        (tr ++ [[str "echo", str "no", str "uplink", str "reached", str "proxy;", str "retrying", str "in",
          str "3s"]])) :=
    leads_say (by decide) (readInstr_echo _)
  have hsleep : ∀ tr, Leads d.next
      (d.AtNic d.nics.list.length [runLine [str "sleep", str "3"], runLine [str "goto", str "top"]] tr)
      (d.AtNic d.nics.list.length [runLine [str "goto", str "top"]] (tr ++ [[str "sleep", str "3"]])) :=
    fun tr => leads_say (by decide) (by decide)
  have hsay := Leads.trans hecho (hsleep _)
  rw [List.append_assoc] at hsay
  refine Leads.trans leads_label (Leads.trans (hisset _) (Leads.trans leads_label (Leads.trans hsay ?_)))
  refine .of_step fun s hs => ?_
  rw [next, step_run hs.halted hs.rest_eq ((runCommand_goto (by decide)).trans (d.jump_top _)) (by simp)]
  exact (hs.move (genericPass d.base)).toAt

/-- The interfaces from number `i` on. -/
theorem leads_tryNics {nics : List Nic} (h : d.nics.list.drop i = nics) (hi : i ≤ d.nics.list.length) :
    Leads d.next (d.AtNic i (genericLoop d.base) tr)
      (d.Reached (d.At (genericPass d.base)) (tryNics d.proxyBase d.succeeds tr i nics)) := by
  induction nics generalizing i tr with
  | nil =>
    obtain rfl : i = d.nics.list.length := by
      have := List.drop_eq_nil_iff.mp h
      omega
    exact leads_endpass
  | cons nic nics ih =>
    have hnic : d.nics.list[i]? = some nic := by
      rw [← List.head?_drop, h]
      rfl
    obtain ⟨hlt, -⟩ := List.getElem?_eq_some_iff.mp hnic
    have hdrop : d.nics.list.drop (i + 1) = nics := by
      rw [← List.tail_drop, h]
      rfl
    have htry : Leads d.next (d.AtNic i (genericLoop d.base) tr)
        (d.Reached (d.AtNic (i + 1) (genericLoop d.base)) (tryNic d.proxyBase d.succeeds tr i nic)) :=
          leads_tryNic hnic
    rw [tryNics]
    by_cases hchained : (tryNic d.proxyBase d.succeeds tr i nic).2 = true
    · rw [if_pos hchained]
      rw [reached_of_true hchained] at htry ⊢
      exact htry
    · rw [if_neg hchained]
      rw [reached_of_false hchained] at htry
      exact Leads.trans htry (ih hdrop hlt)

/-- A pass takes at least one step. -/
theorem pass_step (hs : d.At (genericPass d.base) tr s) : ∃ k, d.Reached (d.At (genericPass d.base))
    (tryNics d.proxyBase d.succeeds tr 0 d.nics.list) (d.next^[k + 1] s) := by
  have hlabel : d.At (runLine [str "set", str "nic:int32", str "0"] :: genericLoop d.base) tr (d.next s) := by
    rw [next, step_label hs.halted hs.rest_eq]
    exact { hs with rest_eq := rfl }
  have hset : Leads d.next (d.At (runLine [str "set", str "nic:int32", str "0"] :: genericLoop d.base) tr)
      (d.AtNic 0 (genericLoop d.base) tr) := by
    refine .of_step fun s hs => ?_
    have hwords : resolveWords ((s.move (genericLoop d.base)).lookup d.env) [str "set", str "nic:int32", str "0"] =
        ([str "set", str "nic:int32", str "0"], []) :=
      resolveWords_eq (.cons (resolve_of_not_mem (by decide)) (.cons (resolve_of_not_mem (by decide))
        (.cons (resolve_of_not_mem (by decide)) .nil)))
    have hvalue : wrap32 (parseNat 10 (join (str " ") [str "0"])) = ((0 : Nat) : Int) := by decide
    have hc : runCommand d.env d.program (s.move (genericLoop d.base)) [str "set", str "nic:int32", str "0"] =
        ((s.move (genericLoop d.base)).setVar (str "nic") (some (.int32 (0 : Nat))), .ok) := by
      rw [runCommand_of_expandWords hwords, exec, readInstr_set]
      dsimp only
      rw [State.assign, if_neg (by decide), show (str "nic:int32").splitOn 58 = [str "nic", str "int32"] by decide]
      dsimp only
      rw [if_pos (by decide), hvalue]
    rw [next, step_run hs.halted hs.rest_eq hc (by simp)]
    exact { hs with
      vars := fun x hx => (if_neg hx).trans (hs.vars x hx)
      rest_eq := rfl
      nic := by simp [State.setVar, State.move] }
  obtain ⟨k, hk⟩ := Leads.trans hset (leads_tryNics (List.drop_zero ..) (Nat.zero_le _)) _ hlabel
  exact ⟨k, hk⟩

/-! ### Runs -/

/-- The first `p` passes take at least `p` steps, or end the script. -/
theorem exists_discover (p : Nat) : ∃ k, p ≤ k ∧ d.Reached (d.At (genericPass d.base))
    (discover d.proxyBase d.succeeds d.nics p) (d.next^[k] (start d.program)) := by
  induction p with
  | zero =>
    have hcomment : ∀ {s : State} {rest}, s.halted = none → s.rest = runLine [] :: rest → d.next s = s.move rest := by
      intro s rest hh hr
      rw [next, step_run hh hr (runCommand_nil _) (by simp)]
    have h1 : d.next (start d.program) = (start d.program).move (runLine [] :: genericPass d.base) := hcomment rfl rfl
    have h2 : d.next ((start d.program).move (runLine [] :: genericPass d.base)) =
        (start d.program).move (genericPass d.base) := hcomment rfl rfl
    refine ⟨2, by omega, ?_⟩
    rw [Function.iterate_succ_apply, Function.iterate_one, h1, h2]
    exact ⟨rfl, fun _ _ => rfl, by simp [start, State.move], rfl, rfl⟩
  | succ p ih =>
    obtain ⟨k, hle, hk⟩ := ih
    rw [discover]
    by_cases hchained : (discover d.proxyBase d.succeeds d.nics p).2 = true
    · rw [if_pos hchained]
      have hdone : d.Done (discover d.proxyBase d.succeeds d.nics p).1 (d.next^[k] (start d.program)) := by
        rwa [reached_of_true hchained] at hk
      refine ⟨k + 1, by omega, ?_⟩
      rw [Function.iterate_succ_apply', next, step_of_halted hdone.halted]
      exact hk
    · rw [if_neg hchained]
      rw [reached_of_false hchained] at hk
      obtain ⟨m, hm⟩ := pass_step hk
      refine ⟨m + 1 + k, by omega, ?_⟩
      rw [Function.iterate_add_apply]
      exact hm

theorem Reached.faults {r : List (List Bytes) × Bool} (h : d.Reached (d.At rest) r s) :
    ∀ f ∈ s.faults, f = .unset (net d.nics.list.length ++ str "/mac") := by
  unfold Reached at h
  split at h
  · exact h.faults
  · exact h.faults

theorem Reached.trace_eq {r : List (List Bytes) × Bool} (h : d.Reached (d.At rest) r s) : s.trace = r.1 := by
  unfold Reached at h
  split at h
  · exact h.trace_eq
  · exact h.trace_eq

theorem Reached.halted_iff {r : List (List Bytes) × Bool} (h : d.Reached (d.At rest) r s) :
    s.halted = if r.2 then some true else none := by
  unfold Reached at h
  split at h
  · rename_i hr
    rw [if_pos hr]
    exact h.halted
  · rename_i hr
    rw [if_neg hr]
    exact h.halted

theorem trace_iterate (k : Nat) :
    (d.next^[k] (start d.program)).trace <+: (discover d.proxyBase d.succeeds d.nics k).1 := by
  obtain ⟨m, hle, hm⟩ := d.exists_discover k
  obtain ⟨j, rfl⟩ := Nat.exists_eq_add_of_le hle
  rw [← hm.trace_eq]
  exact (iterate_grows _ k j).trace

theorem faults_iterate (k : Nat) :
    ∀ f ∈ (d.next^[k] (start d.program)).faults, f = .unset (net d.nics.list.length ++ str "/mac") := by
  obtain ⟨m, hle, hm⟩ := d.exists_discover k
  obtain ⟨j, rfl⟩ := Nat.exists_eq_add_of_le hle
  exact fun f hf => hm.faults f ((iterate_grows _ k j).faults.subset hf)

/-- No command of the script fails on its own. -/
theorem halted_iterate (k : Nat) : (d.next^[k] (start d.program)).halted ≠ some false := by
  intro hfailed
  obtain ⟨m, hle, hm⟩ := d.exists_discover k
  obtain ⟨j, rfl⟩ := Nat.exists_eq_add_of_le hle
  have hstays : d.next^[k + j] (start d.program) = d.next^[k] (start d.program) := by
    rw [Nat.add_comm, Function.iterate_add_apply]
    exact Function.iterate_fixed (step_of_halted hfailed) j
  have hhalted := hm.halted_iff
  rw [hstays, hfailed] at hhalted
  split at hhalted
  · exact absurd (Option.some.inj hhalted) Bool.false_ne_true
  · cases hhalted

end Discovery

/-! ### Chains -/

section Chains

variable {proxyBase : Bytes} {succeeds : List (List Bytes) → List Bytes → Bool} {nics : Nics}

variable (proxyBase succeeds nics) in
/-- A chain comes directly after DHCP has succeeded on an interface, and asks for the script of that interface. -/
def Asks (tr : List (List Bytes)) (argv : List Bytes) : Prop :=
  argv.head? = some (str "chain") → ∃ i nic tr', nics.list[i]? = some nic ∧ argv = chainTo proxyBase nic ∧
    tr = tr' ++ [dhcp i] ∧ succeeds tr' (dhcp i) = true

variable (proxyBase succeeds nics) in
/-- All chains among some commands are such. -/
def ChainsAsk (tr : List (List Bytes)) : Prop := ∀ a argv b, tr = a ++ argv :: b → Asks proxyBase succeeds nics a argv

theorem ChainsAsk.of_append {tr tr' : List (List Bytes)} (h : ChainsAsk proxyBase succeeds nics tr)
    (hle : tr' <+: tr) :
    ChainsAsk proxyBase succeeds nics tr' := by
  obtain ⟨b', rfl⟩ := hle
  rintro a argv b rfl
  exact h a argv (b ++ b') (by simp)

theorem ChainsAsk.concat {tr : List (List Bytes)} (h : ChainsAsk proxyBase succeeds nics tr) {argv : List Bytes}
    (hasks : Asks proxyBase succeeds nics tr argv) : ChainsAsk proxyBase succeeds nics (tr ++ [argv]) := by
  intro a argv' b heq
  -- the new command is the last one, or the split is one of the commands before
  rcases List.eq_nil_or_concat b with rfl | ⟨b, x, rfl⟩
  · obtain ⟨rfl, hlast⟩ := List.append_inj' heq rfl
    obtain rfl := (List.cons.inj hlast).1
    exact hasks
  · rw [List.concat_eq_append, ← List.cons_append, ← List.append_assoc] at heq
    exact h a argv' b (List.append_inj' heq rfl).1

theorem asks_of_ne {argv : List Bytes} (hne : argv.head? ≠ some (str "chain")) (tr : List (List Bytes)) :
    Asks proxyBase succeeds nics tr argv := fun h => absurd h hne

/-- Commands without a chain. -/
theorem ChainsAsk.append {tr : List (List Bytes)} (h : ChainsAsk proxyBase succeeds nics tr) {l : List (List Bytes)}
    (hl : ∀ argv ∈ l, argv.head? ≠ some (str "chain")) : ChainsAsk proxyBase succeeds nics (tr ++ l) := by
  induction l generalizing tr with
  | nil => rwa [List.append_nil]
  | cons argv l ih =>
    rw [List.forall_mem_cons] at hl
    rw [← List.singleton_append, ← List.append_assoc]
    exact ih (h.concat (asks_of_ne hl.1 tr)) hl.2

theorem chainsAsk_tryNic {tr : List (List Bytes)} (h : ChainsAsk proxyBase succeeds nics tr) {i : Nat} {nic : Nic}
    (hnic : nics.list[i]? = some nic) : ChainsAsk proxyBase succeeds nics (tryNic proxyBase succeeds tr i nic).1 := by
  have hcmd : ∀ {c : Bytes} (args : List Bytes), c ≠ str "chain" → (c :: args).head? ≠ some (str "chain") :=
    fun _ hc heq => hc (Option.some.inj heq)
  have hopen : ChainsAsk proxyBase succeeds nics (tr ++ reopen i) := by
    refine h.append ?_
    simp only [reopen, List.forall_mem_cons]
    exact ⟨hcmd _ (by decide), hcmd _ (by decide), by simp⟩
  have hdhcp : ChainsAsk proxyBase succeeds nics (tr ++ reopen i ++ [dhcp i]) :=
    hopen.concat (asks_of_ne (hcmd _ (by decide)) _)
  have hclose : ∀ argv ∈ [[str "ifclose", net i]], argv.head? ≠ some (str "chain") :=
    List.forall_mem_singleton.mpr (hcmd _ (by decide))
  unfold tryNic
  by_cases hok : succeeds (tr ++ reopen i) (dhcp i) = true
  · have hchain : ChainsAsk proxyBase succeeds nics (tr ++ reopen i ++ [dhcp i] ++ [chainTo proxyBase nic]) :=
      hdhcp.concat fun _ => ⟨i, nic, _, hnic, rfl, rfl, hok⟩
    rw [if_pos hok]
    split
    · simpa using hchain
    · simpa using hchain.append hclose
  · rw [if_neg hok]
    simpa using hdhcp.append hclose

theorem chainsAsk_tryNics {l : List Nic} {i : Nat} {tr : List (List Bytes)} (h : ChainsAsk proxyBase succeeds nics tr)
    (hl : nics.list.drop i = l) : ChainsAsk proxyBase succeeds nics (tryNics proxyBase succeeds tr i l).1 := by
  induction l generalizing i tr with
  | nil => exact h.append (by decide)
  | cons nic l ih =>
    have hnic : nics.list[i]? = some nic := by
      rw [← List.head?_drop, hl]
      rfl
    have hdrop : nics.list.drop (i + 1) = l := by
      rw [← List.tail_drop, hl]
      rfl
    rw [tryNics]
    split
    · exact chainsAsk_tryNic h hnic
    · exact ih (chainsAsk_tryNic h hnic) hdrop

theorem chainsAsk_discover (p : Nat) : ChainsAsk proxyBase succeeds nics (discover proxyBase succeeds nics p).1 := by
  induction p with
  | zero =>
    intro a argv b heq
    simp [discover] at heq
  | succ p ih =>
    rw [discover]
    split
    · exact ih
    · exact chainsAsk_tryNics ih (List.drop_zero ..)

/-- An interface that always reaches the proxy ends the pass, unless one before it does. -/
theorem tryNics_of_reaches {l : List Nic} {i j : Nat} {nic : Nic} (hnic : l[j]? = some nic)
    (hdhcp : ∀ tr, succeeds tr (dhcp (i + j)) = true) (hchain : ∀ tr, succeeds tr (chainTo proxyBase nic) = true)
    (tr : List (List Bytes)) : (tryNics proxyBase succeeds tr i l).2 = true := by
  induction l generalizing i j tr with
  | nil => simp at hnic
  | cons nic' l ih =>
    rw [tryNics]
    by_cases hfirst : (tryNic proxyBase succeeds tr i nic').2 = true
    · rw [if_pos hfirst]
      exact hfirst
    · rw [if_neg hfirst]
      cases j with
      | zero =>
        obtain rfl := Option.some.inj hnic
        rw [Nat.add_zero] at hdhcp
        rw [tryNic, if_pos (hdhcp _), if_pos (hchain _)] at hfirst
        exact absurd rfl hfirst
      | succ j => exact ih (by simpa using hnic) (fun tr => by rw [Nat.add_right_comm]; exact hdhcp tr) _

end Chains

/-- iPXE runs the text of the generic script as `discover` says: its commands are those of the passes, no command
fails on its own, and every pass is reached or a chain has succeeded before and ended the script.  Every chain comes
directly after DHCP has succeeded on an interface and asks for the script of that interface.  If some interface
always reaches the proxy, the script ends. -/
theorem renderGenericIPXEScript_discovers {proxyBase : Bytes} (hb : Plain proxyBase) (nics : Nics)
    (accepts : Bytes → Bytes → Bool) (succeeds : List (List Bytes) → List Bytes → Bool) :
    let run := Ipxe.run (bootEnv nics accepts succeeds) (renderGenericIPXEScript proxyBase)
    let passes := discover proxyBase succeeds nics
    (∀ k, (run k).trace <+: (passes k).1 ∧ (run k).halted ≠ some false ∧
      ∀ f ∈ (run k).faults, f = .unset (net nics.list.length ++ str "/mac")) ∧
    (∀ p, ∃ k, (run k).trace = (passes p).1 ∧ (run k).halted = if (passes p).2 then some true else none) ∧
    (∀ k a argv b, (run k).trace = a ++ argv :: b → argv.head? = some (str "chain") →
      ∃ i nic a', nics.list[i]? = some nic ∧ argv = chainTo proxyBase nic ∧ a = a' ++ [dhcp i] ∧
        succeeds a' (dhcp i) = true) ∧
    ∀ i nic, nics.list[i]? = some nic → (∀ tr, succeeds tr (dhcp i) = true) →
      (∀ tr, succeeds tr (chainTo proxyBase nic) = true) → ∃ k, (run k).halted = some true := by
  intro run passes
  let d : Discovery := ⟨proxyBase, nics, accepts, succeeds, hb⟩
  have hrun : ∀ k, run k = d.next^[k] (start d.program) := by
    intro k
    change Ipxe.run _ _ k = _
    rw [Ipxe.run, parseScript_renderGenericIPXEScript hb]
    rfl
  have hpass : ∀ p, ∃ k, (run k).trace = (passes p).1 ∧
      (run k).halted = if (passes p).2 then some true else none := by
    intro p
    obtain ⟨k, -, hk⟩ := d.exists_discover p
    rw [← hrun] at hk
    exact ⟨k, hk.trace_eq, hk.halted_iff⟩
  have htrace : ∀ k, (run k).trace <+: (passes k).1 := fun k => hrun k ▸ d.trace_iterate k
  refine ⟨fun k => ⟨htrace k, hrun k ▸ d.halted_iterate k, hrun k ▸ d.faults_iterate k⟩, hpass, ?_, ?_⟩
  · intro k a argv b heq
    exact (chainsAsk_discover k).of_append (htrace k) a argv b heq
  · intro i nic hnic hdhcp hchain
    obtain ⟨k, -, hk⟩ := hpass 1
    have hfound : (passes 1).2 = true :=
      tryNics_of_reaches (i := 0) hnic (fun tr => by rw [Nat.zero_add]; exact hdhcp tr) hchain []
    rw [if_pos hfound] at hk
    exact ⟨k, hk⟩

/-- Only the second interface gets an address. -/
theorem renderGenericIPXEScript_discovers_sample :
    ∃ k, (Ipxe.run (bootEnv sampleNics (fun _ _ => true) fun _ argv => argv ≠ [str "dhcp", str "net0"])
        (renderGenericIPXEScript (str "http://proxy/boot/")) k).trace =
      [[str "ifclose", str "net0"], [str "ifopen", str "net0"], [str "dhcp", str "net0"], [str "ifclose", str "net0"],
        [str "ifclose", str "net1"], [str "ifopen", str "net1"], [str "dhcp", str "net1"],
        [str "chain", str "--autofree", str "http://proxy/boot/ipxe.cfg-52:54:00:00:00:02"]] := by
  obtain ⟨-, h, -⟩ := renderGenericIPXEScript_discovers
    (plain_of_all (by decide) (by decide) : Plain (str "http://proxy/boot/")) sampleNics (fun _ _ => true)
    fun _ argv => argv ≠ [str "dhcp", str "net0"]
  obtain ⟨k, hk, -⟩ := h 1
  exact ⟨k, hk.trans (by decide)⟩

end MaasBoot
