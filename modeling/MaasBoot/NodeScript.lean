import MaasBoot.Lib.IpxeText
import MaasBoot.Node

/-!
# The generated iPXE scripts

`RenderNodeIPXEScript` and `RenderGenericIPXEScript` of `iso_builder.go`.  Every write of the renderers is one line,
so a script is given by its lines.  `ref s` is the text of an iPXE variable reference, a dollar sign and `s` in
braces.
-/

namespace MaasBoot

/-- `net${nic}`. -/
def netNic : Bytes := str "net" ++ ref (str "nic")

/-- `${net${nic}/mac}`. -/
def nicMac : Bytes := ref (netNic ++ str "/mac")

/-- `${net${nic}/busloc:busdevfn}`. -/
def nicBusdevfn : Bytes := ref (netNic ++ str "/busloc:busdevfn")

/-- The interface that gets the address: the VLAN interface if there is a VLAN. -/
def effIface (n : Node) : Bytes :=
  if n.vlan ≠ [] then netNic ++ str "-" ++ ref (str "vlan") else netNic

/-- The line that sets an interface's `setting`, if there is a value for it. -/
def setLine (n : Node) (setting : String) (value : Bytes) : List Bytes :=
  if value ≠ [] then [str "set " ++ effIface n ++ str setting ++ value] else []

/-- The first lines: what the script is for, and its VLAN. -/
def introLines (n : Node) (mac : Bytes) : List Bytes :=
  [str "#!ipxe", str "# Dynamic boot script for " ++ n.hostname ++ str " (" ++ mac ++ str ")"] ++
    (if n.vlan ≠ [] then [str "set vlan " ++ n.vlan] else [])

/-- The line that sets the variable of a PCI member. -/
def pciLine (p : Nat × Bytes) : Bytes := str "set pci" ++ decimal p.1 ++ str " " ++ p.2

/-- The line that sets the address to look for if there are no PCI members. -/
def targetLines (u : Unicode) (n : Node) (mac : Bytes) : List Bytes :=
  if n.pciMembers u = [] ∧ mac ≠ [] then [str "set target_mac " ++ toLower u mac] else []

/-- The line that compares the interface with a PCI member. -/
def pciMatchLine (p : Nat × Bytes) : Bytes :=
  str "iseq " ++ nicBusdevfn ++ str " " ++ ref (str "pci" ++ decimal p.1) ++ str " && goto hit ||"

/-- The lines that decide whether the interface is one of the node's uplinks. -/
def matchLines (u : Unicode) (n : Node) (mac : Bytes) : List Bytes :=
  if n.pciMembers u ≠ [] then
    (n.pciMembers u).map pciMatchLine ++ [str "goto next", str ":hit"]
  else if mac ≠ [] then
    [str "iseq " ++ nicMac ++ str " " ++ ref (str "target_mac") ++ str " && goto hit ||", str "goto next", str ":hit"]
  else []

/-- The lines that configure an uplink, try to chain over it and take it down again. -/
def attemptLines (n : Node) (base : Bytes) : List Bytes :=
  [str "echo Configuring " ++ netNic ++ str " (" ++ nicMac ++ str ")...",
    str "ifclose " ++ netNic ++ str " ||",
    str "ifopen " ++ netNic ++ str " ||"] ++
    (if n.vlan ≠ [] then [str "vcreate --tag " ++ ref (str "vlan") ++ str " " ++ netNic ++ str " ||"] else []) ++
    setLine n "/ip " n.ip ++ setLine n "/netmask " n.netmask ++ setLine n "/gateway " n.gw ++
      setLine n "/dns " n.dns ++
    [str "ifopen " ++ effIface n ++ str " ||",
      str "chain --autofree " ++ base ++ str "/ipxe.cfg-" ++ nicMac ++ str " && goto os_done ||"] ++
    (if n.vlan ≠ [] then [str "ifclose " ++ effIface n ++ str " ||",
      str "vdestroy " ++ effIface n ++ str " ||"] else []) ++
    [str "ifclose " ++ netNic ++ str " ||"]

def nodeScriptLines (u : Unicode) (n : Node) (mac proxyBase : Bytes) : List Bytes :=
  let base := trimRight proxyBase 47
  introLines n mac ++
    (n.pciMembers u).map pciLine ++
    targetLines u n mac ++
    [str ":top",
      str "set nic:int32 0",
      str ":loop",
      str "isset " ++ nicMac ++ str " || goto endpass",
      str "echo Checking " ++ netNic ++ str " (" ++ nicMac ++ str " " ++ nicBusdevfn ++ str ")..."] ++
    matchLines u n mac ++
    attemptLines n base ++
    (if n.pciMembers u ≠ [] ∨ mac ≠ [] then [str ":next"] else []) ++
    [str "inc nic && goto loop",
      str ":endpass",
      str "echo no matching uplink reached proxy; retry in 3s",
      str "sleep 3",
      str "goto top",
      str ":os_done",
      str "exit 0"]

def renderNodeIPXEScript (u : Unicode) (n : Node) (mac proxyBase : Bytes) : Bytes :=
  unlines (nodeScriptLines u n mac proxyBase)

/-- The node-independent script: every uplink in turn until one reaches the proxy. -/
def renderGenericIPXEScript (proxyBase : Bytes) : Bytes :=
  let base := trimRight proxyBase 47
  unlines
    [str "#!ipxe",
      str "# Generic discovery & boot script",
      str ":top",
      str "set nic:int32 0",
      str ":loop",
      str "isset " ++ nicMac ++ str " || goto endpass",
      str "ifclose " ++ netNic ++ str " ||",
      str "ifopen " ++ netNic ++ str " ||",
      str "dhcp " ++ netNic ++ str " || goto next",
      str "chain --autofree " ++ base ++ str "/ipxe.cfg-" ++ nicMac ++ str " && exit 0 ||",
      str ":next",
      str "ifclose " ++ netNic ++ str " ||",
      str "inc nic && goto loop",
      str ":endpass",
      str "echo no uplink reached proxy; retrying in 3s",
      str "sleep 3",
      str "goto top"]

end MaasBoot
