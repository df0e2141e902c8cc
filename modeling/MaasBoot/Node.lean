import MaasBoot.Lib.Scan

/-!
# Node records

The network configuration of a machine (`types.go`), and the two functions that decide whether a bond member is a
PCI address and how iPXE spells it.
-/

namespace MaasBoot

/-- The character `:`. -/
def colon : UInt8 := 58

/-- The character `.`. -/
def dot : UInt8 := 46

structure Node where
  ip : Bytes := []
  netmask : Bytes := []
  gw : Bytes := []
  vlan : Bytes := []
  dev : Bytes := []
  hostname : Bytes := []
  dns : Bytes := []
  dns2 : Bytes := []
  bondMembers : List Bytes := []
  bondName : Bytes := []
  bondMode : Bytes := []
  lacpRate : Bytes := []
  hashPolicy : Bytes := []
  kernelNet : Bytes := []
  deriving DecidableEq

def Node.bonded (n : Node) : Bool := 0 < n.bondMembers.length

def isPCIAddr (s : Bytes) : Bool := 2 ≤ s.count colon || (s.contains colon && s.contains dot)

/-- A scanned PCI address. -/
structure PCIAddr where
  seg : Nat
  bus : Nat
  dev : Nat
  fn : Nat
  deriving DecidableEq

/-- `fmt.Sprintf("%04x:%02x:%02x.%x", ...)`. -/
def PCIAddr.format (a : PCIAddr) : Bytes :=
  formatNat 16 4 a.seg ++ [colon] ++ formatNat 16 2 a.bus ++ [colon] ++ formatNat 16 2 a.dev ++ [dot] ++
    formatNat 16 1 a.fn

/-- The two scans of `formatIPXEPCI`, of a text without surrounding spaces. -/
def scanPCI (pci : Bytes) : Option PCIAddr :=
  if pci.count colon = 2 then
    -- domain:bus:dev.fn (e.g. 0000:3b:00.0)
    match sscanf [.hex, .lit colon, .hex, .lit colon, .hex, .lit dot, .hex] pci with
    | [seg, bus, dev, fn] => some { seg := seg, bus := bus, dev := dev, fn := fn }
    | _ => none
  else if pci.count colon = 1 ∧ pci.contains dot then
    -- bus:dev.fn (e.g. 5e:00.1)
    match sscanf [.hex, .lit colon, .hex, .lit dot, .hex] pci with
    | [bus, dev, fn] => some { seg := 0, bus := bus, dev := dev, fn := fn }
    | _ => none
  else none

/-- A PCI address as iPXE prints it; anything else only in lower case. -/
def formatIPXEPCI (u : Unicode) (pci : Bytes) : Bytes :=
  match scanPCI (trimSpace pci) with
  | some a => a.format
  | none => toLower u (trimSpace pci)

/-- The bond members that are PCI addresses, each with its place in the list and as iPXE spells it. -/
def Node.pciMembers (u : Unicode) (n : Node) : List (Nat × Bytes) :=
  (n.bondMembers.zipIdx.filter fun m => isPCIAddr m.1).map fun m => (m.2, formatIPXEPCI u m.1)

end MaasBoot
