import MaasBoot.Lib.Bytes

/-!
# Readers of bootable ISO images

Two independent ways into an image.  Firmware follows the El Torito boot record in sector 17 to the boot catalog,
checks the validation entry and loads the sectors the default entry names.  A file system driver follows the
primary volume descriptor in sector 16 to the root directory and walks its records by their lengths.  Numbers that
are recorded in both byte orders are read in both, and a reader refuses the image when the two differ.
-/

namespace MaasBoot.Iso

/-- A 16-bit number recorded in both byte orders. -/
def both16At (b : Bytes) (o : Nat) : Option Nat :=
  if le16At b o = be16At b (o + 2) then some (le16At b o) else none

/-- A 32-bit number recorded in both byte orders. -/
def both32At (b : Bytes) (o : Nat) : Option Nat :=
  if le32At b o = be32At b (o + 4) then some (le32At b o) else none

/-! ### The firmware's way -/

structure BootEntry where
  loadLBA : Nat
  sectorCount : Nat
  deriving DecidableEq

/-- The sum of the sixteen little-endian words of a validation entry. -/
def wordSum (entry : Bytes) : Nat := ((List.range 16).map fun i => le16At entry (2 * i)).sum

/-- The default entry of the boot catalog that the boot record points at, for an EFI platform. -/
def readBootEntry (img : Bytes) : Option BootEntry := do
  let br ← slice? img (17 * 2048) 2048
  if byteAt br 0 = 0 ∧ slice br 1 5 = str "CD001" ∧ byteAt br 6 = 1 ∧
      slice br 7 23 = str "EL TORITO SPECIFICATION" then
    let cat ← slice? img (le32At br 71 * 2048) 2048
    if byteAt cat 0 = 1 ∧ byteAt cat 1 = 0xEF ∧ slice cat 30 2 = [0x55, 0xAA] ∧ wordSum cat % 65536 = 0 ∧
        byteAt cat 32 = 0x88 then
      some { loadLBA := le32At cat 40, sectorCount := le16At cat 38 }
    else none
  else none

/-- What the firmware loads: sectors of 512 bytes from a 2048-byte block on. -/
def readBootImage (img : Bytes) : Option Bytes := do
  let e ← readBootEntry img
  slice? img (e.loadLBA * 2048) (e.sectorCount * 512)

/-! ### The file system's way -/

structure Record where
  id : Bytes
  extent : Nat
  size : Nat
  isDir : Bool
  deriving DecidableEq

/-- A directory record, without bytes beyond its length. -/
def readRecord (r : Bytes) : Option Record := do
  let extent ← both32At r 2
  let size ← both32At r 10
  let _ ← both16At r 28
  let id ← slice? r 33 (byteAt r 32).toNat
  some { id := id, extent := extent, size := size, isDir := byteAt r 25 &&& 2 ≠ 0 }

/-- The records of one sector of a directory, up to a length of 0. -/
def walk : Nat → Bytes → Option (List Record)
  | 0, _ => none
  | _ + 1, [] => some []
  | fuel + 1, n :: b =>
    if n = 0 then some []
    else do
      let bytes ← slice? (n :: b) 0 n.toNat
      let r ← readRecord bytes
      let rest ← walk fuel ((n :: b).drop n.toNat)
      some (r :: rest)

/-- The records of a directory: its sectors one by one. -/
def readDirectory (img : Bytes) (dir : Record) : Option (List Record) := do
  let sectors ← (List.range (dir.size / 2048)).mapM fun i => do
    let s ← slice? img ((dir.extent + i) * 2048) 2048
    walk (s.length + 1) s
  some sectors.flatten

structure Volume where
  blocks : Nat
  blockSize : Nat
  pathTableSize : Nat
  lPathTable : Nat
  mPathTable : Nat
  root : Record
  deriving DecidableEq

/-- The primary volume descriptor. -/
def readVolume (img : Bytes) : Option Volume := do
  let pvd ← slice? img (16 * 2048) 2048
  if byteAt pvd 0 = 1 ∧ slice pvd 1 5 = str "CD001" ∧ byteAt pvd 6 = 1 then
    let blocks ← both32At pvd 80
    let _ ← both16At pvd 120
    let _ ← both16At pvd 124
    let blockSize ← both16At pvd 128
    let pathTableSize ← both32At pvd 132
    let rootBytes ← slice? pvd 156 34
    let root ← readRecord rootBytes
    some { blocks := blocks, blockSize := blockSize, pathTableSize := pathTableSize, lPathTable := le32At pvd 140,
           mPathTable := be32At pvd 148, root := root }
  else none

/-- The file with identifier `id` in the root directory. -/
def readRootFile (img : Bytes) (id : Bytes) : Option Bytes := do
  let v ← readVolume img
  let records ← readDirectory img v.root
  let r ← records.find? fun r => r.id = id
  if r.isDir then none else slice? img (r.extent * v.blockSize) r.size

/-! ### Path tables -/

structure PathEntry where
  id : Bytes
  extent : Nat
  parent : Nat
  deriving DecidableEq

/-- The entries of a path table, with its numbers read by `num16` and `num32`.  An identifier of odd length is
followed by a padding byte. -/
def readPathEntries (num16 num32 : Bytes → Nat → Nat) : Nat → Bytes → Option (List PathEntry)
  | 0, _ => none
  | _ + 1, [] => some []
  | fuel + 1, n :: b => do
    let id ← slice? (n :: b) 8 n.toNat
    let rest ← readPathEntries num16 num32 fuel ((n :: b).drop (8 + n.toNat + n.toNat % 2))
    some ({ id := id, extent := num32 (n :: b) 2, parent := num16 (n :: b) 6 } :: rest)

/-- The little-endian path table. -/
def readLPathTable (img : Bytes) (v : Volume) : Option (List PathEntry) := do
  let t ← slice? img (v.lPathTable * 2048) v.pathTableSize
  readPathEntries le16At le32At (t.length + 1) t

/-- The big-endian path table. -/
def readMPathTable (img : Bytes) (v : Volume) : Option (List PathEntry) := do
  let t ← slice? img (v.mPathTable * 2048) v.pathTableSize
  readPathEntries be16At be32At (t.length + 1) t

end MaasBoot.Iso
