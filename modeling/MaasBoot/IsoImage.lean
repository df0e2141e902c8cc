import MaasBoot.EspImage

/-!
# The boot ISO

`buildBootISO` of `isoimage.go`: an ISO 9660 image with one El Torito entry that points at the EFI System
Partition image.  The volume descriptors, the catalog, the root directory and the path tables have one sector
each; the partition image follows.
-/

namespace MaasBoot

def isoSectorSize : Nat := 2048

def espBootPath : Bytes := str "ESP.IMG;1"

def lbaPVD : Nat := 16

def lbaBoot : Nat := 17

def lbaTerm : Nat := 18

def lbaCatalog : Nat := 19

def lbaRoot : Nat := 20

def lbaPathL : Nat := 21

def lbaPathM : Nat := 22

def lbaESP : Nat := 23

/-! ### Fields -/

/-- `putBoth16(b[o:], v)`. -/
def putBoth16 (b : Bytes) (o v : Nat) : Go Bytes := do
  let b ← putAt b o (le16 v)
  putAt b (o + 2) (be16 v)

/-- `putBoth32(b[o:], v)`. -/
def putBoth32 (b : Bytes) (o v : Nat) : Go Bytes := do
  let b ← putAt b o (le32 v)
  putAt b (o + 4) (be32 v)

/-- `padText(b[lo:hi], s)`: spaces, then as much of `s` as there is room for. -/
def padText (b : Bytes) (lo hi : Nat) (s : Bytes) : Go Bytes :=
  putAt b lo (overwrite (List.replicate (hi - lo) 0x20) 0 (s.take (hi - lo)))

/-- A directory record, of even length. -/
def isoDirRecord (id : Bytes) (extent size : Nat) (flags : UInt8) : Go Bytes := do
  let n := 33 + id.length
  let n := if n % 2 = 1 then n + 1 else n
  let r := zeros n
  let r ← putAt r 0 [UInt8.ofNat n]
  let r ← putBoth32 r 2 extent
  let r ← putBoth32 r 10 size
  let r ← copyAt r 18 [100, 1, 1, 0, 0, 0, 0]
  let r ← putAt r 25 [flags]
  let r ← putBoth16 r 28 1
  let r ← putAt r 32 [UInt8.ofNat id.length]
  copyAt r 33 id

def isoDate (unset : Bool) : Bytes :=
  if unset then str "0000000000000000" ++ [0] else str "2000010100000000" ++ [0]

/-- `binary.ByteOrder`. -/
inductive ByteOrder where
  | littleEndian
  | bigEndian
  deriving DecidableEq

def ByteOrder.bytes16 : ByteOrder → Nat → Bytes
  | .littleEndian => le16
  | .bigEndian => be16

def ByteOrder.bytes32 : ByteOrder → Nat → Bytes
  | .littleEndian => le32
  | .bigEndian => be32

def pathTableBytes (order : ByteOrder) : Go Bytes := do
  let t := zeros 10
  let t ← putAt t 0 [1]
  let t ← putAt t 2 (order.bytes32 lbaRoot)
  putAt t 6 (order.bytes16 1)

/-! ### Sectors -/

/-- Writes through the slice `sector(lba)`, which shares its memory with the image. -/
def onSector (img : Bytes) (lba : Nat) (f : Bytes → Go Bytes) : Go Bytes := do
  if (lba + 1) * isoSectorSize ≤ img.length then
    let s ← f (slice img (lba * isoSectorSize) isoSectorSize)
    putAt img (lba * isoSectorSize) s
  else throw .panic

/-- The primary volume descriptor. -/
def writePVD (total : Nat) (rootRec pathTable pvd : Bytes) : Go Bytes := do
  let pvd ← putAt pvd 0 [1]
  let pvd ← copyAt pvd 1 (str "CD001")
  let pvd ← putAt pvd 6 [1]
  let pvd ← padText pvd 8 40 []
  let pvd ← padText pvd 40 72 (str "IPXE_BOOT")
  let pvd ← putBoth32 pvd 80 total
  let pvd ← putBoth16 pvd 120 1
  let pvd ← putBoth16 pvd 124 1
  let pvd ← putBoth16 pvd 128 isoSectorSize
  let pvd ← putBoth32 pvd 132 pathTable.length
  let pvd ← putAt pvd 140 (le32 lbaPathL)
  let pvd ← putAt pvd 148 (be32 lbaPathM)
  let pvd ← copyAt pvd 156 rootRec
  let pvd ← padText pvd 190 318 []
  let pvd ← padText pvd 318 446 []
  let pvd ← padText pvd 446 574 []
  let pvd ← padText pvd 574 702 []
  let pvd ← padText pvd 702 739 []
  let pvd ← padText pvd 739 776 []
  let pvd ← padText pvd 776 813 []
  let pvd ← copyAt pvd 813 (isoDate false)
  let pvd ← copyAt pvd 830 (isoDate false)
  let pvd ← copyAt pvd 847 (isoDate true)
  let pvd ← copyAt pvd 864 (isoDate false)
  putAt pvd 881 [1]

/-- The El Torito boot record. -/
def writeBootRecord (br : Bytes) : Go Bytes := do
  let br ← copyAt br 1 (str "CD001")
  let br ← putAt br 6 [1]
  let br ← copyAt br 7 (str "EL TORITO SPECIFICATION")
  putAt br 71 (le32 lbaCatalog)

def writeTerminator (term : Bytes) : Go Bytes := do
  let term ← putAt term 0 [255]
  let term ← copyAt term 1 (str "CD001")
  putAt term 6 [1]

/-- The loop over the sixteen words of the validation entry. -/
def catalogSum (cat : Bytes) : UInt16 :=
  (List.range 16).foldl (fun sum i => sum + UInt16.ofNat (le16At cat (2 * i))) 0

/-- The boot catalog: the validation entry with its checksum, then the default entry. -/
def writeCatalog (espLen : Nat) (cat : Bytes) : Go Bytes := do
  let cat ← putAt cat 0 [1]
  let cat ← putAt cat 1 [0xEF]
  let cat ← copyAt cat 4 ((str "IPXE UEFI BOOT").take 24)
  let cat ← putAt cat 30 [0x55, 0xAA]
  let sum := catalogSum cat
  let cat ← putAt cat 28 (le16 (-sum).toNat)
  let cat ← putAt cat 32 [0x88]
  let cat ← putAt cat 38 (le16 (espLen / 512))
  putAt cat 40 (le32 lbaESP)

/-- The root directory.  The loop is the one of the closure `put`. -/
def writeRoot (espLen : Nat) (root : Bytes) : Go Bytes := do
  put root 0
    [← isoDirRecord [0] lbaRoot isoSectorSize 2,
      ← isoDirRecord [1] lbaRoot isoSectorSize 2,
      ← isoDirRecord espBootPath lbaESP espLen 0]

def buildBootISO (efi script : Bytes) : Go Bytes := do
  if efi.length = 0 then
    throw (.error (str "empty iPXE EFI binary"))
  let esp ← buildESPImage efi script
  let espSectors := (esp.length + isoSectorSize - 1) / isoSectorSize
  let total := lbaESP + espSectors
  let img := zeros (total * isoSectorSize)
  let rootRec ← isoDirRecord [0] lbaRoot isoSectorSize 2
  let pathTable ← pathTableBytes .littleEndian
  let img ← onSector img lbaPVD (writePVD total rootRec pathTable)
  let img ← onSector img lbaBoot writeBootRecord
  let img ← onSector img lbaTerm writeTerminator
  let img ← onSector img lbaCatalog (writeCatalog esp.length)
  let img ← onSector img lbaRoot (writeRoot esp.length)
  let img ← onSector img lbaPathL fun s => copyAt s 0 pathTable
  let pathTableM ← pathTableBytes .bigEndian
  let img ← onSector img lbaPathM fun s => copyAt s 0 pathTableM
  copyAt img (lbaESP * isoSectorSize) esp

end MaasBoot
