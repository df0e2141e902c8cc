import MaasBoot.Lib.Format

/-!
# The FAT12 EFI System Partition image

`buildESPImage` of `isoimage.go` and the functions it calls, write by write.  A FAT entry is 12 bits wide, so two
neighbouring entries share a byte; `setFAT12` masks the nibble that belongs to the other entry.
-/

namespace MaasBoot

def fatSectorSize : Nat := 512

def fatClusterSectors : Nat := 4

def fatClusterSize : Nat := fatSectorSize * fatClusterSectors

def fatRootEntries : Nat := 512

def fatRootSectors : Nat := fatRootEntries * 32 / fatSectorSize

/-- Above this number of clusters the volume would no longer be FAT12. -/
def fatMaxClusters : Nat := 4084

/-- 2000-01-01, for reproducible images. -/
def fatDate : Nat := (2000 - 1980) <<< 9 ||| 1 <<< 5 ||| 1

def attrDir : UInt8 := 0x10

def attrLFN : UInt8 := 0x0F

def attrArchive : UInt8 := 0x20

/-- The characters of `"autoexec.ipxe"`. -/
def autoexecName : List Char := "autoexec.ipxe".toList

/-! ### Directory entries -/

/-- An 8.3 name in its 11-byte form, padded with spaces. -/
def shortName (base ext : Bytes) : Bytes :=
  overwrite (overwrite (List.replicate 11 0x20) 0 (base.take 8)) 8 (ext.take 3)

def fatDirEntry (name : Bytes) (attr : UInt8) (first size : Nat) : Go Bytes := do
  let e := zeros 32
  let e ← copyAt e 0 name
  let e ← putAt e 11 [attr]
  let e ← putAt e 16 (le16 fatDate)
  let e ← putAt e 18 (le16 fatDate)
  let e ← putAt e 24 (le16 fatDate)
  let e ← putAt e 26 (le16 first)
  putAt e 28 (le32 size)

/-- The checksum of a short name: rotate right by one, add the next byte. -/
def lfnChecksum (short : Bytes) : UInt8 :=
  short.foldl (fun sum c => ((sum &&& 1) <<< 7) + (sum >>> 1) + c) 0

/-- `utf16.Encode`: one code unit, or a surrogate pair above the basic plane. -/
def utf16Encode (name : List Char) : List Nat :=
  name.flatMap fun c =>
    if c.toNat < 0x10000 then [c.toNat]
    else [0xD800 + (c.toNat - 0x10000) / 0x400, 0xDC00 + (c.toNat - 0x10000) % 0x400]

/-- The thirteen code units of a long-name entry: the name, a terminating 0 if there is room, then `0xFFFF`. -/
def lfnChars (long : List Char) : List Nat :=
  let u := utf16Encode long
  (List.range 13).map fun i => if i < u.length then u.getD i 0 else if i = u.length then 0 else 0xFFFF

/-- The slots of the code units in a long-name entry: start and number of code units. -/
def lfnSlots : List (Nat × Nat) := [(1, 5), (14, 6), (28, 2)]

/-- The offsets the code units are written to, in order. -/
def lfnOffsets : List Nat := lfnSlots.flatMap fun s => (List.range s.2).map fun i => s.1 + 2 * i

def fatLFNEntry (long : List Char) (short : Bytes) : Go Bytes := do
  let e := zeros 32
  let e ← putAt e 0 [0x41]
  let e ← putAt e 11 [attrLFN]
  let e ← putAt e 13 [lfnChecksum short]
  (lfnOffsets.zip (lfnChars long)).foldlM (fun e s => putAt e s.1 (le16 s.2)) e

/-! ### The file allocation table -/

def setFAT12 (fat : Bytes) (i : Nat) (v : UInt16) : Go Bytes :=
  let off := i * 3 / 2
  if off + 1 < fat.length then
    if i % 2 = 0 then
      .ok ((fat.set off v.toUInt8).set (off + 1)
        ((byteAt fat (off + 1) &&& (0xF0 : UInt8)) ||| ((v >>> 8).toUInt8 &&& (0x0F : UInt8))))
    else
      .ok ((fat.set off ((byteAt fat off &&& (0x0F : UInt8)) ||| ((v &&& 0x0F).toUInt8 <<< (4 : UInt8)))).set
        (off + 1) (v >>> 4).toUInt8)
  else .error .panic

/-- The closure `chain(first, n)`: each cluster points to the next one, the last to the end mark. -/
def chain (fat : Bytes) (first n : Nat) : Go Bytes :=
  (List.range n).foldlM
    (fun fat i => setFAT12 fat (first + i) (if i = n - 1 then 0xFFF else UInt16.ofNat (first + i + 1))) fat

/-! ### The image -/

/-- The closure `chainLen`: clusters for `n` bytes, at least one. -/
def chainLen (n : Nat) : Nat :=
  let c := (n + fatClusterSize - 1) / fatClusterSize
  if c = 0 then 1 else c

def efiDir : Nat := 2

def bootDir : Nat := 3

def efiFirst : Nat := 4

/-- The boot sector: the writes to `bs`, the first sector of the image. -/
def bootSector (totalSectors fatSectors : Nat) : Go Bytes := do
  let bs := zeros fatSectorSize
  let bs ← copyAt bs 0 [0xEB, 0x3C, 0x90]
  let bs ← copyAt bs 3 (str "IPXEBOOT")
  let bs ← putAt bs 11 (le16 fatSectorSize)
  let bs ← putAt bs 13 [UInt8.ofNat fatClusterSectors]
  let bs ← putAt bs 14 (le16 1)
  let bs ← putAt bs 16 [2]
  let bs ← putAt bs 17 (le16 fatRootEntries)
  let bs ← putAt bs 19 (le16 totalSectors)
  let bs ← putAt bs 21 [0xF8]
  let bs ← putAt bs 22 (le16 fatSectors)
  let bs ← putAt bs 24 (le16 32)
  let bs ← putAt bs 26 (le16 64)
  let bs ← putAt bs 36 [0x80]
  let bs ← putAt bs 38 [0x29]
  let bs ← putAt bs 39 (le32 0x1A2B3C4D)
  let bs ← copyAt bs 43 (str "IPXEBOOT   ")
  let bs ← copyAt bs 54 (str "FAT12   ")
  putAt bs 510 [0x55, 0xAA]

/-- The table: the two reserved entries, the two directories, then the chains of the two files. -/
def fatTable (fatSectors efiCl scriptCl : Nat) : Go Bytes := do
  let fat := zeros (fatSectors * fatSectorSize)
  let fat ← setFAT12 fat 0 0xFF8
  let fat ← setFAT12 fat 1 0xFFF
  let fat ← setFAT12 fat efiDir 0xFFF
  let fat ← setFAT12 fat bootDir 0xFFF
  let fat ← chain fat efiFirst efiCl
  chain fat (efiFirst + efiCl) scriptCl

/-- The closure `put`: entries one after another from offset `o` on. -/
def put (img : Bytes) (o : Nat) : List Bytes → Go Bytes
  | [] => .ok img
  | e :: es => do
    let img' ← copyAt img o e
    put img' (o + min (img.length - o) e.length) es

def buildESPImage (efi script : Bytes) : Go Bytes := do
  if script.length = 0 then
    throw (.error (str "empty iPXE script"))
  let efiCl := chainLen efi.length
  let scriptCl := chainLen script.length
  let scriptFirst := efiFirst + efiCl
  let clusters := scriptFirst + scriptCl - 2
  if clusters > fatMaxClusters then
    throw (.error (str "ESP content needs " ++ decimal clusters ++ str " clusters, FAT12 limit is " ++
      decimal fatMaxClusters))
  let fatBytes := ((clusters + 2) * 3 + 1) / 2
  let fatSectors := (fatBytes + fatSectorSize - 1) / fatSectorSize
  let rootStart := 1 + 2 * fatSectors
  let dataStart := rootStart + fatRootSectors
  let totalSectors := dataStart + clusters * fatClusterSectors
  let img := zeros (totalSectors * fatSectorSize)
  let bs ← bootSector totalSectors fatSectors
  let img ← putAt img 0 bs
  let fat ← fatTable fatSectors efiCl scriptCl
  let img ← copyAt img fatSectorSize fat
  let img ← copyAt img ((1 + fatSectors) * fatSectorSize) fat
  -- the offset of the closure `cluster(n)`
  let cluster := fun n => (dataStart + (n - 2) * fatClusterSectors) * fatSectorSize
  let dot := shortName (str ".") []
  let dotdot := shortName (str "..") []
  let scriptShort := shortName (str "AUTOEXEC") (str "IPX")
  let img ← put img (rootStart * fatSectorSize)
    [← fatLFNEntry autoexecName scriptShort,
      ← fatDirEntry scriptShort attrArchive scriptFirst script.length,
      ← fatDirEntry (shortName (str "EFI") []) attrDir efiDir 0]
  let img ← put img (cluster efiDir)
    [← fatDirEntry dot attrDir efiDir 0,
      ← fatDirEntry dotdot attrDir 0 0,
      ← fatDirEntry (shortName (str "BOOT") []) attrDir bootDir 0]
  let img ← put img (cluster bootDir)
    [← fatDirEntry dot attrDir bootDir 0,
      ← fatDirEntry dotdot attrDir efiDir 0,
      ← fatDirEntry (shortName (str "BOOTX64") (str "EFI")) attrArchive efiFirst efi.length]
  let img ← copyAt img (cluster efiFirst) efi
  copyAt img (cluster scriptFirst) script

end MaasBoot
