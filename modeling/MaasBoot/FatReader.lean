import MaasBoot.Lib.Bytes

/-!
# A FAT12 reader

An independent reader of FAT12 volumes: the geometry comes from the boot sector alone, the 12-bit entries of one
of the table's copies are followed until a value of at least `0xFF8`, and a name is looked up in the 32-byte
entries of a directory by its short name, or by a long name whose checksum matches the short entry that follows.
Every read is checked against the end of the image; a malformed volume gives `none`.
-/

namespace MaasBoot.Fat

structure Geometry where
  bytesPerSector : Nat
  sectorsPerCluster : Nat
  reservedSectors : Nat
  fatCount : Nat
  rootEntries : Nat
  sectorsPerFAT : Nat

/-- The geometry, from a boot sector that says `FAT12` and ends in its signature. -/
def readGeometry (img : Bytes) : Option Geometry :=
  if 512 ≤ img.length ∧ slice img 54 8 = str "FAT12   " ∧ slice img 510 2 = [0x55, 0xAA] then
    some {
      bytesPerSector := le16At img 11
      sectorsPerCluster := (byteAt img 13).toNat
      reservedSectors := le16At img 14
      fatCount := (byteAt img 16).toNat
      rootEntries := le16At img 17
      sectorsPerFAT := le16At img 22 }
  else none

def Geometry.rootOffset (g : Geometry) : Nat :=
  (g.reservedSectors + g.fatCount * g.sectorsPerFAT) * g.bytesPerSector

def Geometry.dataOffset (g : Geometry) : Nat := g.rootOffset + g.rootEntries * 32

def Geometry.clusterSize (g : Geometry) : Nat := g.sectorsPerCluster * g.bytesPerSector

/-- Copy `k` of the file allocation table. -/
def readTable (img : Bytes) (g : Geometry) (k : Nat) : Option Bytes :=
  if k < g.fatCount then
    slice? img ((g.reservedSectors + k * g.sectorsPerFAT) * g.bytesPerSector) (g.sectorsPerFAT * g.bytesPerSector)
  else none

/-! ### Cluster chains -/

/-- Entry `c` of a table: twelve of the sixteen bits at byte `c * 3 / 2`. -/
def entry (fat : Bytes) (c : Nat) : Nat :=
  let v := le16At fat (c * 3 / 2)
  if c % 2 = 0 then v % 4096 else v / 16

def entry? (fat : Bytes) (c : Nat) : Option Nat :=
  if c * 3 / 2 + 2 ≤ fat.length then some (entry fat c) else none

/-- The clusters of the chain that starts at `c`, up to the end mark. -/
def clusterChain (fat : Bytes) : Nat → Nat → Option (List Nat)
  | 0, _ => none
  | fuel + 1, c =>
    if 0xFF8 ≤ c then some []
    else do
      let next ← entry? fat c
      let rest ← clusterChain fat fuel next
      some (c :: rest)

def readCluster (img : Bytes) (g : Geometry) (c : Nat) : Option Bytes :=
  if c < 2 then none else slice? img (g.dataOffset + (c - 2) * g.clusterSize) g.clusterSize

/-- The data of a chain.  A chain without a cycle has at most as many clusters as the table has bytes. -/
def readChain (img : Bytes) (g : Geometry) (fat : Bytes) (first : Nat) : Option Bytes := do
  let cs ← clusterChain fat (fat.length + 1) first
  let parts ← cs.mapM (readCluster img g)
  some parts.flatten

/-! ### Directories -/

structure DirEntry where
  first : Nat
  size : Nat
  isDir : Bool
  deriving DecidableEq

/-- The checksum of an 11-byte short name: rotate right by one bit, add, modulo 256. -/
def checksum (short : Bytes) : Nat := short.foldl (fun s c => (s % 2 * 128 + s / 2 + c.toNat) % 256) 0

/-- The thirteen slots for code units in a long-name entry, which stand in three groups. -/
def longSlots (e : Bytes) : List Nat :=
  [(1, 5), (14, 6), (28, 2)].flatMap fun s => (List.range s.2).map fun i => le16At e (s.1 + 2 * i)

/-- The code units of a long-name entry, up to a terminator or filler. -/
def longUnits (e : Bytes) : List Nat := (longSlots e).takeWhile fun u => u ≠ 0 ∧ u ≠ 0xFFFF

/-- The short name as text: the base name and, after a dot, the extension, without their padding. -/
def shortUnits (e : Bytes) : List Nat :=
  let trim := fun b : Bytes => (b.reverse.dropWhile (· == 0x20)).reverse
  let base := trim (slice e 0 8)
  let ext := trim (slice e 8 3)
  (if ext = [] then base else base ++ str "." ++ ext).map UInt8.toNat

/-- Look `name` (in UTF-16 code units) up among the first `n` entries of `dir`.  `long` is the pending long name
with its checksum. -/
def lookup (name : List Nat) : Nat → Bytes → Option (List Nat × Nat) → Option DirEntry
  | 0, _, _ => none
  | n + 1, dir, long =>
    let e := dir.take 32
    if e.length < 32 ∨ byteAt e 0 = 0 then none
    else if byteAt e 11 = 0x0F then
      lookup name n (dir.drop 32) (some (longUnits e, (byteAt e 13).toNat))
    else if shortUnits e = name ∨ long = some (name, checksum (slice e 0 11)) then
      some { first := le16At e 26, size := le32At e 28, isDir := byteAt e 11 &&& 0x10 ≠ 0 }
    else lookup name n (dir.drop 32) none

def lookupDir (name : List Nat) (dir : Bytes) : Option DirEntry := lookup name (dir.length / 32) dir none

/-- Follow a path from the directory `dir` to a file. -/
def readPath (img : Bytes) (g : Geometry) (fat : Bytes) : Bytes → List (List Nat) → Option Bytes
  | _, [] => none
  | dir, [name] => do
    let e ← lookupDir name dir
    if e.isDir then none
    else
      let data ← readChain img g fat e.first
      slice? data 0 e.size
  | dir, name :: rest => do
    let e ← lookupDir name dir
    if e.isDir then
      let sub ← readChain img g fat e.first
      readPath img g fat sub rest
    else none

/-- The file at `path`, using copy `k` of the table. -/
def readFile (img : Bytes) (k : Nat) (path : List (List Nat)) : Option Bytes := do
  let g ← readGeometry img
  let fat ← readTable img g k
  let root ← slice? img g.rootOffset (g.rootEntries * 32)
  readPath img g fat root path

end MaasBoot.Fat
