import MaasBoot.EspRoundTrip
import Mathlib.Algebra.Order.Floor.Div
import Mathlib.GroupTheory.GroupAction.Ring

/-!
# The image as a FAT12 volume

What a checker of file systems looks at: the sizes that the boot sector states, the copies of the table, and the
clusters of every file and directory.  In an image of `buildESPImage` the four chains are consecutive runs, so they
share no cluster, and together they are all clusters of the volume.
-/

namespace MaasBoot

namespace Fat

/-- The total number of sectors: the 16-bit field, or the 32-bit one where that is zero. -/
def readTotalSectors (img : Bytes) : Nat := if le16At img 19 ≠ 0 then le16At img 19 else le32At img 32

def Geometry.rootSectors (g : Geometry) : Nat := (g.rootEntries * 32 + g.bytesPerSector - 1) / g.bytesPerSector

/-- The number of clusters: what the reserved sectors, the tables and the root directory leave of the volume. -/
def Geometry.clusterCount (g : Geometry) (totalSectors : Nat) : Nat :=
  (totalSectors - g.reservedSectors - g.fatCount * g.sectorsPerFAT - g.rootSectors) / g.sectorsPerCluster

/-- The directory entry at `path`, from the directory `dir` on. -/
def findPath (img : Bytes) (g : Geometry) (fat : Bytes) : Bytes → List (List Nat) → Option DirEntry
  | _, [] => none
  | dir, [name] => lookupDir name dir
  | dir, name :: rest => do
    let e ← lookupDir name dir
    if e.isDir then
      let sub ← readChain img g fat e.first
      findPath img g fat sub rest
    else none

/-- A volume that readers take for FAT12 and whose sizes agree: the sectors the boot sector counts are the image,
the data area ends where the image ends, all copies of the table are the same, and the table has an entry for
every cluster. -/
structure Volume (img : Bytes) where
  geometry : Geometry
  table : Bytes
  geometry_eq : readGeometry img = some geometry
  total_eq : readTotalSectors img * geometry.bytesPerSector = img.length
  data_eq : geometry.dataOffset + geometry.clusterCount (readTotalSectors img) * geometry.clusterSize = img.length
  isFAT12 : geometry.clusterCount (readTotalSectors img) < 4085
  two_tables : geometry.fatCount = 2
  tables_eq : ∀ k < geometry.fatCount, readTable img geometry k = some table
  room : ∀ c < geometry.clusterCount (readTotalSectors img) + 2, ∃ x, entry? table c = some x

namespace Volume

variable {img : Bytes} (v : Volume img)

def clusterCount : Nat := v.geometry.clusterCount (readTotalSectors img)

/-- The directory entry at a path from the root. -/
def find (path : List (List Nat)) : Option DirEntry := do
  let root ← slice? img v.geometry.rootOffset (v.geometry.rootEntries * 32)
  findPath img v.geometry v.table root path

/-- The clusters of the file or directory at a path, up to the end mark of its chain. -/
def clusters (path : List (List Nat)) : Option (List Nat) := do
  let e ← v.find path
  clusterChain v.table (v.table.length + 1) e.first

end Volume

end Fat

open Fat

/-! ### Sizes -/

theorem chainLen_eq_ceilDiv {n : Nat} (hn : 0 < n) : chainLen n = n ⌈/⌉ 2048 := by
  have hs : fatClusterSize = 2048 := rfl
  rw [Nat.ceilDiv_eq_add_pred_div]
  unfold chainLen
  dsimp only
  rw [hs, if_neg (by omega)]

theorem readTotalSectors_espBytes {efi script fat : Bytes} (hc : espClusters efi script ≤ fatMaxClusters) :
    readTotalSectors (espBytes efi script fat) = espTotalSectors (espClusters efi script) := by
  have hle := espFatSectors_le hc
  have hlt : espTotalSectors (espClusters efi script) < 65536 := by
    simp only [espTotalSectors, show fatRootSectors = 32 from rfl, fatClusterSectors]
    simp only [fatMaxClusters] at hc
    omega
  have hpos : espTotalSectors (espClusters efi script) ≠ 0 := by simp only [espTotalSectors]; omega
  have h8 : (str "IPXEBOOT").length = 8 := by decide
  have hold : Holds (espBytes efi script fat) 19 (le16 (espTotalSectors (espClusters efi script))) := by
    unfold espBytes bootSectorBytes
    iterate 20 apply Holds.append
    exact Holds.last (by simp [h8])
  unfold readTotalSectors
  rw [hold.le16At_eq, Nat.mod_eq_of_lt hlt, if_pos hpos]

private theorem clusterCount_esp (clusters : Nat) :
    (espGeometry (espFatSectors clusters)).clusterCount (espTotalSectors clusters) = clusters := by
  simp only [Geometry.clusterCount, Geometry.rootSectors, espGeometry, espTotalSectors,
    show fatRootSectors = 32 from rfl, fatClusterSectors]
  omega

/-- The clusters fill the image. -/
private theorem dataEnd_esp (clusters : Nat) :
    (espGeometry (espFatSectors clusters)).dataOffset + clusters *
      (espGeometry (espFatSectors clusters)).clusterSize = espTotalSectors clusters * 512 := by
  simp only [Geometry.dataOffset, Geometry.rootOffset, Geometry.clusterSize, espGeometry, espTotalSectors,
    show fatRootSectors = 32 from rfl, fatClusterSectors]
  omega

/-! ### The chains -/

section Chains

variable {efi script fat : Bytes} (hfat : fat.length = espFatSectors (espClusters efi script) * 512)
  (hentry : ∀ j, entry fat j = tableEntry (chainLen efi.length) (chainLen script.length) j)
  (hc : espClusters efi script ≤ fatMaxClusters)
include hfat hc

/-- The image as a volume. -/
def fatVolume : Volume (espBytes efi script fat) where
  geometry := espGeometry (espFatSectors (espClusters efi script))
  table := fat
  geometry_eq := readGeometry_espBytes hc
  total_eq := by
    rw [readTotalSectors_espBytes hc, length_espBytes hfat]
    rfl
  data_eq := by
    rw [readTotalSectors_espBytes hc, length_espBytes hfat, clusterCount_esp]
    exact dataEnd_esp _
  isFAT12 := by
    rw [readTotalSectors_espBytes hc, clusterCount_esp]
    exact Nat.lt_succ_of_le hc
  two_tables := rfl
  tables_eq := fun _ hk => readTable_espBytes hfat hk
  room := by
    have hroom := espFatSectors_room (espClusters efi script)
    rw [readTotalSectors_espBytes hc, clusterCount_esp]
    intro c hlt
    unfold entry?
    exact ⟨_, if_pos (by omega)⟩

theorem clusterCount_fatVolume : (fatVolume hfat hc).clusterCount = espClusters efi script := by
  unfold Volume.clusterCount
  rw [readTotalSectors_espBytes hc]
  exact clusterCount_esp _

/-- The paths of the volume lead to the directory entries that were written. -/
theorem find_fatVolume (path : List (List Nat)) :
    (fatVolume hfat hc).find path = findPath (espBytes efi script fat)
      (espGeometry (espFatSectors (espClusters efi script))) fat
      (padTo 16384 (rootDirEntries (efiFirst + chainLen efi.length) script.length).flatten) path := by
  unfold Volume.find
  rw [show (fatVolume hfat hc).geometry = espGeometry (espFatSectors (espClusters efi script)) from rfl,
    show (espGeometry (espFatSectors (espClusters efi script))).rootEntries = 512 from rfl, slice?_root_espBytes hfat]
  rfl

include hentry

theorem clusterChain_espBytes {first n : Nat} (hn : 0 < n) (hmax : first + n ≤ espClusters efi script + 2)
    (hrun : ∀ j, first ≤ j → j < first + n →
      tableEntry (chainLen efi.length) (chainLen script.length) j = runEntry first n j) :
    clusterChain fat (fat.length + 1) first = some (List.range' first n) := by
  have hroom := espFatSectors_room (espClusters efi script)
  have hm : fatMaxClusters = 4084 := rfl
  refine clusterChain_run first _ hn (by omega) (by omega) (by omega) fun j h₁ h₂ => ?_
  rw [hentry, hrun j h₁ h₂]

/-- The directory entries of the two directories and the two files. -/
theorem find_paths :
    (fatVolume hfat hc).find [units "EFI"] = some { first := efiDir, size := 0, isDir := true } ∧
      (fatVolume hfat hc).find [units "EFI", units "BOOT"] = some { first := bootDir, size := 0, isDir := true } ∧
      (fatVolume hfat hc).find [units "EFI", units "BOOT", units "BOOTX64.EFI"] =
        some { first := efiFirst, size := efi.length, isDir := false } ∧
      (fatVolume hfat hc).find [units "autoexec.ipxe"] =
        some { first := efiFirst + chainLen efi.length, size := script.length, isDir := false } := by
  obtain ⟨hefi, hscript, hfirst⟩ := lt_of_espClusters_le hc
  refine ⟨?_, ?_, ?_, ?_⟩
  · simp [find_fatVolume, findPath, lookup_EFI hfirst hscript]
  · simp [find_fatVolume, findPath, lookup_EFI hfirst hscript, lookup_BOOT, readChain_efiDir hfat hc hentry]
  · simp [find_fatVolume, findPath, lookup_EFI hfirst hscript, lookup_BOOT, lookup_BOOTX64 hefi,
      readChain_efiDir hfat hc hentry, readChain_bootDir hfat hc hentry]
  · simp [find_fatVolume, findPath, lookup_autoexec hfirst hscript]

/-- The chains are four consecutive runs. -/
theorem clusters_paths :
    (fatVolume hfat hc).clusters [units "EFI"] = some (List.range' efiDir 1) ∧
      (fatVolume hfat hc).clusters [units "EFI", units "BOOT"] = some (List.range' bootDir 1) ∧
      (fatVolume hfat hc).clusters [units "EFI", units "BOOT", units "BOOTX64.EFI"] =
        some (List.range' efiFirst (chainLen efi.length)) ∧
      (fatVolume hfat hc).clusters [units "autoexec.ipxe"] =
        some (List.range' (efiFirst + chainLen efi.length) (chainLen script.length)) := by
  obtain ⟨h₁, h₂, h₃, h₄⟩ := find_paths hfat hentry hc
  have hpos := chainLen_pos efi.length
  have hpos' := chainLen_pos script.length
  unfold Volume.clusters
  rw [h₁, h₂, h₃, h₄]
  refine ⟨?_, ?_, ?_, ?_⟩
  · exact clusterChain_espBytes hfat hentry hc (by decide) (by simp only [efiDir, espClusters]; omega)
      fun j => (tableEntry_runs _ _ j).1
  · exact clusterChain_espBytes hfat hentry hc (by decide) (by simp only [bootDir, espClusters]; omega)
      fun j => (tableEntry_runs _ _ j).2.1
  · exact clusterChain_espBytes hfat hentry hc hpos (by simp only [efiFirst, espClusters]; omega)
      fun j => (tableEntry_runs _ _ j).2.2.1
  · exact clusterChain_espBytes hfat hentry hc hpos' (by simp only [efiFirst, espClusters]; omega)
      fun j => (tableEntry_runs _ _ j).2.2.2

end Chains

/-- No two of the runs share a cluster. -/
theorem runs_disjoint (efiCl scriptCl : Nat) :
    [List.range' efiDir 1, List.range' bootDir 1, List.range' efiFirst efiCl,
      List.range' (efiFirst + efiCl) scriptCl].Pairwise List.Disjoint := by
  simp only [List.pairwise_cons, List.mem_cons, List.not_mem_nil, or_false, forall_eq_or_imp, forall_eq,
    List.disjoint_left, List.mem_range'_1, efiDir, bootDir, efiFirst]
  refine ⟨⟨?_, ?_, ?_⟩, ⟨?_, ?_⟩, ?_, ?_, List.Pairwise.nil⟩
  all_goals intro c
  all_goals first
    | omega
    | simp

/-- The runs leave no cluster of the volume out. -/
theorem runs_cover (efiCl scriptCl c : Nat) :
    (∃ l ∈ [List.range' efiDir 1, List.range' bootDir 1, List.range' efiFirst efiCl,
      List.range' (efiFirst + efiCl) scriptCl], c ∈ l) ↔ 2 ≤ c ∧ c ≤ efiCl + scriptCl + 2 + 1 := by
  simp only [List.mem_cons, List.not_mem_nil, or_false, exists_eq_or_imp, exists_eq_left, List.mem_range'_1, efiDir,
    bootDir, efiFirst]
  omega

/-! ### The volume -/

/-- No write of `buildESPImage` leaves its buffer: when no image is built, an error says why. -/
theorem buildESPImage_ne_panic (efi script : Bytes) : buildESPImage efi script ≠ .error .panic := by
  by_cases h : script ≠ [] ∧ espClusters efi script ≤ fatMaxClusters
  · obtain ⟨fat, -, -, -, himg⟩ := buildESPImage_eq efi script h.1 h.2
    rw [himg]
    simp
  · have hclusters : efiFirst + chainLen efi.length + chainLen script.length - 2 = espClusters efi script := by
      simp only [efiFirst, espClusters]; omega
    unfold buildESPImage
    dsimp only
    rw [hclusters]
    by_cases hs : script.length = 0
    · rw [if_pos hs]
      intro he
      cases he
    · rw [if_neg hs, if_pos (by simp only [ne_eq, ← List.length_eq_zero_iff] at h; omega)]
      intro he
      cases he

theorem buildESPImage_isOk_iff (efi script : Bytes) :
    (∃ img, buildESPImage efi script = .ok img) ↔ script ≠ [] ∧ espClusters efi script ≤ fatMaxClusters := by
  constructor
  · rintro ⟨img, h⟩
    exact of_buildESPImage_eq_ok h
  · rintro ⟨hs, hc⟩
    obtain ⟨fat, -, -, -, h⟩ := buildESPImage_eq efi script hs hc
    exact ⟨_, h⟩

/-- For a loader that is not empty, an image is built exactly when there is a script and both files fit; it is then
a FAT12 volume whose clusters are exactly those of the two directories and the two files. -/
theorem buildESPImage_volume (efi script : Bytes) (hefi : efi ≠ []) :
    ((∃ img, buildESPImage efi script = .ok img) ↔
      script ≠ [] ∧ 2 + efi.length ⌈/⌉ 2048 + script.length ⌈/⌉ 2048 ≤ 4084) ∧
    buildESPImage efi script ≠ .error .panic ∧
    ∀ img, buildESPImage efi script = .ok img → ∃ v : Volume img, ∃ dir boot loader auto : List Nat,
      v.clusterCount = 2 + efi.length ⌈/⌉ 2048 + script.length ⌈/⌉ 2048 ∧
      v.clusters [units "EFI"] = some dir ∧ dir.length = 1 ∧
      v.clusters [units "EFI", units "BOOT"] = some boot ∧ boot.length = 1 ∧
      v.clusters [units "EFI", units "BOOT", units "BOOTX64.EFI"] = some loader ∧
      loader.length = efi.length ⌈/⌉ 2048 ∧
      v.clusters [units "autoexec.ipxe"] = some auto ∧ auto.length = script.length ⌈/⌉ 2048 ∧
      [dir, boot, loader, auto].Pairwise List.Disjoint ∧
      (∀ c, (∃ l ∈ [dir, boot, loader, auto], c ∈ l) ↔ 2 ≤ c ∧ c ≤ v.clusterCount + 1) ∧
      ∀ c, v.clusterCount + 1 < c → ∀ x, entry? v.table c = some x → x = 0 := by
  have hl := chainLen_eq_ceilDiv (List.length_pos_iff.mpr hefi)
  have hcount : script ≠ [] → espClusters efi script = 2 + efi.length ⌈/⌉ 2048 + script.length ⌈/⌉ 2048 := by
    intro hs
    rw [espClusters, hl, chainLen_eq_ceilDiv (List.length_pos_iff.mpr hs)]
    omega
  refine ⟨?_, buildESPImage_ne_panic efi script, fun img himg => ?_⟩
  · rw [buildESPImage_isOk_iff]
    refine and_congr_right fun hs => ?_
    rw [hcount hs]
    rfl
  have hs := (of_buildESPImage_eq_ok himg).1
  obtain ⟨hc, fat, hlen, hentry, rfl⟩ := exists_espBytes himg
  obtain ⟨h₁, h₂, h₃, h₄⟩ := clusters_paths hlen hentry hc
  have hcc := clusterCount_fatVolume hlen hc
  refine ⟨fatVolume hlen hc, _, _, _, _, by rw [hcc, hcount hs], h₁, by simp, h₂, by simp, h₃, by simp [hl], h₄,
    by simp [chainLen_eq_ceilDiv (List.length_pos_iff.mpr hs)], runs_disjoint _ _, fun c => ?_, fun c hlt x hx => ?_⟩
  · rw [hcc, runs_cover]
    rfl
  · have hx' : entry fat c = x := by
      unfold entry? at hx
      split at hx
      · exact Option.some.inj hx
      · cases hx
    rw [← hx', hentry, tableEntry_later]
    rw [hcc] at hlt
    simp only [espClusters] at hlt
    simp only [efiFirst]
    omega

/-- Two one-byte files. -/
theorem buildESPImage_volume_small : ([0x4D] : Bytes) ≠ [] ∧ ∃ img, buildESPImage [0x4D] [0x23] = .ok img ∧
    ∃ v : Volume img, v.clusterCount = 4 := by
  obtain ⟨hok, -, hvol⟩ := buildESPImage_volume [0x4D] [0x23] (by decide)
  obtain ⟨img, himg⟩ := hok.mpr ⟨by decide, by decide⟩
  obtain ⟨v, -, -, -, -, hcount, -⟩ := hvol img himg
  exact ⟨by decide, img, himg, v, hcount⟩

end MaasBoot
