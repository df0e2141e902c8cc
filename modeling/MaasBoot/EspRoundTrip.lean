import MaasBoot.EspLayout

/-!
# Reading the image back

The reader of `FatReader` finds both files in every image that `buildESPImage` returns, byte for byte, whichever
copy of the table it uses.  Each step of the reader is computed from the layout: the geometry, the table, the
cluster chains and the directory entries.
-/

namespace MaasBoot

open Fat

/-! ### The geometry -/

/-- The geometry that the boot sector of an image with `fatSectors` sectors per table states. -/
def espGeometry (fatSectors : Nat) : Geometry :=
  { bytesPerSector := 512, sectorsPerCluster := 4, reservedSectors := 1, fatCount := 2, rootEntries := 512,
    sectorsPerFAT := fatSectors }

theorem readGeometry_eq (totalSectors : Nat) {fatSectors : Nat} (rest : Bytes) (h : fatSectors < 65536) :
    readGeometry (bootSectorBytes totalSectors fatSectors ++ rest) = some (espGeometry fatSectors) := by
  have hlen := length_bootSectorBytes totalSectors fatSectors
  have h8 : (str "IPXEBOOT").length = 8 := by decide
  have h11 : (str "IPXEBOOT   ").length = 11 := by decide
  have h8' : (str "FAT12   ").length = 8 := by decide
  unfold readGeometry
  generalize hbs : bootSectorBytes totalSectors fatSectors = bs at *
  unfold bootSectorBytes at hbs
  generalize str "IPXEBOOT" = s₁ at *
  generalize str "IPXEBOOT   " = s₂ at *
  generalize str "FAT12   " = s₃ at *
  have hold : ∀ {o : Nat} {b : Bytes}, Holds bs o b → Holds (bs ++ rest) o b := fun h => h.append rest
  have f11 : Holds bs 11 (le16 fatSectorSize) := by
    subst hbs; iterate 18 apply Holds.append
    exact Holds.last (by simp [h8])
  have f13 : Holds bs 13 [UInt8.ofNat fatClusterSectors] := by
    subst hbs; iterate 17 apply Holds.append
    exact Holds.last (by simp [h8])
  have f14 : Holds bs 14 (le16 1) := by
    subst hbs; iterate 16 apply Holds.append
    exact Holds.last (by simp [h8])
  have f16 : Holds bs 16 [2] := by
    subst hbs; iterate 15 apply Holds.append
    exact Holds.last (by simp [h8])
  have f17 : Holds bs 17 (le16 fatRootEntries) := by
    subst hbs; iterate 14 apply Holds.append
    exact Holds.last (by simp [h8])
  have f22 : Holds bs 22 (le16 fatSectors) := by
    subst hbs; iterate 11 apply Holds.append
    exact Holds.last (by simp [h8])
  have f54 : Holds bs 54 s₃ := by
    subst hbs; iterate 2 apply Holds.append
    exact Holds.last (by simp [h8, h11])
  have f510 : Holds bs 510 [0x55, 0xAA] := by
    subst hbs
    exact Holds.last (by simp [h8, h11, h8'])
  rw [if_pos ⟨by simp [hlen], (hold f54).slice_eq h8'.symm, (hold f510).slice_eq rfl⟩, (hold f11).le16At_eq,
    (hold f13).byteAt_eq, (hold f14).le16At_eq, (hold f16).byteAt_eq, (hold f17).le16At_eq, (hold f22).le16At_eq,
    Nat.mod_eq_of_lt h]
  rfl

/-! ### Runs of clusters -/

/-- The clusters of a run that lies in one piece of the image give the bytes of that piece. -/
theorem mapM_readCluster {img : Bytes} {g : Geometry} {n : Nat} : ∀ (first : Nat) (data : Bytes), 2 ≤ first →
    data.length = n * g.clusterSize → Holds img (g.dataOffset + (first - 2) * g.clusterSize) data →
    ∃ parts, (List.range' first n).mapM (readCluster img g) = some parts ∧ parts.flatten = data := by
  induction n with
  | zero =>
    intro first data _ hlen _
    refine ⟨[], rfl, ?_⟩
    simpa [eq_comm] using hlen
  | succ n ih =>
    intro first data hfirst hlen hold
    rw [Nat.succ_mul] at hlen
    have hsplit : data.take g.clusterSize ++ data.drop g.clusterSize = data := List.take_append_drop _ _
    have hl : (data.take g.clusterSize).length = g.clusterSize := by rw [List.length_take]; omega
    have hhead : Holds img (g.dataOffset + (first - 2) * g.clusterSize) (data.take g.clusterSize) := by
      rw [← hsplit] at hold
      exact hold.sub (Holds.first (data.drop g.clusterSize))
    have htail : Holds img (g.dataOffset + (first + 1 - 2) * g.clusterSize) (data.drop g.clusterSize) := by
      rw [← hsplit] at hold
      rw [show first + 1 - 2 = (first - 2).succ by omega, Nat.succ_mul, ← Nat.add_assoc]
      exact hold.sub (Holds.last hl)
    obtain ⟨parts, hparts, hflat⟩ := ih (first + 1) (data.drop g.clusterSize) (by omega)
      (by rw [List.length_drop]; omega) htail
    refine ⟨data.take g.clusterSize :: parts, ?_, by rw [List.flatten_cons, hflat, hsplit]⟩
    have hread : readCluster img g first = some (data.take g.clusterSize) := by
      unfold readCluster
      rw [if_neg (by omega), hhead.slice?_eq hl.symm]
    rw [List.range'_succ, List.mapM_cons, hread, hparts]
    rfl

/-- A file whose clusters form a run reads as the piece of the image they cover. -/
theorem readChain_run {img : Bytes} {g : Geometry} {fat data : Bytes} {first n : Nat} (hfirst : 2 ≤ first)
    (hn : 0 < n) (hmax : first + n ≤ 0xFF8) (hlen : (first + n) * 3 ≤ 2 * fat.length)
    (he : ∀ j, first ≤ j → j < first + n → entry fat j = runEntry first n j)
    (hdata : data.length = n * g.clusterSize)
    (hold : Holds img (g.dataOffset + (first - 2) * g.clusterSize) data) :
    readChain img g fat first = some data := by
  obtain ⟨parts, hparts, hflat⟩ := mapM_readCluster first data hfirst hdata hold
  unfold readChain
  rw [clusterChain_run first _ hn (by omega) hmax hlen he]
  simp [hparts, hflat]

/-! ### Directory entries -/

private theorem shortUnits_dirEntry (base ext : Bytes) (attr : UInt8) (first size : Nat) :
    shortUnits (dirEntryBytes (shortName base ext) attr first size) = shortUnits (shortName base ext) := by
  have hl := length_shortName base ext
  unfold shortUnits dirEntryBytes
  simp only [List.append_assoc]
  rw [slice_append_left _ _ (by omega), slice_append_left _ _ (by omega)]

/-- A short entry is taken by its short name, or by a pending long name whose checksum it confirms. -/
private theorem lookup_dirEntry (name : List Nat) (n : Nat) (long : Option (List Nat × Nat)) (base ext rest : Bytes)
    (attr : UInt8) {first size : Nat} (hattr : attr ≠ 0x0F) (h0 : byteAt (shortName base ext) 0 ≠ 0)
    (hfirst : first < 65536) (hsize : size < 4294967296) :
    lookup name (n + 1) (dirEntryBytes (shortName base ext) attr first size ++ rest) long =
      if shortUnits (shortName base ext) = name ∨ long = some (name, checksum (shortName base ext)) then
        some { first := first, size := size, isDir := attr &&& 0x10 ≠ 0 }
      else lookup name n rest none := by
  have hl := length_shortName base ext
  have he := length_dirEntryBytes base ext attr first size
  have hs := shortUnits_dirEntry base ext attr first size
  have f0 : Holds (dirEntryBytes (shortName base ext) attr first size) 0 (shortName base ext) := by
    unfold dirEntryBytes
    iterate 7 apply Holds.append
    exact Holds.first _
  have f11 : Holds (dirEntryBytes (shortName base ext) attr first size) 11 [attr] := by
    unfold dirEntryBytes
    iterate 7 apply Holds.append
    exact Holds.last hl
  have f26 : Holds (dirEntryBytes (shortName base ext) attr first size) 26 (le16 first) := by
    unfold dirEntryBytes
    apply Holds.append
    exact Holds.last (by simp [hl])
  have f28 : Holds (dirEntryBytes (shortName base ext) attr first size) 28 (le32 size) := by
    unfold dirEntryBytes
    exact Holds.last (by simp [hl])
  have hb0 : byteAt (dirEntryBytes (shortName base ext) attr first size) 0 = byteAt (shortName base ext) 0 := by
    unfold dirEntryBytes
    simp only [List.append_assoc]
    rw [byteAt_append_left _ (by omega)]
  generalize dirEntryBytes (shortName base ext) attr first size = e at *
  rw [lookup]
  simp only [List.take_left' he, List.drop_left' he]
  rw [if_neg (by rw [hb0]; simp [he, h0]), f11.byteAt_eq, if_neg hattr, hs, f0.slice_eq hl.symm, f26.le16At_eq,
    f28.le32At_eq, Nat.mod_eq_of_lt hfirst, Nat.mod_eq_of_lt hsize]

/-- A long-name entry is remembered for the entry that follows. -/
private theorem lookup_lfnEntry (name : List Nat) (n : Nat) (long : Option (List Nat × Nat)) (chars : List Nat)
    (sum : UInt8) (rest : Bytes) (hc : chars.length = 13) :
    lookup name (n + 1) (lfnEntryBytes chars sum ++ rest) long =
      lookup name n rest (some (longUnits (lfnEntryBytes chars sum), sum.toNat)) := by
  have he := length_lfnEntryBytes sum hc
  obtain ⟨hseq, hattr, hsum⟩ := byteAt_lfnEntryBytes sum hc
  generalize lfnEntryBytes chars sum = e at *
  rw [lookup]
  simp only [List.take_left' he, List.drop_left' he]
  rw [if_neg (by rw [hseq]; simp [he]), hattr, if_pos (show attrLFN = 0x0F from rfl), hsum]

/-- The code units of a name. -/
def units (name : String) : List Nat := utf16Encode name.toList

theorem lookup_autoexec {first size : Nat} (hfirst : first < 65536) (hsize : size < 4294967296) :
    lookupDir (units "autoexec.ipxe") (padTo 16384 (rootDirEntries first size).flatten) =
      some { first := first, size := size, isDir := false } := by
  unfold lookupDir
  rw [length_padTo (by rw [length_rootDirEntries]; decide)]
  simp only [padTo, rootDirEntries, scriptShort, List.flatten_cons, List.append_assoc]
  rw [show 16384 / 32 = 510 + 1 + 1 from rfl, lookup_lfnEntry _ _ _ _ _ _ (by simp [lfnChars]),
    lookup_dirEntry _ _ _ _ _ _ _ (by decide) (by decide) hfirst hsize, if_pos (Or.inr (by decide))]
  rfl

theorem lookup_EFI {first size : Nat} (hfirst : first < 65536) (hsize : size < 4294967296) :
    lookupDir (units "EFI") (padTo 16384 (rootDirEntries first size).flatten) =
      some { first := efiDir, size := 0, isDir := true } := by
  unfold lookupDir
  rw [length_padTo (by rw [length_rootDirEntries]; decide)]
  simp only [padTo, rootDirEntries, scriptShort, List.flatten_cons, List.append_assoc]
  rw [show 16384 / 32 = 509 + 1 + 1 + 1 from rfl, lookup_lfnEntry _ _ _ _ _ _ (by simp [lfnChars]),
    lookup_dirEntry _ _ _ _ _ _ _ (by decide) (by decide) hfirst hsize, if_neg (by decide),
    lookup_dirEntry _ _ _ _ _ _ _ (by decide) (by decide) (by decide) (by decide), if_pos (Or.inl (by decide))]
  rfl

theorem lookup_BOOT :
    lookupDir (units "BOOT") (padTo 2048 efiDirEntries.flatten) =
      some { first := bootDir, size := 0, isDir := true } := by
  unfold lookupDir
  rw [length_padTo (by rw [length_efiDirEntries]; decide)]
  simp only [padTo, efiDirEntries, List.flatten_cons, List.append_assoc]
  rw [show 2048 / 32 = 61 + 1 + 1 + 1 from rfl,
    lookup_dirEntry _ _ _ _ _ _ _ (by decide) (by decide) (by decide) (by decide), if_neg (by decide),
    lookup_dirEntry _ _ _ _ _ _ _ (by decide) (by decide) (by decide) (by decide), if_neg (by decide),
    lookup_dirEntry _ _ _ _ _ _ _ (by decide) (by decide) (by decide) (by decide), if_pos (Or.inl (by decide))]
  rfl

theorem lookup_BOOTX64 {size : Nat} (hsize : size < 4294967296) :
    lookupDir (units "BOOTX64.EFI") (padTo 2048 (bootDirEntries size).flatten) =
      some { first := efiFirst, size := size, isDir := false } := by
  unfold lookupDir
  rw [length_padTo (by rw [length_bootDirEntries]; decide)]
  simp only [padTo, bootDirEntries, List.flatten_cons, List.append_assoc]
  rw [show 2048 / 32 = 61 + 1 + 1 + 1 from rfl,
    lookup_dirEntry _ _ _ _ _ _ _ (by decide) (by decide) (by decide) (by decide), if_neg (by decide),
    lookup_dirEntry _ _ _ _ _ _ _ (by decide) (by decide) (by decide) (by decide), if_neg (by decide),
    lookup_dirEntry _ _ _ _ _ _ _ (by decide) (by decide) (by decide) hsize, if_pos (Or.inl (by decide))]
  rfl

/-! ### The two files -/

section Image

variable {efi script fat : Bytes} (hfat : fat.length = espFatSectors (espClusters efi script) * 512)
include hfat

private theorem holds_tables : Holds (espBytes efi script fat) 512 fat ∧
    Holds (espBytes efi script fat) ((1 + espFatSectors (espClusters efi script)) * 512) fat := by
  have hb := length_bootSectorBytes (espTotalSectors (espClusters efi script))
    (espFatSectors (espClusters efi script))
  unfold espBytes
  constructor
  · iterate 6 apply Holds.append
    exact Holds.last hb
  · iterate 5 apply Holds.append
    exact Holds.last (by rw [List.length_append]; omega)

private theorem holds_root :
    Holds (espBytes efi script fat) (espGeometry (espFatSectors (espClusters efi script))).rootOffset
      (padTo 16384 (rootDirEntries (efiFirst + chainLen efi.length) script.length).flatten) := by
  have hb := length_bootSectorBytes (espTotalSectors (espClusters efi script))
    (espFatSectors (espClusters efi script))
  unfold espBytes
  iterate 4 apply Holds.append
  exact Holds.last (by simp only [List.length_append, hb, hfat, Geometry.rootOffset, espGeometry]; omega)

/-- The data area: the two directories, then the two files. -/
private theorem holds_data :
    Holds (espBytes efi script fat) (espGeometry (espFatSectors (espClusters efi script))).dataOffset
      (padTo 2048 efiDirEntries.flatten ++ padTo 2048 (bootDirEntries efi.length).flatten ++
        padTo (chainLen efi.length * 2048) efi ++ padTo (chainLen script.length * 2048) script) := by
  have hb := length_bootSectorBytes (espTotalSectors (espClusters efi script))
    (espFatSectors (espClusters efi script))
  have hr := length_rootDirEntries (efiFirst + chainLen efi.length) script.length
  refine ⟨bootSectorBytes (espTotalSectors (espClusters efi script)) (espFatSectors (espClusters efi script)) ++
    fat ++ fat ++ padTo 16384 (rootDirEntries (efiFirst + chainLen efi.length) script.length).flatten, [], ?_, ?_⟩
  · simp only [espBytes, List.append_assoc, List.append_nil]
  · rw [List.length_append, length_padTo (by omega)]
    simp only [List.length_append, hb, hfat, Geometry.dataOffset, Geometry.rootOffset, espGeometry]
    omega

variable (hc : espClusters efi script ≤ fatMaxClusters)
include hc

omit hfat in
theorem readGeometry_espBytes :
    readGeometry (espBytes efi script fat) = some (espGeometry (espFatSectors (espClusters efi script))) := by
  have hle := espFatSectors_le hc
  unfold espBytes
  simp only [List.append_assoc]
  exact readGeometry_eq _ _ (by omega)

omit hc in
theorem readTable_espBytes {k : Nat} (hk : k < 2) :
    readTable (espBytes efi script fat) (espGeometry (espFatSectors (espClusters efi script))) k = some fat := by
  obtain ⟨ht₀, ht₁⟩ := holds_tables hfat
  unfold readTable
  rw [if_pos (show k < (espGeometry (espFatSectors (espClusters efi script))).fatCount from hk)]
  rcases (by omega : k = 0 ∨ k = 1) with rfl | rfl
  · exact Holds.slice?_eq (by simpa [espGeometry] using ht₀) hfat.symm
  · exact Holds.slice?_eq (by simpa [espGeometry] using ht₁) hfat.symm

omit hc in
theorem slice?_root_espBytes :
    slice? (espBytes efi script fat) (espGeometry (espFatSectors (espClusters efi script))).rootOffset (512 * 32) =
      some (padTo 16384 (rootDirEntries (efiFirst + chainLen efi.length) script.length).flatten) :=
  (holds_root hfat).slice?_eq (length_padTo (by rw [length_rootDirEntries]; decide)).symm

/-- With either table the reader ends up in the root directory. -/
private theorem readFile_espBytes {k : Nat} (hk : k < 2) (path : List (List Nat)) :
    readFile (espBytes efi script fat) k path =
      readPath (espBytes efi script fat) (espGeometry (espFatSectors (espClusters efi script))) fat
        (padTo 16384 (rootDirEntries (efiFirst + chainLen efi.length) script.length).flatten) path := by
  unfold readFile
  rw [readGeometry_espBytes hc]
  simp only [Option.bind_eq_bind, Option.bind_some, readTable_espBytes hfat hk]
  rw [show (espGeometry (espFatSectors (espClusters efi script))).rootEntries = 512 from rfl,
    slice?_root_espBytes hfat, Option.bind_some]

variable (hentry : ∀ j, entry fat j = tableEntry (chainLen efi.length) (chainLen script.length) j)
include hentry

/-- Every run of the table reads as its region of the data area. -/
private theorem readChain_espBytes {first n : Nat} {data : Bytes} (hfirst : 2 ≤ first) (hn : 0 < n)
    (hmax : first + n ≤ espClusters efi script + 2)
    (hrun : ∀ j, first ≤ j → j < first + n →
      tableEntry (chainLen efi.length) (chainLen script.length) j = runEntry first n j)
    (hdata : data.length = n * 2048)
    (hold : Holds (padTo 2048 efiDirEntries.flatten ++ padTo 2048 (bootDirEntries efi.length).flatten ++
      padTo (chainLen efi.length * 2048) efi ++ padTo (chainLen script.length * 2048) script)
      ((first - 2) * 2048) data) :
    readChain (espBytes efi script fat) (espGeometry (espFatSectors (espClusters efi script))) fat first =
      some data := by
  have hroom := espFatSectors_room (espClusters efi script)
  have hm : fatMaxClusters = 4084 := rfl
  have hcs : (espGeometry (espFatSectors (espClusters efi script))).clusterSize = 2048 := by
    simp only [Geometry.clusterSize, espGeometry]
  refine readChain_run hfirst hn (by omega) (by omega) ?_ (by rw [hcs, hdata]) ?_
  · intro j h₁ h₂
    rw [hentry, hrun j h₁ h₂]
  · rw [hcs]
    exact (holds_data hfat).sub hold

theorem readChain_efiDir :
    readChain (espBytes efi script fat) (espGeometry (espFatSectors (espClusters efi script))) fat efiDir =
      some (padTo 2048 efiDirEntries.flatten) := by
  refine readChain_espBytes hfat hc hentry (n := 1) (by decide) (by decide) ?_ ?_ ?_ ?_
  · simp only [espClusters, efiDir]; omega
  · exact fun j => (tableEntry_runs _ _ j).1
  · exact length_padTo (by rw [length_efiDirEntries]; decide)
  · iterate 2 apply Holds.append
    exact Holds.first _

theorem readChain_bootDir :
    readChain (espBytes efi script fat) (espGeometry (espFatSectors (espClusters efi script))) fat bootDir =
      some (padTo 2048 (bootDirEntries efi.length).flatten) := by
  refine readChain_espBytes hfat hc hentry (n := 1) (by decide) (by decide) ?_ ?_ ?_ ?_
  · simp only [espClusters, bootDir]; omega
  · exact fun j => (tableEntry_runs _ _ j).2.1
  · exact length_padTo (by rw [length_bootDirEntries]; decide)
  · iterate 2 apply Holds.append
    exact Holds.last (length_padTo (by rw [length_efiDirEntries]; decide))

private theorem readChain_efi :
    readChain (espBytes efi script fat) (espGeometry (espFatSectors (espClusters efi script))) fat efiFirst =
      some (padTo (chainLen efi.length * 2048) efi) := by
  refine readChain_espBytes hfat hc hentry (by decide) (chainLen_pos efi.length) ?_ ?_ ?_ ?_
  · simp only [espClusters, efiFirst]; omega
  · exact fun j => (tableEntry_runs _ _ j).2.2.1
  · exact length_padTo (le_chainLen _)
  · apply Holds.append
    refine Holds.last ?_
    rw [List.length_append, length_padTo (by rw [length_efiDirEntries]; decide),
      length_padTo (by rw [length_bootDirEntries]; decide)]
    rfl

private theorem readChain_script :
    readChain (espBytes efi script fat) (espGeometry (espFatSectors (espClusters efi script))) fat
      (efiFirst + chainLen efi.length) = some (padTo (chainLen script.length * 2048) script) := by
  refine readChain_espBytes hfat hc hentry ?_ (chainLen_pos script.length) ?_ ?_ ?_ ?_
  · simp only [efiFirst]; omega
  · simp only [espClusters, efiFirst]; omega
  · exact fun j => (tableEntry_runs _ _ j).2.2.2
  · exact length_padTo (le_chainLen _)
  · refine Holds.last ?_
    rw [List.length_append, List.length_append, length_padTo (by rw [length_efiDirEntries]; decide),
      length_padTo (by rw [length_bootDirEntries]; decide), length_padTo (le_chainLen _)]
    simp only [efiFirst]
    omega

end Image

private theorem slice?_padTo {n : Nat} (b : Bytes) : slice? (padTo n b) 0 b.length = some b :=
  (Holds.first _).slice?_eq rfl

/-- The sizes and clusters in the directory entries fit into their fields. -/
theorem lt_of_espClusters_le {efi script : Bytes} (hc : espClusters efi script ≤ fatMaxClusters) :
    efi.length < 4294967296 ∧ script.length < 4294967296 ∧ efiFirst + chainLen efi.length < 65536 := by
  have hm : fatMaxClusters = 4084 := rfl
  have hcl : espClusters efi script = chainLen efi.length + chainLen script.length + 2 := rfl
  have hefi := le_chainLen efi.length
  have hscript := le_chainLen script.length
  have hfirst : efiFirst = 4 := rfl
  omega

/-- The script in an image, read by either copy of the table. -/
theorem readFile_autoexec {efi script img : Bytes} (himg : buildESPImage efi script = .ok img) {k : Nat}
    (hk : k < 2) :
    readFile img k [units "autoexec.ipxe"] = some script := by
  obtain ⟨hc, fat, hlen, hentry, rfl⟩ := exists_espBytes himg
  obtain ⟨-, hscript, hfirst⟩ := lt_of_espClusters_le hc
  rw [readFile_espBytes hlen hc hk]
  simp [readPath, lookup_autoexec hfirst hscript, readChain_script hlen hc hentry, slice?_padTo]

/-- The file round trip: whichever copy of the table is used, the reader finds exactly the two files that went
into the image. -/
theorem readFile_buildESPImage (efi script img : Bytes) (himg : buildESPImage efi script = .ok img) (k : Nat)
    (hk : k < 2) :
    readFile img k [units "EFI", units "BOOT", units "BOOTX64.EFI"] = some efi ∧
      readFile img k [units "autoexec.ipxe"] = some script := by
  refine ⟨?_, readFile_autoexec himg hk⟩
  obtain ⟨hc, fat, hlen, hentry, rfl⟩ := exists_espBytes himg
  obtain ⟨hefi, hscript, hfirst⟩ := lt_of_espClusters_le hc
  rw [readFile_espBytes hlen hc hk]
  simp [readPath, lookup_EFI hfirst hscript, lookup_BOOT, lookup_BOOTX64 hefi, readChain_efiDir hlen hc hentry,
    readChain_bootDir hlen hc hentry, readChain_efi hlen hc hentry, slice?_padTo]

/-- Two one-byte files. -/
theorem readFile_buildESPImage_small : ∃ img, buildESPImage [0x4D] [0x23] = .ok img ∧
    readFile img 1 [units "EFI", units "BOOT", units "BOOTX64.EFI"] = some [0x4D] ∧
      readFile img 1 [units "autoexec.ipxe"] = some [0x23] := by
  obtain ⟨fat, -, -, -, h⟩ := buildESPImage_eq [0x4D] [0x23] (by decide) (by decide)
  exact ⟨_, h, readFile_buildESPImage _ _ _ h 1 (by decide)⟩

end MaasBoot
