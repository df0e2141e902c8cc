import MaasBoot.FatTable

/-!
# The layout of the image

All writes of `buildESPImage` go from the front of the image to its back, so the image is the concatenation of
the boot sector, the two copies of the table, the root directory, the two directory clusters and the two files,
each file padded to whole clusters (`buildESPImage_eq`).
-/

namespace MaasBoot

/-! ### Sizes -/

/-- The number of allocated clusters: two directories and the two files. -/
def espClusters (efi script : Bytes) : Nat := chainLen efi.length + chainLen script.length + 2

/-- Sectors of one copy of the table for `clusters` clusters. -/
def espFatSectors (clusters : Nat) : Nat := (((clusters + 2) * 3 + 1) / 2 + fatSectorSize - 1) / fatSectorSize

def espTotalSectors (clusters : Nat) : Nat :=
  1 + 2 * espFatSectors clusters + fatRootSectors + clusters * fatClusterSectors

theorem chainLen_pos (n : Nat) : 0 < chainLen n := by
  unfold chainLen
  dsimp only
  generalize (n + fatClusterSize - 1) / fatClusterSize = c
  split <;> omega

/-- The clusters of a file hold its bytes. -/
theorem le_chainLen (n : Nat) : n ≤ chainLen n * 2048 := by
  unfold chainLen fatClusterSize fatSectorSize fatClusterSectors; dsimp only; split <;> omega

/-- The table has room for the entry of every cluster. -/
theorem espFatSectors_room (clusters : Nat) : (clusters + 2) * 3 ≤ 2 * (espFatSectors clusters * 512) := by
  unfold espFatSectors fatSectorSize; omega

theorem espFatSectors_le {clusters : Nat} (h : clusters ≤ fatMaxClusters) : espFatSectors clusters ≤ 12 := by
  unfold espFatSectors fatSectorSize; unfold fatMaxClusters at h; omega

/-! ### The parts -/

def bootSectorBytes (totalSectors fatSectors : Nat) : Bytes :=
  [0xEB, 0x3C, 0x90] ++ str "IPXEBOOT" ++ le16 fatSectorSize ++ [UInt8.ofNat fatClusterSectors] ++ le16 1 ++ [2] ++
    le16 fatRootEntries ++ le16 totalSectors ++ [0xF8] ++ le16 fatSectors ++ le16 32 ++ le16 64 ++ zeros 8 ++
    [0x80] ++ zeros 1 ++ [0x29] ++ le32 0x1A2B3C4D ++ str "IPXEBOOT   " ++ str "FAT12   " ++ zeros 448 ++ [0x55, 0xAA]

theorem bootSector_eq (totalSectors fatSectors : Nat) :
    bootSector totalSectors fatSectors = .ok (bootSectorBytes totalSectors fatSectors) := by
  have h8 : (str "IPXEBOOT").length = 8 := by decide
  have h11 : (str "IPXEBOOT   ").length = 11 := by decide
  have h8' : (str "FAT12   ").length = 8 := by decide
  have hs : fatSectorSize = 512 := rfl
  unfold bootSector bootSectorBytes
  generalize str "IPXEBOOT" = s₁ at *
  generalize str "IPXEBOOT   " = s₂ at *
  generalize str "FAT12   " = s₃ at *
  simp only [hs, copyAt_start, copyAt_next, putAt_next, ok_bind, List.length_append, List.length_cons,
    List.length_nil, length_le16, length_le32, length_zeros, h8, h8', h11, Nat.reduceAdd, Nat.reduceSub,
    Nat.reduceLeDiff, zeros_zero, List.append_nil]

theorem length_bootSectorBytes (totalSectors fatSectors : Nat) :
    (bootSectorBytes totalSectors fatSectors).length = 512 := by
  have h8 : (str "IPXEBOOT").length = 8 := by decide
  have h11 : (str "IPXEBOOT   ").length = 11 := by decide
  have h8' : (str "FAT12   ").length = 8 := by decide
  unfold bootSectorBytes
  generalize str "IPXEBOOT" = s₁ at *
  generalize str "IPXEBOOT   " = s₂ at *
  generalize str "FAT12   " = s₃ at *
  simp only [List.length_append, List.length_cons, List.length_nil, length_le16, length_le32,
    length_zeros, h8, h8', h11, Nat.reduceAdd]

def dirEntryBytes (name : Bytes) (attr : UInt8) (first size : Nat) : Bytes :=
  name ++ [attr] ++ zeros 4 ++ le16 fatDate ++ le16 fatDate ++ zeros 4 ++ le16 fatDate ++ le16 first ++ le32 size

theorem length_shortName (base ext : Bytes) : (shortName base ext).length = 11 := by
  have h3 : (ext.take 3).length ≤ 3 := List.length_take_le 3 ext
  have hb : (overwrite (List.replicate 11 0x20) 0 (base.take 8)).length = 11 := by
    rw [length_overwrite (by simp), List.length_replicate]
  unfold shortName
  rw [length_overwrite (by omega), hb]

theorem fatDirEntry_eq (base ext : Bytes) (attr : UInt8) (first size : Nat) :
    fatDirEntry (shortName base ext) attr first size = .ok (dirEntryBytes (shortName base ext) attr first size) := by
  unfold fatDirEntry dirEntryBytes
  simp only [copyAt_start, putAt_next, ok_bind, List.length_append, List.length_cons, List.length_nil, length_le16,
    length_le32, length_zeros, length_shortName, Nat.reduceAdd, Nat.reduceSub, Nat.reduceLeDiff, zeros_zero,
    List.append_nil]

theorem length_dirEntryBytes (base ext : Bytes) (attr : UInt8) (first size : Nat) :
    (dirEntryBytes (shortName base ext) attr first size).length = 32 := by
  simp [dirEntryBytes, length_shortName]

/-- A long-name entry: the code units stand in three groups around the attribute and the checksum. -/
def lfnEntryBytes (chars : List Nat) (sum : UInt8) : Bytes :=
  [0x41] ++ (chars.take 5).flatMap le16 ++ [attrLFN, 0, sum] ++ ((chars.drop 5).take 6).flatMap le16 ++ zeros 2 ++
    (chars.drop 11).flatMap le16

theorem fatLFNEntry_eq (long : List Char) (short : Bytes) :
    fatLFNEntry long short = .ok (lfnEntryBytes (lfnChars long) (lfnChecksum short)) := by
  have ho : lfnOffsets = [1, 3, 5, 7, 9, 14, 16, 18, 20, 22, 24, 28, 30] := by decide
  unfold fatLFNEntry
  rw [ho]
  generalize lfnChecksum short = s
  -- thirteen writes into a buffer of known length
  simp [putAt, overwrite, zeros, le16, lfnChars, lfnEntryBytes, List.range_succ, ok_bind]

theorem length_lfnEntryBytes {chars : List Nat} (sum : UInt8) (h : chars.length = 13) :
    (lfnEntryBytes chars sum).length = 32 := by
  simp [lfnEntryBytes, h]

/-- The sequence byte, the attribute and the checksum. -/
theorem byteAt_lfnEntryBytes {chars : List Nat} (sum : UInt8) (h : chars.length = 13) :
    byteAt (lfnEntryBytes chars sum) 0 = 0x41 ∧ byteAt (lfnEntryBytes chars sum) 11 = attrLFN ∧
      byteAt (lfnEntryBytes chars sum) 13 = sum := by
  have f : Holds (lfnEntryBytes chars sum) 11 [attrLFN, 0, sum] := by
    unfold lfnEntryBytes
    iterate 3 apply Holds.append
    exact Holds.last (by simp [h])
  have f11 : Holds (lfnEntryBytes chars sum) (11 + 0) [attrLFN] := f.sub ⟨[], [0, sum], rfl, rfl⟩
  have f13 : Holds (lfnEntryBytes chars sum) (11 + 2) [sum] := f.sub ⟨[attrLFN, 0], [], rfl, rfl⟩
  exact ⟨rfl, f11.byteAt_eq, f13.byteAt_eq⟩

def scriptShort : Bytes := shortName (str "AUTOEXEC") (str "IPX")

def rootDirEntries (scriptFirst scriptLen : Nat) : List Bytes :=
  [lfnEntryBytes (lfnChars autoexecName) (lfnChecksum scriptShort),
    dirEntryBytes scriptShort attrArchive scriptFirst scriptLen,
    dirEntryBytes (shortName (str "EFI") []) attrDir efiDir 0]

def efiDirEntries : List Bytes :=
  [dirEntryBytes (shortName (str ".") []) attrDir efiDir 0, dirEntryBytes (shortName (str "..") []) attrDir 0 0,
    dirEntryBytes (shortName (str "BOOT") []) attrDir bootDir 0]

def bootDirEntries (efiLen : Nat) : List Bytes :=
  [dirEntryBytes (shortName (str ".") []) attrDir bootDir 0, dirEntryBytes (shortName (str "..") []) attrDir efiDir 0,
    dirEntryBytes (shortName (str "BOOTX64") (str "EFI")) attrArchive efiFirst efiLen]

/-- `b`, padded with zeros to `n` bytes. -/
def padTo (n : Nat) (b : Bytes) : Bytes := b ++ zeros (n - b.length)

theorem length_padTo {n : Nat} {b : Bytes} (h : b.length ≤ n) : (padTo n b).length = n := by
  simp [padTo]; omega

theorem copyAt_padTo {n : Nat} {b : Bytes} (h : b.length ≤ n) : copyAt (zeros n) 0 b = .ok (padTo n b) := by
  rw [copyAt_start h, padTo]

/-- The whole image, for a given table. -/
def espBytes (efi script fat : Bytes) : Bytes :=
  bootSectorBytes (espTotalSectors (espClusters efi script)) (espFatSectors (espClusters efi script)) ++ fat ++ fat ++
    padTo 16384 (rootDirEntries (efiFirst + chainLen efi.length) script.length).flatten ++
    padTo 2048 efiDirEntries.flatten ++ padTo 2048 (bootDirEntries efi.length).flatten ++
    padTo (chainLen efi.length * 2048) efi ++ padTo (chainLen script.length * 2048) script

/-! ### The writes -/

/-- Entries written one after another behind everything written so far. -/
theorem put_after {p : Bytes} {es : List Bytes} : ∀ {n o : Nat} (gap rest : Nat), o = p.length + gap →
    n = gap + es.flatten.length + rest → es ≠ [] →
    put (p ++ zeros n) o es = .ok (p ++ zeros gap ++ es.flatten ++ zeros rest) := by
  induction es generalizing p with
  | nil => intro _ _ _ _ _ _ h; exact absurd rfl h
  | cons e es ih =>
    intro n o gap rest ho hn _
    simp only [List.flatten_cons, List.length_append] at hn
    unfold put
    rw [copyAt_after gap (es.flatten.length + rest) ho (by omega), ok_bind]
    have hmin : min ((p ++ zeros n).length - o) e.length = e.length := by simp; omega
    rw [hmin]
    cases es with
    | nil => simp [put]
    | cons e' es =>
      rw [ih 0 rest (by simp; omega) (by simp) (by simp)]
      simp [zeros_zero]

theorem length_rootDirEntries (first size : Nat) : (rootDirEntries first size).flatten.length = 96 := by
  have hc : (lfnChars autoexecName).length = 13 := by simp [lfnChars]
  simp only [rootDirEntries, List.flatten_cons, List.flatten_nil, List.length_append, length_lfnEntryBytes _ hc,
    scriptShort, length_dirEntryBytes, List.length_nil]

theorem length_efiDirEntries : efiDirEntries.flatten.length = 96 := by
  simp only [efiDirEntries, List.flatten_cons, List.flatten_nil, List.length_append, length_dirEntryBytes,
    List.length_nil]

theorem length_bootDirEntries (size : Nat) : (bootDirEntries size).flatten.length = 96 := by
  simp only [bootDirEntries, List.flatten_cons, List.flatten_nil, List.length_append, length_dirEntryBytes,
    List.length_nil]

/-- The writes to the image, once the parts are built. -/
private theorem writes_eq {efi script fat : Bytes}
    (hfat : fat.length = espFatSectors (espClusters efi script) * 512) :
    (do
      let img ← putAt (zeros (espTotalSectors (espClusters efi script) * 512)) 0
        (bootSectorBytes (espTotalSectors (espClusters efi script)) (espFatSectors (espClusters efi script)))
      let img ← copyAt img 512 fat
      let img ← copyAt img ((1 + espFatSectors (espClusters efi script)) * 512) fat
      let img ← put img ((1 + 2 * espFatSectors (espClusters efi script)) * 512)
        (rootDirEntries (efiFirst + chainLen efi.length) script.length)
      let img ← put img ((1 + 2 * espFatSectors (espClusters efi script) + 32) * 512) efiDirEntries
      let img ← put img ((1 + 2 * espFatSectors (espClusters efi script) + 36) * 512) (bootDirEntries efi.length)
      let img ← copyAt img ((1 + 2 * espFatSectors (espClusters efi script) + 40) * 512) efi
      copyAt img ((1 + 2 * espFatSectors (espClusters efi script) + 40 + chainLen efi.length * 4) * 512) script) =
    (.ok (espBytes efi script fat) : Go Bytes) := by
  have hefi := le_chainLen efi.length
  have hscript := le_chainLen script.length
  have hroot := length_rootDirEntries (efiFirst + chainLen efi.length) script.length
  have hefid := length_efiDirEntries
  have hbootd := length_bootDirEntries efi.length
  have htotal : espTotalSectors (espClusters efi script) =
      1 + 2 * espFatSectors (espClusters efi script) + 32 +
        (chainLen efi.length + chainLen script.length + 2) * 4 := rfl
  have hbs := length_bootSectorBytes (espTotalSectors (espClusters efi script))
    (espFatSectors (espClusters efi script))
  unfold espBytes padTo
  generalize rootDirEntries (efiFirst + chainLen efi.length) script.length = root at *
  generalize efiDirEntries = efid at *
  generalize bootDirEntries efi.length = bootd at *
  generalize bootSectorBytes (espTotalSectors (espClusters efi script)) (espFatSectors (espClusters efi script)) =
    bs at *
  generalize espTotalSectors (espClusters efi script) = total at *
  generalize espFatSectors (espClusters efi script) = fs at *
  generalize chainLen efi.length = efiCl at *
  generalize chainLen script.length = scriptCl at *
  have hne : ∀ es : List Bytes, es.flatten.length = 96 → es ≠ [] := by
    intro es h he; subst he; simp at h
  rw [putAt_start (by omega), ok_bind]
  rw [copyAt_after 0 (total * 512 - 512 - fs * 512) (by omega) (by omega), ok_bind]
  rw [copyAt_after 0 (total * 512 - 512 - 2 * (fs * 512))
    (by simp only [List.length_append, length_zeros, *]; omega) (by omega), ok_bind]
  rw [put_after 0 (total * 512 - 512 - 2 * (fs * 512) - 96)
    (by simp only [List.length_append, length_zeros, *]; omega) (by omega) (hne _ hroot), ok_bind]
  rw [put_after (16384 - 96) (total * 512 - 512 - 2 * (fs * 512) - 16384 - 96)
    (by simp only [List.length_append, length_zeros, *]; omega) (by omega) (hne _ hefid), ok_bind]
  rw [put_after (2048 - 96) (total * 512 - 512 - 2 * (fs * 512) - 16384 - 2048 - 96)
    (by simp only [List.length_append, length_zeros, *]; omega) (by omega) (hne _ hbootd), ok_bind]
  rw [copyAt_after (2048 - 96) (efiCl * 2048 - efi.length + scriptCl * 2048)
    (by simp only [List.length_append, length_zeros, *]; omega) (by omega), ok_bind]
  rw [copyAt_after (efiCl * 2048 - efi.length) (scriptCl * 2048 - script.length)
    (by simp only [List.length_append, length_zeros, *]; omega) (by omega)]
  simp only [zeros_zero, List.append_nil, List.append_assoc, hroot, hefid, hbootd]

/-- When the content fits, the image is built, and it is the concatenation of its parts. -/
theorem buildESPImage_eq (efi script : Bytes) (hs : script ≠ []) (hc : espClusters efi script ≤ fatMaxClusters) :
    ∃ fat, fatTable (espFatSectors (espClusters efi script)) (chainLen efi.length) (chainLen script.length) =
      .ok fat ∧ fat.length = espFatSectors (espClusters efi script) * 512 ∧
      (∀ j, Fat.entry fat j = tableEntry (chainLen efi.length) (chainLen script.length) j) ∧
      buildESPImage efi script = .ok (espBytes efi script fat) := by
  have hroom := espFatSectors_room (espClusters efi script)
  have hmax : fatMaxClusters = 4084 := rfl
  have hcl : espClusters efi script = chainLen efi.length + chainLen script.length + 2 := rfl
  obtain ⟨fat, hfat, hlen, hentry⟩ := fatTable_spec (espFatSectors (espClusters efi script)) (chainLen efi.length)
    (chainLen script.length) (by simp only [efiFirst, fatSectorSize]; omega) (by simp only [efiFirst]; omega)
  refine ⟨fat, hfat, hlen, hentry, ?_⟩
  rw [← writes_eq hlen]
  have hclusters : efiFirst + chainLen efi.length + chainLen script.length - 2 = espClusters efi script := by
    simp only [efiFirst]; omega
  have hfs : (((espClusters efi script + 2) * 3 + 1) / 2 + fatSectorSize - 1) / fatSectorSize =
      espFatSectors (espClusters efi script) := rfl
  have hdata : ∀ fs, (1 + 2 * fs + fatRootSectors + (efiFirst + chainLen efi.length - 2) * fatClusterSectors) =
      1 + 2 * fs + 40 + chainLen efi.length * 4 := by
    intro fs
    simp only [show fatRootSectors = 32 from rfl, efiFirst, fatClusterSectors]
    omega
  unfold buildESPImage
  dsimp only
  rw [if_neg (by simpa using hs), hclusters, if_neg (by omega)]
  simp only [hfs, bootSector_eq, hfat, fatLFNEntry_eq, fatDirEntry_eq, ok_bind, hdata]
  rfl

/-- An image is only built from a script that is not empty and from files that fit a FAT12 volume. -/
theorem of_buildESPImage_eq_ok {efi script img : Bytes} (h : buildESPImage efi script = .ok img) :
    script ≠ [] ∧ espClusters efi script ≤ fatMaxClusters := by
  have hclusters : efiFirst + chainLen efi.length + chainLen script.length - 2 = espClusters efi script := by
    simp only [efiFirst, espClusters]; omega
  unfold buildESPImage at h
  dsimp only at h
  rw [hclusters] at h
  by_cases hs : script.length = 0
  · rw [if_pos hs] at h; cases h
  · rw [if_neg hs] at h
    by_cases hc : espClusters efi script > fatMaxClusters
    · rw [if_pos hc] at h; cases h
    · exact ⟨by simpa using hs, by omega⟩

/-- An image that was built is the concatenation of its parts. -/
theorem exists_espBytes {efi script img : Bytes} (h : buildESPImage efi script = .ok img) :
    espClusters efi script ≤ fatMaxClusters ∧ ∃ fat, fat.length = espFatSectors (espClusters efi script) * 512 ∧
      (∀ j, Fat.entry fat j = tableEntry (chainLen efi.length) (chainLen script.length) j) ∧
      espBytes efi script fat = img := by
  obtain ⟨hs, hc⟩ := of_buildESPImage_eq_ok h
  obtain ⟨fat, -, hlen, hentry, himg⟩ := buildESPImage_eq efi script hs hc
  rw [himg] at h
  exact ⟨hc, fat, hlen, hentry, Except.ok.inj h⟩

theorem length_espBytes {efi script fat : Bytes} (hfat : fat.length = espFatSectors (espClusters efi script) * 512) :
    (espBytes efi script fat).length = espTotalSectors (espClusters efi script) * 512 := by
  have hroot := length_rootDirEntries (efiFirst + chainLen efi.length) script.length
  have hefid := length_efiDirEntries
  have hbootd := length_bootDirEntries efi.length
  simp only [espBytes, List.length_append, length_bootSectorBytes, hfat, length_padTo (le_chainLen _)]
  rw [length_padTo (by omega), length_padTo (by omega), length_padTo (by omega)]
  simp only [espTotalSectors, espClusters, show fatRootSectors = 32 from rfl, fatClusterSectors]
  omega

end MaasBoot
