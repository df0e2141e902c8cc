import MaasBoot.IsoLayout
import MaasBoot.IsoReader

/-!
# Reading the boot ISO back

Firmware and a file system driver find the same partition image in every boot ISO, whatever its size: the load
address and sector count of the boot catalog, the extent and size in the root directory and the size of the volume
describe the same bytes, and no number is cut off by the width of its field.
-/

namespace MaasBoot

open Iso

/-! ### The sectors of the image -/

section Sectors

variable (esp : Bytes)

private theorem holds_pvd : Holds (isoBytes esp) (16 * 2048)
    (pvdBytes (lbaESP + espBlocks esp.length) rootRecord (pathTable .littleEndian)) := by
  unfold isoBytes
  iterate 7 apply Holds.append
  exact Holds.last (length_zeros _)

private theorem length_pvd :
    (pvdBytes (lbaESP + espBlocks esp.length) rootRecord (pathTable .littleEndian)).length = 2048 :=
  length_pvdBytes _ _ length_rootRecord

private theorem holds_bootRecord : Holds (isoBytes esp) (17 * 2048) bootRecordBytes := by
  unfold isoBytes
  iterate 6 apply Holds.append
  exact Holds.last (by simp only [List.length_append, length_zeros, length_pvd])

private theorem holds_catalog : Holds (isoBytes esp) (19 * 2048) (catalogBytes esp.length) := by
  unfold isoBytes
  iterate 4 apply Holds.append
  exact Holds.last (by simp only [List.length_append, length_zeros, length_pvd, length_bootRecordBytes,
    length_terminatorBytes])

private theorem length_rootSector : (padTo 2048 (rootRecords esp.length).flatten).length = 2048 :=
  length_padTo (by rw [length_rootRecords]; decide)

private theorem holds_rootSector :
    Holds (isoBytes esp) (20 * 2048) (padTo 2048 (rootRecords esp.length).flatten) := by
  unfold isoBytes
  iterate 3 apply Holds.append
  exact Holds.last (by simp only [List.length_append, length_zeros, length_pvd, length_bootRecordBytes,
    length_terminatorBytes, length_catalogBytes])

/-- What stands at the start of a padded region. -/
private theorem holds_of_padTo {img b : Bytes} {o n : Nat} (h : Holds img o (padTo n b)) : Holds img o b := h.left

private theorem length_pathSector (order : ByteOrder) : (padTo 2048 (pathTable order)).length = 2048 :=
  length_padTo (by rw [length_pathTable]; decide)

private theorem holds_lPathTable : Holds (isoBytes esp) (21 * 2048) (pathTable .littleEndian) := by
  refine holds_of_padTo (n := 2048) ?_
  unfold isoBytes
  iterate 2 apply Holds.append
  exact Holds.last (by simp only [List.length_append, length_zeros, length_pvd, length_bootRecordBytes,
    length_terminatorBytes, length_catalogBytes, length_rootSector])

private theorem holds_mPathTable : Holds (isoBytes esp) (22 * 2048) (pathTable .bigEndian) := by
  refine holds_of_padTo (n := 2048) ?_
  unfold isoBytes
  apply Holds.append
  exact Holds.last (by simp only [List.length_append, length_zeros, length_pvd, length_bootRecordBytes,
    length_terminatorBytes, length_catalogBytes, length_rootSector, length_pathSector])

private theorem holds_esp : Holds (isoBytes esp) (23 * 2048) esp := by
  refine holds_of_padTo (n := espBlocks esp.length * 2048) ?_
  unfold isoBytes
  exact Holds.last (by simp only [List.length_append, length_zeros, length_pvd, length_bootRecordBytes,
    length_terminatorBytes, length_catalogBytes, length_rootSector, length_pathSector])

end Sectors

/-! ### Fields in both byte orders -/

theorem both16At_eq {b : Bytes} {o v : Nat} (h : Holds b o (le16 v ++ be16 v)) (hv : v < 65536) :
    both16At b o = some v := by
  have hl : le16At b o = v := by
    rw [h.left.le16At_eq, Nat.mod_eq_of_lt hv]
  have hb : be16At b (o + 2) = v := by
    rw [(h.right (length_le16 v)).be16At_eq, Nat.mod_eq_of_lt hv]
  unfold both16At
  rw [hl, hb, if_pos rfl]

theorem both32At_eq {b : Bytes} {o v : Nat} (h : Holds b o (le32 v ++ be32 v)) (hv : v < 4294967296) :
    both32At b o = some v := by
  have hl : le32At b o = v := by
    rw [h.left.le32At_eq, Nat.mod_eq_of_lt hv]
  have hb : be32At b (o + 4) = v := by
    rw [(h.right (length_le32 v)).be32At_eq, Nat.mod_eq_of_lt hv]
  unfold both32At
  rw [hl, hb, if_pos rfl]

/-! ### The root directory -/

theorem readRecord_recordBytes {id : Bytes} {extent size : Nat} (flags : UInt8) (pad : Nat) (hid : id.length < 256)
    (hextent : extent < 4294967296) (hsize : size < 4294967296) :
    readRecord (recordBytes id extent size flags pad) =
      some { id := id, extent := extent, size := size, isDir := flags &&& 2 ≠ 0 } := by
  have f2 : Holds (recordBytes id extent size flags pad) 2 (le32 extent ++ be32 extent) := by
    unfold recordBytes
    iterate 8 apply Holds.append
    exact Holds.last (by simp)
  have f10 : Holds (recordBytes id extent size flags pad) 10 (le32 size ++ be32 size) := by
    unfold recordBytes
    iterate 7 apply Holds.append
    exact Holds.last (by simp)
  have f25 : Holds (recordBytes id extent size flags pad) 25 [flags] := by
    unfold recordBytes
    iterate 5 apply Holds.append
    exact Holds.last (by simp)
  have f28 : Holds (recordBytes id extent size flags pad) 28 (le16 1 ++ be16 1) := by
    unfold recordBytes
    iterate 3 apply Holds.append
    exact Holds.last (by simp)
  have f32 : Holds (recordBytes id extent size flags pad) 32 [UInt8.ofNat id.length] := by
    unfold recordBytes
    iterate 2 apply Holds.append
    exact Holds.last (by simp)
  have f33 : Holds (recordBytes id extent size flags pad) 33 id := by
    unfold recordBytes
    apply Holds.append
    exact Holds.last (by simp)
  have hlen : (UInt8.ofNat id.length).toNat = id.length := UInt8.toNat_ofNat_of_lt' hid
  unfold readRecord
  rw [both32At_eq f2 hextent, both32At_eq f10 hsize, both16At_eq f28 (by decide), f32.byteAt_eq, f25.byteAt_eq, hlen,
    f33.slice?_eq rfl]
  rfl

/-- A walk takes one record and goes on behind it. -/
theorem walk_recordBytes {id : Bytes} {extent size pad : Nat} (fuel : Nat) (flags : UInt8) (rest : Bytes)
    (hid : 33 + id.length + pad < 256) (hextent : extent < 4294967296) (hsize : size < 4294967296) :
    walk (fuel + 1) (recordBytes id extent size flags pad ++ rest) =
      (walk fuel rest).map
        ({ id := id, extent := extent, size := size, isDir := flags &&& 2 ≠ 0 } :: ·) := by
  have hl := length_recordBytes id extent size flags pad
  have hr := readRecord_recordBytes flags pad (show id.length < 256 by omega) hextent hsize
  obtain ⟨tail, ht⟩ : ∃ tail, recordBytes id extent size flags pad = UInt8.ofNat (33 + id.length + pad) :: tail := by
    unfold recordBytes
    simp only [List.append_assoc, List.cons_append, List.nil_append]
    exact ⟨_, rfl⟩
  have hn : (UInt8.ofNat (33 + id.length + pad)).toNat = 33 + id.length + pad := UInt8.toNat_ofNat_of_lt' hid
  have hne : UInt8.ofNat (33 + id.length + pad) ≠ 0 := by
    intro h
    rw [h] at hn
    simp at hn
    omega
  have hslice : slice? (recordBytes id extent size flags pad ++ rest) 0 (33 + id.length + pad) =
      some (recordBytes id extent size flags pad) := (Holds.first rest).slice?_eq hl.symm
  have hdrop : (recordBytes id extent size flags pad ++ rest).drop (33 + id.length + pad) = rest :=
    List.drop_left' hl
  rw [ht, List.cons_append, walk, if_neg hne, hn, ← List.cons_append, ← ht, hslice, hdrop]
  simp only [Option.bind_eq_bind, Option.bind_some, hr]
  cases walk fuel rest <;> rfl

private theorem walk_zeros (fuel n : Nat) : walk (fuel + 1) (zeros (n + 1)) = some [] := by
  simp [zeros, List.replicate_succ, walk]

/-- The records of the root directory, as a driver sees them. -/
def rootListing (espLen : Nat) : List Record :=
  [{ id := [0], extent := lbaRoot, size := isoSectorSize, isDir := true },
    { id := [1], extent := lbaRoot, size := isoSectorSize, isDir := true },
    { id := espBootPath, extent := lbaESP, size := espLen, isDir := false }]

private theorem walk_rootSector {espLen : Nat} (h : espLen < 4294967296) :
    walk 2049 (padTo 2048 (rootRecords espLen).flatten) = some (rootListing espLen) := by
  have h9 : espBootPath.length = 9 := by decide
  unfold padTo
  rw [length_rootRecords]
  unfold rootRecords
  simp only [List.flatten_cons, List.flatten_nil, List.append_nil, List.append_assoc]
  rw [walk_recordBytes _ _ _ (by simp) (by decide) (by decide),
    walk_recordBytes _ _ _ (by simp) (by decide) (by decide),
    walk_recordBytes _ _ _ (by rw [h9]; decide) (by decide) h]
  rw [show 2048 - 110 = 1937 + 1 from rfl, walk_zeros]
  rfl

private theorem readDirectory_isoBytes {esp : Bytes} (h : esp.length < 4294967296) :
    readDirectory (isoBytes esp) { id := [0], extent := lbaRoot, size := isoSectorSize, isDir := true } =
      some (rootListing esp.length) := by
  have hs := (holds_rootSector esp).slice?_eq (length_rootSector esp).symm
  have hw := walk_rootSector h
  unfold readDirectory
  rw [show isoSectorSize / 2048 = 1 from rfl, show lbaRoot = 20 from rfl]
  simp only [List.range_one, List.mapM_cons, List.mapM_nil, Nat.add_zero, hs, Option.bind_eq_bind, Option.bind_some,
    length_rootSector, hw, Option.pure_def, List.flatten_cons, List.flatten_nil, List.append_nil]

/-! ### The volume -/

/-- What the volume descriptor says. -/
def espVolume (espLen : Nat) : Volume :=
  { blocks := lbaESP + espBlocks espLen, blockSize := isoSectorSize, pathTableSize := 10, lPathTable := lbaPathL,
    mPathTable := lbaPathM, root := { id := [0], extent := lbaRoot, size := isoSectorSize, isDir := true } }

private theorem readVolume_isoBytes {esp : Bytes} (h : lbaESP + espBlocks esp.length < 4294967296) :
    readVolume (isoBytes esp) = some (espVolume esp.length) := by
  have hs := (holds_pvd esp).slice?_eq (length_pvd esp).symm
  have h5 : (str "CD001").length = 5 := by decide
  have hr := length_rootRecord
  have hroot : readRecord rootRecord = some { id := [0], extent := lbaRoot, size := isoSectorSize, isDir := true } :=
    readRecord_recordBytes 2 0 (by decide) (by decide) (by decide)
  unfold readVolume espVolume
  rw [hs]
  simp only [Option.bind_eq_bind, Option.bind_some]
  generalize lbaESP + espBlocks esp.length = total at *
  generalize rootRecord = rootRec at *
  generalize hpvd : pvdBytes total rootRec (pathTable .littleEndian) = pvd
  unfold pvdBytes at hpvd
  rw [length_pathTable] at hpvd
  generalize str "CD001" = s₁ at *
  have f0 : Holds pvd 0 [1] := by
    subst hpvd; iterate 29 apply Holds.append
    exact Holds.first _
  have f1 : Holds pvd 1 s₁ := by
    subst hpvd; iterate 29 apply Holds.append
    exact Holds.last rfl
  have f6 : Holds pvd 6 [1] := by
    subst hpvd; iterate 28 apply Holds.append
    exact Holds.last (by simp [h5])
  have f80 : Holds pvd 80 (le32 total ++ be32 total) := by
    subst hpvd; iterate 23 apply Holds.append
    exact Holds.last (by simp [h5, length_paddedText])
  have f120 : Holds pvd 120 (le16 1 ++ be16 1) := by
    subst hpvd; iterate 21 apply Holds.append
    exact Holds.last (by simp [h5, length_paddedText])
  have f124 : Holds pvd 124 (le16 1 ++ be16 1) := by
    subst hpvd; iterate 20 apply Holds.append
    exact Holds.last (by simp [h5, length_paddedText])
  have f128 : Holds pvd 128 (le16 isoSectorSize ++ be16 isoSectorSize) := by
    subst hpvd; iterate 19 apply Holds.append
    exact Holds.last (by simp [h5, length_paddedText])
  have f132 : Holds pvd 132 (le32 10 ++ be32 10) := by
    subst hpvd; iterate 18 apply Holds.append
    exact Holds.last (by simp [h5, length_paddedText])
  have f140 : Holds pvd 140 (le32 lbaPathL) := by
    subst hpvd; iterate 17 apply Holds.append
    exact Holds.last (by simp [h5, length_paddedText])
  have f148 : Holds pvd 148 (be32 lbaPathM) := by
    subst hpvd; iterate 15 apply Holds.append
    exact Holds.last (by simp [h5, length_paddedText])
  have f156 : Holds pvd 156 rootRec := by
    subst hpvd; iterate 13 apply Holds.append
    exact Holds.last (by simp [h5, length_paddedText])
  rw [if_pos ⟨f0.byteAt_eq, f1.slice_eq h5.symm, f6.byteAt_eq⟩, both32At_eq f80 h, both16At_eq f120 (by decide),
    both16At_eq f124 (by decide), both16At_eq f128 (by decide), both32At_eq f132 (by decide), f140.le32At_eq,
    f148.be32At_eq, f156.slice?_eq hr.symm]
  simp only [Option.bind_some, hroot]
  rfl

/-! ### Path tables -/

/-- The entry of the root directory. -/
def rootPathEntry : PathEntry := { id := [0], extent := lbaRoot, parent := 1 }

private theorem readLPathTable_isoBytes (esp : Bytes) :
    readLPathTable (isoBytes esp) (espVolume esp.length) = some [rootPathEntry] := by
  have hs := (holds_lPathTable esp).slice?_eq (length_pathTable _).symm
  unfold readLPathTable
  rw [show (espVolume esp.length).lPathTable = 21 from rfl, show (espVolume esp.length).pathTableSize = 10 from rfl,
    hs]
  decide

private theorem readMPathTable_isoBytes (esp : Bytes) :
    readMPathTable (isoBytes esp) (espVolume esp.length) = some [rootPathEntry] := by
  have hs := (holds_mPathTable esp).slice?_eq (length_pathTable _).symm
  unfold readMPathTable
  rw [show (espVolume esp.length).mPathTable = 22 from rfl, show (espVolume esp.length).pathTableSize = 10 from rfl,
    hs]
  decide

/-! ### The boot catalog -/

theorem wordSum_append {entry : Bytes} (rest : Bytes) (h : entry.length = 32) :
    wordSum (entry ++ rest) = wordSum entry := by
  unfold wordSum
  congr 1
  refine List.map_congr_left ?_
  intro i hi
  have hi : i < 16 := List.mem_range.mp hi
  unfold le16At
  rw [slice_append_left _ _ (by omega)]

/-- With its checksum the validation entry adds up to 0. -/
theorem wordSum_validationEntry : wordSum (validationEntry validationCheck) % 65536 = 0 := by
  decide

/-- What the boot record and the catalog have to hold for the reader to take an entry. -/
private theorem readBootEntry_of_holds {img br cat : Bytes} {lba n : Nat}
    (hbr : slice? img (17 * 2048) 2048 = some br) (hcat : slice? img (19 * 2048) 2048 = some cat)
    (b0 : Holds br 0 [0]) (b1 : Holds br 1 (str "CD001")) (b6 : Holds br 6 [1])
    (b7 : Holds br 7 (str "EL TORITO SPECIFICATION")) (b71 : Holds br 71 (le32 lbaCatalog))
    (c0 : Holds cat 0 [1]) (c1 : Holds cat 1 [0xEF]) (c30 : Holds cat 30 [0x55, 0xAA])
    (hsum : wordSum cat % 65536 = 0) (c32 : Holds cat 32 [0x88]) (c38 : Holds cat 38 (le16 n))
    (c40 : Holds cat 40 (le32 lba)) (hn : n < 65536)
    (hlba : lba < 4294967296) :
    readBootEntry img = some { loadLBA := lba, sectorCount := n } := by
  have h5 : (str "CD001").length = 5 := by decide
  have h23 : (str "EL TORITO SPECIFICATION").length = 23 := by decide
  unfold readBootEntry
  rw [hbr]
  simp only [Option.bind_eq_bind, Option.bind_some]
  rw [if_pos ⟨b0.byteAt_eq, b1.slice_eq h5.symm, b6.byteAt_eq, b7.slice_eq h23.symm⟩, b71.le32At_eq,
    show lbaCatalog % 4294967296 = 19 from rfl, hcat, Option.bind_some,
    if_pos ⟨c0.byteAt_eq, c1.byteAt_eq, c30.slice_eq rfl, hsum, c32.byteAt_eq⟩, c40.le32At_eq, c38.le16At_eq,
    Nat.mod_eq_of_lt hn, Nat.mod_eq_of_lt hlba]

private theorem readBootEntry_isoBytes {esp : Bytes} (h : esp.length / 512 < 65536) :
    readBootEntry (isoBytes esp) = some { loadLBA := lbaESP, sectorCount := esp.length / 512 } := by
  have h5 : (str "CD001").length = 5 := by decide
  have h23 : (str "EL TORITO SPECIFICATION").length = 23 := by decide
  have h14 : (str "IPXE UEFI BOOT").length = 14 := by decide
  have c0 : Holds (catalogBytes esp.length) 0 (validationEntry validationCheck) := by
    unfold catalogBytes
    iterate 4 apply Holds.append
    exact Holds.first _
  have v0 : Holds (validationEntry validationCheck) 0 ([1] ++ [0xEF]) := by
    unfold validationEntry
    iterate 4 apply Holds.append
    exact Holds.first _
  have v30 : Holds (validationEntry validationCheck) 30 [0x55, 0xAA] := by
    unfold validationEntry
    exact Holds.last (by simp [h14])
  have hsum : wordSum (catalogBytes esp.length) = wordSum (validationEntry validationCheck) := by
    unfold catalogBytes
    simp only [List.append_assoc]
    exact wordSum_append _ (length_validationEntry _)
  refine readBootEntry_of_holds ((holds_bootRecord esp).slice?_eq length_bootRecordBytes.symm)
    ((holds_catalog esp).slice?_eq (length_catalogBytes _).symm) ?_ ?_ ?_ ?_ ?_ (c0.sub v0).left
    ((c0.sub v0).right rfl) (c0.sub v30) (by rw [hsum, wordSum_validationEntry]) ?_ ?_ ?_ h (by decide)
  · unfold bootRecordBytes
    iterate 5 apply Holds.append
    exact Holds.first _
  · unfold bootRecordBytes
    iterate 5 apply Holds.append
    exact Holds.last (length_zeros 1)
  · unfold bootRecordBytes
    iterate 4 apply Holds.append
    exact Holds.last (by simp [h5])
  · unfold bootRecordBytes
    iterate 3 apply Holds.append
    exact Holds.last (by simp [h5])
  · unfold bootRecordBytes
    apply Holds.append
    exact Holds.last (by simp [h5, h23])
  · unfold catalogBytes
    iterate 4 apply Holds.append
    exact Holds.last (length_validationEntry _)
  · unfold catalogBytes
    iterate 2 apply Holds.append
    exact Holds.last (by simp [length_validationEntry])
  · unfold catalogBytes
    apply Holds.append
    exact Holds.last (by simp [length_validationEntry])

/-! ### The whole image -/

/-- The size of a partition image: whole 512-byte sectors, few enough for all the fields that count them. -/
theorem length_buildESPImage {efi script esp : Bytes} (h : buildESPImage efi script = .ok esp) :
    esp.length = espTotalSectors (espClusters efi script) * 512 ∧
      espTotalSectors (espClusters efi script) ≤ 16393 := by
  obtain ⟨hc, fat, hlen, -, rfl⟩ := exists_espBytes h
  refine ⟨length_espBytes hlen, ?_⟩
  have hle := espFatSectors_le hc
  have hmax : fatMaxClusters = 4084 := rfl
  have htotal : espTotalSectors (espClusters efi script) =
      1 + 2 * espFatSectors (espClusters efi script) + 32 + espClusters efi script * 4 := rfl
  omega

private theorem readBootImage_of_entry {img esp : Bytes} {e : BootEntry} (he : readBootEntry img = some e)
    (h : slice? img (e.loadLBA * 2048) (e.sectorCount * 512) = some esp) : readBootImage img = some esp := by
  unfold readBootImage
  rw [he, Option.bind_eq_bind, Option.bind_some, h]

private theorem readRootFile_of_record {img esp id : Bytes} {v : Volume} {records : List Record} {r : Record}
    (hv : readVolume img = some v) (hd : readDirectory img v.root = some records)
    (hr : records.find? (fun r => r.id = id) = some r) (hdir : r.isDir = false)
    (h : slice? img (r.extent * v.blockSize) r.size = some esp) : readRootFile img id = some esp := by
  unfold readRootFile
  simp only [hv, hd, hr, Option.bind_eq_bind, Option.bind_some, hdir, Bool.false_eq_true, if_false, h]

/-- Firmware reads the partition image from an image that was built. -/
theorem readBootImage_of_build {efi script img : Bytes} (h : buildBootISO efi script = .ok img) :
    ∃ esp, buildESPImage efi script = .ok esp ∧ readBootImage img = some esp := by
  by_cases hefi : efi = []
  · rw [buildBootISO, if_pos (by simp [hefi])] at h
    cases h
  · cases hesp : buildESPImage efi script with
    | error e =>
      rw [buildBootISO, if_neg (by simpa using hefi), hesp] at h
      cases h
    | ok esp =>
      rw [buildBootISO_eq hefi hesp] at h
      obtain rfl := Except.ok.inj h
      obtain ⟨hlen, hmax⟩ := length_buildESPImage hesp
      have hcount : esp.length / 512 * 512 = esp.length := by omega
      exact ⟨esp, rfl, readBootImage_of_entry (readBootEntry_isoBytes (show esp.length / 512 < 65536 by omega))
        ((holds_esp esp).slice?_eq hcount)⟩

/-- The boot ISO is built whenever its partition image is, and then firmware and file system driver read exactly that
partition image from it: the sectors the boot catalog counts are its length, the root directory lists it and nothing
else, both path tables say the same, and the volume ends where the image ends.  The readers refuse an image in which
the two byte orders of a number differ, so all those numbers agree. -/
theorem buildBootISO_readable (efi script : Bytes) :
    (∀ esp, efi ≠ [] → buildESPImage efi script = .ok esp →
      ∃ img entry volume, buildBootISO efi script = .ok img ∧
        readBootEntry img = some entry ∧ entry.sectorCount * 512 = esp.length ∧ readBootImage img = some esp ∧
        readVolume img = some volume ∧ volume.blocks * 2048 = img.length ∧
        readDirectory img volume.root =
          some [{ id := [0], extent := volume.root.extent, size := volume.root.size, isDir := true },
            { id := [1], extent := volume.root.extent, size := volume.root.size, isDir := true },
            { id := str "ESP.IMG;1", extent := entry.loadLBA, size := esp.length, isDir := false }] ∧
        readRootFile img (str "ESP.IMG;1") = some esp ∧
        readLPathTable img volume = some [{ id := [0], extent := volume.root.extent, parent := 1 }] ∧
        readMPathTable img volume = readLPathTable img volume) ∧
    ((∃ e, buildBootISO efi script = .error e) ↔ efi = [] ∨ ∃ e, buildESPImage efi script = .error e) := by
  constructor
  · intro esp hefi hesp
    obtain ⟨hlen, hmax⟩ := length_buildESPImage hesp
    have hblocks : espBlocks esp.length ≤ esp.length := by unfold espBlocks isoSectorSize; omega
    have hlba : lbaESP = 23 := rfl
    have hentry := readBootEntry_isoBytes (show esp.length / 512 < 65536 by omega)
    have hvolume := readVolume_isoBytes (show lbaESP + espBlocks esp.length < 4294967296 by omega)
    have hdir := readDirectory_isoBytes (show esp.length < 4294967296 by omega)
    have hcount : esp.length / 512 * 512 = esp.length := by omega
    have hcat : slice? (isoBytes esp) (lbaESP * 2048) (esp.length / 512 * 512) = some esp :=
      (holds_esp esp).slice?_eq hcount
    have hfile : slice? (isoBytes esp) (lbaESP * isoSectorSize) esp.length = some esp := (holds_esp esp).slice?_eq rfl
    have hfind : (rootListing esp.length).find? (fun r => r.id = str "ESP.IMG;1") =
        some { id := espBootPath, extent := lbaESP, size := esp.length, isDir := false } := rfl
    refine ⟨isoBytes esp, _, _, buildBootISO_eq hefi hesp, hentry, hcount, readBootImage_of_entry hentry hcat,
      hvolume, (length_isoBytes esp).symm, hdir, readRootFile_of_record hvolume hdir hfind rfl hfile,
      readLPathTable_isoBytes esp, ?_⟩
    rw [readLPathTable_isoBytes, readMPathTable_isoBytes]
  · constructor
    · rintro ⟨e, he⟩
      exact (buildBootISO_error he).imp_right fun h => ⟨e, h⟩
    · rintro (hefi | ⟨e, he⟩)
      · exact ⟨_, by rw [buildBootISO, if_pos (by simp [hefi])]; rfl⟩
      · by_cases hefi : efi = []
        · exact ⟨_, by rw [buildBootISO, if_pos (by simp [hefi])]; rfl⟩
        · exact ⟨e, by rw [buildBootISO, if_neg (by simpa using hefi), he]; rfl⟩

end MaasBoot
