import MaasBoot.IsoImage
import MaasBoot.EspLayout

/-!
# The layout of the boot ISO

The sectors of an image are written one after another, so the image is the concatenation of its sectors and of the
partition image (`buildBootISO_eq`).
-/

namespace MaasBoot

/-! ### Directory records and path tables -/

/-- The bytes of a directory record; `pad` is the byte that makes its length even. -/
def recordBytes (id : Bytes) (extent size : Nat) (flags : UInt8) (pad : Nat) : Bytes :=
  [UInt8.ofNat (33 + id.length + pad)] ++ zeros 1 ++ (le32 extent ++ be32 extent) ++ (le32 size ++ be32 size) ++
    [100, 1, 1, 0, 0, 0, 0] ++ [flags] ++ zeros 2 ++ (le16 1 ++ be16 1) ++ [UInt8.ofNat id.length] ++ id ++ zeros pad

theorem length_recordBytes (id : Bytes) (extent size : Nat) (flags : UInt8) (pad : Nat) :
    (recordBytes id extent size flags pad).length = 33 + id.length + pad := by
  simp only [recordBytes, List.length_append, List.length_cons, List.length_nil, length_zeros, length_le32,
    length_be32, length_le16, length_be16]

theorem putBoth16_next {p : Bytes} {n o : Nat} (v : Nat) (ho : p.length ≤ o) (h : o + 4 ≤ p.length + n) :
    putBoth16 (p ++ zeros n) o v =
      .ok (p ++ zeros (o - p.length) ++ (le16 v ++ be16 v) ++ zeros (p.length + n - (o + 4))) := by
  unfold putBoth16
  rw [putAt_next ho (by rw [length_le16]; omega), ok_bind,
    putAt_after 0 (p.length + n - (o + 4)) (by simp; omega) (by simp; omega)]
  simp [zeros_zero]

theorem putBoth32_next {p : Bytes} {n o : Nat} (v : Nat) (ho : p.length ≤ o) (h : o + 8 ≤ p.length + n) :
    putBoth32 (p ++ zeros n) o v =
      .ok (p ++ zeros (o - p.length) ++ (le32 v ++ be32 v) ++ zeros (p.length + n - (o + 8))) := by
  unfold putBoth32
  rw [putAt_next ho (by rw [length_le32]; omega), ok_bind,
    putAt_after 0 (p.length + n - (o + 8)) (by simp; omega) (by simp; omega)]
  simp [zeros_zero]

theorem isoDirRecord_eq (id : Bytes) (extent size : Nat) (flags : UInt8) :
    isoDirRecord id extent size flags =
      .ok (recordBytes id extent size flags ((33 + id.length) % 2)) := by
  have hn : (if (33 + id.length) % 2 = 1 then 33 + id.length + 1 else 33 + id.length) =
      33 + id.length + (33 + id.length) % 2 := by
    split <;> omega
  unfold isoDirRecord recordBytes
  dsimp only
  rw [hn]
  generalize hp : (33 + id.length) % 2 = pad
  rw [putAt_start (by simp; omega), ok_bind]
  rw [putBoth32_next _ (by simp) (by simp; omega), ok_bind]
  rw [putBoth32_next _ (by simp) (by simp; omega), ok_bind]
  rw [copyAt_next (by simp) (by simp; omega), ok_bind]
  rw [putAt_next (by simp) (by simp; omega), ok_bind]
  rw [putBoth16_next _ (by simp) (by simp; omega), ok_bind]
  rw [putAt_next (by simp) (by simp; omega), ok_bind]
  rw [copyAt_after 0 pad (by simp) (by simp; omega)]
  simp [zeros_zero]

/-- A path table with only the root directory. -/
def pathTable (order : ByteOrder) : Bytes := [1] ++ zeros 1 ++ order.bytes32 lbaRoot ++ order.bytes16 1 ++ zeros 2

theorem pathTableBytes_eq (order : ByteOrder) : pathTableBytes order = .ok (pathTable order) := by
  cases order <;> decide

theorem length_pathTable (order : ByteOrder) : (pathTable order).length = 10 := by
  cases order <;> decide

/-! ### Sectors -/

/-- A field of `n` bytes with the text `s`, padded with spaces. -/
def paddedText (n : Nat) (s : Bytes) : Bytes := overwrite (List.replicate n 0x20) 0 (s.take n)

theorem length_paddedText (n : Nat) (s : Bytes) : (paddedText n s).length = n := by
  unfold paddedText
  rw [length_overwrite (by simp), List.length_replicate]

theorem padText_next {p : Bytes} {n lo hi : Nat} (s : Bytes) (ho : p.length ≤ lo) (hlo : lo ≤ hi)
    (h : hi ≤ p.length + n) :
    padText (p ++ zeros n) lo hi s =
      .ok (p ++ zeros (lo - p.length) ++ paddedText (hi - lo) s ++ zeros (p.length + n - hi)) := by
  have hl := length_paddedText (hi - lo) s
  exact putAt_after _ _ (by omega) (by unfold paddedText at hl; omega)

def pvdBytes (total : Nat) (rootRec pathTable : Bytes) : Bytes :=
  [1] ++ str "CD001" ++ [1] ++ zeros 1 ++ paddedText 32 [] ++ paddedText 32 (str "IPXE_BOOT") ++ zeros 8 ++
    (le32 total ++ be32 total) ++ zeros 32 ++ (le16 1 ++ be16 1) ++ (le16 1 ++ be16 1) ++
    (le16 isoSectorSize ++ be16 isoSectorSize) ++ (le32 pathTable.length ++ be32 pathTable.length) ++
    le32 lbaPathL ++ zeros 4 ++ be32 lbaPathM ++ zeros 4 ++ rootRec ++ paddedText 128 [] ++ paddedText 128 [] ++
    paddedText 128 [] ++ paddedText 128 [] ++ paddedText 37 [] ++ paddedText 37 [] ++ paddedText 37 [] ++
    isoDate false ++ isoDate false ++ isoDate true ++ isoDate false ++ [1] ++ zeros 1166

theorem writePVD_eq (total : Nat) {rootRec : Bytes} (pathTable : Bytes) (hr : rootRec.length = 34) :
    writePVD total rootRec pathTable (zeros 2048) = .ok (pvdBytes total rootRec pathTable) := by
  have h5 : (str "CD001").length = 5 := by decide
  have hd : ∀ b, (isoDate b).length = 17 := by decide
  unfold writePVD pvdBytes
  generalize str "CD001" = s₁ at *
  generalize str "IPXE_BOOT" = s₂ at *
  generalize isoDate = date at *
  simp only [putAt_start, copyAt_next, putAt_next, putBoth16_next, putBoth32_next, padText_next, length_paddedText,
    ok_bind, List.length_append, List.length_cons, List.length_nil, length_le16, length_le32, length_be16,
    length_be32, length_zeros, hr, hd, h5, Nat.reduceAdd, Nat.reduceSub, Nat.reduceLeDiff, zeros_zero,
    List.append_nil]

theorem length_pvdBytes (total : Nat) {rootRec : Bytes} (pathTable : Bytes) (hr : rootRec.length = 34) :
    (pvdBytes total rootRec pathTable).length = 2048 := by
  have h5 : (str "CD001").length = 5 := by decide
  have hd : ∀ b, (isoDate b).length = 17 := by decide
  unfold pvdBytes
  generalize str "CD001" = s₁ at *
  generalize str "IPXE_BOOT" = s₂ at *
  generalize isoDate = date at *
  simp only [length_paddedText, List.length_append, List.length_cons, List.length_nil, length_le16, length_le32,
    length_be16, length_be32, length_zeros, hr, hd, h5, Nat.reduceAdd]

def bootRecordBytes : Bytes :=
  zeros 1 ++ str "CD001" ++ [1] ++ str "EL TORITO SPECIFICATION" ++ zeros 41 ++ le32 lbaCatalog ++ zeros 1973

theorem writeBootRecord_eq : writeBootRecord (zeros 2048) = .ok bootRecordBytes := by
  have h5 : (str "CD001").length = 5 := by decide
  have h23 : (str "EL TORITO SPECIFICATION").length = 23 := by decide
  unfold writeBootRecord bootRecordBytes
  generalize str "CD001" = s₁ at *
  generalize str "EL TORITO SPECIFICATION" = s₂ at *
  rw [copyAt_fresh (by omega)]
  simp only [copyAt_next, putAt_next, ok_bind, List.length_append, List.length_cons, List.length_nil,
    length_le32, length_zeros, h5, h23, Nat.reduceAdd, Nat.reduceSub, Nat.reduceLeDiff, zeros_zero, List.append_nil]

theorem length_bootRecordBytes : bootRecordBytes.length = 2048 := by
  have h5 : (str "CD001").length = 5 := by decide
  have h23 : (str "EL TORITO SPECIFICATION").length = 23 := by decide
  simp only [bootRecordBytes, List.length_append, List.length_cons, List.length_nil, length_le32, length_zeros, h5,
    h23]

def terminatorBytes : Bytes := [255] ++ str "CD001" ++ [1] ++ zeros 2041

theorem writeTerminator_eq : writeTerminator (zeros 2048) = .ok terminatorBytes := by
  have h5 : (str "CD001").length = 5 := by decide
  unfold writeTerminator terminatorBytes
  generalize str "CD001" = s₁ at *
  simp only [putAt_start, copyAt_next, putAt_next, ok_bind, List.length_append, List.length_cons, List.length_nil, h5,
    Nat.reduceAdd, Nat.reduceSub, Nat.reduceLeDiff, zeros_zero, List.append_nil]

theorem length_terminatorBytes : terminatorBytes.length = 2048 := by
  have h5 : (str "CD001").length = 5 := by decide
  simp only [terminatorBytes, List.length_append, List.length_cons, List.length_nil, length_zeros, h5]

/-- The validation entry, with `check` in the place of its checksum. -/
def validationEntry (check : Nat) : Bytes :=
  [1, 0xEF] ++ zeros 2 ++ str "IPXE UEFI BOOT" ++ zeros 10 ++ le16 check ++ [0x55, 0xAA]

/-- The checksum that is written over the 0 of the unfinished validation entry. -/
def validationCheck : Nat := (-catalogSum (validationEntry 0)).toNat

theorem length_validationEntry (check : Nat) : (validationEntry check).length = 32 := by
  have h14 : (str "IPXE UEFI BOOT").length = 14 := by decide
  simp only [validationEntry, List.length_append, List.length_cons, List.length_nil, length_le16, length_zeros, h14]

theorem catalogSum_append {entry : Bytes} (rest : Bytes) (h : entry.length = 32) :
    catalogSum (entry ++ rest) = catalogSum entry := by
  unfold catalogSum
  refine List.foldl_ext _ _ _ ?_
  intro sum i hi
  have hi : i < 16 := List.mem_range.mp hi
  unfold le16At
  rw [slice_append_left _ _ (by omega)]

def catalogBytes (espLen : Nat) : Bytes :=
  validationEntry validationCheck ++ [0x88] ++ zeros 5 ++ le16 (espLen / 512) ++ le32 lbaESP ++ zeros 2004

theorem writeCatalog_eq (espLen : Nat) : writeCatalog espLen (zeros 2048) = .ok (catalogBytes espLen) := by
  have h14 : (str "IPXE UEFI BOOT").length = 14 := by decide
  have h14' : (str "IPXE UEFI BOOT").take 24 = str "IPXE UEFI BOOT" := List.take_of_length_le (by omega)
  have hv := length_validationEntry
  have hpre : [1] ++ [0xEF] ++ zeros 2 ++ str "IPXE UEFI BOOT" ++ zeros 12 ++ [0x55, 0xAA] ++ zeros 2016 =
      validationEntry 0 ++ zeros 2016 := by
    simp only [validationEntry, List.append_assoc, List.cons_append, List.nil_append]
    rw [show zeros 12 = zeros 10 ++ le16 0 from rfl, List.append_assoc]
  have hsum : ∀ check, putAt (validationEntry 0 ++ zeros 2016) 28 (le16 check) =
      .ok (validationEntry check ++ zeros 2016) := by
    intro check
    rw [putAt_eq (by rw [List.length_append, hv]; simp)]
    unfold validationEntry
    rw [List.append_assoc (_ ++ le16 0), overwrite_mid (by simp [h14]) (by simp), List.append_assoc (_ ++ le16 check)]
  unfold writeCatalog
  rw [h14']
  simp only [putAt_start, copyAt_next, putAt_next, ok_bind, List.length_append, List.length_cons, List.length_nil,
    length_zeros, h14, Nat.reduceAdd, Nat.reduceSub, Nat.reduceLeDiff, zeros_zero, List.append_nil]
  rw [hpre, hsum, ok_bind, catalogSum_append _ (hv 0)]
  simp only [putAt_next, ok_bind, List.length_append, List.length_cons, List.length_nil, length_le16, length_le32,
    length_zeros, hv, Nat.reduceAdd, Nat.reduceSub, Nat.reduceLeDiff, zeros_zero, List.append_nil]
  rfl

theorem length_catalogBytes (espLen : Nat) : (catalogBytes espLen).length = 2048 := by
  simp only [catalogBytes, List.length_append, List.length_cons, List.length_nil, length_le16, length_le32,
    length_zeros, length_validationEntry]

/-- The records `.`, `..` and of the partition image. -/
def rootRecords (espLen : Nat) : List Bytes :=
  [recordBytes [0] lbaRoot isoSectorSize 2 0, recordBytes [1] lbaRoot isoSectorSize 2 0,
    recordBytes espBootPath lbaESP espLen 0 0]

theorem length_rootRecords (espLen : Nat) : (rootRecords espLen).flatten.length = 110 := by
  have h9 : espBootPath.length = 9 := by decide
  simp only [rootRecords, List.flatten_cons, List.flatten_nil, List.length_append, length_recordBytes, h9,
    List.length_cons, List.length_nil]

theorem writeRoot_eq (espLen : Nat) :
    writeRoot espLen (zeros 2048) = .ok (padTo 2048 (rootRecords espLen).flatten) := by
  have h9 : espBootPath.length = 9 := by decide
  have hl := length_rootRecords espLen
  have hr : ∀ b : UInt8, ((33 + [b].length) % 2) = 0 := fun b => by simp
  unfold writeRoot
  simp only [isoDirRecord_eq, ok_bind, hr, h9, Nat.reduceAdd, Nat.reduceMod]
  have hput : put ([] ++ zeros 2048) 0 (rootRecords espLen) =
      .ok ([] ++ zeros 0 ++ (rootRecords espLen).flatten ++ zeros (2048 - 110)) :=
    put_after 0 (2048 - 110) rfl (by omega) (by simp [rootRecords])
  simp only [List.nil_append, zeros_zero] at hput
  rw [padTo, hl]
  exact hput

/-! ### The image -/

theorem onSector_next {p s : Bytes} {n lba : Nat} {f : Bytes → Go Bytes} (hp : p.length = lba * 2048) (hn : 2048 ≤ n)
    (hf : f (zeros 2048) = .ok s) (hs : s.length = 2048) :
    onSector (p ++ zeros n) lba f = .ok (p ++ s ++ zeros (n - 2048)) := by
  have hsize : isoSectorSize = 2048 := rfl
  have hz : zeros n = zeros 2048 ++ zeros (n - 2048) := by
    rw [← zeros_add, Nat.add_sub_cancel' hn]
  unfold onSector
  rw [hsize, if_pos (by simp; omega), hz, ← List.append_assoc, slice_mid hp.symm (by simp), hf, ok_bind,
    putAt_eq (by simp; omega), overwrite_mid hp.symm (by simp [hs])]

/-- 2048-byte sectors of the partition image. -/
def espBlocks (espLen : Nat) : Nat := (espLen + isoSectorSize - 1) / isoSectorSize

/-- The root record inside the volume descriptor. -/
def rootRecord : Bytes := recordBytes [0] lbaRoot isoSectorSize 2 0

theorem length_rootRecord : rootRecord.length = 34 := by
  simp only [rootRecord, length_recordBytes, List.length_cons, List.length_nil]

/-- The whole image, for a given partition image. -/
def isoBytes (esp : Bytes) : Bytes :=
  zeros 32768 ++ pvdBytes (lbaESP + espBlocks esp.length) rootRecord (pathTable .littleEndian) ++ bootRecordBytes ++
    terminatorBytes ++ catalogBytes esp.length ++ padTo 2048 (rootRecords esp.length).flatten ++
    padTo 2048 (pathTable .littleEndian) ++ padTo 2048 (pathTable .bigEndian) ++
      padTo (espBlocks esp.length * 2048) esp

/-- The image is built whenever there is a partition image. -/
theorem buildBootISO_eq {efi script esp : Bytes} (hefi : efi ≠ []) (hesp : buildESPImage efi script = .ok esp) :
    buildBootISO efi script = .ok (isoBytes esp) := by
  have hb : esp.length ≤ espBlocks esp.length * 2048 := by unfold espBlocks isoSectorSize; omega
  have hpvd := length_pvdBytes (lbaESP + espBlocks esp.length) (pathTable .littleEndian) length_rootRecord
  have hl : (pathTable .littleEndian).length ≤ 2048 := by rw [length_pathTable]; decide
  have hm : (pathTable .bigEndian).length ≤ 2048 := by rw [length_pathTable]; decide
  have hroot : (padTo 2048 (rootRecords esp.length).flatten).length = 2048 :=
    length_padTo (by rw [length_rootRecords]; decide)
  have hrec : isoDirRecord [0] lbaRoot isoSectorSize 2 = .ok rootRecord := isoDirRecord_eq _ _ _ _
  have hsec : (esp.length + isoSectorSize - 1) / isoSectorSize = espBlocks esp.length := rfl
  have hz : zeros ((lbaESP + espBlocks esp.length) * isoSectorSize) =
      zeros 32768 ++ zeros (14336 + espBlocks esp.length * 2048) := by
    rw [← zeros_add]
    exact congrArg zeros (by simp only [lbaESP, isoSectorSize]; omega)
  unfold buildBootISO isoBytes
  rw [if_neg (by simpa using hefi), hesp]
  simp only [ok_bind, hsec, hrec, pathTableBytes_eq, hz]
  generalize espBlocks esp.length = blocks at *
  -- every sector starts where the one before it ends
  rw [onSector_next (by simp only [length_zeros, lbaPVD]) (by omega) (writePVD_eq _ _ length_rootRecord) hpvd,
    ok_bind]
  rw [onSector_next (by simp only [List.length_append, length_zeros, hpvd, lbaBoot]) (by omega) writeBootRecord_eq
    length_bootRecordBytes, ok_bind]
  rw [onSector_next (by simp only [List.length_append, length_zeros, hpvd, length_bootRecordBytes, lbaTerm])
    (by omega) writeTerminator_eq length_terminatorBytes, ok_bind]
  rw [onSector_next (by simp only [List.length_append, length_zeros, hpvd, length_bootRecordBytes,
    length_terminatorBytes, lbaCatalog]) (by omega) (writeCatalog_eq _) (length_catalogBytes _), ok_bind]
  rw [onSector_next (by simp only [List.length_append, length_zeros, hpvd, length_bootRecordBytes,
    length_terminatorBytes, length_catalogBytes, lbaRoot]) (by omega) (writeRoot_eq _) hroot, ok_bind]
  rw [onSector_next (f := fun s => copyAt s 0 (pathTable .littleEndian))
    (by simp only [List.length_append, length_zeros, hpvd,
    length_bootRecordBytes, length_terminatorBytes, length_catalogBytes, hroot, lbaPathL]) (by omega)
    (copyAt_padTo hl) (length_padTo hl), ok_bind]
  rw [onSector_next (f := fun s => copyAt s 0 (pathTable .bigEndian))
    (by simp only [List.length_append, length_zeros, hpvd,
    length_bootRecordBytes, length_terminatorBytes, length_catalogBytes, hroot, length_padTo hl, lbaPathM]) (by omega)
    (copyAt_padTo hm) (length_padTo hm), ok_bind]
  rw [copyAt_after 0 (blocks * 2048 - esp.length) ?_ (by omega)]
  · simp only [zeros_zero, List.append_nil, List.append_assoc, padTo]
  · simp only [List.length_append, length_zeros, hpvd, length_bootRecordBytes, length_terminatorBytes,
      length_catalogBytes, hroot, length_padTo hl, length_padTo hm]
    rfl

theorem length_isoBytes (esp : Bytes) : (isoBytes esp).length = (lbaESP + espBlocks esp.length) * 2048 := by
  have hb : esp.length ≤ espBlocks esp.length * 2048 := by unfold espBlocks isoSectorSize; omega
  have hpvd := length_pvdBytes (lbaESP + espBlocks esp.length) (pathTable .littleEndian) length_rootRecord
  have hp : ∀ order, (padTo 2048 (pathTable order)).length = 2048 :=
    fun order => length_padTo (by rw [length_pathTable]; decide)
  have hroot : (padTo 2048 (rootRecords esp.length).flatten).length = 2048 :=
    length_padTo (by rw [length_rootRecords]; decide)
  simp only [isoBytes, List.length_append, length_zeros, hpvd, length_bootRecordBytes, length_terminatorBytes,
    length_catalogBytes, hroot, hp, length_padTo hb]
  simp only [lbaESP]
  omega

/-- A failing partition image, or an empty EFI binary, is the only way to fail. -/
theorem buildBootISO_error {efi script : Bytes} {e : GoError} (h : buildBootISO efi script = .error e) :
    efi = [] ∨ buildESPImage efi script = .error e := by
  by_cases hefi : efi = []
  · exact .inl hefi
  · cases hesp : buildESPImage efi script with
    | ok esp => rw [buildBootISO_eq hefi hesp] at h; cases h
    | error e' =>
      unfold buildBootISO at h
      rw [if_neg (by simpa using hefi), hesp] at h
      exact .inr h

end MaasBoot
