import MaasBoot.Lib.Scan

/-!
# newc archives

`writeNewc` of `overlay.go` appends an entry to an archive in the format newc of cpio: a header of thirteen
hexadecimal numbers, the name with a NUL, padding, the data and padding.  The padding goes by the length of the
archive so far.

The reader here follows the one of the tests.  It takes names and data by the sizes in the headers and rounds
offsets up from the start of the archive.  It gets back what was written as long as the sizes fit into their fields;
the size of a name is cut to 32 bits by the writer (`readNewc_long_name`).
-/

namespace MaasBoot

structure NewcEntry where
  ino : UInt32
  mode : UInt32
  nlink : UInt32
  name : Bytes
  data : Bytes
  deriving DecidableEq

/-! ### Writing -/

def newcMagic : Bytes := str "070701"

/-- `uint32(len(name) + 1)` -/
def NewcEntry.namesize (e : NewcEntry) : UInt32 := UInt32.ofNat (e.name.length + 1)

/-- The numbers of the header. -/
def NewcEntry.fields (e : NewcEntry) : List Nat :=
  [e.ino.toNat, e.mode.toNat, 0, 0, e.nlink.toNat, 0, e.data.length, 0, 0, 0, 0, e.namesize.toNat, 0]

def NewcEntry.header (e : NewcEntry) : Bytes := newcMagic ++ e.fields.flatMap (formatUpper 8)

def padTo4 (w : Bytes) : Bytes :=
  if w.length % 4 ≠ 0 then padTo4 (w ++ [0]) else w
termination_by (4 - w.length % 4) % 4
decreasing_by
  rw [List.length_append, List.length_singleton]
  omega

def writeNewc (w : Bytes) (e : NewcEntry) : Bytes := padTo4 (padTo4 (w ++ e.header ++ e.name ++ [0]) ++ e.data)

def trailerName : Bytes := str "TRAILER!!!"

def newcTrailer : NewcEntry := ⟨0, 0, 1, trailerName, []⟩

/-- Entries one after another into an empty buffer, and the trailer. -/
def newcArchive (es : List NewcEntry) : Bytes := writeNewc (es.foldl writeNewc []) newcTrailer

/-! ### Reading -/

/-- The number in field `i` of the header at an offset. -/
def newcField (raw : Bytes) (off i : Nat) : Option Nat := do
  let t ← slice? raw (off + 6 + 8 * i) 8
  if t.all isHexDigit then some (parseNat 16 t) else none

/-- `(n + 3) &^ 3` -/
def roundUp4 (n : Nat) : Nat := (n + 3) / 4 * 4

/-- The numbers of a header that the reader looks at. -/
structure NewcHeader where
  ino : Nat
  mode : Nat
  nlink : Nat
  size : Nat
  namesize : Nat

def readHeader (raw : Bytes) (off : Nat) : Option NewcHeader := do
  let magic ← slice? raw off 6
  if magic ≠ newcMagic then none
  let ino ← newcField raw off 0
  let mode ← newcField raw off 1
  let nlink ← newcField raw off 4
  let size ← newcField raw off 6
  let namesize ← newcField raw off 11
  return ⟨ino, mode, nlink, size, namesize⟩

/-- Where the data of an entry starts. -/
def NewcHeader.dataStart (h : NewcHeader) (off : Nat) : Nat := roundUp4 (off + 110 + h.namesize)

/-- The entry at an offset, and the offset after it.  A name has at least its NUL. -/
def readEntry (raw : Bytes) (off : Nat) : Option (NewcEntry × Nat) :=
  match readHeader raw off with
  | none => none
  | some h =>
    if h.namesize = 0 then none
    else
      match slice? raw (off + 110) (h.namesize - 1), slice? raw (h.dataStart off) h.size with
      | some name, some data =>
        some (⟨UInt32.ofNat h.ino, UInt32.ofNat h.mode, UInt32.ofNat h.nlink, name, data⟩,
          roundUp4 (h.dataStart off + h.size))
      | _, _ => none

theorem le_roundUp4 (n : Nat) : n ≤ roundUp4 n := by
  unfold roundUp4
  omega

/-- An entry takes some space. -/
theorem readEntry_lt {raw : Bytes} {off : Nat} {e : NewcEntry} {next : Nat} (h : readEntry raw off = some (e, next)) :
    off < next ∧ off < raw.length := by
  unfold readEntry at h
  split at h
  · cases h
  · rename_i hd _
    split at h
    · cases h
    · split at h
      · rename_i name data hname hdata
        have hle := (length_of_slice? hname).2
        have hnext : roundUp4 (hd.dataStart off + hd.size) = next := congrArg Prod.snd (Option.some.inj h)
        have h₁ := le_roundUp4 (off + 110 + hd.namesize)
        have h₂ := le_roundUp4 (hd.dataStart off + hd.size)
        unfold NewcHeader.dataStart at h₂ hnext
        omega
      · cases h

/-- The entries up to the trailer with the offsets of their headers, the offset of the trailer and the end. -/
def readNewc (raw : Bytes) (off : Nat) : Option (List (Nat × NewcEntry) × Nat × Nat) :=
  match _h : readEntry raw off with
  | none => none
  | some (e, next) =>
    if e.name = trailerName then some ([], off, next)
    else (readNewc raw next).map fun r => ((off, e) :: r.1, r.2)
termination_by raw.length - off
decreasing_by
  have := readEntry_lt _h
  omega

/-- What is read as a list of entries: an archive with nothing behind its trailer. -/
def readArchive (raw : Bytes) : Option (List NewcEntry) :=
  match readNewc raw 0 with
  | none => none
  | some (es, _, stop) => if stop = raw.length then some (es.map Prod.snd) else none

/-! ### Padding -/

theorem padTo4_eq (w : Bytes) : padTo4 w = w ++ zeros (roundUp4 w.length - w.length) := by
  induction w using padTo4.induct with
  | case1 w h ih =>
    have hsub : roundUp4 w.length - w.length = 1 + (roundUp4 (w.length + 1) - (w.length + 1)) := by
      unfold roundUp4
      omega
    rw [padTo4, if_pos h, ih, hsub, zeros_add, List.length_append, List.length_singleton, List.append_assoc]
    rfl
  | case2 w h =>
    have hsub : roundUp4 w.length - w.length = 0 := by
      unfold roundUp4
      omega
    rw [padTo4, if_neg h, hsub, zeros_zero, List.append_nil]

theorem length_padTo4 (w : Bytes) : (padTo4 w).length = roundUp4 w.length := by
  have := le_roundUp4 w.length
  rw [padTo4_eq, List.length_append, length_zeros]
  omega

/-! ### One entry -/

/-- The sizes fit into their fields. -/
def NewcEntry.Fits (e : NewcEntry) : Prop := e.name.length + 1 < 2 ^ 32 ∧ e.data.length < 2 ^ 32

theorem NewcEntry.fields_lt {e : NewcEntry} (h : e.data.length < 2 ^ 32) : ∀ v ∈ e.fields, v < 16 ^ 8 := by
  have hino := e.ino.toNat_lt
  have hmode := e.mode.toNat_lt
  have hnlink := e.nlink.toNat_lt
  have hsize := e.namesize.toNat_lt
  intro v hv
  simp only [NewcEntry.fields, List.mem_cons, List.not_mem_nil, or_false] at hv
  rcases hv with rfl | rfl | rfl | rfl | rfl | rfl | rfl | rfl | rfl | rfl | rfl | rfl | rfl <;> omega

theorem NewcEntry.length_header {e : NewcEntry} (h : e.data.length < 2 ^ 32) : e.header.length = 110 := by
  have hlen : ∀ vs : List Nat, (∀ v ∈ vs, v < 16 ^ 8) → (vs.flatMap (formatUpper 8)).length = 8 * vs.length := by
    intro vs hvs
    induction vs with
    | nil => rfl
    | cons v vs ih =>
      rw [List.forall_mem_cons] at hvs
      rw [List.flatMap_cons, List.length_append, length_formatUpper hvs.1, ih hvs.2, List.length_cons]
      omega
  rw [NewcEntry.header, List.length_append, hlen _ (fields_lt h)]
  rfl

private theorem isHexDigit_formatUpper (w n : Nat) : (formatUpper w n).all isHexDigit = true := by
  have hdigit : ∀ d : UInt8, isLowerHex d = true → isHexDigit (upperDigit d) = true := forall_byte (by decide +kernel)
  rw [List.all_eq_true]
  intro c hc
  obtain ⟨d, hd, rfl⟩ := List.mem_map.mp hc
  exact hdigit d (isLowerHex_of_mem_formatNat (by decide) (by decide) hd)

/-- The reader finds the numbers of a header. -/
theorem newcField_eq {raw : Bytes} {off : Nat} {e : NewcEntry} (hraw : Holds raw off e.header)
    (h : e.data.length < 2 ^ 32) {i v : Nat} (hi : e.fields[i]? = some v) : newcField raw off i = some v := by
  have hlen : ∀ v ∈ e.fields, (formatUpper 8 v).length = 8 :=
    fun v hv => length_formatUpper (NewcEntry.fields_lt h v hv)
  have hfield : Holds raw (off + 6 + 8 * i) (formatUpper 8 v) := (hraw.right rfl).sub (holds_flatMap hlen hi)
  have hslice := hfield.slice?_eq (hlen v (List.mem_of_getElem? hi)).symm
  simp only [newcField, hslice, Option.bind_eq_bind, Option.bind_some, isHexDigit_formatUpper, if_true,
    parseNat_formatUpper]

theorem readHeader_eq {raw : Bytes} {off : Nat} {e : NewcEntry} (hraw : Holds raw off e.header)
    (h : e.data.length < 2 ^ 32) :
    readHeader raw off = some ⟨e.ino.toNat, e.mode.toNat, e.nlink.toNat, e.data.length, e.namesize.toNat⟩ := by
  have hmagic : slice? raw off 6 = some newcMagic := hraw.left.slice?_eq rfl
  have h₀ : newcField raw off 0 = some e.ino.toNat := newcField_eq hraw h rfl
  have h₁ : newcField raw off 1 = some e.mode.toNat := newcField_eq hraw h rfl
  have h₄ : newcField raw off 4 = some e.nlink.toNat := newcField_eq hraw h rfl
  have h₆ : newcField raw off 6 = some e.data.length := newcField_eq hraw h rfl
  have h₁₁ : newcField raw off 11 = some e.namesize.toNat := newcField_eq hraw h rfl
  simp [readHeader, hmagic, h₀, h₁, h₄, h₆, h₁₁]

/-- The archive after an entry, with its padding. -/
theorem writeNewc_eq (w : Bytes) (e : NewcEntry) :
    ∃ a b, writeNewc w e = w ++ e.header ++ e.name ++ [0] ++ zeros a ++ e.data ++ zeros b := by
  unfold writeNewc
  rw [padTo4_eq, padTo4_eq (w ++ e.header ++ e.name ++ [0])]
  exact ⟨_, _, rfl⟩

theorem writeNewc_header (w : Bytes) (e : NewcEntry) (rest : Bytes) :
    Holds (writeNewc w e ++ rest) w.length e.header := by
  obtain ⟨a, b, heq⟩ := writeNewc_eq w e
  rw [heq]
  exact ((((((Holds.last rfl).append _).append _).append _).append _).append _).append rest

theorem writeNewc_name (w : Bytes) (e : NewcEntry) (rest : Bytes) :
    Holds (writeNewc w e ++ rest) (w.length + e.header.length) e.name := by
  obtain ⟨a, b, heq⟩ := writeNewc_eq w e
  rw [heq]
  exact (((((Holds.last List.length_append).append _).append _).append _).append _).append rest

theorem writeNewc_data (w : Bytes) (e : NewcEntry) (rest : Bytes) :
    Holds (writeNewc w e ++ rest) (roundUp4 (w.length + e.header.length + e.name.length + 1)) e.data := by
  unfold writeNewc
  rw [padTo4_eq (padTo4 _ ++ e.data)]
  refine ((Holds.last ?_).append _).append rest
  rw [length_padTo4]
  simp only [List.length_append, List.length_singleton]

theorem length_writeNewc (w : Bytes) (e : NewcEntry) : (writeNewc w e).length =
    roundUp4 (roundUp4 (w.length + e.header.length + e.name.length + 1) + e.data.length) := by
  rw [writeNewc, length_padTo4, List.length_append, length_padTo4]
  simp only [List.length_append, List.length_singleton]

/-- The reader gets back an entry whose sizes fit. -/
theorem readEntry_writeNewc (w : Bytes) {e : NewcEntry} (h : e.Fits) (rest : Bytes) :
    readEntry (writeNewc w e ++ rest) w.length = some (e, (writeNewc w e).length) := by
  have hsize : e.namesize.toNat = e.name.length + 1 := by
    rw [NewcEntry.namesize, UInt32.toNat_ofNat', Nat.mod_eq_of_lt h.1]
  have hname := writeNewc_name w e rest
  have hdata := writeNewc_data w e rest
  have hlen := length_writeNewc w e
  rw [NewcEntry.length_header h.2] at hname hdata hlen
  rw [readEntry, readHeader_eq (writeNewc_header w e rest) h.2]
  dsimp only [NewcHeader.dataStart]
  rw [hsize, if_neg (Nat.succ_ne_zero _), Nat.add_sub_cancel, hname.slice?_eq rfl, ← Nat.add_assoc,
    hdata.slice?_eq rfl, hlen]
  simp

/-! ### Archives -/

theorem prefix_writeNewc (w : Bytes) (e : NewcEntry) : w <+: writeNewc w e := by
  obtain ⟨a, b, heq⟩ := writeNewc_eq w e
  rw [heq]
  simp only [List.append_assoc]
  exact List.prefix_append ..

theorem prefix_foldl_writeNewc (w : Bytes) (es : List NewcEntry) : w <+: es.foldl writeNewc w := by
  induction es generalizing w with
  | nil => exact List.prefix_rfl
  | cons e es ih => exact (prefix_writeNewc w e).trans (ih _)

theorem newcTrailer_fits : newcTrailer.Fits := ⟨by decide, by decide⟩

theorem four_dvd_roundUp4 (n : Nat) : 4 ∣ roundUp4 n := Dvd.intro_left _ rfl

/-- Reading from the end of what was written before, up to an entry with the name of the trailer. -/
theorem readNewc_foldl {es : List NewcEntry} (hes : ∀ e ∈ es, e.Fits ∧ e.name ≠ trailerName) {t : NewcEntry}
    (ht : t.Fits) (hname : t.name = trailerName) (rest : Bytes) {w : Bytes} (hw : 4 ∣ w.length) :
    ∃ (offs : List Nat) (off : Nat), readNewc (writeNewc (es.foldl writeNewc w) t ++ rest) w.length =
        some (offs.zip es, off, (writeNewc (es.foldl writeNewc w) t).length) ∧
      offs.length = es.length ∧ (∀ o ∈ offs, 4 ∣ o) ∧ 4 ∣ off := by
  induction es generalizing w with
  | nil =>
    refine ⟨[], w.length, ?_, rfl, by simp, hw⟩
    rw [List.foldl_nil, readNewc, readEntry_writeNewc w ht rest]
    simp only [if_pos hname, List.zip_nil_left]
  | cons e es ih =>
    rw [List.forall_mem_cons] at hes
    -- what is written later stands behind the entry
    obtain ⟨later, hlater⟩ := (prefix_foldl_writeNewc (writeNewc w e) es).trans (prefix_writeNewc _ t)
    have hread := readEntry_writeNewc w hes.1.1 (later ++ rest)
    have hdvd : 4 ∣ (writeNewc w e).length := by
      rw [length_writeNewc]
      exact four_dvd_roundUp4 _
    obtain ⟨offs, off, hoffs, hlen, hall, hoff⟩ := ih hes.2 hdvd
    refine ⟨w.length :: offs, off, ?_, by simp [hlen], ?_, hoff⟩
    · rw [← List.append_assoc, hlater] at hread
      rw [List.foldl_cons, readNewc, hread]
      simp only [if_neg hes.1.2, hoffs, Option.map_some, List.zip_cons_cons]
    · rw [List.forall_mem_cons]
      exact ⟨hw, hall⟩

theorem newcField_lt {raw : Bytes} {off i v : Nat} (h : newcField raw off i = some v) : v < 2 ^ 32 := by
  unfold newcField at h
  obtain ⟨t, ht, h⟩ := Option.bind_eq_some_iff.mp h
  split at h
  · rw [← Option.some.inj h]
    have hlt := parseNat_lt t
    rwa [(length_of_slice? ht).1] at hlt
  · cases h

/-- The sizes that are read are those of 32-bit fields. -/
theorem fits_of_readEntry {raw : Bytes} {off : Nat} {e : NewcEntry} {next : Nat}
    (h : readEntry raw off = some (e, next)) :
    e.Fits := by
  unfold readEntry at h
  split at h
  · cases h
  · rename_i hd hhd
    have hsizes : hd.size < 2 ^ 32 ∧ hd.namesize < 2 ^ 32 := by
      unfold readHeader at hhd
      obtain ⟨magic, -, hhd⟩ := Option.bind_eq_some_iff.mp hhd
      split at hhd
      · cases hhd
      · obtain ⟨ino, -, hhd⟩ := Option.bind_eq_some_iff.mp hhd
        obtain ⟨mode, -, hhd⟩ := Option.bind_eq_some_iff.mp hhd
        obtain ⟨nlink, -, hhd⟩ := Option.bind_eq_some_iff.mp hhd
        obtain ⟨size, hsize, hhd⟩ := Option.bind_eq_some_iff.mp hhd
        obtain ⟨namesize, hnamesize, hhd⟩ := Option.bind_eq_some_iff.mp hhd
        rw [← Option.some.inj hhd]
        exact ⟨newcField_lt hsize, newcField_lt hnamesize⟩
    split at h
    · cases h
    · split at h
      · rename_i name data hname hdata
        obtain rfl : _ = e := congrArg Prod.fst (Option.some.inj h)
        unfold NewcEntry.Fits
        dsimp only
        rw [(length_of_slice? hname).1, (length_of_slice? hdata).1]
        omega
      · cases h

theorem fits_of_readNewc {raw : Bytes} {off : Nat} {r : List (Nat × NewcEntry) × Nat × Nat}
    (h : readNewc raw off = some r) :
    ∀ x ∈ r.1, x.2.Fits := by
  induction off using readNewc.induct raw generalizing r with
  | case1 off hread =>
    rw [readNewc, hread] at h
    cases h
  | case2 off e next hread htrailer =>
    rw [readNewc, hread] at h
    simp only [if_pos htrailer, Option.some.injEq] at h
    rw [← h]
    exact List.forall_mem_nil _
  | case3 off e next hread htrailer ih =>
    rw [readNewc, hread] at h
    simp only [if_neg htrailer, Option.map_eq_some_iff] at h
    obtain ⟨r', hr', rfl⟩ := h
    exact List.forall_mem_cons.mpr ⟨fits_of_readEntry hread, ih hr'⟩

theorem fits_of_readArchive {raw : Bytes} {es : List NewcEntry} (h : readArchive raw = some es) :
    ∀ e ∈ es, e.Fits := by
  unfold readArchive at h
  split at h
  · cases h
  · rename_i xs off stop hread
    split at h
    · rw [← Option.some.inj h, List.forall_mem_map]
      exact fits_of_readNewc hread
    · cases h

theorem length_lt_writeNewc (w : Bytes) (e : NewcEntry) : w.length < (writeNewc w e).length := by
  obtain ⟨a, b, heq⟩ := writeNewc_eq w e
  rw [heq]
  simp only [List.length_append, List.length_singleton]
  omega

/-- An archive of entries that fit is read back if and only if none of them is taken for the trailer. -/
theorem readArchive_newcArchive_iff {es es' : List NewcEntry} (hes : ∀ e ∈ es, e.Fits) :
    readArchive (newcArchive es) = some es' ↔ es = es' ∧ ∀ e ∈ es, e.name ≠ trailerName := by
  cases hfind : es.find? fun e => e.name = trailerName with
  | none =>
    have hne : ∀ e ∈ es, e.name ≠ trailerName := fun e he => by simpa using List.find?_eq_none.mp hfind e he
    obtain ⟨offs, off, hread, hlen, -⟩ := readNewc_foldl (fun e he => ⟨hes e he, hne e he⟩) newcTrailer_fits rfl []
      (show 4 ∣ ([] : Bytes).length from dvd_zero 4)
    rw [List.append_nil] at hread
    unfold readArchive newcArchive
    rw [show readNewc _ 0 = _ from hread]
    simp only [if_true, List.map_snd_zip (Nat.le_of_eq hlen.symm), Option.some.injEq]
    exact (and_iff_left hne).symm
  | some t =>
    obtain ⟨ht, a, b, rfl, ha⟩ := List.find?_eq_some_iff_append.mp hfind
    have hname : t.name = trailerName := of_decide_eq_true ht
    have hfits : ∀ e ∈ a, e.Fits ∧ e.name ≠ trailerName := fun e he =>
      ⟨hes e (List.mem_append_left _ he), by simpa using ha e he⟩
    -- the reader stops at the entry, and something stands behind it
    have hpre := prefix_foldl_writeNewc (writeNewc (a.foldl writeNewc []) t) b
    obtain ⟨rest, hrest⟩ := hpre.trans (prefix_writeNewc _ newcTrailer)
    have hlt := Nat.lt_of_le_of_lt hpre.length_le (length_lt_writeNewc _ newcTrailer)
    obtain ⟨offs, off, hread, -⟩ := readNewc_foldl hfits (hes t (by simp)) hname rest
      (show 4 ∣ ([] : Bytes).length from dvd_zero 4)
    have hraw : newcArchive (a ++ t :: b) =
        writeNewc (b.foldl writeNewc (writeNewc (a.foldl writeNewc []) t)) newcTrailer := by
      rw [newcArchive, List.foldl_append, List.foldl_cons]
    have hnone : readArchive (newcArchive (a ++ t :: b)) = none := by
      rw [hrest, ← hraw] at hread
      rw [← hraw] at hlt
      unfold readArchive
      rw [show readNewc _ 0 = _ from hread]
      exact if_neg hlt.ne
    rw [hnone]
    refine iff_of_false nofun fun h => h.2 t (by simp) hname

/-- The reader gets back the entries of an archive in their order, finds every header at a multiple of four, and
ends at the end of the archive. -/
theorem readNewc_newcArchive (es : List NewcEntry)
    (hes : ∀ e ∈ es, e.name ≠ trailerName ∧ e.name.length + 1 < 2 ^ 32 ∧ e.data.length < 2 ^ 32) :
    ∃ (offs : List Nat) (off : Nat), readNewc (newcArchive es) 0 = some (offs.zip es, off, (newcArchive es).length) ∧
      offs.length = es.length ∧ (∀ o ∈ offs, 4 ∣ o) ∧ 4 ∣ off := by
  have hread := readNewc_foldl (fun e he => ⟨(hes e he).2, (hes e he).1⟩) newcTrailer_fits rfl []
    (show 4 ∣ ([] : Bytes).length from dvd_zero 4)
  rwa [List.append_nil] at hread

/-- A part of the overlay. -/
theorem readNewc_overlay :
    let es : List NewcEntry :=
      [⟨1, 0o40755, 2, str "scripts", []⟩, ⟨2, 0o100644, 1, str "scripts/init", str "#!/bin/sh\n"⟩]
    ∃ (offs : List Nat) (off : Nat), readNewc (newcArchive es) 0 = some (offs.zip es, off, (newcArchive es).length) ∧
      offs.length = 2 ∧ (∀ o ∈ offs, 4 ∣ o) ∧ 4 ∣ off :=
  readNewc_newcArchive [⟨1, 0o40755, 2, str "scripts", []⟩, ⟨2, 0o100644, 1, str "scripts/init", str "#!/bin/sh\n"⟩]
    (by decide)

/-- The size of a name of `2 ^ 32 - 1` bytes is written as zero. -/
theorem readNewc_of_namesize {e : NewcEntry} (hdata : e.data.length < 2 ^ 32) (hname : e.name.length + 1 = 2 ^ 32)
    (es : List NewcEntry) : readNewc (newcArchive (e :: es)) 0 = none := by
  have hsize : e.namesize.toNat = 0 := by
    rw [NewcEntry.namesize, UInt32.toNat_ofNat', hname, Nat.mod_self]
  obtain ⟨rest, hrest⟩ := (prefix_foldl_writeNewc (writeNewc [] e) es).trans (prefix_writeNewc _ newcTrailer)
  have hheader : Holds (newcArchive (e :: es)) 0 e.header := by
    rw [newcArchive, List.foldl_cons, ← hrest]
    exact writeNewc_header [] e rest
  have hread : readEntry (newcArchive (e :: es)) 0 = none := by
    rw [readEntry, readHeader_eq hheader hdata]
    exact if_pos hsize
  rw [readNewc, hread]

/-- A name that is too long is not read back. -/
theorem readNewc_long_name :
    let e : NewcEntry := ⟨1, 0o100644, 1, List.replicate (2 ^ 32 - 1) 97, []⟩
    e.name ≠ [] ∧ 0 ∉ e.name ∧ e.name ≠ trailerName ∧ e.data.length < 2 ^ 32 ∧
      readNewc (newcArchive [e]) 0 = none := by
  intro e
  have hlen : e.name.length = 2 ^ 32 - 1 := List.length_replicate
  refine ⟨?_, ?_, ?_, by decide, readNewc_of_namesize (by decide) (by rw [hlen]; rfl) []⟩
  · intro h
    rw [h] at hlen
    exact absurd hlen (by decide)
  · intro h
    exact absurd (List.eq_of_mem_replicate h) (by decide)
  · intro h
    rw [h] at hlen
    exact absurd hlen (by decide)

end MaasBoot
