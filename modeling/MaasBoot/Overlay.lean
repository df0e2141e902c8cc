import MaasBoot.Archive
import MaasBoot.Lib.FileTree
import MaasBoot.Newc
import Mathlib.Algebra.Order.BigOperators.Group.List
import Mathlib.Data.Fintype.Card

/-!
# The overlay archive

`BuildOverlayCPIO` of `overlay.go` walks through a directory and writes everything below it into a newc archive.
The name of an entry is the rest of the visited path behind the path of the directory and a slash.  The paths below
the directory `.` do not start with it, so there the first two bytes of every name are cut off.

Otherwise the archive lists what is below the directory, as long as the sizes fit into the fields of the format and no
entry has the name of the trailer (`buildOverlayCPIO_lists_iff`).
-/

namespace MaasBoot

/-! ### Building -/

/-- The files that must be executable. -/
def overlayExecutable (name : Bytes) : Bool := name == str "scripts/init-premount/bond"

/-- The buffer and the last inode number. -/
structure OverlayState where
  raw : Bytes := []
  ino : UInt32 := 0

/-- The function that `BuildOverlayCPIO` passes to `fs.WalkDir`. -/
def visitOverlay (fsys : FileSystem) (root : Bytes) (st : OverlayState) (v : Visit) : Go OverlayState :=
  match v.err with
  | some err => .error err
  | none =>
    if v.path = root then .ok st
    else if root.length + 1 ≤ v.path.length then
      let name := v.path.drop (root.length + 1)
      let ino := st.ino + 1
      if v.isDir then .ok { raw := writeNewc st.raw ⟨ino, 0o40755, 2, name, []⟩, ino := ino }
      else
        match fsys.readFile v.path with
        | .error err => .error err
        | .ok data =>
          let mode := if overlayExecutable name then 0o100755 else 0o100644
          .ok { raw := writeNewc st.raw ⟨ino, mode, 1, name, data⟩, ino := ino }
    else .error .panic

/-- The walk is a parameter, and the error of the gzip writer, if there is one. -/
def buildOverlayCPIO (walk : FileSystem → Bytes → List Visit) (gzip : Gzip) (gzipErr : GoError) (fsys : FileSystem)
    (root : Bytes) : Go Bytes := do
  let st ← (walk fsys root).foldlM (visitOverlay fsys root) {}
  match gzip.compress (writeNewc st.raw newcTrailer) with
  | some out => .ok out
  | none => .error gzipErr

def overlayRoot : Bytes := str "initramfs-bond-overlay"

/-- The directory with the two hook files. -/
def overlayDir (order bond : Bytes) : Dir :=
  .dir (str "scripts")
    (.dir (str "init-premount") (.file (str "ORDER") order (.file (str "bond") bond .empty)) .empty) .empty

/-- The embedded files. -/
def overlayScripts (order bond : Bytes) : FileSystem where
  top := .dir overlayRoot (overlayDir order bond) .empty
  wf := by
    unfold overlayDir
    simp only [Dir.WF, Dir.names]
    decide

def mustBuildOverlay (gzip : Gzip) (gzipErr : GoError) (order bond : Bytes) : Go Bytes :=
  match buildOverlayCPIO walkDir gzip gzipErr (overlayScripts order bond) overlayRoot with
  | .ok b => .ok b
  | .error _ => .error .panic

/-! ### What an archive should list -/

/-- The type of an entry in its mode. -/
def NewcEntry.isDir (e : NewcEntry) : Bool := e.mode &&& 0o170000 == 0o40000

/-- The entries are those of everything below a directory, each once and under its path, in an order in which every
directory comes before what is in it, and with distinct inode numbers. -/
structure Lists (d : Dir) (es : List NewcEntry) : Prop where
  all : (es.map fun e => (e.name, e.isDir, e.data)).Perm
    (d.descendants.map fun f => (pathName f.1, f.2.isNone, f.2.getD []))
  nodup : (es.map (·.name)).Nodup
  ordered : es.Pairwise fun e e' => ¬ Inside e.name e'.name
  inodes : (es.map (·.ino)).Nodup
  ino_ne_zero : ∀ e ∈ es, e.ino ≠ 0

/-! ### What is written -/

/-- The entry of something below `root`. -/
def overlayEntry (root : Bytes) (ino : UInt32) (f : List Bytes × Option Bytes) : NewcEntry :=
  let name := (pathJoin root (pathName f.1)).drop (root.length + 1)
  match f.2 with
  | none => ⟨ino, 0o40755, 2, name, []⟩
  | some data => ⟨ino, if overlayExecutable name then 0o100755 else 0o100644, 1, name, data⟩

theorem overlayEntry_spec (root : Bytes) (ino : UInt32) (f : List Bytes × Option Bytes) :
    (overlayEntry root ino f).ino = ino ∧
    (overlayEntry root ino f).name = (pathJoin root (pathName f.1)).drop (root.length + 1) ∧
    (overlayEntry root ino f).isDir = f.2.isNone ∧ (overlayEntry root ino f).data = f.2.getD [] := by
  obtain ⟨q, c⟩ := f
  cases c with
  | none =>
    refine ⟨rfl, rfl, ?_, rfl⟩
    have hmode : ((0o40755 : UInt32) &&& 0o170000 == 0o40000) = true := by decide
    exact hmode
  | some data =>
    refine ⟨rfl, rfl, ?_, rfl⟩
    unfold overlayEntry NewcEntry.isDir
    dsimp only
    rw [Option.isNone_some]
    split <;> decide

section Walk

variable {fsys : FileSystem} {root : Bytes} {d : Dir} (hroot : fsys.find root = some (.dir d))
include hroot

/-- The call for something below `root`. -/
theorem visitOverlay_visitOf {f : List Bytes × Option Bytes} (hf : f ∈ d.descendants) (st : OverlayState) :
    visitOverlay fsys root st (visitOf root f) =
      if root.length + 1 ≤ (pathJoin root (pathName f.1)).length then
        .ok { raw := writeNewc st.raw (overlayEntry root (st.ino + 1) f), ino := st.ino + 1 }
      else .error .panic := by
  have hne : pathJoin root (pathName f.1) ≠ root :=
    pathJoin_ne_self (Dir.valid_of_mem_descendants (FileSystem.wf_of_find hroot) hf)
  obtain ⟨q, c⟩ := f
  unfold visitOverlay visitOf
  dsimp only
  rw [if_neg hne]
  by_cases hlen : root.length + 1 ≤ (pathJoin root (pathName q)).length
  · rw [if_pos hlen, if_pos hlen]
    cases c with
    | none => rfl
    | some data =>
      rw [FileSystem.readFile_pathJoin hroot hf]
      rfl
  · rw [if_neg hlen, if_neg hlen]

/-- The calls for a list of things below `root`, after `k` others. -/
theorem foldlM_visitOverlay {fs : List (List Bytes × Option Bytes)} (hfs : ∀ f ∈ fs, f ∈ d.descendants) (raw : Bytes)
    (k : Nat) (st : OverlayState) :
    (fs.map (visitOf root)).foldlM (visitOverlay fsys root) { raw := raw, ino := UInt32.ofNat k } = Except.ok st ↔
      (∀ f ∈ fs, root.length + 1 ≤ (pathJoin root (pathName f.1)).length) ∧
      st = { raw := (fs.mapIdx fun i f => overlayEntry root (UInt32.ofNat (k + i + 1)) f).foldl writeNewc raw,
             ino := UInt32.ofNat (k + fs.length) } := by
  induction fs generalizing raw k with
  | nil =>
    simp only [List.map_nil, List.foldlM_nil, List.mapIdx_nil, List.foldl_nil, List.not_mem_nil, false_imp_iff,
      implies_true, true_and, List.length_nil, Nat.add_zero]
    exact ⟨fun h => (Except.ok.inj h).symm, fun h => congrArg Except.ok h.symm⟩
  | cons f fs ih =>
    rw [List.forall_mem_cons] at hfs
    rw [List.map_cons, List.foldlM_cons, visitOverlay_visitOf hroot hfs.1, List.forall_mem_cons]
    by_cases hlen : root.length + 1 ≤ (pathJoin root (pathName f.1)).length
    · have hino : UInt32.ofNat k + 1 = UInt32.ofNat (k + 1) := (UInt32.ofNat_add k 1).symm
      rw [if_pos hlen, ok_bind, hino, ih hfs.2, List.mapIdx_cons, List.foldl_cons, List.length_cons]
      simp only [hlen, true_and, Nat.add_zero, Nat.add_right_comm, Nat.add_assoc, Nat.add_comm 1]
    · rw [if_neg hlen]
      exact iff_of_false nofun fun h => hlen h.1.1

end Walk

/-- The entries of the archive. -/
def written (root : Bytes) (fs : List (List Bytes × Option Bytes)) : List NewcEntry :=
  fs.mapIdx fun i f => overlayEntry root (UInt32.ofNat (i + 1)) f

theorem map_written (root : Bytes) (fs : List (List Bytes × Option Bytes)) :
    ((written root fs).map fun e => (e.name, e.isDir, e.data)) =
      fs.map fun f => ((pathJoin root (pathName f.1)).drop (root.length + 1), f.2.isNone, f.2.getD []) := by
  refine List.ext_getElem (by simp [written]) fun i hi hi' => ?_
  simp only [written, List.getElem_map, List.getElem_mapIdx]
  obtain ⟨-, hname, hdir, hdata⟩ := overlayEntry_spec root (UInt32.ofNat (i + 1)) (fs.get ⟨i, by simpa using hi'⟩)
  exact Prod.ext hname (Prod.ext hdir hdata)

theorem map_ino_written (root : Bytes) (fs : List (List Bytes × Option Bytes)) :
    (written root fs).map (·.ino) = (List.range fs.length).map fun i => UInt32.ofNat (i + 1) := by
  refine List.ext_getElem (by simp [written]) fun i hi hi' => ?_
  simp only [written, List.getElem_map, List.getElem_mapIdx, List.getElem_range]
  exact (overlayEntry_spec root _ _).1

theorem map_name_written (root : Bytes) (fs : List (List Bytes × Option Bytes)) :
    (written root fs).map (·.name) = fs.map fun f => (pathJoin root (pathName f.1)).drop (root.length + 1) := by
  have h := congrArg (List.map Prod.fst) (map_written root fs)
  rwa [List.map_map, List.map_map] at h

/-! ### Names -/

/-- Behind the directory and the slash stands the path below it. -/
theorem drop_pathJoin {root : Bytes} (hroot : root ≠ str ".") (p : Bytes) :
    root.length + 1 ≤ (pathJoin root p).length ∧ (pathJoin root p).drop (root.length + 1) = p := by
  rw [pathJoin, if_neg hroot, List.drop_append, List.length_append, List.length_cons]
  refine ⟨by omega, ?_⟩
  simp

theorem length_drop_pathJoin_le (root p : Bytes) : ((pathJoin root p).drop (root.length + 1)).length ≤ p.length := by
  rw [List.length_drop]
  unfold pathJoin
  split
  · omega
  · rw [List.length_append, List.length_cons]
    omega

/-- Names that are too short. -/
theorem eq_empty_of_drop_dot {d : Dir} (hwf : d.WF)
    (h : (d.descendants.map fun f => (pathName f.1).drop 2).Perm (d.descendants.map fun f => pathName f.1)) :
    d = .empty := by
  by_contra hne
  have hnil : d.descendants ≠ [] := fun h => hne (Dir.eq_empty_of_descendants_eq_nil h)
  -- together they are shorter than the paths
  have hlt : (d.descendants.map fun f => ((pathName f.1).drop 2).length).sum <
      (d.descendants.map fun f => (pathName f.1).length).sum := by
    refine List.sum_lt_sum_of_ne_nil hnil _ _ fun f hf => ?_
    have hpos := List.length_pos_of_ne_nil (pathName_ne_nil (Dir.valid_of_mem_descendants hwf hf))
    rw [List.length_drop]
    omega
  have hsum := (h.map List.length).sum_eq
  rw [List.map_map, List.map_map] at hsum
  exact hlt.ne hsum

/-! ### The list of entries -/

/-- The sizes of entries that a reader has found. -/
theorem Lists.sizes {d : Dir} {es : List NewcEntry} (h : Lists d es) (hes : ∀ e ∈ es, e.Fits) :
    d.descendants.length < 2 ^ 32 ∧
    ∀ f ∈ d.descendants, (pathName f.1).length + 1 < 2 ^ 32 ∧ (f.2.getD []).length < 2 ^ 32 := by
  constructor
  · -- with zero there is one more number of 32 bits
    have hnodup : (0 :: es.map (·.ino)).Nodup := by
      refine List.nodup_cons.mpr ⟨fun hmem => ?_, h.inodes⟩
      obtain ⟨e, he, hino⟩ := List.mem_map.mp hmem
      exact h.ino_ne_zero e he hino
    have hcard := (hnodup.map fun a b hab => UInt32.toFin_inj.mp hab).length_le_card
    have hlen := h.all.length_eq
    simp only [List.length_map, List.length_cons, Fintype.card_fin, UInt32.size] at hcard hlen
    omega
  · intro f hf
    obtain ⟨e, he, heq⟩ := List.mem_map.mp (h.all.symm.subset (List.mem_map_of_mem hf))
    rw [Prod.mk.injEq, Prod.mk.injEq] at heq
    rw [← heq.1, ← heq.2.2]
    exact hes e he

section Named

-- a directory below which the names are right
variable {root : Bytes} {d : Dir} {fs : List (List Bytes × Option Bytes)} (hwf : d.WF) (hperm : fs.Perm d.descendants)
  (hname : ∀ f ∈ fs, (pathJoin root (pathName f.1)).drop (root.length + 1) = pathName f.1)
include hname

theorem map_name_written_eq : (written root fs).map (·.name) = fs.map fun f => pathName f.1 :=
  (map_name_written root fs).trans (List.map_congr_left hname)

include hwf hperm

theorem name_ne_trailerName_iff : (∀ e ∈ written root fs, e.name ≠ trailerName) ↔ trailerName ∉ d.names := by
  have hmem : trailerName ∈ (written root fs).map (·.name) ↔ trailerName ∈ d.names := by
    rw [map_name_written_eq hname, (hperm.map _).mem_iff, List.mem_map, Dir.mem_names_iff hwf (by decide)]
  rw [← hmem, List.mem_map]
  simp

/-- Then so is the list. -/
theorem lists_written (hordered : fs.Pairwise fun f f' => ¬ Inside (pathName f.1) (pathName f'.1))
    (hlen : d.descendants.length < 2 ^ 32) : Lists d (written root fs) := by
  have hino : ∀ i < fs.length, (UInt32.ofNat (i + 1)).toNat = i + 1 := by
    intro i hi
    rw [hperm.length_eq] at hi
    rw [UInt32.toNat_ofNat', Nat.mod_eq_of_lt (by omega)]
  constructor
  case all =>
    rw [map_written, List.map_congr_left fun f hf => by rw [hname f hf]]
    exact hperm.map _
  case nodup =>
    rw [map_name_written_eq hname, (hperm.map _).nodup_iff]
    exact Dir.nodup_pathName hwf
  case ordered =>
    have hpairs : ((written root fs).map (·.name)).Pairwise fun p p' => ¬ Inside p p' := by
      rw [map_name_written_eq hname, List.pairwise_map]
      exact hordered
    exact List.pairwise_map.mp hpairs
  case inodes =>
    rw [map_ino_written]
    refine List.nodup_range.map_on fun i hi j hj hij => ?_
    have hval := congrArg UInt32.toNat hij
    rw [hino i (List.mem_range.mp hi), hino j (List.mem_range.mp hj)] at hval
    omega
  case ino_ne_zero =>
    intro e he hzero
    have hmem : e.ino ∈ (written root fs).map (·.ino) := List.mem_map_of_mem he
    rw [map_ino_written] at hmem
    obtain ⟨i, hi, hi'⟩ := List.mem_map.mp hmem
    have hval := hino i (List.mem_range.mp hi)
    rw [hi', hzero] at hval
    cases hval

end Named

/-- The entries fit, whatever the directory. -/
theorem written_fits {root : Bytes} {fs : List (List Bytes × Option Bytes)}
    (hfs : ∀ f ∈ fs, (pathName f.1).length + 1 < 2 ^ 32 ∧ (f.2.getD []).length < 2 ^ 32) :
    ∀ e ∈ written root fs, e.Fits := by
  intro e he
  obtain ⟨i, hi, rfl⟩ := List.mem_mapIdx.mp he
  obtain ⟨-, hname, -, hdata⟩ := overlayEntry_spec root (UInt32.ofNat (i + 1)) fs[i]
  obtain ⟨hlen, hlen'⟩ := hfs fs[i] (List.getElem_mem hi)
  have hle := length_drop_pathJoin_le root (pathName fs[i].1)
  unfold NewcEntry.Fits
  rw [hname, hdata]
  exact ⟨by omega, hlen'⟩

/-- The archive is built if no visited path is too short for its name. -/
theorem buildOverlayCPIO_eq_ok_iff {fsys : FileSystem} {root : Bytes} {d : Dir}
    (hroot : fsys.find root = some (.dir d)) {walk : FileSystem → Bytes → List Visit}
    {fs : List (List Bytes × Option Bytes)} (hperm : fs.Perm d.descendants)
    (hfs : walk fsys root = { path := root, isDir := true } :: fs.map (visitOf root)) (gzip : Gzip)
    (gzipErr : GoError) (out : Bytes) :
    buildOverlayCPIO walk gzip gzipErr fsys root = .ok out ↔
      (∀ f ∈ d.descendants, root.length + 1 ≤ (pathJoin root (pathName f.1)).length) ∧
      gzip.compress (newcArchive (written root fs)) = some out := by
  have hfirst : visitOverlay fsys root {} { path := root, isDir := true } = .ok {} := if_pos rfl
  have hfold := foldlM_visitOverlay hroot (fun f hf => hperm.subset hf) [] 0
  simp only [hperm.mem_iff, Nat.zero_add] at hfold
  unfold buildOverlayCPIO
  rw [hfs, List.foldlM_cons, hfirst, ok_bind]
  change (do
    let st ← (fs.map (visitOf root)).foldlM (visitOverlay fsys root) { raw := [], ino := UInt32.ofNat 0 }
    match gzip.compress (writeNewc st.raw newcTrailer) with
    | some out => .ok out
    | none => .error gzipErr) = Except.ok out ↔ _
  cases hst : (fs.map (visitOf root)).foldlM (visitOverlay fsys root) { raw := [], ino := UInt32.ofNat 0 } with
  | error e =>
    refine iff_of_false nofun fun h => ?_
    rw [(hfold _).mpr ⟨h.1, rfl⟩] at hst
    cases hst
  | ok st =>
    obtain ⟨hlen, rfl⟩ := (hfold st).mp hst
    rw [ok_bind, and_iff_right hlen]
    dsimp only
    change (match gzip.compress (newcArchive (written root fs)) with
      | some out => Except.ok out
      | none => Except.error gzipErr) = _ ↔ _
    cases gzip.compress (newcArchive (written root fs)) with
    | none => exact iff_of_false nofun nofun
    | some out' => simp

/-- The archive lists what is below a directory if and only if the directory is not `.` or has nothing below it,
nothing in it has the name of the trailer, and the sizes fit into the fields of the format. -/
theorem buildOverlayCPIO_lists_iff (gzip : Gzip) (gzipErr : GoError) (hgzip : ∀ b, (gzip.compress b).isSome = true)
    (walk : FileSystem → Bytes → List Visit) (fsys : FileSystem) (root : Bytes) (d : Dir)
    (hroot : fsys.find root = some (.dir d)) (hwalk : IsWalk root d (walk fsys root)) :
    (∃ out raw es, buildOverlayCPIO walk gzip gzipErr fsys root = .ok out ∧ gzip.newReader out =
      some { data := raw } ∧ readArchive raw = some es ∧ Lists d es) ↔
    (root = str "." → d = .empty) ∧ trailerName ∉ d.names ∧ d.descendants.length < 2 ^ 32 ∧
      ∀ f ∈ d.descendants, (pathName f.1).length + 1 < 2 ^ 32 ∧ (f.2.getD []).length < 2 ^ 32 := by
  have hwf := FileSystem.wf_of_find hroot
  obtain ⟨fs, hperm, hfs, hordered⟩ := hwalk.exists_eq
  have hbuild := buildOverlayCPIO_eq_ok_iff hroot hperm hfs gzip gzipErr
  -- the names are right unless the directory is `.`
  have hnames : (root = str "." → d = .empty) → ∀ f ∈ d.descendants,
      root.length + 1 ≤ (pathJoin root (pathName f.1)).length ∧
      (pathJoin root (pathName f.1)).drop (root.length + 1) = pathName f.1 := by
    intro hdot f hf
    refine drop_pathJoin (fun h => ?_) _
    rw [hdot h] at hf
    cases hf
  constructor
  · rintro ⟨out, raw, es, hout, hread, hes, hlists⟩
    obtain ⟨-, hgz⟩ := (hbuild out).mp hout
    obtain ⟨hlen, hsizes⟩ := hlists.sizes (fits_of_readArchive hes)
    rw [gzip.newReader_compress hgz, Option.some.injEq, Stream.mk.injEq] at hread
    rw [← hread.1, readArchive_newcArchive_iff (written_fits fun f hf => hsizes f (hperm.subset hf))] at hes
    obtain ⟨rfl, hne⟩ := hes
    have hdot : root = str "." → d = .empty := by
      rintro rfl
      have hall := hlists.all.map Prod.fst
      rw [map_written, List.map_map, List.map_map] at hall
      exact eq_empty_of_drop_dot hwf ((hperm.symm.map _).trans hall)
    have hname := fun f hf => (hnames hdot f (hperm.subset hf)).2
    exact ⟨hdot, (name_ne_trailerName_iff hwf hperm hname).mp hne, hlen, hsizes⟩
  · rintro ⟨hdot, hnot, hlen, hsizes⟩
    obtain ⟨out, hout⟩ := Option.isSome_iff_exists.mp (hgzip (newcArchive (written root fs)))
    have hname := fun f hf => (hnames hdot f (hperm.subset hf)).2
    refine ⟨out, _, written root fs, (hbuild out).mpr ⟨fun f hf => (hnames hdot f hf).1, hout⟩,
      gzip.newReader_compress hout, ?_, lists_written hwf hperm hname hordered hlen⟩
    rw [readArchive_newcArchive_iff (written_fits fun f hf => hsizes f (hperm.subset hf))]
    exact ⟨rfl, (name_ne_trailerName_iff hwf hperm hname).mpr hnot⟩

/-- The overlay with short hook files. -/
theorem buildOverlayCPIO_lists_overlayDir :
    let d := overlayDir (str "/scripts/init-premount/bond\n") (str "#!/bin/sh\n")
    let fsys := overlayScripts (str "/scripts/init-premount/bond\n") (str "#!/bin/sh\n")
    ∃ out raw es, buildOverlayCPIO walkDir Plain.gzip .panic fsys overlayRoot = .ok out ∧
      Plain.gzip.newReader out = some { data := raw } ∧ readArchive raw = some es ∧ Lists d es :=
  (buildOverlayCPIO_lists_iff Plain.gzip .panic (fun _ => rfl) walkDir
    (overlayScripts (str "/scripts/init-premount/bond\n") (str "#!/bin/sh\n")) overlayRoot
    (overlayDir (str "/scripts/init-premount/bond\n") (str "#!/bin/sh\n")) rfl (isWalk_walkDir rfl)).mpr
    ⟨by decide, by decide, by decide, by decide⟩

/-- Below `.` the names lose their first two bytes, and a name of one byte is a panic. -/
theorem buildOverlayCPIO_dot :
    let etc : FileSystem := ⟨.dir (str "etc") (.file (str "hosts") (str "127.0.0.1 localhost\n") .empty)
      .empty, by decide⟩
    let a : FileSystem := ⟨.file (str "a") [] .empty, by decide⟩
    (∃ out raw es, buildOverlayCPIO walkDir Plain.gzip .panic etc (str ".") = .ok out ∧
      Plain.gzip.newReader out = some { data := raw } ∧ readArchive raw = some es ∧
      es.map (·.name) = [str "c", str "c/hosts"] ∧ ¬ Lists etc.top es) ∧
    buildOverlayCPIO walkDir Plain.gzip .panic a (str ".") = .error .panic := by
  intro etc a
  refine ⟨?_, rfl⟩
  have hroot : etc.find (str ".") = some (.dir etc.top) := rfl
  have hbuild := buildOverlayCPIO_eq_ok_iff hroot (List.Perm.refl _) (walkDir_eq hroot) Plain.gzip .panic
  refine ⟨_, _, written (str ".") etc.top.descendants, (hbuild _).mpr ⟨by decide, rfl⟩,
    Plain.gzip.newReader_compress rfl, ?_, by decide, fun h => ?_⟩
  · rw [readArchive_newcArchive_iff (written_fits (by decide))]
    exact ⟨rfl, by decide⟩
  · have hmem : str "etc" ∈ (written (str ".") etc.top.descendants).map (·.name) := by
      have hall := (h.all.map Prod.fst).symm.subset
      rw [List.map_map, List.map_map] at hall
      exact hall (by decide)
    exact absurd hmem (by decide)

/-- The four entries of the overlay. -/
theorem mustBuildOverlay_entries (gzip : Gzip) (gzipErr : GoError) (hgzip : ∀ b, (gzip.compress b).isSome = true)
    {order bond : Bytes} (horder : order.length < 2 ^ 32) (hbond : bond.length < 2 ^ 32) :
    ∃ out raw, mustBuildOverlay gzip gzipErr order bond = .ok out ∧ gzip.newReader out = some { data := raw } ∧
      readArchive raw = some
        [⟨1, 0o40755, 2, str "scripts", []⟩, ⟨2, 0o40755, 2, str "scripts/init-premount", []⟩,
         ⟨3, 0o100644, 1, str "scripts/init-premount/ORDER", order⟩,
         ⟨4, 0o100755, 1, str "scripts/init-premount/bond", bond⟩] := by
  have hroot : (overlayScripts order bond).find overlayRoot = some (.dir (overlayDir order bond)) := rfl
  have hbuild := buildOverlayCPIO_eq_ok_iff hroot (List.Perm.refl _) (walkDir_eq hroot) gzip gzipErr
  obtain ⟨out, hout⟩ := Option.isSome_iff_exists.mp
    (hgzip (newcArchive (written overlayRoot (overlayDir order bond).descendants)))
  refine ⟨out, _, ?_, gzip.newReader_compress hout, ?_⟩
  · have hok := (hbuild out).mpr ⟨fun f _ => (drop_pathJoin (by decide) _).1, hout⟩
    rw [mustBuildOverlay, hok]
  · have htrailer : trailerName ∉ (overlayDir order bond).names := show trailerName ∉ [str "scripts"] by decide
    rw [readArchive_newcArchive_iff (written_fits ?_)]
    · refine ⟨rfl, ?_⟩
      rwa [name_ne_trailerName_iff (FileSystem.wf_of_find hroot) (List.Perm.refl _)]
      exact fun f _ => (drop_pathJoin (by decide) _).2
    · simp only [overlayDir, Dir.descendants, List.map_cons, List.map_nil, List.append_nil, List.forall_mem_cons]
      refine ⟨by decide, by decide, ⟨by decide, horder⟩, ⟨by decide, hbond⟩, List.forall_mem_nil _⟩

end MaasBoot
