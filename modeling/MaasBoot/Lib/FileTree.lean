import MaasBoot.Lib.Bytes
import Mathlib.Data.List.Nodup
import Mathlib.Data.List.Perm.Basic

/-!
# File trees

A finite tree of files and directories, as the package `io/fs` shows it.  The names in a directory are distinct, and
`fs.ReadDir` lists them in order.  A path is a list of names or, for the callers of the package, the names with
slashes between them; the path of the top is `.`.

`descendants` lists everything below a directory, each directory before what is in it (`pairwise_descendants`).
`fs.WalkDir` visits a directory and everything below it (`isWalk_walkDir`).
-/

namespace MaasBoot

/-! ### Trees -/

/-- The entries of a directory, one after another. -/
inductive Dir where
  | empty
  | file (name data : Bytes) (rest : Dir)
  | dir (name : Bytes) (sub rest : Dir)
  deriving DecidableEq

/-- A file or a directory. -/
inductive TreeNode where
  | file (data : Bytes)
  | dir (entries : Dir)
  deriving DecidableEq

/-- The content of a file. -/
def TreeNode.content : TreeNode → Option Bytes
  | .file data => some data
  | .dir _ => none

/-- An element of a path, as `fs.ValidPath` accepts it. -/
def ValidName (n : Bytes) : Prop := n ≠ [] ∧ 47 ∉ n ∧ n ≠ str "." ∧ n ≠ str ".."

instance (n : Bytes) : Decidable (ValidName n) := inferInstanceAs (Decidable (_ ∧ _ ∧ _ ∧ _))

/-- The names of a path below a directory. -/
def ValidPath (q : List Bytes) : Prop := q ≠ [] ∧ ∀ n ∈ q, ValidName n

namespace Dir

def names : Dir → List Bytes
  | empty => []
  | file n _ rest => n :: rest.names
  | dir n _ rest => n :: rest.names

/-- The names are valid and in increasing order, in all directories. -/
def WF : Dir → Prop
  | empty => True
  | file n _ rest => ValidName n ∧ (∀ m ∈ rest.names, n < m) ∧ rest.WF
  | dir n sub rest => ValidName n ∧ (∀ m ∈ rest.names, n < m) ∧ sub.WF ∧ rest.WF

instance decidableWF : (d : Dir) → Decidable d.WF
  | empty => isTrue trivial
  | file _ _ rest => @instDecidableAnd _ _ _ (@instDecidableAnd _ _ _ rest.decidableWF)
  | dir _ sub rest =>
    @instDecidableAnd _ _ _ (@instDecidableAnd _ _ _ (@instDecidableAnd _ _ sub.decidableWF rest.decidableWF))

/-- What is at a path. -/
def find : Dir → List Bytes → Option TreeNode
  | empty, _ => none
  | file n data rest, q => if q = [n] then some (.file data) else rest.find q
  | dir _ _ _, [] => none
  | dir n sub rest, x :: q =>
    if x = n then if q = [] then some (.dir sub) else sub.find q else rest.find (x :: q)

/-- The paths and contents of everything below a directory; a directory has no content. -/
def descendants : Dir → List (List Bytes × Option Bytes)
  | empty => []
  | file n data rest => ([n], some data) :: rest.descendants
  | dir n sub rest => ([n], none) :: ((sub.descendants.map fun e => (n :: e.1, e.2)) ++ rest.descendants)

/-! ### Paths -/

theorem exists_mem_names {d : Dir} {e : List Bytes × Option Bytes} (h : e ∈ d.descendants) :
    ∃ n ∈ d.names, ∃ q, e.1 = n :: q := by
  induction d with
  | empty => cases h
  | file n data rest ih =>
    rcases List.mem_cons.mp h with rfl | h
    · exact ⟨n, List.mem_cons_self, [], rfl⟩
    · obtain ⟨m, hm, hq⟩ := ih h
      exact ⟨m, List.mem_cons_of_mem n hm, hq⟩
  | dir n sub rest ihsub ih =>
    rcases List.mem_cons.mp h with rfl | h
    · exact ⟨n, List.mem_cons_self, [], rfl⟩
    · rcases List.mem_append.mp h with h | h
      · obtain ⟨e', -, rfl⟩ := List.mem_map.mp h
        exact ⟨n, List.mem_cons_self, e'.1, rfl⟩
      · obtain ⟨m, hm, hq⟩ := ih h
        exact ⟨m, List.mem_cons_of_mem n hm, hq⟩

theorem ne_nil_of_mem_descendants {d : Dir} {e : List Bytes × Option Bytes} (h : e ∈ d.descendants) : e.1 ≠ [] := by
  obtain ⟨n, -, q, hq⟩ := exists_mem_names h
  rw [hq]
  exact List.cons_ne_nil n q

/-- The entries of a directory are below it. -/
theorem exists_mem_descendants {d : Dir} {n : Bytes} (h : n ∈ d.names) : ∃ c, ([n], c) ∈ d.descendants := by
  induction d with
  | empty => cases h
  | file m data rest ih =>
    rcases List.mem_cons.mp h with rfl | h
    · exact ⟨some data, List.mem_cons_self⟩
    · obtain ⟨c, hc⟩ := ih h
      exact ⟨c, List.mem_cons_of_mem _ hc⟩
  | dir m sub rest ihsub ih =>
    rcases List.mem_cons.mp h with rfl | h
    · exact ⟨none, List.mem_cons_self⟩
    · obtain ⟨c, hc⟩ := ih h
      exact ⟨c, List.mem_cons_of_mem _ (List.mem_append_right _ hc)⟩

theorem eq_empty_of_descendants_eq_nil {d : Dir} (h : d.descendants = []) : d = empty := by
  cases d with
  | empty => rfl
  | file n data rest => cases h
  | dir n sub rest => cases h

theorem valid_of_mem_descendants {d : Dir} (hwf : d.WF) {e : List Bytes × Option Bytes} (h : e ∈ d.descendants) :
    ValidPath e.1 := by
  refine ⟨ne_nil_of_mem_descendants h, ?_⟩
  induction d generalizing e with
  | empty => cases h
  | file n data rest ih =>
    obtain ⟨hn, -, hrest⟩ := hwf
    rcases List.mem_cons.mp h with rfl | h
    · exact fun m hm => List.mem_singleton.mp hm ▸ hn
    · exact ih hrest h
  | dir n sub rest ihsub ih =>
    obtain ⟨hn, -, hsub, hrest⟩ := hwf
    rcases List.mem_cons.mp h with rfl | h
    · exact fun m hm => List.mem_singleton.mp hm ▸ hn
    · rcases List.mem_append.mp h with h | h
      · obtain ⟨e', he', rfl⟩ := List.mem_map.mp h
        exact List.forall_mem_cons.mpr ⟨hn, ihsub hsub he'⟩
      · exact ih hrest h

/-- No path comes before a directory on the way to it, or twice. -/
theorem pairwise_descendants {d : Dir} (hwf : d.WF) : d.descendants.Pairwise fun e e' => ¬ e'.1 <+: e.1 := by
  -- paths that start with different names
  have hne : ∀ {rest : Dir} {n : Bytes}, (∀ m ∈ rest.names, n < m) →
      ∀ q, ∀ e ∈ rest.descendants, ¬ e.1 <+: n :: q := by
    intro rest n hlt q e he hpre
    obtain ⟨m, hm, q', hq'⟩ := exists_mem_names he
    rw [hq', List.cons_prefix_cons] at hpre
    exact List.lt_irrefl n (hpre.1 ▸ hlt m hm)
  induction d with
  | empty => exact List.Pairwise.nil
  | file n data rest ih =>
    obtain ⟨-, hlt, hrest⟩ := hwf
    exact List.pairwise_cons.mpr ⟨hne hlt [], ih hrest⟩
  | dir n sub rest ihsub ih =>
    obtain ⟨-, hlt, hsub, hrest⟩ := hwf
    rw [descendants, List.pairwise_cons, List.pairwise_append, List.pairwise_map]
    refine ⟨?_, (ihsub hsub).imp ?_, ih hrest, ?_⟩
    · intro e he hpre
      rcases List.mem_append.mp he with he | he
      · obtain ⟨e', he', rfl⟩ := List.mem_map.mp he
        rw [List.cons_prefix_cons, List.prefix_nil] at hpre
        exact ne_nil_of_mem_descendants he' hpre.2
      · exact hne hlt [] e he hpre
    · intro e e' h hpre
      exact h (List.cons_prefix_cons.mp hpre).2
    · intro e he e' he' hpre
      obtain ⟨e'', -, rfl⟩ := List.mem_map.mp he
      exact hne hlt _ e' he' hpre

/-- What is below a directory can be found. -/
theorem exists_find {d : Dir} (hwf : d.WF) {e : List Bytes × Option Bytes} (h : e ∈ d.descendants) :
    ∃ t, d.find e.1 = some t ∧ t.content = e.2 := by
  induction d generalizing e with
  | empty => cases h
  | file n data rest ih =>
    obtain ⟨-, hlt, hrest⟩ := hwf
    rcases List.mem_cons.mp h with rfl | h
    · exact ⟨.file data, if_pos rfl, rfl⟩
    · obtain ⟨m, hm, q, hq⟩ := exists_mem_names h
      have hne : e.1 ≠ [n] := by
        rw [hq]
        rintro ⟨⟩
        exact List.lt_irrefl _ (hlt _ hm)
      rw [find, if_neg hne]
      exact ih hrest h
  | dir n sub rest ihsub ih =>
    obtain ⟨-, hlt, hsub, hrest⟩ := hwf
    rcases List.mem_cons.mp h with rfl | h
    · refine ⟨.dir sub, ?_, rfl⟩
      rw [find, if_pos rfl, if_pos rfl]
    · rcases List.mem_append.mp h with h | h
      · obtain ⟨e', he', rfl⟩ := List.mem_map.mp h
        rw [find, if_pos rfl, if_neg (ne_nil_of_mem_descendants he')]
        exact ihsub hsub he'
      · obtain ⟨m, hm, q, hq⟩ := exists_mem_names h
        have hne : m ≠ n := by
          rintro rfl
          exact List.lt_irrefl _ (hlt _ hm)
        obtain ⟨t, ht, hc⟩ := ih hrest h
        refine ⟨t, ?_, hc⟩
        rw [hq] at ht ⊢
        rw [find, if_neg hne]
        exact ht

/-- What can be found is below the directory. -/
theorem mem_descendants_of_find {d : Dir} {q : List Bytes} {t : TreeNode} (h : d.find q = some t) :
    (q, t.content) ∈ d.descendants := by
  induction d generalizing q with
  | empty => cases h
  | file n data rest ih =>
    rw [find] at h
    split at h
    · rename_i hq
      obtain rfl : .file data = t := Option.some.inj h
      rw [hq]
      exact List.mem_cons_self
    · exact List.mem_cons_of_mem _ (ih h)
  | dir n sub rest ihsub ih =>
    cases q with
    | nil => cases h
    | cons x q =>
      rw [find] at h
      split at h
      · rename_i hx
        subst hx
        split at h
        · rename_i hq
          obtain rfl : .dir sub = t := Option.some.inj h
          rw [hq]
          exact List.mem_cons_self
        · exact List.mem_cons_of_mem _ (List.mem_append_left _ (List.mem_map.mpr ⟨_, ihsub h, rfl⟩))
      · exact List.mem_cons_of_mem _ (List.mem_append_right _ (ih h))

theorem mem_descendants_iff {d : Dir} (hwf : d.WF) {q : List Bytes} {c : Option Bytes} :
    (q, c) ∈ d.descendants ↔ ∃ t, d.find q = some t ∧ t.content = c := by
  constructor
  · exact fun h => exists_find hwf h
  · rintro ⟨t, ht, rfl⟩
    exact mem_descendants_of_find ht

theorem find_nil (d : Dir) : d.find [] = none := by
  induction d with
  | empty => rfl
  | file n data rest ih => rw [find, if_neg (List.cons_ne_nil n []).symm, ih]
  | dir n sub rest ihsub ih => rfl

theorem wf_of_find {d d' : Dir} (hwf : d.WF) {p : List Bytes} (h : d.find p = some (.dir d')) : d'.WF := by
  induction d generalizing p with
  | empty => cases h
  | file n data rest ih =>
    rw [find] at h
    split at h
    · cases h
    · exact ih hwf.2.2 h
  | dir n sub rest ihsub ih =>
    cases p with
    | nil => cases h
    | cons x p =>
      rw [find] at h
      split at h
      · split at h
        · obtain rfl : sub = d' := TreeNode.dir.inj (Option.some.inj h)
          exact hwf.2.2.1
        · exact ihsub hwf.2.2.1 h
      · exact ih hwf.2.2.2 h

/-- A path below a directory that was found. -/
theorem find_append {d d' : Dir} {p q : List Bytes} (h : d.find p = some (.dir d')) (hq : q ≠ []) :
    d.find (p ++ q) = d'.find q := by
  induction d generalizing p with
  | empty => cases h
  | file n data rest ih =>
    rw [find] at h ⊢
    split at h
    · cases h
    · rw [if_neg, ih h]
      intro heq
      cases p with
      | nil =>
        rw [find_nil] at h
        cases h
      | cons x p => simp [hq] at heq
  | dir n sub rest ihsub ih =>
    cases p with
    | nil => cases h
    | cons x p =>
      rw [List.cons_append, find]
      rw [find] at h
      split at h
      · rename_i hx
        rw [if_pos hx, if_neg (by simp [hq])]
        split at h
        · rename_i hp
          obtain rfl : sub = d' := TreeNode.dir.inj (Option.some.inj h)
          rw [hp, List.nil_append]
        · exact ihsub h
      · rename_i hx
        rw [if_neg hx]
        exact ih h

end Dir

/-! ### Paths with slashes -/

/-- The names of a path with slashes between them. -/
def pathName (q : List Bytes) : Bytes := [47].intercalate q

/-- `path.Join` of a directory and a path below it. -/
def pathJoin (dir name : Bytes) : Bytes := if dir = str "." then name else dir ++ 47 :: name

/-- The path `p` lies in the directory `p'`. -/
def Inside (p p' : Bytes) : Prop := p' ++ [47] <+: p

instance (p p' : Bytes) : Decidable (Inside p p') := inferInstanceAs (Decidable (_ <+: _))

theorem pathName_cons {n : Bytes} {q : List Bytes} (hq : q ≠ []) : pathName (n :: q) = n ++ 47 :: pathName q := by
  obtain ⟨m, q, rfl⟩ := List.exists_cons_of_ne_nil hq
  rw [pathName, List.intercalate_cons_cons, List.append_assoc]
  rfl

theorem pathName_singleton (n : Bytes) : pathName [n] = n := by simp [pathName]

theorem splitOn_pathName {q : List Bytes} (hq : ValidPath q) : (pathName q).splitOn 47 = q :=
  List.splitOn_intercalate 47 (fun n hn => (hq.2 n hn).2.1) hq.1

theorem pathName_ne_nil {q : List Bytes} (hq : ValidPath q) : pathName q ≠ [] := by
  intro h
  have hsplit := splitOn_pathName hq
  rw [h] at hsplit
  exact (hq.2 [] (hsplit ▸ List.mem_singleton_self [])).1 rfl

theorem pathName_ne_dot {q : List Bytes} (hq : ValidPath q) : pathName q ≠ str "." := by
  intro h
  have hsplit := splitOn_pathName hq
  rw [h, show (str ".").splitOn 47 = [str "."] by decide] at hsplit
  exact (hq.2 (str ".") (hsplit ▸ List.mem_singleton_self _)).2.2.1 rfl

theorem pathJoin_ne_dot {dir n : Bytes} (hn : n ≠ str ".") : pathJoin dir n ≠ str "." := by
  unfold pathJoin
  split
  · exact hn
  · intro h
    have hmem : 47 ∈ str "." := h ▸ List.mem_append_right dir List.mem_cons_self
    exact absurd hmem (by decide)

/-- What is below a directory has a path of its own. -/
theorem pathJoin_ne_self {dir : Bytes} {q : List Bytes} (hq : ValidPath q) : pathJoin dir (pathName q) ≠ dir := by
  unfold pathJoin
  split
  · rename_i hdot
    rw [hdot]
    exact pathName_ne_dot hq
  · intro h
    have hlen := congrArg List.length h
    rw [List.length_append, List.length_cons] at hlen
    omega

theorem pathJoin_pathJoin {dir n : Bytes} (hn : n ≠ str ".") {q : List Bytes} (hq : q ≠ []) :
    pathJoin (pathJoin dir n) (pathName q) = pathJoin dir (pathName (n :: q)) := by
  rw [pathJoin, if_neg (pathJoin_ne_dot hn), pathName_cons hq]
  unfold pathJoin
  split
  · rfl
  · rw [List.append_assoc, List.cons_append]

/-- A path that lies in a directory starts with the path of the directory. -/
theorem prefix_of_inside {q q' : List Bytes} (hq : ValidPath q) (hq' : ValidPath q')
    (h : Inside (pathName q) (pathName q')) : q' <+: q := by
  obtain ⟨s, hs⟩ := h
  rw [List.append_assoc, List.singleton_append] at hs
  have hsplit := splitOn_pathName hq
  rw [← hs, List.splitOn_append_cons_self, splitOn_pathName hq'] at hsplit
  exact ⟨_, hsplit⟩

/-- A name without a slash is the path of an entry of the directory itself. -/
theorem Dir.mem_names_iff {d : Dir} (hwf : d.WF) {n : Bytes} (hn : n.splitOn 47 = [n]) :
    n ∈ d.names ↔ ∃ f ∈ d.descendants, pathName f.1 = n := by
  constructor
  · intro h
    obtain ⟨c, hc⟩ := exists_mem_descendants h
    exact ⟨_, hc, pathName_singleton n⟩
  · rintro ⟨f, hf, rfl⟩
    rw [splitOn_pathName (valid_of_mem_descendants hwf hf)] at hn
    obtain ⟨m, hm, q, hq⟩ := exists_mem_names hf
    obtain rfl : m = pathName f.1 := (List.cons.inj (hq.symm.trans hn)).1
    exact hm

/-- Different things have different paths. -/
theorem Dir.nodup_pathName {d : Dir} (hwf : d.WF) : (d.descendants.map fun f => pathName f.1).Nodup := by
  rw [List.Nodup, List.pairwise_map]
  refine (pairwise_descendants hwf).imp_of_mem ?_
  intro f f' hf hf' hpre heq
  have hsplit := congrArg (List.splitOn 47) heq
  rw [splitOn_pathName (valid_of_mem_descendants hwf hf),
    splitOn_pathName (valid_of_mem_descendants hwf hf')] at hsplit
  exact hpre (hsplit ▸ List.prefix_rfl)

/-- In a common directory. -/
theorem inside_pathJoin_iff (dir p p' : Bytes) : Inside (pathJoin dir p) (pathJoin dir p') ↔ Inside p p' := by
  unfold pathJoin Inside
  split
  · exact Iff.rfl
  · rw [List.append_assoc, List.prefix_append_right_inj, List.cons_append, List.cons_prefix_cons]
    exact and_iff_right rfl

/-! ### File systems -/

structure FileSystem where
  top : Dir
  wf : top.WF

namespace FileSystem

/-- What is at a path with slashes. -/
def find (fsys : FileSystem) (name : Bytes) : Option TreeNode :=
  if name = str "." then some (.dir fsys.top) else fsys.top.find (name.splitOn 47)

/-- `fs.ReadFile` -/
def readFile (fsys : FileSystem) (name : Bytes) : Go Bytes :=
  match fsys.find name with
  | some (.file data) => .ok data
  | some (.dir _) => .error (.error (str "read " ++ name ++ str ": is a directory"))
  | none => .error (.error (str "open " ++ name ++ str ": file does not exist"))

variable {fsys : FileSystem} {root : Bytes} {d : Dir}

theorem wf_of_find (hroot : fsys.find root = some (.dir d)) : d.WF := by
  unfold find at hroot
  split at hroot
  · obtain rfl : fsys.top = d := TreeNode.dir.inj (Option.some.inj hroot)
    exact fsys.wf
  · exact Dir.wf_of_find fsys.wf hroot

/-- What is below a directory of the file system. -/
theorem find_pathJoin (hroot : fsys.find root = some (.dir d)) {q : List Bytes} (hq : ValidPath q) :
    fsys.find (pathJoin root (pathName q)) = d.find q := by
  rw [find, if_neg (pathJoin_ne_dot (pathName_ne_dot hq))]
  unfold find at hroot
  unfold pathJoin
  split at hroot
  · rename_i hdot
    obtain rfl : fsys.top = d := TreeNode.dir.inj (Option.some.inj hroot)
    rw [if_pos hdot, splitOn_pathName hq]
  · rename_i hdot
    rw [if_neg hdot, List.splitOn_append_cons_self, splitOn_pathName hq, Dir.find_append hroot hq.1]

theorem readFile_pathJoin (hroot : fsys.find root = some (.dir d)) {q : List Bytes} {data : Bytes}
    (h : (q, some data) ∈ d.descendants) : fsys.readFile (pathJoin root (pathName q)) = .ok data := by
  have hwf := wf_of_find hroot
  obtain ⟨t, ht, hc⟩ := (Dir.mem_descendants_iff hwf).mp h
  rw [readFile, find_pathJoin hroot (Dir.valid_of_mem_descendants hwf h), ht]
  cases t with
  | file data' =>
    obtain rfl : data' = data := Option.some.inj hc
    rfl
  | dir d' => cases hc

end FileSystem

/-! ### Walks -/

/-- A call of the function that `fs.WalkDir` gets. -/
structure Visit where
  path : Bytes
  isDir : Bool
  err : Option GoError := none
  deriving DecidableEq

/-- The visit of something below a directory. -/
def visitOf (root : Bytes) (e : List Bytes × Option Bytes) : Visit :=
  { path := pathJoin root (pathName e.1), isDir := e.2.isNone }

/-- The calls for the entries of a directory and everything below them. -/
def Dir.walk (path : Bytes) : Dir → List Visit
  | empty => []
  | file n _ rest => { path := pathJoin path n, isDir := false } :: rest.walk path
  | dir n sub rest => { path := pathJoin path n, isDir := true } :: (sub.walk (pathJoin path n) ++ rest.walk path)

/-- `fs.WalkDir`: the calls that it makes while they return no error. -/
def walkDir (fsys : FileSystem) (root : Bytes) : List Visit :=
  match fsys.find root with
  | none =>
    [{ path := root, isDir := false, err := some (.error (str "open " ++ root ++ str ": file does not exist")) }]
  | some (.file _) => [{ path := root, isDir := false }]
  | some (.dir d) => { path := root, isDir := true } :: d.walk root

/-- The root first, then everything below it once, each directory before what is in it. -/
structure IsWalk (root : Bytes) (d : Dir) (vs : List Visit) : Prop where
  first : vs.head? = some { path := root, isDir := true }
  all : vs.tail.Perm (d.descendants.map (visitOf root))
  ordered : vs.tail.Pairwise fun v v' => ¬ Inside v.path v'.path

/-- The things below a directory in the order in which they are visited. -/
theorem IsWalk.exists_eq {root : Bytes} {d : Dir} {vs : List Visit} (h : IsWalk root d vs) :
    ∃ fs : List (List Bytes × Option Bytes), fs.Perm d.descendants ∧
      vs = { path := root, isDir := true } :: fs.map (visitOf root) ∧
      fs.Pairwise fun f f' => ¬ Inside (pathName f.1) (pathName f'.1) := by
  obtain ⟨v, vs, rfl⟩ : ∃ v vs', vs = v :: vs' := by
    cases vs with
    | nil => cases h.first
    | cons v vs => exact ⟨v, vs, rfl⟩
  obtain rfl : v = _ := Option.some.inj h.first
  obtain ⟨fs, rfl, hperm⟩ := (congrFun₂ (List.eq_map_comp_perm (visitOf root)) vs d.descendants).mpr h.all
  refine ⟨fs, hperm, rfl, ?_⟩
  have hordered := h.ordered
  rw [List.tail_cons, List.pairwise_map] at hordered
  refine hordered.imp fun hnot hinside => hnot ?_
  exact (inside_pathJoin_iff root _ _).mpr hinside

theorem Dir.walk_eq {d : Dir} (hwf : d.WF) (path : Bytes) : d.walk path = d.descendants.map (visitOf path) := by
  induction d generalizing path with
  | empty => rfl
  | file n data rest ih =>
    rw [walk, descendants, List.map_cons, ih hwf.2.2, visitOf, pathName_singleton]
    rfl
  | dir n sub rest ihsub ih =>
    obtain ⟨hn, -, hsub, hrest⟩ := hwf
    rw [walk, descendants, List.map_cons, List.map_append, List.map_map, ihsub hsub, ih hrest, visitOf,
      pathName_singleton]
    have hvisits : ∀ e ∈ sub.descendants, visitOf (pathJoin path n) e =
        (visitOf path ∘ fun e => (n :: e.1, e.2)) e := by
      intro e he
      simp only [visitOf, Function.comp, pathJoin_pathJoin hn.2.2.1 (ne_nil_of_mem_descendants he)]
    rw [List.map_congr_left hvisits]
    rfl

theorem walkDir_eq {fsys : FileSystem} {root : Bytes} {d : Dir} (hroot : fsys.find root = some (.dir d)) :
    walkDir fsys root = { path := root, isDir := true } :: d.descendants.map (visitOf root) := by
  rw [walkDir, hroot]
  dsimp only
  rw [Dir.walk_eq (FileSystem.wf_of_find hroot)]

/-- `fs.WalkDir` visits everything below a directory. -/
theorem isWalk_walkDir {fsys : FileSystem} {root : Bytes} {d : Dir} (hroot : fsys.find root = some (.dir d)) :
    IsWalk root d (walkDir fsys root) := by
  have hwf := FileSystem.wf_of_find hroot
  rw [walkDir_eq hroot]
  refine ⟨rfl, List.Perm.refl _, ?_⟩
  rw [List.tail_cons, List.pairwise_map]
  refine (Dir.pairwise_descendants hwf).imp_of_mem ?_
  intro e e' he he' hpre hinside
  rw [visitOf, visitOf, inside_pathJoin_iff] at hinside
  exact hpre (prefix_of_inside (Dir.valid_of_mem_descendants hwf he) (Dir.valid_of_mem_descendants hwf he') hinside)

end MaasBoot
