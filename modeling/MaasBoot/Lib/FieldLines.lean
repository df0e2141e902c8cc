import MaasBoot.Lib.Strings

/-!
# Records written line by line

Named values, each written as its name, an equals sign and the value, with a newline behind it.  A value with a
newline takes several lines, so two records can have the same lines.  A record of which no such further line starts
with a name and an equals sign shares its lines with no other record of the same names (`lines_eq_iff`).
-/

namespace MaasBoot

abbrev Fields := List (Bytes × Bytes)

namespace Fields

/-- The record as a text. -/
def text (fs : Fields) : Bytes := unlines (fs.map fun f => f.1 ++ str "=" ++ f.2)

/-- The lines of one field. -/
def fieldLines (f : Bytes × Bytes) : List Bytes := (f.1 ++ str "=" ++ f.2).splitOn 10

def lines (fs : Fields) : List Bytes := fs.flatMap fieldLines

theorem lines_cons (f : Bytes × Bytes) (fs : Fields) : lines (f :: fs) = fieldLines f ++ fs.lines := List.flatMap_cons

/-- Names as one expects them: different ones, without newlines and equals signs. -/
structure Names (names : List Bytes) : Prop where
  nodup : names.Nodup
  newline : ∀ n ∈ names, 10 ∉ n
  equals : ∀ n ∈ names, 61 ∉ n

/-- No line of a value but its first starts like a field. -/
def Readable (fs : Fields) : Prop := ∀ f ∈ fs, ∀ l ∈ (f.2.splitOn 10).tail, ∀ g ∈ fs, ¬ g.1 ++ str "=" <+: l

/-! ### The text and the lines -/

private theorem splitOn_text (fs : Fields) : fs.text.splitOn 10 = fs.lines ++ [[]] := by
  induction fs with
  | nil => rfl
  | cons f fs ih =>
    have hcons : text (f :: fs) = (f.1 ++ str "=" ++ f.2) ++ 10 :: text fs := by
      unfold text
      rw [List.map_cons, unlines_cons]
    rw [hcons, List.splitOn_append_cons_self, ih, lines_cons, List.append_assoc (fieldLines f)]
    rfl

/-- Two records have the same text exactly if they have the same lines. -/
theorem text_eq_iff {fs gs : Fields} : fs.text = gs.text ↔ fs.lines = gs.lines := by
  constructor
  · intro h
    have hsplit := splitOn_text fs
    rw [h, splitOn_text gs] at hsplit
    exact (List.append_cancel_right hsplit).symm
  · intro h
    have hsplit := splitOn_text fs
    rw [h, ← splitOn_text gs] at hsplit
    have htext := congrArg (List.intercalate [10]) hsplit
    rwa [List.intercalate_splitOn, List.intercalate_splitOn] at htext

/-! ### Reading the lines -/

private theorem splitOn_append {p : Bytes} (hp : 10 ∉ p) (s : Bytes) :
    (p ++ s).splitOn 10 = (s.splitOn 10).modifyHead (p ++ ·) := by
  induction p with
  | nil =>
    obtain ⟨l, ls, hls⟩ := List.exists_cons_of_ne_nil (List.splitOn_ne_nil 10 s)
    rw [List.nil_append, hls]
    rfl
  | cons c p ih =>
    have hc : ¬ c = 10 := fun h => hp (by simp [h])
    obtain ⟨l, ls, hls⟩ := List.exists_cons_of_ne_nil (List.splitOn_ne_nil 10 s)
    rw [List.cons_append, List.splitOn_cons_eq_if_modifyHead, if_neg (by simpa using hc),
      ih fun h => hp (List.mem_cons_of_mem _ h), hls]
    rfl

/-- The first line of a field has its name; the others are those of the value. -/
private theorem fieldLines_eq {f : Bytes × Bytes} (hf : 10 ∉ f.1) :
    ∃ l, fieldLines f = (f.1 ++ str "=" ++ l) :: (f.2.splitOn 10).tail ∧
      f.2.splitOn 10 = l :: (f.2.splitOn 10).tail := by
  have hname : 10 ∉ f.1 ++ str "=" := by
    rw [List.mem_append, not_or]
    exact ⟨hf, by decide⟩
  obtain ⟨l, ls, hls⟩ := List.exists_cons_of_ne_nil (List.splitOn_ne_nil 10 f.2)
  refine ⟨l, ?_, by rw [hls]; rfl⟩
  unfold fieldLines
  rw [splitOn_append hname, hls]
  rfl

private theorem name_eq_of_append {m n l : Bytes} (hm : 61 ∉ m) (hn : 61 ∉ n)
    (h : m ++ str "=" <+: n ++ str "=" ++ l) :
    m = n := by
  obtain ⟨t, ht⟩ := h
  have hequals : str "=" = [61] := by decide
  rw [hequals, List.append_assoc, List.append_assoc] at ht
  exact (append_cons_cancel hm hn ht).1

section Reading

/-! The first of two records is read by the names `ns` of all fields. -/

variable {ns : List Bytes} (hequals : ∀ n ∈ ns, 61 ∉ n) (hnewline : ∀ n ∈ ns, 10 ∉ n)
include hequals hnewline

/-- What is left of the record: fields with these names, of which no further line starts like a field. -/
private def Rest (ns : List Bytes) (fs : Fields) : Prop :=
  fs.map (·.1) ⊆ ns ∧ (fs.map (·.1)).Nodup ∧ ∀ f ∈ fs, ∀ l ∈ (f.2.splitOn 10).tail, ∀ n ∈ ns, ¬ n ++ str "=" <+: l

/-- A line that starts like a field is the first line of that field. -/
private theorem name_mem_of_append {fs : Fields} (hfs : Rest ns fs) {n l : Bytes} (hn : n ∈ ns) (hl : l ∈ fs.lines)
    (h : n ++ str "=" <+: l) : n ∈ fs.map (·.1) := by
  obtain ⟨f, hf, hl⟩ := List.mem_flatMap.mp hl
  have hname := hfs.1 (List.mem_map_of_mem hf)
  obtain ⟨l₀, hlines, -⟩ := fieldLines_eq (hnewline _ hname)
  rw [hlines] at hl
  rcases List.mem_cons.mp hl with rfl | hl
  · rw [name_eq_of_append (hequals n hn) (hequals _ hname) h]
    exact List.mem_map_of_mem hf
  · exact absurd h (hfs.2.2 f hf l hl n hn)

omit hequals in
private theorem exists_start {gs : Fields} (hgs : gs.map (·.1) ⊆ ns) (hne : gs ≠ []) :
    ∃ n l ls, (gs.map (·.1)).head? = some n ∧ n ∈ ns ∧ gs.lines = (n ++ str "=" ++ l) :: ls := by
  obtain ⟨g, gs, rfl⟩ := List.exists_cons_of_ne_nil hne
  have hname := hgs (List.mem_cons_self ..)
  obtain ⟨l, hl, -⟩ := fieldLines_eq (hnewline _ hname)
  exact ⟨g.1, l, _, rfl, hname, by rw [lines_cons, hl, List.cons_append]⟩

/-- The lines of the second record do not start further behind: the first field would start twice. -/
private theorem not_lines_eq_cons_append {fs gs : Fields} (hfs : Rest ns fs) (hnames : fs.map (·.1) = gs.map (·.1))
    (x : Bytes) (a : List Bytes) : fs.lines ≠ x :: a ++ gs.lines := by
  intro h
  cases fs with
  | nil => cases h
  | cons f fs =>
    obtain ⟨hsub, hnodup, hread⟩ := hfs
    have hf := hsub (List.mem_cons_self ..)
    have hgs : gs ≠ [] := by
      rintro rfl
      cases hnames
    obtain ⟨n, l, ls, hhead, -, hlines⟩ := exists_start hnewline (hnames ▸ hsub) hgs
    obtain rfl : f.1 = n := by
      rw [← hnames] at hhead
      exact Option.some.inj hhead
    obtain ⟨l₀, hl₀, -⟩ := fieldLines_eq (hnewline _ hf)
    rw [lines_cons, hl₀, hlines, List.cons_append, List.cons_append, List.cons.injEq] at h
    have hstart : f.1 ++ str "=" ++ l ∈ (f.2.splitOn 10).tail ++ lines fs := by
      rw [h.2]
      exact List.mem_append_right _ (List.mem_cons_self ..)
    have hpre := List.prefix_append (f.1 ++ str "=") l
    rcases List.mem_append.mp hstart with hin | hin
    · exact hread f (List.mem_cons_self ..) _ hin _ hf hpre
    · have hrest : Rest ns fs := ⟨fun n hn => hsub (List.mem_cons_of_mem _ hn), (List.nodup_cons.mp hnodup).2,
        fun f hf => hread f (List.mem_cons_of_mem _ hf)⟩
      exact (List.nodup_cons.mp hnodup).1 (name_mem_of_append hequals hnewline hrest hf hin hpre)

private theorem eq_of_lines_eq {fs gs : Fields} (hfs : Rest ns fs) (hnames : fs.map (·.1) = gs.map (·.1))
    (h : fs.lines = gs.lines) : fs = gs := by
  induction fs generalizing gs with
  | nil => exact (List.map_eq_nil_iff.mp hnames.symm).symm
  | cons f fs ih =>
    cases gs with
    | nil => cases hnames
    | cons g gs =>
      obtain ⟨hname, hnames⟩ : f.1 = g.1 ∧ fs.map (·.1) = gs.map (·.1) := List.cons.inj hnames
      obtain ⟨hsub, hnodup, hread⟩ := hfs
      have hf : f.1 ∈ ns := hsub (List.mem_cons_self ..)
      have hrest : Rest ns fs := ⟨fun n hn => hsub (List.mem_cons_of_mem _ hn), (List.nodup_cons.mp hnodup).2,
        fun f hf => hread f (List.mem_cons_of_mem _ hf)⟩
      obtain ⟨l₁, hf₁, hf₂⟩ := fieldLines_eq (hnewline _ hf)
      obtain ⟨l₂, hg₁, hg₂⟩ := fieldLines_eq (f := g) (hname ▸ hnewline _ hf)
      rw [lines_cons, lines_cons, hf₁, hg₁, ← hname, List.cons_append, List.cons_append, List.cons.injEq,
        List.append_cancel_left_eq] at h
      obtain ⟨rfl, h⟩ := h
      -- the first field of the one record ends where that of the other does
      have hends : (f.2.splitOn 10).tail = (g.2.splitOn 10).tail ∧ lines fs = lines gs := by
        rcases List.append_eq_append_iff.mp h with ⟨a, ha, hlines⟩ | ⟨c, hc, hlines⟩
        · cases a with
          | nil => exact ⟨by simpa using ha.symm, hlines⟩
          | cons x a => exact absurd hlines (not_lines_eq_cons_append hequals hnewline hrest hnames x a)
        · cases c with
          | nil => exact ⟨by simpa using hc, hlines.symm⟩
          | cons x c =>
            -- a further line of the first value would start like the second field
            exfalso
            have hgs : gs ≠ [] := by
              rintro rfl
              cases hlines
            obtain ⟨n, l, ls, -, hn, hstart⟩ := exists_start hnewline (hnames ▸ hrest.1) hgs
            rw [hstart, List.cons_append, List.cons.injEq] at hlines
            refine hread f (List.mem_cons_self ..) x ?_ n hn ?_
            · rw [hc]
              exact List.mem_append_right _ (List.mem_cons_self ..)
            · rw [← hlines.1]
              exact List.prefix_append ..
      have hvalue : f.2 = g.2 := by
        have hsplit : f.2.splitOn 10 = g.2.splitOn 10 := by rw [hf₂, hg₂, hends.1]
        have hjoin := congrArg (List.intercalate [10]) hsplit
        rwa [List.intercalate_splitOn, List.intercalate_splitOn] at hjoin
      rw [Prod.ext hname hvalue, ih hrest hnames hends.2]

end Reading

/-- A value without newlines takes one line. -/
theorem lines_cons_of_notMem {name value : Bytes} (hname : 10 ∉ name) (hvalue : 10 ∉ value) (fs : Fields) :
    lines ((name, value) :: fs) = (name ++ str "=" ++ value) :: fs.lines := by
  obtain ⟨l, hlines, hl⟩ := fieldLines_eq (f := (name, value)) hname
  rw [List.splitOn_eq_singleton hvalue, List.tail_cons] at hlines hl
  rw [lines_cons, hlines, (List.cons.inj hl).1]
  rfl

/-- A readable record shares its lines with no other record of the same names. -/
theorem lines_eq_iff {fs gs : Fields} (hnames : fs.map (·.1) = gs.map (·.1)) (hok : Names (fs.map (·.1)))
    (hread : fs.Readable) : fs.lines = gs.lines ↔ fs = gs :=
  ⟨eq_of_lines_eq hok.equals hok.newline ⟨List.Subset.refl _, hok.nodup, fun f hf l hl n hn => by
    obtain ⟨g, hg, rfl⟩ := List.mem_map.mp hn
    exact hread f hf l hl g hg⟩ hnames, fun h => by rw [h]⟩

/-- Values without newlines can be read. -/
theorem readable_of_newline_notMem {fs : Fields} (h : ∀ f ∈ fs, 10 ∉ f.2) : fs.Readable := by
  intro f hf l hl
  rw [List.splitOn_eq_singleton (h f hf)] at hl
  cases hl

end Fields

end MaasBoot
