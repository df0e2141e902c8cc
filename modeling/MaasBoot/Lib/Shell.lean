import Mathlib.Data.List.DropRight
import Mathlib.Data.List.Infix
import MaasBoot.Lib.Ascii

/-!
# Texts in the shell

Command substitution drops the newlines at the end of what a command prints (`capture`).

An unquoted expansion is split into fields at the characters of `IFS`.  With the default `IFS` the separators are
blanks, runs of which count as one (`words`); with another single character every occurrence ends a field, and an
empty text behind the last one is no field (`fields`).  Pathname expansion is not modelled: no field is the pattern of
an existing file name.
-/

namespace MaasBoot

/-- The characters of the default `IFS`. -/
def isBlank (b : UInt8) : Bool := b == 32 || b == 9 || b == 10

def words (s : Bytes) : List Bytes := (s.splitOnP isBlank).filter (· ≠ [])

def fields (c : UInt8) (s : Bytes) : List Bytes :=
  if (s.splitOn c).getLast? = some [] then (s.splitOn c).dropLast else s.splitOn c

/-! ### Commands -/

/-- `$(...)`: the text that a command prints, without NUL bytes and without newlines at the end. -/
def capture (s : Bytes) : Bytes := (s.filter (· ≠ 0)).rdropWhile (· == 10)

/-- A text that `echo` of Bash takes for options. -/
def isEchoOption : Bytes → Bool
  | 45 :: os => os != [] && os.all (str "neE").contains
  | _ => false

/-- `echo "$s"` -/
def echo (s : Bytes) : Bytes :=
  if isEchoOption s then (if s.contains 110 then [] else [10]) else s ++ [10]

/-- `grep -qi` for one of some plain texts that have no newlines. -/
def grepAny (patterns : List Bytes) (s : Bytes) : Bool :=
  patterns.any fun t => decide (t.map lowerByte <:+: s.map lowerByte)

theorem capture_eq_nil_iff (s : Bytes) : capture s = [] ↔ ∀ b ∈ s, b = 0 ∨ b = 10 := by
  rw [capture, List.rdropWhile_eq_nil_iff]
  simp only [List.mem_filter, decide_eq_true_eq, beq_iff_eq, and_imp, or_iff_not_imp_left]

theorem capture_capture (s : Bytes) : capture (capture s) = capture s := by
  have hfilter : (capture s).filter (· ≠ 0) = capture s := by
    refine List.filter_eq_self.mpr fun b hb => ?_
    exact (List.mem_filter.mp ((List.rdropWhile_prefix _ _).subset hb)).2
  rw [capture, hfilter, capture, List.rdropWhile_idempotent]

theorem capture_append_newline (s : Bytes) : capture (s ++ [10]) = capture s := by
  rw [capture, List.filter_append, show ([10] : Bytes).filter (· ≠ 0) = [10] by decide,
    List.rdropWhile_concat_pos _ _ _ (by decide), capture]

theorem capture_eq_self {s : Bytes} (h : ∀ c ∈ s, c ≠ 0 ∧ c ≠ 10) : capture s = s := by
  have hfilter : s.filter (· ≠ 0) = s := List.filter_eq_self.mpr fun c hc => by simpa using (h c hc).1
  rw [capture, hfilter, List.rdropWhile_eq_self_iff]
  intro hne
  simpa using (h _ (List.getLast_mem hne)).2

/-! ### Words -/

/-- A text without blanks. -/
def BlankFree (s : Bytes) : Prop := ∀ c ∈ s, isBlank c = false

instance (s : Bytes) : Decidable (BlankFree s) := List.decidableBAll _ s

theorem BlankFree.append {s t : Bytes} (hs : BlankFree s) (ht : BlankFree t) : BlankFree (s ++ t) := by
  intro c hc
  rcases List.mem_append.mp hc with h | h
  · exact hs c h
  · exact ht c h

/-- A blank separates words. -/
theorem words_append_cons {c : UInt8} (hc : isBlank c = true) (s t : Bytes) :
    words (s ++ c :: t) = words s ++ words t := by
  rw [words, List.splitOnP_append_cons s t hc, List.filter_append, words, words]

theorem words_eq_singleton {s : Bytes} (hs : s ≠ []) (h : BlankFree s) : words s = [s] := by
  rw [words, List.splitOnP_eq_singleton h]
  simp [hs]

/-- The newlines that a command substitution drops end no word. -/
theorem words_capture {s : Bytes} (h : 0 ∉ s) : words (capture s) = words s := by
  have hfilter : s.filter (· ≠ 0) = s := by
    refine List.filter_eq_self.mpr fun b hb => ?_
    simpa using fun h0 : b = 0 => h (h0 ▸ hb)
  rw [capture, hfilter]
  clear h hfilter
  induction s using List.reverseRecOn with
  | nil => rfl
  | append_singleton s c ih =>
    by_cases hc : c = 10
    · subst hc
      rw [List.rdropWhile_concat_pos _ _ _ (by decide), ih, words_append_cons (by decide),
        show words [] = [] from rfl, List.append_nil]
    · rw [List.rdropWhile_concat_neg _ _ _ (by simpa using hc)]

/-- Words, one on each line. -/
theorem words_unlines {ws : List Bytes} (h : ∀ w ∈ ws, w ≠ [] ∧ BlankFree w) : words (unlines ws) = ws := by
  induction ws with
  | nil => rfl
  | cons w ws ih =>
    rw [List.forall_mem_cons] at h
    rw [unlines_cons, words_append_cons (by decide), words_eq_singleton h.1.1 h.1.2, ih h.2, List.singleton_append]

/-- A text falls into the part before the first character with property `p`, and a rest that starts with it. -/
theorem exists_takeWhile_append (p : UInt8 → Bool) (s : Bytes) :
    s = s.takeWhile (fun c => !p c) ∨ ∃ c t, p c = true ∧ s = s.takeWhile (fun c => !p c) ++ c :: t := by
  induction s with
  | nil => exact .inl rfl
  | cons d s ih =>
    by_cases hd : p d = true
    · exact .inr ⟨d, s, hd, by simp [hd]⟩
    · simp only [List.takeWhile_cons, Bool.not_eq_true] at hd ⊢
      rw [hd, Bool.not_false, if_pos rfl]
      rcases ih with h | ⟨c, t, hc, h⟩
      · exact .inl (by rw [← h])
      · exact .inr ⟨c, t, hc, by rw [List.cons_append, ← h]⟩

/-- The first word of a text that does not start with a blank. -/
theorem words_eq_cons {s : Bytes} (h : s.takeWhile (fun c => !isBlank c) ≠ []) :
    ∃ ws, words s = s.takeWhile (fun c => !isBlank c) :: ws := by
  have hone : words (s.takeWhile fun c => !isBlank c) = [s.takeWhile fun c => !isBlank c] :=
    words_eq_singleton h fun c hc => by simpa using List.mem_takeWhile_imp hc
  rcases exists_takeWhile_append isBlank s with hs | ⟨c, t, hc, hs⟩
  · exact ⟨[], by rw [← hs] at hone ⊢; exact hone⟩
  · exact ⟨words t, by rw [hs, words_append_cons hc, ← hs, hone]; rfl⟩

/-! ### Fields -/

/-- Texts without the separator, each followed by it, are split off one by one. -/
theorem splitOn_flatMap_append {c : UInt8} {ls : List Bytes} (hls : ∀ l ∈ ls, c ∉ l) (s : Bytes) :
    (ls.flatMap (· ++ [c]) ++ s).splitOn c = ls ++ s.splitOn c := by
  induction ls with
  | nil => rfl
  | cons l ls ih =>
    rw [List.flatMap_cons, List.append_assoc, List.append_assoc, List.singleton_append,
      List.splitOn_append_cons_self_of_not_mem (hls l (List.mem_cons_self ..)),
      ih fun l' hl' => hls l' (List.mem_cons_of_mem _ hl'), List.cons_append]

theorem splitOn_eq_cons (c : UInt8) (s : Bytes) : ∃ rest, s.splitOn c = s.takeWhile (fun d => !(d == c)) :: rest := by
  have hno : c ∉ s.takeWhile (fun d => !(d == c)) := by
    intro h
    simpa using List.mem_takeWhile_imp h
  rcases exists_takeWhile_append (· == c) s with hs | ⟨d, t, hd, hs⟩
  · rw [← hs] at hno
    exact ⟨[], by rw [← hs, List.splitOn_eq_singleton hno]⟩
  · obtain rfl : d = c := by simpa using hd
    refine ⟨t.splitOn d, ?_⟩
    conv_lhs => rw [hs, List.splitOn_append_cons_self_of_not_mem hno]

theorem length_splitOn (c : UInt8) (s : Bytes) : (s.splitOn c).length = s.count c + 1 := by
  induction s with
  | nil => rfl
  | cons d s ih =>
    rw [List.splitOn_cons_eq_if_modifyHead, List.count_cons]
    split
    · rw [List.length_cons, ih]
    · rw [List.length_modifyHead, ih, Nat.add_zero]

theorem length_fields_le (c : UInt8) (s : Bytes) : (fields c s).length ≤ s.count c + 1 := by
  unfold fields
  rw [← length_splitOn]
  split
  · rw [List.length_dropLast]
    exact Nat.sub_le ..
  · exact Nat.le_refl _

/-- The field behind the pieces `ls`: the text up to the next separator, if there is a field at all. -/
theorem getElem?_fields {c : UInt8} {t s : Bytes} {ls : List Bytes} (h : t.splitOn c = ls ++ s.splitOn c) :
    (∀ f, (fields c t)[ls.length]? = some f → f = s.takeWhile (fun d => !(d == c))) ∧
      (s.takeWhile (fun d => !(d == c)) ≠ [] →
        (fields c t)[ls.length]? = some (s.takeWhile (fun d => !(d == c)))) := by
  obtain ⟨rest, hrest⟩ := splitOn_eq_cons c s
  unfold fields
  rw [h, hrest]
  generalize s.takeWhile (fun d => !(d == c)) = f
  cases rest with
  | nil =>
    by_cases hf : f = []
    · subst hf
      refine ⟨?_, fun h => absurd rfl h⟩
      intro g hg
      simp at hg
    · simp [hf]
  | cons f' rest =>
    have hdrop : (ls ++ f :: f' :: rest).dropLast = ls ++ f :: (f' :: rest).dropLast := by
      rw [List.dropLast_append_of_ne_nil (by simp), List.dropLast_cons_of_ne_nil (by simp)]
    rw [hdrop]
    split <;> simp [eq_comm]

/-- Texts without the separator that are joined by it are the fields, if none is empty. -/
theorem fields_join {c : UInt8} {ls : List Bytes} (hls : ∀ l ∈ ls, c ∉ l) (hne : ∀ l ∈ ls, l ≠ []) (h : ls ≠ []) :
    fields c (join [c] ls) = ls := by
  unfold fields join
  rw [List.splitOn_intercalate c hls h, if_neg]
  intro hlast
  exact hne [] (List.mem_of_getLast? hlast) rfl

theorem fields_nil (c : UInt8) : fields c [] = [] := rfl

theorem fields_append_cons (c : UInt8) (a s : Bytes) : fields c (a ++ c :: s) = a.splitOn c ++ fields c s := by
  have hne : s.splitOn c ≠ [] := List.splitOn_ne_nil _ _
  unfold fields
  rw [List.splitOn_append_cons_self, List.getLast?_append_of_ne_nil _ hne]
  split
  · rw [List.dropLast_append_of_ne_nil hne]
  · rfl

theorem fields_line {c : UInt8} {l : Bytes} (hl : c ∉ l) (s : Bytes) : fields c (l ++ c :: s) = l :: fields c s := by
  rw [fields_append_cons, List.splitOn_eq_singleton hl]
  rfl

/-- A text without separators is its only field, if it is not empty. -/
theorem fields_eq_singleton {c : UInt8} {s : Bytes} (hs : c ∉ s) (hne : s ≠ []) : fields c s = [s] := by
  unfold fields
  rw [List.splitOn_eq_singleton hs, if_neg (by simpa using hne)]

/-- A text is empty, or it starts with its first field. -/
theorem fields_cases (c : UInt8) (s : Bytes) : (c ∉ s ∧ (s = [] ∨ fields c s = [s])) ∨
    ∃ l s', c ∉ l ∧ s = l ++ c :: s' ∧ fields c s = l :: fields c s' := by
  have hno : c ∉ s.takeWhile (fun d => !(d == c)) := fun h => by simpa using List.mem_takeWhile_imp h
  rcases exists_takeWhile_append (· == c) s with hs | ⟨d, t, hd, hs⟩
  · rw [← hs] at hno
    refine .inl ⟨hno, ?_⟩
    rcases eq_or_ne s [] with h | h
    · exact .inl h
    · exact .inr (fields_eq_singleton hno h)
  · obtain rfl : d = c := by simpa using hd
    refine .inr ⟨_, t, hno, hs, ?_⟩
    conv_lhs => rw [hs]
    exact fields_line hno t

/-- Every separator ends a field, and a text behind the last one is a field too. -/
theorem length_fields_of_getLast? {c : UInt8} {s : Bytes} (hne : s ≠ []) (hlast : s.getLast? ≠ some c) :
    (fields c s).length = s.count c + 1 := by
  induction hn : s.length using Nat.strong_induction_on generalizing s with
  | _ n ih =>
    rcases fields_cases c s with ⟨hno, hs⟩ | ⟨l, s', hl, rfl, hs⟩
    · rw [hs.resolve_left hne, List.count_eq_zero_of_not_mem hno]
      rfl
    · have hne' : s' ≠ [] := by
        rintro rfl
        exact hlast (by simp)
      rw [List.getLast?_append_cons, List.getLast?_cons_of_ne_nil hne'] at hlast
      rw [hs, List.length_cons, ih s'.length (by simp at hn; omega) hne' hlast rfl, List.count_append,
        List.count_cons_self, List.count_eq_zero_of_not_mem hl]
      omega

/-- A text begins with `t` if its first field does. -/
theorem prefix_iff_head_fields {c : UInt8} {t : Bytes} (hc : c ∉ t) (hne : t ≠ []) (s : Bytes) :
    t <+: s ↔ ∃ l ∈ (fields c s).head?, t <+: l := by
  rcases fields_cases c s with ⟨-, rfl | hs⟩ | ⟨l, s', hl, rfl, hs⟩
  · simp [fields_nil, hne]
  · simp [hs]
  · rw [hs]
    simp only [List.head?_cons, Option.mem_def, Option.some.injEq, exists_eq_left']
    constructor
    · rintro ⟨v, hv⟩
      rcases List.append_eq_append_iff.mp hv with ⟨w, hw, -⟩ | ⟨w, hw, hwv⟩
      · exact ⟨w, hw.symm⟩
      · cases w with
        | nil => exact ⟨[], by rw [hw]; simp⟩
        | cons d w =>
          obtain ⟨rfl, -⟩ := List.cons.inj hwv
          exact absurd (by rw [hw]; simp) hc
    · intro h
      exact h.trans (List.prefix_append ..)

/-- What begins with a separator does not begin in a text without separators. -/
theorem cons_infix_append_iff {c : UInt8} {l : Bytes} (hl : c ∉ l) (t s : Bytes) :
    c :: t <:+: l ++ s ↔ c :: t <:+: s := by
  induction l with
  | nil => rfl
  | cons d l ih =>
    rw [List.mem_cons, not_or] at hl
    rw [List.cons_append, List.infix_cons_iff, List.cons_prefix_cons, ih hl.2]
    simp [hl.1]

/-- A separator is followed by `t` if a field other than the first begins with `t`. -/
theorem cons_infix_iff_tail_fields {c : UInt8} {t : Bytes} (hc : c ∉ t) (hne : t ≠ []) (s : Bytes) :
    c :: t <:+: s ↔ ∃ l ∈ (fields c s).tail, t <+: l := by
  induction hn : s.length using Nat.strong_induction_on generalizing s with
  | _ n ih =>
    have hmem : c :: t <:+: s → c ∈ s := fun h => h.subset List.mem_cons_self
    rcases fields_cases c s with ⟨hno, hs⟩ | ⟨l, s', hl, rfl, hs⟩
    · refine iff_of_false (fun h => hno (hmem h)) ?_
      rcases hs with rfl | hs
      · simp [fields_nil]
      · simp [hs]
    · rw [hs, List.tail_cons]
      rw [cons_infix_append_iff hl, List.infix_cons_iff, List.cons_prefix_cons, and_iff_right rfl]
      rw [prefix_iff_head_fields hc hne, ih s'.length (by simp at hn; omega) s' rfl]
      cases fields c s' with
      | nil => simp
      | cons f fs => simp

/-- The parts between separators, with one more separator at each end. -/
theorem mem_splitOn_iff_between {c : UInt8} {l : Bytes} (hl : c ∉ l) (s : Bytes) :
    l ∈ s.splitOn c ↔ c :: (l ++ [c]) <:+: c :: (s ++ [c]) := by
  -- the part up to the first separator, and those behind it
  have hfirst : ∀ (a z : Bytes), c ∉ a →
      (c :: (l ++ [c]) <:+: c :: (a ++ c :: z) ↔ l = a ∨ c :: (l ++ [c]) <:+: c :: z) := by
    intro a z ha
    rw [List.infix_cons_iff, List.cons_prefix_cons, and_iff_right rfl, cons_infix_append_iff ha]
    refine or_congr_left ⟨?_, ?_⟩
    · rintro ⟨b, hb⟩
      rw [List.append_assoc] at hb
      exact (append_cons_cancel hl ha hb).1
    · rintro rfl
      exact ⟨z, by simp⟩
  induction hn : s.length using Nat.strong_induction_on generalizing s with
  | _ n ih =>
    have hno : c ∉ s.takeWhile (fun d => !(d == c)) := fun h => by simpa using List.mem_takeWhile_imp h
    rcases exists_takeWhile_append (· == c) s with hs | ⟨d, t, hd, hs⟩
    · rw [← hs] at hno
      rw [List.splitOn_eq_singleton hno, List.mem_singleton, hfirst s [] hno, or_iff_left]
      intro h
      have hlen := h.length_le
      simp at hlen
    · obtain rfl : d = c := by simpa using hd
      generalize s.takeWhile (fun e => !(e == d)) = a at hno hs
      subst hs
      rw [List.splitOn_append_cons_self_of_not_mem hno, List.mem_cons, List.append_assoc, List.cons_append,
        hfirst a _ hno]
      exact or_congr_right (ih t.length (by simp at hn; omega) t rfl)

end MaasBoot
