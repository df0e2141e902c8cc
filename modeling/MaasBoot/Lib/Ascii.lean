import MaasBoot.Lib.Strings

/-!
# ASCII text

On ASCII text `strings.ToLower` works byte by byte and `strings.TrimSpace` drops bytes at both ends, so the two
commute, and each of them applied twice is the same as applied once.
-/

namespace MaasBoot

def IsAscii (s : Bytes) : Prop := ∀ b ∈ s, b.toNat < 0x80

/-- The lower case of an ASCII character. -/
def lowerByte (c : UInt8) : UInt8 := if 65 ≤ c ∧ c ≤ 90 then c + 32 else c

def isAsciiSpace (c : UInt8) : Bool := isSpace c.toNat

theorem lowerByte_spec (c : UInt8) :
    lowerByte (lowerByte c) = lowerByte c ∧ isAsciiSpace (lowerByte c) = isAsciiSpace c ∧
      (c.toNat < 0x80 → (lowerByte c).toNat < 0x80) := by
  have hall : ∀ c : UInt8, lowerByte (lowerByte c) = lowerByte c ∧ isAsciiSpace (lowerByte c) = isAsciiSpace c ∧
      (c.toNat < 0x80 → (lowerByte c).toNat < 0x80) := forall_byte (by decide +kernel)
  exact hall c

theorem IsAscii.cons {b : UInt8} {s : Bytes} (h : IsAscii (b :: s)) : b.toNat < 0x80 ∧ IsAscii s :=
  List.forall_mem_cons.mp h

theorem IsAscii.mono {s t : Bytes} (h : IsAscii s) (hsub : t ⊆ s) : IsAscii t := fun b hb => h b (hsub hb)

theorem IsAscii.map_lower {s : Bytes} (h : IsAscii s) : IsAscii (s.map lowerByte) := by
  intro b hb
  obtain ⟨c, hc, rfl⟩ := List.mem_map.mp hb
  exact (lowerByte_spec c).2.2 (h c hc)

/-! ### Lower case -/

/-- The runes of an ASCII text are its bytes. -/
theorem runes_ascii {s : Bytes} (h : IsAscii s) : runes s = s.map UInt8.toNat := by
  unfold runes
  induction s with
  | nil => rfl
  | cons b s ih =>
    obtain ⟨hb, hs⟩ := h.cons
    rw [List.length_cons, runesAux, decodeRune_ascii s hb, List.map_cons]
    exact congrArg (b.toNat :: ·) (ih hs)

theorem toLower_ascii (u : Unicode) {s : Bytes} (h : IsAscii s) : toLower u s = s.map lowerByte := by
  have hbyte : ∀ b : UInt8, b.toNat < 0x80 → encodeRune (u.lower b.toNat) = [lowerByte b] := by
    intro b hb
    have hall : ∀ b : UInt8, b.toNat < 0x80 →
        encodeRune (if 65 ≤ b.toNat ∧ b.toNat ≤ 90 then b.toNat + 32 else b.toNat) = [lowerByte b] :=
      forall_byte (by decide +kernel)
    rw [Unicode.lower, if_pos hb]
    exact hall b hb
  unfold toLower
  rw [runes_ascii h, List.flatMap_map]
  induction s with
  | nil => rfl
  | cons b s ih =>
    obtain ⟨hb, hs⟩ := h.cons
    rw [List.flatMap_cons, hbyte b hb, ih hs, List.map_cons, List.singleton_append]

/-- A text whose lower case has ASCII characters other than letters only is that text. -/
theorem eq_of_toLower_eq {u : Unicode} {s w : Bytes} (h : toLower u s = w)
    (hw : ∀ b ∈ w, b.toNat < 0x80 ∧ ¬ (97 ≤ b.toNat ∧ b.toNat ≤ 122)) : s = w := by
  have hs : IsAscii s := by
    refine ascii_of_toLower (u := u) fun b hb => ?_
    rw [h] at hb
    obtain ⟨hlt, hletter⟩ := hw b hb
    exact ⟨hlt, fun r hr hrb => hletter (hrb ▸ u.lower_of_lt r hr (by omega))⟩
  rw [toLower_ascii u hs] at h
  have hsame : ∀ c : UInt8, ¬ (97 ≤ (lowerByte c).toNat ∧ (lowerByte c).toNat ≤ 122) → lowerByte c = c :=
    forall_byte (by decide +kernel)
  rw [← h]
  refine (List.map_id s).symm.trans (List.map_congr_left fun c hc => ?_)
  exact (hsame c (hw _ (h ▸ List.mem_map_of_mem hc)).2).symm

/-! ### Spaces -/

private theorem trimLeftAux_ascii (fuel : Nat) {s : Bytes} (h : IsAscii s) (hfuel : s.length ≤ fuel) :
    trimLeftAux fuel s = s.dropWhile isAsciiSpace := by
  induction fuel generalizing s with
  | zero =>
    obtain rfl : s = [] := List.length_eq_zero_iff.mp (by omega)
    rfl
  | succ fuel ih =>
    cases s with
    | nil =>
      have hnil : isSpace (decodeRune []).1 = false := by decide
      rw [trimLeftAux, hnil]
      rfl
    | cons b s =>
      obtain ⟨hb, hs⟩ := h.cons
      rw [trimLeftAux, decodeRune_ascii s hb, List.dropWhile_cons]
      exact if_congr Iff.rfl (ih hs (by simpa using hfuel)) rfl

private theorem lastSpace?_concat {s : Bytes} {b : UInt8} (h : IsAscii (s ++ [b])) :
    lastSpace? (s ++ [b]) = if isAsciiSpace b then some 1 else none := by
  have hb : b.toNat < 0x80 := h b (by simp)
  -- the rune that starts two or three bytes before the end is an ASCII character as well
  have hwidth : ∀ w, 2 ≤ w → w ≤ (s ++ [b]).length →
      (decodeRune ((s ++ [b]).drop ((s ++ [b]).length - w))).2 = 1 := by
    intro w hw hle
    obtain ⟨c, t, ht⟩ := List.exists_cons_of_ne_nil (show (s ++ [b]).drop ((s ++ [b]).length - w) ≠ [] by
      rw [ne_eq, List.drop_eq_nil_iff]
      omega)
    rw [ht, decodeRune_ascii t (h c (List.mem_of_mem_drop (ht ▸ List.mem_cons_self ..)))]
  have hlast : (s ++ [b]).drop ((s ++ [b]).length - 1) = [b] := by simp
  have hrest : ∀ w, 2 ≤ w → (w ≤ (s ++ [b]).length && (decodeRune ((s ++ [b]).drop ((s ++ [b]).length - w))).2 == w &&
      isSpace (decodeRune ((s ++ [b]).drop ((s ++ [b]).length - w))).1) = false := by
    intro w hw
    by_cases hle : w ≤ (s ++ [b]).length
    · rw [hwidth w hw hle]
      have : (1 == w) = false := by simpa using (by omega : ¬ 1 = w)
      simp [this]
    · rw [decide_eq_false hle, Bool.false_and, Bool.false_and]
  unfold lastSpace?
  simp only [List.find?_cons, hlast, decodeRune_ascii [] hb, hrest 2 (by decide), hrest 3 (by decide), List.find?_nil]
  cases hsp : isSpace b.toNat <;> simp [isAsciiSpace, hsp]

private theorem trimRightAux_ascii (fuel : Nat) {s : Bytes} (h : IsAscii s) (hfuel : s.length ≤ fuel) :
    trimRightAux fuel s = s.rdropWhile isAsciiSpace := by
  induction fuel generalizing s with
  | zero =>
    obtain rfl : s = [] := List.length_eq_zero_iff.mp (by omega)
    rfl
  | succ fuel ih =>
    rcases List.eq_nil_or_concat s with rfl | ⟨s, b, rfl⟩
    · rfl
    · rw [List.concat_eq_append] at *
      rw [trimRightAux, lastSpace?_concat h]
      by_cases hsp : isAsciiSpace b = true
      · rw [if_pos hsp, List.rdropWhile_concat_pos _ _ _ hsp]
        dsimp only
        rw [List.length_append, List.length_singleton, Nat.add_sub_cancel, List.take_left]
        exact ih (h.mono (List.subset_append_left ..)) (by simpa using hfuel)
      · rw [if_neg hsp, List.rdropWhile_concat_neg _ _ _ hsp]

theorem trimSpace_ascii {s : Bytes} (h : IsAscii s) :
    trimSpace s = (s.dropWhile isAsciiSpace).rdropWhile isAsciiSpace := by
  unfold trimSpace
  rw [trimLeftAux_ascii _ h (Nat.le_refl _)]
  exact trimRightAux_ascii _ (h.mono (List.dropWhile_subset _)) (Nat.le_refl _)

theorem IsAscii.trimSpace {s : Bytes} (h : IsAscii s) : IsAscii (trimSpace s) :=
  fun _ hb => h _ (mem_of_mem_trimSpace hb)

/-- A text without spaces, between spaces. -/
theorem trimSpace_between {l t r : Bytes} (hl : ∀ c ∈ l, c.toNat < 0x80 ∧ isAsciiSpace c = true)
    (hr : ∀ c ∈ r, c.toNat < 0x80 ∧ isAsciiSpace c = true) (ht : ∀ c ∈ t, c.toNat < 0x80 ∧ isAsciiSpace c = false) :
    trimSpace (l ++ t ++ r) = t := by
  have hascii : IsAscii (l ++ t ++ r) := by
    intro c hc
    simp only [List.mem_append] at hc
    rcases hc with (hc | hc) | hc
    · exact (hl c hc).1
    · exact (ht c hc).1
    · exact (hr c hc).1
  have hright : ∀ s : Bytes, (s ++ r).rdropWhile isAsciiSpace = s.rdropWhile isAsciiSpace := by
    intro s
    unfold List.rdropWhile
    rw [List.reverse_append, List.dropWhile_append_of_pos fun c hc => (hr c (by simpa using hc)).2]
  have hself : t.rdropWhile isAsciiSpace = t :=
    List.rdropWhile_eq_self_iff.mpr fun hne hlast => by simp [(ht _ (List.getLast_mem hne)).2] at hlast
  rw [trimSpace_ascii hascii, List.append_assoc, List.dropWhile_append_of_pos fun c hc => (hl c hc).2]
  cases t with
  | nil =>
    rw [List.nil_append, List.dropWhile_eq_nil_iff.mpr fun c hc => (hr c hc).2]
    rfl
  | cons c t =>
    rw [List.cons_append, List.dropWhile_cons_of_neg (by simp [(ht c (List.mem_cons_self ..)).2]), ← List.cons_append,
      hright, hself]

theorem trimSpace_trimSpace {s : Bytes} (h : IsAscii s) : trimSpace (trimSpace s) = trimSpace s := by
  -- what is left on the right starts as what was left on the left
  have hdrop : (trimSpace s).dropWhile isAsciiSpace = trimSpace s := by
    rw [trimSpace_ascii h]
    cases hs : (s.dropWhile isAsciiSpace).rdropWhile isAsciiSpace with
    | nil => rfl
    | cons c t =>
      obtain ⟨t', ht⟩ := List.rdropWhile_prefix isAsciiSpace (s.dropWhile isAsciiSpace)
      have hnot := List.head?_dropWhile_not isAsciiSpace s
      rw [← ht, hs] at hnot
      exact List.dropWhile_cons_of_neg (by simpa using hnot)
  rw [trimSpace_ascii h.trimSpace, hdrop, trimSpace_ascii h]
  exact List.rdropWhile_idempotent _ _

theorem trimSpace_map_lower {s : Bytes} (h : IsAscii s) :
    trimSpace (s.map lowerByte) = (trimSpace s).map lowerByte := by
  have hcomp : isAsciiSpace ∘ lowerByte = isAsciiSpace := funext fun c => (lowerByte_spec c).2.1
  rw [trimSpace_ascii h.map_lower, trimSpace_ascii h, List.dropWhile_map, hcomp]
  unfold List.rdropWhile
  rw [← List.map_reverse, List.dropWhile_map, hcomp, List.map_reverse]

theorem map_lower_lower (s : Bytes) : (s.map lowerByte).map lowerByte = s.map lowerByte := by
  rw [List.map_map]
  exact List.map_congr_left fun c _ => (lowerByte_spec c).1

end MaasBoot
