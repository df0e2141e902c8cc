import MaasBoot.Lib.Pattern

/-!
# Replacing words

A pattern that matches the words of a language, wherever they stand, and the replacement of all its matches by one
text.  The replacement can create a word only where a copy of the text meets the rest.  `replaceAll_no_word` says
when this does not happen: no word goes on with the beginning of the text, and no word that begins in the text goes
on with a byte that may follow a match.  It applies to the words of the pattern, and likewise to other words that
were not there before.
-/

namespace MaasBoot

/-- The matches of `re` are the words of `W`, and no word is empty. -/
structure MatchesWords (re : Pattern) (W : Bytes → Prop) : Prop where
  eq_some_iff : ∀ bol s n, re bol s = some n ↔ ∃ w r, W w ∧ s = w ++ r ∧ n = w.length
  ne_nil : ∀ w, W w → w ≠ []

namespace MatchesWords

variable {re : Pattern} {W : Bytes → Prop} (hre : MatchesWords re W)
include hre

theorem eq_none_iff (bol : Bool) (s : Bytes) : re bol s = none ↔ ∀ w, W w → ¬ w <+: s := by
  rw [← not_iff_not, ← ne_eq, Option.ne_none_iff_exists']
  simp only [hre.eq_some_iff, not_forall, not_not]
  constructor
  · rintro ⟨_, w, r, hw, rfl, -⟩
    exact ⟨w, hw, List.prefix_append ..⟩
  · rintro ⟨w, hw, r, rfl⟩
    exact ⟨_, w, r, hw, rfl, rfl⟩

theorem findIndex_eq_none_iff (s : Bytes) : findIndex re s = none ↔ ∀ w, W w → ¬ w <:+: s := by
  have hgo : ∀ pos bol, findGo re pos bol s = none ↔ ∀ w, W w → ¬ w <:+: s := by
    induction s with
    | nil =>
      intro pos bol
      refine iff_of_true rfl fun w hw h => ?_
      exact hre.ne_nil w hw (List.infix_nil.mp h)
    | cons c s ih =>
      intro pos bol
      rw [findGo]
      simp only [List.infix_cons_iff, not_or, forall_and]
      rw [← ih (pos + 1) (c == 10), ← hre.eq_none_iff bol]
      cases re bol (c :: s) <;> simp
  exact hgo 0 true

/-! ### Steps of the replacement -/

private theorem replaceGo_bol (f : Bytes → Bytes) (bol bol' : Bool) (s : Bytes) :
    replaceGo re f 0 bol s = replaceGo re f 0 bol' s := by
  have h : re bol s = re bol' s := Option.ext fun n => by rw [hre.eq_some_iff, hre.eq_some_iff]
  cases s with
  | nil => rfl
  | cons c s => rw [replaceGo, replaceGo, h]

/-- A byte is copied where no word begins. -/
theorem replaceAll_copy {c : UInt8} {s : Bytes} (h : ∀ w, W w → ¬ w <+: c :: s) (f : Bytes → Bytes) :
    replaceAll re f (c :: s) = c :: replaceAll re f s := by
  rw [replaceAll, replaceGo, (hre.eq_none_iff true _).mpr h, hre.replaceGo_bol f (c == 10) true]
  rfl

/-- A word is replaced. -/
theorem replaceAll_word {w : Bytes} (hw : W w) (f : Bytes → Bytes) (r : Bytes) :
    replaceAll re f (w ++ r) = f w ++ replaceAll re f r := by
  have hskip : ∀ (a : Bytes) (bol : Bool), replaceGo re f a.length bol (a ++ r) = replaceAll re f r := by
    intro a
    induction a with
    | nil => exact fun bol => hre.replaceGo_bol f bol true r
    | cons c a ih => exact fun bol => ih (c == 10)
  cases w with
  | nil => exact absurd rfl (hre.ne_nil [] hw)
  | cons c w =>
    have hmatch : re true (c :: (w ++ r)) = some (w.length + 1) := (hre.eq_some_iff ..).mpr ⟨c :: w, r, hw, rfl, rfl⟩
    rw [replaceAll, List.cons_append, replaceGo, hmatch]
    dsimp only
    rw [hskip, List.take_succ_cons, List.take_left]

/-- Induction along the replacement. -/
theorem induction {motive : Bytes → Prop} (nil : motive [])
    (copy : ∀ c s, (∀ w, W w → ¬ w <+: c :: s) → motive s → motive (c :: s))
    (word : ∀ w r, W w → motive r → motive (w ++ r)) (s : Bytes) : motive s := by
  induction hn : s.length using Nat.strong_induction_on generalizing s with
  | _ n ih =>
    cases s with
    | nil => exact nil
    | cons c s =>
      by_cases h : ∃ w, W w ∧ w <+: c :: s
      · obtain ⟨w, hw, r, hr⟩ := h
        have hpos := List.length_pos_of_ne_nil (hre.ne_nil w hw)
        have hlen := congrArg List.length hr
        rw [List.length_append] at hlen
        rw [← hr]
        exact word w r hw (ih r.length (by omega) r rfl)
      · refine copy c s (fun w hw hpre => h ⟨w, hw, hpre⟩) ?_
        rw [List.length_cons] at hn
        exact ih s.length (by omega) s rfl

/-- A byte that no word contains stays at the end. -/
theorem replaceAll_concat {c : UInt8} (hc : ∀ w, W w → c ∉ w) (f : Bytes → Bytes) (s : Bytes) :
    replaceAll re f (s ++ [c]) = replaceAll re f s ++ [c] := by
  induction s using hre.induction with
  | nil =>
    refine hre.replaceAll_copy (fun w hw hpre => ?_) f
    rcases List.prefix_concat_iff.mp (show w <+: [] ++ [c] from hpre) with rfl | hpre
    · exact hc _ hw List.mem_cons_self
    · exact hre.ne_nil w hw (List.prefix_nil.mp hpre)
  | copy d s h ih =>
    rw [hre.replaceAll_copy h, List.cons_append, hre.replaceAll_copy, ih, List.cons_append]
    intro w hw hpre
    rw [← List.cons_append, List.prefix_concat_iff] at hpre
    rcases hpre with rfl | hpre
    · exact hc _ hw (by simp)
    · exact h w hw hpre
  | word w r hw ih => rw [List.append_assoc, hre.replaceAll_word hw, hre.replaceAll_word hw, ih, List.append_assoc]

/-! ### Shorter texts -/

section Shorter

variable {t : Bytes} (ht : ∀ w, W w → t.length < w.length)
include ht

theorem length_replaceAll_le (s : Bytes) : (replaceAll re (fun _ => t) s).length ≤ s.length := by
  induction s using hre.induction with
  | nil => exact Nat.zero_le _
  | copy c s h ih =>
    rw [hre.replaceAll_copy h, List.length_cons, List.length_cons]
    exact Nat.succ_le_succ ih
  | word w r hw ih =>
    have hlt := ht w hw
    rw [hre.replaceAll_word hw, List.length_append, List.length_append]
    omega

/-- If a text that is shorter than every word changes nothing, there is no word. -/
theorem findIndex_of_replaceAll_eq {s : Bytes} (h : replaceAll re (fun _ => t) s = s) : findIndex re s = none := by
  rw [hre.findIndex_eq_none_iff]
  induction s using hre.induction with
  | nil => exact fun w hw hin => hre.ne_nil w hw (List.infix_nil.mp hin)
  | copy c s hno ih =>
    rw [hre.replaceAll_copy hno, List.cons.injEq] at h
    intro w hw hin
    rw [List.infix_cons_iff] at hin
    exact hin.elim (hno w hw) (ih h.2 w hw)
  | word w r hw ih =>
    have hlt := ht w hw
    have hle := hre.length_replaceAll_le ht r
    have hlen := congrArg List.length h
    rw [hre.replaceAll_word hw, List.length_append, List.length_append] at hlen
    omega

end Shorter

/-! ### No new words -/

section NoWord

variable {t : Bytes} {V : Bytes → Prop}

/-- What follows the beginning of a word of `V` was there before. -/
theorem prefix_of_prefix_replaceAll (hlead : ∀ a v, V (a ++ v) → a ≠ [] → v ≠ [] → ∀ r, ¬ v <+: t ++ r) {a v : Bytes}
    (ha : a ≠ []) (hv : V (a ++ v)) {s : Bytes} (h : v <+: replaceAll re (fun _ => t) s) : v <+: s := by
  induction s using hre.induction generalizing a v with
  | nil => exact h
  | copy c s hno ih =>
    rw [hre.replaceAll_copy hno] at h
    cases v with
    | nil => exact List.nil_prefix
    | cons d v =>
      rw [List.cons_prefix_cons] at h ⊢
      refine ⟨h.1, ih (a := a ++ [d]) (by simp) ?_ h.2⟩
      rwa [List.append_assoc, List.singleton_append]
  | word w r hw ih =>
    rcases eq_or_ne v [] with rfl | hne
    · exact List.nil_prefix
    · rw [hre.replaceAll_word hw] at h
      exact absurd h (hlead a v hv ha hne _)

/-- The byte behind a replaced word. -/
private theorem stop_of_replaceAll_eq_cons {Stop : UInt8 → Prop} (hstart : ∀ c w, W (c :: w) → ¬ Stop c) {r : Bytes}
    (hr : ∀ c ∈ r.head?, Stop c) {f : Bytes → Bytes} {c : UInt8} {s : Bytes} (h : replaceAll re f r = c :: s) :
    Stop c := by
  cases r with
  | nil => cases h
  | cons d r =>
    have hd : Stop d := hr d rfl
    rw [hre.replaceAll_copy, List.cons.injEq] at h
    · rwa [← h.1]
    · rintro w hw ⟨r', hr'⟩
      cases w with
      | nil => exact hre.ne_nil [] hw rfl
      | cons e w =>
        rw [List.cons_append, List.cons.injEq] at hr'
        exact hstart e w hw (by rwa [hr'.1])

/-- Let every word of `V` in a text begin where a word is replaced by `t`, and every replaced word be followed by a
byte of `Stop` or nothing.  After the replacement there is no word of `V`, if none of them goes on with the
beginning of `t`, is in `t`, or begins in `t` and goes on with a byte of `Stop`. -/
theorem replaceAll_no_word {Stop : UInt8 → Prop} (hstart : ∀ c w, W (c :: w) → ¬ Stop c) (hnil : ∀ v, V v → v ≠ [])
    (hlead : ∀ a v, V (a ++ v) → a ≠ [] → v ≠ [] → ∀ r, ¬ v <+: t ++ r) (hwithin : ∀ v, V v → ¬ v <:+: t)
    (htrail : ∀ a c v, V (a ++ c :: v) → a ≠ [] → a <:+ t → ¬ Stop c) {s : Bytes}
    (hfollow : ∀ w c, W w → w ++ [c] <:+: s → Stop c) (hs : ∀ v r, V v → v ++ r <:+ s → ∃ w, W w ∧ w <+: v ++ r) :
    ∀ v, V v → ¬ v <:+: replaceAll re (fun _ => t) s := by
  induction s using hre.induction with
  | nil => exact fun v hv hin => hnil v hv (List.infix_nil.mp hin)
  | copy c s hno ih =>
    intro v hv hin
    rw [hre.replaceAll_copy hno, List.infix_cons_iff] at hin
    rcases hin with hpre | hin
    · -- The word was there before, but no word is replaced at its place.
      cases v with
      | nil => exact hnil [] hv rfl
      | cons d v =>
        rw [List.cons_prefix_cons] at hpre
        obtain ⟨rfl, hpre⟩ := hpre
        obtain ⟨r, rfl⟩ := hre.prefix_of_prefix_replaceAll hlead (a := [d]) (by simp) hv hpre
        obtain ⟨w, hw, hbegin⟩ := hs (d :: v) r hv List.suffix_rfl
        exact hno w hw hbegin
    · have hsuffix : s <:+ c :: s := List.suffix_cons ..
      exact ih (fun w d hw hin => hfollow w d hw (hin.trans hsuffix.isInfix))
        (fun v r hv hr => hs v r hv (hr.trans hsuffix)) v hv hin
  | word w r hw ih =>
    have hsuffix : r <:+ w ++ r := List.suffix_append ..
    have hrest := ih (fun w d hw hin => hfollow w d hw (hin.trans hsuffix.isInfix))
      (fun v r hv hr => hs v r hv (hr.trans hsuffix))
    have hhead : ∀ c ∈ r.head?, Stop c := by
      intro c hc
      obtain ⟨r', rfl⟩ := List.head?_eq_some_iff.mp hc
      exact hfollow w c hw ⟨[], r', by simp⟩
    rintro v hv ⟨a, b, hin⟩
    rw [hre.replaceAll_word hw, List.append_assoc] at hin
    rcases List.append_eq_append_iff.mp hin with ⟨a', ht, hv'⟩ | ⟨a', -, hr⟩
    · rcases List.append_eq_append_iff.mp hv' with ⟨x, rfl, -⟩ | ⟨x, rfl, hx⟩
      · exact hwithin v hv ⟨a, x, by rw [ht, List.append_assoc]⟩
      · -- The word is cut by the end of `t`.
        cases x with
        | nil =>
          rw [List.append_nil] at hv
          exact hwithin a' hv ⟨a, [], by rw [ht, List.append_nil]⟩
        | cons c x =>
          rcases eq_or_ne a' [] with rfl | ha'
          · exact hrest _ hv ⟨[], b, by rw [hx]; rfl⟩
          · exact htrail a' c x hv ha' ⟨a, ht.symm⟩ (hre.stop_of_replaceAll_eq_cons hstart hhead hx)
    · exact hrest v hv ⟨a', b, by rw [hr, List.append_assoc]⟩

end NoWord

end MatchesWords

end MaasBoot
