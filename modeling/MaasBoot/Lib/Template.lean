import MaasBoot.Lib.Pattern

/-!
# Templates that stand for themselves

Go's `ReplaceAll` expands the replacement: `$$` gives a dollar sign, `$name` and `${name}` give groups of the match.
A template is inserted verbatim if no dollar sign in it starts one of these forms, and only then, for patterns whose
matches contain a byte that no form contains, such as `=` or `:`, with no dollar sign before it
(`replaceAll_expand_iff`).

The reason is this.  Read a template from left to right and compare what has been written with what has been read.
A form `$$` or `$name` writes less than is read, so what has been written lags behind, by some bytes of forms.
Other bytes are written as they are read, so the lag stays the same, except that its first byte becomes its last.
Only `$0` could make up for it, but the match would have to begin with bytes of the lag.
-/

namespace MaasBoot

/-! ### Forms -/

/-- No dollar sign is followed by another one or by a name. -/
def FormFree (u : Unicode) (t : Bytes) : Prop := ∀ a s, t = a ++ 36 :: s → s.head? ≠ some 36 ∧ extract u s = none

/-- The bytes of names and of the braces around them. -/
def FormByte (u : Unicode) (b : UInt8) : Prop := 0x80 ≤ b.toNat ∨ isWordRune u b.toNat = true ∨ b = 123 ∨ b = 125

theorem not_formByte {u : Unicode} {b : UInt8} (hlt : b.toNat < 0x80) (hword : isWordRune .asciiOnly b.toNat = false)
    (hopen : b ≠ 123) (hclose : b ≠ 125) : ¬ FormByte u b := by
  unfold isWordRune at hword
  rw [if_pos hlt] at hword
  rintro (h | h | h | h)
  · omega
  · rw [isWordRune, if_pos hlt, hword] at h
    cases h
  · exact hopen h
  · exact hclose h

theorem formFree_nil (u : Unicode) : FormFree u [] := by
  intro a s h
  simp at h

theorem formFree_of_notMem (u : Unicode) {t : Bytes} (h : 36 ∉ t) : FormFree u t :=
  fun a s hs => absurd (by simp [hs]) h

theorem formFree_cons_iff {u : Unicode} {c : UInt8} {t : Bytes} :
    FormFree u (c :: t) ↔ (c = 36 → t.head? ≠ some 36 ∧ extract u t = none) ∧ FormFree u t := by
  constructor
  · intro h
    refine ⟨fun hc => h [] t (by rw [hc]; rfl), fun a s hs => h (c :: a) s (by rw [hs]; rfl)⟩
  · rintro ⟨hc, ht⟩ a s hs
    cases a with
    | nil =>
      obtain ⟨rfl, rfl⟩ := List.cons.inj hs
      exact hc rfl
    | cons d a => exact ht a s (List.cons.inj hs).2

/-- The bytes of a name. -/
theorem formByte_of_mem_name {u : Unicode} {fuel : Nat} {s : Bytes} :
    ∀ b ∈ s.take (nameLength u fuel s), FormByte u b := by
  induction fuel generalizing s with
  | zero => simp [nameLength]
  | succ fuel ih =>
    cases s with
    | nil => simp
    | cons c s =>
      rw [nameLength]
      split
      · rename_i hword
        intro b hb
        rw [List.take_add, List.mem_append] at hb
        rcases hb with hb | hb
        · by_cases hc : c.toNat < 0x80
          · rw [decodeRune_ascii s hc] at hb hword
            rw [List.take_one, List.head?_cons, Option.toList_some, List.mem_singleton] at hb
            rw [hb]
            exact .inr (.inl hword)
          · exact .inl (le_of_mem_take_decodeRune (Nat.le_of_not_lt hc) hb)
        · exact ih b hb
      · simp

/-- What `extract` takes off a text is made of bytes of forms. -/
theorem extract_eq_some {u : Unicode} {s name rest : Bytes} (h : extract u s = some (name, rest)) :
    ∃ f, s = f ++ rest ∧ f ≠ [] ∧ ∀ b ∈ f, FormByte u b := by
  unfold extract at h
  split at h
  · cases h
  · rename_i c t
    split at h
    · rename_i hc
      dsimp only at h
      split at h
      · rename_i hi
        obtain ⟨-, hrest⟩ := Prod.mk.inj (Option.some.inj h)
        obtain ⟨t', ht'⟩ := List.head?_eq_some_iff.mp hi.2
        have hrest' : rest = t' := by
          rw [← hrest, ← List.drop_drop, ht']
          rfl
        refine ⟨c :: (t.take (nameLength u t.length t) ++ [125]), ?_, by simp, ?_⟩
        · rw [hrest', List.cons_append, List.append_assoc, List.singleton_append, ← ht', List.take_append_drop]
        · intro b hb
          rw [List.mem_cons, List.mem_append, List.mem_singleton] at hb
          rcases hb with rfl | hb | rfl
          · exact .inr (.inr (.inl hc))
          · exact formByte_of_mem_name b hb
          · exact .inr (.inr (.inr rfl))
      · cases h
    · dsimp only at h
      split at h
      · rename_i hi
        obtain ⟨-, hrest⟩ := Prod.mk.inj (Option.some.inj h)
        refine ⟨(c :: t).take (nameLength u (c :: t).length (c :: t)), ?_, ?_, formByte_of_mem_name⟩
        · rw [← hrest, List.take_append_drop]
        · intro hnil
          rw [List.take_eq_nil_iff] at hnil
          rcases hnil with hnil | hnil
          · exact hi hnil
          · cases hnil
      · cases h

/-! ### The lag -/

section Lag

variable {u : Unicode} {x : UInt8} {m A B : Bytes}

/-- A match with the byte `x` and no dollar sign before it. -/
def Marked (x : UInt8) (m : Bytes) : Prop := ∃ m₁ m₂, m = m₁ ++ x :: m₂ ∧ 36 ∉ m₁

/-- A byte that is written comes off the front of the lag, and what is read goes to its end. -/
theorem lag_step {c : UInt8} {w p s t : Bytes} (hp : p ≠ []) (h : c :: w = p ++ (s ++ t)) :
    ∃ p', p = c :: p' ∧ w = (p' ++ s) ++ t := by
  cases p with
  | nil => exact absurd rfl hp
  | cons d p =>
    rw [List.cons_append] at h
    obtain ⟨rfl, hw⟩ := List.cons.inj h
    exact ⟨p, rfl, by rw [hw, List.append_assoc]⟩

/-- A match is not written over a lag without its byte `x`. -/
theorem match_ne_lag (hx : x ≠ 36) (hm : Marked x m) {p : Bytes} (hp : x ∉ p) {w t : Bytes} :
    m ++ w ≠ p ++ 36 :: t := by
  obtain ⟨m₁, m₂, rfl, h36⟩ := hm
  intro h
  rw [List.append_assoc, List.cons_append] at h
  rcases List.append_eq_append_iff.mp h with ⟨d, hd, h'⟩ | ⟨d, hd, h'⟩
  · -- the match gets to `x` within the lag, or just behind it
    cases d with
    | nil =>
      rw [List.nil_append] at h'
      exact hx (List.cons.inj h').1
    | cons y d =>
      obtain rfl : x = y := (List.cons.inj h').1
      exact hp (by simp [hd])
  · -- the dollar sign comes first
    cases d with
    | nil =>
      rw [List.nil_append] at h'
      exact hx (List.cons.inj h').1.symm
    | cons y d =>
      obtain rfl : 36 = y := (List.cons.inj h').1
      exact h36 (by simp [hd])

/-- What is written of a template, and more, does not catch up. -/
theorem expandAux_ne_lag (hx : x ≠ 36) (hform : ¬ FormByte u x) (hm : Marked x m)
    (hrest : ∀ p, p ≠ [] → x ∉ p → A ≠ p ++ B) {fuel : Nat} {t p : Bytes} (hfuel : t.length ≤ fuel) (hp : p ≠ [])
    (hxp : x ∉ p) : expandAux u m fuel t ++ A ≠ p ++ (t ++ B) := by
  induction fuel generalizing t p with
  | zero =>
    obtain rfl := List.eq_nil_of_length_eq_zero (Nat.le_zero.mp hfuel)
    exact hrest p hp hxp
  | succ fuel ih =>
    cases t with
    | nil => exact hrest p hp hxp
    | cons c t =>
      rw [List.length_cons] at hfuel
      -- a byte that is written as it is read
      have hbyte : c :: expandAux u m fuel t ++ A ≠ p ++ (c :: t ++ B) := by
        intro h
        obtain ⟨p', rfl, hw⟩ := lag_step (s := [c]) hp h
        rw [List.mem_cons, not_or] at hxp
        refine ih (by omega) (by simp) ?_ hw
        rw [List.mem_append, List.mem_singleton]
        exact fun h => h.elim hxp.2 hxp.1
      rw [expandAux]
      split
      · exact hbyte
      · rename_i hc
        obtain rfl : c = 36 := not_not.mp hc
        split
        · rename_i hhead
          obtain ⟨t', rfl⟩ := List.head?_eq_some_iff.mp hhead
          intro h
          rw [List.length_cons] at hfuel
          obtain ⟨p', rfl, hw⟩ := lag_step (s := [36, 36]) hp h
          rw [List.mem_cons, not_or] at hxp
          refine ih (t := t') (by omega) (by simp) ?_ hw
          simp [hxp.2, hx]
        · split
          · exact hbyte
          · rename_i name rest hext
            obtain ⟨f, rfl, hf, hbytes⟩ := extract_eq_some hext
            rw [List.length_append] at hfuel
            split
            · intro h
              rw [List.append_assoc, List.cons_append] at h
              exact match_ne_lag hx hm hxp h
            · intro h
              have hw : expandAux u m fuel rest ++ A = (p ++ 36 :: f) ++ (rest ++ B) := by simpa using h
              refine ih (by omega) (by simp) ?_ hw
              rw [List.mem_append, List.mem_cons, not_or, not_or]
              exact ⟨hxp, hx, fun h => hform (hbytes x h)⟩

/-- A template with a form is not written as it is read. -/
theorem expandAux_append_eq_iff (hx : x ≠ 36) (hform : ¬ FormByte u x) (hm : Marked x m)
    (hrest : ∀ p, p ≠ [] → x ∉ p → A ≠ p ++ B) {fuel : Nat} {t : Bytes} (hfuel : t.length ≤ fuel) :
    expandAux u m fuel t ++ A = t ++ B ↔ FormFree u t ∧ A = B := by
  induction fuel generalizing t with
  | zero =>
    obtain rfl := List.eq_nil_of_length_eq_zero (Nat.le_zero.mp hfuel)
    simp [expandAux, formFree_nil]
  | succ fuel ih =>
    cases t with
    | nil => simp [expandAux, formFree_nil]
    | cons c t =>
      rw [List.length_cons] at hfuel
      rw [expandAux, formFree_cons_iff]
      split
      · rename_i hc
        simp [ih (t := t) (by omega), hc]
      · rename_i hc
        obtain rfl : c = 36 := not_not.mp hc
        split
        · rename_i hhead
          obtain ⟨t', rfl⟩ := List.head?_eq_some_iff.mp hhead
          rw [List.length_cons] at hfuel
          -- of two dollar signs one is written
          have hne : expandAux u m fuel t' ++ A ≠ [36] ++ (t' ++ B) :=
            expandAux_ne_lag hx hform hm hrest (by omega) (by simp) (by simpa using hx)
          constructor
          · intro h
            exact absurd (List.cons.inj h).2 hne
          · rintro ⟨⟨hno, -⟩, -⟩
            exact absurd rfl (hno rfl).1
        · rename_i hhead
          split
          · rename_i hext
            simp [ih (t := t) (by omega), hhead, hext]
          · rename_i name rest hext
            obtain ⟨f, rfl, hf, hbytes⟩ := extract_eq_some hext
            rw [List.length_append] at hfuel
            have hno : ¬ ((36 = (36 : UInt8) → (f ++ rest).head? ≠ some 36 ∧ extract u (f ++ rest) = none) ∧
                FormFree u (f ++ rest)) := by
              rintro ⟨h, -⟩
              rw [(h rfl).2] at hext
              cases hext
            refine iff_of_false ?_ fun h => hno h.1
            split
            · intro h
              rw [List.append_assoc] at h
              exact match_ne_lag (p := []) hx hm (by simp) h
            · -- the name is lost
              have hne : expandAux u m fuel rest ++ A ≠ (36 :: f) ++ (rest ++ B) := by
                refine expandAux_ne_lag hx hform hm hrest (by omega) (by simp) ?_
                rw [List.mem_cons, not_or]
                exact ⟨hx, fun h => hform (hbytes x h)⟩
              intro h
              exact hne (by simpa using h)

end Lag

/-! ### Replacing -/

section Replace

variable {u : Unicode} {x : UInt8} {re : Pattern}

/-- A template without forms stands for itself. -/
theorem expand_of_formFree {t : Bytes} (ht : FormFree u t) (m : Bytes) : expand u t m = t := by
  unfold expand
  induction t with
  | nil => rfl
  | cons c t ih =>
    obtain ⟨hc, ht⟩ := formFree_cons_iff.mp ht
    rw [List.length_cons, expandAux]
    split
    · rw [ih ht]
    · rename_i hdollar
      obtain ⟨hhead, hext⟩ := hc (not_not.mp hdollar)
      rw [if_neg hhead, hext]
      simp only [ih ht, not_not.mp hdollar]

theorem expand_of_notMem (u : Unicode) {t : Bytes} (h : 36 ∉ t) (m : Bytes) : expand u t m = t :=
  expand_of_formFree (formFree_of_notMem u h) m

/-- The replaced text does not catch up with a lag either. -/
theorem replaceGo_ne_lag (hx : x ≠ 36) (hform : ¬ FormByte u x)
    (hre : ∀ bol s n, re bol s = some n → Marked x (s.take n)) (t : Bytes) {skip : Nat} {bol : Bool} {s p : Bytes}
    (hp : p ≠ []) (hxp : x ∉ p) :
    replaceGo re (expand u t) skip bol s ≠ p ++ replaceGo re (fun _ => t) skip bol s := by
  induction s generalizing skip bol p with
  | nil =>
    intro h
    rw [replaceGo, replaceGo, List.append_nil] at h
    exact hp h.symm
  | cons c s ih =>
    cases skip with
    | succ skip =>
      rw [replaceGo, replaceGo]
      exact ih hp hxp
    | zero =>
      rw [replaceGo, replaceGo]
      split
      · rename_i n hmatch
        exact expandAux_ne_lag hx hform (hre _ _ _ hmatch) (fun p hp hxp => ih hp hxp) le_rfl hp hxp
      · intro h
        obtain ⟨p', rfl, hw⟩ := lag_step (s := [c]) hp h
        rw [List.mem_cons, not_or] at hxp
        refine ih (by simp) ?_ hw
        rw [List.mem_append, List.mem_singleton]
        exact fun h => h.elim hxp.2 hxp.1

theorem findGo_of_replaceGo (hx : x ≠ 36) (hform : ¬ FormByte u x)
    (hre : ∀ bol s n, re bol s = some n → Marked x (s.take n)) {t : Bytes} (ht : ¬ FormFree u t) {bol : Bool}
    {s : Bytes} (h : replaceGo re (expand u t) 0 bol s = replaceGo re (fun _ => t) 0 bol s) (pos : Nat) :
    findGo re pos bol s = none := by
  induction s generalizing bol pos with
  | nil => rfl
  | cons c s ih =>
    rw [replaceGo, replaceGo] at h
    rw [findGo]
    cases hmatch : re bol (c :: s) with
    | none =>
      rw [hmatch] at h
      exact ih (List.cons.inj h).2 (pos + 1)
    | some n =>
      exfalso
      cases n with
      | zero =>
        obtain ⟨m₁, m₂, hm, -⟩ := hre _ _ _ hmatch
        simp at hm
      | succ n =>
        rw [hmatch] at h
        have hrest : ∀ p, p ≠ [] → x ∉ p → replaceGo re (expand u t) n (c == 10) s ≠
            p ++ replaceGo re (fun _ => t) n (c == 10) s := fun p hp hxp => replaceGo_ne_lag hx hform hre t hp hxp
        exact ht ((expandAux_append_eq_iff hx hform (hre _ _ _ hmatch) hrest le_rfl).mp h).1

/-- Every match is replaced by the template as it is if and only if there is no match or the template has no forms. -/
theorem replaceAll_expand_iff (hx : x ≠ 36) (hform : ¬ FormByte u x)
    (hre : ∀ bol s n, re bol s = some n → Marked x (s.take n)) (t s : Bytes) :
    replaceAll re (expand u t) s = replaceAll re (fun _ => t) s ↔ findIndex re s = none ∨ FormFree u t := by
  constructor
  · intro h
    by_cases ht : FormFree u t
    · exact .inr ht
    · exact .inl (findGo_of_replaceGo hx hform hre ht h 0)
  · rintro (h | h)
    · rw [replaceAll, replaceAll, replaceGo_of_findGo h, replaceGo_of_findGo h]
    · rw [show expand u t = fun _ => t from funext (expand_of_formFree h)]

end Replace

end MaasBoot
