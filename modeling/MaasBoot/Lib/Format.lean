import MaasBoot.Lib.Bytes
import Mathlib.Data.Nat.Digits.Lemmas

/-!
# Numbers as text

`formatNat b w n` is `n` in base `b ≤ 16` with lower-case digits, padded with zeros to at least `w` digits: the
verbs `%d`, `%x` and `%04x` of `fmt`; `formatUpper` is the same in base 16 with upper-case digits.  `parseNat b`
reads a text of digits back.  A text that is already in the form `formatNat 16 w` gives it is a `HexField w`:
lower-case, and without a zero more than the padding needs.
-/

namespace MaasBoot

def digitChar (d : Nat) : UInt8 := if d < 10 then UInt8.ofNat (48 + d) else UInt8.ofNat (87 + d)

def formatNat (b w n : Nat) : Bytes :=
  let ds := (Nat.digits b n).reverse.map digitChar
  List.replicate (w - ds.length) 48 ++ ds

/-- `%d`. -/
def decimal (n : Nat) : Bytes := formatNat 10 1 n

example : decimal 4084 = str "4084" := by decide

/-- `hex.EncodeToString`, and `%x` of bytes. -/
def hexEncode (b : Bytes) : Bytes := b.flatMap fun x => [digitChar (x.toNat / 16), digitChar (x.toNat % 16)]

def upperDigit (c : UInt8) : UInt8 := if 97 ≤ c ∧ c ≤ 102 then c - 32 else c

/-- `%08X`, for `w = 8`. -/
def formatUpper (w n : Nat) : Bytes := (formatNat 16 w n).map upperDigit

example : formatUpper 8 0o100644 = str "000081A4" := by decide

/-- The value of a digit, upper or lower case; 0 for other characters. -/
def digitVal (c : UInt8) : Nat :=
  if 48 ≤ c ∧ c ≤ 57 then c.toNat - 48 else if 97 ≤ c ∧ c ≤ 102 then c.toNat - 87
  else if 65 ≤ c ∧ c ≤ 70 then c.toNat - 55 else 0

def parseNat (b : Nat) (t : Bytes) : Nat := Nat.ofDigits b (t.reverse.map digitVal)

def isDigit (c : UInt8) : Bool := 48 ≤ c && c ≤ 57

def isLowerHex (c : UInt8) : Bool := (48 ≤ c && c ≤ 57) || (97 ≤ c && c ≤ 102)

theorem digitVal_digitChar : ∀ d < 16, digitVal (digitChar d) = d := by decide

theorem isLowerHex_digitChar : ∀ d < 16, isLowerHex (digitChar d) = true := by decide

theorem digitVal_lt : ∀ c : UInt8, digitVal c < 16 := by
  exact forall_byte (by decide +kernel)

/-- A number of so many digits. -/
theorem parseNat_lt (t : Bytes) : parseNat 16 t < 16 ^ t.length := by
  have hlt := Nat.ofDigits_lt_base_pow_length (b := 16) (l := t.reverse.map digitVal) (by decide) fun x hx => by
    obtain ⟨c, -, rfl⟩ := List.mem_map.mp hx
    exact digitVal_lt c
  rwa [List.length_map, List.length_reverse] at hlt

theorem digitChar_digitVal {c : UInt8} (h : isLowerHex c = true) : digitChar (digitVal c) = c := by
  have hall : ∀ c : UInt8, isLowerHex c = true → digitChar (digitVal c) = c := forall_byte (by decide +kernel)
  exact hall c h

theorem isLowerHex_of_mem_hexEncode {b : Bytes} {c : UInt8} (hc : c ∈ hexEncode b) : isLowerHex c = true := by
  obtain ⟨x, -, hx⟩ := List.mem_flatMap.mp hc
  have hlt := x.toNat_lt
  simp only [List.mem_cons, List.not_mem_nil, or_false] at hx
  rcases hx with rfl | rfl
  · exact isLowerHex_digitChar _ (by omega)
  · exact isLowerHex_digitChar _ (by omega)

section Format

variable {b : Nat} (hb : 1 < b) (hb' : b ≤ 16)
include hb hb'

/-- Every byte of a formatted number is a digit. -/
theorem isLowerHex_of_mem_formatNat {w n : Nat} {c : UInt8} (hc : c ∈ formatNat b w n) : isLowerHex c = true := by
  unfold formatNat at hc
  rcases List.mem_append.mp hc with h | h
  · rw [List.eq_of_mem_replicate h]; decide
  · obtain ⟨d, hd, rfl⟩ := List.mem_map.mp h
    have := Nat.digits_lt_base hb (List.mem_reverse.mp hd)
    exact isLowerHex_digitChar d (by omega)

/-- A formatted number reads back as itself. -/
theorem parseNat_formatNat (w n : Nat) : parseNat b (formatNat b w n) = n := by
  have hmap : ((Nat.digits b n).map digitChar).map digitVal = Nat.digits b n := by
    rw [List.map_map, List.map_congr_left (g := id), List.map_id]
    intro d hd
    have := Nat.digits_lt_base hb hd
    exact digitVal_digitChar d (by omega)
  unfold parseNat formatNat
  simp only [List.reverse_append, List.map_append, List.reverse_replicate, List.map_replicate, List.map_reverse,
    List.reverse_reverse, hmap]
  rw [Nat.ofDigits_append, Nat.ofDigits_digits, show digitVal 48 = 0 from rfl, Nat.ofDigits_replicate_zero]
  simp

theorem formatNat_injective {w m n : Nat} (h : formatNat b w m = formatNat b w n) : m = n := by
  rw [← parseNat_formatNat hb hb' w m, h, parseNat_formatNat hb hb' w n]

omit hb' in
/-- A number that fits its width takes all of it. -/
theorem length_formatNat {w n : Nat} (hn : n < b ^ w) : (formatNat b w n).length = w := by
  have hlen := (Nat.digits_length_le_iff hb n).mpr hn
  unfold formatNat
  simp only [List.length_append, List.length_replicate, List.length_map, List.length_reverse]
  omega

end Format

/-! ### Upper-case digits -/

theorem digitVal_upperDigit {c : UInt8} (h : isLowerHex c = true) : digitVal (upperDigit c) = digitVal c := by
  have hall : ∀ c : UInt8, isLowerHex c = true → digitVal (upperDigit c) = digitVal c :=
    forall_byte (by decide +kernel)
  exact hall c h

theorem parseNat_formatUpper (w n : Nat) : parseNat 16 (formatUpper w n) = n := by
  have hval : ((formatNat 16 w n).map upperDigit).map digitVal = (formatNat 16 w n).map digitVal := by
    rw [List.map_map]
    refine List.map_congr_left fun c hc => ?_
    exact digitVal_upperDigit (isLowerHex_of_mem_formatNat (by decide) (by decide) hc)
  rw [parseNat, List.map_reverse, formatUpper, hval, ← List.map_reverse]
  exact parseNat_formatNat (by decide) (by decide) w n

theorem length_formatUpper {w n : Nat} (hn : n < 16 ^ w) : (formatUpper w n).length = w := by
  rw [formatUpper, List.length_map, length_formatNat (by decide) hn]

/-! ### Texts in their normal form -/

/-- Lower-case hexadecimal digits, at least `w` of them, and more than `w` only if the first one counts. -/
def HexField (w : Nat) (t : Bytes) : Prop :=
  (∀ c ∈ t, isLowerHex c = true) ∧ (t.length = w ∨ (w < t.length ∧ t.head? ≠ some 48))

instance (w : Nat) (t : Bytes) : Decidable (HexField w t) :=
  @instDecidableAnd _ _ (List.decidableBAll _ t) inferInstance

private theorem parseNat_zeros (b k : Nat) (t : Bytes) : parseNat b (List.replicate k 48 ++ t) = parseNat b t := by
  unfold parseNat
  rw [List.reverse_append, List.map_append, List.reverse_replicate, List.map_replicate, Nat.ofDigits_append,
    show digitVal 48 = 0 from rfl, Nat.ofDigits_replicate_zero]
  simp

private theorem digits_parseNat {t : Bytes} (ht : ∀ c ∈ t, isLowerHex c = true) (h0 : t.head? ≠ some 48) :
    (Nat.digits 16 (parseNat 16 t)).reverse.map digitChar = t := by
  have hne : ∀ h : t.reverse.map digitVal ≠ [], (t.reverse.map digitVal).getLast h ≠ 0 := by
    intro h
    cases t with
    | nil => simp at h
    | cons c t =>
      have hc := digitChar_digitVal (ht c (List.mem_cons_self ..))
      intro hz
      rw [List.getLast_map, List.getLast_reverse, List.head_cons] at hz
      rw [hz] at hc
      exact h0 (by rw [List.head?_cons, ← hc]; rfl)
  unfold parseNat
  rw [Nat.digits_ofDigits 16 (by decide) _ (fun d hd => ?_) hne, ← List.map_reverse, List.reverse_reverse,
    List.map_map]
  · conv_rhs => rw [← List.map_id t]
    exact List.map_congr_left fun c hc => digitChar_digitVal (ht c hc)
  · obtain ⟨c, -, rfl⟩ := List.mem_map.mp hd
    exact digitVal_lt c

private theorem exists_leading_zeros (t : Bytes) : ∃ k s, t = List.replicate k 48 ++ s ∧ s.head? ≠ some 48 := by
  induction t with
  | nil => exact ⟨0, [], rfl, by simp⟩
  | cons c t ih =>
    by_cases hc : c = 48
    · obtain ⟨k, s, rfl, hs⟩ := ih
      exact ⟨k + 1, s, by rw [hc, List.replicate_succ, List.cons_append], hs⟩
    · exact ⟨0, c :: t, rfl, by simpa using hc⟩

/-- A text in normal form is what its value is formatted as. -/
theorem HexField.formatNat_parseNat {w : Nat} {t : Bytes} (h : HexField w t) :
    formatNat 16 w (parseNat 16 t) = t := by
  obtain ⟨hhex, hlen⟩ := h
  obtain ⟨k, s, rfl, hs⟩ := exists_leading_zeros t
  have hds := digits_parseNat (fun c hc => hhex c (List.mem_append_right _ hc)) hs
  unfold formatNat
  dsimp only
  rw [parseNat_zeros, hds]
  rw [List.length_append, List.length_replicate] at hlen
  rcases hlen with hlen | ⟨hlen, h0⟩
  · rw [show w - s.length = k by omega]
  · cases k with
    | zero => rw [show w - s.length = 0 by omega]
    | succ k => simp [List.replicate_succ] at h0

/-- What a number is formatted as is in normal form. -/
theorem hexField_formatNat (w n : Nat) : HexField (w + 1) (formatNat 16 (w + 1) n) := by
  refine ⟨fun c hc => isLowerHex_of_mem_formatNat (by decide) (by decide) hc, ?_⟩
  unfold formatNat
  dsimp only
  rw [List.length_append, List.length_replicate, List.length_map, List.length_reverse]
  by_cases h : (Nat.digits 16 n).length ≤ w + 1
  · left; omega
  · right
    refine ⟨by omega, ?_⟩
    have hne : Nat.digits 16 n ≠ [] := by intro h0; rw [h0] at h; simp at h
    have hlast := Nat.getLast_digit_ne_zero 16 (Nat.digits_ne_nil_iff_ne_zero.mp hne)
    have hlt := Nat.digits_lt_base (by decide : 1 < 16) (List.getLast_mem hne)
    have hhead : (Nat.digits 16 n).reverse.head? = some ((Nat.digits 16 n).getLast hne) := by
      rw [List.head?_reverse, List.getLast?_eq_some_getLast hne]
    rw [show w + 1 - (Nat.digits 16 n).length =
      0 by omega, List.replicate_zero, List.nil_append, List.head?_map, hhead]
    intro h48
    have hval := digitVal_digitChar _ hlt
    rw [Option.map_some, Option.some.injEq] at h48
    rw [h48] at hval
    exact hlast hval.symm

end MaasBoot
