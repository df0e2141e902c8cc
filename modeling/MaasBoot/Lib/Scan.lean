import MaasBoot.Lib.Ascii
import MaasBoot.Lib.Format

/-!
# Scanning formatted input

`fmt.Sscanf` for formats that consist of the verb `%x`, stored to a `uint32`, and of single characters.  The verb
skips spaces (a newline is an error), reads the longest run of hexadecimal digits and fails when there is none or
when the number needs more than 32 bits.  Input behind the last directive is not looked at.
-/

namespace MaasBoot

inductive Directive where
  | hex
  | lit (c : UInt8)
  deriving DecidableEq

def isHexDigit (c : UInt8) : Bool := (48 ≤ c && c ≤ 57) || (97 ≤ c && c ≤ 102) || (65 ≤ c && c ≤ 70)

theorem isHexDigit_of_isLowerHex {c : UInt8} (h : isLowerHex c = true) : isHexDigit c = true := by
  unfold isLowerHex at h
  unfold isHexDigit
  rw [Bool.or_eq_true] at h
  rcases h with h | h <;> simp only [h, Bool.true_or, Bool.or_true]

/-- `SkipSpace` of the scanner.  The fuel is the length of the input. -/
def skipSpaceAux : Nat → Bytes → Option Bytes
  | 0, s => some s
  | fuel + 1, s =>
    if s.head? = some 10 then none
    else if isSpace (decodeRune s).1 then skipSpaceAux fuel (s.drop (decodeRune s).2)
    else some s

/-- The verb `%x`: the number and the input behind it. -/
def scanHex (s : Bytes) : Option (Nat × Bytes) := do
  let s ← skipSpaceAux s.length s
  let tok := s.takeWhile isHexDigit
  if tok = [] then none
  else if parseNat 16 tok < 2 ^ 32 then some (parseNat 16 tok, s.dropWhile isHexDigit)
  else none

/-- The numbers stored before the scan ends or fails. -/
def sscanf : List Directive → Bytes → List Nat
  | [], _ => []
  | .hex :: ds, s =>
    match scanHex s with
    | some (v, rest) => v :: sscanf ds rest
    | none => []
  | .lit c :: ds, s =>
    match s with
    | b :: rest => if b = c then sscanf ds rest else []
    | [] => []

/-! ### Text in the expected form -/

private theorem skipSpaceAux_self {s : Bytes} (h : ∀ c, s.head? = some c → isHexDigit c = true) (fuel : Nat) :
    skipSpaceAux fuel s = some s := by
  cases fuel with
  | zero => rfl
  | succ fuel =>
    cases s with
    | nil => simp [skipSpaceAux, decodeRune, runeError, isSpace]
    | cons c s =>
      have hascii : ∀ c : UInt8, isHexDigit c = true → c.toNat < 0x80 ∧ c ≠ 10 ∧ isSpace c.toNat = false :=
        forall_byte (by decide +kernel)
      have hc := hascii c (h c rfl)
      simp [skipSpaceAux, decodeRune_ascii s hc.1, hc.2.2, hc.2.1]

theorem takeWhile_append_stop {p : UInt8 → Bool} {t rest : Bytes} (ht : ∀ c ∈ t, p c = true)
    (hrest : ∀ c, rest.head? = some c → p c = false) :
    (t ++ rest).takeWhile p = t ∧ (t ++ rest).dropWhile p = rest := by
  induction t with
  | nil =>
    cases rest with
    | nil => exact ⟨rfl, rfl⟩
    | cons c rest => simp [hrest c rfl]
  | cons c t ih =>
    have := ih fun c' hc' => ht c' (List.mem_cons_of_mem _ hc')
    simp [ht c (List.mem_cons_self ..), this]

/-- A run of digits, with something else behind it, is one number. -/
theorem scanHex_digits {t rest : Bytes} (hne : t ≠ []) (ht : ∀ c ∈ t, isHexDigit c = true)
    (hrest : ∀ c, rest.head? = some c → isHexDigit c = false) :
    scanHex (t ++ rest) = if parseNat 16 t < 2 ^ 32 then some (parseNat 16 t, rest) else none := by
  obtain ⟨h1, h2⟩ := takeWhile_append_stop ht hrest
  have hskip := skipSpaceAux_self (s := t ++ rest) (fun c hc => by
    cases t with
    | nil => exact absurd rfl hne
    | cons d t => simp at hc; exact hc ▸ ht d (List.mem_cons_self ..)) (t ++ rest).length
  unfold scanHex
  rw [hskip]
  simp only [Option.bind_eq_bind, Option.bind_some, h1, h2, if_neg hne]

/-- A number at the start of the input. -/
theorem sscanf_hex {ds : List Directive} {t rest : Bytes} (hne : t ≠ []) (ht : ∀ c ∈ t, isHexDigit c = true)
    (hrest : ∀ c, rest.head? = some c → isHexDigit c = false) :
    sscanf (.hex :: ds) (t ++ rest) = if parseNat 16 t < 2 ^ 32 then parseNat 16 t :: sscanf ds rest else [] := by
  rw [sscanf, scanHex_digits hne ht hrest]
  by_cases hlt : parseNat 16 t < 2 ^ 32
  · simp only [if_pos hlt]
  · simp only [if_neg hlt]

theorem sscanf_lit (ds : List Directive) (c : UInt8) (rest : Bytes) :
    sscanf (.lit c :: ds) (c :: rest) = sscanf ds rest := by
  rw [sscanf, if_pos rfl]

theorem sscanf_lit_ne {c c' : UInt8} (hne : c' ≠ c) (ds : List Directive) (rest : Bytes) :
    sscanf (.lit c :: ds) (c' :: rest) = [] := by
  rw [sscanf, if_neg hne]

theorem head?_not_hex {c : UInt8} (hc : isHexDigit c = false) (rest : Bytes) :
    ∀ d, (c :: rest).head? = some d → isHexDigit d = false := by
  intro d hd
  obtain rfl : c = d := by simpa using hd
  exact hc

example : sscanf [.hex, .lit 58, .hex, .lit 46, .hex] (str "AF:0.1 x") = [0xAF, 0, 1] := by decide

/-! ### What is stored -/

/-- Every stored number has at most 32 bits. -/
theorem lt_of_mem_sscanf {ds : List Directive} {s : Bytes} {v : Nat} (h : v ∈ sscanf ds s) : v < 2 ^ 32 := by
  induction ds generalizing s with
  | nil => cases h
  | cons d ds ih =>
    cases d with
    | hex =>
      rw [sscanf] at h
      split at h
      · rename_i w rest hscan
        rcases List.mem_cons.mp h with rfl | h
        · unfold scanHex at hscan
          obtain ⟨t, -, hscan⟩ := Option.bind_eq_some_iff.mp hscan
          dsimp only at hscan
          split_ifs at hscan with h₁ h₂
          obtain ⟨rfl, -⟩ := Prod.mk.inj (Option.some.inj hscan)
          exact h₂
        · exact ih h
      · cases h
    | lit c =>
      rw [sscanf.eq_def] at h
      dsimp only at h
      split at h
      · split_ifs at h
        · exact ih h
        · cases h
      · cases h

/-! ### Letter case -/

private theorem lowerByte_hex (c : UInt8) :
    isHexDigit (lowerByte c) = isHexDigit c ∧ digitVal (lowerByte c) = digitVal c ∧ (lowerByte c = 10 ↔ c = 10) ∧
      (c.toNat < 0x80 → isSpace (lowerByte c).toNat = isSpace c.toNat) := by
  have hall : ∀ c : UInt8, isHexDigit (lowerByte c) = isHexDigit c ∧ digitVal (lowerByte c) = digitVal c ∧
      (lowerByte c = 10 ↔ c = 10) ∧ (c.toNat < 0x80 → isSpace (lowerByte c).toNat = isSpace c.toNat) :=
    forall_byte (by decide +kernel)
  exact hall c

private theorem skipSpaceAux_map_lower (fuel : Nat) {s : Bytes} (hs : IsAscii s) :
    skipSpaceAux fuel (s.map lowerByte) = (skipSpaceAux fuel s).map (List.map lowerByte) := by
  induction fuel generalizing s with
  | zero => rfl
  | succ fuel ih =>
    cases s with
    | nil =>
      have hnil : isSpace (decodeRune []).1 = false := by decide
      simp [skipSpaceAux, hnil]
    | cons c s =>
      obtain ⟨hc, hs⟩ := hs.cons
      obtain ⟨-, -, hnl, hsp⟩ := lowerByte_hex c
      have hlower := (lowerByte_spec c).2.2 hc
      simp only [skipSpaceAux, List.map_cons, decodeRune_ascii _ hc, decodeRune_ascii _ hlower, hsp hc,
        List.head?_cons, Option.some.injEq, hnl, List.drop_succ_cons, List.drop_zero, ih hs]
      split_ifs <;> rfl

private theorem isAscii_of_skipSpaceAux (fuel : Nat) {s t : Bytes} (hs : IsAscii s)
    (h : skipSpaceAux fuel s = some t) :
    IsAscii t := by
  induction fuel generalizing s with
  | zero => exact Option.some.inj h ▸ hs
  | succ fuel ih =>
    rw [skipSpaceAux] at h
    split_ifs at h
    · exact ih (hs.mono (List.drop_subset ..)) h
    · exact Option.some.inj h ▸ hs

theorem parseNat_map_lower (b : Nat) (t : Bytes) : parseNat b (t.map lowerByte) = parseNat b t := by
  unfold parseNat
  rw [← List.map_reverse, List.map_map]
  exact congrArg _ (List.map_congr_left fun c _ => (lowerByte_hex c).2.1)

private theorem scanHex_map_lower {s : Bytes} (hs : IsAscii s) :
    scanHex (s.map lowerByte) = (scanHex s).map fun vr => (vr.1, vr.2.map lowerByte) := by
  have hcomp : isHexDigit ∘ lowerByte = isHexDigit := funext fun c => (lowerByte_hex c).1
  unfold scanHex
  rw [List.length_map, skipSpaceAux_map_lower _ hs]
  cases skipSpaceAux s.length s with
  | none => rfl
  | some t =>
    simp only [Option.map_some, Option.bind_eq_bind, Option.bind_some, List.takeWhile_map, List.dropWhile_map, hcomp,
      List.map_eq_nil_iff, parseNat_map_lower]
    split_ifs <;> rfl

private theorem isAscii_of_scanHex {s rest : Bytes} {v : Nat} (hs : IsAscii s) (h : scanHex s = some (v, rest)) :
    IsAscii rest := by
  unfold scanHex at h
  obtain ⟨t, ht, h⟩ := Option.bind_eq_some_iff.mp h
  dsimp only at h
  split_ifs at h
  obtain ⟨-, rfl⟩ := Prod.mk.inj (Option.some.inj h)
  exact (isAscii_of_skipSpaceAux _ hs ht).mono (List.dropWhile_subset _)

/-- The letter case of the input does not matter, as long as no literal is a letter. -/
theorem sscanf_map_lower {ds : List Directive} (hds : ∀ c, .lit c ∈ ds → ∀ d, lowerByte d = c ↔ d = c) {s : Bytes}
    (hs : IsAscii s) : sscanf ds (s.map lowerByte) = sscanf ds s := by
  induction ds generalizing s with
  | nil => rfl
  | cons d ds ih =>
    have hds' : ∀ c, Directive.lit c ∈ ds → ∀ d, lowerByte d = c ↔ d = c :=
      fun c hc => hds c (List.mem_cons_of_mem _ hc)
    cases d with
    | hex =>
      rw [sscanf, sscanf, scanHex_map_lower hs]
      cases h : scanHex s with
      | none => rfl
      | some vr =>
        obtain ⟨v, rest⟩ := vr
        simp only [Option.map_some]
        rw [ih hds' (isAscii_of_scanHex hs h)]
    | lit c =>
      cases s with
      | nil => rfl
      | cons b s =>
        rw [List.map_cons, sscanf, sscanf, ih hds' hs.cons.2]
        exact if_congr (hds c (List.mem_cons_self ..) b) rfl rfl

end MaasBoot
