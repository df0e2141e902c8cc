import MaasBoot.Lib.Bytes
import Mathlib.Data.List.DropRight

/-!
# Strings

The functions of Go's `strings` and `unicode/utf8` packages on byte strings.  A string need not be valid UTF-8: a
byte that starts no valid encoding counts as one rune, `runeError`.

What a lower-case mapping does to characters outside ASCII is a table of the Unicode standard; it is the parameter
`Unicode`, with the one fact about the table that the development uses.
-/

namespace MaasBoot

/-! ### UTF-8 -/

def runeError : Nat := 0xFFFD

/-- `utf8.DecodeRuneInString`: the first rune of a string and its width. -/
def decodeRune : Bytes → Nat × Nat
  | [] => (runeError, 0)
  | b :: s =>
    let x := b.toNat
    -- the bytes that follow; past the end there is a 0, which continues nothing
    let c := fun i => (byteAt s i).toNat
    let cont := fun i => 0x80 ≤ c i ∧ c i ≤ 0xBF
    if x < 0x80 then (x, 1)
    else if 0xC2 ≤ x ∧ x ≤ 0xDF ∧ cont 0 then (x % 32 * 64 + c 0 % 64, 2)
    else if 0xE0 ≤ x ∧ x ≤ 0xEF ∧ cont 0 ∧ (x = 0xE0 → 0xA0 ≤ c 0) ∧ (x = 0xED → c 0 ≤ 0x9F) ∧ cont 1 then
      ((x % 16 * 64 + c 0 % 64) * 64 + c 1 % 64, 3)
    else if 0xF0 ≤ x ∧ x ≤ 0xF4 ∧ cont 0 ∧ (x = 0xF0 → 0x90 ≤ c 0) ∧ (x = 0xF4 → c 0 ≤ 0x8F) ∧ cont 1 ∧ cont 2 then
      (((x % 8 * 64 + c 0 % 64) * 64 + c 1 % 64) * 64 + c 2 % 64, 4)
    else (runeError, 1)

/-- `utf8.AppendRune`: a number that is no character is written as `runeError`. -/
def encodeRune (r : Nat) : Bytes :=
  let cont := fun v => UInt8.ofNat (0x80 + v % 64)
  if r < 0x80 then [UInt8.ofNat r]
  else if r < 0x800 then [UInt8.ofNat (0xC0 + r / 64), cont r]
  else if 0x10FFFF < r ∨ (0xD800 ≤ r ∧ r < 0xE000) then [0xEF, 0xBF, 0xBD]
  else if r < 0x10000 then [UInt8.ofNat (0xE0 + r / 4096), cont (r / 64), cont r]
  else [UInt8.ofNat (0xF0 + r / 262144), cont (r / 4096), cont (r / 64), cont r]

/-- The runes of a string, as `range` over it visits them.  The fuel is the length of the string. -/
def runesAux : Nat → Bytes → List Nat
  | 0, _ => []
  | _ + 1, [] => []
  | fuel + 1, b :: s => (decodeRune (b :: s)).1 :: runesAux fuel (s.drop ((decodeRune (b :: s)).2 - 1))

def runes (s : Bytes) : List Nat := runesAux s.length s

/-- `unicode.IsSpace`. -/
def isSpace (r : Nat) : Bool :=
  (9 ≤ r && r ≤ 13) || r == 0x20 || r == 0x85 || r == 0xA0 || r == 0x1680 || (0x2000 ≤ r && r ≤ 0x200A) ||
    r == 0x2028 || r == 0x2029 || r == 0x202F || r == 0x205F || r == 0x3000

/-- The tables of the package `unicode` outside ASCII: the lower case of a rune, which may be an ASCII letter, and
whether a rune is a letter or a digit. -/
structure Unicode where
  toLower : Nat → Nat
  lower_of_lt : ∀ r, 0x80 ≤ r → toLower r < 0x80 → 97 ≤ toLower r ∧ toLower r ≤ 122
  isWord : Nat → Bool

/-- The mapping that leaves all characters outside ASCII alone. -/
def Unicode.asciiOnly : Unicode where
  toLower := id
  lower_of_lt := fun r h h' => by simp at h'; omega
  isWord := fun _ => false

/-- `unicode.ToLower`. -/
def Unicode.lower (u : Unicode) (r : Nat) : Nat :=
  if r < 0x80 then if 65 ≤ r ∧ r ≤ 90 then r + 32 else r else u.toLower r

/-! ### Strings -/

/-- `strings.ToLower`. -/
def toLower (u : Unicode) (s : Bytes) : Bytes := (runes s).flatMap fun r => encodeRune (u.lower r)

/-- `strings.TrimLeftFunc(s, unicode.IsSpace)`.  The fuel is the length of the string. -/
def trimLeftAux : Nat → Bytes → Bytes
  | 0, s => s
  | fuel + 1, s =>
    if isSpace (decodeRune s).1 then trimLeftAux fuel (s.drop (decodeRune s).2) else s

/-- The width of the space that a string ends in, if it does. -/
def lastSpace? (s : Bytes) : Option Nat :=
  [1, 2, 3].find? fun w => w ≤ s.length && (decodeRune (s.drop (s.length - w))).2 == w &&
    isSpace (decodeRune (s.drop (s.length - w))).1

/-- `strings.TrimRightFunc(s, unicode.IsSpace)`. -/
def trimRightAux : Nat → Bytes → Bytes
  | 0, s => s
  | fuel + 1, s =>
    match lastSpace? s with
    | some w => trimRightAux fuel (s.take (s.length - w))
    | none => s

/-- `strings.TrimSpace`. -/
def trimSpace (s : Bytes) : Bytes :=
  let s := trimLeftAux s.length s
  trimRightAux s.length s

/-- `strings.TrimRight(s, c)` for a cutset of one character. -/
def trimRight (s : Bytes) (c : UInt8) : Bytes := s.rdropWhile (· == c)

/-- `strings.Join`. -/
def join (sep : Bytes) (ss : List Bytes) : Bytes := sep.intercalate ss

/-- `strings.LastIndex` -/
def lastIndex (t : Bytes) : Bytes → Option Nat
  | [] => if t = [] then some 0 else none
  | c :: s =>
    match lastIndex t s with
    | some i => some (i + 1)
    | none => if t.isPrefixOf (c :: s) then some 0 else none

/-- Lines, each with its newline. -/
def unlines (ls : List Bytes) : Bytes := ls.flatMap (· ++ [10])

example : trimSpace (str " \t3b:00.0 \n") = str "3b:00.0" := by decide

/-! ### ASCII characters in decoded and encoded text -/

theorem decodeRune_ascii {b : UInt8} (s : Bytes) (h : b.toNat < 0x80) : decodeRune (b :: s) = (b.toNat, 1) := by
  simp only [decodeRune, if_pos h]

/-- A byte outside ASCII starts a rune outside ASCII, and all bytes of that rune are outside ASCII. -/
theorem decodeRune_not_ascii {b : UInt8} (s : Bytes) (h : 0x80 ≤ b.toNat) :
    0x80 ≤ (decodeRune (b :: s)).1 ∧ 1 ≤ (decodeRune (b :: s)).2 ∧
      ∀ i < (decodeRune (b :: s)).2 - 1, 0x80 ≤ (byteAt s i).toNat := by
  unfold decodeRune runeError
  dsimp only
  rw [if_neg (by omega)]
  split
  · exact ⟨by dsimp only; omega, by dsimp only; omega, fun i hi => by
      obtain rfl : i = 0 := by dsimp only at hi; omega
      omega⟩
  · split
    · exact ⟨by dsimp only; omega, by dsimp only; omega, fun i hi => by
        rcases (show i = 0 ∨ i = 1 by dsimp only at hi; omega) with rfl | rfl <;> omega⟩
    · split
      · exact ⟨by dsimp only; omega, by dsimp only; omega, fun i hi => by
          rcases (show i = 0 ∨ i = 1 ∨ i = 2 by dsimp only at hi; omega) with rfl | rfl | rfl <;> omega⟩
      · exact ⟨by dsimp only; omega, by dsimp only; omega, fun i hi => by dsimp only at hi; omega⟩

/-- The bytes of a rune behind its first byte. -/
theorem le_of_mem_tail_decodeRune {c : UInt8} {s : Bytes} (hc : 0x80 ≤ c.toNat) {b : UInt8}
    (hb : b ∈ s.take ((decodeRune (c :: s)).2 - 1)) : 0x80 ≤ b.toNat := by
  obtain ⟨-, -, hcont⟩ := decodeRune_not_ascii s hc
  obtain ⟨i, hi, rfl⟩ := List.getElem_of_mem hb
  rw [List.length_take] at hi
  have hbyte := hcont i (by omega)
  rw [byteAt, List.getD_eq_getElem?_getD, List.getElem?_eq_getElem (by omega)] at hbyte
  simpa using hbyte

/-- All bytes of a rune outside ASCII are outside ASCII. -/
theorem le_of_mem_take_decodeRune {c : UInt8} {s : Bytes} (hc : 0x80 ≤ c.toNat) {b : UInt8}
    (hb : b ∈ (c :: s).take (decodeRune (c :: s)).2) : 0x80 ≤ b.toNat := by
  obtain ⟨-, hwidth, -⟩ := decodeRune_not_ascii s hc
  rw [← Nat.sub_add_cancel hwidth, List.take_succ_cons] at hb
  rcases List.mem_cons.mp hb with rfl | hb
  · exact hc
  · exact le_of_mem_tail_decodeRune hc hb

/-- A byte that can be part of a space: an ASCII space, or any byte outside ASCII. -/
def SpaceByte (b : UInt8) : Prop := 0x80 ≤ b.toNat ∨ isSpace b.toNat = true

/-- The bytes of a leading space. -/
theorem spaceByte_of_decodeRune {s : Bytes} (h : isSpace (decodeRune s).1 = true) :
    ∀ b ∈ s.take (decodeRune s).2, SpaceByte b := by
  intro b hb
  cases s with
  | nil => simp at hb
  | cons c s =>
    by_cases hc : c.toNat < 0x80
    · rw [decodeRune_ascii s hc] at h hb
      simp only [List.take_succ_cons, List.take_zero, List.mem_singleton] at hb
      exact .inr (hb ▸ h)
    · exact .inl (le_of_mem_take_decodeRune (Nat.le_of_not_lt hc) hb)

/-- Trimming at the left takes away bytes of spaces only. -/
theorem exists_trimLeftAux (fuel : Nat) (s : Bytes) : ∃ a, s = a ++ trimLeftAux fuel s ∧ ∀ b ∈ a, SpaceByte b := by
  induction fuel generalizing s with
  | zero => exact ⟨[], rfl, by simp⟩
  | succ fuel ih =>
    by_cases h : isSpace (decodeRune s).1 = true
    · obtain ⟨a, ha, hb⟩ := ih (s.drop (decodeRune s).2)
      refine ⟨s.take (decodeRune s).2 ++ a, ?_, ?_⟩
      · rw [trimLeftAux, if_pos h, List.append_assoc, ← ha, List.take_append_drop]
      · intro b hmem
        rcases List.mem_append.mp hmem with hmem | hmem
        · exact spaceByte_of_decodeRune h b hmem
        · exact hb b hmem
    · exact ⟨[], by rw [trimLeftAux, if_neg h, List.nil_append], by simp⟩

theorem exists_trimRightAux (fuel : Nat) (s : Bytes) : ∃ a, s = trimRightAux fuel s ++ a ∧ ∀ b ∈ a, SpaceByte b := by
  induction fuel generalizing s with
  | zero => exact ⟨[], by simp [trimRightAux], by simp⟩
  | succ fuel ih =>
    cases hw : lastSpace? s with
    | none => exact ⟨[], by simp [trimRightAux, hw], by simp⟩
    | some w =>
      obtain ⟨a, ha, hb⟩ := ih (s.take (s.length - w))
      have hlast := List.find?_some hw
      simp only [Bool.and_eq_true, decide_eq_true_eq, beq_iff_eq] at hlast
      refine ⟨a ++ s.drop (s.length - w), ?_, ?_⟩
      · rw [trimRightAux, hw, ← List.append_assoc]
        dsimp only
        rw [← ha, List.take_append_drop]
      · intro b hmem
        rcases List.mem_append.mp hmem with hmem | hmem
        · exact hb b hmem
        · refine spaceByte_of_decodeRune hlast.2 b ?_
          rw [hlast.1.2, List.take_of_length_le (by rw [List.length_drop]; omega)]
          exact hmem

/-- `strings.TrimSpace` takes away bytes of spaces only. -/
theorem exists_trimSpace (s : Bytes) :
    ∃ a c, s = a ++ trimSpace s ++ c ∧ (∀ b ∈ a, SpaceByte b) ∧ ∀ b ∈ c, SpaceByte b := by
  obtain ⟨a, ha, hab⟩ := exists_trimLeftAux s.length s
  obtain ⟨c, hc, hcb⟩ := exists_trimRightAux (trimLeftAux s.length s).length (trimLeftAux s.length s)
  refine ⟨a, c, ?_, hab, hcb⟩
  rw [List.append_assoc, trimSpace, ← hc, ← ha]

theorem mem_of_mem_trimSpace {s : Bytes} {b : UInt8} (h : b ∈ trimSpace s) : b ∈ s := by
  obtain ⟨a, c, hs, -, -⟩ := exists_trimSpace s
  rw [hs]
  simp [h]

private theorem mem_of_mem_runesAux {r : Nat} (hr : r < 0x80) (fuel : Nat) (s : Bytes) (h : r ∈ runesAux fuel s) :
    UInt8.ofNat r ∈ s := by
  induction fuel generalizing s with
  | zero => simp [runesAux] at h
  | succ fuel ih =>
    cases s with
    | nil => simp [runesAux] at h
    | cons b s =>
      rw [runesAux] at h
      rcases List.mem_cons.mp h with rfl | h
      · by_cases hb : b.toNat < 0x80
        · rw [decodeRune_ascii s hb]
          simp
        · have := (decodeRune_not_ascii s (Nat.le_of_not_lt hb)).1
          omega
      · exact List.mem_cons_of_mem _ (List.mem_of_mem_drop (ih _ h))

/-- The encoding of a rune outside ASCII has no ASCII byte. -/
theorem not_ascii_of_mem_encodeRune {r : Nat} (hr : 0x80 ≤ r) {b : UInt8} (h : b ∈ encodeRune r) :
    0x80 ≤ b.toNat := by
  have hcont : ∀ v, 0x80 ≤ (UInt8.ofNat (0x80 + v % 64)).toNat := by
    intro v
    rw [UInt8.toNat_ofNat_of_lt' (by simp [UInt8.size]; omega)]
    omega
  have hlead : ∀ v, 0x80 ≤ v → v < 256 → 0x80 ≤ (UInt8.ofNat v).toNat := by
    intro v h1 h2
    rw [UInt8.toNat_ofNat_of_lt' h2]
    exact h1
  unfold encodeRune at h
  dsimp only at h
  rw [if_neg (by omega)] at h
  split at h
  · rcases List.mem_cons.mp h with rfl | h
    · exact hlead _ (by omega) (by omega)
    · rw [List.mem_singleton.mp h]; exact hcont _
  · split at h
    · revert h
      simp only [List.mem_cons, List.not_mem_nil, or_false]
      rintro (rfl | rfl | rfl) <;> decide
    · split at h
      · simp only [List.mem_cons, List.not_mem_nil, or_false] at h
        rcases h with rfl | rfl | rfl
        · exact hlead _ (by omega) (by omega)
        · exact hcont _
        · exact hcont _
      · simp only [List.mem_cons, List.not_mem_nil, or_false] at h
        rcases h with rfl | rfl | rfl | rfl
        · exact hlead _ (by omega) (by omega)
        · exact hcont _
        · exact hcont _
        · exact hcont _

theorem encodeRune_ne_nil (r : Nat) : encodeRune r ≠ [] := by
  unfold encodeRune
  dsimp only
  split_ifs <;> simp

/-- An ASCII character of a lower-case text is in the text itself, unless it is a lower-case letter. -/
theorem mem_of_mem_toLower {u : Unicode} {s : Bytes} {b : UInt8} (h : b ∈ toLower u s) (hb : b.toNat < 0x80)
    (hl : ¬ (97 ≤ b.toNat ∧ b.toNat ≤ 122)) : b ∈ s := by
  obtain ⟨r, hr, hbr⟩ := List.mem_flatMap.mp h
  by_cases hlow : u.lower r < 0x80
  · obtain rfl : b = UInt8.ofNat (u.lower r) := by
      rw [encodeRune] at hbr
      simpa [hlow] using hbr
    rw [UInt8.toNat_ofNat_of_lt' (show u.lower r < 256 by omega)] at hl
    unfold Unicode.lower at hl hlow ⊢
    by_cases hr80 : r < 0x80
    · simp only [if_pos hr80] at hl hlow ⊢
      split at hl
      · omega
      · rename_i hup
        rw [if_neg hup]
        exact mem_of_mem_runesAux hr80 _ _ hr
    · simp only [if_neg hr80] at hl hlow
      exact absurd (u.lower_of_lt r (by omega) hlow) hl
  · have := not_ascii_of_mem_encodeRune (by omega) hbr
    omega

theorem ascii_of_runesAux {u : Unicode} {fuel : Nat} {s : Bytes} (hlen : s.length ≤ fuel)
    (hs : ∀ b ∈ (runesAux fuel s).flatMap (fun r => encodeRune (u.lower r)),
      b.toNat < 0x80 ∧ ∀ r, 0x80 ≤ r → u.toLower r ≠ b.toNat) : ∀ b ∈ s, b.toNat < 0x80 := by
  induction fuel generalizing s with
  | zero =>
    obtain rfl : s = [] := List.length_eq_zero_iff.mp (by omega)
    exact List.forall_mem_nil _
  | succ fuel ih =>
    cases s with
    | nil => exact List.forall_mem_nil _
    | cons b s =>
      rw [runesAux, List.flatMap_cons, List.forall_mem_append] at hs
      have hb : b.toNat < 0x80 := by
        by_contra hge
        have hrune := (decodeRune_not_ascii s (Nat.le_of_not_lt hge)).1
        have hlower : u.lower (decodeRune (b :: s)).1 = u.toLower (decodeRune (b :: s)).1 := by
          rw [Unicode.lower, if_neg (by omega)]
        by_cases hlow : u.lower (decodeRune (b :: s)).1 < 0x80
        · have hc := (hs.1 (UInt8.ofNat (u.lower (decodeRune (b :: s)).1)) (by simp [encodeRune, hlow])).2 _ hrune
          rw [UInt8.toNat_ofNat_of_lt' (show u.lower (decodeRune (b :: s)).1 < 256 by omega)] at hc
          exact hc hlower.symm
        · obtain ⟨c, hc⟩ := List.exists_mem_of_ne_nil _ (encodeRune_ne_nil (u.lower (decodeRune (b :: s)).1))
          have := not_ascii_of_mem_encodeRune (by omega) hc
          have := (hs.1 c hc).1
          omega
      rw [decodeRune_ascii s hb] at hs
      exact List.forall_mem_cons.mpr ⟨hb, ih (by simpa using hlen) hs.2⟩

/-- A text is ASCII if its lower case has ASCII characters only, none of which is the lower case of another rune. -/
theorem ascii_of_toLower {u : Unicode} {s : Bytes}
    (h : ∀ b ∈ toLower u s, b.toNat < 0x80 ∧ ∀ r, 0x80 ≤ r → u.toLower r ≠ b.toNat) : ∀ b ∈ s, b.toNat < 0x80 :=
  ascii_of_runesAux (Nat.le_refl _) h

/-- The ASCII characters of a text are among its runes. -/
theorem mem_runesAux {fuel : Nat} {s : Bytes} {b : UInt8} (hlt : b.toNat < 0x80) (hlen : s.length ≤ fuel)
    (hmem : b ∈ s) :
    b.toNat ∈ runesAux fuel s := by
  induction fuel generalizing s with
  | zero =>
    obtain rfl : s = [] := List.length_eq_zero_iff.mp (by omega)
    simp at hmem
  | succ fuel ih =>
    cases s with
    | nil => simp at hmem
    | cons c s =>
      rw [runesAux]
      have hlen' : ∀ k, (s.drop k).length ≤ fuel := fun k => by
        rw [List.length_drop]
        simp only [List.length_cons] at hlen
        omega
      by_cases hc : c.toNat < 0x80
      · rw [decodeRune_ascii s hc]
        rcases List.mem_cons.mp hmem with rfl | hmem
        · exact List.mem_cons_self ..
        · exact List.mem_cons_of_mem _ (ih (hlen' _) hmem)
      · rcases List.mem_cons.mp hmem with rfl | hmem
        · exact absurd hlt hc
        · refine List.mem_cons_of_mem _ (ih (hlen' _) ?_)
          -- the bytes that are skipped are outside ASCII
          rw [← List.take_append_drop ((decodeRune (c :: s)).2 - 1) s] at hmem
          rcases List.mem_append.mp hmem with htake | hdrop
          · exact absurd (le_of_mem_tail_decodeRune (Nat.le_of_not_lt hc) htake) (Nat.not_le_of_lt hlt)
          · exact hdrop

/-- An ASCII character of a text that is no upper-case letter is in its lower case. -/
theorem mem_toLower {u : Unicode} {s : Bytes} {b : UInt8} (hb : b ∈ s) (hlt : b.toNat < 0x80)
    (hup : ¬ (65 ≤ b.toNat ∧ b.toNat ≤ 90)) : b ∈ toLower u s := by
  refine List.mem_flatMap.mpr ⟨b.toNat, mem_runesAux hlt (Nat.le_refl _) hb, ?_⟩
  rw [Unicode.lower, if_pos hlt, if_neg hup]
  simp [encodeRune, hlt]

/-- A byte of joined texts is one of the separator or of a text. -/
theorem mem_or_mem_of_mem_join {sep : Bytes} {ms : List Bytes} {b : UInt8} (hb : b ∈ join sep ms) :
    b ∈ sep ∨ ∃ m ∈ ms, b ∈ m := by
  unfold join at hb
  induction ms with
  | nil => simp at hb
  | cons m ms ih =>
    cases ms with
    | nil => exact .inr ⟨m, List.mem_cons_self .., by simpa using hb⟩
    | cons m' ms =>
      rw [List.intercalate_cons_cons, List.append_assoc, List.mem_append, List.mem_append] at hb
      rcases hb with h | h | h
      · exact .inr ⟨m, List.mem_cons_self .., h⟩
      · exact .inl h
      · rcases ih h with h | ⟨m'', hm, h⟩
        · exact .inl h
        · exact .inr ⟨m'', List.mem_cons_of_mem _ hm, h⟩

theorem mem_join {sep m : Bytes} {ms : List Bytes} {b : UInt8} (hm : m ∈ ms) (hb : b ∈ m) : b ∈ join sep ms := by
  unfold join
  induction ms with
  | nil => simp at hm
  | cons m' ms ih =>
    cases ms with
    | nil => simpa [List.mem_singleton.mp hm] using hb
    | cons m'' ms =>
      rw [List.intercalate_cons_cons]
      rcases List.mem_cons.mp hm with rfl | hm
      · simp [hb]
      · exact List.mem_append_right _ (ih hm)

theorem not_suffix_trimRight (s : Bytes) (c : UInt8) : ¬ [c] <:+ trimRight s c := by
  rintro ⟨a, ha⟩
  unfold trimRight at ha
  have hlast := List.rdropWhile_last_not (· == c) s (by rw [← ha]; simp)
  simp [← ha] at hlast

/-! ### Lines -/

/-- The first occurrence of a separator cuts a text in one way only. -/
theorem append_cons_cancel {x : UInt8} {a b r s : Bytes} (ha : x ∉ a) (hb : x ∉ b) (h : a ++ x :: r = b ++ x :: s) :
    a = b ∧ r = s := by
  induction a generalizing b with
  | nil =>
    cases b with
    | nil => exact ⟨rfl, (List.cons.inj h).2⟩
    | cons c b =>
      obtain ⟨rfl, -⟩ := List.cons.inj h
      exact absurd (List.mem_cons_self ..) hb
  | cons d a ih =>
    cases b with
    | nil =>
      obtain ⟨rfl, -⟩ := List.cons.inj h
      exact absurd (List.mem_cons_self ..) ha
    | cons c b =>
      obtain ⟨rfl, htail⟩ := List.cons.inj h
      obtain ⟨rfl, rfl⟩ := ih (fun hm => ha (List.mem_cons_of_mem _ hm))
        (fun hm => hb (List.mem_cons_of_mem _ hm)) htail
      exact ⟨rfl, rfl⟩

theorem lastIndex_eq_none_iff {t s : Bytes} : lastIndex t s = none ↔ ¬ t <:+: s := by
  induction s with
  | nil =>
    rw [lastIndex, List.infix_nil]
    split <;> simp_all
  | cons c s ih =>
    rw [lastIndex, List.infix_cons_iff, not_or]
    cases h : lastIndex t s with
    | some i => simp [h] at ih ⊢; exact fun _ => ih
    | none =>
      rw [h] at ih
      simp [ih.mp rfl]

/-- The text at the last place, and no later one. -/
theorem lastIndex_eq_some {t s : Bytes} (ht : t ≠ []) {i : Nat} (h : lastIndex t s = some i) :
    ∃ a b, s = a ++ (t ++ b) ∧ a.length = i ∧ ¬ t <:+: (t ++ b).tail := by
  induction s generalizing i with
  | nil =>
    rw [lastIndex, if_neg ht] at h
    cases h
  | cons c s ih =>
    rw [lastIndex] at h
    cases hs : lastIndex t s with
    | some j =>
      rw [hs] at h
      obtain ⟨a, b, rfl, ha, hlast⟩ := ih hs
      refine ⟨c :: a, b, rfl, ?_, hlast⟩
      rw [List.length_cons, ha]
      exact Option.some.inj h
    | none =>
      rw [hs] at h
      dsimp only at h
      split at h
      · rename_i hprefix
        obtain ⟨b, hb⟩ := List.isPrefixOf_iff_prefix.mp hprefix
        refine ⟨[], b, hb.symm, Option.some.inj h, ?_⟩
        rw [hb]
        exact lastIndex_eq_none_iff.mp hs
      · cases h

theorem unlines_cons (l : Bytes) (ls : List Bytes) : unlines (l :: ls) = l ++ 10 :: unlines ls := by
  simp [unlines]

theorem unlines_append (ls ms : List Bytes) : unlines (ls ++ ms) = unlines ls ++ unlines ms := List.flatMap_append

/-- A block of lines that all start with `p` ends where a line does not. -/
theorem unlines_append_inj {p : Bytes} {ls ms : List Bytes} {t t' : Bytes} (hls : ∀ l ∈ ls, 10 ∉ l ∧ p <+: l)
    (hms : ∀ m ∈ ms, 10 ∉ m ∧ p <+: m) (ht : ¬ p <+: t) (ht' : ¬ p <+: t') (h : unlines ls ++ t = unlines ms ++ t') :
    ls = ms := by
  induction ls generalizing ms with
  | nil =>
    cases ms with
    | nil => rfl
    | cons m ms =>
      rw [unlines_cons, List.append_assoc] at h
      exact absurd ((hms m (List.mem_cons_self ..)).2.trans ⟨_, h.symm⟩) ht
  | cons l ls ih =>
    have hl := hls l (List.mem_cons_self ..)
    rw [unlines_cons, List.append_assoc] at h
    cases ms with
    | nil => exact absurd (hl.2.trans ⟨_, h⟩) ht'
    | cons m ms =>
      rw [unlines_cons, List.append_assoc] at h
      obtain ⟨rfl, hrest⟩ := append_cons_cancel hl.1 (hms m (List.mem_cons_self ..)).1 h
      rw [ih (fun l' hl' => hls l' (List.mem_cons_of_mem _ hl'))
        (fun m' hm' => hms m' (List.mem_cons_of_mem _ hm')) hrest]

end MaasBoot
