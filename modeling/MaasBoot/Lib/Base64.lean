import MaasBoot.Lib.Bytes

/-!
# Base64

`encoding/base64` with the standard alphabet and padding.  The decoder skips newlines and carriage returns and does
not look at the bits that padding leaves over.  The encoder of a stream encodes what it is given in chunks.
-/

namespace MaasBoot

/-- The character of six bits. -/
def base64Char (v : Nat) : UInt8 :=
  if v < 26 then UInt8.ofNat (65 + v) else if v < 52 then UInt8.ofNat (71 + v)
  else if v < 62 then UInt8.ofNat (v - 4) else if v = 62 then 43 else 47

/-- The six bits of a character. -/
def base64Val (c : UInt8) : Option Nat :=
  if 65 ≤ c ∧ c ≤ 90 then some (c.toNat - 65) else if 97 ≤ c ∧ c ≤ 122 then some (c.toNat - 71)
  else if 48 ≤ c ∧ c ≤ 57 then some (c.toNat + 4) else if c = 43 then some 62 else if c = 47 then some 63 else none

/-- The character `=`. -/
def base64Pad : UInt8 := 61

/-- `EncodeToString`. -/
def base64Encode : Bytes → Bytes
  | [] => []
  | [x] => [base64Char (x.toNat / 4), base64Char (x.toNat % 4 * 16), base64Pad, base64Pad]
  | [x, y] =>
    [base64Char (x.toNat / 4), base64Char (x.toNat % 4 * 16 + y.toNat / 16), base64Char (y.toNat % 16 * 4), base64Pad]
  | x :: y :: z :: s =>
    base64Char (x.toNat / 4) :: base64Char (x.toNat % 4 * 16 + y.toNat / 16) ::
      base64Char (y.toNat % 16 * 4 + z.toNat / 64) :: base64Char (z.toNat % 64) :: base64Encode s

/-- The three bytes of four groups of six bits. -/
def sextetBytes (a b c d : Nat) : Bytes :=
  [UInt8.ofNat (a * 4 + b / 16), UInt8.ofNat (b % 16 * 16 + c / 4), UInt8.ofNat (c % 4 * 64 + d)]

/-- The decoder, without newlines. -/
def base64DecodeClean : Bytes → Option Bytes
  | [] => some []
  | [_] => none
  | [_, _] => none
  | [_, _, _] => none
  | x :: y :: z :: w :: s => do
    let a ← base64Val x
    let b ← base64Val y
    match base64Val z, base64Val w with
    | some c, some d =>
      let rest ← base64DecodeClean s
      some (sextetBytes a b c d ++ rest)
    | some c, none => if w = base64Pad ∧ s = [] then some ((sextetBytes a b c 0).take 2) else none
    | none, _ => if z = base64Pad ∧ w = base64Pad ∧ s = [] then some ((sextetBytes a b 0 0).take 1) else none

/-- `DecodeString`. -/
def base64Decode (s : Bytes) : Option Bytes := base64DecodeClean (s.filter fun c => !(c == 10 || c == 13))

example : base64Encode (str "light wor") = str "bGlnaHQgd29y" := by decide

example : base64Decode (str "bGlnaHQ\ngdw==") = some (str "light w") := by decide

/-- The writes of a stream encoder that is given `p` at once and then closed.  The fuel is the length of `p`. -/
def encoderWritesAux : Nat → Bytes → List Bytes
  | 0, _ => []
  | fuel + 1, p =>
    if 3 ≤ p.length then
      let nn := if 768 ≤ p.length then 768 else p.length - p.length % 3
      base64Encode (p.take nn) :: encoderWritesAux fuel (p.drop nn)
    else if p = [] then []
    else [base64Encode p]

def encoderWrites (p : Bytes) : List Bytes := encoderWritesAux p.length p

/-! ### The decoder inverts the encoder -/

theorem base64Val_base64Char : ∀ v < 64, base64Val (base64Char v) = some v := by decide

theorem base64Val_pad : base64Val base64Pad = none := by decide

/-- The six-bit groups of three bytes give the bytes back. -/
theorem sextetBytes_groups (x y z : UInt8) :
    sextetBytes (x.toNat / 4) (x.toNat % 4 * 16 + y.toNat / 16) (y.toNat % 16 * 4 + z.toNat / 64) (z.toNat % 64) =
      [x, y, z] := by
  have hx := x.toNat_lt
  have hy := y.toNat_lt
  have hz := z.toNat_lt
  unfold sextetBytes
  have h1 : x.toNat / 4 * 4 + (x.toNat % 4 * 16 + y.toNat / 16) / 16 = x.toNat := by omega
  have h2 : (x.toNat % 4 * 16 + y.toNat / 16) % 16 * 16 + (y.toNat % 16 * 4 + z.toNat / 64) / 4 = y.toNat := by omega
  have h3 : (y.toNat % 16 * 4 + z.toNat / 64) % 4 * 64 + z.toNat % 64 = z.toNat := by omega
  rw [h1, h2, h3, UInt8.ofNat_toNat, UInt8.ofNat_toNat, UInt8.ofNat_toNat]

theorem base64DecodeClean_base64Encode (s : Bytes) : base64DecodeClean (base64Encode s) = some s := by
  induction s using base64Encode.induct with
  | case1 => rfl
  | case2 x =>
    have hx := x.toNat_lt
    have hb := sextetBytes_groups x 0 0
    simp only [UInt8.toNat_zero, Nat.zero_div, Nat.zero_mod, Nat.zero_mul, Nat.add_zero] at hb
    simp only [base64Encode, base64DecodeClean, base64Val_base64Char (x.toNat / 4) (by omega),
      base64Val_base64Char (x.toNat % 4 * 16) (by omega), base64Val_pad, Option.bind_eq_bind, Option.bind_some, hb]
    rfl
  | case3 x y =>
    have hx := x.toNat_lt
    have hy := y.toNat_lt
    have hb := sextetBytes_groups x y 0
    simp only [UInt8.toNat_zero, Nat.zero_div, Nat.zero_mod, Nat.add_zero] at hb
    simp only [base64Encode, base64DecodeClean, base64Val_base64Char (x.toNat / 4) (by omega),
      base64Val_base64Char (x.toNat % 4 * 16 + y.toNat / 16) (by omega),
      base64Val_base64Char (y.toNat % 16 * 4) (by omega), base64Val_pad, Option.bind_eq_bind, Option.bind_some, hb]
    rfl
  | case4 x y z s ih =>
    have hx := x.toNat_lt
    have hy := y.toNat_lt
    have hz := z.toNat_lt
    simp only [base64Encode, base64DecodeClean, base64Val_base64Char (x.toNat / 4) (by omega),
      base64Val_base64Char (x.toNat % 4 * 16 + y.toNat / 16) (by omega),
      base64Val_base64Char (y.toNat % 16 * 4 + z.toNat / 64) (by omega),
      base64Val_base64Char (z.toNat % 64) (by omega), Option.bind_eq_bind, Option.bind_some, ih, sextetBytes_groups]
    rfl

/-- The characters of an encoded text. -/
def isBase64Char (c : UInt8) : Bool := (base64Val c).isSome || c == base64Pad

theorem isBase64Char_of_mem {s : Bytes} {c : UInt8} (hc : c ∈ base64Encode s) : isBase64Char c = true := by
  have hchar : ∀ v < 64, isBase64Char (base64Char v) = true := by decide
  have hpad : isBase64Char base64Pad = true := by decide
  induction s using base64Encode.induct with
  | case1 => simp [base64Encode] at hc
  | case2 x =>
    have hx := x.toNat_lt
    simp only [base64Encode, List.mem_cons, List.not_mem_nil, or_false] at hc
    rcases hc with rfl | rfl | rfl | rfl
    · exact hchar _ (by omega)
    · exact hchar _ (by omega)
    · exact hpad
    · exact hpad
  | case3 x y =>
    have hx := x.toNat_lt
    have hy := y.toNat_lt
    simp only [base64Encode, List.mem_cons, List.not_mem_nil, or_false] at hc
    rcases hc with rfl | rfl | rfl | rfl
    · exact hchar _ (by omega)
    · exact hchar _ (by omega)
    · exact hchar _ (by omega)
    · exact hpad
  | case4 x y z s ih =>
    have hx := x.toNat_lt
    have hy := y.toNat_lt
    have hz := z.toNat_lt
    simp only [base64Encode, List.mem_cons] at hc
    rcases hc with rfl | rfl | rfl | rfl | hc
    · exact hchar _ (by omega)
    · exact hchar _ (by omega)
    · exact hchar _ (by omega)
    · exact hchar _ (by omega)
    · exact ih hc

/-- Base64 is printable ASCII. -/
theorem base64Char_range {c : UInt8} (h : isBase64Char c = true) : 33 ≤ c.toNat ∧ c.toNat < 0x80 := by
  have hall : ∀ c : UInt8, isBase64Char c = true → 33 ≤ c.toNat ∧ c.toNat < 0x80 := forall_byte (by decide +kernel)
  exact hall c h

theorem base64Decode_base64Encode (s : Bytes) : base64Decode (base64Encode s) = some s := by
  unfold base64Decode
  rw [List.filter_eq_self.mpr, base64DecodeClean_base64Encode]
  intro c hc
  have hrange := base64Char_range (isBase64Char_of_mem hc)
  have h10 : c ≠ 10 := fun h => by rw [h] at hrange; exact absurd hrange.1 (by decide)
  have h13 : c ≠ 13 := fun h => by rw [h] at hrange; exact absurd hrange.1 (by decide)
  simp [h10, h13]

/-! ### The stream encoder -/

theorem base64Encode_append {s : Bytes} (hs : 3 ∣ s.length) (t : Bytes) :
    base64Encode (s ++ t) = base64Encode s ++ base64Encode t := by
  induction s using base64Encode.induct with
  | case1 => rfl
  | case2 x => exact absurd hs (by simp)
  | case3 x y => exact absurd hs (by simp)
  | case4 x y z s ih =>
    have hs' : 3 ∣ s.length := by simpa using hs
    simp only [List.cons_append, base64Encode, ih hs']

/-- The writes make up the encoded text. -/
theorem flatten_encoderWrites (p : Bytes) : (encoderWrites p).flatten = base64Encode p := by
  have aux : ∀ fuel p, p.length ≤ fuel → (encoderWritesAux fuel p).flatten = base64Encode p := by
    intro fuel
    induction fuel with
    | zero =>
      intro p hp
      obtain rfl : p = [] := List.eq_nil_of_length_eq_zero (by omega)
      rfl
    | succ fuel ih =>
      intro p hp
      rw [encoderWritesAux]
      by_cases h3 : 3 ≤ p.length
      · rw [if_pos h3]
        generalize hnn : (if 768 ≤ p.length then 768 else p.length - p.length % 3) = nn
        have hbounds : 3 ∣ nn ∧ 3 ≤ nn ∧ nn ≤ p.length := by
          split at hnn <;> omega
        have htake : 3 ∣ (p.take nn).length := by
          rw [List.length_take, Nat.min_eq_left hbounds.2.2]
          exact hbounds.1
        dsimp only
        rw [List.flatten_cons, ih _ (by rw [List.length_drop]; omega), ← base64Encode_append htake,
          List.take_append_drop]
      · rw [if_neg h3]
        by_cases hnil : p = []
        · rw [if_pos hnil, hnil]
          rfl
        · rw [if_neg hnil]
          simp
  exact aux p.length p (Nat.le_refl _)

end MaasBoot
