import MaasBoot.Lib.Ascii
import MaasBoot.Lib.Scan

/-!
# MAC addresses

`net.ParseMAC` and the printing of hardware addresses.  Every notation of a 48-bit address, in any letter case, is
read as that address (`parseMAC_of_isMacText`).
-/

namespace MaasBoot

/-- Two hexadecimal digits; a third byte has to be `e`. -/
def xtoi2 (s : Bytes) (e : UInt8) : Option UInt8 :=
  if 2 < s.length ∧ byteAt s 2 ≠ e then none
  else
    match s.take 2 with
    | [a, b] => if isHexDigit a && isHexDigit b then some (UInt8.ofNat (digitVal a * 16 + digitVal b)) else none
    | _ => none

/-- The lengths of hardware addresses. -/
def isHardwareLength (n : Nat) : Bool := n == 6 || n == 8 || n == 20

def parseMAC (s : Bytes) : Option Bytes :=
  if s.length < 12 then none
  else if byteAt s 2 = 58 ∨ byteAt s 2 = 45 then
    if (s.length + 1) % 3 = 0 ∧ isHardwareLength ((s.length + 1) / 3) then
      (List.range ((s.length + 1) / 3)).mapM fun i => xtoi2 (s.drop (3 * i)) (byteAt s 2)
    else none
  else if byteAt s 4 = 46 then
    if (s.length + 1) % 5 = 0 ∧ isHardwareLength (2 * (s.length + 1) / 5) then
      ((List.range ((s.length + 1) / 5)).mapM fun i => do
        let a ← xtoi2 ((s.drop (5 * i)).take 2) 0
        let b ← xtoi2 (s.drop (5 * i + 2)) (byteAt s 4)
        some [a, b]).map List.flatten
    else none
  else if s.length % 2 = 0 ∧ isHardwareLength (s.length / 2) then
    (List.range (s.length / 2)).mapM fun i => xtoi2 ((s.drop (2 * i)).take 2) 0
  else none

/-- `HardwareAddr.String`. -/
def macString (hw : Bytes) : Bytes := join [58] (hw.map fun b => hexEncode [b])

example : (parseMAC (str "02-5E-1C-9A-47-d3")).map macString = some (str "02:5e:1c:9a:47:d3") := by decide

example : (parseMAC (str "025e.1c9a.47d3")).map macString = some (str "02:5e:1c:9a:47:d3") := by decide

example : (parseMAC (str "025E1C9A47D3")).map macString = some (str "02:5e:1c:9a:47:d3") := by decide

/-! ### Notations -/

/-- The notations of a 48-bit address in lower case: with colons, with hyphens, in three groups with dots, and bare.
-/
def macNotations (hw : Bytes) : List Bytes :=
  [macString hw, join [45] (hw.map fun b => hexEncode [b]),
    join [46] ((List.range 3).map fun i => hexEncode ((hw.drop (2 * i)).take 2)), hexEncode hw]

/-- A notation of an address, in any letter case. -/
def IsMacText (hw s : Bytes) : Prop := s.map lowerByte ∈ macNotations hw

instance (hw s : Bytes) : Decidable (IsMacText hw s) := inferInstanceAs (Decidable (_ ∈ _))

private theorem lowerByte_mac (c : UInt8) :
    isHexDigit (lowerByte c) = isHexDigit c ∧ digitVal (lowerByte c) = digitVal c ∧ (lowerByte c = 58 ↔ c = 58) ∧
      (lowerByte c = 45 ↔ c = 45) ∧ (lowerByte c = 46 ↔ c = 46) ∧ (lowerByte c = 0 ↔ c = 0) := by
  have hall : ∀ c : UInt8, isHexDigit (lowerByte c) = isHexDigit c ∧ digitVal (lowerByte c) = digitVal c ∧
      (lowerByte c = 58 ↔ c = 58) ∧ (lowerByte c = 45 ↔ c = 45) ∧ (lowerByte c = 46 ↔ c = 46) ∧
      (lowerByte c = 0 ↔ c = 0) := forall_byte (by decide +kernel)
  exact hall c

private theorem byteAt_map_lower (s : Bytes) (i : Nat) : byteAt (s.map lowerByte) i = lowerByte (byteAt s i) := by
  unfold byteAt
  rw [List.getD_eq_getElem?_getD, List.getD_eq_getElem?_getD, List.getElem?_map]
  cases s[i]? with
  | none => rfl
  | some c => rfl

private theorem xtoi2_map_lower (s : Bytes) {e : UInt8} (he : ∀ c, lowerByte c = e ↔ c = e) :
    xtoi2 (s.map lowerByte) e = xtoi2 s e := by
  unfold xtoi2
  simp only [byteAt_map_lower, ne_eq, he, List.length_map, ← List.map_take]
  refine if_congr Iff.rfl rfl ?_
  generalize s.take 2 = t
  match t with
  | [] => rfl
  | [_] => rfl
  | [a, b] => simp only [List.map_cons, List.map_nil, (lowerByte_mac a).1, (lowerByte_mac a).2.1, (lowerByte_mac b).1,
      (lowerByte_mac b).2.1]
  | _ :: _ :: _ :: _ => rfl

theorem parseMAC_map_lower (s : Bytes) : parseMAC (s.map lowerByte) = parseMAC s := by
  have h58 : ∀ c, lowerByte c = 58 ↔ c = 58 := fun c => (lowerByte_mac c).2.2.1
  have h45 : ∀ c, lowerByte c = 45 ↔ c = 45 := fun c => (lowerByte_mac c).2.2.2.1
  have h46 : ∀ c, lowerByte c = 46 ↔ c = 46 := fun c => (lowerByte_mac c).2.2.2.2.1
  have h0 : ∀ c, lowerByte c = 0 ↔ c = 0 := fun c => (lowerByte_mac c).2.2.2.2.2
  unfold parseMAC
  simp only [List.length_map, byteAt_map_lower, h58, h45, h46, ← List.map_drop, ← List.map_take]
  refine if_congr Iff.rfl rfl ?_
  by_cases hcolon : byteAt s 2 = 58
  · simp only [hcolon, true_or, if_true, show lowerByte 58 = 58 from rfl, xtoi2_map_lower _ h58]
  · by_cases hhyphen : byteAt s 2 = 45
    · simp only [hhyphen, or_true, if_true, show lowerByte 45 = 45 from rfl, xtoi2_map_lower _ h45]
    · by_cases hdot : byteAt s 4 = 46
      · simp only [hcolon, hhyphen, hdot, or_self, if_false, if_true, show lowerByte 46 = 46 from rfl,
          xtoi2_map_lower _ h46, xtoi2_map_lower _ h0]
      · simp only [hcolon, hhyphen, hdot, or_self, if_false, xtoi2_map_lower _ h0]

/-- The printed byte is read back, at the end of a text or before a separator. -/
private theorem xtoi2_hexEncode (b e : UInt8) (rest : Bytes) (h : ∀ c, rest.head? = some c → c = e) :
    xtoi2 (digitChar (b.toNat / 16) :: digitChar (b.toNat % 16) :: rest) e = some b := by
  have hall : ∀ b : UInt8, isHexDigit (digitChar (b.toNat / 16)) = true ∧
    isHexDigit (digitChar (b.toNat % 16)) = true ∧
      UInt8.ofNat (digitVal (digitChar (b.toNat / 16)) * 16 + digitVal (digitChar (b.toNat % 16))) = b :=
    forall_byte (by decide +kernel)
  obtain ⟨h1, h2, h3⟩ := hall b
  have hstop : ¬ (2 < (digitChar (b.toNat / 16) :: digitChar (b.toNat % 16) :: rest).length ∧
      byteAt (digitChar (b.toNat / 16) :: digitChar (b.toNat % 16) :: rest) 2 ≠ e) := by
    rintro ⟨hlen, hne⟩
    cases rest with
    | nil => simp at hlen
    | cons c rest => exact hne (h c rfl)
  unfold xtoi2
  rw [if_neg hstop]
  simp [h1, h2, h3]

/-- Every notation of an address is read as that address. -/
theorem parseMAC_of_isMacText {hw s : Bytes} (hlen : hw.length = 6) (h : IsMacText hw s) : parseMAC s = some hw := by
  rw [← parseMAC_map_lower]
  unfold IsMacText at h
  generalize s.map lowerByte = t at h ⊢
  obtain ⟨a, b, c, d, e, f, rfl⟩ : ∃ a b c d e f, hw = [a, b, c, d, e, f] := by
    match hw, hlen with
    | [a, b, c, d, e, f], _ => exact ⟨a, b, c, d, e, f, rfl⟩
  have hend : ∀ b e : UInt8, xtoi2 [digitChar (b.toNat / 16), digitChar (b.toNat % 16)] e = some b :=
    fun b e => xtoi2_hexEncode b e [] (by simp)
  have hsep : ∀ (b e : UInt8) (rest : Bytes),
      xtoi2 (digitChar (b.toNat / 16) :: digitChar (b.toNat % 16) :: e :: rest) e = some b :=
    fun b e rest => xtoi2_hexEncode b e (e :: rest) (by simp [eq_comm])
  have hdigit : ∀ b : UInt8, digitChar (b.toNat / 16) ≠ 58 ∧ digitChar (b.toNat / 16) ≠ 45 ∧
      digitChar (b.toNat / 16) ≠ 46 := forall_byte (by decide +kernel)
  simp only [macNotations, List.mem_cons, List.not_mem_nil, or_false] at h
  rcases h with rfl | rfl | rfl | rfl
  · simp [macString, join, hexEncode, parseMAC, byteAt, isHardwareLength, List.range_succ, hsep, hend]
  · simp [join, hexEncode, parseMAC, byteAt, isHardwareLength, List.range_succ, hsep, hend]
  · simp [join, hexEncode, parseMAC, byteAt, isHardwareLength, List.range_succ, hsep, hend, hdigit b]
  · simp [hexEncode, parseMAC, byteAt, isHardwareLength, List.range_succ, hend, hdigit b, hdigit c]

/-! ### Their characters -/

/-- The class `[0-9A-Fa-f:.-]`. -/
def isMacByte (c : UInt8) : Bool := isHexDigit c || c == 58 || c == 46 || c == 45

theorem isMacByte_spec (c : UInt8) :
    (isLowerHex c = true → isMacByte c = true ∧ lowerByte c = c) ∧
      (isMacByte (lowerByte c) = true → isMacByte c = true) ∧
      (isMacByte c = true → c.toNat < 0x80 ∧ isAsciiSpace c = false) := by
  have hall : ∀ c : UInt8, (isLowerHex c = true → isMacByte c = true ∧ lowerByte c = c) ∧
      (isMacByte (lowerByte c) = true → isMacByte c = true) ∧
      (isMacByte c = true → c.toNat < 0x80 ∧ isAsciiSpace c = false) := forall_byte (by decide +kernel)
  exact hall c

theorem isMacByte_of_mem_notations {hw t : Bytes} (ht : t ∈ macNotations hw) {c : UInt8} (hc : c ∈ t) :
    isMacByte c = true ∧ lowerByte c = c := by
  have hhex : ∀ b : Bytes, c ∈ hexEncode b → isMacByte c = true ∧ lowerByte c = c :=
    fun b hb => (isMacByte_spec c).1 (isLowerHex_of_mem_hexEncode hb)
  have hsep : ∀ e ∈ ([58, 45, 46] : Bytes), isMacByte e = true ∧ lowerByte e = e := by
    simp only [List.forall_mem_cons]
    exact ⟨by decide, by decide, by decide, List.forall_mem_nil _⟩
  simp only [macNotations, macString, List.mem_cons, List.not_mem_nil, or_false] at ht
  have hjoin : ∀ e ∈ ([58, 45, 46] : Bytes), ∀ bs : List Bytes, c ∈ join [e] (bs.map hexEncode) →
      isMacByte c = true ∧ lowerByte c = c := by
    intro e he bs hc
    rcases mem_or_mem_of_mem_join hc with h | ⟨m, hm, h⟩
    · rw [List.mem_singleton.mp h]
      exact hsep e he
    · obtain ⟨b, -, rfl⟩ := List.mem_map.mp hm
      exact hhex b h
  rcases ht with rfl | rfl | rfl | rfl
  · exact hjoin 58 (by simp) (hw.map fun b => [b]) (by rwa [List.map_map])
  · exact hjoin 45 (by simp) (hw.map fun b => [b]) (by rwa [List.map_map])
  · exact hjoin 46 (by simp) ((List.range 3).map fun i => (hw.drop (2 * i)).take 2) (by rwa [List.map_map])
  · exact hhex hw hc

theorem macString_mem_notations (hw : Bytes) : macString hw ∈ macNotations hw := List.mem_cons_self ..

theorem map_lower_macString (hw : Bytes) : (macString hw).map lowerByte = macString hw := by
  refine (List.map_congr_left fun c hc => ?_).trans (List.map_id _)
  exact (isMacByte_of_mem_notations (macString_mem_notations hw) hc).2

theorem isMacText_macString (hw : Bytes) : IsMacText hw (macString hw) := by
  unfold IsMacText
  rw [map_lower_macString]
  exact macString_mem_notations hw

theorem IsMacText.isMacByte {hw s : Bytes} (h : IsMacText hw s) {c : UInt8} (hc : c ∈ s) : isMacByte c = true :=
  (isMacByte_spec c).2.1 (isMacByte_of_mem_notations h (List.mem_map_of_mem hc)).1

theorem parseMAC_macString {hw : Bytes} (hlen : hw.length = 6) : parseMAC (macString hw) = some hw :=
  parseMAC_of_isMacText hlen (isMacText_macString hw)

end MaasBoot
