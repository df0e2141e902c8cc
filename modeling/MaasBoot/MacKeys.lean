import MaasBoot.NodeStore

/-!
# Keys of nodes

A node is known by its MAC address.  `normalizeKey` brings every spelling of an address to one form, and any other
text to lower case; the forms of different addresses differ, no other text has the form of an address, and
normalising twice is normalising once.
-/

namespace MaasBoot

/-- A spelling of the 48-bit address `hw`: a notation in any letter case, with spaces around it. -/
def Spells (hw s : Bytes) : Prop :=
  ∃ l t r, s = l ++ t ++ r ∧ IsMacText hw t ∧ ∀ c ∈ l ++ r, c.toNat < 0x80 ∧ isAsciiSpace c = true

/-- The 48-bit address that a key denotes. -/
def macOf (s : Bytes) : Option Bytes := (parseMAC (trimSpace s)).filter (·.length = 6)

theorem IsMacText.spells {hw s : Bytes} (h : IsMacText hw s) : Spells hw s := ⟨[], s, [], by simp, h, by simp⟩

theorem IsMacText.trimSpace_eq {hw t l r : Bytes} (h : IsMacText hw t)
    (hs : ∀ c ∈ l ++ r, c.toNat < 0x80 ∧ isAsciiSpace c = true) : trimSpace (l ++ t ++ r) = t :=
  trimSpace_between (fun c hc => hs c (List.mem_append_left _ hc)) (fun c hc => hs c (List.mem_append_right _ hc))
    fun _ hc => (isMacByte_spec _).2.2 (h.isMacByte hc)

theorem Spells.macOf_eq {hw s : Bytes} (hlen : hw.length = 6) (h : Spells hw s) : macOf s = some hw := by
  obtain ⟨l, t, r, rfl, ht, hs⟩ := h
  unfold macOf
  rw [ht.trimSpace_eq hs, parseMAC_of_isMacText hlen ht, Option.filter_some_pos (by simpa using hlen)]

/-! ### Normal forms -/

theorem toLower_macString (u : Unicode) (hw : Bytes) : toLower u (macString hw) = macString hw := by
  have hascii : IsAscii (macString hw) :=
    fun c hc => ((isMacByte_spec c).2.2 (isMacByte_of_mem_notations (macString_mem_notations hw) hc).1).1
  rw [toLower_ascii u hascii, map_lower_macString]

theorem macString_ne_nil {hw : Bytes} (hlen : hw.length = 6) : macString hw ≠ [] := fun h => by
  have := parseMAC_macString hlen
  rw [h] at this
  cases this

/-- The two cases of `normalizeKey`. -/
theorem normalizeKey_eq (u : Unicode) (s : Bytes) :
    normalizeKey u s = match macOf s with
      | some hw => macString hw
      | none => toLower u (trimSpace s) := by
  have hmac : normalizeMAC u s = match macOf s with
      | some hw => macString hw
      | none => [] := by
    unfold normalizeMAC macOf
    cases parseMAC (trimSpace s) with
    | none => rfl
    | some hw =>
      by_cases hlen : hw.length = 6
      · rw [Option.filter_some_pos (by simpa using hlen)]
        simp [hlen, toLower_macString]
      · rw [Option.filter_some_neg (by simpa using hlen)]
        simp [hlen]
  unfold normalizeKey
  rw [hmac]
  cases h : macOf s with
  | none => simp
  | some hw =>
    have hlen : hw.length = 6 := by simpa using (Option.filter_eq_some_iff.mp h).2
    simp [macString_ne_nil hlen]

theorem normalizeKey_of_macOf (u : Unicode) {s hw : Bytes} (h : macOf s = some hw) :
    normalizeKey u s = macString hw := by
  rw [normalizeKey_eq, h]

theorem normalizeMAC_of_macOf (u : Unicode) {s hw : Bytes} (h : macOf s = some hw) :
    normalizeMAC u s = macString hw := by
  obtain ⟨hparse, hlen⟩ := Option.filter_eq_some_iff.mp h
  unfold normalizeMAC
  rw [hparse]
  simp only [decide_eq_true_eq] at hlen
  simp [hlen, toLower_macString]

theorem length_of_macOf {s hw : Bytes} (h : macOf s = some hw) : hw.length = 6 := by
  simpa using (Option.filter_eq_some_iff.mp h).2

theorem macString_inj {hw hw' : Bytes} (hlen : hw.length = 6) (hlen' : hw'.length = 6)
    (h : macString hw = macString hw') :
    hw = hw' := by
  have h₁ := parseMAC_macString hlen
  rw [h, parseMAC_macString hlen'] at h₁
  exact (Option.some.inj h₁).symm

/-- Lower case denotes the same address. -/
theorem macOf_toLower (u : Unicode) {s : Bytes} (hs : IsAscii s) : macOf (toLower u (trimSpace s)) = macOf s := by
  unfold macOf
  rw [toLower_ascii u hs.trimSpace, trimSpace_map_lower hs.trimSpace, trimSpace_trimSpace hs, parseMAC_map_lower]

/-- Normalising twice is normalising once. -/
theorem normalizeKey_normalizeKey (u : Unicode) {s : Bytes} (hs : IsAscii s) :
    normalizeKey u (normalizeKey u s) = normalizeKey u s := by
  cases h : macOf s with
  | some hw =>
    rw [normalizeKey_of_macOf u h]
    exact normalizeKey_of_macOf u ((isMacText_macString hw).spells.macOf_eq (length_of_macOf h))
  | none =>
    have hkey : normalizeKey u s = toLower u (trimSpace s) := by rw [normalizeKey_eq, h]
    have hnone : macOf (toLower u (trimSpace s)) = none := (macOf_toLower u hs).trans h
    rw [hkey, normalizeKey_eq, hnone]
    dsimp only
    rw [toLower_ascii u hs.trimSpace, trimSpace_map_lower hs.trimSpace, trimSpace_trimSpace hs,
      toLower_ascii u hs.trimSpace.map_lower, map_lower_lower]

/-- No rune outside ASCII has a hexadecimal digit as its lower case. -/
def Unicode.HexFree (u : Unicode) : Prop := ∀ r, 0x80 ≤ r → ¬ (97 ≤ u.toLower r ∧ u.toLower r ≤ 102)

/-- A key has the form of an address exactly if it denotes it. -/
theorem normalizeKey_eq_macString_iff {u : Unicode} (hu : u.HexFree) {hw : Bytes} (hlen : hw.length = 6) (s : Bytes) :
    normalizeKey u s = macString hw ↔ macOf s = some hw := by
  constructor
  · intro h
    cases hs : macOf s with
    | some hw' =>
      rw [normalizeKey_of_macOf u hs] at h
      rw [macString_inj (length_of_macOf hs) hlen h]
    | none =>
      rw [normalizeKey_eq, hs] at h
      dsimp only at h
      -- then the text is ASCII, and reads as the address in either letter case
      have hascii : IsAscii (trimSpace s) := by
        refine ascii_of_toLower (u := u) fun b hb => ?_
        rw [h] at hb
        obtain ⟨hmac, hlower⟩ := isMacByte_of_mem_notations (macString_mem_notations hw) hb
        refine ⟨((isMacByte_spec b).2.2 hmac).1, fun r hr hrb => ?_⟩
        have hdigit : ∀ b : UInt8, isMacByte b = true → 97 ≤ b.toNat → b.toNat ≤ 102 :=
          forall_byte (by decide +kernel)
        have hletter := u.lower_of_lt r hr (by rw [hrb]; exact ((isMacByte_spec b).2.2 hmac).1)
        rw [hrb] at hletter
        exact hu r hr (by rw [hrb]; exact ⟨hletter.1, hdigit b hmac hletter.1⟩)
      rw [toLower_ascii u hascii] at h
      have hparse := parseMAC_map_lower (trimSpace s)
      rw [h, parseMAC_macString hlen] at hparse
      rw [macOf, ← hparse, Option.filter_some_pos (by simpa using hlen)] at hs
      cases hs
  · exact normalizeKey_of_macOf u

end MaasBoot
