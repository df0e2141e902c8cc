import MaasBoot.Node

/-!
# Spellings of PCI addresses

`formatIPXEPCI` scans an address with or without its domain and prints it in one form; anything that it cannot scan is
brought to lower case.  All ways to write an address give the same text, different addresses give different texts, and
applying the function twice is applying it once (`formatIPXEPCI_forms`).
-/

namespace MaasBoot

/-! ### Ways to write an address -/

/-- A number in hexadecimal digits of any letter case, with any padding. -/
def Writes (v : Nat) (t : Bytes) : Prop := t ≠ [] ∧ (∀ c ∈ t, isHexDigit c = true) ∧ parseNat 16 t = v

/-- An address with its domain, or without it if the domain is zero. -/
inductive PciText (a : PCIAddr) : Bytes → Prop
  | full {s b d f : Bytes} (hs : Writes a.seg s) (hb : Writes a.bus b) (hd : Writes a.dev d) (hf : Writes a.fn f) :
      PciText a (s ++ colon :: (b ++ colon :: (d ++ dot :: f)))
  | short {b d f : Bytes} (h0 : a.seg = 0) (hb : Writes a.bus b) (hd : Writes a.dev d) (hf : Writes a.fn f) :
      PciText a (b ++ colon :: (d ++ dot :: f))

/-- A written address with spaces around it. -/
def PciForm (a : PCIAddr) (s : Bytes) : Prop :=
  ∃ l t r, s = l ++ t ++ r ∧ PciText a t ∧ ∀ c ∈ l ++ r, c.toNat < 0x80 ∧ isAsciiSpace c = true

/-- Numbers of 32 bits. -/
structure PCIAddr.Bounded (a : PCIAddr) : Prop where
  seg : a.seg < 2 ^ 32
  bus : a.bus < 2 ^ 32
  dev : a.dev < 2 ^ 32
  fn : a.fn < 2 ^ 32

theorem Writes.count_colon {v : Nat} {t : Bytes} (h : Writes v t) : t.count colon = 0 :=
  List.count_eq_zero.mpr fun hmem => absurd (h.2.1 _ hmem) (by decide)

theorem Writes.sscanf_eq {v : Nat} {t : Bytes} (h : Writes v t) (hv : v < 2 ^ 32) {rest : Bytes}
    (hrest : ∀ c, rest.head? = some c → isHexDigit c = false) (ds : List Directive) :
    sscanf (.hex :: ds) (t ++ rest) = v :: sscanf ds rest := by
  rw [sscanf_hex h.1 h.2.1 hrest, h.2.2, if_pos hv]

theorem Writes.sscanf_last {v : Nat} {t : Bytes} (h : Writes v t) (hv : v < 2 ^ 32) : sscanf [.hex] t = [v] := by
  have hhead : ∀ c, ([] : Bytes).head? = some c → isHexDigit c = false := fun _ hc => by simp at hc
  have hlast := h.sscanf_eq hv hhead []
  rwa [List.append_nil] at hlast

theorem writes_formatNat (w v : Nat) : Writes v (formatNat 16 (w + 1) v) := by
  refine ⟨?_, fun c hc => ?_, parseNat_formatNat (by decide) (by decide) _ _⟩
  · intro hnil
    have hlen := congrArg List.length hnil
    simp only [formatNat, List.length_append, List.length_replicate, List.length_map, List.length_reverse,
      List.length_nil] at hlen
    omega
  · exact isHexDigit_of_isLowerHex (isLowerHex_of_mem_formatNat (by decide) (by decide) hc)

/-- The printed form is one of the ways to write the address. -/
theorem pciText_format (a : PCIAddr) : PciText a a.format := by
  have h := PciText.full (writes_formatNat 3 a.seg) (writes_formatNat 1 a.bus) (writes_formatNat 1 a.dev)
    (writes_formatNat 0 a.fn)
  simpa [PCIAddr.format] using h

/-! ### Scanning -/

/-- Every way to write an address is scanned as that address. -/
theorem scanPCI_of_pciText {a : PCIAddr} (ha : a.Bounded) {t : Bytes} (h : PciText a t) : scanPCI t = some a := by
  have hdot : dot ≠ colon := by decide
  cases h with
  | full hs hb hd hf =>
    rename_i s b d f
    have hcount : (s ++ colon :: (b ++ colon :: (d ++ dot :: f))).count colon = 2 := by
      simp [hs.count_colon, hb.count_colon, hd.count_colon, hf.count_colon, hdot]
    unfold scanPCI
    rw [if_pos hcount, hs.sscanf_eq ha.seg (head?_not_hex (by decide) _), sscanf_lit,
      hb.sscanf_eq ha.bus (head?_not_hex (by decide) _), sscanf_lit,
      hd.sscanf_eq ha.dev (head?_not_hex (by decide) _), sscanf_lit, hf.sscanf_last ha.fn]
  | short h0 hb hd hf =>
    rename_i b d f
    have hcount : (b ++ colon :: (d ++ dot :: f)).count colon = 1 := by
      simp [hb.count_colon, hd.count_colon, hf.count_colon, hdot]
    unfold scanPCI
    rw [hcount, if_neg (by decide), if_pos ⟨rfl, by simp⟩, hb.sscanf_eq ha.bus (head?_not_hex (by decide) _),
      sscanf_lit, hd.sscanf_eq ha.dev (head?_not_hex (by decide) _), sscanf_lit, hf.sscanf_last ha.fn]
    simp [← h0]

theorem bounded_of_scanPCI {t : Bytes} {a : PCIAddr} (h : scanPCI t = some a) : a.Bounded := by
  unfold scanPCI at h
  split_ifs at h
  · split at h
    · rename_i seg bus dev fn heq
      obtain rfl := Option.some.inj h
      have hlt : ∀ v ∈ [seg, bus, dev, fn], v < 2 ^ 32 := by
        rw [← heq]
        exact fun v hv => lt_of_mem_sscanf hv
      exact ⟨hlt _ (by simp), hlt _ (by simp), hlt _ (by simp), hlt _ (by simp)⟩
    · cases h
  · split at h
    · rename_i bus dev fn heq
      obtain rfl := Option.some.inj h
      have hlt : ∀ v ∈ [bus, dev, fn], v < 2 ^ 32 := by
        rw [← heq]
        exact fun v hv => lt_of_mem_sscanf hv
      exact ⟨Nat.two_pow_pos 32, hlt _ (by simp), hlt _ (by simp), hlt _ (by simp)⟩
    · cases h

theorem scanPCI_map_lower {s : Bytes} (hs : IsAscii s) : scanPCI (s.map lowerByte) = scanPCI s := by
  have hlit : ∀ c : UInt8, (lowerByte c = colon ↔ c = colon) ∧ (lowerByte c = dot ↔ c = dot) :=
    forall_byte (by decide +kernel)
  have hcount : (s.map lowerByte).count colon = s.count colon := by
    rw [List.count_eq_countP, List.countP_map, List.count_eq_countP]
    refine List.countP_congr fun c _ => ?_
    simpa using (hlit c).1
  have hcontains : (s.map lowerByte).contains dot = s.contains dot := by
    rw [Bool.eq_iff_iff, List.contains_iff_mem, List.contains_iff_mem, List.mem_map]
    constructor
    · rintro ⟨c, hc, heq⟩
      exact (hlit c).2.mp heq ▸ hc
    · exact fun h => ⟨dot, h, rfl⟩
  have hfull : ∀ c, .lit c ∈ [Directive.hex, .lit colon, .hex, .lit colon, .hex, .lit dot, .hex] →
      ∀ d, lowerByte d = c ↔ d = c := by
    intro c hc d
    simp only [List.mem_cons, Directive.lit.injEq, reduceCtorEq, List.not_mem_nil, or_false, false_or] at hc
    rcases hc with rfl | rfl | rfl
    · exact (hlit d).1
    · exact (hlit d).1
    · exact (hlit d).2
  have hshort : ∀ c, .lit c ∈ [Directive.hex, .lit colon, .hex, .lit dot, .hex] → ∀ d, lowerByte d = c ↔ d = c :=
    fun c hc => hfull c (List.mem_cons_of_mem _ (List.mem_cons_of_mem _ hc))
  unfold scanPCI
  rw [hcount, hcontains, sscanf_map_lower hfull hs, sscanf_map_lower hshort hs]

/-! ### One form for each address -/

/-- The characters of a written address. -/
theorem PciText.not_space {a : PCIAddr} {t : Bytes} (h : PciText a t) :
    ∀ c ∈ t, c.toNat < 0x80 ∧ isAsciiSpace c = false := by
  have hchar : ∀ c : UInt8, (isHexDigit c = true ∨ c = colon ∨ c = dot) → c.toNat < 0x80 ∧ isAsciiSpace c = false :=
    forall_byte (by decide +kernel)
  intro c hc
  refine hchar c ?_
  cases h with
  | full hs hb hd hf =>
    simp only [List.mem_append, List.mem_cons] at hc
    rcases hc with hc | rfl | hc | rfl | hc | rfl | hc
    · exact .inl (hs.2.1 c hc)
    · exact .inr (.inl rfl)
    · exact .inl (hb.2.1 c hc)
    · exact .inr (.inl rfl)
    · exact .inl (hd.2.1 c hc)
    · exact .inr (.inr rfl)
    · exact .inl (hf.2.1 c hc)
  | short h0 hb hd hf =>
    simp only [List.mem_append, List.mem_cons] at hc
    rcases hc with hc | rfl | hc | rfl | hc
    · exact .inl (hb.2.1 c hc)
    · exact .inr (.inl rfl)
    · exact .inl (hd.2.1 c hc)
    · exact .inr (.inr rfl)
    · exact .inl (hf.2.1 c hc)

theorem formatIPXEPCI_of_pciForm (u : Unicode) {a : PCIAddr} (ha : a.Bounded) {s : Bytes} (h : PciForm a s) :
    formatIPXEPCI u s = a.format := by
  obtain ⟨l, t, r, rfl, ht, hsp⟩ := h
  have htrim : trimSpace (l ++ t ++ r) = t :=
    trimSpace_between (fun c hc => hsp c (List.mem_append_left _ hc)) (fun c hc => hsp c (List.mem_append_right _ hc))
      ht.not_space
  unfold formatIPXEPCI
  rw [htrim, scanPCI_of_pciText ha ht]

/-- The form of an address determines it. -/
theorem format_inj {a a' : PCIAddr} (ha : a.Bounded) (ha' : a'.Bounded) (h : a.format = a'.format) : a = a' := by
  have hscan := scanPCI_of_pciText ha (pciText_format a)
  rw [h, scanPCI_of_pciText ha' (pciText_format a')] at hscan
  exact (Option.some.inj hscan).symm

/-- Bringing a text to its form twice is doing so once. -/
theorem formatIPXEPCI_formatIPXEPCI (u : Unicode) {s : Bytes} (hs : IsAscii s) :
    formatIPXEPCI u (formatIPXEPCI u s) = formatIPXEPCI u s := by
  cases hscan : scanPCI (trimSpace s) with
  | some a =>
    have hfmt : formatIPXEPCI u s = a.format := by rw [formatIPXEPCI, hscan]
    rw [hfmt]
    exact formatIPXEPCI_of_pciForm u (bounded_of_scanPCI hscan) ⟨[], a.format, [], by simp, pciText_format a, by simp⟩
  | none =>
    -- lower case can be scanned no better
    have hfmt : formatIPXEPCI u s = (trimSpace s).map lowerByte := by
      rw [formatIPXEPCI, hscan]
      exact toLower_ascii u hs.trimSpace
    have htrim : trimSpace ((trimSpace s).map lowerByte) = (trimSpace s).map lowerByte := by
      rw [trimSpace_map_lower hs.trimSpace, trimSpace_trimSpace hs]
    rw [hfmt, formatIPXEPCI, htrim, scanPCI_map_lower hs.trimSpace, hscan]
    dsimp only
    rw [toLower_ascii u hs.trimSpace.map_lower, map_lower_lower]

/-- All ways to write an address are brought to its printed form; two of them have the same form exactly if they
denote the same address; and on ASCII texts the function is idempotent. -/
theorem formatIPXEPCI_forms (u : Unicode) :
    (∀ (a : PCIAddr) (s : Bytes), a.Bounded → PciForm a s → formatIPXEPCI u s = a.format) ∧
    (∀ (a a' : PCIAddr) (s s' : Bytes), a.Bounded → a'.Bounded → PciForm a s → PciForm a' s' →
      (formatIPXEPCI u s = formatIPXEPCI u s' ↔ a = a')) ∧
    (∀ s, IsAscii s → formatIPXEPCI u (formatIPXEPCI u s) = formatIPXEPCI u s) := by
  refine ⟨fun a s ha hs => formatIPXEPCI_of_pciForm u ha hs, ?_, fun s hs => formatIPXEPCI_formatIPXEPCI u hs⟩
  intro a a' s s' ha ha' hs hs'
  rw [formatIPXEPCI_of_pciForm u ha hs, formatIPXEPCI_of_pciForm u ha' hs']
  constructor
  · exact format_inj ha ha'
  · exact congrArg PCIAddr.format

/-- An address without its domain, in capitals and between spaces. -/
theorem formatIPXEPCI_forms_short : formatIPXEPCI Unicode.asciiOnly (str " 3B:0.1 ") = str "0000:3b:00.1" := by
  have hform : PciForm ⟨0, 0x3B, 0, 1⟩ (str " 3B:0.1 ") := by
    refine ⟨[32], str "3B:0.1", [32], by decide, ?_, fun c hc => ?_⟩
    · have hdigits : ∀ (v : Nat) (t : Bytes), t.all isHexDigit = true ∧ t ≠ [] ∧ parseNat 16 t = v → Writes v t :=
        fun v t h => ⟨h.2.1, List.all_eq_true.mp h.1, h.2.2⟩
      exact PciText.short (a := ⟨0, 0x3B, 0, 1⟩) rfl (hdigits _ (str "3B") (by decide))
        (hdigits _ (str "0") (by decide)) (hdigits _ (str "1") (by decide))
    · obtain rfl : c = 32 := by simpa using hc
      decide
  have hformat : PCIAddr.format ⟨0, 0x3B, 0, 1⟩ = str "0000:3b:00.1" := by decide
  rw [← hformat]
  exact (formatIPXEPCI_forms Unicode.asciiOnly).1 _ _ ⟨by decide, by decide, by decide, by decide⟩ hform

end MaasBoot
