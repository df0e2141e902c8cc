import MaasBoot.HookArgs

/-!
# The device that the hook looks up for a bond member

iPXE matches a bond member that is a PCI address in the spelling `formatIPXEPCI` gives it.  The hook takes the
member as it was written, cut at the first blank or comma, and only adds the domain `0000` if there is none.  Both
agree exactly on the members that are spelled the way the kernel spells them.
-/

namespace MaasBoot

open Hook

/-- The spelling of sysfs, with or without the domain. -/
inductive CanonicalPCI : Bytes → Prop
  | short {b c d : Bytes} (hb : HexField 2 b) (hc : HexField 2 c) (hd : HexField 1 d) :
      CanonicalPCI (b ++ colon :: c ++ dot :: d)
  | full {a b c d : Bytes} (ha : HexField 4 a) (hb : HexField 2 b) (hc : HexField 2 c) (hd : HexField 1 d) :
      CanonicalPCI (a ++ colon :: b ++ colon :: c ++ dot :: d)

/-- A byte that ends a member on its way to the hook. -/
def isSeparator (b : UInt8) : Bool := isBlank b || b == comma

/-- What is left of the text of a member. -/
def spelling (m : Bytes) : Bytes := m.takeWhile fun b => !isSeparator b

/-! ### Characters of a spelling -/

/-- The characters of a spelling in normal form. -/
def isPCIChar (c : UInt8) : Bool := isLowerHex c || c == colon || c == dot

theorem not_spaceByte_of_isPCIChar {c : UInt8} (h : isPCIChar c = true) : ¬ SpaceByte c := by
  have hascii : ∀ c : UInt8, isPCIChar c = true → c.toNat < 0x80 ∧ isSpace c.toNat = false :=
    forall_byte (by decide +kernel)
  have hc := hascii c h
  rintro (h80 | hsp)
  · omega
  · rw [hc.2] at hsp
    cases hsp

theorem isPCIChar_of_isLowerHex {c : UInt8} (h : isLowerHex c = true) : isPCIChar c = true := by
  simp only [isPCIChar, h, Bool.true_or]

theorem CanonicalPCI.isPCIChar {s : Bytes} (h : CanonicalPCI s) : ∀ c ∈ s, isPCIChar c = true := by
  have hcolon : MaasBoot.isPCIChar colon = true := by decide
  have hdot : MaasBoot.isPCIChar dot = true := by decide
  have hhex : ∀ {w t}, HexField w t → ∀ c ∈ t, MaasBoot.isPCIChar c = true :=
    fun h c hc => isPCIChar_of_isLowerHex (h.1 c hc)
  intro x hx
  cases h with
  | short hb hc hd =>
    simp only [List.mem_append, List.mem_cons] at hx
    rcases hx with (hx | rfl | hx) | rfl | hx
    · exact hhex hb x hx
    · exact hcolon
    · exact hhex hc x hx
    · exact hdot
    · exact hhex hd x hx
  | full ha hb hc hd =>
    simp only [List.mem_append, List.mem_cons] at hx
    rcases hx with ((hx | rfl | hx) | rfl | hx) | rfl | hx
    · exact hhex ha x hx
    · exact hcolon
    · exact hhex hb x hx
    · exact hcolon
    · exact hhex hc x hx
    · exact hdot
    · exact hhex hd x hx

theorem CanonicalPCI.ne_nil {s : Bytes} (h : CanonicalPCI s) : s ≠ [] := by
  cases h <;> simp

/-- Trimming does not reach into a spelling at the start of a text. -/
theorem exists_trimSpace_append {s t : Bytes} (hs : ∀ c ∈ s, MaasBoot.isPCIChar c = true) (hne : s ≠ []) :
    ∃ t' c, trimSpace (s ++ t) = s ++ t' ∧ t = t' ++ c := by
  obtain ⟨a, c, heq, ha, hc⟩ := exists_trimSpace (s ++ t)
  have hnil : a = [] := by
    cases a with
    | nil => rfl
    | cons b a =>
      cases s with
      | nil => exact absurd rfl hne
      | cons b' s =>
        obtain rfl : b' = b := by simpa using congrArg List.head? heq
        exact absurd (ha b' (List.mem_cons_self ..)) (not_spaceByte_of_isPCIChar (hs b' (List.mem_cons_self ..)))
  rw [hnil, List.nil_append] at heq
  rcases List.append_eq_append_iff.mp heq with ⟨t', h1, h2⟩ | ⟨d, h1, h2⟩
  · exact ⟨t', c, h1, h2⟩
  · cases d with
    | nil => exact ⟨[], c, by simpa using h1.symm, by simpa using h2.symm⟩
    | cons b d =>
      have hb : b ∈ s := by rw [h1]; simp
      exact absurd (hc b (by rw [h2]; simp)) (not_spaceByte_of_isPCIChar (hs b hb))

/-! ### Scanning a spelling -/

private theorem sscanf_hexField {ds : List Directive} {w : Nat} {t rest : Bytes} (ht : HexField (w + 1) t)
    (hrest : ∀ c, rest.head? = some c → isHexDigit c = false) :
    sscanf (.hex :: ds) (t ++ rest) = if parseNat 16 t < 2 ^ 32 then parseNat 16 t :: sscanf ds rest else [] := by
  have hne : t ≠ [] := by
    rintro rfl
    rcases ht.2 with h | ⟨h, -⟩ <;> simp at h
  exact sscanf_hex hne (fun c hc => isHexDigit_of_isLowerHex (ht.1 c hc)) hrest

private theorem HexField.count_colon {w : Nat} {t : Bytes} (h : HexField w t) : t.count colon = 0 :=
  List.count_eq_zero.mpr fun hmem => absurd (h.1 _ hmem) (by decide)

section Scan

variable {b c d t : Bytes} (hb : HexField 2 b) (hc : HexField 2 c)
include hb hc

/-- A short address is no full one. -/
private theorem length_sscanf_full_short :
    (sscanf [.hex, .lit colon, .hex, .lit colon, .hex, .lit dot, .hex] (b ++ colon :: (c ++ dot :: t))).length ≤
      2 := by
  rw [sscanf_hexField hb (head?_not_hex (by decide) _), sscanf_lit, sscanf_hexField hc (head?_not_hex (by decide) _),
    sscanf_lit_ne (by decide)]
  split_ifs <;> simp

variable (hd : HexField 1 d) (ht : ∀ x, t.head? = some x → isHexDigit x = false)
include hd ht

/-- The numbers of a short address. -/
private theorem sscanf_short {v : List Nat}
    (h : sscanf [.hex, .lit colon, .hex, .lit dot, .hex] (b ++ colon :: (c ++ dot :: (d ++ t))) = v)
    (hlen : v.length = 3) : v = [parseNat 16 b, parseNat 16 c, parseNat 16 d] := by
  rw [sscanf_hexField hb (head?_not_hex (by decide) _), sscanf_lit, sscanf_hexField hc (head?_not_hex (by decide) _),
    sscanf_lit, sscanf_hexField hd ht] at h
  subst h
  split_ifs at hlen ⊢ <;> simp [sscanf] at hlen ⊢

/-- A short address is printed with the domain `0000`. -/
theorem format_of_scanPCI_short {a : PCIAddr} (h : scanPCI (b ++ colon :: c ++ dot :: d ++ t) = some a) :
    a.format = str "0000:" ++ (b ++ colon :: c ++ dot :: d) := by
  have hcount : (b ++ colon :: c ++ dot :: d ++ t).count colon = 1 + t.count colon := by
    have hdot : dot ≠ colon := by decide
    simp [hb.count_colon, hc.count_colon, hd.count_colon, hdot]
    omega
  unfold scanPCI at h
  rw [hcount] at h
  simp only [List.append_assoc, List.cons_append] at h
  have hlen := length_sscanf_full_short (t := d ++ t) hb hc
  split_ifs at h with h2 h1
  · split at h
    · rename_i heq
      rw [heq] at hlen
      simp at hlen
    · cases h
  · split at h
    · rename_i heq
      have := sscanf_short hb hc hd ht heq rfl
      simp only [List.cons.injEq, and_true] at this
      obtain ⟨rfl, rfl, rfl⟩ := this
      obtain rfl := Option.some.inj h
      have h0 : formatNat 16 4 0 ++ [colon] = str "0000:" := by decide
      simp only [PCIAddr.format, hb.formatNat_parseNat, hc.formatNat_parseNat, hd.formatNat_parseNat, h0]
      simp
    · cases h

/-- A full address is printed as it is. -/
theorem format_of_scanPCI_full {e : Bytes} (he : HexField 4 e) {a : PCIAddr}
    (h : scanPCI (e ++ colon :: b ++ colon :: c ++ dot :: d ++ t) = some a) :
    a.format = e ++ colon :: b ++ colon :: c ++ dot :: d := by
  have hcount : (e ++ colon :: b ++ colon :: c ++ dot :: d ++ t).count colon = 2 + t.count colon := by
    have hdot : dot ≠ colon := by decide
    simp [he.count_colon, hb.count_colon, hc.count_colon, hd.count_colon, hdot]
    omega
  unfold scanPCI at h
  rw [hcount] at h
  simp only [List.append_assoc, List.cons_append] at h
  split_ifs at h with h2 h1
  · split at h
    · rename_i heq
      rw [sscanf_hexField he (head?_not_hex (by decide) _), sscanf_lit] at heq
      split_ifs at heq
      rw [List.cons.injEq] at heq
      obtain ⟨rfl, heq⟩ := heq
      have := sscanf_short hb hc hd ht heq rfl
      simp only [List.cons.injEq, and_true] at this
      obtain ⟨rfl, rfl, rfl⟩ := this
      obtain rfl := Option.some.inj h
      simp only [PCIAddr.format, he.formatNat_parseNat, hb.formatNat_parseNat, hc.formatNat_parseNat,
        hd.formatNat_parseNat]
      simp
    · cases h
  · omega

end Scan

/-! ### The hook's lookup of a spelling -/

private theorem not_mem_of_hexField {w : Nat} {t : Bytes} (h : HexField w t) : colon ∉ t :=
  List.count_eq_zero.mp h.count_colon

private theorem dropWhile_ne_colon {t : Bytes} (ht : colon ∉ t) (rest : Bytes) :
    (t ++ colon :: rest).dropWhile (· != 58) = colon :: rest := by
  refine (takeWhile_append_stop (p := (· != 58)) ?_ ?_).2
  · intro c hc
    rw [bne_iff_ne]
    rintro rfl
    exact ht hc
  · intro c hc
    obtain rfl : colon = c := by simpa using hc
    decide

theorem hasDomain_short {b c : Bytes} (hb : colon ∉ b) (hc : colon ∉ c) : hasDomain (b ++ colon :: c) = false := by
  have hdrop : c.dropWhile (· != 58) = [] := by
    rw [List.dropWhile_eq_nil_iff]
    intro x hx
    rw [bne_iff_ne]
    rintro rfl
    exact hc hx
  unfold hasDomain
  rw [dropWhile_ne_colon hb]
  simp only [hdrop]

theorem hasDomain_full {a b c : Bytes} (ha : colon ∉ a) (hb : colon ∉ b) (hdot : dot ∈ c) :
    hasDomain (a ++ colon :: (b ++ colon :: c)) = true := by
  unfold hasDomain
  rw [dropWhile_ne_colon ha]
  dsimp only
  rw [dropWhile_ne_colon hb]
  exact List.contains_iff_mem.mpr hdot

/-- A text is its spelling, with a separator behind it or nothing. -/
theorem exists_spelling_append (m : Bytes) :
    ∃ t, m = spelling m ++ t ∧ ∀ c, t.head? = some c → isSeparator c = true := by
  rcases exists_takeWhile_append isSeparator m with h | ⟨c, t, hc, h⟩
  · exact ⟨[], by rw [List.append_nil]; exact h, by simp⟩
  · refine ⟨c :: t, h, fun d hd => ?_⟩
    obtain rfl : c = d := by simpa using hd
    exact hc

theorem isHexDigit_of_isSeparator {c : UInt8} (h : isSeparator c = true) : isHexDigit c = false := by
  have hall : ∀ c : UInt8, isSeparator c = true → isHexDigit c = false := forall_byte (by decide +kernel)
  exact hall c h

/-- What the scan of a member sees behind a spelling in normal form. -/
theorem exists_trimSpace_spelling {m : Bytes} (h : CanonicalPCI (spelling m)) :
    ∃ t, trimSpace m = spelling m ++ t ∧ ∀ c, t.head? = some c → isHexDigit c = false := by
  have hne : spelling m ≠ [] := h.ne_nil
  obtain ⟨t, hm, ht⟩ := exists_spelling_append m
  obtain ⟨t', c, htrim, rfl⟩ := exists_trimSpace_append (t := t) h.isPCIChar hne
  rw [← hm] at htrim
  refine ⟨t', htrim, fun x hx => isHexDigit_of_isSeparator (ht x ?_)⟩
  rw [List.head?_append, hx, Option.some_or]

/-- The hook looks up the name that iPXE matches exactly if the spelling is that of sysfs. -/
theorem resolveMember_spelling_iff {m : Bytes} {a : PCIAddr} (h : scanPCI (trimSpace m) = some a) :
    resolveMember (spelling m) = .pci a.format ↔ CanonicalPCI (spelling m) := by
  constructor
  · intro hres
    unfold resolveMember at hres
    split_ifs at hres with hcol hdom
    · rw [Lookup.pci.injEq] at hres
      rw [hres]
      have := CanonicalPCI.full (hexField_formatNat 3 a.seg) (hexField_formatNat 1 a.bus) (hexField_formatNat 1 a.dev)
        (hexField_formatNat 0 a.fn)
      simpa [PCIAddr.format] using this
    · rw [Lookup.pci.injEq] at hres
      have hsplit : str "0000" ++ colon :: spelling m = formatNat 16 4 a.seg ++ colon :: (formatNat 16 2 a.bus ++
          colon :: formatNat 16 2 a.dev ++ dot :: formatNat 16 1 a.fn) := by
        have h0 : str "0000:" = str "0000" ++ [colon] := by decide
        rw [h0] at hres
        simpa [PCIAddr.format] using hres
      rw [(append_cons_cancel (by decide) (not_mem_of_hexField (hexField_formatNat 3 a.seg)) hsplit).2]
      exact CanonicalPCI.short (hexField_formatNat 1 a.bus) (hexField_formatNat 1 a.dev) (hexField_formatNat 0 a.fn)
  · intro hcan
    obtain ⟨t, htrim, ht⟩ := exists_trimSpace_spelling hcan
    rw [htrim] at h
    generalize spelling m = s at hcan h
    have hcontains : ∀ x y : Bytes, (x ++ colon :: y).contains 58 = true := fun x y =>
      List.contains_iff_mem.mpr (List.mem_append_right _ (List.mem_cons_self ..))
    unfold resolveMember
    cases hcan with
    | short hb hc hd =>
      rw [format_of_scanPCI_short hb hc hd ht h, List.append_assoc, List.cons_append, if_pos (hcontains _ _),
        hasDomain_short (not_mem_of_hexField hb)]
      · rfl
      · have hdot : colon ≠ dot := by decide
        simp [not_mem_of_hexField hc, not_mem_of_hexField hd, hdot]
    | full ha hb hc hd =>
      rw [format_of_scanPCI_full hb hc hd ht ha h]
      simp only [List.append_assoc, List.cons_append]
      rw [if_pos (hcontains _ _), if_pos (hasDomain_full (not_mem_of_hexField ha) (not_mem_of_hexField hb) (by simp))]

/-! ### The members on the command line -/

/-- The text of the members in front of a member. -/
def membersText (earlier : List Bytes) : Bytes := earlier.flatMap (· ++ [comma])

theorem join_eq_membersText (earlier : List Bytes) (m : Bytes) (later : List Bytes) :
    ∃ q, join [comma] (earlier ++ m :: later) = membersText earlier ++ (m ++ q) ∧ ∀ c, q.head? = some c →
      c = comma := by
  unfold join membersText
  induction earlier with
  | nil =>
    cases later with
    | nil => exact ⟨[], by simp, by simp⟩
    | cons m' later => exact ⟨_, by simp [List.intercalate_cons_cons]; rfl, by simp [eq_comm]⟩
  | cons x earlier ih =>
    obtain ⟨q, hq, hhead⟩ := ih
    refine ⟨q, ?_, hhead⟩
    rw [List.flatMap_cons, List.append_assoc, ← hq]
    cases earlier <;> simp [List.intercalate_cons_cons]

/-- The members in front of a member are split off as a whole. -/
theorem splitOn_membersText (earlier : List Bytes) (s : Bytes) :
    (membersText earlier ++ s).splitOn comma = earlier.flatMap (·.splitOn comma) ++ s.splitOn comma := by
  unfold membersText
  induction earlier with
  | nil => rfl
  | cons x earlier ih =>
    rw [List.flatMap_cons, List.flatMap_cons, List.append_assoc, List.append_assoc, List.singleton_append,
      List.splitOn_append_cons_self, ih, List.append_assoc]

theorem length_flatMap_splitOn (earlier : List Bytes) :
    (earlier.flatMap (·.splitOn comma)).length = (membersText earlier).count comma := by
  unfold membersText
  induction earlier with
  | nil => rfl
  | cons x earlier ih =>
    rw [List.flatMap_cons, List.flatMap_cons, List.length_append, List.count_append, ih, length_splitOn,
      List.count_append]
    rfl

section Lookups

variable {n : Node} {cmdline : Bytes} {before after : List Bytes} (hkernel : n.kernelNet = []) (hbonded : n.bonded)
  (hwords : words cmdline = before ++ words (buildKernelNet n) ++ after)
include hkernel hbonded hwords

/-- The first word of an argument of the node is a word of the command line. -/
private theorem mem_words {k : Arg} {v : Bytes} (hmem : k.key ++ v ∈ bondArgs n) :
    k.key ++ v.takeWhile (fun c => !isBlank c) ∈ words cmdline := by
  have hkey : ∀ c ∈ k.key, (!isBlank c) = true := List.all_eq_true.mp (by cases k <;> decide)
  have htake : (k.key ++ v).takeWhile (fun c => !isBlank c) = k.key ++ v.takeWhile (fun c => !isBlank c) :=
    List.takeWhile_append_of_pos hkey
  have hne : k.key ++ v.takeWhile (fun c => !isBlank c) ≠ [] :=
    List.append_ne_nil_of_left_ne_nil (List.ne_nil_of_length_pos (Nat.lt_of_lt_of_le (by decide) (length_key k))) _
  obtain ⟨ws, hws⟩ := words_eq_cons (s := k.key ++ v) (by rw [htake]; exact hne)
  rw [hwords, buildKernelNet, if_neg (by simpa using hkernel), if_pos hbonded, words_argText]
  have : k.key ++ v.takeWhile (fun c => !isBlank c) ∈ (bondArgs n).flatMap words :=
    List.mem_flatMap.mpr ⟨_, hmem, by rw [hws, htake]; exact List.mem_cons_self ..⟩
  simp [this]

/-- If only one word is read as an argument, its value is that of the node up to the first blank. -/
private theorem readArgs_takeWhile {k : Arg} {v : Bytes} (hmem : k.key ++ v ∈ bondArgs n)
    (hone : ((words cmdline).filter fun x => argOf x = some k).length = 1) :
    readArgs (words cmdline) k = v.takeWhile fun c => !isBlank c := by
  obtain ⟨x, hx⟩ := List.length_eq_one_iff.mp hone
  have hword : k.key ++ v.takeWhile (fun c => !isBlank c) ∈ (words cmdline).filter fun x => argOf x = some k :=
    List.mem_filter.mpr ⟨mem_words hkernel hbonded hwords hmem, by simpa using argOf_key_append k _⟩
  rw [hx, List.mem_singleton] at hword
  rw [readArgs_of_unique hx, ← hword, List.drop_left]

variable (hbond : ((words cmdline).filter fun x => argOf x = some .bond).length = 1)
  (hmembers : ((words cmdline).filter fun x => argOf x = some .members).length = 1)
include hbond hmembers

/-- The lookups of the hook: the fields of the members up to the first blank. -/
theorem lookups_eq :
    lookups cmdline =
      if n.bond.takeWhile (fun c => !isBlank c) ≠ [] then
        (fields comma ((join [comma] n.bondMembers).takeWhile fun c => !isBlank c)).map resolveMember
      else [] := by
  have hb := readArgs_takeWhile hkernel hbonded hwords (k := .bond) (v := n.bond) (by simp [bondArgs, Arg.key]) hbond
  have hm := readArgs_takeWhile hkernel hbonded hwords (k := .members) (v := join [comma] n.bondMembers)
    (by simp [bondArgs, Arg.key]) hmembers
  unfold lookups config
  simp only [hb, hm]
  by_cases h1 : n.bond.takeWhile (fun c => !isBlank c) = []
  · simp [h1]
  · by_cases h2 : (join [comma] n.bondMembers).takeWhile (fun c => !isBlank c) = []
    · simp [h1, h2, fields]
    · rw [if_pos ⟨h1, h2⟩, if_pos h1]
      rfl

end Lookups

theorem blankFree_membersText_iff (earlier : List Bytes) :
    BlankFree (membersText earlier) ↔ ∀ x ∈ earlier, BlankFree x := by
  constructor
  · intro h x hx c hc
    exact h c (List.mem_flatMap.mpr ⟨x, hx, List.mem_append_left _ hc⟩)
  · intro h c hc
    obtain ⟨x, hx, hc⟩ := List.mem_flatMap.mp hc
    rcases List.mem_append.mp hc with hc | hc
    · exact h x hx c hc
    · obtain rfl : c = comma := by simpa using hc
      decide

/-- A bond has a name exactly if the one given does not start with a blank. -/
theorem bond_takeWhile_ne_nil_iff (n : Node) :
    n.bond.takeWhile (fun c => !isBlank c) ≠ [] ↔ ∀ c, n.bondName.head? = some c → isBlank c = false := by
  unfold Node.bond orDefault
  cases h : n.bondName with
  | nil =>
    have hdef : (str "bond0").takeWhile (fun c => !isBlank c) ≠ [] := by decide
    simpa using hdef
  | cons c name =>
    cases hc : isBlank c <;> simp [hc]

/-- The first field of a member, when no blank comes before it. -/
private theorem spelling_eq {m q : Bytes} (hq : ∀ c, q.head? = some c → c = comma) :
    ((m ++ q).takeWhile fun c => !isBlank c).takeWhile (fun c => !(c == comma)) = spelling m := by
  unfold spelling isSeparator
  induction m with
  | nil =>
    cases q with
    | nil => rfl
    | cons c q =>
      obtain rfl := hq c rfl
      rfl
  | cons c m ih =>
    cases hblank : isBlank c with
    | true => simp [hblank]
    | false =>
      by_cases hcomma : c = comma
      · subst hcomma
        rfl
      · simp [hblank, hcomma, ih]

theorem getLast?_membersText {earlier : List Bytes} (h : membersText earlier ≠ []) :
    (membersText earlier).getLast? = some comma := by
  unfold membersText at h ⊢
  induction earlier using List.reverseRecOn with
  | nil => exact absurd rfl h
  | append_singleton earlier x _ => simp

/-- A text with a blank in front of its last separator has too few fields to reach behind that separator. -/
private theorem length_fields_lt {earlier : List Bytes} (h : ¬ BlankFree (membersText earlier)) (s : Bytes) :
    (fields comma ((membersText earlier ++ s).takeWhile fun c => !isBlank c)).length ≤
      (membersText earlier).count comma := by
  rcases exists_takeWhile_append isBlank (membersText earlier) with hP | ⟨c, t, hc, hP⟩
  · refine absurd (fun c hc => ?_) h
    rw [hP] at hc
    simpa using List.mem_takeWhile_imp hc
  · generalize hp : (membersText earlier).takeWhile (fun c => !isBlank c) = p at hP
    have htake : (membersText earlier ++ s).takeWhile (fun c => !isBlank c) = p := by
      rw [hP, List.append_assoc, List.takeWhile_append_of_pos]
      · simp [hc]
      · intro d hd
        rw [← hp] at hd
        simpa using List.mem_takeWhile_imp hd
    have hmem : comma ∈ t := by
      have hlast := getLast?_membersText (show membersText earlier ≠ [] by rw [hP]; simp)
      rw [hP, List.getLast?_append_of_ne_nil _ (by simp)] at hlast
      cases t with
      | nil =>
        obtain rfl : c = comma := by simpa using hlast
        exact absurd hc (by decide)
      | cons d t => exact List.mem_of_getLast? (by simpa using hlast)
    have hpos : 0 < t.count comma := List.count_pos_iff.mpr hmem
    have hcount : (membersText earlier).count comma = p.count comma + (c :: t).count comma := by
      rw [hP, List.count_append]
    have hle := List.count_le_count_cons (a := comma) (b := c) (l := t)
    have hlen := length_fields_le comma p
    rw [htake]
    omega

/-- The name that the hook looks up for a bond member that iPXE takes for a PCI address.  The place of the lookup is
the number of commas in front of the member.  It is the name iPXE matches exactly if the member is spelled as in
sysfs, up to a blank or comma, and neither the members before it nor the start of the bond's name cut it off. -/
theorem lookups_eq_formatIPXEPCI_iff (u : Unicode) (n : Node) (cmdline : Bytes) (before after : List Bytes)
    (earlier later : List Bytes) (m : Bytes) (hlist : n.bondMembers = earlier ++ m :: later)
    (hkernel : n.kernelNet = []) (hscan : (scanPCI (trimSpace m)).isSome)
    (hwords : words cmdline = before ++ words (buildKernelNet n) ++ after)
    (hbond : ((words cmdline).filter fun x => argOf x = some .bond).length = 1)
    (hmembers : ((words cmdline).filter fun x => argOf x = some .members).length = 1) :
    (lookups cmdline)[(membersText earlier).count comma]? = some (.pci (formatIPXEPCI u m)) ↔
      (∀ c, n.bondName.head? = some c → isBlank c = false) ∧ (∀ x ∈ earlier, BlankFree x) ∧
        CanonicalPCI (spelling m) := by
  obtain ⟨a, ha⟩ := Option.isSome_iff_exists.mp hscan
  have hformat : formatIPXEPCI u m = a.format := by
    unfold formatIPXEPCI
    rw [ha]
  have hbonded : n.bonded := by simp [Node.bonded, hlist]
  obtain ⟨q, hq, hhead⟩ := join_eq_membersText earlier m later
  rw [lookups_eq hkernel hbonded hwords hbond hmembers, hformat, ← bond_takeWhile_ne_nil_iff,
    ← blankFree_membersText_iff, hlist, hq, ← resolveMember_spelling_iff ha]
  by_cases hname : n.bond.takeWhile (fun c => !isBlank c) ≠ []
  · by_cases hfree : BlankFree (membersText earlier)
    · have htake : (membersText earlier ++ (m ++ q)).takeWhile (fun c => !isBlank c) =
          membersText earlier ++ (m ++ q).takeWhile (fun c => !isBlank c) :=
        List.takeWhile_append_of_pos fun c hc => by rw [hfree c hc]; rfl
      obtain ⟨hsome, hne⟩ := getElem?_fields (splitOn_membersText earlier ((m ++ q).takeWhile fun c => !isBlank c))
      rw [spelling_eq hhead, length_flatMap_splitOn] at hsome hne
      rw [if_pos hname, htake, List.getElem?_map, Option.map_eq_some_iff]
      constructor
      · rintro ⟨f, hf, hres⟩
        rw [hsome f hf] at hres
        exact ⟨hname, hfree, hres⟩
      · rintro ⟨-, -, hres⟩
        refine ⟨spelling m, hne ?_, hres⟩
        intro hnil
        rw [hnil] at hres
        simp [resolveMember] at hres
    · rw [if_pos hname, List.getElem?_eq_none (by rw [List.length_map]; exact length_fields_lt hfree _)]
      simp [hfree]
  · rw [if_neg hname]
    simp [hname]

/-- A node whose second member carries its domain and whose first one does not. -/
def pciNode : Node := { ip := str "10.0.0.5", bondMembers := [str "5e:00.1", str "0000:3b:00.0"] }

theorem lookups_eq_formatIPXEPCI_pciNode :
    (lookups (buildKernelNet pciNode))[1]? = some (.pci (formatIPXEPCI Unicode.asciiOnly (str "0000:3b:00.0"))) :=
  (lookups_eq_formatIPXEPCI_iff Unicode.asciiOnly pciNode (buildKernelNet pciNode) [] [] [str "5e:00.1"] []
    (str "0000:3b:00.0") rfl rfl (by decide) (by simp) (by decide +kernel) (by decide +kernel)).mpr
    ⟨by simp [pciNode], by decide, .full (a := str "0000") (b := str "3b") (c := str "00") (d := str "0") (by
      decide) (by decide) (by decide) (by decide)⟩

/-- A member in upper case: iPXE matches `0000:af:00.1`, the hook looks up `0000:AF:00.1`. -/
theorem lookups_ne_formatIPXEPCI :
    isPCIAddr (str "AF:00.1") = true ∧ (scanPCI (trimSpace (str "AF:00.1"))).isSome = true ∧
      lookups (buildKernelNet { pciNode with bondMembers := [str "AF:00.1"] }) = [.pci (str "0000:AF:00.1")] ∧
      formatIPXEPCI Unicode.asciiOnly (str "AF:00.1") = str "0000:af:00.1" ∧
      str "0000:AF:00.1" ≠ str "0000:af:00.1" := by
  refine ⟨by decide, by decide, by decide +kernel, by decide, by decide⟩

end MaasBoot
