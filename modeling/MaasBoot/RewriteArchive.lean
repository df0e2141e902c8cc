import MaasBoot.Lib.Ascii
import MaasBoot.Lib.Template
import MaasBoot.Rewriter

/-!
# Rewriting an archive is all or nothing

Either every stage of `rewriteData` succeeds and the result is an archive that matches its checksum and has the
entries of the input with their files rewritten, or the result is the replacement in the text of the input.
-/

namespace MaasBoot

/-! ### Texts that stay as they are -/

theorem applySubs_nil (u : Unicode) (baseURL : Bytes) (rewrites : List Rewrite) :
    applySubs u baseURL rewrites [] = [] := by
  have hbase : (if baseURL ≠ [] then replaceAll defaultRackURLRe (expand u baseURL) [] else []) = ([] : Bytes) := by
    split <;> rfl
  unfold applySubs
  rw [hbase]
  induction rewrites with
  | nil => rfl
  | cons r rewrites ih =>
    have hr : (if r.fromText ≠ [] then replaceText r.fromText r.toText [] else []) = ([] : Bytes) := by
      split <;> rfl
    rw [List.foldl_cons, hr, ih]

/-- Stripping a base64 text that is wrapped in lines. -/
theorem stripSpace_eq_filter {s : Bytes} (hs : ∀ c ∈ s, c = 10 ∨ isBase64Char c = true) :
    stripSpace s = s.filter (· != 10) := by
  have hascii : ∀ c ∈ s, c.toNat < 0x80 := by
    intro c hc
    rcases hs c hc with rfl | h
    · decide
    · exact (base64Char_range h).2
  unfold stripSpace
  rw [runes_ascii hascii]
  induction s with
  | nil => rfl
  | cons c s ih =>
    rw [List.forall_mem_cons] at hs hascii
    have ih := ih hs.2 hascii.2
    rcases hs.1 with rfl | h
    · simpa using ih
    · have hrange := base64Char_range h
      have hc : c ≠ 10 := fun h10 => by rw [h10] at hrange; exact absurd hrange.1 (by decide)
      have henc : encodeRune c.toNat = [c] := by
        unfold encodeRune
        rw [if_pos hrange.2, UInt8.ofNat_toNat]
      have hkeep : (!(c.toNat == 32 || c.toNat == 9 || c.toNat == 13 || c.toNat == 10)) = true := by
        simp
        omega
      rw [List.map_cons, List.filter_cons, if_pos hkeep, List.flatMap_cons, henc, ih,
        List.filter_cons_of_pos (by simpa using hc), List.singleton_append]

/-! ### The payload in lines -/

/-- The payload of an archive: base64 in lines of 76 bytes. -/
def payloadText (newGzBytes : Bytes) : Bytes := wrapFrom 76 0 (base64Encode newGzBytes)

theorem newline_not_mem_base64Encode (s : Bytes) : 10 ∉ base64Encode s := fun h =>
  absurd (base64Char_range (isBase64Char_of_mem h)).1 (by decide)

theorem mem_of_mem_wrapFrom {n col : Nat} {s : Bytes} {c : UInt8} (hc : c ∈ wrapFrom n col s) :
    c = 10 ∨ c ∈ s := by
  induction s generalizing col with
  | nil => simp [wrapFrom] at hc
  | cons d s ih =>
    rw [wrapFrom] at hc
    split at hc
    · simp only [List.mem_cons] at hc
      rcases hc with rfl | rfl | hc
      · exact .inr (List.mem_cons_self ..)
      · exact .inl rfl
      · exact (ih hc).imp_right (List.mem_cons_of_mem _)
    · rcases List.mem_cons.mp hc with rfl | hc
      · exact .inr (List.mem_cons_self ..)
      · exact (ih hc).imp_right (List.mem_cons_of_mem _)

/-- The payload reads back as the compressed archive, with or without a newline behind it. -/
theorem base64Decode_stripSpace_payloadText (g : Bytes) {nl : Bytes} (hnl : ∀ c ∈ nl, c = 10) :
    base64Decode (stripSpace (payloadText g ++ nl)) = some g := by
  have hchars : ∀ c ∈ payloadText g ++ nl, c = 10 ∨ isBase64Char c = true := by
    intro c hc
    rcases List.mem_append.mp hc with hc | hc
    · exact (mem_of_mem_wrapFrom hc).imp_right isBase64Char_of_mem
    · exact .inl (hnl c hc)
  have hdrop : nl.filter (· != 10) = [] := List.filter_eq_nil_iff.mpr fun c hc => by simp [hnl c hc]
  rw [stripSpace_eq_filter hchars, List.filter_append, hdrop, List.append_nil, payloadText,
    filter_wrapFrom _ _ (newline_not_mem_base64Encode g), base64Decode_base64Encode]

theorem length_le_of_mem_splitOn_payloadText (g : Bytes) {nl : Bytes} (hnl : nl = [] ∨ nl = [10]) :
    ∀ l ∈ (payloadText g ++ nl).splitOn 10, l.length ≤ 76 := by
  intro l hl
  have hlines := length_le_of_mem_splitOn_wrapFrom (n := 76) (by decide) (newline_not_mem_base64Encode g)
  rcases hnl with rfl | rfl
  · rw [List.append_nil] at hl
    exact hlines l hl
  · rw [List.splitOn_append_cons_self, List.mem_append] at hl
    rcases hl with hl | hl
    · exact hlines l hl
    · obtain rfl : l = [] := by simpa using hl
      exact Nat.zero_le _

/-! ### The checksum in the header -/

theorem newline_not_mem_md5SumClasses : ∀ p ∈ md5SumClasses, p 10 = false := by
  unfold md5SumClasses
  intro p hp
  simp only [List.mem_append, List.mem_map, List.mem_cons, List.not_mem_nil, or_false] at hp
  rcases hp with ⟨c, hc, rfl⟩ | rfl | hp | rfl
  · have : (10 : UInt8) ∉ str "MD5SUM=" := by decide
    simpa using fun h : (10 : UInt8) = c => this (h ▸ hc)
  · decide
  · rw [List.eq_of_mem_replicate hp]
    decide
  · decide

section Header

variable (md5 : Bytes → Vector UInt8 16) (g : Bytes)

theorem isLowerHex_or_of_mem_md5Line {c : UInt8} (hc : c ∈ md5Line md5 g) :
    c ∈ str "MD5SUM='" ∨ isLowerHex c = true := by
  unfold md5Line at hc
  rw [List.mem_append, List.mem_append] at hc
  rcases hc with (hc | hc) | hc
  · exact .inl hc
  · exact .inr (isLowerHex_of_mem_hexEncode hc)
  · obtain rfl : c = 39 := by simpa [show str "'" = [39] from rfl] using hc
    exact .inl (by decide)

theorem dollar_not_mem_md5Line : 36 ∉ md5Line md5 g := fun h => by
  rcases isLowerHex_or_of_mem_md5Line md5 g h with h | h
  · exact absurd h (by decide)
  · exact absurd h (by decide)

theorem newline_not_mem_md5Line : 10 ∉ md5Line md5 g := fun h => by
  rcases isLowerHex_or_of_mem_md5Line md5 g h with h | h
  · exact absurd h (by decide)
  · exact absurd h (by decide)

/-- The checksums in the header are replaced line by line. -/
theorem splitOn_replaceAll_md5SumRe (u : Unicode) (s : Bytes) :
    (replaceAll md5SumRe (expand u (md5Line md5 g)) s).splitOn 10 =
      (s.splitOn 10).map (replaceLine md5SumClasses (md5Line md5 g)) := by
  have hexpand : expand u (md5Line md5 g) = fun _ => md5Line md5 g :=
    funext fun text => expand_of_notMem u (dollar_not_mem_md5Line md5 g) text
  rw [hexpand, md5SumRe, splitOn_replaceAll _ newline_not_mem_md5SumClasses (by decide)
    (newline_not_mem_md5Line md5 g)]

/-- A line that has a checksum has the new one. -/
theorem md5Line_prefix_of_matchClasses {l : Bytes}
    (h : matchClasses md5SumClasses (replaceLine md5SumClasses (md5Line md5 g) l) = true) :
    md5Line md5 g <+: replaceLine md5SumClasses (md5Line md5 g) l := by
  unfold replaceLine at h ⊢
  split at h
  · rename_i hl
    rw [if_pos hl]
    exact List.prefix_append _ _
  · rename_i hl
    exact absurd h hl

end Header

/-! ### The entries of an archive -/

section Entries

variable {R : Type} (sub : Bytes → Bytes)

/-- An entry with its file rewritten. -/
def rewriteEntry (e : Header R × Bytes) : Header R × Bytes :=
  if e.1.isRegular then ({ e.1 with size := (sub e.2).length }, sub e.2) else e

/-- How an entry is written: always in one write if it is a file, otherwise only if it has a content. -/
def entryWrites (e : Header R × Bytes) : Header R × List Bytes :=
  if e.1.isRegular then ({ e.1 with size := (sub e.2).length }, [sub e.2])
  else (e.1, if 0 < e.2.length then [e.2] else [])

theorem flatten_entryWrites (e : Header R × Bytes) :
    ((entryWrites sub e).1, (entryWrites sub e).2.flatten) = rewriteEntry sub e := by
  obtain ⟨hdr, content⟩ := e
  unfold entryWrites rewriteEntry
  split
  · simp
  · cases content <;> simp

/-- The loop ends without an error exactly if the archive is read to its end and all entries can be written. -/
theorem rewriteEntries_eq_some_iff (tar : Tar R) (st : TarStream R) (tw tw' : tar.Writer) :
    rewriteEntries tar sub st tw = some tw' ↔
      ∃ es, st = .ofEntries es ∧ tar.writeEntries tw (es.map (entryWrites sub)) = some tw' := by
  induction st generalizing tw with
  | eof =>
    constructor
    · intro h
      exact ⟨[], rfl, h⟩
    · rintro ⟨es, hes, h⟩
      cases es with
      | nil => exact h
      | cons e es => cases hes
  | error =>
    constructor
    · intro h
      cases h
    · rintro ⟨es, hes, -⟩
      cases es <;> cases hes
  | copyError hdr =>
    constructor
    · intro h
      cases h
    · rintro ⟨es, hes, -⟩
      cases es <;> cases hes
  | entry hdr content rest ih =>
    -- both branches of the loop write a header and at most one content
    have hstep : rewriteEntries tar sub (.entry hdr content rest) tw =
        (tar.writeHeader tw (entryWrites sub (hdr, content)).1).bind fun tw =>
          ((entryWrites sub (hdr, content)).2.foldlM tar.write tw).bind fun tw => rewriteEntries tar sub rest tw := by
      rw [rewriteEntries, entryWrites]
      split
      · simp
      · split <;> simp
    rw [hstep]
    simp only [Option.bind_eq_some_iff, ih]
    constructor
    · rintro ⟨tw₁, h₁, tw₂, h₂, es, rfl, h⟩
      refine ⟨(hdr, content) :: es, rfl, ?_⟩
      rw [List.map_cons, TarCodec.writeEntries, h₁, Option.bind_eq_bind, Option.bind_some, h₂, Option.bind_some, h]
    · rintro ⟨es, hes, h⟩
      cases es with
      | nil => cases hes
      | cons e es =>
        obtain ⟨rfl, rfl, rfl⟩ := TarStream.entry.inj hes
        rw [List.map_cons, TarCodec.writeEntries] at h
        simp only [Option.bind_eq_bind, Option.bind_eq_some_iff] at h
        obtain ⟨tw₁, h₁, tw₂, h₂, h⟩ := h
        exact ⟨tw₁, h₁, tw₂, h₂, es, rfl, h⟩

end Entries

/-! ### The marker -/

/-- A line that separates the header from the payload. -/
def IsMarkerLine (l : Bytes) : Prop := l = payloadMarker ∨ l = payloadMarker ++ [13]

theorem isMarkerLine_of_payloadMarkerRe {bol : Bool} {t : Bytes} {n : Nat} (h : payloadMarkerRe bol t = some n) :
    bol = true ∧ IsMarkerLine (t.takeWhile fun c => !(c == 10)) := by
  have hend : ∀ s : Bytes, atLineEnd s = true → s.takeWhile (fun c => !(c == 10)) = [] := by
    intro s hs
    cases s with
    | nil => rfl
    | cons c s =>
      obtain rfl : c = 10 := by simpa [atLineEnd] using hs
      rfl
  have hmarker : ∀ c ∈ payloadMarker, (!(c == 10)) = true := List.all_eq_true.mp (by decide)
  unfold payloadMarkerRe at h
  split at h
  · rename_i hpre
    rw [Bool.and_eq_true, List.isPrefixOf_iff_prefix] at hpre
    obtain ⟨rfl, rest, rfl⟩ := hpre
    refine ⟨rfl, ?_⟩
    rw [List.drop_left] at h
    rw [List.takeWhile_append_of_pos hmarker]
    dsimp only at h
    split at h
    · rename_i hcr
      cases rest with
      | nil => simp at hcr
      | cons c rest =>
        obtain ⟨hc, hline⟩ := hcr
        obtain rfl : c = 13 := by simpa using hc
        right
        rw [List.takeWhile_cons, if_pos (by decide), hend rest hline]
    · split at h
      · rename_i hline
        left
        rw [hend rest hline, List.append_nil]
      · cases h
  · cases h

/-- Without a marker line nothing is found. -/
theorem findIndex_payloadMarkerRe_eq_none {input : Bytes} (h : ∀ l ∈ input.splitOn 10, ¬ IsMarkerLine l) :
    findIndex payloadMarkerRe input = none := by
  cases hfind : findIndex payloadMarkerRe input with
  | none => rfl
  | some r =>
    obtain ⟨a, t, n, rfl, hmatch⟩ := exists_of_findGo hfind
    obtain ⟨hbol, hline⟩ := isMarkerLine_of_payloadMarkerRe hmatch
    refine absurd hline (h _ (takeWhile_mem_splitOn ?_))
    by_cases ha : a = []
    · exact .inl ha
    · rw [if_neg ha] at hbol
      exact .inr (by simpa using hbol)

/-! ### All stages together -/

section Stages

variable {R : Type} (gzip : Gzip) (tar : Tar R)

/-- All stages succeed on `input`: its text up to the marker is `header`, its archive has the entries `es`, and the
rewritten entries can be packed to `newGzBytes`. -/
def Repacks (sub : Bytes → Bytes) (input header : Bytes) (es : List (Header R × Bytes)) (newGzBytes : Bytes) : Prop :=
  ∃ start stop decoded gzr tw archive,
    findIndex payloadMarkerRe input = some (start, stop) ∧ header = input.take start ∧
    base64Decode (stripSpace (input.drop stop)) = some decoded ∧ [0x1F, 0x8B] <+: decoded ∧
    gzip.newReader decoded = some gzr ∧ tar.read gzr = .ofEntries es ∧
    tar.writeEntries tar.newWriter (es.map (entryWrites sub)) = some tw ∧ tar.close tw = some archive ∧
    gzip.compress archive = some newGzBytes

/-- The test for the magic bytes of gzip. -/
theorem magic_iff (b : Bytes) :
    ¬ (b.length < 2 ∨ byteAt b 0 ≠ 0x1F ∨ byteAt b 1 ≠ 0x8B) ↔ [0x1F, 0x8B] <+: b := by
  match b with
  | [] => simp
  | [x] => simp
  | x :: y :: b => simp [byteAt, eq_comm]

theorem repack_eq_some_iff (sub : Bytes → Bytes) (input header newGzBytes : Bytes) :
    repack gzip tar sub input = some (header, newGzBytes) ↔
      ∃ es, Repacks gzip tar sub input header es newGzBytes := by
  unfold repack Repacks
  simp only [Option.bind_eq_bind, Option.bind_eq_some_iff, Option.ite_none_left_eq_some, magic_iff,
    rewriteEntries_eq_some_iff, Option.some.injEq, Prod.mk.injEq]
  constructor
  · rintro ⟨⟨start, stop⟩, hmark, decoded, hdec, hmagic, gzr, hgz, tw, ⟨es, hes, htw⟩, archive, harch, g, hg, hh, rfl⟩
    exact ⟨es, start, stop, decoded, gzr, tw, archive, hmark, hh.symm, hdec, hmagic, hgz, hes, htw, harch, hg⟩
  · rintro ⟨es, start, stop, decoded, gzr, tw, archive, hmark, hh, hdec, hmagic, hgz, hes, htw, harch, hg⟩
    exact ⟨(start, stop), hmark, decoded, hdec, hmagic, gzr, hgz, tw, ⟨es, hes, htw⟩, archive, harch, _, hg, hh.symm,
      rfl⟩

variable (u : Unicode) (md5 : Bytes → Vector UInt8 16)

/-- The text `H`, the marker and the payload `P` are a self-extracting archive with the compressed archive `g`: the
header and the entries of another one with everything rewritten, and the checksum of `g`. -/
structure SelfExtracting (sub : Bytes → Bytes) (header : Bytes) (es : List (Header R × Bytes)) (g H P : Bytes) :
    Prop where
  payload : base64Decode (stripSpace P) = some g
  entries : ∃ gzr, gzip.newReader g = some gzr ∧ tar.read gzr = .ofEntries (es.map (rewriteEntry sub))
  checksum : ∀ l ∈ H.splitOn 10, matchClasses md5SumClasses l = true → md5Line md5 g <+: l
  text : ∃ nl, (nl = [] ∨ nl = str "\n") ∧
    H = join (str "\n") (((sub header).splitOn 10).map (replaceLine md5SumClasses (md5Line md5 g))) ++ nl
  width : ∀ l ∈ P.splitOn 10, l.length ≤ 76

theorem finalNewline_cases (s : Bytes) : finalNewline s = [] ∨ finalNewline s = [10] := by
  unfold finalNewline
  split
  · exact .inl rfl
  · exact .inr (by decide)

theorem newline_suffix_finalNewline (s : Bytes) : [10] <:+ s ++ finalNewline s := by
  unfold finalNewline
  split
  · rename_i h
    rw [List.append_nil]
    exact List.isSuffixOf_iff_suffix.mp h
  · exact List.suffix_append s _

/-- The encoder has written the payload in lines. -/
private theorem writes_encoderWrites (g : Bytes) :
    LineWrapWriter.writes bufferPut { w := [], lineLen := 76 } (encoderWrites g) =
      some (.ok { w := payloadText g, lineLen := 76, col := (base64Encode g).length % 76 }) := by
  rw [LineWrapWriter.writes_bufferPut (by decide), flatten_encoderWrites, Nat.zero_add]
  rfl

/-- When a stage fails, the replacement in the input is left. -/
theorem rewriteData_of_repack_eq_none {input baseURL : Bytes} {rewrites : List Rewrite}
    (h : repack gzip tar (applySubs u (trimRight baseURL 47) rewrites) input = none) :
    rewriteData u gzip tar md5 input baseURL rewrites =
      some (.ok (applySubs u (trimRight baseURL 47) rewrites input)) := by
  unfold rewriteData
  by_cases hin : input = []
  · rw [if_pos hin, hin]
    exact congrArg (fun s => some (Except.ok s)) (applySubs_nil u _ rewrites).symm
  · rw [if_neg hin]
    dsimp only
    rw [h]

theorem rewriteData_of_repack_eq_some {input baseURL : Bytes} {rewrites : List Rewrite} {header g : Bytes}
    (h : repack gzip tar (applySubs u (trimRight baseURL 47) rewrites) input = some (header, g)) :
    ∃ P nl, (nl = [] ∨ nl = [10]) ∧ (P = payloadText g ∨ P = payloadText g ++ [10]) ∧
      rewriteData u gzip tar md5 input baseURL rewrites = some (.ok (
        replaceAll md5SumRe (expand u (md5Line md5 g)) (applySubs u (trimRight baseURL 47) rewrites header) ++ nl ++
          payloadMarker ++ str "\n" ++ P)) := by
  have hne : input ≠ [] := by
    rintro rfl
    cases h
  unfold rewriteData
  rw [if_neg hne]
  dsimp only
  rw [h]
  dsimp only
  rw [writes_encoderWrites]
  dsimp only
  generalize hs : replaceAll md5SumRe (expand u (md5Line md5 g))
    (applySubs u (trimRight baseURL 47) rewrites header) = s
  generalize hr : s ++ finalNewline s ++ payloadMarker ++ str "\n" ++ payloadText g = r
  refine ⟨payloadText g ++ finalNewline r, finalNewline s, finalNewline_cases s, ?_, ?_⟩
  · rcases finalNewline_cases r with h | h
    · left
      rw [h, List.append_nil]
    · right
      rw [h]
  · rw [← hr]
    simp only [List.append_assoc]

/-- What is packed again ends with a newline. -/
theorem newline_suffix_of_repack {input baseURL : Bytes} {rewrites : List Rewrite} {r : Bytes × Bytes}
    (h : repack gzip tar (applySubs u (trimRight baseURL 47) rewrites) input = some r) {out : Bytes}
    (hout : rewriteData u gzip tar md5 input baseURL rewrites = some (.ok out)) : [10] <:+ out := by
  have hne : input ≠ [] := by
    rintro rfl
    cases h
  unfold rewriteData at hout
  rw [if_neg hne] at hout
  dsimp only at hout
  rw [h] at hout
  dsimp only at hout
  rw [LineWrapWriter.writes_bufferPut (by decide)] at hout
  simp only [Option.some.injEq, Except.ok.injEq] at hout
  rw [← hout]
  exact newline_suffix_finalNewline _

/-- `rewriteData` returns the replacement in its input unless all stages succeed; then it returns a self-extracting
archive with the rewritten header and entries. -/
theorem rewriteData_all_or_nothing (input baseURL : Bytes) (rewrites : List Rewrite) :
    let sub := applySubs u (trimRight baseURL 47) rewrites
    ((∀ l ∈ input.splitOn 10, ¬ IsMarkerLine l) ∨ (¬ ∃ header es g, Repacks gzip tar sub input header es g) →
      rewriteData u gzip tar md5 input baseURL rewrites = some (.ok (sub input))) ∧
    (∀ header es g, Repacks gzip tar sub input header es g →
      ∃ H P, rewriteData u gzip tar md5 input baseURL rewrites = some (.ok (H ++ payloadMarker ++ str "\n" ++ P)) ∧
        SelfExtracting gzip tar md5 sub header es g H P) := by
  intro sub
  constructor
  · intro hfail
    refine rewriteData_of_repack_eq_none gzip tar u md5 ?_
    cases hrep : repack gzip tar sub input with
    | none => rfl
    | some r =>
      obtain ⟨es, hes⟩ := (repack_eq_some_iff gzip tar sub input r.1 r.2).mp hrep
      rcases hfail with hno | hno
      · obtain ⟨start, stop, _, _, _, _, hmark, -⟩ := hes
        rw [findIndex_payloadMarkerRe_eq_none hno] at hmark
        cases hmark
      · exact absurd ⟨r.1, es, r.2, hes⟩ hno
  · intro header es g hrep
    obtain ⟨P, nl, hnl, hP, hdata⟩ := rewriteData_of_repack_eq_some gzip tar u md5
      ((repack_eq_some_iff gzip tar sub input header g).mpr ⟨es, hrep⟩)
    have hlines := splitOn_replaceAll_md5SumRe md5 g u (sub header)
    generalize replaceAll md5SumRe (expand u (md5Line md5 g)) (sub header) = s at hdata hlines
    refine ⟨s ++ nl, P, hdata, ?_, ?_, ?_, ?_, ?_⟩
    · rcases hP with rfl | rfl
      · have hdec := base64Decode_stripSpace_payloadText g (List.forall_mem_nil fun c => c = 10)
        rwa [List.append_nil] at hdec
      · exact base64Decode_stripSpace_payloadText g (by simp)
    · obtain ⟨_, _, _, _, tw, archive, -, -, -, -, -, -, htw, harch, hg⟩ := hrep
      refine ⟨_, gzip.newReader_compress hg, ?_⟩
      rw [tar.read_close htw harch, List.map_map]
      exact congrArg _ (List.map_congr_left fun e _ => flatten_entryWrites sub e)
    · intro l hl hmatch
      have hmem : l ∈ s.splitOn 10 := by
        rcases hnl with rfl | rfl
        · rwa [List.append_nil] at hl
        · rw [List.splitOn_append_cons_self, List.mem_append] at hl
          rcases hl with hl | hl
          · exact hl
          · obtain rfl : l = [] := by simpa using hl
            cases hmatch
      rw [hlines] at hmem
      obtain ⟨l', -, rfl⟩ := List.mem_map.mp hmem
      exact md5Line_prefix_of_matchClasses md5 g hmatch
    · refine ⟨nl, ?_, ?_⟩
      · rw [show str "\n" = [10] by decide]
        exact hnl
      · rw [← hlines, join, show str "\n" = [10] by decide, List.intercalate_splitOn]
    · rcases hP with rfl | rfl
      · simpa using length_le_of_mem_splitOn_payloadText g (.inl rfl)
      · exact length_le_of_mem_splitOn_payloadText g (.inr rfl)

end Stages

/-- An archive with one file, whose content grows from 26 to 30 bytes. -/
example :
    rewriteData .asciiOnly Plain.gzip Plain.tar (fun _ => Vector.replicate 16 0xAB)
      (str "URL=http://10.0.0.1:5248/c\nMD5SUM=\"00000000000000000000000000000000\" # sum\n_____PAYLOAD_____\n" ++
        base64Encode ([0x1F, 0x8B] ++ Plain.header { typeflag := 48, size := 26, rest := str "f" } ++
          str "url: http://10.0.0.1:5248/") ++ str "\n") (str "http://maas.example/boot/") [] =
      some (.ok (str "URL=http://maas.example/boot/c\nMD5SUM='abababababababababababababababab' # sum\n" ++
        str "_____PAYLOAD_____\n" ++ wrapFrom 76 0 (base64Encode ([0x1F, 0x8B] ++
          Plain.header { typeflag := 48, size := 30, rest := str "f" } ++ str "url: http://maas.example/boot/")) ++
        str "\n")) := by
  decide +kernel

end MaasBoot
