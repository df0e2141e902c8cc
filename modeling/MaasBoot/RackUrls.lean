import MaasBoot.Lib.Replace
import MaasBoot.RewriteArchive

/-!
# The rack's URLs in a text

In a text `rewriteData` replaces `http://host:5248` by the base URL.

If each URL of the rack ends where a host or port could not go on, no new one is created where a copy of the base
URL meets the text: a URL of the rack that reaches into the base from the left would need `:5248` where the base has
`://`, and one that begins in the base would go on behind it with a slash, and so begin with `http:` or `http:/` at
its end (`rewriteData_no_rackURL`).

The pattern does not look behind the port.  A URL whose port only begins with 5248 is rewritten, too
(`rewriteData_ports_iff`).
-/

namespace MaasBoot

/-! ### The pattern -/

def IsHost (host : Bytes) : Prop := host ≠ [] ∧ ∀ c ∈ host, isHostByte c = true

/-- A text that the pattern matches. -/
def IsRackURL (w : Bytes) : Prop := ∃ host, IsHost host ∧ w = str "http://" ++ (host ++ str ":5248")

private theorem drop_scheme (s : Bytes) (n : Nat) : (str "http://" ++ s).drop (7 + n) = s.drop n := by
  rw [← List.drop_drop, List.drop_left' (by decide)]

/-- A URL is its scheme, the host that is found in it and the rest. -/
private theorem exists_host {s : Bytes} (h : (str "http://").isPrefixOf s = true) : ∃ host rest,
    s = str "http://" ++ (host ++ rest) ∧ (s.drop 7).takeWhile isHostByte = host ∧ s.drop (7 + host.length) = rest ∧
      ∀ c ∈ host, isHostByte c = true := by
  obtain ⟨s, rfl⟩ := List.isPrefixOf_iff_prefix.mp h
  refine ⟨s.takeWhile isHostByte, _, ?_, by rw [drop_scheme s 0]; rfl, rfl, fun c hc => List.mem_takeWhile_imp hc⟩
  have htake : s.takeWhile isHostByte = s.take (s.takeWhile isHostByte).length :=
    List.prefix_iff_eq_take.mp (List.takeWhile_prefix isHostByte)
  rw [drop_scheme]
  conv_lhs => rw [← List.take_append_drop (s.takeWhile isHostByte).length s, ← htake]

/-- The host ends at the colon. -/
private theorem host_eq {host : Bytes} (h : ∀ c ∈ host, isHostByte c = true) (r : Bytes) :
    (str "http://").isPrefixOf (str "http://" ++ (host ++ 58 :: r)) = true ∧
    ((str "http://" ++ (host ++ 58 :: r)).drop 7).takeWhile isHostByte = host ∧
    (str "http://" ++ (host ++ 58 :: r)).drop (7 + host.length) = 58 :: r := by
  refine ⟨List.isPrefixOf_iff_prefix.mpr (List.prefix_append ..), ?_, ?_⟩
  · rw [drop_scheme _ 0, List.drop_zero, List.takeWhile_append_of_pos h, List.takeWhile_cons, if_neg (by decide),
      List.append_nil]
  · rw [drop_scheme, List.drop_left]

theorem defaultRackURLRe_matchesWords : MatchesWords defaultRackURLRe IsRackURL where
  eq_some_iff bol s n := by
    unfold defaultRackURLRe
    constructor
    · intro h
      split at h
      · rename_i hpre
        obtain ⟨host, rest, hs, htake, hdrop, hhost⟩ := exists_host hpre
        simp only [htake, hdrop] at h
        split at h
        · rename_i hmatch
          obtain ⟨r, rfl⟩ := List.isPrefixOf_iff_prefix.mp hmatch.2
          obtain rfl := Option.some.inj h
          refine ⟨_, r, ⟨host, ⟨hmatch.1, hhost⟩, rfl⟩, by rw [hs]; simp only [List.append_assoc], ?_⟩
          rw [List.length_append, List.length_append]
          change 12 + _ = 7 + (_ + 5)
          omega
        · cases h
      · cases h
    · rintro ⟨w, r, ⟨host, hhost, rfl⟩, rfl, rfl⟩
      have hs : str "http://" ++ (host ++ str ":5248") ++ r = str "http://" ++ (host ++ 58 :: (str "5248" ++ r)) := by
        simp only [List.append_assoc]
        rfl
      obtain ⟨hpre, htake, hdrop⟩ := host_eq hhost.2 (str "5248" ++ r)
      rw [hs, if_pos hpre]
      simp only [htake, hdrop]
      rw [if_pos ⟨hhost.1, rfl⟩, List.length_append, List.length_append]
      change some (12 + _) = some (7 + (_ + 5))
      exact congrArg some (by omega)
  ne_nil := by
    rintro w ⟨host, -, rfl⟩ h
    cases h

/-! ### Texts -/

instance (l : Bytes) : Decidable (IsMarkerLine l) := inferInstanceAs (Decidable (_ ∨ _))

/-- A text, in which no payload is looked for. -/
def IsText (s : Bytes) : Prop := ∀ l ∈ s.splitOn 10, ¬ IsMarkerLine l

instance (s : Bytes) : Decidable (IsText s) := List.decidableBAll _ _

/-- The rack's URLs come first, and the rewrites of the configuration see the result. -/
theorem applySubs_eq (u : Unicode) {baseURL : Bytes} (h : baseURL ≠ []) (rewrites : List Rewrite) (data : Bytes) :
    applySubs u baseURL rewrites data =
      applySubs u [] rewrites (replaceAll defaultRackURLRe (expand u baseURL) data) := by
  rw [applySubs, if_pos h]
  rfl

section Text

variable (u : Unicode) {R : Type} (gzip : Gzip) (tar : Tar R) (md5 : Bytes → Vector UInt8 16)

theorem rewriteData_text {body : Bytes} (hbody : IsText body) (base : Bytes) (rewrites : List Rewrite) :
    rewriteData u gzip tar md5 body base rewrites = some (.ok (applySubs u (trimRight base 47) rewrites body)) := by
  unfold rewriteData
  split
  · rename_i h
    rw [h, applySubs_nil]
  · have hrepack : repack gzip tar (applySubs u (trimRight base 47) rewrites) body = none := by
      simp only [repack, findIndex_payloadMarkerRe_eq_none hbody, Option.bind_eq_bind, Option.bind_none]
    simp only [hrepack]

theorem rewriteData_text_eq {body base : Bytes} (hbody : IsText body) (hne : trimRight base 47 ≠ [])
    (hdollar : 36 ∉ trimRight base 47) : rewriteData u gzip tar md5 body base [] =
      some (.ok (replaceAll defaultRackURLRe (fun _ => trimRight base 47) body)) := by
  rw [rewriteData_text u gzip tar md5 hbody, applySubs_eq u hne,
    show expand u (trimRight base 47) = fun _ => trimRight base 47 from funext (expand_of_notMem u hdollar)]
  rfl

end Text

/-! ### Where a copy of the base URL meets the text -/

/-- A slash, a space or a quote. -/
def isStop (c : UInt8) : Bool := c == 47 || (9 ≤ c && c ≤ 13) || c == 32 || c == 34 || c == 39 || c == 96

/-- Every URL of the rack is followed by a slash, a space, a quote or nothing. -/
def stopsBehindURLs (body : Bytes) : Bool :=
  body.tails.all fun s =>
    match defaultRackURLRe true s with
    | some n => (s.drop n).head?.all isStop
    | none => true

theorem isStop_behind_rackURL {body : Bytes} (h : stopsBehindURLs body = true) (w : Bytes) (c : UInt8)
    (hw : IsRackURL w) (hin : w ++ [c] <:+: body) : isStop c = true := by
  obtain ⟨a, b, rfl⟩ := hin
  have hmatch : defaultRackURLRe true (w ++ c :: b) = some w.length :=
    (defaultRackURLRe_matchesWords.eq_some_iff ..).mpr ⟨w, c :: b, hw, rfl, rfl⟩
  have hs := List.all_eq_true.mp h (w ++ c :: b) ((List.mem_tails _ _).mpr ⟨a, by simp⟩)
  rw [hmatch] at hs
  simpa using hs

theorem not_isStop_of_isHostByte {c : UInt8} (h : isHostByte c = true) : ¬ isStop c = true := by
  unfold isHostByte at h
  unfold isStop
  grind

private theorem not_isStop_of_all {s : Bytes} (h : s.all (fun d => !isStop d) = true) {c : UInt8} (hc : c ∈ s) :
    ¬ isStop c = true := by
  simpa using List.all_eq_true.mp h c hc

theorem not_isStop_of_isRackURL (c : UInt8) (w : Bytes) (h : IsRackURL (c :: w)) : ¬ isStop c = true := by
  obtain ⟨host, -, hw⟩ := h
  obtain rfl : c = 104 := (List.cons.inj hw).1
  decide

/-- The end of a URL of the rack begins in its host, or not with an `h`. -/
theorem isRackURL_suffix {a v : Bytes} (hw : IsRackURL (a ++ v)) (ha : a ≠ []) :
    (∃ h, (∀ c ∈ h, isHostByte c = true) ∧ v = h ++ str ":5248") ∨ v.head? ≠ some 104 := by
  obtain ⟨host, hhost, hw⟩ := hw
  -- it begins in the scheme, in the host or behind it
  rcases List.append_eq_append_iff.mp hw with ⟨b, hb, rfl⟩ | ⟨b, -, hb⟩
  · cases b with
    | nil => exact .inl ⟨host, hhost.2, rfl⟩
    | cons c b =>
      right
      cases a with
      | nil => exact absurd rfl ha
      | cons d a =>
        have htail : str "ttp://" = a ++ c :: b := (List.cons.inj hb).2
        have hc : c ∈ str "ttp://" := by
          rw [htail]
          exact List.mem_append_right _ List.mem_cons_self
        intro h
        obtain rfl : c = 104 := by simpa using h
        exact absurd hc (by decide)
  · rcases List.append_eq_append_iff.mp hb with ⟨d, rfl, hd⟩ | ⟨d, rfl, rfl⟩
    · right
      intro h
      obtain ⟨v, rfl⟩ := List.head?_eq_some_iff.mp h
      have hmem : (104 : UInt8) ∈ str ":5248" := by
        rw [hd]
        exact List.mem_append_right _ List.mem_cons_self
      exact absurd hmem (by decide)
    · exact .inl ⟨d, fun c hc => hhost.2 c (List.mem_append_right _ hc), rfl⟩

/-- A URL of the rack goes on with a slash only behind `http:` and `http:/`. -/
theorem isRackURL_stop {a v : Bytes} {c : UInt8} (hw : IsRackURL (a ++ c :: v)) (hc : isStop c = true) :
    a = str "http:" ∨ a = str "http:/" := by
  obtain ⟨host, hhost, hw⟩ := hw
  -- the slashes of the URL are those of its scheme
  have hrest : c ∉ host ++ str ":5248" := by
    intro hmem
    rcases List.mem_append.mp hmem with h | h
    · exact not_isStop_of_isHostByte (hhost.2 c h) hc
    · exact not_isStop_of_all (by decide) h hc
  have hslash : ∀ i < 7, (str "http://")[i]?.any isStop = true →
      (str "http://").take i = str "http:" ∨ (str "http://").take i = str "http:/" := by decide
  rcases List.append_eq_append_iff.mp hw with ⟨b, hb, hv⟩ | ⟨b, -, hb⟩
  · cases b with
    | nil => exact absurd (by rw [← List.nil_append (host ++ _), ← hv]; exact List.mem_cons_self) hrest
    | cons d b =>
      obtain rfl : c = d := (List.cons.inj hv).1
      have hlen : a.length < 7 := by
        have h := congrArg List.length hb
        rw [List.length_append, List.length_cons] at h
        change 7 = _ at h
        omega
      have h := hslash a.length hlen (by rw [hb]; simpa using hc)
      rwa [hb, List.take_left] at h
  · exact absurd (by rw [hb]; exact List.mem_append_right _ List.mem_cons_self) hrest

section Base

variable {t : Bytes} (hscheme : str "http://" <+: t ∨ str "https://" <+: t)
include hscheme

theorem exists_scheme (r : Bytes) : ∃ s y, t ++ r = 104 :: s ++ 58 :: 47 :: y ∧ 58 ∉ 104 :: s := by
  rcases hscheme with ⟨y, rfl⟩ | ⟨y, rfl⟩
  · exact ⟨str "ttp", 47 :: (y ++ r), rfl, by decide⟩
  · exact ⟨str "ttps", 47 :: (y ++ r), rfl, by decide⟩

/-- A URL of the rack does not go on with the beginning of the base URL. -/
theorem not_prefix_base (a v : Bytes) (hw : IsRackURL (a ++ v)) (ha : a ≠ []) (hv : v ≠ []) (r : Bytes) :
    ¬ v <+: t ++ r := by
  obtain ⟨s, y, ht, hs⟩ := exists_scheme hscheme r
  rintro ⟨z, hz⟩
  rw [ht] at hz
  rcases isRackURL_suffix hw ha with ⟨h, hhost, rfl⟩ | hhead
  · have hcolon : 58 ∉ h := fun hm => absurd (hhost 58 hm) (by decide)
    rw [List.append_assoc] at hz
    exact absurd (List.cons.inj (append_cons_cancel hcolon hs hz).2).1 (by decide)
  · cases v with
    | nil => exact hv rfl
    | cons c v => exact hhead (congrArg some (List.cons.inj hz).1)

theorem replaceAll_no_rackURL {body : Bytes} (hstops : stopsBehindURLs body = true)
    (hno : findIndex defaultRackURLRe t = none) (hend : ¬ str "http:" <:+ t) (hslash : ¬ str "/" <:+ t) :
    findIndex defaultRackURLRe (replaceAll defaultRackURLRe (fun _ => t) body) = none := by
  have hre := defaultRackURLRe_matchesWords
  rw [hre.findIndex_eq_none_iff] at hno ⊢
  refine hre.replaceAll_no_word not_isStop_of_isRackURL hre.ne_nil (not_prefix_base hscheme) hno ?_
    (isStop_behind_rackURL hstops) fun v r hv _ => ⟨v, hv, List.prefix_append ..⟩
  intro a c v hw _ hsuffix hc
  rcases isRackURL_stop hw hc with rfl | rfl
  · exact hend hsuffix
  · exact hslash (List.IsSuffix.trans (by decide) hsuffix)

end Base

/-! ### Marker lines -/

private theorem notMem_of_isMarkerLine {l : Bytes} (h : IsMarkerLine l) : 10 ∉ l ∧ 104 ∉ l := by
  rcases h with rfl | rfl <;> decide

/-- A marker line with its newlines goes on with a space only where it is complete. -/
theorem isMarkerLine_stop {a v l : Bytes} {c : UInt8} (hl : IsMarkerLine l) (ha : a ≠ [])
    (h : a ++ c :: v = 10 :: (l ++ [10])) (hc : isStop c = true) : ∃ l', IsMarkerLine l' ∧ a = 10 :: l' := by
  cases a with
  | nil => exact absurd rfl ha
  | cons d a =>
    rw [List.cons_append, List.cons.injEq] at h
    obtain ⟨rfl, h⟩ := h
    refine ⟨a, ?_, rfl⟩
    -- behind the marker there is a newline, perhaps with a carriage return
    obtain ⟨q, hq, hlq⟩ : ∃ q, (q = [10] ∨ q = [13, 10]) ∧ l ++ [10] = payloadMarker ++ q := by
      rcases hl with rfl | rfl
      · exact ⟨[10], .inl rfl, rfl⟩
      · exact ⟨[13, 10], .inr rfl, by rw [List.append_assoc]; rfl⟩
    rw [hlq] at h
    rcases List.append_eq_append_iff.mp h with ⟨x, hx, hv⟩ | ⟨x, rfl, hx⟩
    · cases x with
      | nil => exact .inl (by rw [hx, List.append_nil])
      | cons e x =>
        obtain rfl : c = e := (List.cons.inj hv).1
        have hmem : c ∈ payloadMarker := by
          rw [hx]
          exact List.mem_append_right _ List.mem_cons_self
        exact absurd hc (not_isStop_of_all (by decide) hmem)
    · cases x with
      | nil => exact .inl (List.append_nil _)
      | cons e x =>
        rcases hq with rfl | rfl
        · simp at hx
        · cases x with
          | nil => exact .inr (by rw [(List.cons.inj hx).1])
          | cons f x => simp at hx

/-- A marker line with the newlines around it. -/
def IsMarkerWord (v : Bytes) : Prop := ∃ l, IsMarkerLine l ∧ v = 10 :: (l ++ [10])

theorem isText_iff (s : Bytes) : IsText s ↔ ∀ v, IsMarkerWord v → ¬ v <:+: 10 :: (s ++ [10]) := by
  constructor
  · rintro hs v ⟨l, hl, rfl⟩ hin
    exact hs l ((mem_splitOn_iff_between (notMem_of_isMarkerLine hl).1 s).mpr hin) hl
  · intro h l hl hmark
    exact h _ ⟨l, hmark, rfl⟩ ((mem_splitOn_iff_between (notMem_of_isMarkerLine hmark).1 s).mp hl)

theorem newline_notMem_rackURL (w : Bytes) (hw : IsRackURL w) : 10 ∉ w := by
  obtain ⟨host, hhost, rfl⟩ := hw
  simp only [List.mem_append, not_or]
  exact ⟨by decide, fun h => absurd (hhost.2 10 h) (by decide), by decide⟩

theorem not_prefix_cons_of_isStop {w : Bytes} (hw : IsRackURL w) {c : UInt8} (hc : isStop c = true) (r : Bytes) :
    ¬ w <+: c :: r := by
  rintro ⟨z, hz⟩
  cases w with
  | nil => exact defaultRackURLRe_matchesWords.ne_nil [] hw rfl
  | cons d w =>
    obtain rfl : d = c := (List.cons.inj hz).1
    exact not_isStop_of_isRackURL d w hw hc

/-- A copy of a base URL without a marker line makes no marker line. -/
theorem isText_replaceAll {t body : Bytes} (hhead : t.head? = some 104) (ht : IsText t) (hbody : IsText body)
    (hstops : stopsBehindURLs body = true) : IsText (replaceAll defaultRackURLRe (fun _ => t) body) := by
  have hre := defaultRackURLRe_matchesWords
  rw [isText_iff] at ht hbody ⊢
  have hbrackets : 10 :: (replaceAll defaultRackURLRe (fun _ => t) body ++ [10]) =
      replaceAll defaultRackURLRe (fun _ => t) (10 :: (body ++ [10])) := by
    rw [hre.replaceAll_copy fun w hw => not_prefix_cons_of_isStop hw (by decide) _,
      hre.replaceAll_concat newline_notMem_rackURL]
  rw [hbrackets]
  refine hre.replaceAll_no_word not_isStop_of_isRackURL ?_ ?_ ?_ ?_ ?_ ?_
  · rintro v ⟨l, -, rfl⟩ h
    cases h
  · -- A marker line has no `h`, with which the base URL begins.
    rintro a v ⟨l, hl, hv⟩ - hne r ⟨z, hz⟩
    obtain ⟨t, rfl⟩ := List.head?_eq_some_iff.mp hhead
    cases v with
    | nil => exact hne rfl
    | cons c v =>
      obtain rfl : c = 104 := (List.cons.inj hz).1
      have hmem : (104 : UInt8) ∈ 10 :: (l ++ [10]) := by
        rw [← hv]
        exact List.mem_append_right _ List.mem_cons_self
      simp [(notMem_of_isMarkerLine hl).2] at hmem
  · intro v hv hin
    exact ht v hv (hin.trans ((List.prefix_append t [10]).isInfix.trans (List.suffix_cons 10 _).isInfix))
  · rintro a c v ⟨l, hl, hv⟩ ha ⟨b, rfl⟩ hc
    obtain ⟨l', hl', rfl⟩ := isMarkerLine_stop hl ha hv hc
    exact ht _ ⟨l', hl', rfl⟩ ⟨10 :: b, [], by simp⟩
  · intro w c hw hin
    rw [List.infix_cons_iff, List.infix_concat_iff] at hin
    rcases hin with hin | hin | hin
    · exact absurd ((List.prefix_append w [c]).trans hin) (not_prefix_cons_of_isStop hw (by decide) _)
    · obtain ⟨b, hb⟩ := hin
      rw [← List.append_assoc] at hb
      obtain rfl : c = 10 := (List.append_singleton_inj.mp hb).2
      decide
    · exact isStop_behind_rackURL hstops w c hw hin
  · intro v r hv hsuffix
    exact absurd ((List.prefix_append v r).isInfix.trans hsuffix.isInfix) (hbody v hv)

/-! ### No URL of the rack survives -/

section Survive

variable (u : Unicode) {R : Type} (gzip : Gzip) (tar : Tar R) (md5 : Bytes → Vector UInt8 16) {body base : Bytes}

/-- Let every URL of the rack in a text be followed by a slash, a space, a quote or nothing, and let the base URL,
without slashes at its end, begin with `http://` or `https://`, have no dollar sign and no URL of the rack, and not
end with `http:`.  Then the rewritten text has no URL of the rack, and if the base URL has no marker line it stays
as it is when it is rewritten again. -/
theorem rewriteData_no_rackURL (hbody : IsText body) (hstops : stopsBehindURLs body = true)
    (hscheme : str "http://" <+: trimRight base 47 ∨ str "https://" <+: trimRight base 47)
    (hdollar : 36 ∉ trimRight base 47) (hno : findIndex defaultRackURLRe (trimRight base 47) = none)
    (hend : ¬ str "http:" <:+ trimRight base 47) :
    ∃ out, rewriteData u gzip tar md5 body base [] = some (.ok out) ∧ findIndex defaultRackURLRe out = none ∧
      (IsText (trimRight base 47) → rewriteData u gzip tar md5 out base [] = some (.ok out)) := by
  have hhead : (trimRight base 47).head? = some 104 := by
    rcases hscheme with ⟨s, hs⟩ | ⟨s, hs⟩ <;> rw [← hs] <;> rfl
  have hne : trimRight base 47 ≠ [] := by
    intro h
    rw [h] at hhead
    cases hhead
  have hclean := replaceAll_no_rackURL hscheme hstops hno hend (not_suffix_trimRight base 47)
  refine ⟨_, rewriteData_text_eq u gzip tar md5 hbody hne hdollar, hclean, fun hbase => ?_⟩
  have hout := isText_replaceAll hhead hbase hbody hstops
  rw [rewriteData_text_eq u gzip tar md5 hout hne hdollar]
  exact congrArg (fun s => some (Except.ok s)) (replaceGo_of_findGo hclean)

end Survive

theorem rewriteData_no_rackURL_preseed :
    ∃ out, rewriteData .asciiOnly Plain.gzip Plain.tar (fun _ => Vector.replicate 16 0)
        (str "url: 'http://192.0.2.57:5248/MAAS'\n") (str "https://maas.example/boot/") [] = some (.ok out) ∧
      findIndex defaultRackURLRe out = none ∧
      (IsText (trimRight (str "https://maas.example/boot/") 47) →
        rewriteData .asciiOnly Plain.gzip Plain.tar (fun _ => Vector.replicate 16 0) out
          (str "https://maas.example/boot/") [] = some (.ok out)) :=
  rewriteData_no_rackURL _ _ _ _ (by decide) (by decide) (by decide) (by decide) (by decide) (by decide)

/-! ### A base URL with a payload -/

/-- Base64 with a newline before it and a space behind it. -/
theorem base64Decode_stripSpace_between (g : Bytes) :
    base64Decode (stripSpace (10 :: (base64Encode g ++ str " "))) = some g := by
  have hchars : ∀ c ∈ 10 :: base64Encode g, c = 10 ∨ isBase64Char c = true := by
    intro c hc
    rcases List.mem_cons.mp hc with rfl | hc
    · exact .inl rfl
    · exact .inr (isBase64Char_of_mem hc)
  have hascii : IsAscii (10 :: base64Encode g) := by
    intro c hc
    rcases hchars c hc with rfl | h
    · decide
    · exact (base64Char_range h).2
  have hspace : stripSpace (10 :: (base64Encode g ++ str " ")) = stripSpace (10 :: base64Encode g) := by
    have hascii' : IsAscii (10 :: base64Encode g ++ str " ") := by
      intro c hc
      rcases List.mem_append.mp hc with hc | hc
      · exact hascii c hc
      · obtain rfl : c = 32 := by simpa [show str " " = [32] from rfl] using hc
        decide
    unfold stripSpace
    rw [← List.cons_append, runes_ascii hascii', runes_ascii hascii, List.map_append, List.filter_append,
      show ((str " ").map UInt8.toNat).filter (fun r => !(r == 32 || r == 9 || r == 13 || r == 10)) = [] by decide,
      List.append_nil]
  rw [hspace, stripSpace_eq_filter hchars, List.filter_cons_of_neg (by decide), List.filter_eq_self.mpr,
    base64Decode_base64Encode]
  intro c hc
  have hc10 : c ≠ 10 := fun h => newline_not_mem_base64Encode g (h ▸ hc)
  simpa using hc10

/-- A base URL with a newline and a payload behind it. -/
def payloadBase (g : Bytes) : Bytes := str "http://maas\n_____PAYLOAD_____\n" ++ (base64Encode g ++ str " ")

section PayloadBase

variable (g : Bytes)

theorem dollar_notMem_payloadBase : 36 ∉ payloadBase g := by
  unfold payloadBase
  rw [List.mem_append, List.mem_append]
  rintro (h | h | h)
  · exact absurd h (by decide)
  · exact absurd (isBase64Char_of_mem h) (by decide)
  · exact absurd h (by decide)

theorem findIndex_payloadBase : findIndex defaultRackURLRe (payloadBase g) = none := by
  rw [defaultRackURLRe_matchesWords.findIndex_eq_none_iff]
  rintro w ⟨host, -, rfl⟩ hin
  -- a URL of the rack has two colons
  have hcount := hin.sublist.count_le 58
  have hbase : (base64Encode g).count 58 = 0 :=
    List.count_eq_zero.mpr fun h => absurd (isBase64Char_of_mem h) (by decide)
  simp only [payloadBase, List.count_append, hbase] at hcount
  have h₁ : (str "http://").count 58 = 1 := by decide
  have h₂ : (str ":5248").count 58 = 1 := by decide
  have h₃ : (str "http://maas\n_____PAYLOAD_____\n").count 58 = 1 := by decide
  have h₄ : (str " ").count 58 = 0 := by decide
  omega

theorem getLast?_of_suffix_payloadBase {s : Bytes} (hs : s <:+ payloadBase g) (hne : s ≠ []) :
    s.getLast? = some 32 := by
  obtain ⟨a, ha⟩ := hs
  have hlast : (a ++ s).getLast? = some 32 := by
    rw [ha, payloadBase, ← List.append_assoc]
    exact List.getLast?_concat
  rwa [List.getLast?_append_of_ne_nil a hne] at hlast

theorem trimRight_payloadBase : trimRight (payloadBase g) 47 = payloadBase g := by
  unfold payloadBase trimRight
  rw [← List.append_assoc]
  exact List.rdropWhile_concat_neg _ _ _ (by decide)

end PayloadBase

section Packed

variable {R : Type} {gzip : Gzip} {tar : Tar R} {archive g : Bytes}
    (harchive : tar.close tar.newWriter = some archive)
  (hg : gzip.compress archive = some g) (hmagic : [0x1F, 0x8B] <+: g)
include harchive hg hmagic

/-- The archive without entries is packed again as it is. -/
theorem repack_payloadBase (sub : Bytes → Bytes) :
    repack gzip tar sub (payloadBase g) = some (str "http://maas\n", g) := by
  have hnone : tar.writeEntries tar.newWriter [] = some tar.newWriter := rfl
  exact (repack_eq_some_iff gzip tar sub _ _ _).mpr ⟨[], 12, 29, g, { data := archive }, tar.newWriter, archive, rfl,
    rfl, base64Decode_stripSpace_between g, hmagic, gzip.newReader_compress hg, tar.read_close hnone harchive, hnone,
    harchive,
    hg⟩

end Packed

/-- With such a base URL the rewritten text is an archive, here one without entries.  It is packed again, with a
newline at its end. -/
theorem rewriteData_payloadBase :
    (∀ {R : Type} (u : Unicode) (gzip : Gzip) (tar : Tar R) (md5 : Bytes → Vector UInt8 16) {archive g : Bytes},
      tar.close tar.newWriter = some archive → gzip.compress archive = some g → [0x1F, 0x8B] <+: g →
      let body := str "http://10.0.0.1:5248"
      let base := payloadBase g
      IsText body ∧ stopsBehindURLs body = true ∧ trimRight base 47 = base ∧ str "http://" <+: base ∧ 36 ∉ base ∧
        findIndex defaultRackURLRe base = none ∧ ¬ str "http:" <:+ base ∧
        rewriteData u gzip tar md5 body base [] = some (.ok base) ∧
        rewriteData u gzip tar md5 base base [] ≠ some (.ok base)) ∧
    ∃ archive g, Plain.tar.close Plain.tar.newWriter = some archive ∧ Plain.gzip.compress archive = some g ∧
      [0x1F, 0x8B] <+: g := by
  refine ⟨?_, [], _, rfl, rfl, by decide⟩
  intro R u gzip tar md5 archive g harchive hg hmagic body base
  have hbody : IsText body := by decide
  refine ⟨hbody, by decide, trimRight_payloadBase g, List.prefix_append (str "http://") _,
    dollar_notMem_payloadBase g, findIndex_payloadBase g, ?_, ?_, ?_⟩
  · intro h
    exact absurd (getLast?_of_suffix_payloadBase g h (by decide)) (by decide)
  · rw [rewriteData_text_eq u gzip tar md5 hbody, trimRight_payloadBase]
    · exact congrArg (fun s => some (Except.ok s)) (List.append_nil base)
    · rw [trimRight_payloadBase]
      exact List.cons_ne_nil _ _
    · rw [trimRight_payloadBase]
      exact dollar_notMem_payloadBase g
  · intro h
    have hsuffix := newline_suffix_of_repack gzip tar u md5 (repack_payloadBase harchive hg hmagic _) h
    exact absurd (getLast?_of_suffix_payloadBase g hsuffix (by decide)) (by decide)

/-! ### Ports -/

/-- The port of the URL `http://host:port` at the start of a text: all digits behind the colon. -/
def portAt (s : Bytes) : Option Bytes :=
  if (str "http://").isPrefixOf s then
    let host := (s.drop 7).takeWhile isHostByte
    let rest := s.drop (7 + host.length)
    if host ≠ [] ∧ rest.head? = some 58 then some (rest.tail.takeWhile isDigit) else none
  else none

/-- The ports of all URLs in a text. -/
def urlPorts (s : Bytes) : List Bytes := s.tails.filterMap portAt

theorem portAt_eq_some_iff (s port : Bytes) : portAt s = some port ↔
    ∃ host r, IsHost host ∧ s = str "http://" ++ (host ++ 58 :: r) ∧ port = r.takeWhile isDigit := by
  unfold portAt
  constructor
  · intro h
    split at h
    · rename_i hpre
      obtain ⟨host, rest, hs, htake, hdrop, hhost⟩ := exists_host hpre
      simp only [htake, hdrop] at h
      split at h
      · rename_i hmatch
        obtain ⟨r, rfl⟩ := List.head?_eq_some_iff.mp hmatch.2
        obtain rfl := Option.some.inj h
        exact ⟨host, r, ⟨hmatch.1, hhost⟩, hs, rfl⟩
      · cases h
    · cases h
  · rintro ⟨host, r, hhost, rfl, rfl⟩
    obtain ⟨hpre, htake, hdrop⟩ := host_eq hhost.2 r
    rw [if_pos hpre]
    simp only [htake, hdrop]
    rw [if_pos ⟨hhost.1, rfl⟩]
    rfl

example : urlPorts (str "http://10.0.0.1:5240/MAAS https://10.0.0.1:5248/ http://10.0.0.1:5248 http://x/") =
    [str "5240", str "5248"] := by decide

/-- The pattern matches where a port begins with 5248. -/
theorem exists_rackURL_iff (s : Bytes) :
    (∃ w, IsRackURL w ∧ w <+: s) ↔ ∃ port, portAt s = some port ∧ str "5248" <+: port := by
  constructor
  · rintro ⟨w, ⟨host, hhost, rfl⟩, r, rfl⟩
    refine ⟨(str "5248" ++ r).takeWhile isDigit, (portAt_eq_some_iff ..).mpr ⟨host, str "5248" ++ r, hhost, ?_, rfl⟩,
      ?_⟩
    · simp only [List.append_assoc]
      rfl
    · rw [List.takeWhile_append_of_pos (List.all_eq_true.mp (by decide))]
      exact List.prefix_append ..
  · rintro ⟨port, hport, hpre⟩
    obtain ⟨host, r, hhost, rfl, rfl⟩ := (portAt_eq_some_iff ..).mp hport
    obtain ⟨z, rfl⟩ := hpre.trans (List.takeWhile_prefix isDigit)
    refine ⟨_, ⟨host, hhost, rfl⟩, z, ?_⟩
    simp only [List.append_assoc]
    rfl

theorem findIndex_eq_none_iff_urlPorts (s : Bytes) :
    findIndex defaultRackURLRe s = none ↔ ∀ port ∈ urlPorts s, ¬ str "5248" <+: port := by
  rw [defaultRackURLRe_matchesWords.findIndex_eq_none_iff]
  constructor
  · intro h port hport hpre
    obtain ⟨x, hx, hat⟩ := List.mem_filterMap.mp hport
    obtain ⟨w, hw, hbegin⟩ := (exists_rackURL_iff x).mpr ⟨port, hat, hpre⟩
    exact h w hw (hbegin.isInfix.trans ((List.mem_tails _ _).mp hx).isInfix)
  · intro h w hw hin
    obtain ⟨x, hbegin, hsuffix⟩ := List.infix_iff_prefix_suffix.mp hin
    obtain ⟨port, hat, hpre⟩ := (exists_rackURL_iff x).mp ⟨w, hw, hbegin⟩
    exact h port (List.mem_filterMap.mpr ⟨x, (List.mem_tails _ _).mpr hsuffix, hat⟩) hpre

section Ports

variable (u : Unicode) {R : Type} (gzip : Gzip) (tar : Tar R) (md5 : Bytes → Vector UInt8 16)

/-- A text in which no URL has the port 5248 stays as it is, for every base URL, if and only if no port begins with
5248 either. -/
theorem rewriteData_ports_iff {body : Bytes} (hbody : IsText body) :
    (∀ base, str "5248" ∉ urlPorts body → rewriteData u gzip tar md5 body base [] = some (.ok body)) ↔
      str "5248" ∈ urlPorts body ∨ ∀ port ∈ urlPorts body, ¬ str "5248" <+: port := by
  rw [← findIndex_eq_none_iff_urlPorts]
  constructor
  · intro h
    by_cases hport : str "5248" ∈ urlPorts body
    · exact .inl hport
    · -- A base URL of one byte makes the text shorter.
      right
      have hbase := h (str "x") hport
      rw [rewriteData_text_eq u gzip tar md5 hbody (by decide) (by decide), Option.some.injEq,
        Except.ok.injEq] at hbase
      refine defaultRackURLRe_matchesWords.findIndex_of_replaceAll_eq ?_ hbase
      rintro w ⟨host, -, rfl⟩
      rw [List.length_append]
      change 1 < 7 + _
      omega
  · rintro (hport | hnone) base hno
    · exact absurd hport hno
    · rw [rewriteData_text u gzip tar md5 hbody]
      by_cases hbase : trimRight base 47 = []
      · rw [hbase]
        rfl
      · rw [applySubs_eq u hbase, show replaceAll defaultRackURLRe (expand u (trimRight base 47)) body = body from
          replaceGo_of_findGo hnone]
        rfl

end Ports

theorem rewriteData_ports_other :
    rewriteData .asciiOnly Plain.gzip Plain.tar (fun _ => Vector.replicate 16 0) (str "http://192.0.2.57:5240/MAAS")
      (str "http://maas.example/boot") [] = some (.ok (str "http://192.0.2.57:5240/MAAS")) :=
  (rewriteData_ports_iff _ _ _ _ (by decide)).mpr (.inr (by decide)) _ (by decide)

/-- The port 52480 becomes a part of the path. -/
theorem rewriteData_longer_port :
    str "5248" ∉ urlPorts (str "http://192.0.2.57:52480/x") ∧
    rewriteData .asciiOnly Plain.gzip Plain.tar (fun _ => Vector.replicate 16 0) (str "http://192.0.2.57:52480/x")
      (str "http://maas.example/boot") [] = some (.ok (str "http://maas.example/boot0/x")) := by
  decide

end MaasBoot
