import MaasBoot.ConfigReload
import MaasBoot.IpxeConfig
import MaasBoot.Lib.Url

/-!
# Which requests the proxy answers, and what it forwards

`ServeHTTP` serves three kinds of paths itself and forwards all others to the rack.  The URL of the forwarded
request is put together from the path of the request, which `net/http` has unescaped, and parsed again.  Parsing
unescapes the path a second time and cuts it at a question mark or a hash sign, so the rack is asked for the same
path only if the path has none of these characters (`route_forwards_iff`).
-/

namespace MaasBoot

open Url

/-! ### Paths -/

def bondOverlayPath : Bytes := str "/bond-overlay.cpio.gz"

def genericISOPath : Bytes := str "/generic-boot.iso"

/-- The group of the pattern `^/iso/([0-9A-Fa-f:.-]+?)(?:\.iso)?$`, whose repetition takes as little as it can. -/
def isoRe (path : Bytes) : Option Bytes :=
  if str "/iso/" <+: path then
    let x := path.drop 5
    ((List.range' 1 x.length).find? fun n =>
      (x.take n).all isMacByte && (x.drop n == str ".iso" || x.drop n == [])).map x.take
  else none

example : isoRe (str "/iso/02:5e:1c:9a:47:d3.iso") = some (str "02:5e:1c:9a:47:d3") ∧
    isoRe (str "/iso/025e.1c9a.47d3") = some (str "025e.1c9a.47d3") ∧ isoRe (str "/iso/.iso") = none := by decide

/-! ### Requests -/

/-- What `ServeHTTP` reads of a request; `net/http` has unescaped the path once. -/
structure Request where
  path : Bytes
  rawQuery : Bytes := []
  host : Bytes := []

/-- What becomes of a request. -/
inductive Route where
  | genericISO
  | overlay
  | nodeISO (rawMAC : Bytes)
  /-- `503`, as there is no rack to forward to. -/
  | noUpstream
  | upstream (genesisMAC upURL : Bytes)
  deriving DecidableEq

/-- The MAC address in the query and the query that is forwarded. -/
def upstreamQuery (u : Unicode) (rawQuery : Bytes) : Bytes × Bytes :=
  if rawQuery = [] then ([], rawQuery)
  else
    let q := parseQuery rawQuery
    let g := q.get (str "genesis")
    if g ≠ [] then (toLower u g, (q.del (str "genesis")).encode) else ([], rawQuery)

def upstreamURL (rackUpstream upPath upQuery : Bytes) : Bytes :=
  trimRight rackUpstream 47 ++ upPath ++ if upQuery ≠ [] then str "?" ++ upQuery else []

/-- The cases of `ServeHTTP`. -/
def route (u : Unicode) (cfg : Config) (r : Request) : Route :=
  if r.path = genericISOPath then .genericISO
  else if r.path = overlayPath ∨ r.path = bondOverlayPath then .overlay
  else
    match isoRe r.path with
    | some rawMAC => .nodeISO rawMAC
    | none =>
      if cfg.rackUpstream = [] then .noUpstream
      else
        let (genesisMAC, upQuery) := upstreamQuery u r.rawQuery
        .upstream genesisMAC (upstreamURL cfg.rackUpstream r.path upQuery)

/-- The paths the proxy serves itself. -/
def ServedLocally (path : Bytes) : Prop :=
  path = genericISOPath ∨ path = overlayPath ∨ path = bondOverlayPath ∨ (isoRe path).isSome

instance (path : Bytes) : Decidable (ServedLocally path) := inferInstanceAs (Decidable (_ ∨ _ ∨ _ ∨ _))

theorem route_of_not_servedLocally (u : Unicode) {cfg : Config} {r : Request} (hr : ¬ ServedLocally r.path)
    (hup : cfg.rackUpstream ≠ []) : route u cfg r = .upstream (upstreamQuery u r.rawQuery).1
      (upstreamURL cfg.rackUpstream r.path (upstreamQuery u r.rawQuery).2) := by
  simp only [ServedLocally, not_or, Option.not_isSome_iff_eq_none] at hr
  obtain ⟨hgeneric, hoverlay, hbond, hiso⟩ := hr
  unfold route
  rw [if_neg hgeneric, if_neg (by simp [hoverlay, hbond]), hiso]
  dsimp only
  rw [if_neg hup]

theorem isoRe_of_route {u : Unicode} {cfg : Config} {r : Request} {rawMAC : Bytes}
    (h : route u cfg r = .nodeISO rawMAC) : isoRe r.path = some rawMAC := by
  unfold route at h
  split at h
  · cases h
  split at h
  · cases h
  cases hiso : isoRe r.path with
  | some mac =>
    rw [hiso] at h
    cases h
    rfl
  | none =>
    rw [hiso] at h
    dsimp only at h
    split at h <;> cases h

/-! ### The rack -/

/-- `http://host:port` with any number of slashes behind it. -/
def IsUpstream (base : Bytes) : Prop := ∃ a n, base = str "http://" ++ a ++ List.replicate n 47 ∧ IsHostPort a

/-- The condition on the path of a request under which it is forwarded as it is. -/
def PlainPath (p : Bytes) : Prop :=
  (p = [] ∨ p.head? = some 47) ∧ ∀ c ∈ p, c ≠ 37 ∧ c ≠ 63 ∧ c ≠ 35 ∧ isCTL c = false

/-- The condition on the query.  A query with a MAC address is encoded again.  Any other is forwarded as it is; up
to a hash sign it must not have control characters, and what is behind one, which is a fragment, must be well
escaped; a query without the parameter `genesis` must not have a hash sign at all. -/
def PlainQuery (q : Bytes) : Prop :=
  (parseQuery q).get (str "genesis") ≠ [] ∨
    ((cut 35 q).1.any isCTL = false ∧ (unescape .fragment (cut 35 q).2).isSome ∧
      ((parameters q).has (str "genesis") = true ∨ 35 ∉ q))

private theorem trimRight_slashes (s : Bytes) (n : Nat) :
    trimRight (s ++ List.replicate n 47) 47 = trimRight s 47 := by
  induction n with
  | zero => simp
  | succ n ih =>
    rw [List.replicate_succ', ← List.append_assoc]
    unfold trimRight at ih ⊢
    rw [List.rdropWhile_concat_pos _ _ _ (by decide), ih]

theorem trimRight_upstream {a : Bytes} (ha : IsHostPort a) (n : Nat) :
    trimRight (str "http://" ++ a ++ List.replicate n 47) 47 = str "http://" ++ a := by
  have hne : a ≠ [] := by
    obtain ⟨host, port, rfl, -⟩ := ha
    simp
  rw [trimRight_slashes]
  unfold trimRight
  refine (List.rdropWhile_eq_self_iff ..).mpr fun hs hlast => ?_
  have hmem := List.getLast_mem hne
  rw [List.getLast_append_of_ne_nil _ hne, beq_iff_eq] at hlast
  rw [hlast] at hmem
  exact ((isHostByte_classes 47).2.2 (ha.isHostByte hmem)).2.1 rfl

/-! ### Parsing the URL again -/

/-- The text in which the path of the parsed URL stands. -/
private theorem cut_cut (s : Bytes) : (cut 63 (cut 35 s).1).1 = s.takeWhile fun c => c != 63 && c != 35 :=
  (List.takeWhile_takeWhile _ _ _).trans (by simp only [Bool.decide_and, Bool.decide_eq_true])

private theorem takeWhile_path (p upQuery : Bytes) :
    (p ++ if upQuery ≠ [] then str "?" ++ upQuery else []).takeWhile (fun c => c != 63 && c != 35) =
      p.takeWhile fun c => c != 63 && c != 35 := by
  have h63 : str "?" = [63] := by decide
  rw [h63]
  induction p with
  | nil =>
    split <;> simp
  | cons c p ih =>
    rw [List.cons_append, List.takeWhile_cons, List.takeWhile_cons, ih]

section Authority

variable {a : Bytes} (ha : IsHostPort a)
include ha

/-- A plain path comes out as it went in, and the query up to a hash sign. -/
theorem parse_plainPath {p : Bytes} (hp : PlainPath p) (upQuery : Bytes) :
    parse (str "http://" ++ (a ++ (p ++ if upQuery ≠ [] then str "?" ++ upQuery else []))) =
      if (cut 35 upQuery).1.any isCTL then none
      else (unescape .fragment (cut 35 upQuery).2).map fun fragment =>
        { scheme := str "http", host := a, path := p, rawQuery := (cut 35 upQuery).1, fragment := fragment } := by
  obtain ⟨h35, h63, h47, hctl⟩ := ha.notMem
  obtain ⟨hstart, hbytes⟩ := hp
  have hp35 : 35 ∉ p := fun h => (hbytes _ h).2.2.1 rfl
  have hp63 : 63 ∉ p := fun h => (hbytes _ h).2.1 rfl
  have hp37 : 37 ∉ p := fun h => (hbytes _ h).1 rfl
  have hpctl : p.any isCTL = false := by
    simp only [List.any_eq_false]
    exact fun c hc => by simp [(hbytes c hc).2.2.2]
  have hpath : unescape .path p = some p := unescape_eq_self (by decide) hp37 fun _ _ => rfl
  have ha47 : ∀ c ∈ a, (c != 47) = true := fun c hc => by simpa using fun he : c = 47 => h47 (he ▸ hc)
  have hstart' : p.takeWhile (· != 47) = [] ∧ p.dropWhile (· != 47) = p := by
    rcases hstart with rfl | hstart
    · exact ⟨rfl, rfl⟩
    · obtain ⟨p, rfl⟩ := List.head?_eq_some_iff.mp hstart
      exact ⟨rfl, rfl⟩
  have hq : str "?" = [63] := by decide
  rw [parse_http, cut_append h35, cut_append hp35, hq]
  by_cases hne : upQuery = []
  · subst hne
    have hnil : ∀ c : UInt8, cut c [] = ([], []) := fun _ => rfl
    simp only [ne_eq, not_true_eq_false, if_false, hnil, List.append_nil, List.any_append, hctl, hpctl, List.any_nil,
      Bool.or_self, Bool.false_eq_true, cut_append h63, cut_of_notMem hp63, List.takeWhile_append_of_pos ha47,
      List.dropWhile_append_of_pos ha47, hstart', ha.parseAuthority_eq, hpath, Option.bind_some]
  · have hcut : cut 35 ([63] ++ upQuery) = (63 :: (cut 35 upQuery).1, (cut 35 upQuery).2) := cut_append (by decide) _
    have hctl63 : isCTL 63 = false := by decide
    simp only [ne_eq, hne, not_false_eq_true, if_true, hcut, List.any_append, hctl, hpctl, List.any_cons, hctl63,
      Bool.false_or, cut_append h63, cut_append hp63, cut_cons, List.append_nil, List.takeWhile_append_of_pos ha47,
      List.dropWhile_append_of_pos ha47, hstart', ha.parseAuthority_eq, hpath, Option.bind_some]

/-- A path that comes out as it went in is plain. -/
theorem plainPath_of_parse {p upQuery : Bytes} {url : URL}
    (h : parse (str "http://" ++ (a ++ (p ++ if upQuery ≠ [] then str "?" ++ upQuery else []))) = some url)
    (hpath : url.path = p) : PlainPath p := by
  obtain ⟨h35, h63, h47, -⟩ := ha.notMem
  have ha47 : ∀ c ∈ a, (c != 47) = true := fun c hc => by simpa using fun he : c = 47 => h47 (he ▸ hc)
  have htake := takeWhile_path p upQuery
  generalize (if upQuery ≠ [] then str "?" ++ upQuery else []) = tail at h htake
  rw [parse_http, cut_append h35] at h
  dsimp only at h
  split at h
  · cases h
  rename_i hctl
  obtain ⟨auth, hauth, h⟩ := Option.bind_eq_some_iff.mp h
  obtain ⟨path, hun, h⟩ := Option.bind_eq_some_iff.mp h
  obtain ⟨fragment, -, rfl⟩ := Option.map_eq_some_iff.mp h
  obtain rfl : path = p := hpath
  rw [cut_append h63, cut_cut, htake, List.dropWhile_append_of_pos ha47] at hun
  -- every cut and every escape would have made the path shorter
  obtain ⟨hle, hlt⟩ := length_unescape hun
  have hpre := List.takeWhile_prefix (fun c : UInt8 => c != 63 && c != 35) (l := path)
  have hsuf := List.dropWhile_suffix (fun c : UInt8 => c != 47) (l := path.takeWhile fun c => c != 63 && c != 35)
  have hle₁ := hpre.length_le
  have hle₂ := hsuf.length_le
  have hdrop := hsuf.eq_of_length (by omega)
  have hall := hpre.eq_of_length (by omega)
  rw [hall] at hdrop hlt
  have hplain := List.takeWhile_eq_self_iff.mp hall
  have h35p : 35 ∉ path := fun h35p => by simpa using hplain _ h35p
  rw [cut_append h35p, List.any_append, List.any_append] at hctl
  refine ⟨?_, fun c hc => ⟨?_, ?_, ?_, ?_⟩⟩
  · cases path with
    | nil => exact .inl rfl
    | cons d path =>
      have hd := List.dropWhile_eq_self_iff.mp hdrop (Nat.zero_lt_succ _)
      exact .inr (by simpa using hd)
  · rintro rfl
    rw [hdrop] at hlt
    exact absurd (hlt hc) (lt_irrefl _)
  · rintro rfl
    simpa using hplain _ hc
  · rintro rfl
    exact h35p hc
  · by_contra hcc
    have : path.any isCTL = true := List.any_eq_true.mpr ⟨c, hc, by simpa using hcc⟩
    simp [this] at hctl

end Authority

/-! ### What the rack is asked for -/

private theorem isCTL_of_isQueryByte {c : UInt8} (h : isQueryByte c = true) : c ≠ 35 ∧ isCTL c = false := by
  have hall : ∀ c : UInt8, isQueryByte c = true → c ≠ 35 ∧ isCTL c = false := forall_byte (by decide +kernel)
  exact hall c h

/-- An encoded query has no hash sign and no control characters. -/
private theorem encode_plain (v : Values) : 35 ∉ v.encode ∧ v.encode.any isCTL = false := by
  have hbytes := fun c hc => isCTL_of_isQueryByte (isQueryByte_of_mem_encode (v := v) (c := c) hc)
  refine ⟨fun h => (hbytes _ h).1 rfl, ?_⟩
  simp only [List.any_eq_false]
  exact fun c hc => by simp [(hbytes c hc).2]

/-- A query without a MAC address is forwarded as it is. -/
theorem upstreamQuery_of_get_eq (u : Unicode) {q : Bytes} (hg : (parseQuery q).get (str "genesis") = []) :
    (upstreamQuery u q).2 = q := by
  unfold upstreamQuery
  split
  · rfl
  · simp [hg]

/-- A query with a MAC address is encoded again without it. -/
theorem upstreamQuery_of_get_ne (u : Unicode) {q : Bytes} (hg : (parseQuery q).get (str "genesis") ≠ []) :
    (upstreamQuery u q).2 = ((parseQuery q).del (str "genesis")).encode := by
  unfold upstreamQuery
  rw [if_neg (by rintro hnil; rw [hnil] at hg; exact hg (by decide))]
  dsimp only
  rw [if_pos hg]

/-- For every request that is not served locally: the rack is asked for the path of the request, and for its query if
that has no parameter `genesis`, exactly if both are plain. -/
theorem route_forwards_iff (u : Unicode) (cfg : Config) (r : Request) (hr : ¬ ServedLocally r.path)
    (hup : IsUpstream cfg.rackUpstream) :
    ∃ genesisMAC upURL, route u cfg r = .upstream genesisMAC upURL ∧
      ((∃ url, parse upURL = some url ∧ url.path = r.path ∧
        ((parameters r.rawQuery).has (str "genesis") = false → url.rawQuery = r.rawQuery)) ↔
      PlainPath r.path ∧ PlainQuery r.rawQuery) := by
  obtain ⟨a, n, hbase, ha⟩ := hup
  have hne : cfg.rackUpstream ≠ [] := by
    have : str "http://" ≠ [] := by decide
    simp [hbase, this]
  refine ⟨_, _, route_of_not_servedLocally u hr hne, ?_⟩
  unfold upstreamURL
  rw [hbase, trimRight_upstream ha, List.append_assoc, List.append_assoc]
  by_cases hg : (parseQuery r.rawQuery).get (str "genesis") = []
  · rw [upstreamQuery_of_get_eq u hg]
    constructor
    · rintro ⟨url, hurl, hpath, hquery⟩
      have hp := plainPath_of_parse ha hurl hpath
      rw [parse_plainPath ha hp] at hurl
      split at hurl
      · cases hurl
      rename_i hctl
      obtain ⟨fragment, hfrag, rfl⟩ := Option.map_eq_some_iff.mp hurl
      refine ⟨hp, .inr ⟨by simpa using hctl, by simp [hfrag], ?_⟩⟩
      cases hhas : (parameters r.rawQuery).has (str "genesis") with
      | true => exact .inl rfl
      | false => exact .inr (cut_eq_self_iff.mp (hquery hhas))
    · rintro ⟨hp, hq⟩
      obtain ⟨hctl, hfrag, hhash⟩ := hq.resolve_left (not_not_intro hg)
      obtain ⟨fragment, hfrag⟩ := Option.isSome_iff_exists.mp hfrag
      rw [parse_plainPath ha hp, if_neg (by simp [hctl]), hfrag]
      refine ⟨_, rfl, rfl, fun hhas => ?_⟩
      exact cut_eq_self_iff.mpr (hhash.resolve_left (by simp [hhas]))
  · have hhas : (parameters r.rawQuery).has (str "genesis") = true := has_parameters_of_get_ne hg
    rw [upstreamQuery_of_get_ne u hg]
    constructor
    · rintro ⟨url, hurl, hpath, -⟩
      exact ⟨plainPath_of_parse ha hurl hpath, .inl hg⟩
    · rintro ⟨hp, -⟩
      obtain ⟨h35, hctl⟩ := encode_plain ((parseQuery r.rawQuery).del (str "genesis"))
      rw [parse_plainPath ha hp, cut_of_notMem h35, if_neg (by simp [hctl])]
      exact ⟨_, rfl, rfl, fun hno => by simp [hhas] at hno⟩

/-- An image whose name needs no escapes. -/
theorem route_forwards_iff_image : ¬ ServedLocally (str "/images/boot-initrd") ∧
    IsUpstream (str "http://192.0.2.57:5248/") ∧
    ∃ genesisMAC upURL, route Unicode.asciiOnly { rackUpstream := str "http://192.0.2.57:5248/" }
        { path := str "/images/boot-initrd", rawQuery := str "arch=amd64" } = .upstream genesisMAC upURL ∧
      ∃ url, parse upURL = some url ∧ url.path = str "/images/boot-initrd" ∧ url.rawQuery = str "arch=amd64" := by
  have hlocal : ¬ ServedLocally (str "/images/boot-initrd") := by decide
  have hup : IsUpstream (str "http://192.0.2.57:5248/") := by
    refine ⟨str "192.0.2.57:5248", 1, by decide, str "192.0.2.57", str "5248", by decide, by decide,
      List.all_eq_true.mp (by decide), .inl ⟨by decide, List.all_eq_true.mp (by decide)⟩⟩
  obtain ⟨mac, url, hroute, hiff⟩ := route_forwards_iff Unicode.asciiOnly
    { rackUpstream := str "http://192.0.2.57:5248/" }
    { path := str "/images/boot-initrd", rawQuery := str "arch=amd64" } hlocal hup
  refine ⟨hlocal, hup, mac, url, hroute, ?_⟩
  have hpath : PlainPath (str "/images/boot-initrd") := by
    refine ⟨.inr (by decide), ?_⟩
    have hall : (str "/images/boot-initrd").all (fun c => c != 37 && c != 63 && c != 35 && !isCTL c) = true := by
      decide
    intro c hc
    simpa [and_assoc] using List.all_eq_true.mp hall c hc
  obtain ⟨url, hparse, hp, hq⟩ := hiff.mpr ⟨hpath, .inr ⟨by decide, by decide, .inr (by decide)⟩⟩
  exact ⟨url, hparse, hp, hq (by decide)⟩

/-- An escaped question mark becomes the start of a query. -/
theorem route_forwards_question_mark :
    route Unicode.asciiOnly { rackUpstream := str "http://192.0.2.57:5248" } { path := str "/images/a?b" } =
      .upstream [] (str "http://192.0.2.57:5248/images/a?b") ∧
    (parse (str "http://192.0.2.57:5248/images/a?b")).map (fun url => (url.path, url.rawQuery)) =
      some (str "/images/a", str "b") := by
  decide

end MaasBoot
