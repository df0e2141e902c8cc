import MaasBoot.Lib.Scan
import Mathlib.Data.List.Sort

/-!
# URLs

`url.Parse`, the percent escapes and the query strings of `net/url`.  A URL is cut at the first `#`, then at the first
`?`; the path and the fragment are unescaped, the query is kept as it is.

`parse_http` says what becomes of a text behind `http://`; `length_unescape` says that unescaping changes every text
that has a `%`.
-/

namespace MaasBoot.Url

/-! ### Escapes -/

/-- The parts of a URL in which escapes are read differently. -/
inductive Mode where
  | path
  | queryComponent
  | host
  | zone
  | fragment
  deriving DecidableEq

def isUnreserved (c : UInt8) : Bool :=
  (97 ≤ c && c ≤ 122) || (65 ≤ c && c ≤ 90) || (48 ≤ c && c ≤ 57) || (str "-_.~").contains c

/-- The ASCII bytes that need no escape in a host. -/
def isHostByte (c : UInt8) : Bool := isUnreserved c || (str "!$&'()*+,;=:[]<>\"").contains c

/-- In a host only bytes that are not ASCII and the percent sign may be escaped, in a zone what may stand in a host.
-/
def escapeAllowed (m : Mode) (a b : UInt8) : Bool :=
  match m with
  | .host => 8 ≤ digitVal a || (a == 50 && b == 53)
  | .zone =>
    let v := UInt8.ofNat (digitVal a * 16 + digitVal b)
    (a == 50 && b == 53) || v == 32 || isHostByte v
  | _ => true

def plainAllowed (m : Mode) (c : UInt8) : Bool :=
  match m with
  | .host | .zone => 0x80 ≤ c || isHostByte c
  | _ => true

def unescape (m : Mode) : Bytes → Option Bytes
  | [] => some []
  | c :: s =>
    if c = 37 then
      match s with
      | a :: b :: rest =>
        if isHexDigit a && isHexDigit b && escapeAllowed m a b then
          (unescape m rest).map (UInt8.ofNat (digitVal a * 16 + digitVal b) :: ·)
        else none
      | _ => none
    else if plainAllowed m c then
      (unescape m s).map ((if c = 43 ∧ m = .queryComponent then 32 else c) :: ·)
    else none

/-- `QueryEscape` -/
def queryEscape (s : Bytes) : Bytes :=
  s.flatMap fun c => if isUnreserved c then [c] else if c = 32 then [43] else 37 :: formatUpper 2 c.toNat

/-! ### Queries -/

/-- `strings.Cut` at a byte. -/
def cut (c : UInt8) (s : Bytes) : Bytes × Bytes := (s.takeWhile (· != c), (s.dropWhile (· != c)).tail)

/-- The parameters in the order of the query. -/
abbrev Values := List (Bytes × Bytes)

/-- One parameter; malformed ones are left out. -/
def parseParameter (part : Bytes) : Option (Bytes × Bytes) :=
  if 59 ∈ part ∨ part = [] then none
  else do
    let key ← unescape .queryComponent (cut 61 part).1
    let value ← unescape .queryComponent (cut 61 part).2
    some (key, value)

/-- The parameters of a query, however many there are. -/
def parameters (query : Bytes) : Values := (query.splitOn 38).filterMap parseParameter

/-- The number of parameters that `net/url` accepts. -/
def maxParameters : Nat := 10000

/-- `URL.Query`, which ignores the error for too many parameters. -/
def parseQuery (query : Bytes) : Values := if maxParameters < query.count 38 + 1 then [] else parameters query

namespace Values

def has (v : Values) (key : Bytes) : Bool := v.any (·.1 == key)

def get (v : Values) (key : Bytes) : Bytes := ((v.find? (·.1 == key)).map (·.2)).getD []

def del (v : Values) (key : Bytes) : Values := v.filter (·.1 != key)

/-- The keys in their order, each with its values. -/
def encode (v : Values) : Bytes :=
  let keys := ((v.map (·.1)).mergeSort fun a b => decide (¬ b < a)).dedup
  join [38] (keys.flatMap fun k => (v.filter (·.1 == k)).map fun kv => queryEscape kv.1 ++ 61 :: queryEscape kv.2)

end Values

/-! ### Parsing -/

structure URL where
  scheme : Bytes := []
  opaqueText : Bytes := []
  user : Option Bytes := none
  host : Bytes := []
  path : Bytes := []
  rawQuery : Bytes := []
  fragment : Bytes := []
  deriving DecidableEq

def isCTL (c : UInt8) : Bool := c < 0x20 || c == 0x7F

def isLetter (c : UInt8) : Bool := (97 ≤ c && c ≤ 122) || (65 ≤ c && c ≤ 90)

def isSchemeByte (c : UInt8) : Bool := isLetter c || isDigit c || (str "+-.").contains c

/-- The scheme and the text behind its colon; a text that does not start with a scheme has an empty one. -/
def getScheme (s : Bytes) : Option (Bytes × Bytes) :=
  match s with
  | [] => some ([], s)
  | c :: _ =>
    if c = 58 then none
    else if !isLetter c then some ([], s)
    else
      match s.dropWhile isSchemeByte with
      | 58 :: rest => some (s.takeWhile isSchemeByte, rest)
      | _ => some ([], s)

def validOptionalPort (s : Bytes) : Bool :=
  match s with
  | [] => true
  | c :: port => c == 58 && port.all isDigit

/-- A decimal number up to 255 without leading zeros. -/
def isOctet (s : Bytes) : Bool :=
  s != [] && s.all isDigit && (s.length == 1 || s.head? != some 48) && parseNat 10 s ≤ 255

def isIPv4 (s : Bytes) : Bool := (s.splitOn 46).length == 4 && (s.splitOn 46).all isOctet

/-- The end of an IPv6 address: groups are missing exactly if there was a `::`. -/
def endsIPv6 (left : Nat) (ellipsis : Bool) : Bool := if left = 0 then !ellipsis else ellipsis

/-- The groups of an IPv6 address, of which `left` may still come; the last two may be given as an IPv4 address. -/
def isIPv6Groups : Nat → Bool → Bytes → Bool
  | 0, _, _ => false
  | left + 1, ellipsis, s =>
    let digits := s.takeWhile isHexDigit
    if digits = [] ∨ 4 < digits.length then false
    else
      match s.dropWhile isHexDigit with
      | [] => endsIPv6 left ellipsis
      | c :: rest =>
        if c = 46 then (ellipsis || left == 1) && left != 0 && isIPv4 s && endsIPv6 (left - 1) ellipsis
        else if c ≠ 58 ∨ rest = [] then false
        else if rest.head? = some 58 then
          !ellipsis && if rest.tail = [] then endsIPv6 left true else isIPv6Groups left true rest.tail
        else isIPv6Groups left ellipsis rest

/-- An IPv6 address as `netip.ParseAddr` accepts it, without a zone. -/
def isIPv6 (s : Bytes) : Bool :=
  if str "::" <+: s then s.drop 2 == [] || isIPv6Groups 8 true (s.drop 2)
  else s.contains 58 && isIPv6Groups 8 false s

/-- `netip.ParseAddr` accepts a text and it is no IPv4 address; a zone must not be empty. -/
def isIPv6Zone (s : Bytes) : Bool := isIPv6 (cut 37 s).1 && (!s.contains 37 || (cut 37 s).2 != [])

example : isIPv6 (str "2001:db8::1") = true ∧ isIPv6 (str "::ffff:192.0.2.1") = true ∧ isIPv6 (str "1:2") = false ∧
    isIPv6 (str "192.0.2.1") = false ∧ isIPv6Zone (str "fe80::1%eth0") = true := by decide

/-- The text between brackets, with its escapes resolved. -/
def parseBracketed (hostname : Bytes) : Option Bytes :=
  match (List.range hostname.length).find? fun k => (str "%25").isPrefixOf (hostname.drop k) with
  | some zone => do
    let host ← unescape .host (hostname.take zone)
    let zone ← unescape .zone (hostname.drop zone)
    some (host ++ zone)
  | none => unescape .host hostname

def parseHost (host : Bytes) : Option Bytes :=
  match lastIndex [91] host with
  | some (_ + 1) => none
  | some 0 =>
    match lastIndex [93] host with
    | none => none
    | some i =>
      if validOptionalPort (host.drop (i + 1)) then do
        let hostname ← parseBracketed ((host.take i).drop 1)
        if isIPv6Zone hostname then some (91 :: hostname ++ 93 :: host.drop (i + 1)) else none
      else none
  | none => if validOptionalPort (host.dropWhile (· != 58)) then unescape .host host else none

def validUserinfo (s : Bytes) : Bool := s.all fun c => isUnreserved c || (str ":!$&'()*+,;=%@").contains c

/-- The user information, if there is an `@`, and the host. -/
def parseAuthority (authority : Bytes) : Option (Option Bytes × Bytes) :=
  match lastIndex [64] authority with
  | none => (parseHost authority).map fun host => (none, host)
  | some i => do
    let host ← parseHost (authority.drop (i + 1))
    -- the name and the password are unescaped, which can fail
    if validUserinfo (authority.take i) && (unescape .path (authority.take i)).isSome then
      some (some (authority.take i), host)
    else none

/-- The text before the fragment. -/
def parseRest (s : Bytes) : Option URL :=
  if s.any isCTL then none
  else if s = str "*" then some { path := str "*" }
  else do
    let (scheme, rest) ← getScheme s
    let scheme := toLower Unicode.asciiOnly scheme
    -- a lone `?` at the end, which only sets `ForceQuery`, is cut off like any other
    let (rest, query) := cut 63 rest
    if rest.head? ≠ some 47 ∧ scheme ≠ [] then
      some { scheme := scheme, opaqueText := rest, rawQuery := query }
    else if rest.head? ≠ some 47 ∧ 58 ∈ rest.takeWhile (· != 47) then none
    else if (scheme ≠ [] ∨ ¬ str "///" <+: rest) ∧ str "//" <+: rest then
      let authority := (rest.drop 2).takeWhile (· != 47)
      let (user, host) ← parseAuthority authority
      let path ← unescape .path ((rest.drop 2).dropWhile (· != 47))
      some { scheme := scheme, user := user, host := host, path := path, rawQuery := query }
    else do
      let path ← unescape .path rest
      some { scheme := scheme, path := path, rawQuery := query }

def parse (s : Bytes) : Option URL := do
  let url ← parseRest (cut 35 s).1
  let fragment ← unescape .fragment (cut 35 s).2
  some { url with fragment := fragment }

example : (parse (str "http://192.0.2.57:5248/a%20b?x=1#f")).map (fun u => (u.host, u.path, u.rawQuery)) =
    some (str "192.0.2.57:5248", str "/a b", str "x=1") := by decide

/-! ### Cutting -/

theorem cut_of_notMem {c : UInt8} {s : Bytes} (h : c ∉ s) : cut c s = (s, []) := by
  have hall : ∀ d ∈ s, (d != c) = true := fun d hd => by simpa using fun he : d = c => h (he ▸ hd)
  unfold cut
  rw [List.takeWhile_eq_self_iff.mpr hall, List.dropWhile_eq_nil_iff.mpr hall]
  rfl

theorem cut_append {c : UInt8} {a : Bytes} (h : c ∉ a) (s : Bytes) :
    cut c (a ++ s) = (a ++ (cut c s).1, (cut c s).2) := by
  have hall : ∀ d ∈ a, (d != c) = true := fun d hd => by simpa using fun he : d = c => h (he ▸ hd)
  unfold cut
  rw [List.takeWhile_append_of_pos hall, List.dropWhile_append_of_pos hall]

theorem cut_cons (c : UInt8) (s : Bytes) : cut c (c :: s) = ([], s) := by
  simp [cut]

theorem notMem_cut (c : UInt8) (s : Bytes) : c ∉ (cut c s).1 := fun h => by
  simpa using List.mem_takeWhile_imp h

theorem cut_eq_self_iff {c : UInt8} {s : Bytes} : (cut c s).1 = s ↔ c ∉ s := by
  constructor
  · intro h hc
    exact notMem_cut c s (h.symm ▸ hc)
  · intro h
    rw [cut_of_notMem h]

/-! ### Unescaping -/

theorem unescape_eq_self {m : Mode} (hm : m ≠ .queryComponent) {s : Bytes} (h37 : 37 ∉ s)
    (hs : ∀ c ∈ s, plainAllowed m c = true) : unescape m s = some s := by
  induction s with
  | nil => rfl
  | cons c s ih =>
    have hc : c ≠ 37 := fun he => h37 (by simp [he])
    have hplain := hs c (List.mem_cons_self ..)
    have hrest := ih (fun h => h37 (List.mem_cons_of_mem _ h)) fun d hd => hs d (List.mem_cons_of_mem _ hd)
    unfold unescape
    simp [hc, hplain, hrest, hm]

/-- Every escape makes the text shorter. -/
theorem length_unescape {m : Mode} {s t : Bytes} (h : unescape m s = some t) :
    t.length ≤ s.length ∧ (37 ∈ s → t.length < s.length) := by
  fun_induction unescape m s generalizing t with
  | case1 =>
    obtain rfl := Option.some.inj h
    simp
  | case2 a b rest _ ih =>
    obtain ⟨t', ht', rfl⟩ := Option.map_eq_some_iff.mp h
    have hle := (ih ht').1
    simp only [List.length_cons]
    exact ⟨by omega, fun _ => by omega⟩
  | case5 c s hc _ ih =>
    obtain ⟨t', ht', rfl⟩ := Option.map_eq_some_iff.mp h
    obtain ⟨hle, hlt⟩ := ih ht'
    simp only [List.length_cons, List.mem_cons]
    refine ⟨by omega, ?_⟩
    rintro (rfl | hs)
    · exact absurd rfl hc
    · exact Nat.succ_lt_succ (hlt hs)
  | _ => cases h

/-! ### Escaped queries -/

/-- The bytes of an escaped text: no separator of URLs is among them. -/
def isQueryByte (c : UInt8) : Bool := isUnreserved c || (str "%+=&").contains c

theorem isQueryByte_of_mem_queryEscape {s : Bytes} {c : UInt8} (h : c ∈ queryEscape s) : isQueryByte c = true := by
  obtain ⟨d, -, hd⟩ := List.mem_flatMap.mp h
  have hplus : isQueryByte 43 = true ∧ isQueryByte 37 = true := by decide
  have hhex : ∀ n < 256, ∀ c ∈ formatUpper 2 n, isQueryByte c = true := by
    intro n hn
    have hall : ∀ n < 256, (formatUpper 2 n).all isQueryByte = true := by decide +kernel
    exact List.all_eq_true.mp (hall n hn)
  split at hd
  · next hu =>
    obtain rfl := List.mem_singleton.mp hd
    simp [isQueryByte, hu]
  · split at hd
    · obtain rfl := List.mem_singleton.mp hd
      exact hplus.1
    · rcases List.mem_cons.mp hd with rfl | hd
      · exact hplus.2
      · exact hhex d.toNat d.toNat_lt c hd

theorem isQueryByte_of_mem_encode {v : Values} {c : UInt8} (h : c ∈ v.encode) : isQueryByte c = true := by
  have hsep : isQueryByte 38 = true ∧ isQueryByte 61 = true := by decide
  unfold Values.encode at h
  rcases mem_or_mem_of_mem_join h with h | ⟨m, hm, h⟩
  · obtain rfl := List.mem_singleton.mp h
    exact hsep.1
  · obtain ⟨k, -, hm⟩ := List.mem_flatMap.mp hm
    obtain ⟨kv, -, rfl⟩ := List.mem_map.mp hm
    rcases List.mem_append.mp h with h | h
    · exact isQueryByte_of_mem_queryEscape h
    · rcases List.mem_cons.mp h with rfl | h
      · exact hsep.2
      · exact isQueryByte_of_mem_queryEscape h

theorem Values.has_of_get_ne {v : Values} {key : Bytes} (h : v.get key ≠ []) : v.has key = true := by
  unfold Values.get at h
  cases hf : v.find? (·.1 == key) with
  | none =>
    rw [hf] at h
    exact absurd rfl h
  | some kv =>
    have hkey := List.find?_some hf
    exact List.any_eq_true.mpr ⟨kv, List.mem_of_find?_eq_some hf, hkey⟩

/-- A parameter that is read is one of the query. -/
theorem has_parameters_of_get_ne {query key : Bytes} (h : (parseQuery query).get key ≠ []) :
    (parameters query).has key = true := by
  have hhas := Values.has_of_get_ne h
  unfold parseQuery at hhas
  split at hhas
  · cases hhas
  · exact hhas

/-! ### Hosts -/

/-- `host:port`, where the host is a name or an address, or in brackets an IPv6 address. -/
def IsHostPort (a : Bytes) : Prop :=
  ∃ host port, a = host ++ 58 :: port ∧ port ≠ [] ∧ (∀ c ∈ port, isDigit c = true) ∧
    ((host ≠ [] ∧ ∀ c ∈ host, isUnreserved c = true) ∨ ∃ t, host = 91 :: t ++ [93] ∧ isIPv6 t = true)

/-! #### The bytes of addresses -/

def isAddressByte (c : UInt8) : Bool := isHexDigit c || c == 58 || c == 46

theorem isAddressByte_of_mem_isIPv4 {s : Bytes} (h : isIPv4 s = true) {c : UInt8} (hc : c ∈ s) :
    isAddressByte c = true := by
  have hdigit : ∀ c : UInt8, isDigit c = true → isAddressByte c = true := forall_byte (by decide +kernel)
  have hjoin : c ∈ join [46] (s.splitOn 46) := by rwa [join, List.intercalate_splitOn]
  rcases mem_or_mem_of_mem_join hjoin with h46 | ⟨m, hm, hmem⟩
  · rw [List.mem_singleton.mp h46]
    decide
  · have hoctet := List.all_eq_true.mp (Bool.and_eq_true_iff.mp h).2 m hm
    simp only [isOctet, Bool.and_eq_true] at hoctet
    exact hdigit c (List.all_eq_true.mp hoctet.1.1.2 c hmem)

theorem isAddressByte_of_mem_groups {left : Nat} {ellipsis : Bool} {s : Bytes}
    (h : isIPv6Groups left ellipsis s = true) {c : UInt8} (hc : c ∈ s) : isAddressByte c = true := by
  have hhex : ∀ c : UInt8, isHexDigit c = true → isAddressByte c = true := forall_byte (by decide +kernel)
  induction left generalizing ellipsis s with
  | zero => cases h
  | succ left ih =>
    rw [isIPv6Groups] at h
    split at h
    · cases h
    have hsplit := List.takeWhile_append_dropWhile (p := isHexDigit) (l := s)
    cases hrest : s.dropWhile isHexDigit with
    | nil =>
      rw [hrest, List.append_nil] at hsplit
      rw [← hsplit] at hc
      exact hhex c (List.mem_takeWhile_imp hc)
    | cons d rest =>
      rw [hrest] at h hsplit
      dsimp only at h
      by_cases h46 : d = 46
      · rw [if_pos h46] at h
        simp only [Bool.and_eq_true] at h
        exact isAddressByte_of_mem_isIPv4 h.1.2 hc
      · rw [if_neg h46] at h
        by_cases h58 : d ≠ 58 ∨ rest = []
        · rw [if_pos h58] at h
          cases h
        · rw [if_neg h58] at h
          obtain ⟨hd, hne⟩ := not_or.mp h58
          -- the rest of the address, behind one colon or two
          have hrest' : c ∈ rest → isAddressByte c = true := by
            intro hc
            obtain ⟨e, rest, rfl⟩ := List.exists_cons_of_ne_nil hne
            by_cases he : e = 58
            · rw [if_pos (by simp [he])] at h
              rcases List.mem_cons.mp hc with rfl | hc
              · rw [he]
                decide
              · have htail := (Bool.and_eq_true_iff.mp h).2
                split at htail
                · next hnil =>
                  rw [List.tail_cons] at hnil
                  rw [hnil] at hc
                  cases hc
                · exact ih htail hc
            · rw [if_neg (by simp [he])] at h
              exact ih h hc
          rw [← hsplit] at hc
          rcases List.mem_append.mp hc with hc | hc
          · exact hhex c (List.mem_takeWhile_imp hc)
          · rcases List.mem_cons.mp hc with rfl | hc
            · rw [not_not.mp hd]
              decide
            · exact hrest' hc

theorem isAddressByte_of_mem_isIPv6 {s : Bytes} (h : isIPv6 s = true) {c : UInt8} (hc : c ∈ s) :
    isAddressByte c = true := by
  unfold isIPv6 at h
  split at h
  · rename_i hcolons
    obtain ⟨t, rfl⟩ := hcolons
    have hdrop : (str "::" ++ t).drop 2 = t := List.drop_left' (by decide)
    rw [hdrop, Bool.or_eq_true, beq_iff_eq] at h
    rcases List.mem_append.mp hc with hc | hc
    · have hall : ∀ c ∈ str "::", isAddressByte c = true := by decide +kernel
      exact hall c hc
    · rcases h with rfl | h
      · cases hc
      · exact isAddressByte_of_mem_groups h hc
  · exact isAddressByte_of_mem_groups (Bool.and_eq_true_iff.mp h).2 hc

theorem isHostByte_classes (c : UInt8) :
    (isDigit c = true → isUnreserved c = true) ∧ (isUnreserved c = true → isHostByte c = true ∧ c ≠ 91 ∧ c ≠ 58) ∧
      (isHostByte c = true → c ≠ 37 ∧ c ≠ 47 ∧ c ≠ 63 ∧ c ≠ 35 ∧ c ≠ 64 ∧ isCTL c = false) := by
  have hall : ∀ c : UInt8, (isDigit c = true → isUnreserved c = true) ∧
      (isUnreserved c = true → isHostByte c = true ∧ c ≠ 91 ∧ c ≠ 58) ∧
      (isHostByte c = true → c ≠ 37 ∧ c ≠ 47 ∧ c ≠ 63 ∧ c ≠ 35 ∧ c ≠ 64 ∧ isCTL c = false) :=
    forall_byte (by decide +kernel)
  exact hall c

theorem isHostByte_of_isAddressByte {c : UInt8} (h : isAddressByte c = true) : isHostByte c = true ∧ c ≠ 91 := by
  have hall : ∀ c : UInt8, isAddressByte c = true → isHostByte c = true ∧ c ≠ 91 := forall_byte (by decide +kernel)
  exact hall c h

theorem IsHostPort.isHostByte {a : Bytes} (h : IsHostPort a) {c : UInt8} (hc : c ∈ a) : isHostByte c = true := by
  obtain ⟨host, port, rfl, -, hport, hhost⟩ := h
  have hsep : Url.isHostByte 58 = true ∧ Url.isHostByte 91 = true ∧ Url.isHostByte 93 = true := by decide
  rcases List.mem_append.mp hc with hc | hc
  · rcases hhost with ⟨-, hhost⟩ | ⟨t, rfl, ht⟩
    · exact ((isHostByte_classes c).2.1 (hhost c hc)).1
    · rw [List.cons_append, List.mem_cons, List.mem_append, List.mem_singleton] at hc
      rcases hc with rfl | hc | rfl
      · exact hsep.2.1
      · exact (isHostByte_of_isAddressByte (isAddressByte_of_mem_isIPv6 ht hc)).1
      · exact hsep.2.2
  · rcases List.mem_cons.mp hc with rfl | hc
    · exact hsep.1
    · exact ((isHostByte_classes c).2.1 ((isHostByte_classes c).1 (hport c hc))).1

/-- Nothing of the authority is cut off. -/
theorem IsHostPort.notMem {a : Bytes} (ha : IsHostPort a) : 35 ∉ a ∧ 63 ∉ a ∧ 47 ∉ a ∧ a.any isCTL = false := by
  have hclass : ∀ c ∈ a, c ≠ 37 ∧ c ≠ 47 ∧ c ≠ 63 ∧ c ≠ 35 ∧ c ≠ 64 ∧ isCTL c = false :=
    fun c hc => (isHostByte_classes c).2.2 (ha.isHostByte hc)
  refine ⟨fun h => (hclass _ h).2.2.2.1 rfl, fun h => (hclass _ h).2.2.1 rfl, fun h => (hclass _ h).2.1 rfl, ?_⟩
  simp only [List.any_eq_false]
  exact fun c hc => by simp [(hclass c hc).2.2.2.2.2]

private theorem lastIndex_eq_none {c : UInt8} {s : Bytes} (h : c ∉ s) : lastIndex [c] s = none := by
  rw [lastIndex_eq_none_iff]
  exact fun hin => h (hin.subset (List.mem_singleton_self c))

private theorem lastIndex_append_cons (a : Bytes) {c : UInt8} {t : Bytes} (h : c ∉ t) :
    lastIndex [c] (a ++ c :: t) = some a.length := by
  have ht : lastIndex [c] t = none := lastIndex_eq_none h
  induction a with
  | nil => simp [lastIndex, ht]
  | cons d a ih => simp [lastIndex, ih]

/-- An address between brackets has no escapes and no zone. -/
theorem parseBracketed_of_isIPv6 {t : Bytes} (h : isIPv6 t = true) :
    parseBracketed t = some t ∧ isIPv6Zone t = true := by
  have hbyte : ∀ c ∈ t, isHostByte c = true := fun c hc =>
    (isHostByte_of_isAddressByte (isAddressByte_of_mem_isIPv6 h hc)).1
  have h37 : 37 ∉ t := fun hc => ((isHostByte_classes 37).2.2 (hbyte 37 hc)).1 rfl
  have hzone : (List.range t.length).find? (fun k => (str "%25").isPrefixOf (t.drop k)) = none := by
    rw [List.find?_eq_none]
    intro k _ hk
    obtain ⟨b, hb⟩ := List.isPrefixOf_iff_prefix.mp hk
    have hmem : 37 ∈ str "%25" ++ b := List.mem_append_left _ (by decide)
    rw [hb] at hmem
    exact h37 (List.mem_of_mem_drop hmem)
  constructor
  · unfold parseBracketed
    rw [hzone]
    exact unescape_eq_self (by decide) h37 fun c hc => by simp [plainAllowed, hbyte c hc]
  · simp [isIPv6Zone, cut_of_notMem h37, h, h37]

theorem IsHostPort.parseHost_eq {a : Bytes} (h : IsHostPort a) : parseHost a = some a := by
  have h37 : 37 ∉ a := fun hc => ((isHostByte_classes 37).2.2 (h.isHostByte hc)).1 rfl
  have hun : unescape .host a = some a :=
    unescape_eq_self (by decide) h37 fun c hc => by simp [plainAllowed, h.isHostByte hc]
  obtain ⟨host, port, rfl, -, hport, hhost⟩ := h
  have hvalid : validOptionalPort (58 :: port) = true := by simpa [validOptionalPort] using hport
  have hnot : ∀ c : UInt8, isDigit c = false → c ∉ port := by
    intro c hdigit hc
    rw [hport c hc] at hdigit
    cases hdigit
  unfold parseHost
  rcases hhost with ⟨hne, hhost⟩ | ⟨t, rfl, ht⟩
  · -- a name has no bracket, and the first colon is the one before the port
    have h91 : 91 ∉ host ++ 58 :: port := by
      rw [List.mem_append, List.mem_cons, not_or, not_or]
      exact ⟨fun hc => ((isHostByte_classes 91).2.1 (hhost 91 hc)).2.1 rfl, by decide, hnot 91 (by decide)⟩
    have hcolon : (host ++ 58 :: port).dropWhile (· != 58) = 58 :: port := by
      have hbefore : ∀ c ∈ host, (c != 58) = true := fun c hc => by
        simpa using ((isHostByte_classes c).2.1 (hhost c hc)).2.2
      rw [List.dropWhile_append_of_pos hbefore]
      rfl
    rw [lastIndex_eq_none h91]
    dsimp only
    rw [hcolon, if_pos hvalid, hun]
  · have hsplit : 91 :: t ++ [93] ++ 58 :: port = (91 :: t) ++ 93 :: (58 :: port) := by simp
    have h91 : 91 ∉ t ++ 93 :: (58 :: port) := by
      rw [List.mem_append, List.mem_cons, List.mem_cons, not_or, not_or, not_or]
      exact ⟨fun hc => (isHostByte_of_isAddressByte (isAddressByte_of_mem_isIPv6 ht hc)).2 rfl, by decide, by decide,
        hnot 91 (by decide)⟩
    have hopen : lastIndex [91] ((91 :: t) ++ 93 :: (58 :: port)) = some 0 := lastIndex_append_cons [] h91
    have hclose : lastIndex [93] ((91 :: t) ++ 93 :: (58 :: port)) = some (91 :: t).length :=
      lastIndex_append_cons (91 :: t) (by simpa using hnot 93 (by decide))
    have hdrop : ((91 :: t) ++ 93 :: (58 :: port)).drop ((91 :: t).length + 1) = 58 :: port := by simp
    obtain ⟨hbracketed, hzone⟩ := parseBracketed_of_isIPv6 ht
    rw [hsplit, hopen, hclose]
    dsimp only
    rw [hdrop, if_pos hvalid, List.take_left, List.drop_one, List.tail_cons, hbracketed]
    simp only [Option.bind_eq_bind, Option.bind_some, hzone, if_true]

theorem IsHostPort.parseAuthority_eq {a : Bytes} (h : IsHostPort a) : parseAuthority a = some (none, a) := by
  have h64 : lastIndex [64] a = none :=
    lastIndex_eq_none fun hc => ((isHostByte_classes 64).2.2 (h.isHostByte hc)).2.2.2.2.1 rfl
  unfold parseAuthority
  rw [h64]
  dsimp only
  rw [h.parseHost_eq]
  rfl

/-! ### A text behind `http://` -/

theorem parse_http (t : Bytes) : parse (str "http://" ++ t) =
    if (cut 35 t).1.any isCTL then none
    else
      (parseAuthority ((cut 63 (cut 35 t).1).1.takeWhile (· != 47))).bind fun a =>
      (unescape .path ((cut 63 (cut 35 t).1).1.dropWhile (· != 47))).bind fun path =>
      (unescape .fragment (cut 35 t).2).map fun fragment =>
        { scheme := str "http", user := a.1, host := a.2, path := path, rawQuery := (cut 63 (cut 35 t).1).2,
          fragment := fragment } := by
  have hlit : str "http://" = [104, 116, 116, 112, 58, 47, 47] := by decide
  have hscheme : ∀ s : Bytes, getScheme ([104, 116, 116, 112, 58, 47, 47] ++ s) =
      some (str "http", [47, 47] ++ s) := by
    intro s
    have h1 : isLetter 104 = true := by decide
    have h2 : isSchemeByte 104 = true ∧ isSchemeByte 116 = true ∧ isSchemeByte 112 = true ∧
        isSchemeByte 58 = false := by
      decide
    have h3 : str "http" = [104, 116, 116, 112] := by decide
    simp [getScheme, h1, h2, h3]
  have hlower : toLower Unicode.asciiOnly (str "http") = str "http" := by decide
  have hctl : ([104, 116, 116, 112, 58, 47, 47] : Bytes).any isCTL = false := by decide
  have hne : str "http" ≠ [] := by decide
  have hstar : ∀ s : Bytes, [104, 116, 116, 112, 58, 47, 47] ++ s ≠ str "*" := by
    intro s h
    have := congrArg List.head? h
    revert this
    simp only [List.cons_append, List.head?_cons]
    decide
  unfold parse
  rw [hlit, cut_append (by decide)]
  dsimp only
  generalize (cut 35 t).1 = s
  generalize (cut 35 t).2 = f
  unfold parseRest
  rw [List.any_append, hctl, Bool.false_or, if_neg (hstar s), hscheme]
  by_cases hs : s.any isCTL = true
  · rw [if_pos hs, if_pos hs]
    rfl
  rw [if_neg hs, if_neg hs]
  have h2 : str "//" = [47, 47] := by decide
  simp only [hlower, Option.bind_eq_bind, Option.bind_some, cut_append (show 63 ∉ ([47, 47] : Bytes) by decide), h2]
  generalize cut 63 s = r
  obtain ⟨r, q⟩ := r
  rw [if_neg (by simp), if_neg (by simp), if_pos ⟨.inl hne, List.prefix_append ..⟩]
  simp only [List.cons_append, List.nil_append, List.drop_succ_cons, List.drop_zero]
  cases parseAuthority (r.takeWhile (· != 47)) with
  | none => rfl
  | some a =>
    cases unescape .path (r.dropWhile (· != 47)) with
    | none => rfl
    | some path =>
      cases unescape .fragment f with
      | none => rfl
      | some fragment => rfl

end MaasBoot.Url
