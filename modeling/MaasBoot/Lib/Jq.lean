import MaasBoot.Lib.Scan

/-!
# JSON texts and filters of jq

`jq` reads a text as a sequence of JSON values and applies its filter to one after the other.  A text that is not JSON
ends the sequence, after the values before the mistake; a filter that fails on a value ends the output for this value.
Messages about either go to another stream, so what a filter prints tells nothing about them.

Numbers stand for the text they are written as.
-/

namespace MaasBoot

/-- The fields of an object have different keys. -/
inductive Json where
  | null
  | bool (b : Bool)
  | num (t : Bytes)
  | string (s : Bytes)
  | arr (xs : List Json)
  | obj (fields : List (Bytes × Json))

namespace Json

/-! ### Reading -/

inductive Token where
  /-- One of `[`, `]`, `\x7b`, `\x7d`, `:` and `,`. -/
  | mark (c : UInt8)
  | word (w : Bytes)
  | text (s : Bytes)
  /-- Something that is not JSON. -/
  | bad
  deriving DecidableEq

/-- A string is made of bytes and of escaped UTF-16 code units. -/
abbrev Piece := UInt8 ⊕ Nat

/-- The text of a string.  Two code units that are a surrogate pair stand for one character. -/
def decodePieces : List Piece → Bytes
  | [] => []
  | .inl b :: ps => b :: decodePieces ps
  | .inr hi :: .inr lo :: ps =>
    if 0xD800 ≤ hi ∧ hi < 0xDC00 ∧ 0xDC00 ≤ lo ∧ lo < 0xE000 then
      encodeRune (0x10000 + (hi - 0xD800) * 0x400 + (lo - 0xDC00)) ++ decodePieces ps
    else encodeRune hi ++ decodePieces (.inr lo :: ps)
  | .inr hi :: ps => encodeRune hi ++ decodePieces ps

/-- Where the scanner stands. -/
inductive Scanning where
  | between
  | word (w : Bytes)
  | text (ps : List Piece)
  | escape (ps : List Piece)
  | unit (ps : List Piece) (digits : Bytes)

def isJsonSpace (c : UInt8) : Bool := c == 32 || c == 9 || c == 10 || c == 13

def isMark (c : UInt8) : Bool := (str "[]\x7b\x7d:,").contains c

/-- The character that a letter behind a backslash stands for. -/
def unescape : UInt8 → Option UInt8
  | 34 => some 34
  | 92 => some 92
  | 47 => some 47
  | 98 => some 8
  | 102 => some 12
  | 110 => some 10
  | 114 => some 13
  | 116 => some 9
  | _ => none

/-- The next byte outside a string; `pending` is the word before it. -/
def scanBetween (pending : List Token) (c : UInt8) (continued : Scanning) : Option (Scanning × List Token) :=
  if isJsonSpace c then some (.between, pending)
  else if c = 34 then some (.text [], pending)
  else if isMark c then some (.between, pending ++ [.mark c])
  else some (continued, [])

def scanByte (st : Scanning) (c : UInt8) : Option (Scanning × List Token) :=
  match st with
  | .between => scanBetween [] c (.word [c])
  | .word w => scanBetween [.word w] c (.word (w ++ [c]))
  | .text ps =>
    if c = 34 then some (.between, [.text (decodePieces ps)])
    else if c = 92 then some (.escape ps, [])
    else some (.text (ps ++ [.inl c]), [])
  | .escape ps =>
    if c = 117 then some (.unit ps [], [])
    else (unescape c).map fun b => (.text (ps ++ [.inl b]), [])
  | .unit ps digits =>
    if !isHexDigit c then none
    else if digits.length < 3 then some (.unit ps (digits ++ [c]), [])
    else some (.text (ps ++ [.inr (parseNat 16 (digits ++ [c]))]), [])

def tokens : Scanning → Bytes → List Token
  | .between, [] => []
  | .word w, [] => [.word w]
  | _, [] => [.bad]
  | st, c :: s => match scanByte st c with
    | none => [.bad]
    | some (st', ts) => ts ++ tokens st' s

def isExponent : Bytes → Bool
  | [] => true
  | e :: s => (e == 101 || e == 69) && (match s with
    | 43 :: ds => ds != [] && ds.all isDigit
    | 45 :: ds => ds != [] && ds.all isDigit
    | ds => ds != [] && ds.all isDigit)

def isFraction : Bytes → Bool
  | 46 :: s => s.takeWhile isDigit != [] && isExponent (s.dropWhile isDigit)
  | s => isExponent s

def isNumber (s : Bytes) : Bool :=
  let s := if s.head? = some 45 then s.tail else s
  let ds := s.takeWhile isDigit
  ds != [] && (ds.length == 1 || ds.head? != some 48) && isFraction (s.dropWhile isDigit)

def ofWord (w : Bytes) : Option Json :=
  if w = str "null" then some .null
  else if w = str "true" then some (.bool true)
  else if w = str "false" then some (.bool false)
  else if isNumber w then some (.num w)
  else none

/-- A later field replaces an earlier one. -/
def setField (k : Bytes) (v : Json) : List (Bytes × Json) → List (Bytes × Json)
  | [] => [(k, v)]
  | f :: fs => if f.1 = k then (k, v) :: fs else f :: setField k v fs

/-- An array or an object that is being read. -/
inductive Frame where
  | arr (done : List Json)
  | obj (done : List (Bytes × Json)) (key : Bytes)

/-- What has to come next. -/
inductive Need where
  | value
  | valueOrEnd
  | commaOrEnd
  | key
  | keyOrEnd
  | colon
  deriving DecidableEq

structure Reading where
  stack : List Frame := []
  need : Need := .value

/-- A value is complete; outside of arrays and objects it is one of the values of the text. -/
def complete (v : Json) : List Frame → Reading × List Json
  | [] => ({}, [v])
  | .arr done :: fs => (⟨.arr (done ++ [v]) :: fs, .commaOrEnd⟩, [])
  | .obj done k :: fs => (⟨.obj (setField k v done) [] :: fs, .commaOrEnd⟩, [])

/-- The end of an array or an object. -/
def close (c : UInt8) : List Frame → Option (Reading × List Json)
  | .arr done :: fs => if c = 93 then some (complete (.arr done) fs) else none
  | .obj done _ :: fs => if c = 125 then some (complete (.obj done) fs) else none
  | [] => none

def readToken (r : Reading) (t : Token) : Option (Reading × List Json) :=
  match r.need, t with
  | .value, .text s | .valueOrEnd, .text s => some (complete (.string s) r.stack)
  | .value, .word w | .valueOrEnd, .word w => (ofWord w).map fun v => complete v r.stack
  | .value, .mark 91 | .valueOrEnd, .mark 91 => some (⟨.arr [] :: r.stack, .valueOrEnd⟩, [])
  | .value, .mark 123 | .valueOrEnd, .mark 123 => some (⟨.obj [] [] :: r.stack, .keyOrEnd⟩, [])
  | .valueOrEnd, .mark c => close c r.stack
  | .keyOrEnd, .mark c => close c r.stack
  | .commaOrEnd, .mark 44 => match r.stack with
    | .arr done :: fs => some (⟨.arr done :: fs, .value⟩, [])
    | .obj done k :: fs => some (⟨.obj done k :: fs, .key⟩, [])
    | [] => none
  | .commaOrEnd, .mark c => close c r.stack
  | .key, .text k | .keyOrEnd, .text k => match r.stack with
    | .obj done _ :: fs => some (⟨.obj done k :: fs, .colon⟩, [])
    | _ => none
  | .colon, .mark 58 => some (⟨r.stack, .value⟩, [])
  | _, _ => none

/-- The values of a text, and whether there is nothing else in it. -/
def readTokens (r : Reading) : List Token → List Json × Bool
  | [] => ([], r.stack.isEmpty)
  | t :: ts => match readToken r t with
    | none => ([], false)
    | some (r', vs) => (vs ++ (readTokens r' ts).1, (readTokens r' ts).2)

def read (s : Bytes) : List Json × Bool := readTokens {} (tokens .between s)

/-! ### Texts in parts -/

/-- The tokens of the first part of a text, and where the scanner stands behind it. -/
def scan : Scanning → Bytes → Option (Scanning × List Token)
  | st, [] => some (st, [])
  | st, c :: s => match scanByte st c with
    | none => none
    | some (st', ts) => (scan st' s).map fun r => (r.1, ts ++ r.2)

theorem tokens_append {st st' : Scanning} {s : Bytes} {ts : List Token} (h : scan st s = some (st', ts)) (t : Bytes) :
    tokens st (s ++ t) = ts ++ tokens st' t := by
  induction s generalizing st ts with
  | nil =>
    obtain ⟨rfl, rfl⟩ := Prod.mk.inj (Option.some.inj h)
    rfl
  | cons c s ih =>
    rw [scan] at h
    have hcons : tokens st (c :: (s ++ t)) = match scanByte st c with
        | none => [.bad]
        | some (st', ts) => ts ++ tokens st' (s ++ t) := by
      cases st <;> rfl
    rw [List.cons_append, hcons]
    cases hc : scanByte st c with
    | none =>
      rw [hc] at h
      cases h
    | some r =>
      rw [hc] at h
      obtain ⟨⟨st₂, ts₂⟩, hscan, heq⟩ := Option.map_eq_some_iff.mp h
      obtain ⟨rfl, rfl⟩ := Prod.mk.inj heq
      dsimp only
      rw [ih hscan, List.append_assoc]

/-- A text that stands in a string as it is. -/
def IsPlainText (s : Bytes) : Prop := 34 ∉ s ∧ 92 ∉ s

theorem scan_text {s : Bytes} (h : IsPlainText s) (ps : List Piece) :
    scan (.text ps) s = some (.text (ps ++ s.map .inl), []) := by
  induction s generalizing ps with
  | nil => simp [scan]
  | cons c s ih =>
    have hquote : c ≠ 34 := fun hc => h.1 (hc ▸ List.mem_cons_self ..)
    have hslash : c ≠ 92 := fun hc => h.2 (hc ▸ List.mem_cons_self ..)
    have hrest : IsPlainText s := ⟨fun hc => h.1 (List.mem_cons_of_mem _ hc),
      fun hc => h.2 (List.mem_cons_of_mem _ hc)⟩
    have hbyte : scanByte (.text ps) c = some (.text (ps ++ [.inl c]), []) := by
      rw [scanByte, if_neg hquote, if_neg hslash]
    rw [scan, hbyte]
    dsimp only
    rw [ih hrest]
    simp

theorem decodePieces_bytes (s : Bytes) : decodePieces (s.map .inl) = s := by
  induction s with
  | nil => rfl
  | cons c s ih => rw [List.map_cons, decodePieces, ih]

/-- The rest of a string, up to its quotation mark. -/
theorem tokens_text {s : Bytes} (h : IsPlainText s) (t : Bytes) :
    tokens (.text []) (s ++ 34 :: t) = .text s :: tokens .between t := by
  rw [tokens_append (scan_text h []), List.nil_append, List.nil_append, tokens, scanByte, if_pos rfl]
  dsimp only
  rw [decodePieces_bytes]
  rfl

/-! ### Numbers -/

theorem isDigit_of_mem_decimal {n : Nat} {c : UInt8} (hc : c ∈ decimal n) : isDigit c = true := by
  have hdigit : ∀ d < 10, isDigit (digitChar d) = true := by decide
  unfold decimal formatNat at hc
  rcases List.mem_append.mp hc with h | h
  · rw [List.eq_of_mem_replicate h]
    decide
  · obtain ⟨d, hd, rfl⟩ := List.mem_map.mp h
    exact hdigit d (Nat.digits_lt_base (by decide) (List.mem_reverse.mp hd))

/-- A number of several digits does not start with a zero. -/
theorem decimal_cases (n : Nat) : decimal n = [48] ∨ ∃ c t, decimal n = c :: t ∧ c ≠ 48 := by
  by_cases hn : n = 0
  · subst hn
    exact .inl (by decide)
  · right
    have hne : Nat.digits 10 n ≠ [] := Nat.digits_ne_nil_iff_ne_zero.mpr hn
    have hlast := Nat.getLast_digit_ne_zero 10 hn
    have hlt : (Nat.digits 10 n).getLast hne < 10 := Nat.digits_lt_base (by decide) (List.getLast_mem hne)
    have hlen : 1 - ((Nat.digits 10 n).reverse.map digitChar).length = 0 := by
      have := List.length_pos_iff.mpr hne
      simp only [List.length_map, List.length_reverse]
      omega
    have hzero : ∀ d < 10, d ≠ 0 → digitChar d ≠ 48 := by decide
    refine ⟨digitChar ((Nat.digits 10 n).getLast hne), ((Nat.digits 10 n).dropLast.reverse).map digitChar, ?_,
      hzero _ hlt hlast⟩
    unfold decimal formatNat
    dsimp only
    rw [hlen, List.replicate_zero, List.nil_append, ← List.map_cons, ← List.reverse_concat,
      List.dropLast_concat_getLast]

theorem decimal_ne_nil (n : Nat) : decimal n ≠ [] := by
  rcases decimal_cases n with h | ⟨c, t, h, -⟩ <;> simp [h]

theorem isNumber_decimal (n : Nat) : isNumber (decimal n) = true := by
  have hdigits : ∀ c ∈ decimal n, isDigit c = true := fun c hc => isDigit_of_mem_decimal hc
  have hhead : (decimal n).head? ≠ some 45 := by
    intro h
    exact absurd (hdigits 45 (List.mem_of_head? h)) (by decide)
  have htake : (decimal n).takeWhile isDigit = decimal n := List.takeWhile_eq_self_iff.mpr hdigits
  have hdrop : (decimal n).dropWhile isDigit = [] := List.dropWhile_eq_nil_iff.mpr hdigits
  unfold isNumber
  simp only [if_neg hhead, htake, hdrop]
  rcases decimal_cases n with h | ⟨c, t, h, hc⟩
  · rw [h]
    decide
  · simp [h, hc, isFraction, isExponent]

/-- A digit goes on with a word. -/
theorem scanBetween_digit {c : UInt8} (h : isDigit c = true) (pending : List Token) (continued : Scanning) :
    scanBetween pending c continued = some (continued, []) := by
  have hdigit : ∀ c : UInt8, isDigit c = true → isJsonSpace c = false ∧ c ≠ 34 ∧ isMark c = false :=
    forall_byte (by decide +kernel)
  obtain ⟨hspace, hquote, hmark⟩ := hdigit c h
  rw [scanBetween, if_neg (by simp [hspace]), if_neg hquote, if_neg (by simp [hmark])]

theorem tokens_digits {s : Bytes} (h : ∀ c ∈ s, isDigit c = true) (w : Bytes) :
    tokens (.word w) s = [.word (w ++ s)] := by
  induction s generalizing w with
  | nil => rw [List.append_nil]; rfl
  | cons c s ih =>
    rw [tokens, scanByte, scanBetween_digit (h c List.mem_cons_self)]
    dsimp only
    rw [ih (fun d hd => h d (List.mem_cons_of_mem c hd)), List.append_assoc]
    rfl

/-- A number is read back. -/
theorem read_decimal (n : Nat) : read (decimal n) = ([.num (decimal n)], true) := by
  have hdigits : ∀ c ∈ decimal n, isDigit c = true := fun c hc => isDigit_of_mem_decimal hc
  have hword : ofWord (decimal n) = some (.num (decimal n)) := by
    have hletter : ∀ w : Bytes, (∃ c ∈ w, isDigit c = false) → decimal n ≠ w := by
      rintro w ⟨c, hc, hd⟩ rfl
      rw [hdigits c hc] at hd
      cases hd
    unfold ofWord
    rw [if_neg (hletter _ (by decide)), if_neg (hletter _ (by decide)), if_neg (hletter _ (by decide)),
      if_pos (isNumber_decimal n)]
  have htokens : tokens .between (decimal n) = [.word (decimal n)] := by
    obtain ⟨c, t, ht⟩ := List.exists_cons_of_ne_nil (decimal_ne_nil n)
    rw [ht] at hdigits ⊢
    rw [tokens, scanByte, scanBetween_digit (hdigits c List.mem_cons_self)]
    dsimp only
    rw [tokens_digits fun d hd => hdigits d (List.mem_cons_of_mem c hd)]
    rfl
  have hread : readToken {} (.word (decimal n)) = some (complete (.num (decimal n)) []) := by
    change (ofWord (decimal n)).map (fun v => complete v []) = _
    rw [hword, Option.map_some]
  rw [read, htokens, readTokens, hread]
  rfl

/-! ### Printing -/

def escapeByte (c : UInt8) : Bytes :=
  if c = 34 ∨ c = 92 then [92, c]
  else if c = 8 then str "\\b"
  else if c = 9 then str "\\t"
  else if c = 10 then str "\\n"
  else if c = 12 then str "\\f"
  else if c = 13 then str "\\r"
  else if c < 32 ∨ c = 127 then str "\\u" ++ formatNat 16 4 c.toNat
  else [c]

def quote (s : Bytes) : Bytes := 34 :: s.flatMap escapeByte ++ [34]

/-- The lines between two brackets. -/
def block (n : Nat) (start stop : Bytes) (ls : List Bytes) : Bytes :=
  if ls = [] then start ++ stop
  else start ++ [10] ++ join (str ",\n") (ls.map (List.replicate (2 * n + 2) 32 ++ ·)) ++ [10] ++
    List.replicate (2 * n) 32 ++ stop

mutual

/-- A value as jq prints it, at some depth. -/
def pretty (n : Nat) : Json → Bytes
  | .null => str "null"
  | .bool true => str "true"
  | .bool false => str "false"
  | .num t => t
  | .string s => quote s
  | .arr xs => block n (str "[") (str "]") (prettyElements (n + 1) xs)
  | .obj fs => block n (str "\x7b") (str "\x7d") (prettyFields (n + 1) fs)

def prettyElements (n : Nat) : List Json → List Bytes
  | [] => []
  | x :: xs => pretty n x :: prettyElements n xs

def prettyFields (n : Nat) : List (Bytes × Json) → List Bytes
  | [] => []
  | (k, x) :: fs => (quote k ++ str ": " ++ pretty n x) :: prettyFields n fs

end

mutual

/-- A value on one line. -/
def compact : Json → Bytes
  | .null => str "null"
  | .bool true => str "true"
  | .bool false => str "false"
  | .num t => t
  | .string s => quote s
  | .arr xs => str "[" ++ join (str ",") (compactElements xs) ++ str "]"
  | .obj fs => str "\x7b" ++ join (str ",") (compactFields fs) ++ str "\x7d"

def compactElements : List Json → List Bytes
  | [] => []
  | x :: xs => compact x :: compactElements xs

def compactFields : List (Bytes × Json) → List Bytes
  | [] => []
  | (k, x) :: fs => (quote k ++ str ":" ++ compact x) :: compactFields fs

end

/-- A value as `jq -r` prints it. -/
def raw : Json → Bytes
  | .string s => s
  | v => pretty 0 v

/-! ### Filters -/

/-- `.k` -/
def field (k : Bytes) : Json → Option Json
  | .null => some .null
  | .obj fs => some (((fs.find? fun f => f.1 = k).map Prod.snd).getD .null)
  | _ => none

/-- `.[]` -/
def elements : Json → Option (List Json)
  | .arr xs => some xs
  | .obj fs => some (fs.map Prod.snd)
  | _ => none

/-- `first` -/
def first : Json → Option Json
  | .null => some .null
  | .arr xs => some (xs.head?.getD .null)
  | _ => none

/-- Equal to a text. -/
def isText (s : Bytes) : Json → Bool
  | .string t => t == s
  | _ => false

/-- Two values that are written the same. -/
def same (v w : Json) : Bool := v.compact == w.compact

/-- `tostring`, and a value inside a string. -/
def toText : Json → Bytes
  | .string s => s
  | v => v.compact

/-- Neither `null` nor `false`. -/
def isTruthy : Json → Bool
  | .null | .bool false => false
  | _ => true

/-- What a filter gives for some values, up to the first on which it fails. -/
def untilError (g : Json → Option (List Json)) : List Json → List Json
  | [] => []
  | x :: xs => match g x with
    | none => []
    | some out => out ++ untilError g xs

theorem mem_untilError_iff {g : Json → Option (List Json)} {xs : List Json} {i : Json} :
    i ∈ untilError g xs ↔ ∃ l x r out, xs = l ++ x :: r ∧ (∀ y ∈ l, g y ≠ none) ∧ g x = some out ∧ i ∈ out := by
  induction xs with
  | nil => simp [untilError]
  | cons a xs ih =>
    rw [untilError]
    cases ha : g a with
    | none =>
      simp only [List.not_mem_nil, false_iff]
      rintro ⟨_ | ⟨b, l⟩, x, r, out, heq, hl, hx, -⟩
      · obtain ⟨rfl, rfl⟩ := List.cons.inj heq
        exact Option.some_ne_none out (hx.symm.trans ha)
      · obtain ⟨rfl, rfl⟩ := List.cons.inj heq
        exact hl a (by simp) ha
    | some out =>
      simp only [List.mem_append, ih]
      constructor
      · rintro (hi | ⟨l, x, r, out', rfl, hl, hx, hi⟩)
        · exact ⟨[], a, xs, out, rfl, by simp, ha, hi⟩
        · refine ⟨a :: l, x, r, out', rfl, List.forall_mem_cons.mpr ⟨?_, hl⟩, hx, hi⟩
          rw [ha]
          exact Option.some_ne_none out
      · rintro ⟨_ | ⟨b, l⟩, x, r, out', heq, hl, hx, hi⟩
        · obtain ⟨rfl, rfl⟩ := List.cons.inj heq
          rw [ha, Option.some_inj] at hx
          exact .inl (hx ▸ hi)
        · obtain ⟨rfl, rfl⟩ := List.cons.inj heq
          exact .inr ⟨l, x, r, out', rfl, fun y hy => hl y (List.mem_cons_of_mem a hy), hx, hi⟩

theorem isText_iff {s : Bytes} {v : Json} : v.isText s = true ↔ v = .string s := by
  cases v <;> simp [isText]

/-- If one field can be read, another one can. -/
theorem exists_field {x : Json} {k : Bytes} (h : x.field k ≠ none) (k' : Bytes) : ∃ i, x.field k' = some i := by
  cases x with
  | null => exact ⟨_, rfl⟩
  | obj fs => exact ⟨_, rfl⟩
  | bool b => exact absurd rfl h
  | num t => exact absurd rfl h
  | string s => exact absurd rfl h
  | arr xs => exact absurd rfl h

end Json

/-- The output of `jq -r`: a line for each value that the filter gives. -/
def jqRaw (filter : Json → List Json) (text : Bytes) : Bytes :=
  unlines (((Json.read text).1.flatMap filter).map Json.raw)

/-- `jq -e .` succeeds: the text is JSON, and the last value counts as true. -/
def jqTest (text : Bytes) : Bool := (Json.read text).2 && ((Json.read text).1.getLast?.map Json.isTruthy).getD false

theorem mem_jqRaw_iff {filter : Json → List Json} {text : Bytes} {b : UInt8} :
    b ∈ jqRaw filter text ↔ ∃ v ∈ (Json.read text).1, ∃ i ∈ filter v, b ∈ i.raw ∨ b = 10 := by
  simp only [jqRaw, unlines, List.mem_flatMap, List.mem_map, List.mem_append, List.mem_singleton]
  constructor
  · rintro ⟨l, ⟨i, ⟨v, hv, hi⟩, rfl⟩, hb⟩
    exact ⟨v, hv, i, hi, hb⟩
  · rintro ⟨v, hv, i, hi, hb⟩
    exact ⟨i.raw, ⟨i, ⟨v, hv, hi⟩, rfl⟩, hb⟩

end MaasBoot
