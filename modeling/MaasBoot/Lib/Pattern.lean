import MaasBoot.Lib.Shell

/-!
# Search and replace

The searches of `regexp` and `strings` that go through a text from left to right.  A pattern gives the length of its
match at a place, which is never empty; it sees whether the place is the start of a line and the text from there on.
The replacement of a match is a template with `$` expansions; patterns have no groups here.
-/

namespace MaasBoot

abbrev Pattern := Bool → Bytes → Option Nat

/-- The bytes behind `skip` ones that belong to a match, with matches replaced. -/
def replaceGo (m : Pattern) (repl : Bytes → Bytes) : Nat → Bool → Bytes → Bytes
  | _, _, [] => []
  | skip + 1, _, c :: s => replaceGo m repl skip (c == 10) s
  | 0, bol, c :: s =>
    match m bol (c :: s) with
    | some (n + 1) => repl ((c :: s).take (n + 1)) ++ replaceGo m repl n (c == 10) s
    | _ => c :: replaceGo m repl 0 (c == 10) s

/-- Every match, from left to right and without overlaps, replaced by `repl` of its text. -/
def replaceAll (m : Pattern) (repl : Bytes → Bytes) (s : Bytes) : Bytes := replaceGo m repl 0 true s

/-- Start and end of the first match at or behind `pos`, where `s` is the text from there on. -/
def findGo (m : Pattern) : Nat → Bool → Bytes → Option (Nat × Nat)
  | _, _, [] => none
  | pos, bol, c :: s =>
    match m bol (c :: s) with
    | some n => some (pos, pos + n)
    | none => findGo m (pos + 1) (c == 10) s

/-- `FindIndex`. -/
def findIndex (m : Pattern) (s : Bytes) : Option (Nat × Nat) := findGo m 0 true s

/-! ### Patterns -/

/-- A text. -/
def literal (t : Bytes) : Pattern := fun _ s => if t.isPrefixOf s then some t.length else none

/-- `strings.ReplaceAll` for a text that is not empty. -/
def replaceText (old new s : Bytes) : Bytes := replaceAll (literal old) (fun _ => new) s

/-- Do the first bytes belong to the given classes? -/
def matchClasses : List (UInt8 → Bool) → Bytes → Bool
  | [], _ => true
  | _ :: _, [] => false
  | p :: ps, c :: s => p c && matchClasses ps s

/-- A sequence of character classes at the start of a line. -/
def lineClasses (ps : List (UInt8 → Bool)) : Pattern := fun bol s =>
  if bol && matchClasses ps s then some ps.length else none

/-! ### Templates -/

def isWordRune (u : Unicode) (r : Nat) : Bool :=
  if r < 0x80 then (48 ≤ r && r ≤ 57) || (65 ≤ r && r ≤ 90) || (97 ≤ r && r ≤ 122) || r == 95 else u.isWord r

/-- The length of the name at the start of a text.  The fuel is the length of the text. -/
def nameLength (u : Unicode) : Nat → Bytes → Nat
  | 0, _ => 0
  | _ + 1, [] => 0
  | fuel + 1, c :: s =>
    if isWordRune u (decodeRune (c :: s)).1 then
      (decodeRune (c :: s)).2 + nameLength u fuel ((c :: s).drop (decodeRune (c :: s)).2)
    else 0

/-- `extract`: the name behind a `$`, in braces or not, and the text behind it. -/
def extract (u : Unicode) (s : Bytes) : Option (Bytes × Bytes) :=
  match s with
  | [] => none
  | c :: t =>
    if c = 123 then
      let i := nameLength u t.length t
      if i ≠ 0 ∧ (t.drop i).head? = some 125 then some (t.take i, t.drop (i + 1)) else none
    else
      let i := nameLength u s.length s
      if i ≠ 0 then some (s.take i, s.drop i) else none

/-- `Expand` for a pattern without groups: `$0` is the match, other names stand for nothing, `$$` is a dollar sign.
The fuel is the length of the template. -/
def expandAux (u : Unicode) (text : Bytes) : Nat → Bytes → Bytes
  | 0, _ => []
  | _ + 1, [] => []
  | fuel + 1, c :: t =>
    if c ≠ 36 then c :: expandAux u text fuel t
    else if t.head? = some 36 then 36 :: expandAux u text fuel (t.drop 1)
    else
      match extract u t with
      | none => 36 :: expandAux u text fuel t
      | some (name, rest) => (if name = str "0" then text else []) ++ expandAux u text fuel rest

def expand (u : Unicode) (template text : Bytes) : Bytes := expandAux u text template.length template

example : expand .asciiOnly (str "a$0b$\x7b0\x7d-$x.$$$") (str "M") = str "aM-.$$" := by decide

/-! ### Finding a match -/

/-- A match that is found is a match at some place. -/
theorem exists_of_findGo {m : Pattern} {pos : Nat} {bol : Bool} {s : Bytes} {r : Nat × Nat}
    (h : findGo m pos bol s = some r) :
    ∃ a t n, s = a ++ t ∧ m (if a = [] then bol else a.getLast? == some 10) t = some n := by
  induction s generalizing pos bol with
  | nil => cases h
  | cons c s ih =>
    rw [findGo] at h
    cases hm : m bol (c :: s) with
    | some n => exact ⟨[], c :: s, n, rfl, hm⟩
    | none =>
      rw [hm] at h
      obtain ⟨a, t, n, rfl, hmatch⟩ := ih h
      refine ⟨c :: a, t, n, rfl, ?_⟩
      cases a with
      | nil => simpa using hmatch
      | cons d a => simpa using hmatch

/-- The line behind the start of a line is one of the lines of the text. -/
theorem takeWhile_mem_splitOn {a t : Bytes} (ha : a = [] ∨ a.getLast? = some 10) :
    t.takeWhile (fun c => !(c == 10)) ∈ (a ++ t).splitOn 10 := by
  obtain ⟨rest, hrest⟩ := splitOn_eq_cons 10 t
  rcases ha with rfl | ha
  · rw [List.nil_append, hrest]
    exact List.mem_cons_self ..
  · obtain ⟨b, rfl⟩ := List.getLast?_eq_some_iff.mp ha
    rw [List.append_assoc, List.singleton_append, List.splitOn_append_cons_self, hrest]
    exact List.mem_append_right _ (List.mem_cons_self ..)

/-- Where nothing is found nothing is replaced. -/
theorem replaceGo_of_findGo {m : Pattern} {repl : Bytes → Bytes} {pos : Nat} {bol : Bool} {s : Bytes}
    (h : findGo m pos bol s = none) : replaceGo m repl 0 bol s = s := by
  induction s generalizing pos bol with
  | nil => rfl
  | cons c s ih =>
    rw [findGo] at h
    rw [replaceGo]
    split at h
    · cases h
    · rename_i hmatch
      simp only [hmatch, ih h]

/-! ### Replacing at the start of lines -/

theorem length_le_of_matchClasses {ps : List (UInt8 → Bool)} {s : Bytes} (h : matchClasses ps s = true) :
    ps.length ≤ s.length := by
  induction ps generalizing s with
  | nil => exact Nat.zero_le _
  | cons p ps ih =>
    cases s with
    | nil => simp [matchClasses] at h
    | cons c s =>
      simp only [matchClasses, Bool.and_eq_true] at h
      exact Nat.succ_le_succ (ih h.2)

/-- Classes without newlines do not look beyond the end of a line. -/
theorem matchClasses_append_newline {ps : List (UInt8 → Bool)} (hps : ∀ p ∈ ps, p 10 = false) (l t : Bytes) :
    matchClasses ps (l ++ 10 :: t) = matchClasses ps l := by
  induction ps generalizing l with
  | nil => rfl
  | cons p ps ih =>
    rw [List.forall_mem_cons] at hps
    cases l with
    | nil => simp [matchClasses, hps.1]
    | cons c l => simp only [List.cons_append, matchClasses, ih hps.2]

/-- A line with its match, if there is one, replaced. -/
def replaceLine (ps : List (UInt8 → Bool)) (r l : Bytes) : Bytes :=
  if matchClasses ps l then r ++ l.drop ps.length else l

section Lines

variable (ps : List (UInt8 → Bool)) (r : Bytes)

/-- Behind the start of a line nothing is replaced. -/
private theorem replaceGo_within {l : Bytes} (hl : 10 ∉ l) (rest : Bytes) :
    replaceGo (lineClasses ps) (fun _ => r) 0 false (l ++ rest) =
      l ++ replaceGo (lineClasses ps) (fun _ => r) 0 false rest := by
  induction l with
  | nil => rfl
  | cons c l ih =>
    rw [List.mem_cons, not_or] at hl
    have hc : (c == 10) = false := by simpa using fun h => hl.1 h.symm
    rw [List.cons_append, replaceGo, lineClasses, Bool.false_and, if_neg (by decide), hc, ih hl.2]
    rfl

private theorem replaceGo_skip {l : Bytes} (hl : 10 ∉ l) (rest : Bytes) :
    replaceGo (lineClasses ps) (fun _ => r) l.length false (l ++ rest) =
      replaceGo (lineClasses ps) (fun _ => r) 0 false rest := by
  induction l with
  | nil => rfl
  | cons c l ih =>
    rw [List.mem_cons, not_or] at hl
    have hc : (c == 10) = false := by simpa using fun h => hl.1 h.symm
    rw [List.cons_append, List.length_cons, replaceGo, hc, ih hl.2]

variable {ps} (hps : ∀ p ∈ ps, p 10 = false) (hne : ps ≠ [])
include hps hne

/-- A newline is copied, and a line starts behind it. -/
private theorem replaceGo_newline (bol : Bool) (t : Bytes) :
    replaceGo (lineClasses ps) (fun _ => r) 0 bol (10 :: t) = 10 :: replaceAll (lineClasses ps) (fun _ => r) t := by
  have hno : matchClasses ps (10 :: t) = false := by
    cases ps with
    | nil => exact absurd rfl hne
    | cons p ps => simp [matchClasses, hps p (List.mem_cons_self ..)]
  rw [replaceGo, lineClasses, hno, Bool.and_false, if_neg (by decide)]
  rfl

/-- The first line. -/
private theorem replaceAll_line {l rest : Bytes} (hl : 10 ∉ l)
    (hmatch : matchClasses ps (l ++ rest) = matchClasses ps l) :
    ∃ bol, replaceAll (lineClasses ps) (fun _ => r) (l ++ rest) =
      replaceLine ps r l ++ replaceGo (lineClasses ps) (fun _ => r) 0 bol rest := by
  cases l with
  | nil =>
    refine ⟨true, ?_⟩
    have hnil : matchClasses ps [] = false := by
      cases ps with
      | nil => exact absurd rfl hne
      | cons p ps => rfl
    rw [replaceLine, hnil]
    rfl
  | cons c l =>
    refine ⟨false, ?_⟩
    have hl' := hl
    rw [List.mem_cons, not_or] at hl'
    have hc : (c == 10) = false := by simpa using fun h => hl'.1 h.symm
    rw [replaceAll, List.cons_append, replaceGo, ← List.cons_append, lineClasses, hmatch, hc, Bool.true_and,
      replaceLine]
    by_cases h : matchClasses ps (c :: l) = true
    · obtain ⟨n, hn⟩ : ∃ n, ps.length = n + 1 := Nat.exists_eq_succ_of_ne_zero fun h0 =>
        hne (List.eq_nil_of_length_eq_zero h0)
      have hlen := length_le_of_matchClasses h
      rw [hn, List.length_cons] at hlen
      rw [if_pos h, if_pos h, hn]
      dsimp only
      have hskip := replaceGo_skip ps r (l := l.take n) (fun hm => hl'.2 (List.mem_of_mem_take hm)) (l.drop n ++ rest)
      rw [← List.append_assoc, List.take_append_drop, List.length_take, Nat.min_eq_left (by omega)] at hskip
      rw [hskip, replaceGo_within ps r (fun hm => hl'.2 (List.mem_of_mem_drop hm)), List.append_assoc]
      rfl
    · rw [if_neg h, if_neg h]
      dsimp only
      rw [replaceGo_within ps r hl'.2, List.cons_append]

/-- A pattern at the start of lines is replaced line by line. -/
theorem splitOn_replaceAll (hr : 10 ∉ r) (s : Bytes) :
    (replaceAll (lineClasses ps) (fun _ => r) s).splitOn 10 = (s.splitOn 10).map (replaceLine ps r) := by
  have hline : ∀ l : Bytes, 10 ∉ l → 10 ∉ replaceLine ps r l := by
    intro l hl
    unfold replaceLine
    split
    · rw [List.mem_append, not_or]
      exact ⟨hr, fun h => hl (List.mem_of_mem_drop h)⟩
    · exact hl
  induction hn : s.length using Nat.strong_induction_on generalizing s with
  | _ n ih =>
    have hl : (10 : UInt8) ∉ s.takeWhile (fun c => !(c == 10)) := fun h => by simpa using List.mem_takeWhile_imp h
    rcases exists_takeWhile_append (· == 10) s with hs | ⟨c, t, hc, hs⟩
    · rw [← hs] at hl
      obtain ⟨bol, hb⟩ := replaceAll_line r hps hne hl (by rw [List.append_nil])
      rw [List.append_nil] at hb
      rw [hb, replaceGo, List.append_nil, List.splitOn_eq_singleton (hline s hl), List.splitOn_eq_singleton hl]
      rfl
    · obtain rfl : c = 10 := by simpa using hc
      generalize s.takeWhile (fun c => !(c == 10)) = l at hl hs
      subst hs
      obtain ⟨bol, hb⟩ := replaceAll_line r hps hne hl (matchClasses_append_newline hps l t)
      rw [hb, replaceGo_newline r hps hne, List.splitOn_append_cons_self_of_not_mem (hline l hl),
        List.splitOn_append_cons_self_of_not_mem hl, List.map_cons, ih t.length (by simp at hn; omega) t rfl]

end Lines

end MaasBoot
