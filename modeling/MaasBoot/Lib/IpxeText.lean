import MaasBoot.Lib.Shell

/-!
# The text of iPXE scripts

How iPXE reads a script.  A line that ends in a backslash goes on in the next one.  A line falls into words at white
space; a first word that starts with a colon is a label.  The words `&&`, `||` and `;` link commands, and a word that
starts with `#` begins a comment.

A script that is written from its lines (`Line.print`) is read back as these lines (`parseScript_unlines`,
`parseLine_print`).
-/

namespace MaasBoot

/-- A variable reference. -/
def ref (s : Bytes) : Bytes := str "$\x7b" ++ s ++ str "\x7d"

namespace Ipxe

/-- `isspace`. -/
def isSpaceByte (c : UInt8) : Bool := c == 32 || (9 ≤ c && c ≤ 13)

def tokens (s : Bytes) : List Bytes := (s.splitOnP isSpaceByte).filter (· ≠ [])

/-- When the command after this one is run: never (this one is the last), after a success, after a failure, always. -/
inductive Link where
  | stop
  | and
  | or
  | always
  deriving DecidableEq

/-- A line of a script: its label and its commands, each with what links it to the next. -/
structure Line where
  label : Option Bytes
  commands : List (List Bytes × Link)
  deriving DecidableEq

/-- The words that end a command. -/
def linkOf (t : Bytes) : Option Link :=
  if t.head? = some 35 then some .stop
  else if t = str "||" then some .or
  else if t = str "&&" then some .and
  else if t = str ";" then some .always
  else none

/-- The commands of a line; `cmd` is what has been read of the current one. -/
def splitCommands (cmd : List Bytes) : List Bytes → List (List Bytes × Link)
  | [] => [(cmd, .stop)]
  | t :: ts =>
    match linkOf t with
    | none => splitCommands (cmd ++ [t]) ts
    | some .stop => [(cmd, .stop)]
    | some link => (cmd, link) :: splitCommands [] ts

def parseLine (s : Bytes) : Line :=
  match tokens s with
  | (58 :: l) :: ts => ⟨some l, splitCommands [] ts⟩
  | ts => ⟨none, splitCommands [] ts⟩

/-- A line without its carriage return. -/
def stripCR (s : Bytes) : Bytes := if s.getLast? = some 13 then s.dropLast else s

/-- The lines of a script, those that a backslash continues put together; `acc` is what is continued. -/
def logicalLines (acc : Bytes) : List Bytes → List Bytes
  | [] => []
  | l :: ls =>
    let s := stripCR (acc ++ l)
    if s.getLast? = some 92 then logicalLines s.dropLast ls else s :: logicalLines [] ls

/-- The labels of some lines. -/
def labels (lines : List Line) : List Bytes := lines.filterMap Line.label

def parseScript (text : Bytes) : List Line := (logicalLines [] (fields 10 text)).map parseLine

/-! ### Writing lines -/

def Link.words : Link → List Bytes
  | .stop => []
  | .and => [str "&&"]
  | .or => [str "||"]
  | .always => [str ";"]

def commandWords (cs : List (List Bytes × Link)) : List Bytes := cs.flatMap fun c => c.1 ++ c.2.words

def Line.words (ln : Line) : List Bytes :=
  (match ln.label with
    | some l => [58 :: l]
    | none => []) ++ commandWords ln.commands

def Line.print (ln : Line) : Bytes := join (str " ") ln.words

/-- A character that neither ends a word nor continues a line. -/
def isVisible (c : UInt8) : Bool := 32 < c && c != 92

/-- A text that stands as a word in a command. -/
def isWord (t : Bytes) : Bool := t ≠ [] && t.all isVisible && linkOf t = none

/-- Exactly the last command ends the line. -/
def Linked : List (List Bytes × Link) → Prop
  | [] => False
  | [c] => c.2 = .stop
  | c :: cs => c.2 ≠ .stop ∧ Linked cs

/-- A line that can be read back. -/
structure Line.Printable (ln : Line) : Prop where
  isWord : ∀ c ∈ ln.commands, ∀ t ∈ c.1, isWord t = true
  linked : Linked ln.commands
  visible : ∀ l, ln.label = some l → l.all isVisible = true
  unlabelled : ln.label = none → ∀ t, (commandWords ln.commands).head? = some t → t.head? ≠ some 58

/-! ### Forms of lines -/

/-- `:label` -/
def labelLine (l : Bytes) : Line := ⟨some l, [([], .stop)]⟩

/-- `cmd` -/
def runLine (cmd : List Bytes) : Line := ⟨none, [(cmd, .stop)]⟩

/-- `cmd ||`: the command may fail. -/
def tryLine (cmd : List Bytes) : Line := ⟨none, [(cmd, .or), ([], .stop)]⟩

/-- `cmd || cmd'` -/
def orLine (cmd cmd' : List Bytes) : Line := ⟨none, [(cmd, .or), (cmd', .stop)]⟩

/-- `cmd && cmd'` -/
def andLine (cmd cmd' : List Bytes) : Line := ⟨none, [(cmd, .and), (cmd', .stop)]⟩

/-- `cmd && cmd' ||`: one of the commands may fail. -/
def andTryLine (cmd cmd' : List Bytes) : Line := ⟨none, [(cmd, .and), (cmd', .or), ([], .stop)]⟩

/-- Words that stand as a command, and do not begin with a label. -/
def isCommand (cmd : List Bytes) : Bool := cmd.all isWord && cmd.head?.any fun t => t.head? ≠ some 58

/-! ### Reading words back -/

theorem isWord_iff {t : Bytes} : isWord t = true ↔ t ≠ [] ∧ (∀ c ∈ t, isVisible c = true) ∧ linkOf t = none := by
  simp [isWord, and_assoc]

theorem isVisible_iff {c : UInt8} : isVisible c = true ↔ 32 < c ∧ c ≠ 92 := by
  simp [isVisible]

theorem isSpaceByte_of_isVisible {c : UInt8} (h : isVisible c = true) : isSpaceByte c = false := by
  have hall : ∀ c : UInt8, isVisible c = true → isSpaceByte c = false := forall_byte (by decide +kernel)
  exact hall c h

/-- Words that are joined by single spaces. -/
theorem tokens_join {ws : List Bytes} (h : ∀ w ∈ ws, w ≠ [] ∧ ∀ c ∈ w, isVisible c = true) :
    tokens (join (str " ") ws) = ws := by
  rw [show str " " = [32] by decide]
  unfold join
  induction ws with
  | nil => rfl
  | cons w ws ih =>
    rw [List.forall_mem_cons] at h
    have hw : tokens w = [w] := by
      rw [tokens, List.splitOnP_eq_singleton fun c hc => isSpaceByte_of_isVisible (h.1.2 c hc)]
      simp [h.1.1]
    cases ws with
    | nil => simpa using hw
    | cons w' ws =>
      rw [List.intercalate_cons_cons, List.append_assoc, List.singleton_append, tokens,
        List.splitOnP_append_cons _ _ (by decide), List.filter_append]
      change tokens w ++ tokens _ = _
      rw [hw, ih h.2, List.singleton_append]

/-! ### Reading lines back -/

/-- The words of a command are read up to what links it to the next. -/
theorem splitCommands_append {ws : List Bytes} (h : ∀ t ∈ ws, linkOf t = none) (cmd ts : List Bytes) :
    splitCommands cmd (ws ++ ts) = splitCommands (cmd ++ ws) ts := by
  induction ws generalizing cmd with
  | nil => simp
  | cons w ws ih =>
    rw [List.forall_mem_cons] at h
    rw [List.cons_append, splitCommands, h.1]
    dsimp only
    rw [ih h.2, List.append_assoc, List.singleton_append]

theorem splitCommands_link {l : Link} (hl : l ≠ .stop) (cmd ts : List Bytes) :
    splitCommands cmd (l.words ++ ts) = (cmd, l) :: splitCommands [] ts := by
  cases l with
  | stop => exact absurd rfl hl
  | and => rfl
  | or => rfl
  | always => rfl

theorem splitCommands_commandWords {cs : List (List Bytes × Link)} (hcs : ∀ c ∈ cs, ∀ t ∈ c.1, linkOf t = none)
    (hl : Linked cs) : splitCommands [] (commandWords cs) = cs := by
  induction cs with
  | nil => exact hl.elim
  | cons c cs ih =>
    rw [List.forall_mem_cons] at hcs
    rw [commandWords, List.flatMap_cons, List.append_assoc, splitCommands_append hcs.1, List.nil_append]
    cases cs with
    | nil =>
      obtain ⟨cmd, link⟩ := c
      obtain rfl : link = .stop := hl
      rfl
    | cons c' cs =>
      rw [splitCommands_link hl.1]
      exact congrArg _ (ih hcs.2 hl.2)

theorem Line.Printable.visible_words {ln : Line} (h : ln.Printable) :
    ∀ w ∈ ln.words, w ≠ [] ∧ ∀ c ∈ w, isVisible c = true := by
  intro w hw
  rcases List.mem_append.mp hw with hw | hw
  · cases hlabel : ln.label with
    | none => simp [hlabel] at hw
    | some l =>
      rw [hlabel, List.mem_singleton] at hw
      rw [hw]
      refine ⟨by simp, List.forall_mem_cons.mpr ⟨by decide, ?_⟩⟩
      exact List.all_eq_true.mp (h.visible l hlabel)
  · obtain ⟨c, hc, hw⟩ := List.mem_flatMap.mp hw
    rcases List.mem_append.mp hw with hw | hw
    · have := isWord_iff.mp (h.isWord c hc w hw)
      exact ⟨this.1, this.2.1⟩
    · cases hlink : c.2 with
      | stop => simp [hlink, Link.words] at hw
      | and => rw [hlink] at hw; rw [List.mem_singleton.mp hw]; exact ⟨by decide, List.all_eq_true.mp (by decide)⟩
      | or => rw [hlink] at hw; rw [List.mem_singleton.mp hw]; exact ⟨by decide, List.all_eq_true.mp (by decide)⟩
      | always => rw [hlink] at hw; rw [List.mem_singleton.mp hw]; exact ⟨by decide, List.all_eq_true.mp (by decide)⟩

theorem parseLine_print {ln : Line} (h : ln.Printable) : parseLine ln.print = ln := by
  have hsplit : splitCommands [] (commandWords ln.commands) = ln.commands :=
    splitCommands_commandWords (fun c hc t ht => (isWord_iff.mp (h.isWord c hc t ht)).2.2) h.linked
  have htok : tokens ln.print = ln.words := tokens_join h.visible_words
  obtain ⟨label, cs⟩ := ln
  cases label with
  | some l =>
    rw [parseLine, htok]
    exact congrArg (Line.mk (some l)) hsplit
  | none =>
    rw [parseLine, htok]
    change (match commandWords cs with | (58 :: l) :: ts => _ | ts => _) = _
    split
    · rename_i l ts heq
      exact absurd rfl (h.unlabelled rfl (58 :: l) (by simp [heq]))
    · exact congrArg (Line.mk none) hsplit

/-! ### Reading scripts back -/

/-- A text that is a line of its own. -/
def IsLine (s : Bytes) : Prop := 10 ∉ s ∧ s.getLast? ≠ some 13 ∧ s.getLast? ≠ some 92

theorem logicalLines_eq {ls : List Bytes} (h : ∀ l ∈ ls, IsLine l) : logicalLines [] ls = ls := by
  induction ls with
  | nil => rfl
  | cons l ls ih =>
    rw [List.forall_mem_cons] at h
    have hcr : stripCR l = l := if_neg h.1.2.1
    rw [logicalLines, List.nil_append, hcr, if_neg h.1.2.2, ih h.2]

theorem parseScript_unlines {ls : List Bytes} (h : ∀ l ∈ ls, IsLine l) :
    parseScript (unlines ls) = ls.map parseLine := by
  have hsplit : (unlines ls).splitOn 10 = ls ++ [[]] := by
    have := splitOn_flatMap_append (c := 10) (fun l hl => (h l hl).1) []
    rw [List.append_nil] at this
    exact this
  rw [parseScript, fields, hsplit, if_pos (by simp), List.dropLast_concat, logicalLines_eq h]

theorem isLine_of_visible {s : Bytes} (h : ∀ c ∈ s, isVisible c = true ∨ c = 32) : IsLine s := by
  have hno : ∀ c, isVisible c = false → c ≠ 32 → c ∉ s := by
    intro c hc hne hmem
    rcases h c hmem with hv | hv
    · rw [hc] at hv
      exact Bool.false_ne_true hv
    · exact hne hv
  refine ⟨hno 10 (by decide) (by decide), fun hlast => ?_, fun hlast => ?_⟩
  · exact hno 13 (by decide) (by decide) (List.mem_of_getLast? hlast)
  · exact hno 92 (by decide) (by decide) (List.mem_of_getLast? hlast)

theorem Line.Printable.isLine {ln : Line} (h : ln.Printable) : IsLine ln.print := by
  refine isLine_of_visible fun c hc => ?_
  rcases mem_or_mem_of_mem_join hc with hc | ⟨w, hw, hc⟩
  · exact .inr (List.mem_singleton.mp (show c ∈ [32] from (show str " " = [32] by decide) ▸ hc))
  · exact .inl ((h.visible_words w hw).2 c hc)

theorem isCommand_iff {cmd : List Bytes} :
    isCommand cmd = true ↔ (∀ t ∈ cmd, isWord t = true) ∧ ∃ t ts, cmd = t :: ts ∧ t.head? ≠ some 58 := by
  cases cmd with
  | nil => simp [isCommand]
  | cons t ts => simp [isCommand]

theorem isCommand_cons {w : Bytes} {ts : List Bytes} (hw : isCommand [w] = true) (hts : ∀ t ∈ ts, isWord t = true) :
    isCommand (w :: ts) = true := by
  obtain ⟨hword, t, ts', heq, hcolon⟩ := isCommand_iff.mp hw
  obtain ⟨rfl, rfl⟩ := List.cons.inj heq
  exact isCommand_iff.mpr ⟨List.forall_mem_cons.mpr ⟨hword _ (List.mem_cons_self ..), hts⟩, _, _, rfl, hcolon⟩

/-- A line without a label whose first command is not empty. -/
private theorem printable_unlabelled {cmd : List Bytes} {link : Link} {cs : List (List Bytes × Link)}
    (h : isCommand cmd = true) (hcs : ∀ c ∈ cs, ∀ t ∈ c.1, isWord t = true) (hl : Linked ((cmd, link) :: cs)) :
    Line.Printable ⟨none, (cmd, link) :: cs⟩ := by
  obtain ⟨hword, t, ts, rfl, hcolon⟩ := isCommand_iff.mp h
  refine ⟨List.forall_mem_cons.mpr ⟨hword, hcs⟩, hl, by simp, fun _ w hw => ?_⟩
  rw [commandWords, List.flatMap_cons, List.cons_append, List.cons_append, List.head?_cons, Option.some.injEq] at hw
  rw [← hw]
  exact hcolon

theorem printable_label {l : Bytes} (h : l.all isVisible = true) : (labelLine l).Printable :=
  ⟨by simp [labelLine], rfl, fun _ hl => Option.some.inj hl ▸ h, by simp [labelLine]⟩

theorem printable_run {cmd : List Bytes} (h : isCommand cmd = true) : (runLine cmd).Printable :=
  printable_unlabelled h (by simp) rfl

theorem printable_try {cmd : List Bytes} (h : isCommand cmd = true) : (tryLine cmd).Printable :=
  printable_unlabelled h (by simp) ⟨nofun, rfl⟩

theorem printable_or {cmd cmd' : List Bytes} (h : isCommand cmd = true) (h' : isCommand cmd' = true) :
    (orLine cmd cmd').Printable :=
  printable_unlabelled h (by simpa using (isCommand_iff.mp h').1) ⟨nofun, rfl⟩

theorem printable_and {cmd cmd' : List Bytes} (h : isCommand cmd = true) (h' : isCommand cmd' = true) :
    (andLine cmd cmd').Printable :=
  printable_unlabelled h (by simpa using (isCommand_iff.mp h').1) ⟨nofun, rfl⟩

theorem printable_andTry {cmd cmd' : List Bytes} (h : isCommand cmd = true) (h' : isCommand cmd' = true) :
    (andTryLine cmd cmd').Printable :=
  printable_unlabelled h (by simpa using (isCommand_iff.mp h').1) ⟨nofun, nofun, rfl⟩

/-- Texts of visible characters are words as soon as they have a character that is in no link. -/
theorem isWord_of_mem {t : Bytes} {c : UInt8} (hc : c ∈ t) (hlink : c ∉ [35, 38, 59, 124]) (hhead : t.head? ≠ some 35)
    (hvis : ∀ c ∈ t, isVisible c = true) : isWord t = true := by
  refine isWord_iff.mpr ⟨List.ne_nil_of_mem hc, hvis, ?_⟩
  have hne : ∀ w : Bytes, w.all ([35, 38, 59, 124].contains ·) = true → t ≠ w := by
    rintro w hw rfl
    exact hlink (List.contains_iff_mem.mp (List.all_eq_true.mp hw c hc))
  have hor : t ≠ str "||" := hne _ (by decide)
  have hand : t ≠ str "&&" := hne _ (by decide)
  have hseq : t ≠ str ";" := hne _ (by decide)
  rw [linkOf, if_neg hhead, if_neg hor, if_neg hand, if_neg hseq]

/-- A line that starts with `#` does nothing. -/
theorem parseLine_comment (s : Bytes) : parseLine (35 :: s) = runLine [] := by
  have htok : ∃ t ts, tokens (35 :: s) = (35 :: t) :: ts := by
    rw [tokens]
    cases hs : s.splitOnP isSpaceByte with
    | nil => exact absurd hs (List.splitOnP_ne_nil _ _)
    | cons t ts =>
      refine ⟨t, ts.filter (· ≠ []), ?_⟩
      rw [List.splitOnP_cons_eq_if_modifyHead, if_neg (by decide), hs]
      simp
  obtain ⟨t, ts, htok⟩ := htok
  rw [parseLine, htok]
  rfl

end Ipxe

end MaasBoot
