import MaasBoot.Lib.Format
import MaasBoot.Lib.IpxeText

/-!
# Running iPXE scripts

Before a command is run the references in its words are replaced, the innermost and leftmost first; what they stand
for is looked up in the settings that the script has made and then in those of iPXE itself.  A line that fails ends
the script.  The machine knows the commands `set`, `isset`, `iseq`, `inc`, `goto`, `exit`, `echo` and `sleep`;
whether any other command succeeds is up to the environment, and may depend on all commands before it.

Two kinds of faults are noted that iPXE itself does not report: a jump to a label that does not occur exactly once,
and a reference to a setting that has no value.
-/

namespace MaasBoot

namespace Ipxe

/-! ### References -/

/-- The first reference without another one inside: the text before it, its name, the text after it. -/
def findRef (head : Bytes) (name : Option Bytes) : Bytes → Option (Bytes × Bytes × Bytes)
  | [] => none
  | 36 :: 123 :: s =>
    -- a reference inside another one comes first
    match name with
    | none => findRef head (some []) s
    | some x => findRef (head ++ [36, 123] ++ x) (some []) s
  | c :: s =>
    match name with
    | none => findRef (head ++ [c]) none s
    | some x => if c = 125 then some (head, x, s) else findRef head (some (x ++ [c])) s

/-- A word with at most `n` references replaced, and the names without a value. -/
def resolveN (lk : Bytes → Option Bytes) : Nat → Bytes → Bytes × List Bytes
  | 0, s => (s, [])
  | n + 1, s =>
    match findRef [] none s with
    | none => (s, [])
    | some (head, name, tail) =>
      match lk name with
      | some v => resolveN lk n (head ++ v ++ tail)
      | none =>
        let r := resolveN lk n (head ++ tail)
        (r.1, name :: r.2)

/-- A word with its references replaced.  Values have no dollar sign, so every replacement takes one away. -/
def resolve (lk : Bytes → Option Bytes) (s : Bytes) : Bytes × List Bytes := resolveN lk (s.count 36) s

def resolveWords (lk : Bytes → Option Bytes) (ws : List Bytes) : List Bytes × List Bytes :=
  (ws.map fun w => (resolve lk w).1, ws.flatMap fun w => (resolve lk w).2)

/-! ### Commands -/

inductive Value where
  | text (s : Bytes)
  | int32 (z : Int)
  deriving DecidableEq

def Value.format : Value → Bytes
  | .text s => s
  | .int32 z => (if z < 0 then str "-" else []) ++ decimal z.natAbs

/-- What iPXE runs in: its own settings, the values it takes for the settings of an interface, and which commands
succeed after others. -/
structure Env where
  settings : Bytes → Option Bytes
  accepts : Bytes → Bytes → Bool
  succeeds : List (List Bytes) → List Bytes → Bool

inductive Fault where
  | label (l : Bytes)
  | unset (name : Bytes)
  deriving DecidableEq

/-- The lines still to run, the settings made, the commands given to the environment, the faults, and whether the
script has ended and with success. -/
structure State where
  rest : List Line
  vars : Bytes → Option Value
  trace : List (List Bytes)
  faults : List Fault
  halted : Option Bool

inductive Instr where
  | nop
  | set (name value : Bytes)
  | isset (v : Bytes)
  | iseq (a b : Bytes)
  | inc (name : Bytes)
  | goto (label : Bytes)
  | exit (status : Bytes)
  | say
  | other
  | usage
  deriving DecidableEq

def readInstr : List Bytes → Instr
  | [] => .nop
  | cmd :: args =>
    if cmd = str "set" then
      match args with
      | name :: vs => .set name (join (str " ") vs)
      | _ => .usage
    else if cmd = str "isset" then
      match args with
      | [v] => .isset v
      | _ => .usage
    else if cmd = str "iseq" then
      match args with
      | [a, b] => .iseq a b
      | _ => .usage
    else if cmd = str "inc" then
      match args with
      | [name] => .inc name
      | _ => .usage
    else if cmd = str "goto" then
      match args with
      | [l] => .goto l
      | _ => .usage
    else if cmd = str "exit" then
      match args with
      | [] => .exit (str "0")
      | [status] => .exit status
      | _ => .usage
    else if cmd = str "echo" ∨ cmd = str "sleep" then .say
    else .other

/-- How a command ends: with success, with a failure, or by leaving its line. -/
inductive Flow where
  | ok
  | failed
  | left
  deriving DecidableEq

def Flow.ofBool (b : Bool) : Flow := if b then .ok else .failed

def State.setVar (s : State) (name : Bytes) (v : Option Value) : State :=
  { s with vars := fun x => if x = name then v else s.vars x }

def State.record (s : State) (argv : List Bytes) : State := { s with trace := s.trace ++ [argv] }

def State.note (s : State) (fs : List Fault) : State := { s with faults := s.faults ++ fs }

/-- The state in which the script goes on with given lines. -/
def State.move (s : State) (rest : List Line) : State := { s with rest := rest }

/-- The value of a signed 32-bit integer. -/
def wrap32 (z : Int) : Int := z.bmod (2 ^ 32)

/-- `set`: an interface's setting has a slash in its name, and a variable may have a type.  Setting nothing deletes.
-/
def State.assign (e : Env) (s : State) (argv : List Bytes) (name value : Bytes) : State × Flow :=
  if 47 ∈ name then
    if e.accepts name value then ((s.record argv).setVar name (some (.text value)), .ok) else (s.record argv, .failed)
  else
    match name.splitOn 58 with
    | [x] => (s.setVar x (if value = [] then none else some (.text value)), .ok)
    | [x, t] =>
      if t = str "int32" ∧ value ≠ [] ∧ value.all (fun c => 48 ≤ c && c ≤ 57) then
        (s.setVar x (some (.int32 (wrap32 (parseNat 10 value)))), .ok)
      else (s, .failed)
    | _ => (s, .failed)

/-- `inc`; without a value a variable counts as zero. -/
def State.increment (s : State) (name : Bytes) : State × Flow :=
  match s.vars name with
  | none => (s.setVar name (some (.int32 1)), .ok)
  | some (.int32 z) => (s.setVar name (some (.int32 (wrap32 (z + 1)))), .ok)
  | some (.text _) => (s, .failed)

/-- `goto`: the script goes on at the first line with the label. -/
def State.jump (s : State) (lines : List Line) (l : Bytes) : State × Flow :=
  match lines.dropWhile fun ln => ln.label ≠ some l with
  | [] => (s.note [.label l], .failed)
  | ln :: rest =>
    let s := s.move (ln :: rest)
    (if rest.any fun ln => ln.label = some l then s.note [.label l] else s, .left)

def exec (e : Env) (lines : List Line) (s : State) (argv : List Bytes) : State × Flow :=
  match readInstr argv with
  | .nop => (s, .ok)
  | .set name value => s.assign e argv name value
  | .isset v => (s, .ofBool (v ≠ []))
  | .iseq a b => (s, .ofBool (a = b))
  | .inc name => s.increment name
  | .goto l => s.jump lines l
  | .exit status => ({ s with halted := some (status = str "0") }, .left)
  | .say => (s.record argv, .ok)
  | .other => (s.record argv, .ofBool (e.succeeds s.trace argv))
  | .usage => (s, .failed)

/-! ### Lines and scripts -/

/-- The value of a setting: the script's own, or iPXE's. -/
def State.lookup (e : Env) (s : State) (name : Bytes) : Option Bytes :=
  match s.vars name with
  | some v => some v.format
  | none => e.settings name

def runCommand (e : Env) (lines : List Line) (s : State) (cmd : List Bytes) : State × Flow :=
  let x := resolveWords (s.lookup e) cmd
  exec e lines (s.note (x.2.map .unset)) x.1

/-- The commands of a line: `go` says whether the next one is run, `rc` how the last one that was run has ended. -/
def runCommands (e : Env) (lines : List Line) : State → Bool → Bool → List (List Bytes × Link) → State × Flow
  | s, _, rc, [] => (s, .ofBool rc)
  | s, go, rc, (cmd, link) :: cs =>
    match if go then runCommand e lines s cmd else (s, .ofBool rc) with
    | (s, .left) => (s, .left)
    | (s, flow) =>
      let rc := decide (flow = .ok)
      match link with
      | .stop => (s, flow)
      | .and => runCommands e lines s rc rc cs
      | .or => runCommands e lines s (!rc) rc cs
      | .always => runCommands e lines s true rc cs

/-- One line of the script. -/
def step (e : Env) (lines : List Line) (s : State) : State :=
  match s.halted, s.rest with
  | some _, _ => s
  | none, [] => { s with halted := some true }
  | none, ln :: rest =>
    match runCommands e lines (s.move rest) true true ln.commands with
    | (s, .failed) => { s with halted := some false }
    | (s, _) => s

def start (lines : List Line) : State where
  rest := lines
  vars := fun _ => none
  trace := []
  faults := []
  halted := none

/-- The state after `k` lines of the script with a given text. -/
def run (e : Env) (text : Bytes) (k : Nat) : State := (step e (parseScript text))^[k] (start (parseScript text))

/-! ### Replacing references -/

/-- A byte that does not begin a reference. -/
private theorem findRef_cons {c : UInt8} (hc : c ≠ 36) (head : Bytes) (name : Option Bytes) (s : Bytes) :
    findRef head name (c :: s) =
      match name with
      | none => findRef (head ++ [c]) none s
      | some x => if c = 125 then some (head, x, s) else findRef head (some (x ++ [c])) s := by
  rw [findRef.eq_def]
  split
  · rename_i h
    cases h
  · rename_i h
    exact absurd (List.cons.inj h).1 hc
  · rename_i h
    obtain ⟨rfl, rfl⟩ := List.cons.inj h
    rfl

theorem findRef_text {a : Bytes} (ha : 36 ∉ a) (head s : Bytes) :
    findRef head none (a ++ s) = findRef (head ++ a) none s := by
  induction a generalizing head with
  | nil => simp
  | cons c a ih =>
    have hc : c ≠ 36 := fun h => ha (h ▸ List.mem_cons_self ..)
    rw [List.cons_append, findRef_cons hc]
    dsimp only
    rw [ih fun h => ha (List.mem_cons_of_mem _ h), List.append_assoc, List.singleton_append]

theorem findRef_name {v : Bytes} (hd : 36 ∉ v) (hb : 125 ∉ v) (head x s : Bytes) :
    findRef head (some x) (v ++ s) = findRef head (some (x ++ v)) s := by
  induction v generalizing x with
  | nil => simp
  | cons c v ih =>
    have hc : c ≠ 36 := fun h => hd (h ▸ List.mem_cons_self ..)
    have hc' : c ≠ 125 := fun h => hb (h ▸ List.mem_cons_self ..)
    rw [List.cons_append, findRef_cons hc]
    dsimp only
    rw [if_neg hc', ih (fun h => hd (List.mem_cons_of_mem _ h)) fun h => hb (List.mem_cons_of_mem _ h),
      List.append_assoc, List.singleton_append]

theorem findRef_close (head x s : Bytes) : findRef head (some x) (125 :: s) = some (head, x, s) := by
  rw [findRef_cons (by decide)]
  exact if_pos rfl

theorem ref_append (v s : Bytes) : ref v ++ s = 36 :: 123 :: (v ++ 125 :: s) := by
  rw [ref, show str "$\x7b" = [36, 123] by decide, show str "\x7d" = [125] by decide]
  simp

/-- The first reference of a text, if its name has no reference. -/
theorem findRef_ref {a v : Bytes} (ha : 36 ∉ a) (hd : 36 ∉ v) (hb : 125 ∉ v) (s : Bytes) :
    findRef [] none (a ++ (ref v ++ s)) = some (a, v, s) := by
  rw [findRef_text ha, ref_append, findRef]
  rw [findRef_name hd hb, findRef_close, List.nil_append, List.nil_append]

/-- A reference inside the name of the first reference of a text. -/
theorem findRef_nested {a b v : Bytes} (ha : 36 ∉ a) (hb : 36 ∉ b ∧ 125 ∉ b) (hv : 36 ∉ v ∧ 125 ∉ v) (c s : Bytes) :
    findRef [] none (a ++ (ref (b ++ (ref v ++ c)) ++ s)) = some (a ++ [36, 123] ++ b, v, c ++ 125 :: s) := by
  rw [findRef_text ha, ref_append, findRef]
  rw [List.append_assoc, findRef_name hb.1 hb.2, List.append_assoc, ref_append, findRef]
  rw [findRef_name hv.1 hv.2, findRef_close, List.nil_append, List.nil_append, List.nil_append]

section Expand

variable {lk : Bytes → Option Bytes}

theorem resolveN_of_not_mem {s : Bytes} (h : 36 ∉ s) (n : Nat) : resolveN lk n s = (s, []) := by
  cases n with
  | zero => rfl
  | succ n =>
    have := findRef_text h [] []
    rw [List.append_nil] at this
    rw [resolveN, this]
    rfl

theorem resolveN_ref {a v x : Bytes} (ha : 36 ∉ a) (hd : 36 ∉ v) (hb : 125 ∉ v) (hx : lk v = some x) (n : Nat)
    (s : Bytes) :
    resolveN lk (n + 1) (a ++ (ref v ++ s)) = resolveN lk n (a ++ (x ++ s)) := by
  rw [resolveN, findRef_ref ha hd hb]
  simp only [hx, List.append_assoc]

theorem resolveN_unset {a v : Bytes} (ha : 36 ∉ a) (hd : 36 ∉ v) (hb : 125 ∉ v) (hx : lk v = none) (n : Nat)
    (s : Bytes) :
    resolveN lk (n + 1) (a ++ (ref v ++ s)) = ((resolveN lk n (a ++ s)).1, v :: (resolveN lk n (a ++ s)).2) := by
  rw [resolveN, findRef_ref ha hd hb]
  simp only [hx]

theorem resolveN_nested {a b v x : Bytes} (ha : 36 ∉ a) (hb : 36 ∉ b ∧ 125 ∉ b) (hv : 36 ∉ v ∧ 125 ∉ v)
    (hx : lk v = some x) (n : Nat) (c s : Bytes) :
    resolveN lk (n + 1) (a ++ (ref (b ++ (ref v ++ c)) ++ s)) = resolveN lk n (a ++ (ref (b ++ (x ++ c)) ++ s)) := by
  rw [resolveN, findRef_nested ha hb hv]
  simp only [hx, ref_append]
  simp

theorem resolve_of_not_mem {s : Bytes} (h : 36 ∉ s) : resolve lk s = (s, []) := resolveN_of_not_mem h _

/-- A word with one reference. -/
theorem resolve_ref {a v x s : Bytes} (ha : 36 ∉ a) (hs : 36 ∉ s) (hd : 36 ∉ v) (hb : 125 ∉ v) (hx : lk v = some x)
    (hx' : 36 ∉ x) : resolve lk (a ++ (ref v ++ s)) = (a ++ (x ++ s), []) := by
  have hcount : (a ++ (ref v ++ s)).count 36 = 0 + 1 := by
    rw [ref_append, List.count_append, List.count_cons_self, List.count_cons_of_ne (by decide), List.count_append,
      List.count_cons_of_ne (by decide), List.count_eq_zero_of_not_mem ha, List.count_eq_zero_of_not_mem hd,
      List.count_eq_zero_of_not_mem hs]
  rw [resolve, hcount, resolveN_ref ha hd hb hx]
  exact resolveN_of_not_mem (by simp [ha, hx', hs]) _

/-- A word with a reference whose name has a reference. -/
theorem resolve_nested {a b c v x y s : Bytes} (ha : 36 ∉ a) (hs : 36 ∉ s) (hb : 36 ∉ b ∧ 125 ∉ b)
    (hc : 36 ∉ c ∧ 125 ∉ c) (hv : 36 ∉ v ∧ 125 ∉ v) (hx : lk v = some x) (hx' : 36 ∉ x ∧ 125 ∉ x) :
    (lk (b ++ (x ++ c)) = some y → 36 ∉ y → resolve lk (a ++ (ref (b ++ (ref v ++ c)) ++ s)) = (a ++ (y ++ s), [])) ∧
      (lk (b ++ (x ++ c)) = none → resolve lk (a ++ (ref (b ++ (ref v ++ c)) ++ s)) = (a ++ s, [b ++ (x ++ c)])) := by
  have hcount : (a ++ (ref (b ++ (ref v ++ c)) ++ s)).count 36 = 0 + 1 + 1 := by
    rw [ref_append, ref_append, List.count_append, List.count_cons_self, List.count_cons_of_ne (by decide),
      List.count_append, List.count_append, List.count_cons_self, List.count_cons_of_ne (by decide),
      List.count_append, List.count_cons_of_ne (by decide), List.count_cons_of_ne (by decide),
      List.count_eq_zero_of_not_mem ha,
      List.count_eq_zero_of_not_mem hb.1, List.count_eq_zero_of_not_mem hv.1, List.count_eq_zero_of_not_mem hc.1,
      List.count_eq_zero_of_not_mem hs]
  have hname : 36 ∉ b ++ (x ++ c) ∧ 125 ∉ b ++ (x ++ c) := by
    simp [hb, hc, hx']
  rw [resolve, hcount, resolveN_nested ha hb hv hx]
  constructor
  · intro hy hy'
    rw [resolveN_ref ha hname.1 hname.2 hy]
    exact resolveN_of_not_mem (by simp [ha, hy', hs]) _
  · intro hy
    rw [resolveN_unset ha hname.1 hname.2 hy, resolveN_of_not_mem (by simp [ha, hs])]

/-- Words that are replaced without a fault. -/
theorem resolveWords_eq {ws ts : List Bytes} (h : List.Forall₂ (fun w t => resolve lk w = (t, [])) ws ts) :
    resolveWords lk ws = (ts, []) := by
  induction h with
  | nil => rfl
  | cons hw _ ih =>
    rw [resolveWords, Prod.mk.injEq] at ih
    rw [resolveWords, List.map_cons, List.flatMap_cons, hw, ih.1, ih.2]
    rfl

end Expand

/-! ### Steps -/

section Steps

variable {e : Env} {lines : List Line}

@[simp] theorem State.note_nil (s : State) : s.note [] = s := by
  simp [State.note]

theorem runCommand_of_expandWords {s : State} {cmd argv : List Bytes}
    (h : resolveWords (s.lookup e) cmd = (argv, [])) :
    runCommand e lines s cmd = exec e lines s argv := by
  rw [runCommand, h]
  simp

@[simp] theorem runCommand_nil (s : State) : runCommand e lines s [] = (s, .ok) := by
  have h : resolveWords (s.lookup e) [] = ([], []) := rfl
  rw [runCommand_of_expandWords h]
  rfl

variable {s s' s'' : State} {rest : List Line} {cmd cmd' : List Bytes} {flow : Flow}

theorem step_cons {ln : Line} (hh : s.halted = none) (hr : s.rest = ln :: rest)
    (hc : runCommands e lines (s.move rest) true true ln.commands = (s', flow)) (hf : flow ≠ .failed) :
    step e lines s = s' := by
  unfold step
  rw [hh, hr]
  dsimp only
  rw [hc]
  cases flow with
  | ok => rfl
  | left => rfl
  | failed => exact absurd rfl hf

theorem step_ok {ln : Line} (hh : s.halted = none) (hr : s.rest = ln :: rest)
    (hc : runCommands e lines (s.move rest) true true ln.commands = (s', .ok)) : step e lines s = s' :=
  step_cons hh hr hc nofun

theorem step_left {ln : Line} (hh : s.halted = none) (hr : s.rest = ln :: rest)
    (hc : runCommands e lines (s.move rest) true true ln.commands = (s', .left)) : step e lines s = s' :=
  step_cons hh hr hc nofun

theorem step_label {l : Bytes} (hh : s.halted = none) (hr : s.rest = labelLine l :: rest) :
    step e lines s = s.move rest := by
  exact step_ok hh hr (by simp [labelLine, runCommands])

theorem step_run (hh : s.halted = none) (hr : s.rest = runLine cmd :: rest)
    (hc : runCommand e lines (s.move rest) cmd = (s', flow)) (hf : flow ≠ .failed) : step e lines s = s' := by
  refine step_cons hh hr ?_ hf
  cases flow with
  | ok => simp [runLine, runCommands, hc]
  | left => simp [runLine, runCommands, hc]
  | failed => exact absurd rfl hf

theorem step_try (hh : s.halted = none) (hr : s.rest = tryLine cmd :: rest)
    (hc : runCommand e lines (s.move rest) cmd = (s', flow)) : step e lines s = s' := by
  cases flow with
  | ok => exact step_ok hh hr (by simp [tryLine, runCommands, hc, Flow.ofBool])
  | left => exact step_left hh hr (by simp [tryLine, runCommands, hc])
  | failed => exact step_ok hh hr (by simp [tryLine, runCommands, hc])

theorem step_or_ok (hh : s.halted = none) (hr : s.rest = orLine cmd cmd' :: rest)
    (hc : runCommand e lines (s.move rest) cmd = (s', .ok)) : step e lines s = s' := by
  exact step_ok hh hr (by simp [orLine, runCommands, hc, Flow.ofBool])

theorem step_or_failed (hh : s.halted = none) (hr : s.rest = orLine cmd cmd' :: rest)
    (hc : runCommand e lines (s.move rest) cmd = (s', .failed))
    (hc' : runCommand e lines s' cmd' = (s'', .left)) : step e lines s = s'' := by
  exact step_left hh hr (by simp [orLine, runCommands, hc, hc'])

theorem step_and_ok (hh : s.halted = none) (hr : s.rest = andLine cmd cmd' :: rest)
    (hc : runCommand e lines (s.move rest) cmd = (s', .ok))
    (hc' : runCommand e lines s' cmd' = (s'', .left)) : step e lines s = s'' := by
  exact step_left hh hr (by simp [andLine, runCommands, hc, hc'])

theorem step_andTry_ok (hh : s.halted = none) (hr : s.rest = andTryLine cmd cmd' :: rest)
    (hc : runCommand e lines (s.move rest) cmd = (s', .ok))
    (hc' : runCommand e lines s' cmd' = (s'', .left)) : step e lines s = s'' := by
  exact step_left hh hr (by simp [andTryLine, runCommands, hc, hc'])

theorem step_andTry_failed (hh : s.halted = none) (hr : s.rest = andTryLine cmd cmd' :: rest)
    (hc : runCommand e lines (s.move rest) cmd = (s', .failed)) : step e lines s = s' := by
  exact step_ok hh hr (by simp [andTryLine, runCommands, hc, Flow.ofBool])

/-- A jump to the only line with a label. -/
theorem jump_of_unique {l : Bytes} {pre post : List Line} {ln : Line} (hlines : lines = pre ++ ln :: post)
    (hl : ln.label = some l) (hcount : (labels lines).count l = 1) :
    s.jump lines l = (s.move (ln :: post), .left) := by
  have hsplit : labels lines = labels pre ++ l :: labels post := by
    rw [hlines, labels, List.filterMap_append, List.filterMap_cons_some hl, labels, labels]
  rw [hsplit, List.count_append, List.count_cons_self] at hcount
  have hnot : ∀ lns, (labels lns).count l = 0 → ∀ ln ∈ lns, ln.label ≠ some l := by
    intro lns h0 ln hmem heq
    exact List.count_eq_zero.mp h0 (List.mem_filterMap.mpr ⟨ln, hmem, heq⟩)
  have hdrop : lines.dropWhile (fun ln => ln.label ≠ some l) = ln :: post := by
    rw [hlines, List.dropWhile_append_of_pos (by simpa using hnot pre (by omega)),
      List.dropWhile_cons_of_neg (by simpa using hl)]
  have hany : post.any (fun ln => ln.label = some l) = false := by
    simpa using hnot post (by omega)
  rw [State.jump, hdrop]
  simp [hany]

/-! ### Single commands -/

theorem readInstr_set (name : Bytes) (vs : List Bytes) :
    readInstr (str "set" :: name :: vs) = .set name (join (str " ") vs) := by
  rw [readInstr, if_pos rfl]

theorem readInstr_isset (v : Bytes) : readInstr [str "isset", v] = .isset v := by
  rw [readInstr, if_neg (by decide), if_pos rfl]

theorem readInstr_iseq (a b : Bytes) : readInstr [str "iseq", a, b] = .iseq a b := by
  rw [readInstr, if_neg (by decide), if_neg (by decide), if_pos rfl]

theorem readInstr_goto (l : Bytes) : readInstr [str "goto", l] = .goto l := by
  rw [readInstr, if_neg (by decide), if_neg (by decide), if_neg (by decide), if_neg (by decide), if_pos rfl]

theorem readInstr_echo (ws : List Bytes) : readInstr (str "echo" :: ws) = .say := by
  unfold readInstr
  dsimp only
  rw [if_neg (by decide), if_neg (by decide), if_neg (by decide), if_neg (by decide), if_neg (by decide),
    if_neg (by decide), if_pos (by decide)]

theorem readInstr_other {cmd : Bytes} (ws : List Bytes) (h : cmd ∉ [str "set", str "isset", str "iseq", str "inc",
    str "goto", str "exit", str "echo", str "sleep"]) : readInstr (cmd :: ws) = .other := by
  simp only [List.mem_cons, List.not_mem_nil, or_false, not_or] at h
  obtain ⟨h1, h2, h3, h4, h5, h6, h7, h8⟩ := h
  unfold readInstr
  dsimp only
  rw [if_neg h1, if_neg h2, if_neg h3, if_neg h4, if_neg h5, if_neg h6, if_neg (not_or.mpr ⟨h7, h8⟩)]

theorem runCommand_goto {l : Bytes} (hl : 36 ∉ l) : runCommand e lines s [str "goto", l] = s.jump lines l := by
  have hwords : resolveWords (s.lookup e) [str "goto", l] = ([str "goto", l], []) :=
    resolveWords_eq (.cons (resolve_of_not_mem (by decide)) (.cons (resolve_of_not_mem hl) .nil))
  rw [runCommand_of_expandWords hwords, exec, readInstr_goto]

/-- Setting a variable. -/
theorem step_set {x v : Bytes} (hh : s.halted = none) (hr : s.rest = runLine [str "set", x, v] :: rest)
    (hx : 36 ∉ x ∧ 47 ∉ x ∧ 58 ∉ x) (hv : 36 ∉ v) (hne : v ≠ []) :
    step e lines s = (s.move rest).setVar x (some (.text v)) := by
  have hwords : resolveWords ((s.move rest).lookup e) [str "set", x, v] = ([str "set", x, v], []) :=
    resolveWords_eq (.cons (resolve_of_not_mem (by decide)) (.cons (resolve_of_not_mem hx.1)
      (.cons (resolve_of_not_mem hv) .nil)))
  have hc : runCommand e lines (s.move rest) [str "set", x, v] =
      ((s.move rest).setVar x (some (.text v)), .ok) := by
    rw [runCommand_of_expandWords hwords, exec, readInstr_set]
    dsimp only
    rw [State.assign, if_neg hx.2.1, List.splitOn_eq_singleton hx.2.2]
    simp [join, hne]
  exact step_run hh hr hc nofun

/-- The variables after some assignments. -/
def assignAll (vars : Bytes → Option Value) (as : List (Bytes × Bytes)) : Bytes → Option Value :=
  as.foldl (fun vars a x => if x = a.1 then some (.text a.2) else vars x) vars

theorem assignAll_of_not_mem {vars : Bytes → Option Value} {as : List (Bytes × Bytes)} {x : Bytes}
    (h : x ∉ as.map (·.1)) : assignAll vars as x = vars x := by
  unfold assignAll
  induction as generalizing vars with
  | nil => rfl
  | cons a as ih =>
    rw [List.map_cons, List.mem_cons, not_or] at h
    rw [List.foldl_cons, ih h.2, if_neg h.1]

theorem assignAll_of_mem {vars : Bytes → Option Value} {as : List (Bytes × Bytes)} (hnodup : (as.map (·.1)).Nodup)
    {a : Bytes × Bytes} (ha : a ∈ as) : assignAll vars as a.1 = some (.text a.2) := by
  induction as generalizing vars with
  | nil => simp at ha
  | cons b as ih =>
    rw [List.map_cons, List.nodup_cons] at hnodup
    rcases List.mem_cons.mp ha with rfl | ha
    · change assignAll (fun x => if x = a.1 then some (.text a.2) else vars x) as a.1 = _
      rw [assignAll_of_not_mem hnodup.1, if_pos rfl]
    · exact ih hnodup.2 ha

/-- Setting variables one after the other. -/
theorem iterate_step_set {as : List (Bytes × Bytes)}
    (has : ∀ a ∈ as, (36 ∉ a.1 ∧ 47 ∉ a.1 ∧ 58 ∉ a.1) ∧ 36 ∉ a.2 ∧ a.2 ≠ []) (hh : s.halted = none)
    (hr : s.rest = as.map (fun a => runLine [str "set", a.1, a.2]) ++ rest) :
    (step e lines)^[as.length] s = { s with rest := rest, vars := assignAll s.vars as } := by
  induction as generalizing s with
  | nil =>
    rw [List.map_nil, List.nil_append] at hr
    simp [assignAll, ← hr]
  | cons a as ih =>
    rw [List.forall_mem_cons] at has
    rw [List.map_cons, List.cons_append] at hr
    rw [List.length_cons, Function.iterate_succ_apply, step_set hh hr has.1.1 has.1.2.1 has.1.2.2]
    exact ih has.2 hh rfl

/-! ### Runs -/

/-- Commands that have been run and faults are not forgotten. -/
structure State.Grows (s s' : State) : Prop where
  trace : s.trace <+: s'.trace
  faults : s.faults <+: s'.faults

namespace State.Grows

theorem refl (s : State) : s.Grows s := ⟨List.prefix_rfl, List.prefix_rfl⟩

theorem trans (h : s.Grows s') (h' : s'.Grows s'') : s.Grows s'' := ⟨h.trace.trans h'.trace, h.faults.trans h'.faults⟩

theorem record (s : State) (argv : List Bytes) : s.Grows (s.record argv) := ⟨List.prefix_append .., List.prefix_rfl⟩

theorem note (s : State) (fs : List Fault) : s.Grows (s.note fs) := ⟨List.prefix_rfl, List.prefix_append ..⟩

theorem assign (s : State) (argv : List Bytes) (name value : Bytes) : s.Grows (s.assign e argv name value).1 := by
  unfold State.assign
  split
  · split
    · exact ⟨List.prefix_append .., List.prefix_rfl⟩
    · exact record s argv
  · split
    · exact ⟨List.prefix_rfl, List.prefix_rfl⟩
    · split
      · exact ⟨List.prefix_rfl, List.prefix_rfl⟩
      · exact refl s
    · exact refl s

theorem increment (s : State) (name : Bytes) : s.Grows (s.increment name).1 := by
  unfold State.increment
  split
  · exact ⟨List.prefix_rfl, List.prefix_rfl⟩
  · exact ⟨List.prefix_rfl, List.prefix_rfl⟩
  · exact refl s

theorem jump (s : State) (l : Bytes) : s.Grows (s.jump lines l).1 := by
  unfold State.jump
  split
  · exact note s _
  · dsimp only
    split_ifs
    · exact ⟨List.prefix_rfl, List.prefix_append ..⟩
    · exact ⟨List.prefix_rfl, List.prefix_rfl⟩

end State.Grows

theorem exec_grows (s : State) (argv : List Bytes) : s.Grows (exec e lines s argv).1 := by
  unfold exec
  cases readInstr argv with
  | set name value => exact .assign s argv name value
  | inc name => exact .increment s name
  | goto l => exact .jump s l
  | say => exact .record s argv
  | other => exact .record s argv
  | nop => exact .refl s
  | isset v => exact .refl s
  | iseq a b => exact .refl s
  | exit status => exact ⟨List.prefix_rfl, List.prefix_rfl⟩
  | usage => exact .refl s

theorem runCommands_grows (cs : List (List Bytes × Link)) (s : State) (go rc : Bool) :
    s.Grows (runCommands e lines s go rc cs).1 := by
  induction cs generalizing s go rc with
  | nil => exact .refl s
  | cons c cs ih =>
    obtain ⟨cmd, link⟩ := c
    have hone : s.Grows (if go then runCommand e lines s cmd else (s, .ofBool rc)).1 := by
      cases go with
      | true => exact (State.Grows.note s _).trans (exec_grows _ _)
      | false => exact .refl s
    rw [runCommands]
    generalize (if go then runCommand e lines s cmd else (s, .ofBool rc)) = r at hone ⊢
    obtain ⟨s', flow⟩ := r
    cases flow with
    | left => exact hone
    | ok =>
      cases link with
      | stop => exact hone
      | and => exact hone.trans (ih s' _ _)
      | or => exact hone.trans (ih s' _ _)
      | always => exact hone.trans (ih s' _ _)
    | failed =>
      cases link with
      | stop => exact hone
      | and => exact hone.trans (ih s' _ _)
      | or => exact hone.trans (ih s' _ _)
      | always => exact hone.trans (ih s' _ _)

theorem step_grows (s : State) : s.Grows (step e lines s) := by
  unfold step
  split
  · exact .refl s
  · exact ⟨List.prefix_rfl, List.prefix_rfl⟩
  · rename_i ln rest _ _
    have hline : s.Grows (runCommands e lines (s.move rest) true true ln.commands).1 :=
      have h := runCommands_grows ln.commands (s.move rest) true true
      ⟨h.trace, h.faults⟩
    split
    · rename_i heq
      rw [heq] at hline
      exact ⟨hline.trace, hline.faults⟩
    · rename_i heq
      rw [heq] at hline
      exact hline

theorem iterate_grows (s : State) (k m : Nat) : ((step e lines)^[k] s).Grows ((step e lines)^[k + m] s) := by
  induction m with
  | zero => exact .refl _
  | succ m ih =>
    rw [← Nat.add_assoc, Function.iterate_succ_apply']
    exact ih.trans (step_grows _)

theorem step_of_halted {b : Bool} (h : s.halted = some b) : step e lines s = s := by
  simp [step, h]

end Steps

end Ipxe

end MaasBoot
