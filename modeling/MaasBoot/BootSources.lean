import MaasBoot.Lib.Jq
import MaasBoot.Lib.Runs
import MaasBoot.Lib.Shell

/-!
# Boot source selections

`configure_boot_sources` prepares an import: it sees to it that the wanted distribution is selected, removes the other
selections, and at last reads the selections once more to assert that none of the others is left.  All commands go
through `maas_cli`, which repeats a command as long as it gets an HTTP error, gives up after some time, and otherwise
prints whatever MAAS answers, be it an error message.

The last check asks jq for the selections that should not be there.  An answer that jq cannot read has none, and
neither has one that `maas_cli` did not get, so in these cases the script goes on without having seen the selections
(`configureBootSources_iff`).

The functions send their commands to anything that answers them: to a sequence of replies, or to a server with a
state of its own.
-/

namespace MaasBoot

/-! ### maas_cli -/

def transientErrors : List Bytes :=
  [str "<html", str "502 Bad Gateway", str "503 Service", str "Bad Gateway", str "Internal Server Error"]

def isTransient (output : Bytes) : Bool := grepAny transientErrors (echo output)

section Cli

variable {σ : Type} (send : σ → Bytes × σ)

/-- The loop of `maas_cli`, where `send` is the command and `σ` what answers it: what the loop prints, or nothing if
it gives up. -/
def maasCliLoop : Nat → Nat → σ → Option Bytes × σ
  | 0, _, s => (none, s)
  | fuel + 1, delay, s =>
    let (answer, s) := send s
    let output := capture answer
    if isTransient output then
      if delay > 300 then (none, s) else maasCliLoop fuel (delay * 2) s
    else (some (echo output), s)

/-- `maas_cli`: the delay is beyond 300 at the sixth attempt. -/
def maasCli (s : σ) : Option Bytes × σ := maasCliLoop send 6 10 s

/-- Six attempts are enough. -/
theorem maasCliLoop_fuel (s : σ) (k : Nat) : maasCliLoop send (6 + k) 10 s = maasCli send s := by
  rw [maasCli, Nat.add_comm 6 k]
  simp only [maasCliLoop, Nat.reduceMul, Nat.reduceLT, gt_iff_lt, if_true, if_false]

/-- The answer to the attempt with the number `i`. -/
def attempt (i : Nat) (s : σ) : Bytes := (send ((fun s => (send s).2)^[i] s)).1

variable {send}

/-- The loop gives up if all attempts up to the one with a long delay get HTTP errors. -/
private theorem maasCliLoop_eq_none_iff {k delay : Nat} (hle : ∀ j < k, delay * 2 ^ j ≤ 300)
    (hgt : 300 < delay * 2 ^ k) (s : σ) : (maasCliLoop send (k + 1) delay s).1 = none ↔
      ∀ i < k + 1, isTransient (capture (attempt send i s)) = true := by
  induction k generalizing delay s with
  | zero =>
    have hattempt : attempt send 0 s = (send s).1 := rfl
    rw [maasCliLoop]
    cases h : isTransient (capture (send s).1) with
    | false => simp [h, hattempt]
    | true => simp [h, hattempt, show delay > 300 by omega]
  | succ k ih =>
    have hdelay := hle 0 (Nat.succ_pos k)
    rw [maasCliLoop]
    cases h : isTransient (capture (send s).1) with
    | false =>
      simp only [h, Bool.false_eq_true, if_false, reduceCtorEq, false_iff]
      exact fun hall => absurd (hall 0 (Nat.succ_pos _)) (by simp [attempt, h])
    | true =>
      have hle' : ∀ j < k, delay * 2 * 2 ^ j ≤ 300 := by
        intro j hj
        rw [Nat.mul_assoc, ← pow_succ']
        exact hle (j + 1) (by omega)
      have hgt' : 300 < delay * 2 * 2 ^ k := by
        rwa [Nat.mul_assoc, ← pow_succ']
      simp only [h, if_true, if_neg (show ¬ delay > 300 by omega)]
      rw [ih hle' hgt']
      constructor
      · rintro hall (_ | i) hi
        · exact h
        · exact hall i (by omega)
      · intro hall i hi
        exact hall (i + 1) (by omega)

/-- `maas_cli` gives up after six HTTP errors. -/
theorem maasCli_eq_none_iff (s : σ) :
    (maasCli send s).1 = none ↔ ∀ i < 6, isTransient (capture (attempt send i s)) = true :=
  maasCliLoop_eq_none_iff (by decide) (by decide) s

end Cli

/-! ### The filters -/

/-- `select(p) | .id`; the condition may fail. -/
def selectId (p : Json → Option Bool) (x : Json) : Option (List Json) :=
  match p x with
  | none => none
  | some true => (x.field (str "id")).map ([·])
  | some false => some []

/-- `.[] | select(p) | .id` -/
def selectIds (p : Json → Option Bool) (v : Json) : List Json := Json.untilError (selectId p) (v.elements.getD [])

/-- `.[] | select(.os == $os and .release == $distro) | .id` -/
def desiredIds (os distro : Bytes) : Json → List Json :=
  selectIds fun x => match x.field (str "os") with
    | none => none
    | some o => if o.isText os then (x.field (str "release")).map (·.isText distro) else some false

/-- `first | .id // empty` -/
def firstId (v : Json) : List Json :=
  match v.first.bind (·.field (str "id")) with
  | none | some .null | some (.bool false) => []
  | some i => [i]

/-- `.release != $distro` -/
def otherRelease (distro : Bytes) (x : Json) : Option Bool := (x.field (str "release")).map fun r => !r.isText distro

/-- `.[] | select(.release != $distro) | .id` -/
def staleIds (distro : Bytes) : Json → List Json := selectIds (otherRelease distro)

/-! ### The script -/

/-- The variables of the environment; `useImageCache` is `USE_IMAGE_CACHE == 'true'`. -/
structure BootSourceEnv where
  useImageCache : Bool
  defaultOS : Bytes
  defaultDistro : Bytes

/-- The arguments of `maas`, without the profile. -/
abbrev MaasCommand := List Bytes

def updateSource : MaasCommand :=
  [str "boot-source", str "update", str "1", str "url=http://localhost:8888/maas/images/ephemeral-v3/daily/"]

def readSelections : MaasCommand := [str "boot-source-selections", str "read", str "1"]

def selectionFields (env : BootSourceEnv) : MaasCommand :=
  [str "os=" ++ env.defaultOS, str "release=" ++ env.defaultDistro, str "arches=amd64", str "subarches=*",
    str "labels=*"]

def createSelection (env : BootSourceEnv) : MaasCommand :=
  [str "boot-source-selections", str "create", str "1"] ++ selectionFields env

def updateSelection (env : BootSourceEnv) (id : Bytes) : MaasCommand :=
  [str "boot-source-selection", str "update", str "1", id] ++ selectionFields env

def deleteSelection (id : Bytes) : MaasCommand := [str "boot-source-selection", str "delete", str "1", id]

section Script

/-! The commands go to anything that answers them: `run` is `maas_cli`. -/

variable {σ : Type} (run : MaasCommand → σ → Option Bytes × σ)

/-- A command behind which stands `|| exit 1`. -/
def runOrExit (c : MaasCommand) (s : σ) : Option (Bytes × σ) :=
  match run c s with
  | (none, _) => none
  | (some printed, s') => some (printed, s')

variable (env : BootSourceEnv)

/-- The URL of the boot source, if there is an image cache. -/
def setSource (s : σ) : Option σ := if env.useImageCache then (runOrExit run updateSource s).map Prod.snd else some s

/-- The wanted distribution is selected, and the selections are read again if something changed. -/
def selectDesired (selections : Bytes) (s : σ) : Option (Bytes × σ) :=
  let desiredId := capture (jqRaw (desiredIds env.defaultOS env.defaultDistro) (echo selections))
  if desiredId = [] then do
    let id := capture (jqRaw firstId (echo selections))
    let (_, s) ← runOrExit run (if id ≠ [] then updateSelection env id else createSelection env) s
    let (printed, s) ← runOrExit run readSelections s
    some (capture printed, s)
  else some (selections, s)

/-- The loop over `stale_ids`. -/
def removeStale : List Bytes → σ → Option σ
  | [], s => some s
  | id :: ids, s =>
    let (printed, s) := run (deleteSelection id) s
    let result := capture (printed.getD [])
    if grepAny [str "Unable to delete", str "ephemeral"] (echo result) then do
      let (printed, s) ← runOrExit run (updateSelection env id) s
      if grepAny [str "error", str "not found", str "does not exist"] (echo (capture printed)) then none
      else removeStale ids s
    else removeStale ids s

/-- `configure_boot_sources` up to the last check; nothing if the script exits. -/
def prepareSelections (s : σ) : Option σ := do
  let s ← setSource run env s
  let (printed, s) ← runOrExit run readSelections s
  let (selections, s) ← selectDesired run env (capture printed) s
  removeStale run env (words (capture (jqRaw (staleIds env.defaultDistro) (echo selections)))) s

/-- `configure_boot_sources`: nothing if the script exits. -/
def configureBootSources (s : σ) : Option σ := do
  let s ← prepareSelections run env s
  let (printed, s) := run readSelections s
  let remainingStale := capture (jqRaw (staleIds env.defaultDistro) (printed.getD []))
  if remainingStale ≠ [] then none else some s

end Script

/-! ### Sequences of replies -/

/-- The reply to the `n`-th request, which may depend on the command. -/
abbrev Replies := Nat → MaasCommand → Bytes

/-- Where the script stands: the number of replies so far, and the calls of `maas_cli` with what they print. -/
structure Session where
  next : Nat := 0
  log : List (MaasCommand × Option Bytes) := []
  deriving DecidableEq

/-- What `maas_cli` prints for a command from the `n`-th reply on, and the number of the next reply. -/
def Replies.cli (replies : Replies) (c : MaasCommand) (n : Nat) : Option Bytes × Nat :=
  maasCli (fun n => (replies n c, n + 1)) n

def runMaas (replies : Replies) (c : MaasCommand) (s : Session) : Option Bytes × Session :=
  let (printed, n) := replies.cli c s.next
  (printed, ⟨n, s.log ++ [(c, printed)]⟩)

/-! ### The last check -/

/-- What the last read of the selections printed, if there was one. -/
def lastRead (log : List (MaasCommand × Option Bytes)) : Option (Option Bytes) :=
  latest (fun e => if e.1 = readSelections then some e.2 else none) log

/-- A list of selections that are all for one distribution. -/
def AllSelected (distro text : Bytes) : Prop :=
  ∃ xs, Json.read text = ([.arr xs], true) ∧ ∀ x ∈ xs, x.field (str "release") = some (.string distro)

/-- A selection for another distribution, with an id that is not empty. -/
def Stale (distro : Bytes) (x : Json) : Prop :=
  (∃ r, x.field (str "release") = some r ∧ r ≠ .string distro) ∧
    ∃ i, x.field (str "id") = some i ∧ ∃ b ∈ i.raw, b ≠ 0 ∧ b ≠ 10

/-- There is a selection for another distribution, and nothing before it that is no selection. -/
def ShowsStale (distro text : Bytes) : Prop :=
  ∃ v ∈ (Json.read text).1, ∃ xs x ys, v.elements = some (xs ++ x :: ys) ∧
    (∀ y ∈ xs, y.field (str "release") ≠ none) ∧ Stale distro x

/-- What the filter does with one selection. -/
theorem selectId_otherRelease (distro : Bytes) (x : Json) :
    (selectId (otherRelease distro) x = none ↔ x.field (str "release") = none) ∧
    ∀ i, (∃ out, selectId (otherRelease distro) x = some out ∧ i ∈ out) ↔
      (∃ r, x.field (str "release") = some r ∧ r ≠ .string distro) ∧ x.field (str "id") = some i := by
  unfold selectId otherRelease
  cases hr : x.field (str "release") with
  | none => simp
  | some r =>
    obtain ⟨j, hj⟩ := Json.exists_field (hr.trans_ne (Option.some_ne_none r)) (str "id")
    rw [hj]
    by_cases hdistro : r = .string distro
    · subst hdistro
      have htext : (Json.string distro).isText distro = true := Json.isText_iff.mpr rfl
      simp [htext]
    · have htext : r.isText distro = false := by
        rw [← Bool.not_eq_true, Json.isText_iff]
        exact hdistro
      simp [htext, hdistro, eq_comm]

/-- What the filter gives. -/
theorem mem_staleIds_iff {distro : Bytes} {v i : Json} :
    i ∈ staleIds distro v ↔ ∃ xs x ys, v.elements = some (xs ++ x :: ys) ∧
      (∀ y ∈ xs, y.field (str "release") ≠ none) ∧ (∃ r, x.field (str "release") = some r ∧ r ≠ .string distro) ∧
      x.field (str "id") = some i := by
  rw [staleIds, selectIds, Json.mem_untilError_iff]
  constructor
  · rintro ⟨xs, x, ys, out, hel, hxs, hout⟩
    refine ⟨xs, x, ys, ?_, fun y hy => ?_, ((selectId_otherRelease distro x).2 i).mp ⟨out, hout⟩⟩
    · cases hv : v.elements with
      | none => simp [hv] at hel
      | some l =>
        rw [hv] at hel
        exact congrArg some hel
    · exact fun hnone => hxs y hy ((selectId_otherRelease distro y).1.mpr hnone)
  · rintro ⟨xs, x, ys, hel, hxs, hx⟩
    obtain ⟨out, hout⟩ := ((selectId_otherRelease distro x).2 i).mpr hx
    refine ⟨xs, x, ys, out, by rw [hel]; rfl, fun y hy => ?_, hout⟩
    exact fun hnone => hxs y hy ((selectId_otherRelease distro y).1.mp hnone)

/-- The last check finds nothing if no selection for another distribution shows. -/
theorem capture_staleIds_iff (distro text : Bytes) :
    capture (jqRaw (staleIds distro) text) = [] ↔ ¬ ShowsStale distro text := by
  rw [capture_eq_nil_iff]
  constructor
  · rintro hblank ⟨v, hv, xs, x, ys, hel, hxs, hrelease, i, hi, b, hb, hne⟩
    have hmem : i ∈ staleIds distro v := mem_staleIds_iff.mpr ⟨xs, x, ys, hel, hxs, hrelease, hi⟩
    rcases hblank b (mem_jqRaw_iff.mpr ⟨v, hv, i, hmem, .inl hb⟩) with h | h
    · exact hne.1 h
    · exact hne.2 h
  · intro hno b hb
    obtain ⟨v, hv, i, hi, hb | hb⟩ := mem_jqRaw_iff.mp hb
    · obtain ⟨xs, x, ys, hel, hxs, hrelease, hid⟩ := mem_staleIds_iff.mp hi
      by_contra hne
      push Not at hne
      exact hno ⟨v, hv, xs, x, ys, hel, hxs, hrelease, i, hid, b, hb, hne⟩
    · exact .inr hb

/-- The script goes on exactly if it gets to the last check and no selection for another distribution shows. -/
theorem configureBootSources_eq_some_iff {σ : Type} {run : MaasCommand → σ → Option Bytes × σ} {env : BootSourceEnv}
    {s s' : σ} : configureBootSources run env s = some s' ↔ ∃ s₁, prepareSelections run env s = some s₁ ∧
      ¬ ShowsStale env.defaultDistro ((run readSelections s₁).1.getD []) ∧ s' = (run readSelections s₁).2 := by
  rw [configureBootSources, Option.bind_eq_bind, Option.bind_eq_some_iff]
  refine exists_congr fun s₁ => and_congr_right fun _ => ?_
  dsimp only
  rw [← capture_staleIds_iff]
  split
  · rename_i h
    simp [h]
  · rename_i h
    simp [not_not.mp h, eq_comm]

/-- A list of selections, as MAAS prints it: each has a release and, unless it is the wanted one, an id that is not
empty. -/
def IsSelectionList (distro text : Bytes) : Prop :=
  ∃ xs, Json.read text = ([.arr xs], true) ∧ ∀ x ∈ xs, ∃ r, x.field (str "release") = some r ∧
    (r = .string distro ∨ ∃ i, x.field (str "id") = some i ∧ ∃ b ∈ i.raw, b ≠ 0 ∧ b ≠ 10)

/-- On a list of selections the check sees everything. -/
theorem allSelected_iff (distro text : Bytes) :
    AllSelected distro text ↔ IsSelectionList distro text ∧ ¬ ShowsStale distro text := by
  constructor
  · rintro ⟨xs, hread, hall⟩
    refine ⟨⟨xs, hread, fun x hx => ⟨_, hall x hx, .inl rfl⟩⟩, ?_⟩
    rintro ⟨v, hv, ys, x, zs, hel, -, ⟨r, hr, hne⟩, -⟩
    rw [hread] at hv
    obtain rfl : v = .arr xs := by simpa using hv
    obtain rfl : xs = ys ++ x :: zs := Option.some.inj hel
    rw [hall x (by simp), Option.some_inj] at hr
    exact hne hr.symm
  · rintro ⟨⟨xs, hread, hxs⟩, hshows⟩
    refine ⟨xs, hread, fun x hx => ?_⟩
    obtain ⟨r, hr, rfl | hid⟩ := hxs x hx
    · exact hr
    · -- a selection with an id would show if it had another release
      by_contra hne
      obtain ⟨ys, zs, rfl⟩ := List.append_of_mem hx
      refine hshows ⟨.arr (ys ++ x :: zs), by simp [hread], ys, x, zs, rfl, fun y hy => ?_, ⟨r, hr, ?_⟩, hid⟩
      · obtain ⟨q, hq, -⟩ := hxs y (List.mem_append_left _ hy)
        exact hq.trans_ne (Option.some_ne_none q)
      · exact fun h => hne (h ▸ hr)

theorem lastRead_runMaas (replies : Replies) (s : Session) :
    lastRead (runMaas replies readSelections s).2.log = some (replies.cli readSelections s.next).1 := by
  change lastRead (s.log ++ [(readSelections, (replies.cli readSelections s.next).1)]) = _
  rw [lastRead, latest_concat, if_pos rfl, Option.some_or]

/-- Where the script goes on, the last read has got all selections for the wanted distribution if and only if it was
not given up and got a list of selections.  So it suffices that every read would get one. -/
theorem configureBootSources_iff (replies : Replies) (env : BootSourceEnv) :
    (∀ s, configureBootSources (runMaas replies) env {} = some s →
      ((∃ text, lastRead s.log = some (some text) ∧ AllSelected env.defaultDistro text) ↔
        ∃ text, lastRead s.log = some (some text) ∧ IsSelectionList env.defaultDistro text)) ∧
    ((∀ n, ∃ text, (replies.cli readSelections n).1 = some text ∧ IsSelectionList env.defaultDistro text) →
      ∀ s, configureBootSources (runMaas replies) env {} = some s →
        ∃ text, lastRead s.log = some (some text) ∧ AllSelected env.defaultDistro text) := by
  -- what the last check has seen
  have hchecked : ∀ s, configureBootSources (runMaas replies) env {} = some s → ∃ n,
      lastRead s.log = some (replies.cli readSelections n).1 ∧
      ∀ text, (replies.cli readSelections n).1 = some text →
        (AllSelected env.defaultDistro text ↔ IsSelectionList env.defaultDistro text) := by
    intro s hs
    obtain ⟨s₁, -, hshows, rfl⟩ := configureBootSources_eq_some_iff.mp hs
    refine ⟨s₁.next, lastRead_runMaas replies s₁, fun text htext => ?_⟩
    have hprinted : (runMaas replies readSelections s₁).1 = some text := htext
    rw [hprinted, Option.getD_some] at hshows
    rw [allSelected_iff, and_iff_left hshows]
  constructor
  · intro s hs
    obtain ⟨n, hlast, hiff⟩ := hchecked s hs
    refine exists_congr fun text => and_congr_right fun htext => hiff text ?_
    rwa [hlast, Option.some_inj] at htext
  · intro hreads s hs
    obtain ⟨n, hlast, hiff⟩ := hchecked s hs
    obtain ⟨text, htext, hlist⟩ := hreads n
    exact ⟨text, by rw [hlast, htext], (hiff text htext).mpr hlist⟩

/-- Two selections, and then only HTTP errors. -/
def gatewayReplies : Replies
  | 0, _ => str "[\x7b\"os\": \"ubuntu\", \"release\": \"noble\", \"id\": 1\x7d, " ++
      str "\x7b\"os\": \"ubuntu\", \"release\": \"focal\", \"id\": 2\x7d]"
  | _ + 1, _ => str "<html><title>502 Bad Gateway</title></html>"

/-- The selection for `focal` cannot be deleted and the last read gets no answer, but the script goes on. -/
theorem configureBootSources_unchecked :
    let env : BootSourceEnv := ⟨false, str "ubuntu", str "noble"⟩
    jqRaw (staleIds env.defaultDistro) (gatewayReplies 0 readSelections) = str "2\n" ∧
    ∃ s, configureBootSources (runMaas gatewayReplies) env {} = some s ∧ lastRead s.log = some none ∧
      ¬ ∃ text, lastRead s.log = some (some text) ∧ AllSelected env.defaultDistro text := by
  intro env
  let s : Session := ⟨13, [(readSelections, some (gatewayReplies 0 readSelections ++ [10])),
    (deleteSelection (str "2"), none), (readSelections, none)]⟩
  have hread : lastRead s.log = some none := by decide
  refine ⟨by decide, s, by decide +kernel, hread, ?_⟩
  rintro ⟨text, htext, -⟩
  rw [hread, Option.some_inj] at htext
  cases htext

end MaasBoot
