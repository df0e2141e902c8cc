import MaasBoot.BootSources

/-!
# The selections on a MAAS server

`cleanup_old_boot_source_selections` runs when the images are imported and MAAS has been configured to use them.  It
keeps the first selection of the wanted distribution and deletes the others: those that `configure_boot_sources`
could only update, since MAAS did not let them be deleted.

Here both run against a server that keeps selections.  The server carries out what it is told, but it does not
delete a selection that is in use, and it may answer a command with HTTP errors for some time, having carried it out
or not.  What is in use may change when a selection is updated or created, as it does if MAAS decides it by the
release.  Then `configure_boot_sources` leaves selections of the wanted release only, and at least one of them, and
after that `cleanup_old_boot_source_selections` leaves the first of them and those in use (`selections_converge`).

The job looks at the release alone: a selection of another system with a release of this name is kept as well, and the
clean-up keeps it rather than the wanted one if it comes first.
-/

namespace MaasBoot

/-! ### The clean-up -/

/-- `[.[] | select(.release == $distro)] | first | .id // empty` -/
def keepId (distro : Bytes) (v : Json) : List Json :=
  match v.elements with
  | none => []
  | some xs =>
    -- an error for one element leaves no array
    if xs.any fun x => (x.field (str "release")).isNone then []
    else match xs.find? fun x => ((x.field (str "release")).map (·.isText distro)).getD false with
      | none => []
      | some x => ((x.field (str "id")).filter Json.isTruthy).toList

/-- `select(.id != $keep) | "\(.id):\(.boot_source_id)"` -/
def rowOf (keep x : Json) : Option (List Json) :=
  match x.field (str "id"), x.field (str "boot_source_id") with
  | some id, some source => some (if id.same keep then [] else [.string (id.toText ++ str ":" ++ source.toText)])
  | _, _ => none

/-- The rows of the loop; without a single value in `keep` jq does not start. -/
def duplicateRows (keep selections : Bytes) : List Bytes :=
  match Json.read keep with
  | ([v], true) => words (capture (jqRaw (fun w => Json.untilError (rowOf v) (w.elements.getD [])) (echo selections)))
  | _ => []

/-- The command for one row: `id` is what stands before the first colon, `boot_source_id` what stands behind the
last. -/
def deleteRow (row : Bytes) : MaasCommand :=
  [str "boot-source-selection", str "delete", row.rtakeWhile (· != 58), row.takeWhile (· != 58)]

/-- `cleanup_old_boot_source_selections`, and whether it returns 0.  A deletion that is refused is only logged. -/
def cleanupOldBootSourceSelections {σ : Type} (run : MaasCommand → σ → Option Bytes × σ) (env : BootSourceEnv)
    (s : σ) :
    Bool × σ :=
  match run readSelections s with
  | (none, s) => (false, s)
  | (some printed, s) =>
    let selections := capture printed
    if !jqTest (echo selections) then (true, s)
    else
      let keep := capture (jqRaw (keepId env.defaultDistro) (echo selections))
      if keep = [] then (true, s)
      else (true, (duplicateRows keep selections).foldl (fun s row => (run (deleteRow row) s).2) s)

/-! ### The server -/

/-- A selection of the first boot source. -/
structure Selection where
  id : Nat
  os : Bytes
  release : Bytes
  deriving DecidableEq

/-- How a selection is shown. -/
structure Selection.Shows (x : Json) (a : Selection) : Prop where
  id : x.field (str "id") = some (.num (decimal a.id))
  os : x.field (str "os") = some (.string a.os)
  release : x.field (str "release") = some (.string a.release)
  source : x.field (str "boot_source_id") = some (.num (str "1"))

def ListsSelections (text : Bytes) (l : List Selection) : Prop :=
  ∃ xs, Json.read text = ([.arr xs], true) ∧ List.Forall₂ Selection.Shows xs l

/-- An answer after `maas_cli`, a command substitution and `echo`. -/
def shown (answer : Bytes) : Bytes := echo (capture (echo (capture answer)))

/-- The selections without one, unless it is in use. -/
def removed (inUse : Nat → Bool) (id : Nat) (l : List Selection) : List Selection :=
  l.filter fun a => a.id ≠ id || inUse a.id

variable (env : BootSourceEnv)

def desired (id : Nat) : Selection := ⟨id, env.defaultOS, env.defaultDistro⟩

def updated (id : Nat) (l : List Selection) : List Selection := l.map fun a => if a.id = id then desired env id else a

/-- A command that should turn the selections `l` into `target` is carried out or gets an HTTP error, or both. -/
def Does (l l' target : List Selection) (answer : Bytes) (reply : Prop) : Prop :=
  (l' = l ∧ isTransient (capture answer) = true) ∨ (l' = target ∧ (isTransient (capture answer) = true ∨ reply))

structure MaasServer (σ : Type) where
  send : MaasCommand → σ → Bytes × σ
  selections : σ → List Selection
  inUse : σ → Nat → Bool
  nodup : ∀ s, ((selections s).map Selection.id).Nodup
  /-- There are never six HTTP errors in a row. -/
  answers : ∀ c s, ∃ k < 6, isTransient (capture (attempt (send c) k s)) = false
  source : ∀ s, selections (send updateSource s).2 = selections s
  read : ∀ s, Does (selections s) (selections (send readSelections s).2) (selections s) (send readSelections s).1
    (ListsSelections (shown (send readSelections s).1) (selections s))
  inUse_read : ∀ s, inUse (send readSelections s).2 = inUse s
  delete : ∀ id s, Does (selections s) (selections (send (deleteSelection (decimal id)) s).2)
    (removed (inUse s) id (selections s)) (send (deleteSelection (decimal id)) s).1
    (grepAny [str "Unable to delete", str "ephemeral"] (shown (send (deleteSelection (decimal id)) s).1) = true ↔
      inUse s id = true ∧ id ∈ (selections s).map Selection.id)
  /-- Only an update or a creation can change what is in use. -/
  inUse_delete : ∀ id s, inUse (send (deleteSelection (decimal id)) s).2 = inUse s
  update : ∀ id s, id ∈ (selections s).map Selection.id →
    Does (selections s) (selections (send (updateSelection env (decimal id)) s).2) (updated env id (selections s))
      (send (updateSelection env (decimal id)) s).1
      (grepAny [str "error", str "not found", str "does not exist"]
        (shown (send (updateSelection env (decimal id)) s).1) = false)
  /-- A selection that is there need not be created again. -/
  create : ∀ s, ∃ target, ((target = selections s ∧ ∃ id, desired env id ∈ selections s) ∨
      ∃ id, target = selections s ++ [desired env id]) ∧
    Does (selections s) (selections (send (createSelection env) s).2) target (send (createSelection env) s).1 True

variable {env}

namespace MaasServer

variable {σ : Type} (M : MaasServer env σ)

/-- `maas_cli` -/
def run (c : MaasCommand) (s : σ) : Option Bytes × σ := maasCli (M.send c) s

end MaasServer

/-! ### One command -/

/-- The loop ends with the first answer that is no HTTP error, and what the errors keep holds before it. -/
theorem maasCliLoop_eq {σ : Type} {send : σ → Bytes × σ} {R : σ → Prop}
    (hstep : ∀ s, R s → isTransient (capture (send s).1) = true → R (send s).2) {k fuel delay : Nat} {s : σ}
    (hs : R s) (hk : isTransient (capture (attempt send k s)) = false) (hle : ∀ j < k, delay * 2 ^ j ≤ 300)
    (hfuel : k < fuel) : ∃ s', R s' ∧ isTransient (capture (send s').1) = false ∧
      maasCliLoop send fuel delay s = (some (echo (capture (send s').1)), (send s').2) := by
  induction k generalizing fuel delay s with
  | zero =>
    obtain ⟨fuel, rfl⟩ := Nat.exists_eq_add_of_lt hfuel
    have hfirst : isTransient (capture (send s).1) = false := hk
    refine ⟨s, hs, hfirst, ?_⟩
    rw [Nat.zero_add, maasCliLoop]
    simp [hfirst]
  | succ k ih =>
    cases fuel with
    | zero => omega
    | succ fuel =>
      cases ht : isTransient (capture (send s).1) with
      | false =>
        refine ⟨s, hs, ht, ?_⟩
        rw [maasCliLoop]
        simp [ht]
      | true =>
        have hdelay := hle 0 (Nat.succ_pos k)
        have hle' : ∀ j < k, delay * 2 * 2 ^ j ≤ 300 := by
          intro j hj
          rw [Nat.mul_assoc, ← pow_succ']
          exact hle (j + 1) (by omega)
        obtain ⟨s', hs', ht', heq⟩ := ih (hstep s hs ht) hk hle' (show k < fuel by omega)
        refine ⟨s', hs', ht', ?_⟩
        rw [maasCliLoop]
        simp only [ht, if_true, if_neg (show ¬ delay > 300 by omega)]
        exact heq

namespace MaasServer

variable {σ : Type} (M : MaasServer env σ)

/-- What one command does, with the selections as they are before it; `R` is what it keeps. -/
theorem run_does {c : MaasCommand} {target : List Selection} {r : Bytes → Prop} {R : σ → Prop} {s : σ} (hs : R s)
    (hkeeps : ∀ s', R s' → R (M.send c s').2)
    (hdoes : ∀ s', R s' → M.selections s' = M.selections s ∨ M.selections s' = target →
      Does (M.selections s') (M.selections (M.send c s').2) target (M.send c s').1 (r (M.send c s').1)) :
    ∃ answer s', M.run c s = (some (echo (capture answer)), s') ∧ M.selections s' = target ∧ R s' ∧ r answer := by
  have hstep : ∀ s', (R s' ∧ (M.selections s' = M.selections s ∨ M.selections s' = target)) →
      isTransient (capture (M.send c s').1) = true → R (M.send c s').2 ∧
        (M.selections (M.send c s').2 = M.selections s ∨ M.selections (M.send c s').2 = target) := by
    rintro s' ⟨hR, hsel⟩ -
    refine ⟨hkeeps s' hR, ?_⟩
    rcases hdoes s' hR hsel with ⟨hsame, -⟩ | ⟨hdone, -⟩
    · rwa [hsame]
    · exact .inr hdone
  have hdelays : ∀ j < 5, 10 * 2 ^ j ≤ 300 := by decide
  obtain ⟨k, hk, hanswer⟩ := M.answers c s
  obtain ⟨s', ⟨hR, hsel⟩, ht, heq⟩ :=
    maasCliLoop_eq hstep ⟨hs, .inl rfl⟩ hanswer (fun j hj => hdelays j (by omega)) hk
  refine ⟨(M.send c s').1, (M.send c s').2, heq, ?_, hkeeps s' hR, ?_⟩
  · rcases hdoes s' hR hsel with ⟨-, herror⟩ | ⟨hdone, -⟩
    · rw [herror] at ht
      cases ht
    · exact hdone
  · rcases hdoes s' hR hsel with ⟨-, herror⟩ | ⟨-, herror | hreply⟩
    · rw [herror] at ht
      cases ht
    · rw [herror] at ht
      cases ht
    · exact hreply

theorem run_source (s : σ) : ∃ text s', M.run updateSource s = (some text, s') ∧
    M.selections s' = M.selections s := by
  have hdoes : ∀ s', True → M.selections s' = M.selections s ∨ M.selections s' = M.selections s →
      Does (M.selections s') (M.selections (M.send updateSource s').2) (M.selections s)
      (M.send updateSource s').1 True := by
    intro s' _ hsel
    exact .inr ⟨(M.source s').trans (hsel.elim id id), .inr trivial⟩
  obtain ⟨answer, s', heq, hsel, -, -⟩ := M.run_does (r := fun _ => True) trivial (fun _ _ => trivial) hdoes
  exact ⟨_, s', heq, hsel⟩

/-- A list of selections passes a command substitution and `echo`. -/
theorem shown_of_listsSelections {answer : Bytes} {l : List Selection} (h : ListsSelections (shown answer) l) :
    shown answer = echo (capture answer) := by
  obtain ⟨xs, hread, -⟩ := h
  unfold shown at hread ⊢
  by_cases hoption : isEchoOption (capture answer) = true
  · -- what `echo` takes for options is no list
    have hblank : capture (echo (capture answer)) = [] := by
      unfold echo
      rw [if_pos hoption]
      split <;> rfl
    rw [hblank] at hread
    exact absurd (congrArg Prod.fst hread) (List.cons_ne_nil _ _).symm
  · have hecho : echo (capture answer) = capture answer ++ [10] := if_neg hoption
    rw [hecho, capture_append_newline, capture_capture, hecho]

theorem run_read (s : σ) : ∃ text s', M.run readSelections s = (some text, s') ∧ echo (capture text) = text ∧
    ListsSelections text (M.selections s) ∧ M.selections s' = M.selections s ∧ M.inUse s' = M.inUse s := by
  have hdoes : ∀ s', M.inUse s' = M.inUse s → M.selections s' = M.selections s ∨ M.selections s' = M.selections s →
      Does (M.selections s') (M.selections (M.send readSelections s').2) (M.selections s) (M.send readSelections s').1
        (ListsSelections (shown (M.send readSelections s').1) (M.selections s)) := by
    intro s' _ hsel
    have hread := M.read s'
    rwa [hsel.elim id id] at hread ⊢
  obtain ⟨answer, s', heq, hsel, huse, hlists⟩ :=
    M.run_does (r := fun answer => ListsSelections (shown answer) (M.selections s))
      (R := fun s' => M.inUse s' = M.inUse s) rfl (fun s' huse => (M.inUse_read s').trans huse) hdoes
  have hshown := shown_of_listsSelections hlists
  refine ⟨_, s', heq, hshown, ?_, hsel, huse⟩
  rwa [hshown] at hlists

theorem removed_of_inUse {inUse : Nat → Bool} {id : Nat} (h : inUse id = true) (l : List Selection) :
    removed inUse id l = l := by
  refine List.filter_eq_self.mpr fun a _ => ?_
  by_cases ha : a.id = id
  · simp [ha, h]
  · simp [ha]

/-- The answer to a deletion tells whether the selection is in use. -/
theorem run_delete (id : Nat) (s : σ) :
    ∃ answer s', M.run (deleteSelection (decimal id)) s = (some (echo (capture answer)), s') ∧
    M.selections s' = removed (M.inUse s) id (M.selections s) ∧ M.inUse s' = M.inUse s ∧
    (grepAny [str "Unable to delete", str "ephemeral"] (shown answer) = true ↔
      M.inUse s id = true ∧ id ∈ (M.selections s).map Selection.id) := by
  have hkept : M.inUse s id = true →
      (id ∈ (removed (M.inUse s) id (M.selections s)).map Selection.id ↔ id ∈ (M.selections s).map Selection.id) := by
    intro huse
    rw [removed_of_inUse huse]
  refine M.run_does (r := fun answer => grepAny [str "Unable to delete", str "ephemeral"] (shown answer) = true ↔
      M.inUse s id = true ∧ id ∈ (M.selections s).map Selection.id) rfl
    (fun s' huse => (M.inUse_delete id s').trans huse) fun s' huse hsel => ?_
  have hdelete := M.delete id s'
  rw [huse] at hdelete
  rcases hsel with hsel | hsel
  · rwa [hsel] at hdelete ⊢
  · -- a deletion that was carried out before
    have hagain : removed (M.inUse s) id (removed (M.inUse s) id (M.selections s)) =
        removed (M.inUse s) id (M.selections s) := List.filter_eq_self.mpr fun a ha => (List.mem_filter.mp ha).2
    rw [hsel, hagain, and_congr_right_iff.mpr hkept] at hdelete
    rwa [hsel]

theorem mem_map_id_updated {id : Nat} {l : List Selection} :
    id ∈ (updated env id l).map Selection.id ↔ id ∈ l.map Selection.id := by
  have hmap : (updated env id l).map Selection.id = l.map Selection.id := by
    rw [updated, List.map_map]
    refine List.map_congr_left fun a _ => ?_
    by_cases ha : a.id = id
    · simp [ha, desired]
    · simp [ha]
  rw [hmap]

theorem mem_of_mem_updated {id : Nat} {l : List Selection} {a : Selection} (ha : a ∈ updated env id l) :
    (a ∈ l ∧ a.id ≠ id) ∨ a = desired env id := by
  obtain ⟨b, hb, rfl⟩ := List.mem_map.mp ha
  by_cases hid : b.id = id
  · exact .inr (if_pos hid)
  · rw [if_neg hid]
    exact .inl ⟨hb, hid⟩

theorem mem_updated {id : Nat} {l : List Selection} {a : Selection} (ha : a ∈ l) (hid : a.id ≠ id) :
    a ∈ updated env id l :=
  List.mem_map.mpr ⟨a, ha, if_neg hid⟩

theorem updated_updated (id : Nat) (l : List Selection) : updated env id (updated env id l) = updated env id l := by
  unfold updated
  rw [List.map_map]
  refine List.map_congr_left fun a _ => ?_
  by_cases ha : a.id = id
  · simp [ha, desired]
  · simp [ha]

theorem run_update {id : Nat} {s : σ} (hid : id ∈ (M.selections s).map Selection.id) :
    ∃ answer s', M.run (updateSelection env (decimal id)) s = (some (echo (capture answer)), s') ∧
      M.selections s' = updated env id (M.selections s) ∧
      grepAny [str "error", str "not found", str "does not exist"] (shown answer) = false := by
  have hdoes : ∀ s', True → M.selections s' = M.selections s ∨ M.selections s' = updated env id (M.selections s) →
      Does (M.selections s') (M.selections (M.send (updateSelection env (decimal id)) s').2)
        (updated env id (M.selections s)) (M.send (updateSelection env (decimal id)) s').1
        (grepAny [str "error", str "not found", str "does not exist"]
          (shown (M.send (updateSelection env (decimal id)) s').1) = false) := by
    rintro s' - (hsel | hsel)
    · have hupdate := M.update id s' (hsel ▸ hid)
      rwa [hsel] at hupdate ⊢
    · have hupdate := M.update id s' (by rw [hsel]; exact mem_map_id_updated.mpr hid)
      rw [hsel, updated_updated] at hupdate
      rwa [hsel]
  obtain ⟨answer, s', heq, hsel, -, hanswer⟩ := M.run_does
    (r := fun answer => grepAny [str "error", str "not found", str "does not exist"] (shown answer) = false) trivial
    (fun _ _ => trivial) hdoes
  exact ⟨answer, s', heq, hsel, hanswer⟩

/-- A selection may be created more than once, but nothing else changes. -/
theorem run_create (s : σ) : ∃ text s', M.run (createSelection env) s = (some text, s') ∧
    (∃ id, desired env id ∈ M.selections s') ∧
    ∃ ids : List Nat, M.selections s' = M.selections s ++ ids.map (desired env) := by
  have hstep : ∀ s', (∃ ids : List Nat, M.selections s' = M.selections s ++ ids.map (desired env)) →
      ∃ ids : List Nat, M.selections (M.send (createSelection env) s').2 =
        M.selections s ++ ids.map (desired env) := by
    rintro s' ⟨ids, hids⟩
    obtain ⟨target, htarget, hdoes⟩ := M.create s'
    have hcases : M.selections (M.send (createSelection env) s').2 = M.selections s' ∨
        M.selections (M.send (createSelection env) s').2 = target := by
      rcases hdoes with ⟨h, -⟩ | ⟨h, -⟩
      · exact .inl h
      · exact .inr h
    rcases hcases with h | h
    · exact ⟨ids, h.trans hids⟩
    · rcases htarget with ⟨rfl, -⟩ | ⟨id, rfl⟩
      · exact ⟨ids, h.trans hids⟩
      · exact ⟨ids ++ [id], by rw [h, hids]; simp⟩
  have hdelays : ∀ j < 5, 10 * 2 ^ j ≤ 300 := by decide
  obtain ⟨k, hk, hanswer⟩ := M.answers (createSelection env) s
  obtain ⟨s', hs', ht, heq⟩ := maasCliLoop_eq
    (R := fun s' => ∃ ids : List Nat, M.selections s' = M.selections s ++ ids.map (desired env))
    (fun s' hs' _ => hstep s' hs') ⟨[], by simp⟩ hanswer (fun j hj => hdelays j (by omega)) hk
  refine ⟨_, _, heq, ?_, hstep s' hs'⟩
  obtain ⟨target, htarget, hdoes⟩ := M.create s'
  have hdone : M.selections (M.send (createSelection env) s').2 = target := by
    rcases hdoes with ⟨-, herror⟩ | ⟨h, -⟩
    · rw [herror] at ht
      cases ht
    · exact h
  rw [hdone]
  rcases htarget with ⟨rfl, hmem⟩ | ⟨id, rfl⟩
  · exact hmem
  · exact ⟨id, by simp⟩

end MaasServer

/-! ### What the filters find -/

theorem selectIds_eq {p : Json → Option Bool} {q : Selection → Bool}
    (hpq : ∀ x a, Selection.Shows x a → p x = some (q a)) {xs : List Json} {l : List Selection}
    (h : List.Forall₂ Selection.Shows xs l) :
    selectIds p (.arr xs) = (l.filter q).map fun a => .num (decimal a.id) := by
  change Json.untilError (selectId p) xs = _
  induction h with
  | nil => rfl
  | @cons x a xs l hx _ ih =>
    rw [Json.untilError, selectId, hpq x a hx, List.filter_cons]
    cases q a with
    | true =>
      simp only [hx.id, Option.map_some, ih, if_true, List.map_cons]
      rfl
    | false =>
      simp only [ih, Bool.false_eq_true, if_false]
      rfl

theorem jqRaw_arr {filter : Json → List Json} {text : Bytes} {xs : List Json}
    (h : Json.read text = ([.arr xs], true)) :
    jqRaw filter text = unlines ((filter (.arr xs)).map Json.raw) := by
  rw [jqRaw, h]
  simp

/-- The lines with the ids of some selections. -/
def idLines (l : List Selection) : Bytes := unlines (l.map fun a => decimal a.id)

theorem jqRaw_selectIds {p : Json → Option Bool} {q : Selection → Bool} {text : Bytes} {l : List Selection}
    (hpq : ∀ x a, Selection.Shows x a → p x = some (q a)) (h : ListsSelections text l) :
    jqRaw (selectIds p) text = idLines (l.filter q) := by
  obtain ⟨xs, hread, hxs⟩ := h
  rw [jqRaw_arr hread, selectIds_eq hpq hxs, List.map_map]
  rfl

theorem blankFree_decimal (n : Nat) : BlankFree (decimal n) := by
  have hdigit : ∀ c : UInt8, isDigit c = true → isBlank c = false := forall_byte (by decide +kernel)
  exact fun c hc => hdigit c (Json.isDigit_of_mem_decimal hc)

theorem capture_decimal (n : Nat) : capture (decimal n) = decimal n := by
  have hdigit : ∀ c : UInt8, isDigit c = true → c ≠ 0 ∧ c ≠ 10 := forall_byte (by decide +kernel)
  exact capture_eq_self fun c hc => hdigit c (Json.isDigit_of_mem_decimal hc)

theorem capture_idLine (n : Nat) : capture (unlines ([Json.num (decimal n)].map Json.raw)) = decimal n := by
  have hline : unlines ([Json.num (decimal n)].map Json.raw) = decimal n ++ [10] := by
    simp only [unlines, Json.raw, Json.pretty, List.map_cons, List.map_nil, List.flatMap_cons, List.flatMap_nil,
      List.append_nil]
  rw [hline, capture_append_newline, capture_decimal]

theorem firstId_arr {x : Json} {a : Selection} (hx : Selection.Shows x a) (xs : List Json) :
    firstId (.arr (x :: xs)) = [.num (decimal a.id)] := by
  simp only [firstId, Json.first, List.head?_cons, Option.getD_some, Option.bind_some, hx.id]

theorem words_idLines (l : List Selection) : words (capture (idLines l)) = l.map fun a => decimal a.id := by
  have hmem : ∀ w ∈ l.map fun a => decimal a.id, w ≠ [] ∧ BlankFree w := by
    intro w hw
    obtain ⟨a, -, rfl⟩ := List.mem_map.mp hw
    exact ⟨Json.decimal_ne_nil a.id, blankFree_decimal a.id⟩
  have hzero : 0 ∉ idLines l := by
    intro h
    obtain ⟨w, hw, h⟩ := List.mem_flatMap.mp h
    obtain ⟨a, -, rfl⟩ := List.mem_map.mp hw
    rcases List.mem_append.mp h with h | h
    · exact absurd (Json.isDigit_of_mem_decimal h) (by decide)
    · exact absurd (List.mem_singleton.mp h) (by decide)
  rw [words_capture hzero, idLines, words_unlines hmem]

theorem capture_idLines_eq_nil_iff (l : List Selection) : capture (idLines l) = [] ↔ l = [] := by
  constructor
  · intro h
    have hwords := words_idLines l
    rw [h] at hwords
    exact List.map_eq_nil_iff.mp hwords.symm
  · rintro rfl
    rfl

/-! ### Preparing the import -/

theorem runOrExit_eq {σ : Type} {run : MaasCommand → σ → Option Bytes × σ} {c : MaasCommand} {s s' : σ} {text : Bytes}
    (h : run c s = (some text, s')) : runOrExit run c s = some (text, s') := by
  rw [runOrExit, h]

namespace MaasServer

variable {σ : Type} (M : MaasServer env σ)

/-- One pass of the loop: the selection is deleted, or it is in use and becomes a wanted one. -/
theorem removeStale_cons (id : Nat) (ids : List Bytes) (s : σ) :
    ∃ s', removeStale M.run env (decimal id :: ids) s = removeStale M.run env ids s' ∧
      (∀ a ∈ M.selections s', (a ∈ M.selections s ∧ a.id ≠ id) ∨ a = desired env id) ∧
      ∀ a ∈ M.selections s, a.id ≠ id → a ∈ M.selections s' := by
  obtain ⟨answer, s₁, hrun, hsel, huse, hrefused⟩ := M.run_delete id s
  rw [removeStale, hrun]
  dsimp only [Option.getD_some]
  by_cases hblocked : M.inUse s id = true ∧ id ∈ (M.selections s).map Selection.id
  · have hself : M.selections s₁ = M.selections s := hsel.trans (removed_of_inUse hblocked.1 _)
    obtain ⟨answer', s₂, hrun', hsel', hanswer⟩ := M.run_update (s := s₁) (hself ▸ hblocked.2)
    refine ⟨s₂, ?_, ?_, ?_⟩
    · refine (if_pos (hrefused.mpr hblocked)).trans ?_
      rw [runOrExit_eq hrun']
      simp only [Option.bind_eq_bind, Option.bind_some]
      exact if_neg (by simpa [shown] using hanswer)
    · intro a ha
      rw [hsel', hself] at ha
      exact mem_of_mem_updated ha
    · intro a ha hid
      rw [hsel', hself]
      exact mem_updated ha hid
  · refine ⟨s₁, if_neg fun h => hblocked (hrefused.mp h), ?_, ?_⟩
    · intro a ha
      rw [hsel] at ha
      obtain ⟨ha, hkept⟩ := List.mem_filter.mp ha
      refine .inl ⟨ha, fun hid => hblocked ⟨?_, List.mem_map.mpr ⟨a, ha, hid⟩⟩⟩
      simpa [hid] using hkept
    · intro a ha hid
      rw [hsel]
      exact List.mem_filter.mpr ⟨ha, by simp [hid]⟩

theorem removeStale_eq (ids : List Nat) (s : σ) : ∃ s', removeStale M.run env (ids.map decimal) s = some s' ∧
    (∀ a ∈ M.selections s', (a ∈ M.selections s ∧ a.id ∉ ids) ∨ ∃ id, a = desired env id) ∧
    ∀ a ∈ M.selections s, a.id ∉ ids → a ∈ M.selections s' := by
  induction ids generalizing s with
  | nil => exact ⟨s, rfl, fun a ha => .inl ⟨ha, List.not_mem_nil⟩, fun a ha _ => ha⟩
  | cons id ids ih =>
    obtain ⟨s₁, heq, hfrom, hkept⟩ := M.removeStale_cons id (ids.map decimal) s
    obtain ⟨s', heq', hfrom', hkept'⟩ := ih s₁
    refine ⟨s', by rw [List.map_cons, heq, heq'], ?_, ?_⟩
    · intro a ha
      rcases hfrom' a ha with ⟨ha, hids⟩ | hdesired
      · rcases hfrom a ha with ⟨ha, hid⟩ | hdesired
        · exact .inl ⟨ha, by simp [hid, hids]⟩
        · exact .inr ⟨id, hdesired⟩
      · exact .inr hdesired
    · intro a ha hids
      rw [List.mem_cons, not_or] at hids
      exact hkept' a (hkept a ha hids.1) hids.2

/-- The selections before the loop over the others: a wanted one is among them. -/
structure Prepared (s s' : σ) : Prop where
  exists_desired : ∃ id, desired env id ∈ M.selections s'
  from_old : ∀ a ∈ M.selections s', a ∈ M.selections s ∨ ∃ id, a = desired env id
  kept : ∀ id, desired env id ∈ M.selections s → desired env id ∈ M.selections s'

/-- The first selection becomes a wanted one, or one is created if there is none. -/
theorem prepared_of_none {text : Bytes} {s : σ} (hlists : ListsSelections text (M.selections s)) :
    ∃ answer s', M.run (if capture (jqRaw firstId text) ≠ [] then updateSelection env (capture (jqRaw firstId text))
      else createSelection env) s = (some answer, s') ∧ M.Prepared s s' := by
  obtain ⟨xs, hread, hxs⟩ := hlists
  rw [jqRaw_arr hread]
  cases hsel : M.selections s with
  | nil =>
    rw [hsel, List.forall₂_nil_right_iff] at hxs
    obtain ⟨answer, s', hrun, hdesired, ids, hids⟩ := M.run_create s
    refine ⟨answer, s', ?_, hdesired, ?_, ?_⟩
    · rw [hxs]
      exact hrun
    · intro a ha
      rw [hids, hsel, List.nil_append] at ha
      obtain ⟨id, -, rfl⟩ := List.mem_map.mp ha
      exact .inr ⟨id, rfl⟩
    · intro id hid
      rw [hsel] at hid
      cases hid
  | cons a l =>
    rw [hsel] at hxs
    obtain ⟨x, xs', hx, -, rfl⟩ := List.forall₂_cons_right_iff.mp hxs
    have hid : capture (unlines ((firstId (.arr (x :: xs'))).map Json.raw)) = decimal a.id := by
      rw [firstId_arr hx xs']
      exact capture_idLine a.id
    have hmem : a.id ∈ (M.selections s).map Selection.id := by
      rw [hsel]
      exact List.mem_cons_self
    obtain ⟨answer, s', hrun, hsel', -⟩ := M.run_update hmem
    refine ⟨echo (capture answer), s', ?_, ⟨a.id, ?_⟩, ?_, ?_⟩
    · rw [hid, if_pos (Json.decimal_ne_nil a.id)]
      exact hrun
    · rw [hsel', hsel]
      exact List.mem_map.mpr ⟨a, List.mem_cons_self, if_pos rfl⟩
    · intro b hb
      rw [hsel'] at hb
      rcases mem_of_mem_updated hb with ⟨hb, -⟩ | hb
      · exact .inl hb
      · exact .inr ⟨a.id, hb⟩
    · intro id hdesired
      rw [hsel']
      by_cases hid : id = a.id
      · subst hid
        exact List.mem_map.mpr ⟨desired env a.id, hdesired, if_pos rfl⟩
      · exact mem_updated hdesired hid

/-- Whether a selection is a wanted one. -/
theorem desiredIds_shows (os distro : Bytes) {x : Json} {a : Selection} (hx : Selection.Shows x a) :
    (match x.field (str "os") with
      | none => none
      | some o => if o.isText os then (x.field (str "release")).map (·.isText distro) else some false) =
      some (a.os == os && a.release == distro) := by
  rw [hx.os, hx.release]
  simp only [Json.isText, Option.map_some]
  by_cases h : a.os = os <;> simp [h]

theorem otherRelease_shows (distro : Bytes) {x : Json} {a : Selection} (hx : Selection.Shows x a) :
    otherRelease distro x = some (a.release != distro) := by
  rw [otherRelease, hx.release]
  rfl

/-- What the filter for stale selections prints. -/
theorem jqRaw_staleIds {distro text : Bytes} {l : List Selection} (h : ListsSelections text l) :
    jqRaw (staleIds distro) text = idLines (l.filter fun a => a.release != distro) :=
  jqRaw_selectIds (fun _ _ hx => otherRelease_shows distro hx) h

theorem setSource_eq (s : σ) : ∃ s', setSource M.run env s = some s' ∧ M.selections s' = M.selections s := by
  unfold setSource
  split
  · obtain ⟨text, s', hrun, hsel⟩ := M.run_source s
    exact ⟨s', by rw [runOrExit_eq hrun]; rfl, hsel⟩
  · exact ⟨s, rfl, rfl⟩

/-- A wanted selection is there before the loop over the others. -/
theorem selectDesired_eq {text : Bytes} {s : σ} (hlists : ListsSelections text (M.selections s))
    (htext : echo (capture text) = text) :
    ∃ selections s', selectDesired M.run env (capture text) s = some (selections, s') ∧
      ListsSelections (echo selections) (M.selections s') ∧ M.Prepared s s' := by
  have hfound : jqRaw (desiredIds env.defaultOS env.defaultDistro) text =
      idLines ((M.selections s).filter fun a => a.os == env.defaultOS && a.release == env.defaultDistro) :=
    jqRaw_selectIds (fun x a hx => desiredIds_shows _ _ hx) hlists
  unfold selectDesired
  dsimp only
  rw [htext, hfound]
  split
  · obtain ⟨answer, s₁, hrun, hprepared⟩ := M.prepared_of_none hlists
    obtain ⟨text', s₂, hread, htext', hlists', hsel, -⟩ := M.run_read s₁
    refine ⟨capture text', s₂, ?_, ?_, ?_, ?_, ?_⟩
    · rw [runOrExit_eq hrun]
      simp only [Option.bind_eq_bind, Option.bind_some]
      rw [runOrExit_eq hread]
      rfl
    · rw [htext', hsel]
      exact hlists'
    · rw [hsel]
      exact hprepared.exists_desired
    · rw [hsel]
      exact hprepared.from_old
    · rw [hsel]
      exact hprepared.kept
  · rename_i hne
    refine ⟨capture text, s, rfl, htext.symm ▸ hlists, ?_, fun a ha => .inl ha, fun _ h => h⟩
    rw [capture_idLines_eq_nil_iff] at hne
    obtain ⟨a, ha⟩ := List.exists_mem_of_ne_nil _ hne
    obtain ⟨ha, hwanted⟩ := List.mem_filter.mp ha
    rw [Bool.and_eq_true, beq_iff_eq, beq_iff_eq] at hwanted
    refine ⟨a.id, ?_⟩
    rw [desired, ← hwanted.1, ← hwanted.2]
    exact ha

/-- What `configure_boot_sources` leaves. -/
theorem configureBootSources_eq (s : σ) : ∃ s', configureBootSources M.run env s = some s' ∧
    (∀ a ∈ M.selections s', (a ∈ M.selections s ∧ a.release = env.defaultDistro) ∨ ∃ id, a = desired env id) ∧
    (∃ id, desired env id ∈ M.selections s') ∧ ∀ id, desired env id ∈ M.selections s →
      desired env id ∈ M.selections s' := by
  obtain ⟨s₁, hs₁, hsel₁⟩ := M.setSource_eq s
  obtain ⟨text, s₂, hread, htext, hlists, hsel₂, -⟩ := M.run_read s₁
  obtain ⟨selections, s₃, hmiddle, hlists₃, hprepared⟩ := M.selectDesired_eq (hsel₂ ▸ hlists) htext
  obtain ⟨s₄, hremove, hfrom, hkept⟩ := M.removeStale_eq
    (((M.selections s₃).filter fun a => a.release != env.defaultDistro).map Selection.id) s₃
  have hprepare : prepareSelections M.run env s = some s₄ := by
    rw [prepareSelections, hs₁]
    simp only [Option.bind_eq_bind, Option.bind_some]
    rw [runOrExit_eq hread, Option.bind_some]
    dsimp only
    rw [hmiddle, Option.bind_some]
    dsimp only
    rw [jqRaw_staleIds hlists₃, words_idLines, ← hremove, List.map_map]
    rfl
  obtain ⟨text', s₅, hread', -, hlists', hsel₅, -⟩ := M.run_read s₄
  -- a selection that is left has the wanted release
  have hold : ∀ a ∈ M.selections s₄,
      (a ∈ M.selections s ∧ a.release = env.defaultDistro) ∨ ∃ id, a = desired env id := by
    intro a ha
    rcases hfrom a ha with ⟨ha, hid⟩ | hdesired
    · rcases hprepared.from_old a ha with hold | hdesired
      · rw [hsel₂, hsel₁] at hold
        refine .inl ⟨hold, ?_⟩
        by_contra hne
        exact hid (List.mem_map_of_mem (List.mem_filter.mpr ⟨ha, by simpa using hne⟩))
      · exact .inr hdesired
    · exact .inr hdesired
  -- the loop leaves alone what has the wanted release, as the ids are different
  have hstays : ∀ id, desired env id ∈ M.selections s₃ → desired env id ∈ M.selections s₄ := by
    intro id hid
    refine hkept _ hid fun hmem => ?_
    obtain ⟨b, hb, hsame⟩ := List.mem_map.mp hmem
    obtain ⟨hb, hother⟩ := List.mem_filter.mp hb
    have heq := List.inj_on_of_nodup_map (M.nodup s₃) hb hid hsame
    rw [heq] at hother
    simp [desired] at hother
  have hnone : (M.selections s₄).filter (fun a => a.release != env.defaultDistro) = [] := by
    refine List.filter_eq_nil_iff.mpr fun a ha => ?_
    rcases hold a ha with ⟨-, hrelease⟩ | ⟨id, rfl⟩
    · simp [hrelease]
    · simp [desired]
  have hchecked : jqRaw (staleIds env.defaultDistro) text' = [] := by
    rw [jqRaw_staleIds hlists', hnone]
    rfl
  refine ⟨s₅, ?_, ?_, ?_, ?_⟩
  · rw [configureBootSources, hprepare]
    simp only [Option.bind_eq_bind, Option.bind_some]
    rw [hread']
    refine if_neg (not_not.mpr ?_)
    rw [Option.getD_some, hchecked]
    rfl
  · rw [hsel₅]
    exact hold
  · rw [hsel₅]
    obtain ⟨id, hid⟩ := hprepared.exists_desired
    exact ⟨id, hstays id hid⟩
  · rw [hsel₅]
    intro id hid
    exact hstays id (hprepared.kept id (by rw [hsel₂, hsel₁]; exact hid))

end MaasServer

/-! ### What the clean-up leaves -/

theorem any_release_isNone {xs : List Json} {l : List Selection} (h : List.Forall₂ Selection.Shows xs l) :
    xs.any (fun x => (x.field (str "release")).isNone) = false := by
  induction h with
  | nil => rfl
  | cons hx _ ih => rw [List.any_cons, ih, hx.release]; rfl

/-- The first selection is kept if it has the wanted release. -/
theorem keepId_arr {distro : Bytes} {x : Json} {xs : List Json} {a : Selection} {l : List Selection}
    (h : List.Forall₂ Selection.Shows (x :: xs) (a :: l)) (ha : a.release = distro) :
    keepId distro (.arr (x :: xs)) = [.num (decimal a.id)] := by
  have hx := (List.forall₂_cons.mp h).1
  have hfind : (x :: xs).find? (fun x => ((x.field (str "release")).map (·.isText distro)).getD false) = some x := by
    refine List.find?_cons_of_pos ?_
    rw [hx.release, Option.map_some, Option.getD_some, Json.isText_iff, ha]
  unfold keepId
  rw [show (Json.arr (x :: xs)).elements = some (x :: xs) from rfl]
  dsimp only
  rw [any_release_isNone h, hfind]
  simp only [Bool.false_eq_true, if_false, hx.id]
  rfl

theorem same_num (m n : Nat) : (Json.num (decimal m)).same (.num (decimal n)) = decide (m = n) := by
  simp only [Json.same, Json.compact]
  by_cases h : m = n
  · simp [h]
  · have hne : decimal m ≠ decimal n := fun heq => h (formatNat_injective (by decide) (by decide) heq)
    simp [h, hne]

/-- The row of a selection. -/
def Selection.row (a : Selection) : Bytes := decimal a.id ++ str ":" ++ str "1"

theorem untilError_rowOf (n : Nat) {xs : List Json} {l : List Selection} (h : List.Forall₂ Selection.Shows xs l) :
    Json.untilError (rowOf (.num (decimal n))) xs = (l.filter fun a => a.id ≠ n).map fun a => .string a.row := by
  induction h with
  | nil => rfl
  | @cons x a xs l hx _ ih =>
    have hrow : rowOf (.num (decimal n)) x = some (if a.id = n then [] else [.string a.row]) := by
      unfold rowOf
      simp only [hx.id, hx.source, same_num, decide_eq_true_eq, Json.toText, Json.compact, Selection.row]
    rw [Json.untilError, hrow, List.filter_cons]
    by_cases hid : a.id = n <;> simp [hid, ih]

theorem deleteRow_row (a : Selection) : deleteRow a.row = deleteSelection (decimal a.id) := by
  have hcolon : ∀ c ∈ decimal a.id, (c != 58) = true := by
    have hdigit : ∀ c : UInt8, isDigit c = true → (c != 58) = true := forall_byte (by decide +kernel)
    exact fun c hc => hdigit c (Json.isDigit_of_mem_decimal hc)
  have hid : a.row.takeWhile (· != 58) = decimal a.id := by
    rw [Selection.row, List.append_assoc, List.takeWhile_append_of_pos hcolon]
    exact List.append_nil _
  have hsource : a.row.rtakeWhile (· != 58) = str "1" := by
    rw [Selection.row, List.rtakeWhile, List.reverse_append, List.reverse_append]
    rfl
  rw [deleteRow, hid, hsource]
  rfl

theorem words_rows (l : List Selection) : words (capture (unlines (l.map Selection.row))) = l.map Selection.row := by
  have hbyte : ∀ a ∈ l, ∀ c ∈ a.row, isBlank c = false ∧ c ≠ 0 := by
    have hdigit : ∀ c : UInt8, isDigit c = true → isBlank c = false ∧ c ≠ 0 := forall_byte (by decide +kernel)
    have hrest : ∀ c ∈ str ":1", isBlank c = false ∧ c ≠ 0 := by decide +kernel
    intro a _ c hc
    rw [Selection.row, List.append_assoc] at hc
    rcases List.mem_append.mp hc with hc | hc
    · exact hdigit c (Json.isDigit_of_mem_decimal hc)
    · exact hrest c hc
  have hmem : ∀ w ∈ l.map Selection.row, w ≠ [] ∧ BlankFree w := by
    intro w hw
    obtain ⟨a, ha, rfl⟩ := List.mem_map.mp hw
    refine ⟨?_, fun c hc => (hbyte a ha c hc).1⟩
    simp [Selection.row, Json.decimal_ne_nil]
  have hzero : 0 ∉ unlines (l.map Selection.row) := by
    intro h
    obtain ⟨w, hw, h⟩ := List.mem_flatMap.mp h
    obtain ⟨a, ha, rfl⟩ := List.mem_map.mp hw
    rcases List.mem_append.mp h with h | h
    · exact (hbyte a ha 0 h).2 rfl
    · exact absurd (List.mem_singleton.mp h) (by decide)
  rw [words_capture hzero, words_unlines hmem]

namespace MaasServer

variable {σ : Type} (M : MaasServer env σ)

/-- The loop over the rows. -/
theorem selections_deleteRows (l : List Selection) (s : σ) :
    M.selections ((l.map Selection.row).foldl (fun s row => (M.run (deleteRow row) s).2) s) =
      (M.selections s).filter fun a => a.id ∉ l.map Selection.id || M.inUse s a.id := by
  induction l generalizing s with
  | nil => simp
  | cons a l ih =>
    obtain ⟨answer, s', hrun, hsel, huse, -⟩ := M.run_delete a.id s
    rw [List.map_cons, List.foldl_cons, deleteRow_row, hrun, ih s', hsel, huse, removed, List.filter_filter]
    refine List.filter_congr fun b _ => ?_
    by_cases hid : b.id = a.id
    · cases M.inUse s b.id <;> simp [hid]
    · simp [hid]

/-- The clean-up keeps the first selection and those in use. -/
theorem cleanup_eq {s : σ} {a : Selection} {rest : List Selection} (hsel : M.selections s = a :: rest)
    (ha : a.release = env.defaultDistro) : (cleanupOldBootSourceSelections M.run env s).1 = true ∧
      M.selections (cleanupOldBootSourceSelections M.run env s).2 = a :: rest.filter fun b => M.inUse s b.id := by
  obtain ⟨text, s', hread, htext, ⟨xs, hjson, hxs⟩, hsel', huse⟩ := M.run_read s
  rw [hsel] at hxs
  obtain ⟨x, xs', -, -, rfl⟩ := List.forall₂_cons_right_iff.mp hxs
  have hnodup := M.nodup s
  rw [hsel, List.map_cons, List.nodup_cons] at hnodup
  have hids : (a :: rest).filter (fun b => b.id ≠ a.id) = rest := by
    rw [List.filter_cons_of_neg (by simp), List.filter_eq_self]
    intro b hb
    simpa using fun hid : b.id = a.id => hnodup.1 (hid ▸ List.mem_map_of_mem hb)
  have htest : jqTest text = true := by
    rw [jqTest, hjson]
    rfl
  have hkeep : capture (jqRaw (keepId env.defaultDistro) text) = decimal a.id := by
    rw [jqRaw_arr hjson, keepId_arr hxs ha, capture_idLine]
  have hrows : duplicateRows (decimal a.id) (capture text) = rest.map Selection.row := by
    rw [duplicateRows, Json.read_decimal]
    dsimp only
    rw [htext, jqRaw_arr hjson]
    change words (capture (unlines ((Json.untilError (rowOf _) (x :: xs')).map Json.raw))) = _
    rw [untilError_rowOf a.id hxs, hids, List.map_map]
    exact words_rows rest
  have hcleanup : cleanupOldBootSourceSelections M.run env s =
      (true, (rest.map Selection.row).foldl (fun s row => (M.run (deleteRow row) s).2) s') := by
    rw [cleanupOldBootSourceSelections, hread]
    dsimp only
    rw [htext, htest, hkeep, hrows, if_neg (Json.decimal_ne_nil a.id)]
    rfl
  have hfirst : (decide (a.id ∉ rest.map Selection.id) || M.inUse s a.id) = true := by
    rw [decide_eq_true hnodup.1, Bool.true_or]
  rw [hcleanup]
  refine ⟨rfl, ?_⟩
  dsimp only
  rw [M.selections_deleteRows rest s', hsel', hsel, huse, List.filter_cons, if_pos hfirst]
  refine congrArg _ (List.filter_congr fun b hb => ?_)
  simp [List.mem_map_of_mem (f := Selection.id) hb]

/-- Against every server: `configure_boot_sources` does not exit.  It leaves wanted selections and others that were
there before with the wanted release; a wanted one is among them, and all wanted ones that were there.  If they stay
like that during the import, the clean-up then succeeds and leaves the first of them and those that are in use by
then. -/
theorem selections_converge (s : σ) : ∃ s₁, configureBootSources M.run env s = some s₁ ∧
    (∀ a ∈ M.selections s₁, (a ∈ M.selections s ∧ a.release = env.defaultDistro) ∨ ∃ id, a = desired env id) ∧
    (∃ id, desired env id ∈ M.selections s₁) ∧
    (∀ id, desired env id ∈ M.selections s → desired env id ∈ M.selections s₁) ∧
    ∀ s₂, M.selections s₂ = M.selections s₁ → ∃ a rest, M.selections s₁ = a :: rest ∧
      (cleanupOldBootSourceSelections M.run env s₂).1 = true ∧
      M.selections (cleanupOldBootSourceSelections M.run env s₂).2 = a :: rest.filter fun b => M.inUse s₂ b.id := by
  obtain ⟨s₁, hconfigure, hfrom, ⟨id, hid⟩, hkept⟩ := M.configureBootSources_eq s
  refine ⟨s₁, hconfigure, hfrom, ⟨id, hid⟩, hkept, ?_⟩
  intro s₂ hsel
  obtain ⟨a, rest, hcons⟩ := List.exists_cons_of_ne_nil (List.ne_nil_of_mem hid)
  have hrelease : a.release = env.defaultDistro := by
    rcases hfrom a (by rw [hcons]; exact List.mem_cons_self) with ⟨-, h⟩ | ⟨id, rfl⟩
    · exact h
    · rfl
  exact ⟨a, rest, hcons, M.cleanup_eq (hsel.trans hcons) hrelease⟩

end MaasServer

/-! ### A server with two selections -/

def nobleEnv : BootSourceEnv := ⟨false, str "ubuntu", str "noble"⟩

/-- The first component is whether the first selection, if it is there, is for `noble` or for `focal`.  The second
is whether there is a second selection, which is for `noble`.  The third is whether nodes are commissioned with
`noble` or with `focal`. -/
abbrev NobleState := Option Bool × Bool × Bool

def seriesName (noble : Bool) : Bytes := if noble then str "noble" else str "focal"

def nobleSelections (s : NobleState) : List Selection :=
  (s.1.toList.map fun noble => ⟨1, str "ubuntu", seriesName noble⟩) ++
    if s.2.1 then [⟨2, str "ubuntu", str "noble"⟩] else []

/-- The release that nodes are commissioned with is in use. -/
def nobleInUse (s : NobleState) (id : Nat) : Bool :=
  (nobleSelections s).any fun a => a.id == id && a.release == seriesName s.2.2

def nobleText (s : NobleState) : Bytes :=
  let selection (release id : Bytes) : Bytes := str "\x7b\"os\": \"ubuntu\", \"release\": \"" ++ release ++
    str "\", \"id\": " ++ id ++ str ", \"boot_source_id\": 1\x7d"
  str "[" ++ join (str ", ") ((s.1.toList.map fun noble => selection (seriesName noble) (str "1")) ++
    if s.2.1 then [selection (str "noble") (str "2")] else []) ++ str "]"

def nobleSend (c : MaasCommand) (s : NobleState) : Bytes × NobleState :=
  let refused := str "Unable to delete: it is the operating system used in ephemeral environments."
  if c = readSelections then (nobleText s, s)
  else if c = deleteSelection (str "1") then if nobleInUse s 1 then (refused, s) else ([], (none, s.2))
  else if c = deleteSelection (str "2") then if nobleInUse s 2 then (refused, s) else ([], (s.1, false, s.2.2))
  else if c = updateSelection nobleEnv (str "1") then (str "Success.", (s.1.map fun _ => true, s.2))
  else if c = updateSelection nobleEnv (str "2") then (str "Success.", s)
  else if c = createSelection nobleEnv then (str "Success.", (s.1, s.1 != some true || s.2.1, s.2.2))
  else (str "Not Found", s)

theorem isTransient_nobleSend (c : MaasCommand) (s : NobleState) :
    isTransient (capture (nobleSend c s).1) = false := by
  have htext : ∀ s, isTransient (capture (nobleText s)) = false := by decide +kernel
  unfold nobleSend
  dsimp only
  split
  · exact htext s
  · repeat' split
    all_goals
      dsimp only
      decide +kernel

/-- The values of the text. -/
def nobleJson (s : NobleState) : List Json :=
  let selection (release id : Bytes) : Json :=
    .obj [(str "os", .string (str "ubuntu")), (str "release", .string release),
    (str "id", .num id), (str "boot_source_id", .num (str "1"))]
  (s.1.toList.map fun noble => selection (seriesName noble) (str "1")) ++
    if s.2.1 then [selection (str "noble") (str "2")] else []

theorem read_nobleText (s : NobleState) : Json.read (nobleText s ++ [10]) = ([.arr (nobleJson s)], true) := by
  obtain ⟨_ | _ | _, _ | _, c⟩ := s <;> rfl

theorem listsSelections_nobleText (s : NobleState) : ListsSelections (shown (nobleText s)) (nobleSelections s) := by
  have hshown : ∀ s, shown (nobleText s) = nobleText s ++ [10] := by decide +kernel
  refine ⟨nobleJson s, by rw [hshown, read_nobleText], ?_⟩
  obtain ⟨first, second, c⟩ := s
  refine List.rel_append ?_ ?_
  · cases first with
    | none => exact .nil
    | some noble => exact .cons ⟨rfl, rfl, rfl, rfl⟩ .nil
  · cases second with
    | false => exact .nil
    | true => exact .cons ⟨rfl, rfl, rfl, rfl⟩ .nil

theorem nobleSend_read (s : NobleState) : nobleSend readSelections s = (nobleText s, s) := by
  unfold nobleSend
  dsimp only
  rw [if_pos rfl]

theorem nobleSend_delete {id : Nat} (h₁ : id ≠ 1) (h₂ : id ≠ 2) (s : NobleState) :
    nobleSend (deleteSelection (decimal id)) s = (str "Not Found", s) := by
  have hother : ∀ n t, decimal n = t → id ≠ n → deleteSelection (decimal id) ≠ deleteSelection t := by
    rintro n t rfl hn h
    simp only [deleteSelection, List.cons.injEq, true_and, and_true] at h
    exact hn (formatNat_injective (by decide) (by decide) h)
  have hword : ∀ c : MaasCommand, c.take 2 ≠ [str "boot-source-selection", str "delete"] →
      deleteSelection (decimal id) ≠ c := by
    rintro c hc rfl
    exact hc rfl
  unfold nobleSend
  dsimp only
  rw [if_neg (hword _ (by decide)), if_neg (hother 1 _ (by decide) h₁), if_neg (hother 2 _ (by decide) h₂),
    if_neg (hword _ (by decide)), if_neg (hword _ (by decide)), if_neg (hword _ (by decide))]

theorem mem_nobleSelections {id : Nat} {s : NobleState} (h : id ∈ (nobleSelections s).map Selection.id) :
    id = 1 ∨ id = 2 := by
  obtain ⟨_ | _, _ | _, c⟩ := s <;> simp [nobleSelections] at h <;> omega

theorem nobleInUse_eq_false {id : Nat} (h₁ : id ≠ 1) (h₂ : id ≠ 2) (s : NobleState) : nobleInUse s id = false := by
  rw [nobleInUse, List.any_eq_false]
  intro a ha
  have hid : a.id ≠ id := by
    rintro rfl
    exact (mem_nobleSelections (List.mem_map_of_mem ha)).elim h₁ h₂
  simp [hid]

/-- Only a selection that is not in use is deleted, so the uses stay as they are. -/
theorem nobleInUse_delete {k : Nat} (hk : k = 1 ∨ k = 2) (s : NobleState) :
    nobleInUse (nobleSend (deleteSelection (decimal k)) s).2 = nobleInUse s := by
  have hboth : ∀ s : NobleState, ∀ j ∈ [1, 2], ∀ id ∈ [1, 2],
      nobleInUse (nobleSend (deleteSelection (decimal j)) s).2 id = nobleInUse s id := by decide +kernel
  funext id
  by_cases h₁ : id = 1
  · exact hboth s k (by simpa using hk) id (by simp [h₁])
  · by_cases h₂ : id = 2
    · exact hboth s k (by simpa using hk) id (by simp [h₂])
    · rw [nobleInUse_eq_false h₁ h₂, nobleInUse_eq_false h₁ h₂]

/-- A selection is in use if nodes are commissioned with its release. -/
def nobleServer : MaasServer nobleEnv NobleState where
  send := nobleSend
  selections := nobleSelections
  inUse := nobleInUse
  nodup := by decide
  answers c s := ⟨0, by decide, isTransient_nobleSend c s⟩
  source := by decide +kernel
  read s := by
    rw [nobleSend_read]
    exact .inr ⟨rfl, .inr (listsSelections_nobleText s)⟩
  inUse_read s := by rw [nobleSend_read]
  delete id s := by
    by_cases h₁ : id = 1
    · subst h₁
      unfold Does
      revert s
      decide +kernel
    · by_cases h₂ : id = 2
      · subst h₂
        unfold Does
        revert s
        decide +kernel
      · rw [nobleSend_delete h₁ h₂]
        have hmem : id ∉ (nobleSelections s).map Selection.id := fun h => (mem_nobleSelections h).elim h₁ h₂
        refine .inr ⟨?_, .inr ?_⟩
        · refine (List.filter_eq_self.mpr fun a ha => ?_).symm
          have hid : a.id ≠ id := fun h => hmem (h ▸ List.mem_map_of_mem ha)
          simp [hid]
        · have hanswer : grepAny [str "Unable to delete", str "ephemeral"] (shown (str "Not Found")) = false := by
            decide +kernel
          simp [hanswer, hmem]
  inUse_delete id s := by
    by_cases h₁ : id = 1
    · subst h₁
      exact nobleInUse_delete (by decide) s
    · by_cases h₂ : id = 2
      · subst h₂
        exact nobleInUse_delete (by decide) s
      · rw [nobleSend_delete h₁ h₂]
  update id s hid := by
    rcases mem_nobleSelections hid with rfl | rfl
    · unfold Does
      clear hid
      revert s
      decide +kernel
    · unfold Does
      clear hid
      revert s
      decide +kernel
  create s := by
    have hsend : nobleSend (createSelection nobleEnv) s =
        (str "Success.", (s.1, s.1 != some true || s.2.1, s.2.2)) := by
      revert s
      decide +kernel
    refine ⟨nobleSelections (s.1, s.1 != some true || s.2.1, s.2.2), ?_, .inr ⟨by rw [hsend], .inr trivial⟩⟩
    obtain ⟨_ | _ | _, _ | _, c⟩ := s
    · exact .inr ⟨2, rfl⟩
    · exact .inl ⟨rfl, 2, List.mem_singleton.mpr rfl⟩
    · exact .inr ⟨2, rfl⟩
    · exact .inl ⟨rfl, 2, List.mem_of_getLast? rfl⟩
    · exact .inl ⟨rfl, 1, List.mem_cons_self⟩
    · exact .inl ⟨rfl, 1, List.mem_cons_self⟩

/-- The selection of `focal` is in use, so it becomes one of `noble`.  As long as nodes are commissioned with
`focal`, the clean-up deletes the other one. -/
theorem selections_converge_noble : nobleSelections (some false, true, false) =
      [⟨1, str "ubuntu", str "focal"⟩, ⟨2, str "ubuntu", str "noble"⟩] ∧
    nobleInUse (some false, true, false) 1 = true ∧
    ∃ s₁, configureBootSources nobleServer.run nobleEnv (some false, true, false) = some s₁ ∧
      nobleInUse s₁ 1 = false ∧ (cleanupOldBootSourceSelections nobleServer.run nobleEnv s₁).1 = true ∧
      nobleServer.selections (cleanupOldBootSourceSelections nobleServer.run nobleEnv s₁).2 =
        [⟨1, str "ubuntu", str "noble"⟩] := by
  refine ⟨rfl, by decide, ?_⟩
  have hrun : configureBootSources nobleServer.run nobleEnv (some false, true, false) =
      some (some true, true, false) := by
    decide +kernel
  obtain ⟨s₁, hconfigure, -, -, -, hcleanup⟩ := nobleServer.selections_converge (some false, true, false)
  obtain rfl : (some true, true, false) = s₁ := Option.some_inj.mp (hrun.symm.trans hconfigure)
  obtain ⟨a, rest, hcons, hreturn, hleft⟩ := hcleanup (some true, true, false) rfl
  obtain ⟨rfl, rfl⟩ := List.cons.inj hcons
  exact ⟨_, hrun, by decide, hreturn, hleft⟩

end MaasBoot
