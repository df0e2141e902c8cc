import Mathlib.Data.List.Infix
import MaasBoot.Lib.Bytes

/-!
# Waiting for an import of boot resources

`start_import` asks MAAS again and again whether it is importing.  When the status has not changed for some time, it
takes the import for stalled and restarts the region.  A flag is to keep the script from restarting the region over
and over for one stall; a change of the status clears it.

After a restart the script forgets the status, so the next reply counts as a change, even if it is the same as before
the restart, and clears the flag.  The region is then restarted as long as the stall goes on
(`startImport_recoveries_iff`).
-/

namespace MaasBoot

/-- What `restart_stalled_import` meets, and the time at which the script goes on after it. -/
structure Recovery where
  regionRestarted : Bool
  loggedIn : Bool
  importAccepted : Bool
  finishedAt : Int
  deriving DecidableEq

/-- What one pass of the loop meets: whether MAAS accepts a new import, if the script issues one, the time, what
`maas_cli` prints for `is-importing`, if it does not give up, and what a recovery would meet. -/
structure ImportCheck where
  importAccepted : Bool
  now : Int
  reply : Option Bytes
  recovery : Recovery
  deriving DecidableEq

/-- The status before the first reply, and when there is none. -/
def unknownStatus : Bytes := str "unknown"

/-- `is_importing` -/
def ImportCheck.status (c : ImportCheck) : Bytes := c.reply.getD unknownStatus

/-- The variables of `start_import`, without those that are only logged. -/
structure ImportState where
  timeout : Int
  lastStatusChangeTime : Int
  lastIsImporting : Bytes := unknownStatus
  importIssued : Bool := false
  restartDone : Bool := false
  deriving DecidableEq

inductive ImportOutcome where
  /-- `return 0` -/
  | completed
  /-- `return 1` -/
  | notRecovered
  /-- `return 124` -/
  | timedOut
  /-- The script exits. -/
  | exited
  deriving DecidableEq

/-- `restart_stalled_import`; that the import cannot be stopped does not matter. -/
def restartStalledImport (r : Recovery) : Bool :=
  if !r.regionRestarted then false
  else if !r.loggedIn then false
  else if !r.importAccepted then false
  else true

/-- Track status changes. -/
def trackStatus (s : ImportState) (c : ImportCheck) : ImportState :=
  if c.status ≠ s.lastIsImporting then
    { s with lastIsImporting := c.status, lastStatusChangeTime := c.now, restartDone := false }
  else s

section Loop

variable (retryTimer : Int)

/-- `stall_threshold` -/
def stallThreshold : Int := retryTimer * 3

/-- The import has stalled, and the region was not restarted for it. -/
def Stalled (s : ImportState) (c : ImportCheck) : Prop :=
  s.restartDone = false ∧ stallThreshold retryTimer ≤ c.now - s.lastStatusChangeTime ∧ c.status ≠ str "false"

instance (s : ImportState) (c : ImportCheck) : Decidable (Stalled retryTimer s c) :=
  inferInstanceAs (Decidable (_ ∧ _ ∧ _))

/-- A pass of the loop from the reply on: whether it calls `restart_stalled_import`, and how it goes on. -/
def checkImport (s : ImportState) (c : ImportCheck) : Bool × Except ImportOutcome ImportState :=
  if c.status = str "false" then (false, .error .completed)
  else
    let s := trackStatus { s with importIssued := true } c
    if Stalled retryTimer s c then
      if restartStalledImport c.recovery then
        (true, .ok
          { timeout := s.timeout - retryTimer
            lastStatusChangeTime := c.recovery.finishedAt
            lastIsImporting := unknownStatus
            importIssued := false
            restartDone := true })
      else (true, .error .notRecovered)
    else (false, .ok { s with timeout := s.timeout - retryTimer })

/-- A check that was made, and whether it triggered a recovery. -/
abbrev ImportPass := ImportCheck × Bool

/-- The loop: the checks that are made, and how it ends if it does. -/
def importLoop : ImportState → List ImportCheck → List ImportPass × Option ImportOutcome
  | s, [] => ([], if s.timeout ≤ 0 then some .timedOut else none)
  | s, c :: cs =>
    if s.timeout ≤ 0 then ([], some .timedOut)
    else if !s.importIssued && !c.importAccepted then ([], some .exited)
    else match checkImport retryTimer s c with
      | (recovered, .error outcome) => ([(c, recovered)], some outcome)
      | (recovered, .ok s') => ((c, recovered) :: (importLoop s' cs).1, (importLoop s' cs).2)

/-- `start_import` -/
def startImport (jobTimeout start : Int) (checks : List ImportCheck) : List ImportPass × Option ImportOutcome :=
  importLoop retryTimer { timeout := jobTimeout, lastStatusChangeTime := start } checks

/-- Some checks of a run that take at least some time. -/
def Lasts (d : Int) (l : List ImportCheck) : Prop := ∃ a b, l.head? = some a ∧ l.getLast? = some b ∧ d ≤ b.now - a.now

/-- The same status is reported for so long that the region could be restarted twice. -/
def LongStall (d : Int) (checks : List ImportCheck) : Prop :=
  ∃ status l₁ l₂, l₁ ++ l₂ <:+: checks ∧ (∀ c ∈ l₁ ++ l₂, c.status = status) ∧ status ≠ unknownStatus ∧
    Lasts d l₁ ∧ Lasts d l₂

/-! ### One pass -/

/-- From a state on, the loop makes these checks. -/
def Follows : ImportState → List ImportPass → Prop
  | _, [] => True
  | s, e :: es => (checkImport retryTimer s e.1).1 = e.2 ∧
      (es = [] ∨ ∃ s', (checkImport retryTimer s e.1).2 = .ok s' ∧ Follows s' es)

variable {retryTimer} {s : ImportState} {c : ImportCheck}

theorem follows_importLoop (s : ImportState) (checks : List ImportCheck) :
    Follows retryTimer s (importLoop retryTimer s checks).1 := by
  induction checks generalizing s with
  | nil => exact trivial
  | cons c cs ih =>
    rw [importLoop]
    split
    · exact trivial
    · split
      · exact trivial
      · split
        · rename_i recovered outcome h
          exact ⟨by rw [h], .inl rfl⟩
        · rename_i recovered s' h
          exact ⟨by rw [h], .inr ⟨s', by rw [h], ih s'⟩⟩

/-- The checks that are made are the first ones. -/
theorem map_fst_importLoop (s : ImportState) (checks : List ImportCheck) :
    (importLoop retryTimer s checks).1.map Prod.fst <+: checks := by
  induction checks generalizing s with
  | nil => exact List.prefix_rfl
  | cons c cs ih =>
    rw [importLoop]
    split
    · exact List.nil_prefix
    · split
      · exact List.nil_prefix
      · split
        · exact List.cons_prefix_cons.mpr ⟨rfl, List.nil_prefix⟩
        · exact List.cons_prefix_cons.mpr ⟨rfl, ih _⟩

/-- What every pass that goes on preserves holds where the later checks are made. -/
theorem Follows.split (inv : ImportState → List ImportPass → Prop)
    (hstep : ∀ s t e s', inv s t → checkImport retryTimer s e.1 = (e.2, .ok s') → inv s' (t ++ [e]))
    {t rest : List ImportPass} (hrest : rest ≠ []) {s : ImportState} (h : Follows retryTimer s (t ++ rest))
    (hinv : inv s []) : ∃ s', inv s' t ∧ Follows retryTimer s' rest := by
  induction t generalizing s inv with
  | nil => exact ⟨s, hinv, h⟩
  | cons e t ih =>
    obtain ⟨hrec, hnil | ⟨s', hs', hfollows⟩⟩ := h
    · exact absurd (List.append_eq_nil_iff.mp hnil).2 hrest
    · refine ih (fun s u => inv s (e :: u)) (fun s₁ u e₁ s₂ hinv₁ hcheck => ?_) hfollows ?_
      · exact hstep s₁ (e :: u) e₁ s₂ hinv₁ hcheck
      · exact hstep s [] e s' hinv (Prod.ext hrec hs')

theorem trackStatus_last (s : ImportState) (c : ImportCheck) : (trackStatus s c).lastIsImporting = c.status := by
  rw [trackStatus]
  split
  · rfl
  · rename_i h
    exact (not_not.mp h).symm

theorem trackStatus_of_eq (h : c.status = s.lastIsImporting) : trackStatus s c = s := if_neg (not_not.mpr h)

theorem trackStatus_of_ne (h : c.status ≠ s.lastIsImporting) :
    (trackStatus s c).lastStatusChangeTime = c.now ∧ (trackStatus s c).restartDone = false := by
  rw [trackStatus, if_pos h]
  exact ⟨rfl, rfl⟩

/-- The states agree on what decides about recoveries. -/
structure SameStatus (s s' : ImportState) : Prop where
  last : s'.lastIsImporting = s.lastIsImporting
  time : s'.lastStatusChangeTime = s.lastStatusChangeTime
  flag : s'.restartDone = s.restartDone

theorem SameStatus.trans {s₁ s₂ s₃ : ImportState} (h : SameStatus s₁ s₂) (h' : SameStatus s₂ s₃) : SameStatus s₁ s₃ :=
  ⟨h'.last.trans h.last, h'.time.trans h.time, h'.flag.trans h.flag⟩

theorem SameStatus.stalled_iff {s' : ImportState} (h : SameStatus s s') :
    Stalled retryTimer s' c ↔ Stalled retryTimer s c := by
  rw [Stalled, Stalled, h.time, h.flag]

/-- Everything that a pass can do. -/
theorem checkImport_cases (retryTimer : Int) (s : ImportState) (c : ImportCheck) :
    ((checkImport retryTimer s c).1 = true ↔ Stalled retryTimer (trackStatus s c) c) ∧
    ∀ s', (checkImport retryTimer s c).2 = .ok s' →
      ((checkImport retryTimer s c).1 = true ∧ s'.lastIsImporting = unknownStatus ∧ s'.restartDone = true) ∨
      ((checkImport retryTimer s c).1 = false ∧ SameStatus (trackStatus s c) s') := by
  have hsame : SameStatus (trackStatus s c) (trackStatus { s with importIssued := true } c) := by
    unfold trackStatus
    split
    · exact ⟨rfl, rfl, rfl⟩
    · exact ⟨rfl, rfl, rfl⟩
  unfold checkImport
  split
  · rename_i hfalse
    refine ⟨⟨fun h => (nomatch h), fun h => absurd hfalse h.2.2⟩, fun s' h => (nomatch h)⟩
  · dsimp only
    split
    · rename_i hstalled
      have hstalled := hsame.stalled_iff.mp hstalled
      split
      · refine ⟨⟨fun _ => hstalled, fun _ => rfl⟩, fun s' h => ?_⟩
        obtain rfl := Except.ok.inj h
        exact .inl ⟨rfl, rfl, rfl⟩
      · exact ⟨⟨fun _ => hstalled, fun _ => rfl⟩, fun s' h => (nomatch h)⟩
    · rename_i hstalled
      refine ⟨⟨fun h => (nomatch h), fun h => absurd (hsame.stalled_iff.mpr h) hstalled⟩, fun s' h => ?_⟩
      obtain rfl := Except.ok.inj h
      exact .inr ⟨rfl, hsame.last, hsame.time, hsame.flag⟩

/-- The loop goes on only if MAAS is importing. -/
theorem status_ne_false {s' : ImportState} (h : (checkImport retryTimer s c).2 = .ok s') :
    c.status ≠ str "false" := by
  intro hfalse
  rw [checkImport, if_pos hfalse] at h
  cases h

/-- A check that reports the last status again, and triggers no recovery, changes nothing. -/
theorem sameStatus_of_quiet {s' : ImportState} (hlast : c.status = s.lastIsImporting)
    (hcheck : checkImport retryTimer s c = (false, .ok s')) : SameStatus s s' := by
  rcases (checkImport_cases retryTimer s c).2 s' (by rw [hcheck]) with ⟨hrec, -⟩ | ⟨-, hsame⟩
  · rw [hcheck] at hrec
    cases hrec
  · rwa [trackStatus_of_eq hlast] at hsame

/-! ### Stretches of checks -/

/-- The checks since the status changed last: they report the same status, and the region was not restarted. -/
def Stretch (s : ImportState) (t : List ImportPass) : Prop :=
  s.lastIsImporting = unknownStatus ∨ (s.restartDone = false ∧ ∃ t₀ e l, t = t₀ ++ e :: l ∧
    e.1.now = s.lastStatusChangeTime ∧ ∀ e' ∈ e :: l, e'.1.status = s.lastIsImporting)

/-- After a check that reports a known status, the checks since the last change. -/
theorem Stretch.track {t : List ImportPass} (h : Stretch s t) (e : ImportPass) (hknown : e.1.status ≠ unknownStatus) :
    (trackStatus s e.1).restartDone = false ∧ ∃ t₀ a l, t ++ [e] = t₀ ++ a :: l ∧
      a.1.now = (trackStatus s e.1).lastStatusChangeTime ∧ ∀ e' ∈ a :: l, e'.1.status = e.1.status := by
  by_cases hlast : e.1.status = s.lastIsImporting
  · rcases h with hunknown | ⟨hflag, t₀, a, l, rfl, htime, hall⟩
    · exact absurd (hlast.trans hunknown) hknown
    · rw [trackStatus_of_eq hlast]
      refine ⟨hflag, t₀, a, l ++ [e], by simp, htime, fun e' he' => ?_⟩
      rw [← List.cons_append, List.mem_append, List.mem_singleton] at he'
      rcases he' with he' | rfl
      · rw [hall e' he', hlast]
      · rfl
  · obtain ⟨htime, hflag⟩ := trackStatus_of_ne hlast
    exact ⟨hflag, t, e, [], rfl, htime.symm, fun e' he' => by rw [List.mem_singleton.mp he']⟩

/-- When a check reports a known status, the region was not restarted since the last change, which was not later. -/
theorem Stretch.change_le {t : List ImportPass} (h : Stretch s t) {e : ImportPass}
    (hknown : e.1.status ≠ unknownStatus) (hclock : ∀ x ∈ t, x.1.now ≤ e.1.now) :
    (trackStatus s e.1).restartDone = false ∧ (trackStatus s e.1).lastStatusChangeTime ≤ e.1.now := by
  obtain ⟨hflag, t₀, x, l, heq, htime, -⟩ := h.track e hknown
  refine ⟨hflag, ?_⟩
  have hx : x ∈ t ++ [e] := by simp [heq]
  rw [← htime]
  rcases List.mem_append.mp hx with hx | hx
  · exact hclock x hx
  · rw [List.mem_singleton.mp hx]

theorem Stretch.step {t : List ImportPass} (h : Stretch s t) {e : ImportPass} {s' : ImportState}
    (hcheck : checkImport retryTimer s e.1 = (e.2, .ok s')) : Stretch s' (t ++ [e]) := by
  rcases (checkImport_cases retryTimer s e.1).2 s' (by rw [hcheck]) with ⟨-, hunknown, -⟩ | ⟨-, hsame⟩
  · exact .inl hunknown
  · by_cases hknown : e.1.status = unknownStatus
    · exact .inl (hsame.last.trans ((trackStatus_last s e.1).trans hknown))
    · obtain ⟨hflag, t₀, a, l, heq, htime, hall⟩ := h.track e hknown
      refine .inr ⟨hsame.flag.trans hflag, t₀, a, l, heq, htime.trans hsame.time.symm, fun e' he' => ?_⟩
      rw [hall e' he', hsame.last, trackStatus_last]

/-- Where the later checks are made, the earlier ones are a stretch. -/
theorem Follows.stretch {t rest : List ImportPass} (hrest : rest ≠ []) (h : Follows retryTimer s (t ++ rest))
    (hs : Stretch s []) : ∃ s', Stretch s' t ∧ Follows retryTimer s' rest :=
  h.split Stretch (fun _ _ _ _ hinv hcheck => hinv.step hcheck) hrest hs

/-- A recovery comes after a stretch of checks with the same status. -/
theorem Stretch.recovery {t : List ImportPass} (h : Stretch s t) {e : ImportPass}
    (hrec : (checkImport retryTimer s e.1).1 = true) (hknown : e.1.status ≠ unknownStatus) :
    ∃ t₀ l, t ++ [e] = t₀ ++ l ∧ (∀ e' ∈ l, e'.1.status = e.1.status) ∧
      Lasts (stallThreshold retryTimer) (l.map Prod.fst) := by
  obtain ⟨-, hthreshold, -⟩ := (checkImport_cases retryTimer s e.1).1.mp hrec
  obtain ⟨-, t₀, a, l, heq, htime, hall⟩ := h.track e hknown
  refine ⟨t₀, a :: l, heq, hall, a.1, e.1, rfl, ?_, ?_⟩
  · have hlast := congrArg List.getLast? heq
    rw [List.getLast?_concat, List.getLast?_append_of_ne_nil _ (List.cons_ne_nil a l)] at hlast
    rw [List.getLast?_map, ← hlast]
    rfl
  · rw [htime]
    exact hthreshold

theorem Lasts.ne_nil {d : Int} {l : List ImportCheck} (h : Lasts d l) : l ≠ [] := by
  rintro rfl
  obtain ⟨a, -, ha, -⟩ := h
  cases ha

/-- Checks before the first one make it longer. -/
theorem Lasts.append {d : Int} {l l' : List ImportCheck} (h : Lasts d l')
    (hclock : (l ++ l').Pairwise fun c c' => c.now ≤ c'.now) : Lasts d (l ++ l') := by
  obtain ⟨a, b, ha, hb, hd⟩ := h
  have hb' : (l ++ l').getLast? = some b := by
    rw [List.getLast?_append, hb]
    rfl
  cases l with
  | nil => exact ⟨a, b, ha, hb, hd⟩
  | cons c l =>
    have hle : c.now ≤ a.now := (List.pairwise_append.mp hclock).2.2 c (by simp) a (List.mem_of_mem_head? ha)
    exact ⟨c, b, rfl, hb', by omega⟩

/-! ### Recoveries -/

/-- Checks that report the last status again, without recoveries, change nothing. -/
theorem Follows.sameStatus {l rest : List ImportPass} (hrest : rest ≠ []) {s : ImportState}
    (h : Follows retryTimer s (l ++ rest)) (hall : ∀ e ∈ l, e.1.status = s.lastIsImporting ∧ e.2 = false) :
    ∃ s', SameStatus s s' ∧ Follows retryTimer s' rest := by
  induction l generalizing s with
  | nil => exact ⟨s, ⟨rfl, rfl, rfl⟩, h⟩
  | cons e l ih =>
    obtain ⟨hrec, hnil | ⟨s₁, hs₁, hfollows⟩⟩ := h
    · exact absurd (List.append_eq_nil_iff.mp hnil).2 hrest
    · obtain ⟨hstatus, hquiet⟩ := hall e (by simp)
      have hsame := sameStatus_of_quiet hstatus (Prod.ext (hrec.trans hquiet) hs₁)
      obtain ⟨s', hsame', hrest'⟩ := ih hfollows fun e' he' => by
        rw [hsame.last]
        exact hall e' (List.mem_cons_of_mem e he')
      exact ⟨s', hsame.trans hsame', hrest'⟩

/-- The flag keeps a check that reports the last status from triggering a recovery. -/
theorem quiet_of_restartDone {s : ImportState} (hflag : s.restartDone = true) (hlast : c.status = s.lastIsImporting) :
    (checkImport retryTimer s c).1 = false := by
  rw [← Bool.not_eq_true, (checkImport_cases retryTimer s c).1, trackStatus_of_eq hlast]
  rintro ⟨hflag', -⟩
  rw [hflag] at hflag'
  cases hflag'

/-- After a recovery nothing happens as long as there is no status at all. -/
theorem quiet_of_unknown {s : ImportState} (hlast : s.lastIsImporting = unknownStatus) (hflag : s.restartDone = true)
    {mid rest : List ImportPass} {e : ImportPass} (h : Follows retryTimer s (mid ++ e :: rest))
    (hall : ∀ e' ∈ mid ++ [e], e'.1.status = unknownStatus) : e.2 = false := by
  induction mid generalizing s with
  | nil => exact h.1.symm.trans (quiet_of_restartDone hflag ((hall e (by simp)).trans hlast.symm))
  | cons a mid ih =>
    have ha := (hall a (by simp)).trans hlast.symm
    obtain ⟨-, hnil | ⟨s₁, hs₁, hfollows⟩⟩ := h
    · simp at hnil
    · have hsame := sameStatus_of_quiet ha (Prod.ext (quiet_of_restartDone hflag ha) hs₁)
      exact ih (hsame.last.trans hlast) (hsame.flag.trans hflag) hfollows fun e' he' =>
        hall e' (List.mem_cons_of_mem a he')

/-- Checks that report the same known status for long enough trigger a recovery. -/
theorem recovered_of_lasts {t l rest : List ImportPass} {status : Bytes} (hstretch : Stretch s t)
    (h : Follows retryTimer s (l ++ rest)) (hall : ∀ e ∈ l, e.1.status = status) (hknown : status ≠ unknownStatus)
    (hfalse : status ≠ str "false") (hclock : (t ++ l).Pairwise fun e e' => e.1.now ≤ e'.1.now)
    (hlasts : Lasts (stallThreshold retryTimer) (l.map Prod.fst)) : ∃ e ∈ l, e.2 = true := by
  obtain ⟨a, b, ha, hb, hd⟩ := hlasts
  by_contra hnone
  have hquiet : ∀ e ∈ l, e.2 = false := fun e he => by
    rw [← Bool.not_eq_true]
    exact fun h => hnone ⟨e, he, h⟩
  cases l with
  | nil => cases ha
  | cons e l =>
    obtain rfl : e.1 = a := Option.some_inj.mp ha
    have hstatus := hall e (by simp)
    -- the status did not change after the first of these checks
    obtain ⟨hflag, hle⟩ := hstretch.change_le (hstatus.trans_ne hknown) fun x hx =>
      (List.pairwise_append.mp hclock).2.2 x hx e (by simp)
    rcases List.eq_nil_or_concat' l with rfl | ⟨l, e', rfl⟩
    · obtain rfl : e.1 = b := Option.some_inj.mp hb
      have hrec : (checkImport retryTimer s e.1).1 = true :=
        (checkImport_cases retryTimer s e.1).1.mpr ⟨hflag, by omega, hstatus.trans_ne hfalse⟩
      exact absurd (h.1.symm.trans hrec) (by simp [hquiet e (by simp)])
    · have hb' : e'.1 = b := by
        rw [← List.cons_append, List.map_append, List.map_singleton, List.getLast?_concat] at hb
        exact Option.some_inj.mp hb
      have he' := hall e' (by simp)
      obtain ⟨hrec, hnil | ⟨s₁, hs₁, hfollows⟩⟩ := h
      · simp at hnil
      rcases (checkImport_cases retryTimer s e.1).2 s₁ hs₁ with ⟨htrue, -⟩ | ⟨-, hsame⟩
      · exact absurd (hrec.symm.trans htrue) (by simp [hquiet e (by simp)])
      have hlast := hsame.last.trans (trackStatus_last s e.1)
      change Follows retryTimer s₁ ((l ++ [e']) ++ rest) at hfollows
      rw [List.append_assoc] at hfollows
      obtain ⟨s₂, hsame', hrec', -⟩ := hfollows.sameStatus (by simp) fun e'' he'' =>
        ⟨(hall e'' (by simp [he''])).trans (hstatus.symm.trans hlast.symm), hquiet e'' (by simp [he''])⟩
      have hsame₂ := hsame.trans hsame'
      have htrue : (checkImport retryTimer s₂ e'.1).1 = true := by
        rw [(checkImport_cases retryTimer s₂ e'.1).1, trackStatus_of_eq, hsame₂.stalled_iff]
        · refine ⟨hflag, ?_, he'.trans_ne hfalse⟩
          rw [hb']
          omega
        · rw [hsame₂.last, trackStatus_last, he', hstatus]
      exact absurd (hrec'.symm.trans htrue) (by simp [hquiet e' (by simp)])

/-- Two recoveries with the same status all along need a long stall. -/
theorem longStall_of_recoveries {t mid rest : List ImportPass} {e e' : ImportPass} {status : Bytes}
    (hs : Stretch s []) (h : Follows retryTimer s (t ++ e :: (mid ++ e' :: rest)))
    (hclock : (t ++ e :: (mid ++ e' :: rest)).Pairwise fun e e' => e.1.now ≤ e'.1.now) (he : e.2 = true)
    (he' : e'.2 = true) (hall : ∀ x ∈ e :: (mid ++ [e']), x.1.status = status) :
    LongStall (stallThreshold retryTimer) ((t ++ e :: (mid ++ e' :: rest)).map Prod.fst) := by
  obtain ⟨s₁, hs₁, hrec, hnil | ⟨s₂, hs₂, hfollows⟩⟩ := h.stretch (List.cons_ne_nil _ _) hs
  · simp at hnil
  rcases (checkImport_cases retryTimer s₁ e.1).2 s₂ hs₂ with ⟨-, hlast, hflag⟩ | ⟨hfalse, -⟩
  swap
  · rw [hrec, he] at hfalse
    cases hfalse
  have hstatus := hall e (by simp)
  by_cases hknown : status = unknownStatus
  · -- without a status the flag still holds at the second recovery
    have hquiet := quiet_of_unknown hlast hflag hfollows fun x hx => (hall x (List.mem_cons_of_mem e hx)).trans hknown
    rw [he'] at hquiet
    cases hquiet
  obtain ⟨t₀, l₁, heq₁, hall₁, hlasts₁⟩ := hs₁.recovery (hrec.trans he) (hstatus.trans_ne hknown)
  obtain ⟨s₃, hs₃, hrec', -⟩ := hfollows.stretch (List.cons_ne_nil _ _) (.inl hlast)
  have hstatus' := hall e' (by simp)
  obtain ⟨t₁, l₂, heq₂, hall₂, hlasts₂⟩ := hs₃.recovery (hrec'.trans he') (hstatus'.trans_ne hknown)
  have hpasses : t ++ e :: (mid ++ e' :: rest) = t₀ ++ (l₁ ++ (mid ++ [e'])) ++ rest := by
    rw [← List.append_assoc t₀, ← heq₁]
    simp
  refine ⟨status, l₁.map Prod.fst, (mid ++ [e']).map Prod.fst, ?_, ?_, hknown, hlasts₁, ?_⟩
  · rw [hpasses, ← List.map_append]
    exact (List.infix_append t₀ _ rest).map Prod.fst
  · intro c hc
    rw [← List.map_append] at hc
    obtain ⟨x, hx, rfl⟩ := List.mem_map.mp hc
    rcases List.mem_append.mp hx with hx | hx
    · exact (hall₁ x hx).trans hstatus
    · exact hall x (List.mem_cons_of_mem e hx)
  · rw [heq₂, List.map_append]
    refine hlasts₂.append ?_
    rw [← List.map_append, ← heq₂, List.pairwise_map]
    rw [hpasses] at hclock
    exact (hclock.sublist (List.sublist_append_left _ _)).sublist
      ((List.sublist_append_right _ _).trans (List.sublist_append_right _ _))

/-- Each of two stretches with the same known status that last long enough has its recovery. -/
theorem recoveries_of_lasts {t q₁ q₂ rest : List ImportPass} {status : Bytes} (hs : Stretch s [])
    (h : Follows retryTimer s (t ++ (q₁ ++ (q₂ ++ rest))))
    (hclock : (t ++ (q₁ ++ (q₂ ++ rest))).Pairwise fun e e' => e.1.now ≤ e'.1.now)
    (hall : ∀ e ∈ q₁ ++ q₂, e.1.status = status) (hknown : status ≠ unknownStatus)
    (hlasts₁ : Lasts (stallThreshold retryTimer) (q₁.map Prod.fst))
    (hlasts₂ : Lasts (stallThreshold retryTimer) (q₂.map Prod.fst)) :
    (∃ e ∈ q₁, e.2 = true) ∧ ∃ e ∈ q₂, e.2 = true := by
  have hne₁ : q₁ ≠ [] := fun h => hlasts₁.ne_nil (by rw [h]; rfl)
  have hne₂ : q₂ ≠ [] := fun h => hlasts₂.ne_nil (by rw [h]; rfl)
  obtain ⟨s₁, hs₁, hfollows₁⟩ := h.stretch (by simp [hne₁]) hs
  -- the loop goes on after the first of these checks, so MAAS does not report that it is done
  have hfalse : status ≠ str "false" := by
    cases q₁ with
    | nil => exact absurd rfl hne₁
    | cons e q₁ =>
      obtain ⟨-, hnil | ⟨s₂, hs₂, -⟩⟩ := hfollows₁
      · exact absurd (List.append_eq_nil_iff.mp hnil).2 (by simp [hne₂])
      · rw [← hall e (by simp)]
        exact status_ne_false hs₂
  refine ⟨?_, ?_⟩
  · refine recovered_of_lasts hs₁ hfollows₁ (fun e he => hall e (List.mem_append_left _ he)) hknown hfalse ?_ hlasts₁
    rw [← List.append_assoc] at hclock
    exact hclock.sublist (List.sublist_append_left _ _)
  · rw [← List.append_assoc] at h hclock
    obtain ⟨s₂, hs₂, hfollows₂⟩ := h.stretch (by simp [hne₂]) hs
    refine recovered_of_lasts hs₂ hfollows₂ (fun e he => hall e (List.mem_append_right _ he)) hknown hfalse ?_ hlasts₂
    rw [← List.append_assoc] at hclock
    exact hclock.sublist (List.sublist_append_left _ _)

/-- Two recoveries are separated by a change of the status if and only if the same status is never reported for so
long that the region could be restarted twice. -/
theorem startImport_recoveries_iff (retryTimer jobTimeout start : Int) (checks : List ImportCheck)
    (hclock : checks.Pairwise fun c c' => c.now ≤ c'.now) :
    let passes := (startImport retryTimer jobTimeout start checks).1
    (∀ t e mid e' rest, passes = t ++ e :: (mid ++ e' :: rest) → e.2 = true → e'.2 = true →
      ∃ x ∈ e :: (mid ++ [e']), ∃ y ∈ e :: (mid ++ [e']), x.1.status ≠ y.1.status) ↔
    ¬ LongStall (stallThreshold retryTimer) (passes.map Prod.fst) := by
  intro passes
  have hfollows : Follows retryTimer _ passes := follows_importLoop _ checks
  have hstart : Stretch { timeout := jobTimeout, lastStatusChangeTime := start } [] := .inl rfl
  have hmade : (passes.map Prod.fst).Pairwise fun c c' => c.now ≤ c'.now :=
    hclock.sublist (map_fst_importLoop _ checks).sublist
  have hpasses : passes.Pairwise fun e e' => e.1.now ≤ e'.1.now := by
    rw [List.pairwise_map] at hmade
    exact hmade
  constructor
  · rintro hchange ⟨status, l₁, l₂, ⟨u, v, huv⟩, hall, hknown, hlasts₁, hlasts₂⟩
    obtain ⟨p, rest, heq, hp, rfl⟩ := List.map_eq_append_iff.mp huv.symm
    obtain ⟨t, q, rfl, rfl, hq⟩ := List.map_eq_append_iff.mp hp
    obtain ⟨q₁, q₂, rfl, rfl, rfl⟩ := List.map_eq_append_iff.mp hq
    have hstatus : ∀ e ∈ q₁ ++ q₂, e.1.status = status := by
      intro e he
      refine hall e.1 ?_
      rw [← List.map_append]
      exact List.mem_map_of_mem he
    rw [List.append_assoc, List.append_assoc] at heq
    rw [heq] at hfollows hpasses
    obtain ⟨⟨e, he, hrec⟩, e', he', hrec'⟩ :=
      recoveries_of_lasts hstart hfollows hpasses hstatus hknown hlasts₁ hlasts₂
    obtain ⟨w, w', rfl⟩ := List.append_of_mem he
    obtain ⟨z, z', rfl⟩ := List.append_of_mem he'
    have hsplit : passes = (t ++ w) ++ e :: ((w' ++ z) ++ e' :: (z' ++ rest)) := by
      rw [heq]
      simp
    obtain ⟨x, hx, y, hy, hne⟩ := hchange _ _ _ _ _ hsplit hrec hrec'
    have hmem : ∀ x ∈ e :: ((w' ++ z) ++ [e']), x ∈ (w ++ e :: w') ++ (z ++ e' :: z') := by
      intro x hx
      simp only [List.mem_cons, List.mem_append, List.not_mem_nil, or_false] at hx ⊢
      tauto
    exact hne ((hstatus x (hmem x hx)).trans (hstatus y (hmem y hy)).symm)
  · intro hno t e mid e' rest heq he he'
    by_contra hsame
    push Not at hsame
    rw [heq] at hfollows hpasses hno
    exact hno (longStall_of_recoveries hstart hfollows hpasses he he' fun x hx => hsame x hx e (by simp))

theorem Lasts.two_le_length {d : Int} {l : List ImportCheck} (h : Lasts d l) (hd : 0 < d) : 2 ≤ l.length := by
  obtain ⟨a, b, ha, hb, hle⟩ := h
  match l, ha, hb with
  | [c], ha, hb =>
    obtain rfl : c = a := Option.some_inj.mp ha
    obtain rfl : c = b := Option.some_inj.mp hb
    omega
  | _ :: _ :: _, _, _ => simp

/-- A check at some time, in a region that can be restarted. -/
def sampleCheck (reply : Option Bytes) (now : Int) : ImportCheck := ⟨true, now, reply, ⟨true, true, true, now + 100⟩⟩

/-- Two stalls with an answer that is missing in between. -/
def sampleChecks : List ImportCheck :=
  [sampleCheck (some (str "true")) 30, sampleCheck (some (str "true")) 60, sampleCheck none 220,
    sampleCheck (some (str "true")) 230, sampleCheck (some (str "true")) 260]

theorem startImport_recoveries_sample : sampleChecks.Pairwise (fun c c' => c.now ≤ c'.now) ∧
    (startImport 10 900 0 sampleChecks).1.map Prod.snd = [false, true, false, false, true] ∧
    ∀ t e mid e' rest, (startImport 10 900 0 sampleChecks).1 = t ++ e :: (mid ++ e' :: rest) → e.2 = true →
      e'.2 = true → ∃ x ∈ e :: (mid ++ [e']), ∃ y ∈ e :: (mid ++ [e']), x.1.status ≠ y.1.status := by
  have hclock : sampleChecks.Pairwise fun c c' => c.now ≤ c'.now := by decide
  refine ⟨hclock, by decide, (startImport_recoveries_iff 10 900 0 sampleChecks hclock).mpr ?_⟩
  rintro ⟨status, l₁, l₂, ⟨u, v, huv⟩, hall, hknown, hlasts₁, hlasts₂⟩
  have hlen : 4 ≤ (l₁ ++ l₂).length := by
    have h₁ := hlasts₁.two_le_length (by decide)
    have h₂ := hlasts₂.two_le_length (by decide)
    rw [List.length_append]
    omega
  have hmade : (startImport 10 900 0 sampleChecks).1.map Prod.fst = sampleChecks := by decide
  rw [hmade] at huv
  -- four checks in a row include the third
  have hthird : sampleCheck none 220 ∈ l₁ ++ l₂ := by
    generalize l₁ ++ l₂ = l at huv hlen
    match u, l, hlen with
    | [], a :: b :: c :: d :: l, _ => simp_all [sampleChecks]
    | [_], a :: b :: c :: d :: l, _ => simp_all [sampleChecks]
    | _ :: _ :: u, a :: b :: c :: d :: l, _ =>
      have hlength := congrArg List.length huv
      simp [sampleChecks] at hlength
      omega
  exact hknown (hall _ hthird).symm

/-- An import for which MAAS reports `true` all the time: the region is restarted twice. -/
theorem startImport_restarts_again :
    let checks := [30, 40, 50, 60, 220, 230, 240, 250].map (sampleCheck (some (str "true")))
    let passes := (startImport 10 900 0 checks).1
    checks.Pairwise (fun c c' => c.now ≤ c'.now) ∧
    ∃ t e mid e' rest, passes = t ++ e :: (mid ++ e' :: rest) ∧ e.2 = true ∧ e'.2 = true ∧
      ∀ x ∈ e :: (mid ++ [e']), ∀ y ∈ e :: (mid ++ [e']), x.1.status = y.1.status := by
  intro checks passes
  let e : ImportPass := (sampleCheck (some (str "true")) 60, true)
  let e' : ImportPass := (sampleCheck (some (str "true")) 250, true)
  refine ⟨by decide, passes.take 3, e, (passes.drop 4).take 3, e', [], by decide, rfl, rfl, ?_⟩
  have hall : ((e :: ((passes.drop 4).take 3 ++ [e'])).all fun x => decide (x.1.status = str "true")) = true := by
    decide
  intro x hx y hy
  rw [of_decide_eq_true (List.all_eq_true.mp hall x hx), of_decide_eq_true (List.all_eq_true.mp hall y hy)]

end Loop

end MaasBoot
