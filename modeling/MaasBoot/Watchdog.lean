import MaasBoot.Lib.Bytes
import MaasBoot.Lib.Runs

/-!
# The watchdog of rackd

The loop of `maas-rackd-watchdog`.  It restarts the service when the region keeps reporting that rackd does not run,
and also when systemd has given the unit up.  Restarts of the first kind are limited: they need a number of checks
in a row, come at least a cooldown after the last restart of either kind, and stop after a number of them until
rackd runs again.
-/

namespace MaasBoot

/-- The parameters of the loop; its pauses do not matter here. -/
structure WatchdogParams where
  failureThreshold : Nat
  cooldown : Nat
  maxRestarts : Nat

/-- What one pass of the loop sees. -/
inductive Observation where
  /-- The unit is not active; systemd may have given it up. -/
  | inactive (failed : Bool)
  | regionUnreachable
  /-- The region reports a status of rackd. -/
  | reported (status info : Bytes)
  deriving DecidableEq

/-- One pass of the loop: what it sees, the time it reads from `date` and the time of a restart. -/
structure Iteration where
  seen : Observation
  now : Int
  restartAt : Int
  deriving DecidableEq

inductive Restart where
  | failedUnit
  | status
  deriving DecidableEq

/-- The counters of the script. -/
structure Watchdog where
  failures : Nat := 0
  restarts : Nat := 0
  lastRestart : Int := 0
  deriving DecidableEq

def Observation.running : Observation → Bool
  | .reported status _ => status == str "running"
  | _ => false

/-- The region reports another status than running. -/
def Observation.notRunning : Observation → Bool
  | .reported status _ => status != str "running"
  | _ => false

variable (p : WatchdogParams)

/-- One pass of the loop, and the restart it makes. -/
def watchdogStep (s : Watchdog) (it : Iteration) : Watchdog × Option Restart :=
  match it.seen with
  | .inactive true => ({ s with lastRestart := it.now }, some .failedUnit)
  | .inactive false => (s, none)
  | .regionUnreachable => (s, none)
  | .reported status _ =>
    if status = str "running" then ({ s with failures := 0, restarts := 0 }, none)
    else
      let s := { s with failures := s.failures + 1 }
      if s.failures < p.failureThreshold then (s, none)
      else if it.now - s.lastRestart < p.cooldown then (s, none)
      else if s.restarts ≥ p.maxRestarts then (s, none)
      else ({ failures := 0, restarts := s.restarts + 1, lastRestart := it.now }, some .status)

/-- The times of a pass in their order: a unit that was given up is restarted before the time is read. -/
def Iteration.times (it : Iteration) : List Int :=
  if it.seen = .inactive true then [it.restartAt, it.now] else [it.now, it.restartAt]

/-- A pass with the restart it made. -/
abbrev Pass := Iteration × Option Restart

def Pass.running (e : Pass) : Bool := e.1.seen.running

def Pass.notRunning (e : Pass) : Bool := e.1.seen.notRunning

/-- A restart because of the status. -/
def Pass.statusRestart (e : Pass) : Bool := e.2 == some .status

/-- The passes that start the count of failures anew. -/
def Pass.resets (e : Pass) : Bool := e.running || e.statusRestart

/-- The last restart of either kind. -/
def previousRestart (t : List Pass) : Option Pass := (t.filter fun e => e.2.isSome).getLast?

/-! ### One pass -/

variable {p}

/-- Everything that one pass can do. -/
theorem watchdogStep_cases (s : Watchdog) (it : Iteration) :
    (it.seen = .inactive true ∧ watchdogStep p s it = ({ s with lastRestart := it.now }, some .failedUnit)) ∨
    (it.seen.running = true ∧ watchdogStep p s it = ({ s with failures := 0, restarts := 0 }, none)) ∨
    (it.seen.running = false ∧ it.seen.notRunning = false ∧ watchdogStep p s it = (s, none)) ∨
    (it.seen.notRunning = true ∧ watchdogStep p s it = ({ s with failures := s.failures + 1 }, none)) ∨
    (it.seen.notRunning = true ∧ p.failureThreshold ≤ s.failures + 1 ∧ s.lastRestart + p.cooldown ≤ it.now ∧
      s.restarts < p.maxRestarts ∧ watchdogStep p s it = (⟨0, s.restarts + 1, it.now⟩, some .status)) := by
  obtain ⟨seen, now, restartAt⟩ := it
  cases seen with
  | inactive failed =>
    cases failed with
    | true => exact .inl ⟨rfl, rfl⟩
    | false => exact .inr (.inr (.inl ⟨rfl, rfl, rfl⟩))
  | regionUnreachable => exact .inr (.inr (.inl ⟨rfl, rfl, rfl⟩))
  | reported status info =>
    right
    by_cases hrun : status = str "running"
    · refine .inl ⟨by simp [Observation.running, hrun], by simp [watchdogStep, hrun]⟩
    · have hnot : (Observation.reported status info).notRunning = true := by simp [Observation.notRunning, hrun]
      right; right
      -- the threshold, the cooldown and the number of restarts
      simp only [watchdogStep, if_neg hrun]
      split
      · exact .inl ⟨hnot, rfl⟩
      · split
        · exact .inl ⟨hnot, rfl⟩
        · split
          · exact .inl ⟨hnot, rfl⟩
          · exact .inr ⟨hnot, by omega, by omega, by omega, rfl⟩

theorem previousRestart_concat (t : List Pass) (e : Pass) :
    previousRestart (t ++ [e]) = if e.2.isSome then some e else previousRestart t := by
  unfold previousRestart
  cases h : e.2.isSome <;> simp [h]

theorem not_running_of_notRunning {o : Observation} (h : o.notRunning = true) : o.running = false := by
  cases o with
  | reported status info => simpa [Observation.notRunning, Observation.running] using h
  | _ => rfl

/-! ### What the counters count -/

variable (p)

/-- The counters after some passes. -/
structure Counts (s : Watchdog) (t : List Pass) : Prop where
  failures : s.failures = (since Pass.resets t).countP Pass.notRunning
  restarts : s.restarts = (since Pass.running t).countP Pass.statusRestart
  lastRestart : s.lastRestart = (previousRestart t).elim 0 (·.1.now)
  le_max : s.restarts ≤ p.maxRestarts

variable {p}

/-- A pass that neither finds the service running nor restarts it because of its status. -/
theorem Counts.concat {s s' : Watchdog} {t : List Pass} (h : Counts p s t) {it : Iteration} {r : Option Restart}
    (hrun : it.seen.running = false) (hr : r ≠ some .status)
    (hfailures : s'.failures = s.failures + if it.seen.notRunning then 1 else 0)
    (hrestarts : s'.restarts = s.restarts) (hlast : s'.lastRestart = if r.isSome then it.now else s.lastRestart) :
    Counts p s' (t ++ [(it, r)]) := by
  have hstatus : Pass.statusRestart (it, r) = false := by simpa [Pass.statusRestart] using hr
  constructor
  · have hreset : Pass.resets (it, r) = false := by simp [Pass.resets, Pass.running, hrun, hstatus]
    rw [hfailures, h.failures, since_concat, hreset, if_neg Bool.false_ne_true, List.countP_append,
      List.countP_singleton]
    rfl
  · rw [hrestarts, h.restarts]
    simp [since_concat, Pass.running, hrun, hstatus]
  · rw [hlast, h.lastRestart, previousRestart_concat]
    cases r <;> rfl
  · rw [hrestarts]
    exact h.le_max

theorem Counts.step {s : Watchdog} {t : List Pass} (h : Counts p s t) (it : Iteration) :
    Counts p (watchdogStep p s it).1 (t ++ [(it, (watchdogStep p s it).2)]) := by
  rcases watchdogStep_cases (p := p) s it with ⟨hseen, heq⟩ | ⟨hrun, heq⟩ | ⟨hrun, hnot, heq⟩ | ⟨hnot, heq⟩ |
    ⟨hnot, -, -, hlt, heq⟩
  · -- the unit was given up
    have hrun : it.seen.running = false := by rw [hseen]; rfl
    have hnot : it.seen.notRunning = false := by rw [hseen]; rfl
    rw [heq]
    exact h.concat hrun (by simp) (by simp [hnot]) rfl (by simp)
  · rw [heq]
    constructor
    · simp [since_concat, Pass.resets, Pass.running, hrun]
    · simp [since_concat, Pass.running, hrun]
    · simp [previousRestart_concat, h.lastRestart]
    · exact Nat.zero_le _
  · rw [heq]
    exact h.concat hrun (by simp) (by simp [hnot]) rfl (by simp)
  · rw [heq]
    exact h.concat (not_running_of_notRunning hnot) (by simp) (by simp [hnot]) rfl (by simp)
  · have hrun := not_running_of_notRunning hnot
    rw [heq]
    constructor
    · simp [since_concat, Pass.resets, Pass.running, Pass.statusRestart, hrun]
    · simp [since_concat, Pass.running, Pass.statusRestart, hrun, h.restarts]
    · simp [previousRestart_concat]
    · exact hlt

theorem counts_run (its : List Iteration) :
    Counts p (stateAfter (watchdogStep p) {} its) (trace (watchdogStep p) {} its) := by
  refine trace_invariant (fun s t it h => h.step it) ?_ its
  exact ⟨rfl, rfl, rfl, Nat.zero_le _⟩

/-! ### No flapping -/

/-- What a restart because of the status needs, in terms of the counters. -/
theorem watchdogStep_status {s : Watchdog} {it : Iteration} (h : (watchdogStep p s it).2 = some .status) :
    it.seen.notRunning = true ∧ p.failureThreshold ≤ s.failures + 1 ∧ s.lastRestart + p.cooldown ≤ it.now := by
  rcases watchdogStep_cases (p := p) s it with
    ⟨-, heq⟩ | ⟨-, heq⟩ | ⟨-, -, heq⟩ | ⟨-, heq⟩ | ⟨hnot, hthr, hcool, -, -⟩
  · simp [heq] at h
  · simp [heq] at h
  · simp [heq] at h
  · simp [heq] at h
  · exact ⟨hnot, hthr, hcool⟩

/-- The time goes on between reading it and a restart because of the status. -/
theorem now_le_restartAt {its its' : List Iteration} {it : Iteration}
    (hclock : ((its ++ it :: its').flatMap Iteration.times).Pairwise (· ≤ ·)) (hnot : it.seen.notRunning = true) :
    it.now ≤ it.restartAt := by
  have hseen : it.seen ≠ .inactive true := by
    intro h
    rw [h] at hnot
    cases hnot
  have hsub : it.times.Sublist ((its ++ it :: its').flatMap Iteration.times) := by
    rw [List.flatMap_append, List.flatMap_cons]
    exact (List.sublist_append_left _ _).trans (List.sublist_append_right _ _)
  have hpair := hclock.sublist hsub
  rw [Iteration.times, if_neg hseen] at hpair
  simpa using hpair

/-- In every run of the loop, under every clock that does not go back: a restart because of the status comes at
least the cooldown after the time recorded by the last restart; since the last such restart or running status there
were as many other statuses as the threshold, and no running one; and as long as rackd does not run there are no
more such restarts than allowed. -/
theorem watchdog_never_flaps (p : WatchdogParams) (its : List Iteration)
    (hclock : (its.flatMap Iteration.times).Pairwise (· ≤ ·)) :
    let t := trace (watchdogStep p) {} its
    (∀ pre e post, t = pre ++ e :: post → Pass.statusRestart e = true →
      (∀ d, previousRestart pre = some d → d.1.now + p.cooldown ≤ e.1.restartAt) ∧
      p.failureThreshold ≤ (since Pass.resets pre ++ [e]).countP Pass.notRunning ∧
      ∀ d ∈ since Pass.resets pre ++ [e], Pass.running d = false) ∧
    ∀ pre seg post, t = pre ++ seg ++ post → (∀ e ∈ seg, Pass.running e = false) →
      seg.countP Pass.statusRestart ≤ p.maxRestarts := by
  intro t
  constructor
  · intro pre e post ht hrestart
    obtain ⟨its₁, its₂, rfl, rfl, hrest⟩ := trace_eq_append ht
    cases its₂ with
    | nil => cases hrest
    | cons it its₂ =>
      rw [trace] at hrest
      obtain ⟨rfl, -⟩ := List.cons.inj hrest
      have hcounts := counts_run (p := p) its₁
      obtain ⟨hnot, hthr, hcool⟩ := watchdogStep_status (beq_iff_eq.mp hrestart)
      refine ⟨?_, ?_, ?_⟩
      · -- the cooldown is over when the time is read, and the restart comes later
        intro d hd
        have hlast := hcounts.lastRestart
        rw [hd, Option.elim_some] at hlast
        have := now_le_restartAt hclock hnot
        change d.1.now + p.cooldown ≤ it.restartAt
        omega
      · rw [List.countP_append, ← hcounts.failures, List.countP_singleton]
        simpa [Pass.notRunning, hnot] using hthr
      · intro d hd
        rcases List.mem_append.mp hd with hd | hd
        · have := not_of_mem_since hd
          simp only [Pass.resets, Bool.or_eq_false_iff] at this
          exact this.1
        · rw [List.mem_singleton.mp hd]
          exact not_running_of_notRunning hnot
  · intro pre seg post ht hseg
    obtain ⟨its₁, -, -, htrace, -⟩ := trace_eq_append ht
    -- the segment lies behind the last running status, where the counter counts restarts
    have hcounts := counts_run (p := p) its₁
    have hle := hcounts.le_max
    rw [hcounts.restarts, htrace, since_append hseg, List.countP_append] at hle
    omega

/-- Two checks with a threshold of two: the first restart comes with the second check. -/
theorem watchdog_never_flaps_sample :
    let its : List Iteration := [⟨.reported (str "degraded") [], 700, 700⟩, ⟨.reported (str "dead") [], 760, 761⟩]
    let t := trace (watchdogStep ⟨2, 600, 3⟩) {} its
    t.map (·.2) = [none, some .status] ∧
      (∀ pre seg post, t = pre ++ seg ++ post → (∀ e ∈ seg, Pass.running e = false) →
      seg.countP Pass.statusRestart ≤ 3) :=
  ⟨by decide, (watchdog_never_flaps ⟨2, 600, 3⟩
    [⟨.reported (str "degraded") [], 700, 700⟩, ⟨.reported (str "dead") [], 760, 761⟩] (by decide)).2⟩

end MaasBoot
