import MaasBoot.Watchdog

/-!
# The watchdog responds

The limits on the restarts do not keep the watchdog from restarting rackd.  As long as rackd is not reported to run,
every stretch of passes that has as many other reports as the threshold, and lasts as long as the cooldown, has a
restart, until there have been as many of them as allowed (`watchdog_responds`).
-/

namespace MaasBoot

variable (p : WatchdogParams)

/-- A stretch of passes that is long enough for a restart. -/
structure LongOutage (seg : List Pass) (d e : Pass) : Prop where
  head : seg.head? = some d
  last : seg.getLast? = some e
  notRunning : Pass.notRunning e = true
  threshold : p.failureThreshold ≤ seg.countP Pass.notRunning
  cooldown : d.1.now + p.cooldown ≤ e.1.now

variable {p}

/-- Without a running status and a restart the count of failures goes on. -/
theorem since_resets_append {t seg : List Pass} (hrun : ∀ e ∈ seg, Pass.running e = false)
    (hnone : ∀ e ∈ seg, e.2 = none) :
    since Pass.resets (t ++ seg) = since Pass.resets t ++ seg := by
  refine since_append fun e he => ?_
  simp [Pass.resets, Pass.statusRestart, hrun e he, hnone e he]

theorem previousRestart_append {t seg : List Pass} (hnone : ∀ e ∈ seg, e.2 = none) :
    previousRestart (t ++ seg) = previousRestart t := by
  have hfilter : seg.filter (fun e => e.2.isSome) = [] := by
    refine List.filter_eq_nil_iff.mpr fun e he => ?_
    simp [hnone e he]
  unfold previousRestart
  rw [List.filter_append, hfilter, List.append_nil]

/-- The converse of `watchdogStep_status`. -/
theorem watchdogStep_of_counters {s : Watchdog} {it : Iteration} (hnot : it.seen.notRunning = true)
    (hthr : p.failureThreshold ≤ s.failures + 1) (hcool : s.lastRestart + p.cooldown ≤ it.now)
    (hmax : s.restarts < p.maxRestarts) : (watchdogStep p s it).2 = some .status := by
  obtain ⟨seen, now, restartAt⟩ := it
  cases seen with
  | inactive failed => cases hnot
  | regionUnreachable => cases hnot
  | reported status info =>
    have hrun : status ≠ str "running" := by simpa [Observation.notRunning] using hnot
    simp only [watchdogStep, if_neg hrun]
    rw [if_neg (by omega), if_neg (by simp only at hcool; omega), if_neg (by omega)]

/-- The clock at two passes of a run. -/
theorem now_le_now {its : List Iteration} (hclock : (its.flatMap Iteration.times).Pairwise (· ≤ ·))
    {pre post : List Pass} {d e : Pass} (ht : trace (watchdogStep p) {} its = pre ++ post) (hd : d ∈ pre)
    (he : e ∈ post) : d.1.now ≤ e.1.now := by
  have hits : its = pre.map Prod.fst ++ post.map Prod.fst := by
    rw [← List.map_append, ← ht, map_fst_trace]
  have hnow : ∀ it : Iteration, it.now ∈ it.times := by
    intro it
    unfold Iteration.times
    split <;> simp
  rw [hits, List.flatMap_append, List.pairwise_append] at hclock
  exact hclock.2.2 _ (List.mem_flatMap.mpr ⟨d.1, List.mem_map_of_mem hd, hnow d.1⟩) _
    (List.mem_flatMap.mpr ⟨e.1, List.mem_map_of_mem he, hnow e.1⟩)

theorem restart_mem_of_previousRestart {t : List Pass} {d : Pass} (h : previousRestart t = some d) : d ∈ t :=
  (List.mem_filter.mp (List.mem_of_getLast? h)).1

section

variable {its : List Iteration} (hclock : (its.flatMap Iteration.times).Pairwise (· ≤ ·))
    (hpos : ∀ it ∈ its, 0 ≤ it.now)
include hclock hpos

/-- The last restart recorded is not later than the passes that follow. -/
theorem previousRestart_le {pre post : List Pass} {d : Pass} (ht : trace (watchdogStep p) {} its = pre ++ post)
    (hd : d ∈ post) : (previousRestart pre).elim 0 (·.1.now) ≤ d.1.now := by
  cases hprev : previousRestart pre with
  | none =>
    have hmem : d.1 ∈ its := by
      have hfst : (trace (watchdogStep p) {} its).map Prod.fst = its := map_fst_trace _ its
      rw [← hfst, ht]
      exact List.mem_map_of_mem (List.mem_append_right _ hd)
    exact hpos d.1 hmem
  | some r => exact now_le_now hclock ht (restart_mem_of_previousRestart hprev) hd

/-- One stretch has a restart, unless there have been as many as allowed. -/
theorem restart_of_longOutage {pre seg post : List Pass} {d e : Pass}
    (ht : trace (watchdogStep p) {} its = pre ++ (seg ++ post)) (hseg : LongOutage p seg d e)
    (hrun : ∀ e ∈ seg, Pass.running e = false)
    (hmax : (since Pass.running pre).countP Pass.statusRestart < p.maxRestarts) :
    ∃ e ∈ seg, e.2.isSome := by
  by_contra hno
  push Not at hno
  have hnone : ∀ e ∈ seg, e.2 = none := fun e he => by simpa using hno e he
  obtain ⟨seg', rfl⟩ := List.getLast?_eq_some_iff.mp hseg.last
  have hrun' : ∀ x ∈ seg', Pass.running x = false := fun x hx => hrun x (by simp [hx])
  have hnone' : ∀ x ∈ seg', x.2 = none := fun x hx => hnone x (by simp [hx])
  -- the state before the last pass of the stretch
  have hsplit : trace (watchdogStep p) {} its = (pre ++ seg') ++ (e :: post) := by rw [ht]; simp
  obtain ⟨its₁, its₂, rfl, htrace, hrest⟩ := trace_eq_append hsplit
  cases its₂ with
  | nil => cases hrest
  | cons it its₂ =>
    rw [trace] at hrest
    obtain ⟨rfl, -⟩ := List.cons.inj hrest
    have hcounts := counts_run (p := p) its₁
    rw [htrace] at hcounts
    have hlast : (watchdogStep p (stateAfter (watchdogStep p) {} its₁) it).2 = some .status := by
      have hnot : it.seen.notRunning = true := hseg.notRunning
      refine watchdogStep_of_counters hnot ?_ ?_ ?_
      · have hthr := hseg.threshold
        have hcount := hcounts.failures
        rw [since_resets_append hrun' hnone', List.countP_append] at hcount
        rw [List.countP_append, List.countP_singleton] at hthr
        split at hthr <;> omega
      · have hfirst := hseg.cooldown
        have hlastRestart := hcounts.lastRestart
        rw [previousRestart_append hnone'] at hlastRestart
        have hle := previousRestart_le hclock hpos ht (List.mem_append_left post (List.mem_of_head? hseg.head))
        simp only at hfirst
        omega
      · have hrestarts := hcounts.restarts
        have hzero : seg'.countP Pass.statusRestart = 0 := by
          refine List.countP_eq_zero.mpr fun x hx => ?_
          simp [Pass.statusRestart, hnone' x hx]
        rw [since_append hrun', List.countP_append, hzero] at hrestarts
        omega
    have := hnone _ (List.mem_append_right _ (List.mem_singleton_self _))
    rw [hlast] at this
    cases this

end

theorem statusRestart_le (seg : List Pass) : seg.countP Pass.statusRestart ≤ seg.countP fun e => e.2.isSome := by
  refine List.countP_mono_left fun e _ he => ?_
  rw [beq_iff_eq.mp he]
  rfl

/-- In every run of the loop, under every clock that does not go back: as long as rackd is not reported to run,
stretches of passes that are each long enough have together at least as many restarts as there are stretches, or as
many as were left since rackd last ran. -/
theorem watchdog_responds (p : WatchdogParams) (its : List Iteration)
    (hclock : (its.flatMap Iteration.times).Pairwise (· ≤ ·)) (hpos : ∀ it ∈ its, 0 ≤ it.now)
    (pre : List Pass) (segs : List (List Pass)) (post : List Pass)
    (ht : trace (watchdogStep p) {} its = pre ++ (segs.flatten ++ post))
    (hsegs : ∀ seg ∈ segs, ∃ d e, LongOutage p seg d e) (hrun : ∀ e ∈ segs.flatten, Pass.running e = false) :
    min segs.length (p.maxRestarts - (since Pass.running pre).countP Pass.statusRestart) ≤
      segs.flatten.countP fun e => e.2.isSome := by
  induction segs generalizing pre with
  | nil => simp
  | cons seg segs ih =>
    have hrun₁ : ∀ e ∈ seg, Pass.running e = false := fun e he => hrun e (by simp [he])
    have hrun₂ : ∀ e ∈ segs.flatten, Pass.running e = false := by
      intro e he
      rw [List.flatten_cons] at hrun
      exact hrun e (List.mem_append_right _ he)
    rw [List.flatten_cons, List.append_assoc] at ht
    by_cases hmax : (since Pass.running pre).countP Pass.statusRestart < p.maxRestarts
    · obtain ⟨d, e, hseg⟩ := hsegs seg List.mem_cons_self
      have hfirst : 0 < seg.countP fun e => e.2.isSome := by
        rw [List.countP_pos_iff]
        exact restart_of_longOutage hclock hpos ht hseg hrun₁ hmax
      -- the restarts of this stretch because of the status are those that the next ones may not make any more
      have hrest := ih (pre ++ seg) (by rw [ht, List.append_assoc])
        (fun s hs => hsegs s (List.mem_cons_of_mem _ hs)) hrun₂
      rw [since_append hrun₁, List.countP_append] at hrest
      have hstatus := statusRestart_le seg
      rw [List.flatten_cons, List.countP_append, List.length_cons]
      omega
    · rw [Nat.sub_eq_zero_of_le (by omega), Nat.min_zero]
      exact Nat.zero_le _

/-- The reports of an outage, and the restarts that follow from them. -/
def twoOutages : List (List Pass) :=
  [[(⟨.reported (str "degraded") [], 700, 700⟩, none), (⟨.reported (str "dead") [], 1300, 1301⟩, some .status)],
    [(⟨.reported (str "degraded") [], 1400, 1400⟩, none), (⟨.reported (str "dead") [], 2000, 2001⟩, some .status)]]

theorem watchdog_responds_twoOutages :
    trace (watchdogStep ⟨2, 600, 3⟩) {} (twoOutages.flatten.map Prod.fst) = twoOutages.flatten ∧
      2 ≤ twoOutages.flatten.countP fun e => e.2.isSome := by
  have ht : trace (watchdogStep ⟨2, 600, 3⟩) {} (twoOutages.flatten.map Prod.fst) = twoOutages.flatten := by decide
  refine ⟨ht, watchdog_responds ⟨2, 600, 3⟩ (twoOutages.flatten.map Prod.fst) (by decide) (by decide) [] twoOutages []
    (by rw [ht]; simp) ?_ (by decide)⟩
  intro seg hseg
  rcases List.mem_pair.mp hseg with rfl | rfl
  · exact ⟨_, _, rfl, rfl, by decide, by decide, by decide⟩
  · exact ⟨_, _, rfl, rfl, by decide, by decide, by decide⟩

end MaasBoot
