import Mathlib.Data.Finset.Card
import MaasBoot.RackDhcp

/-!
# Keeping DHCP roles

What a second pass over the DHCP section finds, and which racks lose their roles.  The section settles after one pass:
the targets that it computes from the VLAN it left are in place.

It keeps the roles of the racks that run, but fills the roles that are left from all active racks, in the order of
their ids.  So an active rack whose `rackd` does not run yet keeps its role only if there are few enough active
racks with smaller ids.
-/

namespace MaasBoot

/-- The rack has a role on the VLAN. -/
def Vlan.Holds {α : Type} (v : Vlan α) (r : α) : Prop := v.primary = some r ∨ v.secondary = some r

section Settles

variable {α : Type} [DecidableEq α]

theorem fillRole_some (racks : List α) (k : Nat) (r : α) (other : Option α) :
    fillRole racks k (some r) other = some r := by
  simp [fillRole]

theorem fillRole_none {racks : List α} {k : Nat} (hk : k ≤ racks.length) (other : Option α) :
    fillRole racks k none other = racks.find? fun r => some r ≠ other := by
  simp [fillRole, hk]

/-- The first rack of all stays the first one when another rack is left out. -/
private theorem find?_ne_of_find? {racks : List α} {p : α} {other : Option α}
    (h : racks.find? (fun r => some r ≠ none) = some p) (hne : other ≠ some p) :
    racks.find? (fun r => some r ≠ other) = some p := by
  cases racks with
  | nil => cases h
  | cons r racks =>
    obtain rfl : r = p := by simpa using h
    simp [hne.symm]

theorem keepRunning_some {running : List α} {r : α} (h : r ∈ running) : keepRunning running (some r) = some r :=
  keepRunning_eq_some_iff.mpr ⟨rfl, h⟩

theorem keepRunning_eq_none {running : List α} {current : Option α} (h : ∀ r, current = some r → r ∉ running) :
    keepRunning running current = none := by
  refine Option.eq_none_iff_forall_ne_some.mpr fun r hr => ?_
  obtain ⟨hcur, hrun⟩ := keepRunning_eq_some_iff.mp hr
  exact h r hcur hrun

variable [LE α] [DecidableLE α] {running pods : List α} {v : Vlan α}

theorem dhcpSection_of_targetPrimary {p : α} (hp : targetPrimary running pods v = some p) :
    dhcpSection running pods v = ⟨some p, (targetSecondary running pods v).or v.secondary, true⟩ := by
  rw [dhcpSection_eq, hp]
  cases targetSecondary running pods v <;> rfl

theorem dhcpSection_of_none (hp : targetPrimary running pods v = none) : dhcpSection running pods v = v := by
  rw [dhcpSection_eq, hp]

/-- A secondary that runs is the target. -/
theorem targetSecondary_of_keepRunning {s : α} (h : keepRunning running v.secondary = some s) :
    targetSecondary running pods v = some s := by
  rw [targetSecondary, h, fillRole_some]

/-- The secondary that the next pass keeps is the one that this pass keeps, or one that it chose. -/
private theorem keepRunning_secondary {p : α} (hp : targetPrimary running pods v = some p) :
    let kept := keepRunning running ((targetSecondary running pods v).or v.secondary)
    kept = keepRunning running v.secondary ∨
      (keepRunning running v.secondary = none ∧ kept = targetSecondary running pods v ∧ kept ≠ some p) := by
  intro kept
  cases hs : targetSecondary running pods v with
  | none =>
    left
    change keepRunning running ((targetSecondary running pods v).or v.secondary) = _
    rw [hs, Option.none_or]
  | some s =>
    have hkept : kept = keepRunning running (some s) := by
      change keepRunning running ((targetSecondary running pods v).or v.secondary) = _
      rw [hs, Option.some_or]
    rcases fillRole_eq_some hs with hold | ⟨hnone, -, hne⟩
    · left
      rw [hkept, hold, keepRunning_some (keepRunning_eq_some_iff.mp hold).2]
    · by_cases hrun : s ∈ running
      · rw [keepRunning_some hrun] at hkept
        exact .inr ⟨hnone, hkept, fun h => hne (hkept.symm.trans h |>.trans hp.symm)⟩
      · left
        rw [hkept, hnone]
        exact keepRunning_eq_none fun r hr => Option.some_inj.mp hr ▸ hrun

/-- The next pass has the same target for the primary. -/
theorem targetPrimary_dhcpSection (running pods : List α) (v : Vlan α) :
    targetPrimary running pods (dhcpSection running pods v) = targetPrimary running pods v := by
  cases hp : targetPrimary running pods v with
  | none => rw [dhcpSection_of_none hp, hp]
  | some p =>
    rw [dhcpSection_of_targetPrimary hp, targetPrimary]
    by_cases hrun : p ∈ running
    · rw [keepRunning_some hrun, fillRole_some]
    · -- it does not run, so this pass chose it, and the next one has to choose again
      rw [keepRunning_eq_none fun r hr => Option.some_inj.mp hr ▸ hrun]
      rcases fillRole_eq_some hp with hold | ⟨hnone, hmem, -⟩
      · exact absurd (keepRunning_eq_some_iff.mp hold).2 hrun
      have hlen : 1 ≤ (activeRacks running pods).length := List.length_pos_of_mem hmem
      have hkept := keepRunning_secondary hp
      rw [targetPrimary, hnone, fillRole_none hlen] at hp
      rw [fillRole_none hlen]
      rcases hkept with hsame | ⟨hold, -, hne⟩
      · rw [hsame]
        exact hp
      · rw [hold] at hp
        exact find?_ne_of_find? hp hne

/-- The next pass has the same target for the secondary. -/
theorem targetSecondary_dhcpSection (running pods : List α) (v : Vlan α) :
    targetSecondary running pods (dhcpSection running pods v) = targetSecondary running pods v := by
  cases hp : targetPrimary running pods v with
  | none => rw [dhcpSection_of_none hp]
  | some p =>
    rw [targetSecondary, targetPrimary_dhcpSection, dhcpSection_of_targetPrimary hp]
    rcases keepRunning_secondary hp with hsame | ⟨hold, hkept, hne⟩
    · rw [hsame, targetSecondary]
    · rw [hkept]
      cases hs : targetSecondary running pods v with
      | some s => rw [fillRole_some]
      | none =>
        rw [targetSecondary, hold] at hs
        exact hs

/-- A second pass over the DHCP section with the same racks and pods makes no update: the targets that it computes
are in place. -/
theorem vlanUpdates_dhcpSection (running pods : List α) (v : Vlan α) :
    let v' := dhcpSection running pods v
    vlanUpdates running pods v' = [] ∧ (∀ p, targetPrimary running pods v' = some p → v'.primary = some p) ∧
      ∀ s, targetSecondary running pods v' = some s → v'.secondary = some s := by
  intro v'
  have hp' : targetPrimary running pods v' = targetPrimary running pods v := targetPrimary_dhcpSection running pods v
  have hs' : targetSecondary running pods v' = targetSecondary running pods v :=
    targetSecondary_dhcpSection running pods v
  rw [vlanUpdates, hp', hs']
  cases hp : targetPrimary running pods v with
  | none =>
    refine ⟨rfl, fun p h => (nomatch h), fun s hs => ?_⟩
    have hv' : v' = v := dhcpSection_of_none hp
    rcases fillRole_eq_some hs with hold | ⟨hnone, hmem, -⟩
    · rw [hv']
      exact (keepRunning_eq_some_iff.mp hold).1
    · -- a rack that could become the secondary could become the primary
      obtain ⟨p, hp₁⟩ := exists_targetPrimary (v := v) (mem_activeRacks.mp hmem)
        (hnone.trans_ne (Option.some_ne_none s).symm)
      rw [hp] at hp₁
      cases hp₁
  | some p =>
    have hv' : v' = ⟨some p, (targetSecondary running pods v).or v.secondary, true⟩ := dhcpSection_of_targetPrimary hp
    rw [hv']
    cases targetSecondary running pods v with
    | none => simp
    | some s => simp

end Settles

section Roles

variable {α : Type} [LinearOrder α]

/-- What `find?` finds in a sorted list is the least element. -/
private theorem find?_eq_some_iff_of_pairwise {l : List α} (hl : l.Pairwise (· < ·)) {q : α → Bool} {r : α} :
    l.find? q = some r ↔ r ∈ l ∧ q r = true ∧ ∀ x ∈ l, x < r → q x = false := by
  induction l with
  | nil => simp
  | cons a l ih =>
    obtain ⟨ha, hl⟩ := List.pairwise_cons.mp hl
    rw [List.find?_cons]
    cases hq : q a with
    | true =>
      constructor
      · intro h
        obtain rfl : a = r := Option.some_inj.mp h
        refine ⟨by simp, hq, fun x hx hlt => ?_⟩
        rcases List.mem_cons.mp hx with rfl | hx
        · exact absurd hlt (lt_irrefl x)
        · exact absurd hlt (lt_asymm (ha x hx))
      · rintro ⟨hr, -, hleast⟩
        rcases List.mem_cons.mp hr with rfl | hr
        · rfl
        · have := hleast a (by simp) (ha r hr)
          rw [hq] at this
          cases this
    | false =>
      rw [ih hl]
      constructor
      · rintro ⟨hr, hqr, hleast⟩
        refine ⟨List.mem_cons_of_mem a hr, hqr, fun x hx hlt => ?_⟩
        rcases List.mem_cons.mp hx with rfl | hx
        · exact hq
        · exact hleast x hx hlt
      · rintro ⟨hr, hqr, hleast⟩
        rcases List.mem_cons.mp hr with rfl | hr
        · rw [hq] at hqr
          cases hqr
        · exact ⟨hr, hqr, fun x hx => hleast x (List.mem_cons_of_mem a hx)⟩

theorem pairwise_activeRacks (running pods : List α) : (activeRacks running pods).Pairwise (· < ·) := by
  have hle : (activeRacks running pods).Pairwise (· ≤ ·) :=
    (List.pairwise_insertionSort (· ≤ ·) (running ++ pods)).sublist (List.dedup_sublist _)
  exact (hle.and (List.nodup_dedup _)).imp fun h => lt_of_le_of_ne h.1 h.2

/-- The rack that has the other role. -/
def Vlan.other (v : Vlan α) (r : α) : Option α := if v.primary = some r then v.secondary else v.primary

/-- The active racks with smaller ids, without the one that keeps its role. -/
def earlier (running pods : List α) (kept : Option α) (r : α) : Finset α :=
  (running ++ pods).toFinset.filter fun x => x < r ∧ some x ≠ kept

/-- There are fewer active racks with smaller ids than roles to fill. -/
def InTime (running pods : List α) (v : Vlan α) (r : α) : Prop :=
  (∃ s ∈ running, v.other r = some s ∧ (earlier running pods (some s) r).card < 1) ∨
    ((∀ s ∈ running, v.other r ≠ some s) ∧ (earlier running pods none r).card < 2)

variable {running pods : List α} {v : Vlan α} {r : α}

theorem mem_earlier {kept : Option α} {x : α} :
    x ∈ earlier running pods kept r ↔ Active running pods x ∧ x < r ∧ some x ≠ kept := by
  rw [earlier, Finset.mem_filter, List.mem_toFinset, List.mem_append, Active]

/-- Which rack is chosen. -/
theorem find?_activeRacks_iff {kept : Option α} : (activeRacks running pods).find? (fun x => some x ≠ kept) = some r ↔
    Active running pods r ∧ some r ≠ kept ∧ earlier running pods kept r = ∅ := by
  rw [find?_eq_some_iff_of_pairwise (pairwise_activeRacks running pods), mem_activeRacks, decide_eq_true_eq,
    Finset.eq_empty_iff_forall_notMem]
  simp only [mem_activeRacks, mem_earlier, decide_eq_false_iff_not, not_and]

/-- An active rack that does not run has a role afterwards if it is one of the targets. -/
private theorem holds_dhcpSection_iff (hr : Active running pods r) (hrun : r ∉ running) :
    (dhcpSection running pods v).Holds r ↔
      targetPrimary running pods v = some r ∨ targetSecondary running pods v = some r := by
  obtain ⟨p, hp⟩ := exists_targetPrimary (v := v) hr fun h => hrun (keepRunning_eq_some_iff.mp h).2
  rw [Vlan.Holds, dhcpSection_of_targetPrimary hp, hp]
  by_cases hpr : p = r
  · simp [hpr]
  · obtain ⟨s, hs⟩ := exists_targetSecondary v (active_of_fillRole hp) hr hpr
    rw [hs, Option.some_or]

/-- A rack that runs keeps its role. -/
theorem holds_of_running (hrole : v.Holds r) (hrun : r ∈ running) : (dhcpSection running pods v).Holds r := by
  rcases hrole with hprim | hsec
  · have hp : targetPrimary running pods v = some r := by
      rw [targetPrimary, hprim, keepRunning_some hrun, fillRole_some]
    exact .inl (congrArg Vlan.primary (dhcpSection_of_targetPrimary hp))
  · have hs : targetSecondary running pods v = some r :=
      targetSecondary_of_keepRunning (hsec ▸ keepRunning_some hrun)
    right
    cases hp : targetPrimary running pods v with
    | none => rw [dhcpSection_of_none hp, hsec]
    | some p => rw [dhcpSection_of_targetPrimary hp, hs, Option.some_or]

/-- The other role is kept, so there is one to fill. -/
private theorem target_iff_of_other (hrole : v.Holds r) (hr : Active running pods r) (hrun : r ∉ running) {s : α}
    (hs : s ∈ running) (hother : v.other r = some s) :
    (targetPrimary running pods v = some r ∨ targetSecondary running pods v = some r) ↔
      earlier running pods (some s) r = ∅ := by
  have hne : s ≠ r := fun h => hrun (h ▸ hs)
  have hlen := two_le_length_activeRacks (.inl hs) hr hne
  have hfind : (activeRacks running pods).find? (fun x => some x ≠ some s) = some r ↔
      earlier running pods (some s) r = ∅ := by
    rw [find?_activeRacks_iff]
    simp [hr, hne.symm]
  have hrest : keepRunning running (some r) = none := keepRunning_eq_none fun x hx => Option.some_inj.mp hx ▸ hrun
  by_cases hprim : v.primary = some r
  · rw [Vlan.other, if_pos hprim] at hother
    have hsec : targetSecondary running pods v = some s :=
      targetSecondary_of_keepRunning (hother ▸ keepRunning_some hs)
    rw [hsec, targetPrimary, hprim, hother, hrest, keepRunning_some hs, fillRole_none (by omega), hfind]
    simp [hne]
  · rw [Vlan.other, if_neg hprim] at hother
    have hsec : v.secondary = some r := hrole.resolve_left hprim
    have hp : targetPrimary running pods v = some s := by
      rw [targetPrimary, hother, keepRunning_some hs, fillRole_some]
    rw [targetSecondary, hp, hsec, hrest, fillRole_none hlen, hfind]
    simp [hne]

/-- No role is kept, so there are two to fill. -/
private theorem target_iff_of_no_other (hr : Active running pods r) (hp : keepRunning running v.primary = none)
    (hs : keepRunning running v.secondary = none) :
    (targetPrimary running pods v = some r ∨ targetSecondary running pods v = some r) ↔
      (earlier running pods none r).card < 2 := by
  obtain ⟨p, htarget⟩ := exists_targetPrimary (v := v) hr (hs.trans_ne (Option.some_ne_none r).symm)
  have hfirst := htarget
  rw [targetPrimary, hp, hs, fillRole_none (List.length_pos_of_mem (mem_activeRacks.mpr hr)),
    find?_activeRacks_iff] at hfirst
  obtain ⟨hpa, -, hempty⟩ := hfirst
  by_cases hpr : p = r
  · subst hpr
    simp [htarget, hempty]
  · -- the first rack is the primary, so the others before this one are in the way
    have hlt : p < r := by
      refine lt_of_le_of_ne (not_lt.mp fun hlt => ?_) hpr
      have : r ∈ earlier running pods none p := mem_earlier.mpr ⟨hr, hlt, Option.some_ne_none r⟩
      rw [hempty] at this
      exact absurd this (Finset.notMem_empty r)
    have hinsert : earlier running pods none r = insert p (earlier running pods (some p) r) := by
      ext x
      rw [Finset.mem_insert, mem_earlier, mem_earlier]
      by_cases hx : x = p
      · simp [hx, hpa, hlt]
      · simp [hx]
    have hnot : p ∉ earlier running pods (some p) r := fun h => (mem_earlier.mp h).2.2 rfl
    have hcard : (earlier running pods none r).card < 2 ↔ earlier running pods (some p) r = ∅ := by
      rw [hinsert, Finset.card_insert_of_notMem hnot, ← Finset.card_eq_zero]
      omega
    rw [hcard, targetSecondary, htarget, hs, fillRole_none (two_le_length_activeRacks hpa hr hpr),
      find?_activeRacks_iff]
    simp [hr, hpr, Ne.symm hpr]

/-- An active rack with a role keeps one if it runs, or if there are fewer active racks with smaller ids, without
the one that runs and has the other role, than roles to fill. -/
theorem dhcpSection_holds_iff (running pods : List α) (v : Vlan α) (r : α) (hrole : v.Holds r)
    (hr : Active running pods r) :
    (dhcpSection running pods v).Holds r ↔ r ∈ running ∨ InTime running pods v r := by
  by_cases hrun : r ∈ running
  · exact ⟨fun _ => .inl hrun, fun _ => holds_of_running hrole hrun⟩
  rw [holds_dhcpSection_iff hr hrun, or_iff_right hrun, InTime]
  by_cases hother : ∃ s ∈ running, v.other r = some s
  · obtain ⟨s, hs, hos⟩ := hother
    rw [target_iff_of_other hrole hr hrun hs hos, ← Finset.card_eq_zero, ← Nat.lt_one_iff]
    constructor
    · exact fun h => .inl ⟨s, hs, hos, h⟩
    · rintro (⟨s', -, hos', h⟩ | ⟨hno, -⟩)
      · obtain rfl : s = s' := Option.some_inj.mp (hos.symm.trans hos')
        exact h
      · exact absurd hos (hno s hs)
  · have hno : ∀ s ∈ running, v.other r ≠ some s := fun s hs h => hother ⟨s, hs, h⟩
    have hkept : keepRunning running v.primary = none ∧ keepRunning running v.secondary = none := by
      by_cases hprim : v.primary = some r
      · rw [Vlan.other, if_pos hprim] at hno
        exact ⟨keepRunning_eq_none fun x hx => Option.some_inj.mp (hprim.symm.trans hx) ▸ hrun,
          keepRunning_eq_none fun x hx hxrun => hno x hxrun hx⟩
      · rw [Vlan.other, if_neg hprim] at hno
        have hsec := hrole.resolve_left hprim
        exact ⟨keepRunning_eq_none fun x hx hxrun => hno x hxrun hx,
          keepRunning_eq_none fun x hx => Option.some_inj.mp (hsec.symm.trans hx) ▸ hrun⟩
    rw [target_iff_of_no_other hr hkept.1 hkept.2]
    constructor
    · exact fun h => .inr ⟨hno, h⟩
    · rintro (⟨s, hs, hos, -⟩ | ⟨-, h⟩)
      · exact absurd hos (hno s hs)
      · exact h

/-- The primary `7` is still starting and the secondary `4` runs; the only other active rack comes later. -/
theorem dhcpSection_holds_starting : (⟨some 7, some 4, true⟩ : Vlan Nat).Holds 7 ∧ Active [4] [4, 7, 9] 7 ∧
    (dhcpSection [4] [4, 7, 9] ⟨some 7, some 4, true⟩).Holds 7 :=
  ⟨.inl rfl, .inr (by decide),
    (dhcpSection_holds_iff [4] [4, 7, 9] ⟨some 7, some 4, true⟩ 7 (.inl rfl) (.inr (by decide))).mpr
      (.inr (.inl ⟨4, by decide, rfl, by decide⟩))⟩

/-- A primary that is still starting loses its role to a running rack with a smaller id. -/
theorem dhcpSection_starting_primary :
    let v : Vlan Bytes := ⟨some (str "qd8xnm"), some (str "b3rwta"), true⟩
    let running := [str "4nc7ke", str "b3rwta"]
    let pods := [str "4nc7ke", str "b3rwta", str "qd8xnm"]
    v.primary ≠ v.secondary ∧ v.Holds (str "qd8xnm") ∧ Active running pods (str "qd8xnm") ∧
      ¬ (dhcpSection running pods v).Holds (str "qd8xnm") := by
  refine ⟨by decide, .inl rfl, .inr (by decide), ?_⟩
  rintro (h | h)
  · exact absurd h (by decide)
  · exact absurd h (by decide)

end Roles

end MaasBoot
