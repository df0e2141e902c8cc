import Mathlib.Data.List.Dedup
import Mathlib.Data.List.Sort
import MaasBoot.RackCleanup

/-!
# DHCP roles of rack controllers

The second half of the script that cleans up rack controllers: it chooses a primary and a secondary rack for the
VLAN of the PXE subnet and tells MAAS what has to change.  A rack is active if its `rackd` runs or its host has an
active pod.  Racks that hold a role keep it as long as they run; the places left are filled from the active racks,
in the order of `sort`.

The ids of rack controllers are letters and digits, so they stand for themselves in the patterns of `grep`, and the
texts of the script are lists of ids.  Nothing else about ids matters: they are an arbitrary type, with the
comparison that `sort` makes.
-/

namespace MaasBoot

section Dhcp

variable {α : Type} [DecidableEq α]

/-! ### Filling a role -/

/-- A rack that holds a role keeps it if it runs. -/
def keepRunning (running : List α) (current : Option α) : Option α := current.filter (· ∈ running)

/-- The first rack that does not have the other role, if there are at least `k`. -/
def fillRole (racks : List α) (k : Nat) (kept other : Option α) : Option α :=
  if kept = none ∧ k ≤ racks.length then racks.find? fun r => some r ≠ other else kept

theorem keepRunning_eq_some_iff {running : List α} {current : Option α} {r : α} :
    keepRunning running current = some r ↔ current = some r ∧ r ∈ running := by
  rw [keepRunning, Option.filter_eq_some_iff]
  simp

/-- A role that is filled goes to a rack of the list without the other role. -/
theorem fillRole_eq_some {racks : List α} {k : Nat} {kept other : Option α} {r : α}
    (h : fillRole racks k kept other = some r) : kept = some r ∨ (kept = none ∧ r ∈ racks ∧ some r ≠ other) := by
  unfold fillRole at h
  split at h
  · rename_i hc
    have hsome := List.find?_some h
    exact .inr ⟨hc.1, List.mem_of_find?_eq_some h, by simpa using hsome⟩
  · exact .inl h

/-- A rack of the list without the other role can fill the role. -/
theorem fillRole_ne_none {racks : List α} {k : Nat} {kept other : Option α} (hk : k ≤ racks.length) {r : α}
    (hr : r ∈ racks) (hother : some r ≠ other) : fillRole racks k kept other ≠ none := by
  unfold fillRole
  by_cases hkept : kept = none
  · rw [if_pos ⟨hkept, hk⟩, ne_eq, List.find?_eq_none]
    intro hnone
    exact hnone r hr (by simpa using hother)
  · rw [if_neg fun h => hkept h.1]
    exact hkept

/-! ### The script -/

variable [LE α] [DecidableLE α]

/-- The state of the VLAN that the script reads; no rack is the empty text. -/
structure Vlan (α : Type) where
  primary : Option α
  secondary : Option α
  dhcpOn : Bool
  deriving DecidableEq

/-- The arguments of `maas admin vlan update`. -/
structure VlanUpdate (α : Type) where
  primary : Option α := none
  secondary : Option α := none
  dhcpOn : Bool := false
  deriving DecidableEq

/-- MAAS applies an update as given. -/
def Vlan.apply (v : Vlan α) (up : VlanUpdate α) : Vlan α where
  primary := up.primary.or v.primary
  secondary := up.secondary.or v.secondary
  dhcpOn := up.dhcpOn || v.dhcpOn

/-- `ACTIVE_RACKS`: both lists with `sort -u`. -/
def activeRacks (running pods : List α) : List α := ((running ++ pods).insertionSort (· ≤ ·)).dedup

/-- `TARGET_PRIMARY` -/
def targetPrimary (running pods : List α) (v : Vlan α) : Option α :=
  fillRole (activeRacks running pods) 1 (keepRunning running v.primary) (keepRunning running v.secondary)

/-- `TARGET_SECONDARY` -/
def targetSecondary (running pods : List α) (v : Vlan α) : Option α :=
  fillRole (activeRacks running pods) 2 (keepRunning running v.secondary) (targetPrimary running pods v)

/-- The updates that the script makes. -/
def vlanUpdates (running pods : List α) (v : Vlan α) : List (VlanUpdate α) :=
  let needDhcp := !v.dhcpOn
  match targetPrimary running pods v, targetSecondary running pods v with
  | none, _ => []
  | some p, none =>
    -- only one rack: the secondary is left alone
    let needPrimary := decide (v.primary ≠ some p)
    if needDhcp && needPrimary then [{ primary := some p, dhcpOn := true }]
    else (if needPrimary then [{ primary := some p }] else []) ++ (if needDhcp then [{ dhcpOn := true }] else [])
  | some p, some s =>
    let needRacks := decide (v.primary ≠ some p) || decide (v.secondary ≠ some s)
    if needDhcp && needRacks then [{ primary := some p, secondary := some s, dhcpOn := true }]
    else (if needRacks then [{ primary := some p, secondary := some s }] else []) ++
      (if needDhcp then [{ dhcpOn := true }] else [])

/-- The VLAN after the script. -/
def dhcpSection (running pods : List α) (v : Vlan α) : Vlan α := (vlanUpdates running pods v).foldl Vlan.apply v

/-- `rackd` runs, or there is an active pod. -/
def Active (running pods : List α) (r : α) : Prop := r ∈ running ∨ r ∈ pods

/-! ### Targets -/

theorem mem_activeRacks {running pods : List α} {r : α} : r ∈ activeRacks running pods ↔ Active running pods r := by
  rw [activeRacks, List.mem_dedup, List.mem_insertionSort, List.mem_append, Active]

/-- What the updates come to. -/
theorem dhcpSection_eq (running pods : List α) (v : Vlan α) : dhcpSection running pods v =
    match targetPrimary running pods v, targetSecondary running pods v with
    | none, _ => v
    | some p, none => { primary := some p, secondary := v.secondary, dhcpOn := true }
    | some p, some s => { primary := some p, secondary := some s, dhcpOn := true } := by
  obtain ⟨vp, vs, vd⟩ := v
  unfold dhcpSection vlanUpdates
  generalize targetPrimary running pods _ = tp
  generalize targetSecondary running pods _ = ts
  cases tp with
  | none => rfl
  | some p =>
    cases ts with
    | none =>
      by_cases hp : vp = some p
      · cases vd <;> simp [hp, Vlan.apply]
      · cases vd <;> simp [hp, Vlan.apply]
    | some s =>
      by_cases hp : vp = some p
      · by_cases hs : vs = some s
        · cases vd <;> simp [hp, hs, Vlan.apply]
        · cases vd <;> simp [hp, hs, Vlan.apply]
      · cases vd <;> simp [hp, Vlan.apply]

/-! ### Live roles -/

theorem active_of_fillRole {running pods : List α} {k : Nat} {current other : Option α} {r : α}
    (h : fillRole (activeRacks running pods) k (keepRunning running current) other = some r) :
    Active running pods r := by
  rcases fillRole_eq_some h with hkept | ⟨-, hr, -⟩
  · exact .inl (keepRunning_eq_some_iff.mp hkept).2
  · exact mem_activeRacks.mp hr

theorem two_le_length_activeRacks {running pods : List α} {x y : α} (hx : Active running pods x)
    (hy : Active running pods y) (hne : x ≠ y) : 2 ≤ (activeRacks running pods).length := by
  rw [← mem_activeRacks] at hx hy
  match hracks : activeRacks running pods with
  | [] => simp [hracks] at hx
  | [r] =>
    rw [hracks, List.mem_singleton] at hx hy
    exact absurd (hx.trans hy.symm) hne
  | _ :: _ :: _ => simp

/-- The targets are different racks if the roles were held by different racks. -/
theorem targetSecondary_ne {running pods : List α} {v : Vlan α}
    (hdiff : ∀ r, v.primary = some r → v.secondary ≠ some r) {p : α} (hp : targetPrimary running pods v = some p) :
    targetSecondary running pods v ≠ some p := by
  intro hs
  rcases fillRole_eq_some hs with hkept | ⟨-, -, hne⟩
  · rcases fillRole_eq_some hp with hkept' | ⟨-, -, hne⟩
    · exact hdiff p (keepRunning_eq_some_iff.mp hkept').1 (keepRunning_eq_some_iff.mp hkept).1
    · exact hne hkept.symm
  · exact hne hp.symm

/-- There is a target for the primary as soon as an active rack is not kept as the secondary. -/
theorem exists_targetPrimary {running pods : List α} {v : Vlan α} {r : α} (hr : Active running pods r)
    (hsec : keepRunning running v.secondary ≠ some r) : ∃ p, targetPrimary running pods v = some p := by
  have hmem := mem_activeRacks.mpr hr
  exact Option.ne_none_iff_exists'.mp (fillRole_ne_none (List.length_pos_of_mem hmem) hmem hsec.symm)

/-- Two active racks leave a target for the secondary. -/
theorem exists_targetSecondary {running pods : List α} (v : Vlan α) {x y : α} (hx : Active running pods x)
    (hy : Active running pods y) (hne : x ≠ y) : ∃ s, targetSecondary running pods v = some s := by
  have hlen := two_le_length_activeRacks hx hy hne
  by_cases hp : targetPrimary running pods v = some x
  · refine Option.ne_none_iff_exists'.mp (fillRole_ne_none hlen (mem_activeRacks.mpr hy) ?_)
    rw [hp]
    exact fun h => hne (Option.some.inj h).symm
  · exact Option.ne_none_iff_exists'.mp (fillRole_ne_none hlen (mem_activeRacks.mpr hx) (Ne.symm hp))

/-- With two active racks both roles are held by different active racks. -/
theorem dhcpSection_of_two {running pods : List α} {v : Vlan α}
    (hdiff : ∀ r, v.primary = some r → v.secondary ≠ some r) {x y : α} (hx : Active running pods x)
    (hy : Active running pods y) (hne : x ≠ y) :
    ∃ p s, dhcpSection running pods v = ⟨some p, some s, true⟩ ∧ Active running pods p ∧ Active running pods s ∧
      p ≠ s := by
  have hex : ∃ p, targetPrimary running pods v = some p := by
    by_cases hsec : keepRunning running v.secondary = some x
    · refine exists_targetPrimary hy ?_
      rw [hsec]
      exact fun h => hne (Option.some.inj h)
    · exact exists_targetPrimary hx hsec
  obtain ⟨p, hp⟩ := hex
  obtain ⟨s, hs⟩ := exists_targetSecondary v hx hy hne
  refine ⟨p, s, ?_, active_of_fillRole hp, active_of_fillRole hs, ?_⟩
  · rw [dhcpSection_eq, hp, hs]
  · rintro rfl
    exact targetSecondary_ne hdiff hp hs

/-- A rack that is the only active one becomes the primary, unless it is the secondary. -/
theorem dhcpSection_of_one {running pods : List α} {v : Vlan α} {r : α} (hr : ∀ x, Active running pods x ↔ x = r)
    (hsec : v.secondary ≠ some r) : dhcpSection running pods v = ⟨some r, v.secondary, true⟩ := by
  obtain ⟨p, hp⟩ := exists_targetPrimary (v := v) ((hr r).mpr rfl) fun h => hsec (keepRunning_eq_some_iff.mp h).1
  obtain rfl : p = r := (hr p).mp (active_of_fillRole hp)
  have hs : targetSecondary running pods v = none := by
    refine Option.eq_none_iff_forall_ne_some.mpr fun s hs => ?_
    obtain rfl : s = p := (hr s).mp (active_of_fillRole hs)
    rcases fillRole_eq_some hs with hkept | ⟨-, -, hne⟩
    · exact hsec (keepRunning_eq_some_iff.mp hkept).1
    · exact hne hp.symm
  rw [dhcpSection_eq, hp, hs]

/-- If the only active rack is the secondary, it stays the secondary. -/
theorem dhcpSection_secondary {running pods : List α} {v : Vlan α} {r : α} (hr : ∀ x, Active running pods x ↔ x = r)
    (hsec : v.secondary = some r) : (dhcpSection running pods v).secondary = some r := by
  rw [dhcpSection_eq]
  split
  · exact hsec
  · exact hsec
  · rename_i s _ hs
    rw [(hr s).mp (active_of_fillRole hs)]

/-- As long as some rack is active, the VLAN gets an active primary other than its secondary, and with two active
racks both roles go to active racks, except when the only active rack is the one that holds the role of the
secondary. -/
theorem dhcpSection_live_iff (running pods : List α) (v : Vlan α)
    (hdiff : ∀ r, v.primary = some r → v.secondary ≠ some r) :
    let v' := dhcpSection running pods v
    (((∃ r, Active running pods r) → ∃ p, v'.primary = some p ∧ Active running pods p ∧ v'.secondary ≠ some p) ∧
      ((∃ x y, Active running pods x ∧ Active running pods y ∧ x ≠ y) → ∃ p s, v'.primary = some p ∧
        v'.secondary = some s ∧ Active running pods p ∧ Active running pods s ∧ p ≠ s)) ↔
    ¬ ∃ r, v.secondary = some r ∧ ∀ x, Active running pods x ↔ x = r := by
  intro v'
  constructor
  · -- the only active rack keeps the role of the secondary
    rintro ⟨hlive, -⟩ ⟨r, hsec, hr⟩
    obtain ⟨p, -, hp, hne⟩ := hlive ⟨r, (hr r).mpr rfl⟩
    rw [(hr p).mp hp] at hne
    exact hne (dhcpSection_secondary hr hsec)
  · intro hcond
    have htwo : ∀ x y, Active running pods x → Active running pods y → x ≠ y → ∃ p s, v'.primary = some p ∧
        v'.secondary = some s ∧ Active running pods p ∧ Active running pods s ∧ p ≠ s := by
      intro x y hx hy hne
      obtain ⟨p, s, heq, hp, hs, hps⟩ := dhcpSection_of_two hdiff hx hy hne
      exact ⟨p, s, congrArg Vlan.primary heq, congrArg Vlan.secondary heq, hp, hs, hps⟩
    refine ⟨?_, fun ⟨x, y, hx, hy, hne⟩ => htwo x y hx hy hne⟩
    rintro ⟨r, hr⟩
    -- one active rack, which is not the secondary, or two
    by_cases hone : ∀ x, Active running pods x → x = r
    · have hiff : ∀ x, Active running pods x ↔ x = r := fun x => ⟨hone x, fun h => h ▸ hr⟩
      have hsec : v.secondary ≠ some r := fun h => hcond ⟨r, h, hiff⟩
      have heq := dhcpSection_of_one hiff hsec
      exact ⟨r, congrArg Vlan.primary heq, hr, (congrArg Vlan.secondary heq).trans_ne hsec⟩
    · push Not at hone
      obtain ⟨x, hx, hne⟩ := hone
      obtain ⟨p, s, hp, hs, hpa, -, hps⟩ := htwo x r hx hr hne
      exact ⟨p, hp, hpa, fun h => hps (Option.some.inj (h.symm.trans hs))⟩

/-- The primary is dead; the secondary runs and another rack comes up. -/
theorem dhcpSection_live_failover :
    let v : Vlan Bytes := ⟨some (str "b3rwta"), some (str "qd8xnm"), true⟩
    let v' := dhcpSection [str "qd8xnm"] [str "qd8xnm", str "w4th8s"] v
    ∃ p, v'.primary = some p ∧ Active [str "qd8xnm"] [str "qd8xnm", str "w4th8s"] p ∧ v'.secondary ≠ some p := by
  refine ((dhcpSection_live_iff [str "qd8xnm"] [str "qd8xnm", str "w4th8s"]
    ⟨some (str "b3rwta"), some (str "qd8xnm"), true⟩ ?_).mpr ?_).1 ⟨str "qd8xnm", .inl (by decide)⟩
  · intro r hr hs
    exact absurd (hr.trans hs.symm) (by decide)
  · rintro ⟨r, -, hr⟩
    have h₁ := (hr (str "qd8xnm")).mp (.inl (by decide))
    have h₂ := (hr (str "w4th8s")).mp (.inr (by decide))
    exact absurd (h₁.trans h₂.symm) (by decide)

/-- The primary is dead and only the secondary runs: the VLAN keeps the dead primary. -/
theorem dhcpSection_dead_primary :
    let v : Vlan Bytes := ⟨some (str "b3rwta"), some (str "qd8xnm"), true⟩
    dhcpSection [str "qd8xnm"] [str "qd8xnm"] v = v ∧ ¬ Active [str "qd8xnm"] [str "qd8xnm"] (str "b3rwta") := by
  refine ⟨by decide, ?_⟩
  rintro (h | h) <;> exact absurd h (by decide)

end Dhcp

end MaasBoot
