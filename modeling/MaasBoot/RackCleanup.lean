import Mathlib.Data.List.Infix
import Mathlib.Data.List.Nodup
import MaasBoot.Lib.Shell

/-!
# Orphaned rack controllers

The script that cleans up rack controllers unregisters those whose `rackd` does not run, except for itself and for
racks whose host has an active pod; later it takes racks with an active pod for candidates for DHCP.  Whether a host
has an active pod is decided by `inside` of jq, which compares strings by substring.
-/

namespace MaasBoot

/-- One word: ids of rack controllers and names of nodes have no blanks. -/
abbrev Word := { w : Bytes // w ≠ [] ∧ BlankFree w }

structure Service where
  name : Bytes
  status : Bytes
  deriving DecidableEq

structure RackController where
  systemId : Word
  hostname : Bytes
  serviceSet : List Service
  deriving DecidableEq

/-- The rack controllers that MAAS knows; their ids are different. -/
structure RackControllers where
  racks : List RackController
  nodup : (racks.map (·.systemId)).Nodup

/-! ### The filters -/

/-- `ACTIVE_NODES_ARRAY`: the lines of `ACTIVE_NODES` that are not empty. -/
def activeNodesArray (activeNodes : Bytes) : List Bytes := ((activeNodes ++ str "\n").splitOn 10).filter (· ≠ [])

/-- `contains` of jq for strings. -/
def containsString (a b : Bytes) : Bool := decide (b <:+: a)

/-- `inside` of jq for arrays of strings: every string occurs in one of the others. -/
def inside (xs ys : List Bytes) : Bool := xs.all fun x => ys.any fun y => containsString y x

/-- The services of a rack called `rackd`, as `.service_set[] | select(.name=="rackd")`. -/
def RackController.rackd (r : RackController) : List Service := r.serviceSet.filter fun s => s.name = str "rackd"

/-- The objects built for the racks, one for each `rackd`. -/
def rackServices (racks : List RackController) : List (RackController × Service) :=
  racks.flatMap fun r => r.rackd.map fun s => (r, s)

/-- What the filter for orphaned racks prints. -/
def orphanedText (racks : List RackController) (myId : Word) (activeNodes : List Bytes) : Bytes :=
  unlines (((rackServices racks).filter fun r =>
    r.2.status ≠ str "running" && r.1.systemId ≠ myId && !inside [r.1.hostname] activeNodes).map (·.1.systemId.val))

/-- The ids in the loop that unregisters rack controllers. -/
def deletedRacks (racks : List RackController) (myId : Word) (activeNodes : List Bytes) : List Bytes :=
  words (orphanedText racks myId activeNodes)

/-- `RACKS_WITH_ACTIVE_PODS`, line by line. -/
def racksWithActivePods (racks : List RackController) (activeNodes : List Bytes) : List Bytes :=
  (racks.filter fun r => inside [r.hostname] activeNodes).map (·.systemId.val)

/-! ### What they select -/

theorem inside_singleton_iff (x : Bytes) (ys : List Bytes) : inside [x] ys = true ↔ ∃ y ∈ ys, x <:+: y := by
  simp [inside, containsString]

theorem activeNodesArray_join (nodes : List Word) :
    activeNodesArray (join (str "\n") (nodes.map (·.val))) = nodes.map (·.val) := by
  have hne : ∀ l ∈ nodes.map (·.val), l ≠ [] ∧ (10 : UInt8) ∉ l := by
    intro l hl
    obtain ⟨n, -, rfl⟩ := List.mem_map.mp hl
    exact ⟨n.property.1, fun h => absurd (n.property.2 10 h) (by decide)⟩
  generalize nodes.map (·.val) = ls at *
  rw [activeNodesArray, show str "\n" = [10] by decide]
  rcases eq_or_ne ls [] with rfl | hls
  · decide
  · rw [List.splitOn_append_cons_self, join, List.splitOn_intercalate _ (fun l hl => (hne l hl).2) hls,
      List.filter_append]
    rw [List.filter_eq_self.mpr fun l hl => by simpa using (hne l hl).1]
    simp

theorem deletedRacks_eq (racks : List RackController) (myId : Word) (activeNodes : List Bytes) :
    deletedRacks racks myId activeNodes = ((rackServices racks).filter fun r =>
      r.2.status ≠ str "running" && r.1.systemId ≠
        myId && !inside [r.1.hostname] activeNodes).map (·.1.systemId.val) := by
  refine words_unlines fun w hw => ?_
  obtain ⟨r, -, rfl⟩ := List.mem_map.mp hw
  exact r.1.systemId.property

/-- A rack whose `rackd` has another status than running. -/
def RackController.Down (r : RackController) : Prop := ∃ s ∈ r.serviceSet, s.name = str "rackd" ∧
    s.status ≠ str "running"

theorem mem_deletedRacks_iff {racks : List RackController} {myId : Word} {activeNodes : List Bytes} {id : Bytes} :
    id ∈ deletedRacks racks myId activeNodes ↔
      ∃ r ∈ racks, id = r.systemId ∧ r.Down ∧ r.systemId ≠ myId ∧ ¬ ∃ n ∈ activeNodes, r.hostname <:+: n := by
  rw [deletedRacks_eq, List.mem_map]
  constructor
  · rintro ⟨⟨r, s⟩, hr, rfl⟩
    obtain ⟨hmem, hsel⟩ := List.mem_filter.mp hr
    obtain ⟨r', hr', hs⟩ := List.mem_flatMap.mp hmem
    obtain ⟨s', hs', heq⟩ := List.mem_map.mp hs
    obtain ⟨rfl, rfl⟩ := Prod.mk.inj heq
    obtain ⟨hset, hname⟩ := List.mem_filter.mp hs'
    simp only [Bool.and_eq_true, Bool.not_eq_true', decide_eq_true_eq] at hsel hname
    refine ⟨r', hr', rfl, ⟨s', hset, hname, hsel.1.1⟩, hsel.1.2, fun hin => ?_⟩
    rw [(inside_singleton_iff _ _).mpr hin] at hsel
    exact absurd hsel.2 (by decide)
  · rintro ⟨r, hr, rfl, ⟨s, hset, hname, hstatus⟩, hid, hin⟩
    refine ⟨(r, s), List.mem_filter.mpr ⟨?_, ?_⟩, rfl⟩
    · exact List.mem_flatMap.mpr ⟨r, hr, List.mem_map.mpr ⟨s, List.mem_filter.mpr ⟨hset, by simpa using hname⟩, rfl⟩⟩
    · have hno : inside [r.hostname] activeNodes = false := by
        rw [← Bool.not_eq_true, inside_singleton_iff]
        exact hin
      simp [hstatus, hid, hno]

theorem mem_racksWithActivePods_iff {racks : List RackController} {activeNodes : List Bytes} {id : Bytes} :
    id ∈ racksWithActivePods racks activeNodes ↔ ∃ r ∈ racks, id = r.systemId ∧
      ∃ n ∈ activeNodes, r.hostname <:+: n := by
  unfold racksWithActivePods
  rw [List.mem_map]
  constructor
  · rintro ⟨r, hr, rfl⟩
    obtain ⟨hmem, hsel⟩ := List.mem_filter.mp hr
    exact ⟨r, hmem, rfl, (inside_singleton_iff _ _).mp hsel⟩
  · rintro ⟨r, hr, rfl, hin⟩
    exact ⟨r, List.mem_filter.mpr ⟨hr, (inside_singleton_iff _ _).mpr hin⟩, rfl⟩

/-! ### Exactness -/

/-- The cleanup unregisters exactly the racks that are down, are not this one and have no active pod, and exactly the
racks with an active pod count as such, as long as no host name is a part of the name of an active node without being
one itself. -/
theorem cleanup_exact_iff (rs : RackControllers) (myId : Word) (nodes : List Word) :
    let activeNodes := activeNodesArray (join (str "\n") (nodes.map (·.val)))
    ((∀ id, id ∈ deletedRacks rs.racks myId activeNodes ↔
        ∃ r ∈ rs.racks, id = r.systemId ∧ r.Down ∧ r.systemId ≠ myId ∧ ∀ n ∈ nodes, r.hostname ≠ n.val) ∧
      ∀ id, id ∈ racksWithActivePods rs.racks activeNodes ↔
        ∃ r ∈ rs.racks, id = r.systemId ∧ ∃ n ∈ nodes, r.hostname = n.val) ↔
    ∀ r ∈ rs.racks, ∀ n ∈ nodes, r.hostname <:+: n.val → ∃ m ∈ nodes, r.hostname = m.val := by
  intro activeNodes
  have hactive : ∀ h : Bytes, (∃ n ∈ activeNodes, h <:+: n) ↔ ∃ n ∈ nodes, h <:+: n.val := by
    intro h
    rw [show activeNodes = nodes.map (·.val) from activeNodesArray_join nodes]
    constructor
    · rintro ⟨_, hmem, hinfix⟩
      obtain ⟨n, hn, rfl⟩ := List.mem_map.mp hmem
      exact ⟨n, hn, hinfix⟩
    · rintro ⟨n, hn, hinfix⟩
      exact ⟨n.val, List.mem_map_of_mem hn, hinfix⟩
  simp only [mem_deletedRacks_iff, mem_racksWithActivePods_iff, hactive]
  constructor
  · rintro ⟨-, hpods⟩ r hr n hn hinfix
    -- the id of the rack is selected, and no other rack has it
    obtain ⟨r', hr', hid, hm⟩ := (hpods r.systemId).mp ⟨r, hr, rfl, n, hn, hinfix⟩
    obtain rfl := List.inj_on_of_nodup_map rs.nodup hr hr' (Subtype.ext hid)
    exact hm
  · intro hcond
    have hiff : ∀ r ∈ rs.racks, (∃ n ∈ nodes, r.hostname <:+: n.val) ↔ ∃ n ∈ nodes, r.hostname = n.val := by
      intro r hr
      constructor
      · rintro ⟨n, hn, hinfix⟩
        exact hcond r hr n hn hinfix
      · rintro ⟨n, hn, heq⟩
        exact ⟨n, hn, heq ▸ List.infix_rfl⟩
    constructor
    · intro id
      refine exists_congr fun r => and_congr_right fun hr => ?_
      rw [hiff r hr, not_exists]
      simp only [not_and, ne_eq]
    · intro id
      exact exists_congr fun r => and_congr_right fun hr => and_congr_right fun _ => hiff r hr

/-- The rack on `node1` is down and has no pod, but with a pod on `node10` it stays and counts as active. -/
theorem cleanup_not_exact :
    let dead : RackController := ⟨⟨str "qd8xnm", by decide⟩, str "node1", [⟨str "rackd", str "dead"⟩]⟩
    let myId : Word := ⟨str "b3rwta", by decide⟩
    let activeNodes := activeNodesArray (str "node10")
    dead.Down ∧ dead.systemId ≠ myId ∧ dead.hostname ∉ activeNodes ∧
      deletedRacks [dead] myId activeNodes = [] ∧ racksWithActivePods [dead] activeNodes = [str "qd8xnm"] := by
  refine ⟨⟨⟨str "rackd", str "dead"⟩, by decide, by decide, by decide⟩, by decide, by decide, by decide, by decide⟩

end MaasBoot
