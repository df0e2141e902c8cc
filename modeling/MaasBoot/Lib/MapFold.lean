import Mathlib.Data.Finmap

/-!
# Maps filled in some order

`insertAll key val l` puts the elements of a list into a map, one after another, each under its key.  Where two
elements have the same key the later one wins.  So the result is the same for all orders of a list if and only if
elements with the same key have the same value (`insertAll_perm_iff`).
-/

namespace MaasBoot

section MapFold

variable {α κ ν : Type} [DecidableEq κ] (key : α → κ) (val : α → ν)

def insertAll (l : List α) : Finmap fun _ : κ => ν := l.foldl (fun m a => m.insert (key a) (val a)) ∅

variable {key val}

/-- The last element wins. -/
theorem lookup_insertAll_concat (l : List α) (a : α) :
    (insertAll key val (l ++ [a])).lookup (key a) = some (val a) := by
  rw [insertAll, List.foldl_append]
  exact Finmap.lookup_insert _

/-- An element is found under its key if all elements with that key have its value. -/
theorem lookup_insertAll_of_mem {l : List α} {a : α} (ha : a ∈ l) (h : ∀ b ∈ l, key b = key a → val b = val a) :
    (insertAll key val l).lookup (key a) = some (val a) := by
  induction l using List.reverseRecOn with
  | nil => cases ha
  | append_singleton l b ih =>
    by_cases hk : key b = key a
    · rw [← hk, lookup_insertAll_concat, h b (by simp) hk]
    · have hal : a ∈ l := by
        rcases List.mem_append.mp ha with ha | ha
        · exact ha
        · exact absurd (congrArg key (List.mem_singleton.mp ha)).symm hk
      rw [insertAll, List.foldl_append]
      exact (Finmap.lookup_insert_of_ne _ (Ne.symm hk)).trans (ih hal fun c hc => h c (List.mem_append_left _ hc))

theorem insert_comm_of {m : Finmap fun _ : κ => ν} {a b : α} (h : key a = key b → val a = val b) :
    (m.insert (key a) (val a)).insert (key b) (val b) = (m.insert (key b) (val b)).insert (key a) (val a) := by
  by_cases hk : key a = key b
  · rw [hk, h hk]
  · exact Finmap.insert_insert_of_ne m hk

theorem insertAll_perm {l l' : List α} (hperm : l.Perm l') (h : ∀ a ∈ l, ∀ b ∈ l, key a = key b → val a = val b) :
    insertAll key val l = insertAll key val l' :=
  hperm.foldl_eq' (fun a ha b hb _ => insert_comm_of (h a ha b hb)) ∅

/-- Every element of a list comes last in some order. -/
theorem exists_perm_concat {l : List α} {a : α} (h : a ∈ l) : ∃ l', (l' ++ [a]).Perm l := by
  obtain ⟨s, t, rfl⟩ := List.append_of_mem h
  refine ⟨s ++ t, ?_⟩
  rw [List.append_assoc]
  exact List.Perm.append_left s List.perm_append_comm

theorem insertAll_perm_iff (l : List α) :
    (∀ l₁ l₂, l₁.Perm l → l₂.Perm l → insertAll key val l₁ = insertAll key val l₂) ↔
      ∀ a ∈ l, ∀ b ∈ l, key a = key b → val a = val b := by
  constructor
  · intro h a ha b hb hk
    obtain ⟨la, hla⟩ := exists_perm_concat ha
    obtain ⟨lb, hlb⟩ := exists_perm_concat hb
    have hlook : (insertAll key val (la ++ [a])).lookup (key a) = some (val a) := lookup_insertAll_concat la a
    rw [h _ _ hla hlb, hk, lookup_insertAll_concat] at hlook
    exact (Option.some.inj hlook).symm
  · intro h l₁ l₂ h₁ h₂
    refine insertAll_perm (h₁.trans h₂.symm) fun a ha b hb => ?_
    exact h a (h₁.mem_iff.mp ha) b (h₁.mem_iff.mp hb)

end MapFold

end MaasBoot
