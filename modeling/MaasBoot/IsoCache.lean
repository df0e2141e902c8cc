import Mathlib.Data.List.AList
import MaasBoot.Lib.Strings

/-!
# The cache of ISO images

A map from keys to pointers; the objects live in a heap, since calls hold on to an object after its entry was
replaced or removed.  An object's data and hash never change, only the time of its last access does.  Every
operation runs under the lock of the cache and takes the time at which it runs.
-/

namespace MaasBoot

structure CachedISO where
  data : Bytes
  configHash : Bytes
  modTime : Int
  lastAccess : Int

/-- Times and durations are in nanoseconds. -/
def defaultTTL : Int := 30 * 60 * 1000000000

/-- Pointers of entries point to objects that exist, and no two entries share one. -/
structure ISOCache where
  ttl : Int
  heap : Nat → CachedISO
  /-- The next free pointer. -/
  next : Nat
  isos : AList fun _ : Bytes => Nat
  ttl_pos : 0 < ttl
  exist : ∀ k p, isos.lookup k = some p → p < next
  separate : ∀ k k' p, isos.lookup k = some p → isos.lookup k' = some p → k = k'

namespace ISOCache

/-- `NewISOCache` -/
def new (ttl : Int) : ISOCache where
  ttl := if ttl ≤ 0 then defaultTTL else ttl
  heap := fun _ => ⟨[], [], 0, 0⟩
  next := 0
  isos := ∅
  ttl_pos := by
    split
    · decide
    · omega
  exist := by simp
  separate := by simp

/-- The key of an entry. -/
def key (u : Unicode) (mac : Bytes) : Bytes := toLower u (trimSpace mac)

def expired (c : ISOCache) (now : Int) (p : Nat) : Prop := now - (c.heap p).lastAccess > c.ttl

instance (c : ISOCache) (now : Int) (p : Nat) : Decidable (c.expired now p) :=
  inferInstanceAs (Decidable (now - (c.heap p).lastAccess > c.ttl))

theorem lookup_erase_eq_some {isos : AList fun _ : Bytes => Nat} {k k' : Bytes} {p : Nat} :
    (isos.erase k').lookup k = some p ↔ k ≠ k' ∧ isos.lookup k = some p := by
  by_cases h : k = k'
  · subst h
    simp
  · rw [AList.lookup_erase_ne h]
    exact ⟨fun hp => ⟨h, hp⟩, fun hp => hp.2⟩

theorem lookup_insert_eq_some {isos : AList fun _ : Bytes => Nat} {k k' : Bytes} {p q : Nat} :
    (isos.insert k' q).lookup k = some p ↔ (k = k' ∧ q = p) ∨ (k ≠ k' ∧ isos.lookup k = some p) := by
  by_cases h : k = k'
  · subst h
    simp
  · rw [AList.lookup_insert_ne h]
    simp [h]

/-- `delete(c.isos, key)` -/
def delete (c : ISOCache) (k : Bytes) : ISOCache :=
  { c with
    isos := c.isos.erase k
    exist := fun _ p h => c.exist _ p (lookup_erase_eq_some.mp h).2
    separate := fun _ _ p h h' => c.separate _ _ p (lookup_erase_eq_some.mp h).2 (lookup_erase_eq_some.mp h').2 }

/-- `entry.LastAccess = now` -/
def touch (c : ISOCache) (p : Nat) (now : Int) : ISOCache :=
  { c with heap := Function.update c.heap p { c.heap p with lastAccess := now } }

/-- `c.isos[key] = &e` -/
def insert (c : ISOCache) (k : Bytes) (e : CachedISO) : ISOCache :=
  { c with
    heap := Function.update c.heap c.next e
    next := c.next + 1
    isos := c.isos.insert k c.next
    exist := by
      intro k' p h
      rcases lookup_insert_eq_some.mp h with ⟨-, hp⟩ | ⟨-, hp⟩
      · omega
      · have := c.exist k' p hp
        omega
    separate := by
      intro k₁ k₂ p h₁ h₂
      rcases lookup_insert_eq_some.mp h₁ with ⟨hk₁, hp₁⟩ | ⟨-, hp₁⟩ <;>
        rcases lookup_insert_eq_some.mp h₂ with ⟨hk₂, hp₂⟩ | ⟨-, hp₂⟩
      · exact hk₁.trans hk₂.symm
      · have := c.exist k₂ p hp₂
        omega
      · have := c.exist k₁ p hp₁
        omega
      · exact c.separate k₁ k₂ p hp₁ hp₂ }

/-! ### The operations -/

variable (u : Unicode)

/-- `Get` -/
def get (c : ISOCache) (now : Int) (mac : Bytes) : ISOCache × Option Nat :=
  match c.isos.lookup (key u mac) with
  | none => (c, none)
  | some p => if c.expired now p then (c.delete (key u mac), none) else (c.touch p now, some p)

/-- `Set`, which reads the clock before it waits for the lock. -/
def set (c : ISOCache) (now : Int) (mac configHash data : Bytes) : ISOCache × Nat :=
  (c.insert (key u mac) ⟨data, configHash, now, now⟩, c.next)

/-- The loop of `Reap`, over the entries that are left to visit. -/
def reapLoop (now : Int) (c : ISOCache) (evicted : Nat) : List (Sigma fun _ : Bytes => Nat) → ISOCache × Nat
  | [] => (c, evicted)
  | e :: es => if c.expired now e.2 then reapLoop now (c.delete e.1) (evicted + 1) es else reapLoop now c evicted es

/-- `Reap` -/
def reap (c : ISOCache) (now : Int) : ISOCache × Nat := c.reapLoop now 0 c.isos.entries

/-! ### Entries and objects -/

/-- Every object keeps its data, its hash and its time of modification. -/
structure Extends (c c' : ISOCache) : Prop where
  next : c.next ≤ c'.next
  data : ∀ p < c.next, (c'.heap p).data = (c.heap p).data
  configHash : ∀ p < c.next, (c'.heap p).configHash = (c.heap p).configHash
  modTime : ∀ p < c.next, (c'.heap p).modTime = (c.heap p).modTime

theorem Extends.refl (c : ISOCache) : c.Extends c := ⟨le_rfl, fun _ _ => rfl, fun _ _ => rfl, fun _ _ => rfl⟩

theorem Extends.trans {c₁ c₂ c₃ : ISOCache} (h : c₁.Extends c₂) (h' : c₂.Extends c₃) : c₁.Extends c₃ where
  next := h.next.trans h'.next
  data p hp := (h'.data p (hp.trans_le h.next)).trans (h.data p hp)
  configHash p hp := (h'.configHash p (hp.trans_le h.next)).trans (h.configHash p hp)
  modTime p hp := (h'.modTime p (hp.trans_le h.next)).trans (h.modTime p hp)

/-- Nothing is added: every entry was there before, with the same object, and there are no new objects. -/
structure Shrinks (c c' : ISOCache) : Prop extends c.Extends c' where
  next_eq : c'.next = c.next
  lookup : ∀ k p, c'.isos.lookup k = some p → c.isos.lookup k = some p

theorem Shrinks.refl (c : ISOCache) : c.Shrinks c := ⟨.refl c, rfl, fun _ _ h => h⟩

theorem Shrinks.trans {c₁ c₂ c₃ : ISOCache} (h : c₁.Shrinks c₂) (h' : c₂.Shrinks c₃) : c₁.Shrinks c₃ :=
  ⟨h.toExtends.trans h'.toExtends, h'.next_eq.trans h.next_eq, fun k p hp => h.lookup k p (h'.lookup k p hp)⟩

theorem shrinks_delete (c : ISOCache) (k : Bytes) : c.Shrinks (c.delete k) :=
  ⟨⟨le_rfl, fun _ _ => rfl, fun _ _ => rfl, fun _ _ => rfl⟩, rfl, fun _ _ h => (lookup_erase_eq_some.mp h).2⟩

theorem shrinks_touch (c : ISOCache) (p : Nat) (now : Int) : c.Shrinks (c.touch p now) := by
  refine ⟨⟨le_rfl, ?_, ?_, ?_⟩, rfl, fun _ _ h => h⟩
  all_goals
    intro q _
    simp only [touch, Function.update_apply]
    split
    · subst q
      rfl
    · rfl

theorem extends_insert (c : ISOCache) (k : Bytes) (e : CachedISO) : c.Extends (c.insert k e) := by
  have hold : ∀ p < c.next, (c.insert k e).heap p = c.heap p := by
    intro p hp
    exact Function.update_of_ne hp.ne _ _
  refine ⟨Nat.le_succ _, ?_, ?_, ?_⟩
  all_goals
    intro p hp
    rw [hold p hp]

theorem heap_insert (c : ISOCache) (k : Bytes) (e : CachedISO) : (c.insert k e).heap c.next = e :=
  Function.update_self ..

/-- A look-up only removes. -/
theorem shrinks_get (c : ISOCache) (now : Int) (mac : Bytes) : c.Shrinks (c.get u now mac).1 := by
  unfold get
  split
  · exact .refl c
  · split
    · exact shrinks_delete c _
    · exact shrinks_touch c _ now

/-- What a look-up finds is the entry of the key. -/
theorem lookup_of_get {c : ISOCache} {now : Int} {mac : Bytes} {p : Nat} (h : (c.get u now mac).2 = some p) :
    c.isos.lookup (key u mac) = some p := by
  unfold get at h
  split at h
  · cases h
  · rename_i q hq
    split at h
    · cases h
    · rw [hq]
      exact h

theorem shrinks_reapLoop (now : Int) (es : List (Sigma fun _ : Bytes => Nat)) (c : ISOCache) (evicted : Nat) :
    c.Shrinks (c.reapLoop now evicted es).1 := by
  induction es generalizing c evicted with
  | nil => exact .refl c
  | cons e es ih =>
    rw [reapLoop]
    split
    · exact (shrinks_delete c e.1).trans (ih _ _)
    · exact ih c evicted

theorem shrinks_reap (c : ISOCache) (now : Int) : c.Shrinks (c.reap now).1 := shrinks_reapLoop now _ c 0

end ISOCache

end MaasBoot
