import MaasBoot.IsoCache
import MaasBoot.Lib.Runs

/-!
# What the cache returns, by its history

The calls of a run come one after the other, each at its own time; a run is the list of its calls with their
results.  Whether a look-up hits, and what it returns, can be read off the calls before it: the last `Set` of the
key gives the image, and the last `Set` or hitting `Get` of the key decides whether it is still there.  The cache
forgets entries that have expired, at a look-up and when it is reaped, but only such entries (`Reflects`); so
reaping does not show in the results of the other calls.
-/

namespace MaasBoot

inductive CacheCall where
  | set (mac configHash data : Bytes)
  | get (mac : Bytes)
  | reap

def CacheCall.isReap : CacheCall → Bool
  | .reap => true
  | _ => false

inductive CacheResult where
  /-- The data and the hash of the object that `Set` returns. -/
  | stored (data configHash : Bytes)
  /-- The data and the hash of the object that `Get` returns, if it returns one. -/
  | got (found : Option (Bytes × Bytes))
  | evicted (n : Nat)
deriving DecidableEq

/-- A call, the time at which it was made and its result. -/
abbrev CacheEvent := (Int × CacheCall) × CacheResult

namespace ISOCache

variable (u : Unicode)

/-- `Len` -/
def len (c : ISOCache) : Nat := c.isos.entries.length

/-- The image that an object holds: its data and its hash. -/
def image (c : ISOCache) (p : Nat) : Bytes × Bytes := ((c.heap p).data, (c.heap p).configHash)

/-- A call, at the time it is made. -/
def call (c : ISOCache) : Int × CacheCall → ISOCache × CacheResult
  | (now, .set mac configHash data) =>
    let (c', p) := c.set u now mac configHash data
    (c', .stored (c'.image p).1 (c'.image p).2)
  | (now, .get mac) =>
    let (c', found) := c.get u now mac
    (c', .got (found.map c'.image))
  | (now, .reap) =>
    let (c', n) := c.reap now
    (c', .evicted n)

/-! ### What the history says -/

/-- The image that an event stores under a key. -/
def storedBy (k : Bytes) : CacheEvent → Option (Bytes × Bytes)
  | ((_, .set mac configHash data), _) => if key u mac = k then some (data, configHash) else none
  | _ => none

/-- The time of an event that stores or finds an image under a key. -/
def usedAt (k : Bytes) : CacheEvent → Option Int
  | ((now, .set mac _ _), _) => if key u mac = k then some now else none
  | ((now, .get mac), .got (some _)) => if key u mac = k then some now else none
  | _ => none

/-- What a look-up returns after some calls. -/
def expected (ttl : Int) (t : List CacheEvent) (now : Int) (k : Bytes) : Option (Bytes × Bytes) :=
  match latest (usedAt u k) t with
  | none => none
  | some used => if now - used ≤ ttl then latest (storedBy u k) t else none

theorem expected_eq_some_iff {ttl : Int} {t : List CacheEvent} {now : Int} {k : Bytes} {iso : Bytes × Bytes} :
    expected u ttl t now k = some iso ↔
      latest (storedBy u k) t = some iso ∧ ∃ used, latest (usedAt u k) t = some used ∧ now - used ≤ ttl := by
  unfold expected
  cases latest (usedAt u k) t with
  | none => simp
  | some used =>
    simp only [Option.some.injEq, exists_eq_left']
    split
    · rename_i h
      simp only [h, and_true]
    · rename_i h
      simp only [h, and_false, reduceCtorEq]

/-- The calls other than `Reap`, with their results. -/
def visible (t : List CacheEvent) : List CacheEvent := t.filter fun e => !e.1.2.isReap

theorem expected_visible (ttl : Int) (t : List CacheEvent) (now : Int) (k : Bytes) :
    expected u ttl (visible t) now k = expected u ttl t now k := by
  have hreap : ∀ e : CacheEvent, (!e.1.2.isReap) = false → storedBy u k e = none ∧ usedAt u k e = none := by
    rintro ⟨⟨now, call⟩, res⟩ h
    cases call with
    | reap => exact ⟨rfl, rfl⟩
    | set mac configHash data => cases h
    | get mac => cases h
  have hstored : latest (storedBy u k) (visible t) = latest (storedBy u k) t :=
    latest_filter (fun e h => (hreap e h).1) t
  have hused : latest (usedAt u k) (visible t) = latest (usedAt u k) t := latest_filter (fun e h => (hreap e h).2) t
  rw [expected, expected, hstored, hused]

/-! ### Look-ups -/

section Get

variable {u} {c : ISOCache} {now : Int} {mac : Bytes} {p : Nat}

theorem get_of_none (h : c.isos.lookup (key u mac) = none) : c.get u now mac = (c, none) := by
  simp only [get, h]

theorem get_of_expired (h : c.isos.lookup (key u mac) = some p) (hexp : c.expired now p) :
    c.get u now mac = (c.delete (key u mac), none) := by
  simp only [get, h, if_pos hexp]

theorem get_of_fresh (h : c.isos.lookup (key u mac) = some p) (hexp : ¬ c.expired now p) :
    c.get u now mac = (c.touch p now, some p) := by
  simp only [get, h, if_neg hexp]

/-- A look-up changes no image. -/
theorem image_touch (c : ISOCache) (p : Nat) (now : Int) (q : Nat) : (c.touch p now).image q = c.image q := by
  by_cases hq : q = p
  · subst hq
    simp [image, touch]
  · simp [image, touch, hq]

end Get

/-! ### Reaping -/

/-- What the loop of `Reap` leaves. -/
theorem lookup_reapLoop (now : Int) (es : List (Sigma fun _ : Bytes => Nat)) (c : ISOCache) (n : Nat) (k : Bytes)
    (p : Nat) :
    (c.reapLoop now n es).1.isos.lookup k = some p ↔
      c.isos.lookup k = some p ∧ ∀ e ∈ es, c.expired now e.2 → k ≠ e.1 := by
  induction es generalizing c n with
  | nil => simp [reapLoop]
  | cons e es ih =>
    rw [reapLoop]
    split
    · rename_i he
      have hexp : ∀ q, (c.delete e.1).expired now q ↔ c.expired now q := fun _ => Iff.rfl
      rw [ih]
      simp only [hexp, List.forall_mem_cons, he, forall_const]
      change (c.isos.erase e.1).lookup k = some p ∧ _ ↔ _
      rw [lookup_erase_eq_some]
      tauto
    · rename_i he
      rw [ih, List.forall_mem_cons]
      tauto

theorem heap_reapLoop (now : Int) (es : List (Sigma fun _ : Bytes => Nat)) (c : ISOCache) (n : Nat) :
    (c.reapLoop now n es).1.heap = c.heap ∧ (c.reapLoop now n es).1.ttl = c.ttl := by
  induction es generalizing c n with
  | nil => exact ⟨rfl, rfl⟩
  | cons e es ih =>
    rw [reapLoop]
    split
    · exact ih (c.delete e.1) (n + 1)
    · exact ih c n

/-- The loop of `Reap` counts the expired entries it visits. -/
theorem evicted_reapLoop (now : Int) (es : List (Sigma fun _ : Bytes => Nat)) (c : ISOCache) (n : Nat) :
    (c.reapLoop now n es).2 = n + es.countP fun e => c.expired now e.2 := by
  induction es generalizing c n with
  | nil => rfl
  | cons e es ih =>
    rw [reapLoop, List.countP_cons]
    split
    · rename_i he
      rw [ih]
      have hexp : ∀ q, (c.delete e.1).expired now q ↔ c.expired now q := fun _ => Iff.rfl
      simp only [hexp, he, decide_true, if_true]
      omega
    · rename_i he
      rw [ih]
      simp [he]

theorem lookup_iff_mem_entries {c : ISOCache} {k : Bytes} {p : Nat} :
    c.isos.lookup k = some p ↔ ⟨k, p⟩ ∈ c.isos.entries := AList.mem_lookup_iff

/-- `Reap` leaves the entries that have not expired. -/
theorem lookup_reap (c : ISOCache) (now : Int) (k : Bytes) (p : Nat) :
    (c.reap now).1.isos.lookup k = some p ↔ c.isos.lookup k = some p ∧ ¬ c.expired now p := by
  rw [reap, lookup_reapLoop]
  constructor
  · rintro ⟨hk, h⟩
    exact ⟨hk, fun hexp => h ⟨k, p⟩ (lookup_iff_mem_entries.mp hk) hexp rfl⟩
  · rintro ⟨hk, h⟩
    refine ⟨hk, fun e he hexp hke => h ?_⟩
    have hlook : c.isos.lookup k = some e.2 := by
      rw [hke]
      exact lookup_iff_mem_entries.mpr he
    rw [hk, Option.some_inj] at hlook
    rwa [hlook]

/-- `Reap` returns the number of entries that it removes. -/
theorem evicted_reap (c : ISOCache) (now : Int) :
    (c.reap now).2 = c.isos.entries.countP fun e => (c.reap now).1.isos.lookup e.1 = none := by
  rw [reap, evicted_reapLoop, Nat.zero_add]
  refine List.countP_congr fun e he => ?_
  have hlook := lookup_iff_mem_entries.mpr he
  have hleft := lookup_reap c now e.1 e.2
  simp only [decide_eq_true_eq]
  constructor
  · intro hexp
    rw [Option.eq_none_iff_forall_ne_some]
    intro p hp
    have hp' := (lookup_reap c now e.1 p).mp hp
    rw [hlook, Option.some_inj] at hp'
    exact hp'.2 (hp'.1 ▸ hexp)
  · intro hnone
    by_contra hexp
    exact Option.some_ne_none _ ((hleft.mpr ⟨hlook, hexp⟩).symm.trans hnone)

theorem len_reap (c : ISOCache) (now : Int) : (c.reap now).2 + (c.reap now).1.len = c.len := by
  have hleft : (c.reap now).1.isos.entries.Perm (c.isos.entries.filter fun e => ¬ c.expired now e.2) := by
    rw [List.perm_ext_iff_of_nodup (c.reap now).1.isos.nodupKeys.nodup (c.isos.nodupKeys.nodup.filter _)]
    rintro ⟨k, p⟩
    rw [← lookup_iff_mem_entries, lookup_reap, List.mem_filter, ← lookup_iff_mem_entries, decide_eq_true_eq]
  have hevicted : (c.reap now).2 = c.isos.entries.countP fun e => c.expired now e.2 := by
    rw [reap, evicted_reapLoop, Nat.zero_add]
  rw [len, len, hevicted, hleft.length_eq, ← List.countP_eq_length_filter]
  rw [List.length_eq_countP_add_countP (p := fun e => decide (c.expired now e.2))]
  simp only [decide_not, decide_eq_true_eq]

/-! ### The cache and its history -/

/-- The cache after some calls.  An entry holds the image stored last and the time of its last use; a key without an
entry was never used, or its last use was too long ago at the time of some call. -/
structure Reflects (ttl : Int) (c : ISOCache) (t : List CacheEvent) : Prop where
  ttl_eq : c.ttl = ttl
  stored : ∀ k p, c.isos.lookup k = some p → latest (storedBy u k) t = some (c.image p)
  used : ∀ k p, c.isos.lookup k = some p → latest (usedAt u k) t = some (c.heap p).lastAccess
  gone : ∀ k, c.isos.lookup k = none → ∀ used, latest (usedAt u k) t = some used → ∃ e ∈ t, ttl < e.1.1 - used

variable {u} {ttl : Int} {c : ISOCache} {t : List CacheEvent}

/-- A key without an entry, and a call that does not use it. -/
theorem Reflects.gone_concat (h : Reflects u ttl c t) {k : Bytes} (hk : c.isos.lookup k = none) {e : CacheEvent}
    (he : usedAt u k e = none) {used : Int} (hused : latest (usedAt u k) (t ++ [e]) = some used) :
    ∃ e' ∈ t ++ [e], ttl < e'.1.1 - used := by
  rw [latest_concat, he, Option.none_or] at hused
  obtain ⟨e', he', hlt⟩ := h.gone k hk used hused
  exact ⟨e', List.mem_append_left _ he', hlt⟩

/-- A call that stores and finds nothing, and removes only entries that have expired when it is made. -/
theorem Reflects.shrink (h : Reflects u ttl c t) {c' : ISOCache} {e : CacheEvent} (hs : ∀ k, storedBy u k e = none)
    (hu : ∀ k, usedAt u k e = none) (httl : c'.ttl = c.ttl) (hheap : c'.heap = c.heap)
    (hlook : ∀ k p, c'.isos.lookup k = some p → c.isos.lookup k = some p)
    (hgone : ∀ k p, c'.isos.lookup k = none → c.isos.lookup k = some p → c.expired e.1.1 p) :
    Reflects u ttl c' (t ++ [e]) := by
  refine ⟨httl.trans h.ttl_eq, fun k p hk => ?_, fun k p hk => ?_, fun k hk used hused => ?_⟩
  · rw [latest_concat, hs, Option.none_or, h.stored k p (hlook k p hk), image, image, hheap]
  · rw [latest_concat, hu, Option.none_or, h.used k p (hlook k p hk), hheap]
  · cases hp : c.isos.lookup k with
    | none => exact h.gone_concat hp (hu k) hused
    | some p =>
      have hexp : (c.ttl : Int) < e.1.1 - (c.heap p).lastAccess := hgone k p hk hp
      rw [latest_concat, hu, Option.none_or, h.used k p hp, Option.some_inj] at hused
      rw [h.ttl_eq, hused] at hexp
      exact ⟨e, by simp, hexp⟩

theorem Reflects.set (h : Reflects u ttl c t) (now : Int) (mac configHash data : Bytes) (r : CacheResult) :
    Reflects u ttl (c.set u now mac configHash data).1 (t ++ [((now, .set mac configHash data), r)]) := by
  have hlook : ∀ k p, (c.set u now mac configHash data).1.isos.lookup k = some p ↔
      (k = key u mac ∧ c.next = p) ∨ (k ≠ key u mac ∧ c.isos.lookup k = some p) := fun k p => lookup_insert_eq_some
  -- the other objects are older than the new one
  have hold : ∀ k p, c.isos.lookup k = some p → (c.set u now mac configHash data).1.heap p = c.heap p :=
    fun k p hk => Function.update_of_ne (c.exist k p hk).ne _ _
  have hnew : (c.set u now mac configHash data).1.heap c.next = ⟨data, configHash, now, now⟩ := heap_insert c _ _
  refine ⟨h.ttl_eq, fun k p hk => ?_, fun k p hk => ?_, fun k hk used hused => ?_⟩
  · rw [latest_concat, storedBy, image]
    rcases (hlook k p).mp hk with ⟨rfl, rfl⟩ | ⟨hne, hp⟩
    · rw [hnew, if_pos rfl, Option.some_or]
    · rw [hold k p hp, if_neg hne.symm, Option.none_or, h.stored k p hp, image]
  · rw [latest_concat, usedAt]
    rcases (hlook k p).mp hk with ⟨rfl, rfl⟩ | ⟨hne, hp⟩
    · rw [hnew, if_pos rfl, Option.some_or]
    · rw [hold k p hp, if_neg hne.symm, Option.none_or, h.used k p hp]
  · have hne : key u mac ≠ k := by
      rintro rfl
      have hthere := (hlook (key u mac) c.next).mpr (.inl ⟨rfl, rfl⟩)
      rw [hk] at hthere
      cases hthere
    have hk' : c.isos.lookup k = none := by
      rw [← hk]
      exact (AList.lookup_insert_ne hne.symm).symm
    refine h.gone_concat hk' ?_ hused
    exact if_neg hne

theorem Reflects.hit (h : Reflects u ttl c t) {now : Int} {mac : Bytes} {p : Nat}
    (hp : c.isos.lookup (key u mac) = some p) (iso : Bytes × Bytes) :
    Reflects u ttl (c.touch p now) (t ++ [((now, .get mac), .got (some iso))]) := by
  refine ⟨h.ttl_eq, fun k q hk => ?_, fun k q hk => ?_, fun k hk used hused => ?_⟩
  · rw [latest_concat, image_touch]
    exact h.stored k q hk
  · rw [latest_concat, usedAt]
    change c.isos.lookup k = some q at hk
    by_cases hkey : key u mac = k
    · subst hkey
      have hqp : q = p := Option.some_inj.mp (hk.symm.trans hp)
      subst hqp
      simp [touch]
    · have hqp : q ≠ p := by
        rintro rfl
        exact hkey (c.separate _ _ _ hp hk)
      rw [if_neg hkey, Option.none_or, h.used k q hk]
      simp [touch, hqp]
  · change c.isos.lookup k = none at hk
    have hne : key u mac ≠ k := by
      rintro rfl
      rw [hk] at hp
      cases hp
    refine h.gone_concat hk ?_ hused
    exact if_neg hne

theorem Reflects.call (h : Reflects u ttl c t) (a : Int × CacheCall) :
    Reflects u ttl (c.call u a).1 (t ++ [(a, (c.call u a).2)]) := by
  obtain ⟨now, call⟩ := a
  cases call with
  | set mac configHash data => exact h.set now mac configHash data _
  | get mac =>
    cases hp : c.isos.lookup (key u mac) with
    | none =>
      simp only [ISOCache.call, get_of_none hp]
      exact h.shrink (fun _ => rfl) (fun _ => rfl) rfl rfl (fun _ _ hq => hq) (fun k q hn hq => by simp [hn] at hq)
    | some p =>
      by_cases hexp : c.expired now p
      · simp only [ISOCache.call, get_of_expired hp hexp]
        refine h.shrink (fun _ => rfl) (fun _ => rfl) rfl rfl (fun k q hq => (lookup_erase_eq_some.mp hq).2) ?_
        intro k q hn hq
        have hk : k = key u mac := by
          by_contra hne
          exact Option.some_ne_none q ((lookup_erase_eq_some.mpr ⟨hne, hq⟩).symm.trans hn)
        subst hk
        rw [hp, Option.some_inj] at hq
        exact hq ▸ hexp
      · simp only [ISOCache.call, get_of_fresh hp hexp]
        exact h.hit hp _
  | reap =>
    refine h.shrink (fun _ => rfl) (fun _ => rfl) (heap_reapLoop ..).2 (heap_reapLoop ..).1
      (fun k p hk => ((lookup_reap c now k p).mp hk).1) ?_
    intro k p hn hp
    by_contra hexp
    exact Option.some_ne_none p (((lookup_reap c now k p).mpr ⟨hp, hexp⟩).symm.trans hn)

/-- Every run keeps to its history. -/
theorem reflects_trace (u : Unicode) (ttl : Int) (calls : List (Int × CacheCall)) :
    Reflects u (new ttl).ttl (stateAfter (call u) (new ttl) calls) (trace (call u) (new ttl) calls) := by
  have hnew : Reflects u (new ttl).ttl (new ttl) [] := by
    refine ⟨rfl, fun k p h => ?_, fun k p h => ?_, fun _ _ _ h => (nomatch h)⟩
    · simp [new] at h
    · simp [new] at h
  exact @trace_invariant _ _ _ (call u) (Reflects u (new ttl).ttl) (fun _ _ a h => h.call a) _ hnew calls

/-- A look-up returns what the history says. -/
theorem Reflects.get (h : Reflects u ttl c t) {now : Int} (hnow : ∀ e ∈ t, e.1.1 ≤ now) (mac : Bytes) :
    (c.call u (now, .get mac)).2 = .got (expected u ttl t now (key u mac)) := by
  rw [expected]
  cases hp : c.isos.lookup (key u mac) with
  | none =>
    simp only [ISOCache.call, get_of_none hp, Option.map_none]
    cases hused : latest (usedAt u (key u mac)) t with
    | none => rfl
    | some used =>
      -- the use that was too long ago at some earlier call is too long ago now
      obtain ⟨e, he, hlt⟩ := h.gone _ hp used hused
      have hle := hnow e he
      simp only [if_neg (show ¬ now - used ≤ ttl by omega)]
  | some p =>
    rw [h.used _ p hp, h.stored _ p hp]
    by_cases hexp : c.expired now p
    · have hlt : ¬ now - (c.heap p).lastAccess ≤ ttl := by
        have : now - (c.heap p).lastAccess > c.ttl := hexp
        rw [h.ttl_eq] at this
        omega
      simp only [ISOCache.call, get_of_expired hp hexp, Option.map_none, if_neg hlt]
    · have hle : now - (c.heap p).lastAccess ≤ ttl := by
        have : ¬ now - (c.heap p).lastAccess > c.ttl := hexp
        rw [h.ttl_eq] at this
        omega
      simp only [ISOCache.call, get_of_fresh hp hexp, Option.map_some, if_pos hle, image_touch]

/-! ### Runs -/

theorem times_le_of_pairwise {calls : List (Int × CacheCall)} {a : Int × CacheCall}
    (h : (calls ++ [a]).Pairwise fun a b => a.1 ≤ b.1) {c : ISOCache} :
    ∀ e ∈ trace (call u) c calls, e.1.1 ≤ a.1 := by
  intro e he
  have hmem : e.1 ∈ calls := by
    have hmap : (trace (call u) c calls).map Prod.fst = calls := map_fst_trace c calls
    rw [← hmap]
    exact List.mem_map_of_mem he
  exact (List.pairwise_append.mp h).2.2 e.1 hmem a (by simp)

theorem get_after (u : Unicode) (ttl : Int) {calls : List (Int × CacheCall)} {now : Int} {mac : Bytes}
    (h : (calls ++ [(now, CacheCall.get mac)]).Pairwise fun a b => a.1 ≤ b.1) :
    (call u (stateAfter (call u) (new ttl) calls) (now, .get mac)).2 =
      .got (expected u (new ttl).ttl (trace (call u) (new ttl) calls) now (key u mac)) :=
  (reflects_trace u ttl calls).get (times_le_of_pairwise h) mac

/-- A call other than `Reap` gives the same result without the `Reap` calls before it. -/
private theorem result_eq (u : Unicode) (ttl : Int) {calls calls' : List (Int × CacheCall)} {a : Int × CacheCall}
    (ha : a.2.isReap = false) (h : (calls ++ [a]).Pairwise fun a b => a.1 ≤ b.1)
    (h' : (calls' ++ [a]).Pairwise fun a b => a.1 ≤ b.1)
    (hvisible : visible (trace (call u) (new ttl) calls) = trace (call u) (new ttl) calls') :
    (call u (stateAfter (call u) (new ttl) calls) a).2 = (call u (stateAfter (call u) (new ttl) calls') a).2 := by
  obtain ⟨now, cc⟩ := a
  cases cc with
  | reap => cases ha
  | set mac configHash data => simp [call, set, image, heap_insert]
  | get mac => rw [get_after u ttl h, get_after u ttl h', ← hvisible, expected_visible]

/-- Without its `Reap` calls, a run gives the same results. -/
theorem visible_trace (u : Unicode) (ttl : Int) {calls : List (Int × CacheCall)}
    (h : calls.Pairwise fun a b => a.1 ≤ b.1) :
    visible (trace (call u) (new ttl) calls) = trace (call u) (new ttl) (calls.filter fun a => !a.2.isReap) := by
  induction calls using List.reverseRecOn with
  | nil => rfl
  | append_singleton calls a ih =>
    have hih := ih (List.pairwise_append.mp h).1
    have hfilter : ((calls ++ [a]).filter fun a => !a.2.isReap).Pairwise fun a b => a.1 ≤ b.1 := h.filter _
    rw [trace_append, visible, List.filter_append, ← visible, hih]
    cases ha : a.2.isReap with
    | true => simp [trace, ha]
    | false =>
      have hkeep : [a].filter (fun a => !a.2.isReap) = [a] := by simp [ha]
      rw [List.filter_append, hkeep] at hfilter ⊢
      rw [trace_append, trace, trace, trace, trace, ← result_eq u ttl ha h hfilter hih]
      simp [ha]

/-- For calls at non-decreasing times: a look-up hits if and only if an image was stored under the key and the last
time that one was stored or found there is at most `ttl` ago, and it returns the image stored last; the results of
the other calls do not depend on where `Reap` is called; after `Reap` no entry has expired, and it returns the
number of entries that it removed. -/
theorem call_history (u : Unicode) (ttl : Int) (calls : List (Int × CacheCall))
    (h : calls.Pairwise fun a b => a.1 ≤ b.1) :
    (∀ before now mac after, calls = before ++ (now, .get mac) :: after →
      ∀ iso, (call u (stateAfter (call u) (new ttl) before) (now, .get mac)).2 = .got (some iso) ↔
        latest (storedBy u (key u mac)) (trace (call u) (new ttl) before) = some iso ∧
          ∃ used, latest (usedAt u (key u mac)) (trace (call u) (new ttl) before) = some used ∧
            now - used ≤ (new ttl).ttl) ∧
    (∀ calls' : List (Int × CacheCall), calls'.Pairwise (fun a b => a.1 ≤ b.1) →
      calls'.filter (fun a => !a.2.isReap) = calls.filter (fun a => !a.2.isReap) →
        visible (trace (call u) (new ttl) calls') = visible (trace (call u) (new ttl) calls)) ∧
    (∀ before now after, calls = before ++ (now, .reap) :: after →
      let c := stateAfter (call u) (new ttl) before
      let c' := stateAfter (call u) (new ttl) (before ++ [(now, .reap)])
      (∀ k p, c'.isos.lookup k = some p → now - (c'.heap p).lastAccess ≤ c'.ttl) ∧
      ∃ n, (call u c (now, .reap)).2 = .evicted n ∧
        n = c.isos.entries.countP (fun e => c'.isos.lookup e.1 = none) ∧ n + c'.len = c.len) := by
  refine ⟨?_, ?_, ?_⟩
  · rintro before now mac after rfl iso
    have hbefore : (before ++ [(now, CacheCall.get mac)]).Pairwise fun a b => a.1 ≤ b.1 := by
      refine h.sublist ((List.Sublist.refl before).append ?_)
      exact List.cons_sublist_cons.mpr (List.nil_sublist after)
    rw [get_after u ttl hbefore, CacheResult.got.injEq, expected_eq_some_iff]
  · intro calls' h' hsame
    rw [visible_trace u ttl h, visible_trace u ttl h', hsame]
  · rintro before now after rfl
    intro c c'
    have hc' : c' = (c.reap now).1 := by
      change stateAfter (call u) (new ttl) (before ++ [(now, .reap)]) = _
      rw [stateAfter, runEvents_append]
      rfl
    rw [hc']
    refine ⟨fun k p hk => ?_, (c.reap now).2, rfl, evicted_reap c now, len_reap c now⟩
    have hfresh := ((lookup_reap c now k p).mp hk).2
    rw [reap, (heap_reapLoop ..).1, (heap_reapLoop ..).2]
    exact not_lt.mp hfresh

/-- An entry stored under a padded key, used once and reaped before it expires, and the look-up after it has. -/
def sampleCalls : List (Int × CacheCall) :=
  [(0, .set (str " 02:5E ") (str "h") (str "x")), (5, .get (str "02:5e")), (12, .reap), (16, .get (str "02:5E"))]

theorem call_history_sample : sampleCalls.Pairwise (fun a b => a.1 ≤ b.1) ∧
    (call .asciiOnly (stateAfter (call .asciiOnly) (new 10) (sampleCalls.take 1)) (5, .get (str "02:5e"))).2 =
      .got (some (str "x", str "h")) ∧
    ∀ iso, (call .asciiOnly (stateAfter (call .asciiOnly) (new 10) (sampleCalls.take 3)) (16, .get (str "02:5E"))).2 ≠
      .got (some iso) := by
  have hsorted : sampleCalls.Pairwise fun a b => a.1 ≤ b.1 := by decide
  have hget := (call_history .asciiOnly 10 sampleCalls hsorted).1
  refine ⟨hsorted, (hget (sampleCalls.take 1) 5 _ (sampleCalls.drop 2) rfl _).mpr (by decide), fun iso hiso => ?_⟩
  obtain ⟨-, used, hused, hle⟩ := (hget (sampleCalls.take 3) 16 _ [] rfl iso).mp hiso
  have h5 : latest (usedAt .asciiOnly (key .asciiOnly (str "02:5E")))
      (trace (call .asciiOnly) (new 10) (sampleCalls.take 3)) = some 5 := by decide
  rw [h5, Option.some_inj] at hused
  have httl : (new 10).ttl = 10 := rfl
  omega

end ISOCache

end MaasBoot
