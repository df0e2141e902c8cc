import MaasBoot.IsoCache
import MaasBoot.Lib.Runs

/-!
# Serving ISO images from the cache

`cachedISO` looks a key up, compares the hash of the object it finds with the hash of the configuration that the
request was made for, and builds and stores an image otherwise.  Calls run concurrently; the cache is locked for a
look-up and for storing, but not in between, so that calls for one key with different configurations overwrite each
other's entries.

As long as equal hashes stand for equal images, a call returns what its own build function produces, in every
interleaving.  Every object in the cache is the image of some request with the object's hash; this holds for the
objects that calls hold on to as well, whatever happens to their entries.
-/

namespace MaasBoot

/-- Requests for ISO images: their keys, the hashes of their configurations and what building their images results
in. -/
structure IsoOps (ρ ε : Type) where
  key : ρ → Bytes
  hash : ρ → Bytes
  build : ρ → Except ε Bytes

/-- Equal hashes under one key stand for equal images. -/
structure IsoScheme (u : Unicode) (ρ ε : Type) extends IsoOps ρ ε where
  sound : ∀ r r', ISOCache.key u (key r) = ISOCache.key u (key r') → hash r = hash r' → build r = build r'

section Calls

variable {u : Unicode} {ρ ε : Type}

/-- Where a call of `cachedISO` stands. -/
inductive IsoPhase (ρ ε : Type) where
  /-- There is no such call. -/
  | idle
  | getting (r : ρ)
  /-- `Get` has returned the object `p`. -/
  | comparing (r : ρ) (p : Nat)
  | building (r : ρ)
  /-- About to call `Set`. -/
  | stamping (r : ρ) (data : Bytes)
  /-- `Set` has read the clock and waits for the lock. -/
  | storing (r : ρ) (data : Bytes) (now : Int)
  /-- The call has returned an object or an error. -/
  | returned (r : ρ) (res : Except ε Nat)

/-- The request of a call. -/
def IsoPhase.request : IsoPhase ρ ε → Option ρ
  | .idle => none
  | .getting r | .comparing r _ | .building r | .stamping r _ | .storing r _ _ | .returned r _ => some r

structure IsoState (ρ ε : Type) where
  clock : Int
  cache : ISOCache
  calls : Nat → IsoPhase ρ ε

inductive IsoEvent (ρ : Type) where
  /-- `cachedISO` is called. -/
  | call (i : Nat) (r : ρ)
  /-- The call `i` takes its next step. -/
  | step (i : Nat)
  | reap
  /-- Time goes by. -/
  | tick (d : Nat)

/-- The next step of `cachedISO`, with its effect on the cache. -/
def cachedISOStep (ops : IsoOps ρ ε) (u : Unicode) (clock : Int) (c : ISOCache) :
    IsoPhase ρ ε → ISOCache × IsoPhase ρ ε
  | .idle => (c, .idle)
  | .getting r =>
    match c.get u clock (ops.key r) with
    | (c', some p) => (c', .comparing r p)
    | (c', none) => (c', .building r)
  | .comparing r p => if (c.heap p).configHash = ops.hash r then (c, .returned r (.ok p)) else (c, .building r)
  | .building r =>
    match ops.build r with
    | .error err => (c, .returned r (.error err))
    | .ok data => (c, .stamping r data)
  | .stamping r data => (c, .storing r data clock)
  | .storing r data now =>
    let (c', p) := c.set u now (ops.key r) (ops.hash r) data
    (c', .returned r (.ok p))
  | .returned r res => (c, .returned r res)

variable (S : IsoScheme u ρ ε)

def isoNext (s : IsoState ρ ε) : IsoEvent ρ → IsoState ρ ε
  | .call i r =>
    match s.calls i with
    | .idle => { s with calls := Function.update s.calls i (.getting r) }
    | .returned _ _ => { s with calls := Function.update s.calls i (.getting r) }
    | _ => s
  | .step i =>
    let (cache, phase) := cachedISOStep S.toIsoOps u s.clock s.cache (s.calls i)
    { s with cache := cache, calls := Function.update s.calls i phase }
  | .reap => { s with cache := (s.cache.reap s.clock).1 }
  | .tick d => { s with clock := s.clock + d }

/-- A new cache. -/
def IsoState.init (ttl clock : Int) : IsoState ρ ε := ⟨clock, .new ttl, fun _ => .idle⟩

/-- What a call has returned, with the data that its object has now. -/
def IsoState.outcome (s : IsoState ρ ε) (i : Nat) : Option (ρ × Except ε Bytes) :=
  match s.calls i with
  | .returned r (.ok p) => some (r, .ok (s.cache.heap p).data)
  | .returned r (.error err) => some (r, .error err)
  | _ => none

/-! ### One step of a call -/

section Step

variable (ops : IsoOps ρ ε) (u : Unicode) (clock : Int) (c : ISOCache) (q : IsoPhase ρ ε)

/-- A step only removes entries, unless it is the one that stores the image of the request. -/
theorem cachedISOStep_cases :
    c.Shrinks (cachedISOStep ops u clock c q).1 ∨
      ∃ r data now, q = .storing r data now ∧
        cachedISOStep ops u clock c q =
          (c.insert (ISOCache.key u (ops.key r)) ⟨data, ops.hash r, now, now⟩, .returned r (.ok c.next)) := by
  cases q with
  | getting r =>
    left
    have hget := ISOCache.shrinks_get u c clock (ops.key r)
    rw [cachedISOStep]
    split
    · rename_i c' p heq
      rwa [heq] at hget
    · rename_i c' heq
      rwa [heq] at hget
  | comparing r p =>
    left
    rw [cachedISOStep]
    split <;> exact .refl c
  | building r =>
    left
    rw [cachedISOStep]
    split <;> exact .refl c
  | storing r data now => exact .inr ⟨r, data, now, rfl, rfl⟩
  | _ => exact .inl (.refl c)

theorem extends_cachedISOStep : c.Extends (cachedISOStep ops u clock c q).1 := by
  rcases cachedISOStep_cases ops u clock c q with h | ⟨r, data, now, -, heq⟩
  · exact h.toExtends
  · rw [heq]
    exact ISOCache.extends_insert ..

theorem request_cachedISOStep : (cachedISOStep ops u clock c q).2.request = q.request := by
  cases q <;> rw [cachedISOStep] <;> try rfl
  all_goals split <;> rfl

end Step

/-! ### Objects match their hashes

Whether hashes are sound or not, an object in the cache is an image that was built for some request. -/

namespace IsoOps

variable (ops : IsoOps ρ ε) (built : ρ → Prop)

/-- The image `data` was built for a request with this key and this hash. -/
def Cached (u : Unicode) (k hash data : Bytes) : Prop :=
  ∃ r, built r ∧ ISOCache.key u (ops.key r) = k ∧ ops.hash r = hash ∧ ops.build r = .ok data

/-- The objects under the keys of the cache are images of requests. -/
def Good (u : Unicode) (c : ISOCache) : Prop :=
  ∀ k p, c.isos.lookup k = some p → ops.Cached built u k (c.heap p).configHash (c.heap p).data

/-- A call holds an image of a request with its key, or the image of its own request. -/
def Holds (u : Unicode) (c : ISOCache) : IsoPhase ρ ε → Prop
  | .comparing r p => p < c.next ∧ ops.Cached built u (ISOCache.key u (ops.key r))
    (c.heap p).configHash (c.heap p).data
  | .building r => built r
  | .stamping r data => built r ∧ ops.build r = .ok data
  | .storing r data _ => built r ∧ ops.build r = .ok data
  | .returned r (.ok p) => p < c.next ∧ ops.Cached built u (ISOCache.key u (ops.key r)) (ops.hash r) (c.heap p).data
  | .returned r (.error err) => ops.build r = .error err
  | _ => True

/-- None of the requests for which images were built has the key and the hash of the request, but another image. -/
def Tells (u : Unicode) (r : ρ) : Prop :=
  ∀ r', built r' → ISOCache.key u (ops.key r') = ISOCache.key u (ops.key r) → ops.hash r' = ops.hash r →
    ops.build r' = ops.build r

variable {ops built}

theorem Tells.build_eq {r : ρ} (hr : ops.Tells built u r) {data : Bytes}
    (h : ops.Cached built u (ISOCache.key u (ops.key r)) (ops.hash r) data) : ops.build r = .ok data := by
  obtain ⟨r', hbuilt, hkey, hhash, hbuild⟩ := h
  rw [← hr r' hbuilt hkey hhash, hbuild]

theorem Cached.imp {built' : ρ → Prop} (hb : ∀ r, built r → built' r) {k hash data : Bytes}
    (h : ops.Cached built u k hash data) : ops.Cached built' u k hash data := by
  obtain ⟨r, hr, h⟩ := h
  exact ⟨r, hb r hr, h⟩

theorem Good.imp {built' : ρ → Prop} (hb : ∀ r, built r → built' r) {c : ISOCache} (h : ops.Good built u c) :
    ops.Good built' u c := fun k p hp => (h k p hp).imp hb

theorem Holds.imp {built' : ρ → Prop} (hb : ∀ r, built r → built' r) {c : ISOCache} {q : IsoPhase ρ ε}
    (h : ops.Holds built u c q) : ops.Holds built' u c q := by
  cases q with
  | comparing r p => exact ⟨h.1, h.2.imp hb⟩
  | building r => exact hb r h
  | stamping r data => exact ⟨hb r h.1, h.2⟩
  | storing r data now => exact ⟨hb r h.1, h.2⟩
  | returned r res =>
    cases res with
    | error err => exact h
    | ok p => exact ⟨h.1, h.2.imp hb⟩
  | _ => trivial

theorem Good.shrinks {c c' : ISOCache} (h : ops.Good built u c) (hc : c.Shrinks c') : ops.Good built u c' := by
  intro k p hp
  have hold := hc.lookup k p hp
  have hlt := c.exist k p hold
  rw [hc.configHash p hlt, hc.data p hlt]
  exact h k p hold

theorem Good.insert {c : ISOCache} (h : ops.Good built u c) {r : ρ} {data : Bytes} (hr : built r)
    (hdata : ops.build r = .ok data) (now now' : Int) :
    ops.Good built u (c.insert (ISOCache.key u (ops.key r)) ⟨data, ops.hash r, now, now'⟩) := by
  intro k p hp
  rcases ISOCache.lookup_insert_eq_some.mp hp with ⟨rfl, rfl⟩ | ⟨-, hp⟩
  · rw [ISOCache.heap_insert]
    exact ⟨r, hr, rfl, rfl, hdata⟩
  · have hext := ISOCache.extends_insert c (ISOCache.key u (ops.key r)) ⟨data, ops.hash r, now, now'⟩
    have hlt := c.exist k p hp
    rw [hext.configHash p hlt, hext.data p hlt]
    exact h k p hp

theorem good_new (ttl : Int) : ops.Good built u (.new ttl) := by
  intro k p hp
  simp [ISOCache.new] at hp

theorem Holds.mono {c c' : ISOCache} (hc : c.Extends c') {q : IsoPhase ρ ε} (h : ops.Holds built u c q) :
    ops.Holds built u c' q := by
  cases q with
  | comparing r p => exact ⟨h.1.trans_le hc.next, by rw [hc.configHash p h.1, hc.data p h.1]; exact h.2⟩
  | returned r res =>
    cases res with
    | error err => exact h
    | ok p => exact ⟨h.1.trans_le hc.next, by rw [hc.data p h.1]; exact h.2⟩
  | _ => exact h

/-- The entries after a step. -/
theorem Good.step {c : ISOCache} (hc : ops.Good built u c) (clock : Int) {q : IsoPhase ρ ε}
    (hq : ops.Holds built u c q) : ops.Good built u (cachedISOStep ops u clock c q).1 := by
  rcases cachedISOStep_cases ops u clock c q with h | ⟨r, data, now, rfl, heq⟩
  · exact hc.shrinks h
  · rw [heq]
    exact hc.insert hq.1 hq.2 now now

/-- The phase after a step; if the call is then about to build an image, that counts as built. -/
theorem Holds.step {c : ISOCache} (hc : ops.Good built u c) (clock : Int) {q : IsoPhase ρ ε}
    (hq : ops.Holds built u c q) (hbuilt : ∀ r, (cachedISOStep ops u clock c q).2 = .building r → built r) :
    ops.Holds built u (cachedISOStep ops u clock c q).1 (cachedISOStep ops u clock c q).2 := by
  cases q with
  | getting r =>
    have hget := ISOCache.shrinks_get u c clock (ops.key r)
    have hfound := @ISOCache.lookup_of_get u c clock (ops.key r)
    rw [cachedISOStep] at hbuilt ⊢
    split at hbuilt
    · rename_i c' p heq
      rw [heq] at hget hfound
      -- `get` has changed the time of its last use only
      have hp := hfound rfl
      have hlt := c.exist _ p hp
      refine ⟨hlt.trans_le hget.next, ?_⟩
      rw [hget.configHash p hlt, hget.data p hlt]
      exact hc _ p hp
    · exact hbuilt r rfl
  | comparing r p =>
    rw [cachedISOStep] at hbuilt ⊢
    split at hbuilt
    · rename_i hhash
      rw [if_pos hhash]
      exact ⟨hq.1, by rw [← hhash]; exact hq.2⟩
    · rename_i hhash
      rw [if_neg hhash]
      exact hbuilt r rfl
  | building r =>
    rw [cachedISOStep]
    split
    · assumption
    · rename_i data hdata
      exact ⟨hq, hdata⟩
  | storing r data now =>
    refine ⟨Nat.lt_succ_self _, ?_⟩
    rw [cachedISOStep, ISOCache.set, ISOCache.heap_insert]
    exact ⟨r, hq.1, rfl, rfl, hq.2⟩
  | idle => trivial
  | stamping r data => exact hq
  | returned r res => exact hq

end IsoOps

/-- The cache and the calls of a state. -/
structure IsoState.Good (s : IsoState ρ ε) : Prop where
  entries : S.toIsoOps.Good (fun _ => True) u s.cache
  calls : ∀ i, S.toIsoOps.Holds (fun _ => True) u s.cache (s.calls i)

variable {S}

/-- With sound hashes an image with the key and the hash of a request is the request's image. -/
theorem IsoScheme.build_of_cached {built : ρ → Prop} {r : ρ} {data : Bytes}
    (h : S.toIsoOps.Cached built u (ISOCache.key u (S.key r)) (S.hash r) data) : S.build r = .ok data :=
  IsoOps.Tells.build_eq (fun r' _ => S.sound r' r) h

/-! ### Runs -/

theorem IsoState.Good.next {s : IsoState ρ ε} (hs : s.Good S) (e : IsoEvent ρ) : (isoNext S s e).Good S := by
  have hupdate : ∀ {i : Nat} {q : IsoPhase ρ ε} {c : ISOCache}, S.toIsoOps.Holds (fun _ => True) u c q →
      (∀ j, S.toIsoOps.Holds (fun _ => True) u c (s.calls j)) →
      ∀ j, S.toIsoOps.Holds (fun _ => True) u c (Function.update s.calls i q j) := fun hq hall =>
    (Function.forall_update_iff _ fun _ (q : IsoPhase ρ ε) => S.toIsoOps.Holds (fun _ => True) u _ q).mpr
      ⟨hq, fun j _ => hall j⟩
  cases e with
  | call i r =>
    rw [isoNext]
    split
    · exact ⟨hs.entries, hupdate trivial hs.calls⟩
    · exact ⟨hs.entries, hupdate trivial hs.calls⟩
    · exact hs
  | step i =>
    refine ⟨hs.entries.step s.clock (hs.calls i), ?_⟩
    exact hupdate ((hs.calls i).step hs.entries s.clock fun _ _ => trivial)
      fun j => (hs.calls j).mono (extends_cachedISOStep ..)
  | reap =>
    have hshrinks := ISOCache.shrinks_reap s.cache s.clock
    exact ⟨hs.entries.shrinks hshrinks, fun j => (hs.calls j).mono hshrinks.toExtends⟩
  | tick d => exact ⟨hs.entries, hs.calls⟩

theorem IsoState.good_init (ttl clock : Int) : (IsoState.init ttl clock : IsoState ρ ε).Good S :=
  ⟨IsoOps.good_new ttl, fun _ => trivial⟩

theorem IsoState.good_run (ttl clock : Int) (es : List (IsoEvent ρ)) :
    (runEvents (isoNext S) (IsoState.init ttl clock) es).Good S :=
  runEvents_invariant (fun _ e hs => hs.next e) (good_init ttl clock) es

/-- A call that has returned has returned what its build function produces. -/
theorem IsoState.Good.outcome {s : IsoState ρ ε} (hs : s.Good S) {i : Nat} {r : ρ} {res : Except ε Bytes}
    (h : s.outcome i = some (r, res)) : res = S.build r := by
  have hcall := hs.calls i
  unfold IsoState.outcome at h
  split at h
  · rename_i r' p heq
    rw [heq] at hcall
    obtain ⟨rfl, rfl⟩ := Prod.mk.inj (Option.some.inj h)
    exact (IsoScheme.build_of_cached hcall.2).symm
  · rename_i r' err heq
    rw [heq] at hcall
    obtain ⟨rfl, rfl⟩ := Prod.mk.inj (Option.some.inj h)
    exact Eq.symm hcall
  · cases h

/-! ### Calls return -/

/-- The steps that a call has left to take, at most. -/
def IsoPhase.left : IsoPhase ρ ε → Nat
  | .idle => 0
  | .getting _ => 5
  | .comparing _ _ => 4
  | .building _ => 3
  | .stamping _ _ => 2
  | .storing _ _ _ => 1
  | .returned _ _ => 0

def IsoEvent.isStep (i : Nat) : IsoEvent ρ → Bool
  | .step j => j == i
  | _ => false

theorem left_cachedISOStep (ops : IsoOps ρ ε) (u : Unicode) (clock : Int) (c : ISOCache) (q : IsoPhase ρ ε) :
    (cachedISOStep ops u clock c q).2.left ≤ q.left - 1 := by
  cases q <;> rw [cachedISOStep] <;> try exact Nat.zero_le _
  all_goals try split
  all_goals simp [IsoPhase.left]

/-- An event that does not start a call anew moves it on if it is a step of the call, and leaves it alone otherwise.
-/
theorem isoNext_calls {s : IsoState ρ ε} {e : IsoEvent ρ} {i : Nat} (he : ∀ r, e ≠ .call i r) :
    (isoNext S s e).calls i =
      if e.isStep i then (cachedISOStep S.toIsoOps u s.clock s.cache (s.calls i)).2 else s.calls i := by
  cases e with
  | call j r =>
    have hj : i ≠ j := by
      rintro rfl
      exact he r rfl
    rw [isoNext]
    split <;> simp [IsoEvent.isStep, Function.update_of_ne hj]
  | step j =>
    rcases eq_or_ne i j with rfl | hj
    · simp [isoNext, IsoEvent.isStep]
    · simp [isoNext, IsoEvent.isStep, hj.symm, Function.update_of_ne hj]
  | reap => rfl
  | tick d => rfl

/-- A call keeps its request and gets on with every step. -/
theorem request_left_run {i : Nat} {es : List (IsoEvent ρ)} (hes : ∀ r, IsoEvent.call i r ∉ es) (s : IsoState ρ ε) :
    ((runEvents (isoNext S) s es).calls i).request = (s.calls i).request ∧
      ((runEvents (isoNext S) s es).calls i).left ≤ (s.calls i).left - es.countP (·.isStep i) := by
  induction es generalizing s with
  | nil => exact ⟨rfl, le_rfl⟩
  | cons e es ih =>
    have he : ∀ r, e ≠ .call i r := fun r h => hes r (h ▸ List.mem_cons_self)
    obtain ⟨hreq, hleft⟩ := ih (fun r h => hes r (List.mem_cons_of_mem _ h)) (isoNext S s e)
    rw [isoNext_calls he] at hreq hleft
    rw [List.countP_cons]
    by_cases hstep : e.isStep i = true
    · rw [if_pos hstep] at hreq hleft
      rw [if_pos hstep]
      rw [request_cachedISOStep] at hreq
      have hless := left_cachedISOStep S.toIsoOps u s.clock s.cache (s.calls i)
      exact ⟨hreq, hleft.trans (by omega)⟩
    · rw [if_neg hstep] at hreq hleft
      rw [if_neg hstep]
      exact ⟨hreq, hleft⟩

theorem IsoPhase.eq_returned {q : IsoPhase ρ ε} {r : ρ} (hreq : q.request = some r) (hleft : q.left = 0) :
    ∃ res, q = .returned r res := by
  cases q with
  | returned r' res =>
    obtain rfl := Option.some.inj hreq
    exact ⟨res, rfl⟩
  | idle => cases hreq
  | _ => cases hleft

theorem IsoState.outcome_of_left {s : IsoState ρ ε} {i : Nat} {r : ρ} (hreq : (s.calls i).request = some r)
    (hleft : (s.calls i).left = 0) : ∃ res, s.outcome i = some (r, res) := by
  obtain ⟨res, hres⟩ := IsoPhase.eq_returned hreq hleft
  unfold IsoState.outcome
  rw [hres]
  cases res with
  | ok p => exact ⟨_, rfl⟩
  | error err => exact ⟨_, rfl⟩

/-- Five steps of its own are enough for a call to return. -/
theorem IsoState.Good.outcome_run {s : IsoState ρ ε} (hs : s.Good S) {i : Nat} {r : ρ}
    (hreq : (s.calls i).request = some r) {es : List (IsoEvent ρ)} (hes : ∀ r', IsoEvent.call i r' ∉ es)
    (hsteps : 5 ≤ es.countP (·.isStep i)) : (runEvents (isoNext S) s es).outcome i = some (r, S.build r) := by
  obtain ⟨hreq', hleft⟩ := request_left_run (S := S) hes s
  have hmax : (s.calls i).left ≤ 5 := by
    cases s.calls i <;> simp [IsoPhase.left]
  obtain ⟨res, hres⟩ := IsoState.outcome_of_left (hreq'.trans hreq) (by omega)
  have hgood : (runEvents (isoNext S) s es).Good S := runEvents_invariant (fun _ e h => h.next e) hs es
  rw [hres, hgood.outcome hres]

/-- A step of a call whose build fails adds or replaces no entry. -/
theorem IsoState.Good.shrinks_of_error {s : IsoState ρ ε} (hs : s.Good S) {i : Nat} {r : ρ} {err : ε}
    (hreq : (s.calls i).request = some r) (hbuild : S.build r = .error err) :
    s.cache.Shrinks (isoNext S s (.step i)).cache := by
  rcases cachedISOStep_cases S.toIsoOps u s.clock s.cache (s.calls i) with h | ⟨r', data, now, hq, -⟩
  · exact h
  · have hcall := hs.calls i
    rw [hq] at hreq hcall
    obtain rfl := Option.some.inj hreq
    exact absurd (hbuild.symm.trans hcall.2) (by simp)

/-- In every interleaving of calls, sweeps and the clock, a call that has returned has returned what its own build
function produces, and the data is still that now; five steps of its own are enough for a call to return.  A call
whose build fails returns the error, and its steps add or replace no entry.  What a call returns does not depend on
the other calls: in any two runs two calls with the same request return the same. -/
theorem cachedISO_own_build (S : IsoScheme u ρ ε) (ttl clock : Int) (es : List (IsoEvent ρ)) :
    let s := runEvents (isoNext S) (IsoState.init ttl clock) es
    (∀ i r data, s.outcome i = some (r, .ok data) → S.build r = .ok data) ∧
    (∀ i r es', (s.calls i).request = some r → (∀ r', IsoEvent.call i r' ∉ es') → 5 ≤ es'.countP (·.isStep i) →
      (runEvents (isoNext S) s es').outcome i = some (r, S.build r)) ∧
    (∀ i r err, (s.calls i).request = some r → S.build r = .error err →
      (∀ res, s.outcome i = some (r, res) → res = .error err) ∧ s.cache.Shrinks (isoNext S s (.step i)).cache) ∧
    ∀ ttl' clock' es' i j r res res', s.outcome i = some (r, res) →
      (runEvents (isoNext S) (IsoState.init ttl' clock') es').outcome j = some (r, res') → res = res' := by
  intro s
  have hs : s.Good S := IsoState.good_run ttl clock es
  refine ⟨?_, ?_, ?_, ?_⟩
  · intro i r data h
    exact (hs.outcome h).symm
  · intro i r es' hreq hes hsteps
    exact hs.outcome_run hreq hes hsteps
  · intro i r err hreq hbuild
    exact ⟨fun res h => (hs.outcome h).trans hbuild, hs.shrinks_of_error hreq hbuild⟩
  · intro ttl' clock' es' i j r res res' h h'
    exact (hs.outcome h).trans ((IsoState.good_run ttl' clock' es').outcome h').symm

end Calls

end MaasBoot
