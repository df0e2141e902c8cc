import MaasBoot.NodeStoreRuns

/-!
# Old and new versions of the nodes file

`Reload` reads the file before it takes a lock, and installs what it has read whatever others have installed
meanwhile.  So a slow call may install an old version over a newer one.  If no call installs between the moment
another one reads the file and the moment that one installs, the version that is served only grows.
-/

namespace MaasBoot

variable (env : StoreEnv)

/-- The file gets the versions `v 1`, `v 2`, ... one after another. -/
def Publishes (v : Nat → Bytes) (s : StoreState) (e : StoreEvent) : Prop :=
  ∀ f, e = .file f → f = .content (v s.held.length)

/-- When a call installs, no other has installed since it read the file. -/
def Undisturbed (s : StoreState) (e : StoreEvent) : Prop :=
  ∀ i b m, e = .step i → s.calls i = .installing b m → s.readAt i = s.installs

/-- The content that a call has read and may still install. -/
def Phase.content : Phase → Option Bytes
  | .checking b => some b
  | .parsing b => some b
  | .installing b _ => some b
  | _ => none

/-- The version `j` is not older than the one that is served. -/
def NotOlder (v : Nat → Bytes) (s : StoreState) (j : Nat) : Prop := ∀ k, s.installed = some (v k) → k ≤ j

structure Versioned (v : Nat → Bytes) (s : StoreState) : Prop where
  file : ∃ k, s.held.length = k + 1 ∧ s.file = .content (v k)
  installed : ∀ b, s.installed = some b → ∃ k < s.held.length, b = v k
  readAt : ∀ i, s.readAt i ≤ s.installs
  calls : ∀ i b, (s.calls i).content = some b → ∃ j < s.held.length, b = v j ∧
    (s.readAt i = s.installs → NotOlder v s j)

/-- The step of a call that has read the file keeps its content or drops it. -/
theorem content_reloadStep {file : FileState} {s : NodeStore} {p : Phase} (hp : p ≠ .start) {b : Bytes}
    (h : (reloadStep env file s p).2.content = some b) : p.content = some b := by
  cases p with
  | start => exact absurd rfl hp
  | checking c =>
    rw [reloadStep] at h
    split at h
    · cases h
    · exact h
  | parsing c =>
    rw [reloadStep] at h
    split at h
    · cases h
    · exact h
  | _ => cases h

section Step

variable {v : Nat → Bytes} {s : StoreState} (hs : Versioned v s)
include hs

/-- The current version is not older than the one that is served. -/
theorem Versioned.notOlder (hv : Function.Injective v) {j : Nat} (hj : s.held.length = j + 1) : NotOlder v s j := by
  intro k hk
  obtain ⟨k', hk', heq⟩ := hs.installed _ hk
  rw [hv heq]
  omega

/-- The file gets its next version. -/
theorem Versioned.publish : Versioned v (storeNext env s (.file (.content (v s.held.length)))) := by
  have hlen : (storeNext env s (.file (.content (v s.held.length)))).held.length = s.held.length + 1 := by
    simp [storeNext, FileState.contents]
  refine ⟨⟨s.held.length, hlen, rfl⟩, fun b hb => ?_, hs.readAt, fun i b hb => ?_⟩
  · obtain ⟨k, hk, rfl⟩ := hs.installed b hb
    exact ⟨k, by omega, rfl⟩
  · obtain ⟨j, hj, rfl, hold⟩ := hs.calls i b hb
    exact ⟨j, by omega, rfl, hold⟩

/-- A call starts. -/
theorem Versioned.call (i : Nat) : Versioned v (storeNext env s (.call i)) := by
  have hcalls : ∀ j b, (Function.update s.calls i .start j).content = some b →
      ∃ k < s.held.length, b = v k ∧ (s.readAt j = s.installs → NotOlder v s k) := by
    refine (Function.forall_update_iff s.calls fun j q => ∀ b, Phase.content q = some b →
      ∃ k < s.held.length, b = v k ∧ (s.readAt j = s.installs → NotOlder v s k)).mpr ⟨?_, fun j _ => hs.calls j⟩
    intro b hb
    cases hb
  rw [storeNext]
  split
  · exact ⟨hs.file, hs.installed, hs.readAt, hcalls⟩
  · exact ⟨hs.file, hs.installed, hs.readAt, hcalls⟩
  · exact hs

/-- A step of a call keeps the file and its versions, so what it records and the contents of the calls are left. -/
theorem Versioned.of_record {i : Nat} (hinst : ∀ b, (s.record i).installed = some b → ∃ k < s.held.length, b = v k)
    (hread : ∀ j, (s.record i).readAt j ≤ (s.record i).installs)
    (hcalls : ∀ j b, ((storeNext env s (.step i)).calls j).content = some b →
      ∃ k < s.held.length, b = v k ∧ ((s.record i).readAt j = (s.record i).installs → NotOlder v (s.record i) k)) :
    Versioned v (storeNext env s (.step i)) := by
  obtain ⟨k, hlen, hfile⟩ := hs.file
  refine ⟨⟨k, by rw [storeNext_held, hlen], (record_file s i).trans hfile⟩, fun b hb => ?_, hread, fun j b hb => ?_⟩
  · rw [storeNext_held]
    exact hinst b hb
  · rw [storeNext_held]
    exact hcalls j b hb

/-- A call reads the file. -/
theorem Versioned.read (hv : Function.Injective v) {i : Nat} (hcall : s.calls i = .start) :
    Versioned v (storeNext env s (.step i)) := by
  obtain ⟨k, hlen, hfile⟩ := hs.file
  have hrec : s.record i = { s with readAt := Function.update s.readAt i s.installs } := by
    rw [StoreState.record, hcall]
  refine hs.of_record env ?_ ?_ ?_ <;> simp only [hrec]
  · exact hs.installed
  · intro j
    by_cases hj : j = i
    · rw [hj, Function.update_self]
    · rw [Function.update_of_ne hj]
      exact hs.readAt j
  · intro j b hb
    by_cases hj : j = i
    · subst hj
      rw [storeNext_calls_self, hcall, hfile] at hb
      by_cases hpath : env.path = []
      · simp only [reloadStep, if_pos hpath] at hb
        cases hb
      · simp only [reloadStep, if_neg hpath] at hb
        obtain rfl : v k = b := Option.some.inj hb
        exact ⟨k, by omega, rfl, fun _ => hs.notOlder hv hlen⟩
    · rw [storeNext_calls_of_ne env s hj] at hb
      rw [Function.update_of_ne hj]
      exact hs.calls j b hb

/-- A call installs what it has read. -/
theorem Versioned.install {i : Nat} {b : Bytes} {m : NodeMap} (hcall : s.calls i = .installing b m) :
    Versioned v (storeNext env s (.step i)) := by
  have hrec : s.record i = { s with installed := some b, installs := s.installs + 1 } := by
    rw [StoreState.record, hcall]
  refine hs.of_record env ?_ ?_ ?_ <;> simp only [hrec]
  · rintro c ⟨⟩
    obtain ⟨j, hj, hbj, -⟩ := hs.calls i b (by rw [hcall]; rfl)
    exact ⟨j, hj, hbj⟩
  · exact fun j => Nat.le_succ_of_le (hs.readAt j)
  · intro j c hc
    by_cases hj : j = i
    · subst hj
      rw [storeNext_calls_self, hcall] at hc
      cases hc
    · rw [storeNext_calls_of_ne env s hj] at hc
      obtain ⟨k, hk, rfl, -⟩ := hs.calls j c hc
      -- what the others have read is old from now on
      refine ⟨k, hk, rfl, fun h => ?_⟩
      have := hs.readAt j
      omega

/-- Another step of a call. -/
theorem Versioned.other {i : Nat} (hstart : s.calls i ≠ .start) (hno : ∀ b m, s.calls i ≠ .installing b m) :
    Versioned v (storeNext env s (.step i)) := by
  have hrec : s.record i = s := by
    unfold StoreState.record
    split
    · rename_i h
      exact absurd h hstart
    · rename_i b m h
      exact absurd h (hno b m)
    · rfl
  refine hs.of_record env ?_ ?_ ?_ <;> rw [hrec]
  · exact hs.installed
  · exact hs.readAt
  · intro j c hc
    -- a call that does not read the file keeps the content it has read
    refine hs.calls j c ?_
    by_cases hj : j = i
    · subst hj
      rw [storeNext_calls_self] at hc
      exact content_reloadStep env hstart hc
    · rwa [storeNext_calls_of_ne env s hj] at hc

end Step

theorem Versioned.next {v : Nat → Bytes} (hv : Function.Injective v) {s : StoreState} (hs : Versioned v s)
    {e : StoreEvent} (he : Publishes v s e) : Versioned v (storeNext env s e) := by
  cases e with
  | file f =>
    rw [he f rfl]
    exact hs.publish env
  | call i => exact hs.call env i
  | step i =>
    by_cases hstart : s.calls i = .start
    · exact hs.read env hv hstart
    · by_cases hinst : ∃ b m, s.calls i = .installing b m
      · obtain ⟨b, m, hinst⟩ := hinst
        exact hs.install env hinst
      · exact hs.other env hstart fun b m h => hinst ⟨b, m, h⟩

theorem versioned_init (v : Nat → Bytes) : Versioned v (.init (.content (v 0))) :=
  ⟨⟨0, rfl, rfl⟩, nofun, fun _ => Nat.le_refl _, nofun⟩

/-- The version served in `t` is not older than the one in `s`. -/
def Newer (v : Nat → Bytes) (s t : StoreState) : Prop :=
  ∀ k, s.installed = some (v k) → ∃ j, k ≤ j ∧ t.installed = some (v j)

theorem Newer.trans {v : Nat → Bytes} {s t w : StoreState} (hst : Newer v s t) (htw : Newer v t w) : Newer v s w := by
  intro k hk
  obtain ⟨j, hkj, hj⟩ := hst k hk
  obtain ⟨l, hjl, hl⟩ := htw j hj
  exact ⟨l, Nat.le_trans hkj hjl, hl⟩

/-- A step that is not disturbed does not lead back to an older version. -/
theorem Versioned.newer {v : Nat → Bytes} {s : StoreState} (hs : Versioned v s) {e : StoreEvent}
    (he : Undisturbed s e) : Newer v s (storeNext env s e) := by
  have hsame : (storeNext env s e).installed = s.installed → Newer v s (storeNext env s e) := fun h k hk =>
    ⟨k, Nat.le_refl k, h.trans hk⟩
  cases e with
  | file f => exact hsame rfl
  | call i =>
    refine hsame ?_
    rw [storeNext]
    split <;> rfl
  | step i =>
    by_cases hinst : ∃ b m, s.calls i = .installing b m
    · obtain ⟨b, m, hinst⟩ := hinst
      obtain ⟨j, -, rfl, hold⟩ := hs.calls i b (by rw [hinst]; rfl)
      intro k hk
      refine ⟨j, hold (he i _ m rfl hinst) k hk, ?_⟩
      simp only [storeNext, StoreState.record, hinst]
    · exact hsame (storeNext_installed env fun b m h => hinst ⟨b, m, h⟩).1

/-- In runs in which no call is disturbed, the version that is served never gets older, and a node that is in all
versions from some one on is found once that version was installed. -/
theorem served_version_grows (v : Nat → Bytes) (hv : Function.Injective v) (es es' : List StoreEvent)
    (s t : StoreState) (hrun : Along (storeNext env) (fun s e => Publishes v s e ∧ Undisturbed s e)
    (.init (.content (v 0))) (es ++ es'))
    (hs : s = runEvents (storeNext env) (.init (.content (v 0))) es) (ht : t = runEvents (storeNext env) s es')
    (k : Nat) (hk : s.installed = some (v k)) :
    (∃ j, k ≤ j ∧ t.installed = some (v j) ∧ parseNodes env (v j) = .ok t.store.nodes) ∧
    ∀ mac, (∀ j m, k ≤ j → parseNodes env (v j) = .ok m → (m.lookup (normalizeKey env.unicode mac)).isSome) →
      (t.store.get env mac).isSome := by
  -- up to `s` only versions are read, and from there on nothing older is installed
  have hversioned : Versioned v s := hs ▸ hrun.left.invariant (Versioned v) (fun s e he h => h.next env hv he.1)
    (versioned_init v)
  have hright := hrun.right
  rw [← hs] at hright
  have hnewer : Newer v s t := ht ▸ hright.relation (Versioned v) (Newer v) (fun s k hk => ⟨k, Nat.le_refl k, hk⟩)
    (fun _ _ _ => Newer.trans) (fun s e he h => h.next env hv he.1) (fun s e he h => h.newer env he.2) hversioned
  obtain ⟨j, hkj, hj⟩ := hnewer k hk
  have hparse : parseNodes env (v j) = .ok t.store.nodes := by
    have hgood : t.Good env := by
      rw [ht, hs, ← runEvents_append]
      exact StoreState.good_run env (.content (v 0)) (es ++ es')
    have h := hgood.serves
    unfold Serves at h
    rw [hj] at h
    exact h.2.2.2
  exact ⟨⟨j, hkj, hj, hparse⟩, fun mac hmac => hmac j _ hkj hparse⟩

/-! ### A slow call -/

/-- A file without nodes, and then the same node again and again with one more space behind it. -/
def sampleVersions : Nat → Bytes
  | 0 => emptyDoc
  | k + 1 => oneNodeDoc ++ List.replicate k 32

theorem sampleVersions_injective : Function.Injective sampleVersions := by
  have hempty : emptyDoc.length = 24 := by decide
  have hone : oneNodeDoc.length = 62 := by decide
  intro k l h
  have hlen := congrArg List.length h
  cases k <;> cases l <;> simp only [sampleVersions, List.length_append, List.length_replicate, hempty,
    hone] at hlen <;> omega

theorem served_version_grows_sample :
    ∃ j, 1 ≤ j ∧
      (runEvents (storeNext sampleStoreEnv)
        (runEvents (storeNext sampleStoreEnv) (.init (.content (sampleVersions 0)))
        [.call 0, .step 0, .step 0, .step 0, .step 0, .file (.content (sampleVersions 1)), .call 1, .step 1, .step 1,
          .step 1, .step 1])
        [.file (.content (sampleVersions 2)), .call 0, .step 0, .step 0]).installed = some (sampleVersions j) := by
  have hrun : Along (storeNext sampleStoreEnv) (fun s e => Publishes sampleVersions s e ∧ Undisturbed s e)
      (.init (.content (sampleVersions 0)))
      ([.call 0, .step 0, .step 0, .step 0, .step 0, .file (.content (sampleVersions 1)), .call 1, .step 1, .step 1,
          .step 1, .step 1] ++
        [.file (.content (sampleVersions 2)), .call 0, .step 0, .step 0]) := by
    simp only [Along, List.cons_append, List.nil_append]
    constructorm* _ ∧ _
    all_goals first | exact trivial | (rintro i b m ⟨⟩ h <;> first | rfl | cases h) | (rintro f ⟨⟩ <;> rfl)
  obtain ⟨⟨j, hj, ht, -⟩, -⟩ := served_version_grows sampleStoreEnv sampleVersions sampleVersions_injective _ _ _ _
    hrun rfl rfl 1 rfl
  exact ⟨j, hj, ht⟩

/-- The first call reads the file without nodes and is overtaken by the second one, which installs the node. -/
def overtaken : List StoreEvent :=
  [.call 0, .step 0, .file (.content (sampleVersions 1)), .call 1, .step 1, .step 1, .step 1, .step 1]

/-- When the first call goes on, the store is back at the old version and the node is gone. -/
theorem served_version_shrinks :
    ¬ ∀ (env : StoreEnv) (v : Nat → Bytes), Function.Injective v → ∀ (es es' : List StoreEvent) (k : Nat),
      Along (storeNext env) (Publishes v) (.init (.content (v 0))) (es ++ es') →
      (runEvents (storeNext env) (.init (.content (v 0))) es).installed = some (v k) →
      (∃ j, k ≤ j ∧ (runEvents (storeNext env) (.init (.content (v 0))) (es ++ es')).installed = some (v j)) := by
  intro h
  obtain ⟨j, hj, hinst⟩ := h sampleStoreEnv sampleVersions sampleVersions_injective overtaken
    [.step 0, .step 0, .step 0] 1 (by
      simp only [Along, overtaken, List.cons_append, List.nil_append]
      constructorm* _ ∧ _
      all_goals first | exact trivial | (rintro f ⟨⟩ <;> rfl))
    rfl
  obtain rfl : 0 = j := sampleVersions_injective (Option.some.inj hinst)
  omega

end MaasBoot
