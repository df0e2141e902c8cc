import MaasBoot.NodeStore

/-!
# The last good nodes are kept

In every interleaving of calls of `Reload` and changes of the file the store serves the nodes of a content that the
file had at some time, together with its hash.  A call changes what is served only in its last step, by which it
reports a change; a call that fails does not get there.
-/

namespace MaasBoot

variable (env : StoreEnv)

/-- What is served: the nodes, the hash of the content they come from, and whether there is one. -/
def NodeStore.served (s : NodeStore) : NodeMap × Vector UInt8 32 × Bool := (s.nodes, s.hash, s.loaded)

/-! ### One step -/

@[simp]
theorem storeNext_calls_of_ne (s : StoreState) {i j : Nat} (h : j ≠ i) :
    (storeNext env s (.step i)).calls j = s.calls j := by
  simp [storeNext, Function.update_of_ne h]

@[simp]
theorem storeNext_calls_self (s : StoreState) (i : Nat) :
    (storeNext env s (.step i)).calls i = (reloadStep env s.file s.store (s.calls i)).2 := by
  simp [storeNext]

@[simp]
theorem storeNext_store (s : StoreState) (i : Nat) :
    (storeNext env s (.step i)).store = (reloadStep env s.file s.store (s.calls i)).1 := rfl

@[simp]
theorem record_held (s : StoreState) (i : Nat) : (s.record i).held = s.held := by
  unfold StoreState.record
  split <;> rfl

@[simp]
theorem storeNext_held (s : StoreState) (i : Nat) : (storeNext env s (.step i)).held = s.held := record_held s i

@[simp]
theorem record_file (s : StoreState) (i : Nat) : (s.record i).file = s.file := by
  unfold StoreState.record
  split <;> rfl

/-- The content installed last stays the same without an installation. -/
theorem storeNext_installed {s : StoreState} {i : Nat} (h : ∀ b m, s.calls i ≠ .installing b m) :
    (storeNext env s (.step i)).installed = s.installed ∧ (storeNext env s (.step i)).installs = s.installs := by
  simp only [storeNext, StoreState.record]
  split
  · exact ⟨rfl, rfl⟩
  · rename_i b m heq
    exact absurd heq (h b m)
  · exact ⟨rfl, rfl⟩

/-- A step that is no installation leaves what is served as it is. -/
theorem served_reloadStep (file : FileState) (s : NodeStore) {p : Phase} (h : ∀ b m, p ≠ .installing b m) :
    (reloadStep env file s p).1.served = s.served := by
  cases p with
  | installing b m => exact absurd rfl (h b m)
  | start =>
    by_cases hpath : env.path = []
    · simp only [reloadStep, if_pos hpath]
    · cases file <;> simp only [reloadStep, if_neg hpath]
  | checking b =>
    rw [reloadStep]
    split <;> rfl
  | parsing b =>
    rw [reloadStep]
    split <;> rfl
  | _ => rfl

/-! ### The invariant -/

/-- A call holds contents of the file, and nodes that were parsed from them. -/
def Phase.Holds (held : List Bytes) : Phase → Prop
  | .checking b => b ∈ held
  | .parsing b => b ∈ held
  | .installing b m => b ∈ held ∧ parseNodes env b = .ok m
  | _ => True

/-- The nodes served are those of the content installed last. -/
def Serves (s : StoreState) : Prop :=
  match s.installed with
  | none => s.store.loaded = false ∧ s.store.nodes = ∅
  | some b => b ∈ s.held ∧ s.store.loaded = true ∧ s.store.hash = env.sha256 b ∧ parseNodes env b = .ok s.store.nodes

structure StoreState.Good (s : StoreState) : Prop where
  serves : Serves env s
  file : ∀ b ∈ s.file.contents, b ∈ s.held
  calls : ∀ i, (s.calls i).Holds env s.held

theorem Phase.Holds.mono {held held' : List Bytes} (h : ∀ b ∈ held, b ∈ held') {p : Phase} (hp : p.Holds env held) :
    p.Holds env held' := by
  cases p with
  | checking b => exact h b hp
  | parsing b => exact h b hp
  | installing b m => exact ⟨h b hp.1, hp.2⟩
  | _ => trivial

/-- The next phase of a call. -/
theorem Phase.Holds.reloadStep {file : FileState} {held : List Bytes} (hfile : ∀ b ∈ file.contents, b ∈ held)
    (s : NodeStore) {p : Phase} (hp : p.Holds env held) : (reloadStep env file s p).2.Holds env held := by
  cases p with
  | start =>
    by_cases hpath : env.path = []
    · simp only [MaasBoot.reloadStep, if_pos hpath, Phase.Holds]
    · cases file with
      | content b =>
        simp only [MaasBoot.reloadStep, if_neg hpath]
        exact hfile b (List.mem_singleton.mpr rfl)
      | missing => simp only [MaasBoot.reloadStep, if_neg hpath, Phase.Holds]
      | unreadable err => simp only [MaasBoot.reloadStep, if_neg hpath, Phase.Holds]
  | checking b =>
    rw [MaasBoot.reloadStep]
    split
    · trivial
    · exact hp
  | parsing b =>
    rw [MaasBoot.reloadStep]
    split
    · trivial
    · rename_i m hm
      exact ⟨hp, hm⟩
  | installing b m => trivial
  | _ => trivial

/-- What is served after a step of a call. -/
theorem Serves.step {s : StoreState} (hs : Serves env s) {i : Nat} (hcall : (s.calls i).Holds env s.held) :
    Serves env (storeNext env s (.step i)) := by
  by_cases hphase : ∃ b m, s.calls i = .installing b m
  · obtain ⟨b, m, hphase⟩ := hphase
    rw [hphase] at hcall
    have hinst : (storeNext env s (.step i)).installed = some b := by
      simp [storeNext, StoreState.record, hphase]
    unfold Serves
    rw [hinst, storeNext_store, hphase, reloadStep]
    exact ⟨by rw [storeNext_held]; exact hcall.1, rfl, rfl, hcall.2⟩
  · have hno : ∀ b m, s.calls i ≠ .installing b m := fun b m h => hphase ⟨b, m, h⟩
    have hserved := served_reloadStep env s.file s.store hno
    simp only [NodeStore.served, Prod.mk.injEq] at hserved
    unfold Serves at hs ⊢
    rw [(storeNext_installed env hno).1, storeNext_store, storeNext_held, hserved.1, hserved.2.1, hserved.2.2]
    exact hs

theorem StoreState.Good.next {s : StoreState} (hs : s.Good env) (e : StoreEvent) : (storeNext env s e).Good env := by
  cases e with
  | file f =>
    have hmono : ∀ b ∈ s.held, b ∈ s.held ++ f.contents := fun b hb => List.mem_append_left _ hb
    refine ⟨?_, fun b hb => List.mem_append_right _ hb, fun i => (hs.calls i).mono env hmono⟩
    have h := hs.serves
    unfold Serves at h ⊢
    simp only [storeNext]
    cases hi : s.installed with
    | none =>
      rw [hi] at h
      exact h
    | some b =>
      rw [hi] at h
      exact ⟨hmono b h.1, h.2⟩
  | call i =>
    have hcalls : ∀ j, (Function.update s.calls i .start j).Holds env s.held :=
      (Function.forall_update_iff _ fun _ (q : Phase) => q.Holds env s.held).mpr ⟨trivial, fun j _ => hs.calls j⟩
    rw [storeNext]
    split
    · exact ⟨hs.serves, hs.file, hcalls⟩
    · exact ⟨hs.serves, hs.file, hcalls⟩
    · exact hs
  | step i =>
    refine ⟨hs.serves.step env (hs.calls i), ?_, fun j => ?_⟩
    · simpa [storeNext] using hs.file
    · rw [storeNext_held]
      by_cases hj : j = i
      · subst hj
        rw [storeNext_calls_self]
        exact (hs.calls j).reloadStep env hs.file s.store
      · rw [storeNext_calls_of_ne env s hj]
        exact hs.calls j

theorem StoreState.good_init (file : FileState) : (StoreState.init file).Good env :=
  ⟨⟨rfl, rfl⟩, fun _ hb => hb, fun _ => trivial⟩

/-- Every state that is reached is good. -/
theorem StoreState.good_run (file : FileState) (es : List StoreEvent) :
    (runEvents (storeNext env) (.init file) es).Good env :=
  runEvents_invariant (fun _ e hs => hs.next env e) (good_init env file) es

/-! ### Calls that fail -/

/-- No content, or one that cannot be parsed. -/
def FileState.Bad : FileState → Prop
  | .content b => ∀ m, parseNodes env b ≠ .ok m
  | .missing => True
  | .unreadable _ => True

/-- The call has read such a file, or has returned without a change. -/
def Phase.Fails : Phase → Prop
  | .counting => True
  | .noting _ _ => True
  | .checking b => ∀ m, parseNodes env b ≠ .ok m
  | .parsing b => ∀ m, parseNodes env b ≠ .ok m
  | .done changed _ => changed = false
  | _ => False

theorem Phase.Fails.ne_installing {p : Phase} (hp : p.Fails env) : ∀ b m, p ≠ .installing b m := by
  rintro b m rfl
  exact hp

theorem Phase.Fails.reloadStep (file : FileState) (s : NodeStore) {p : Phase} (hp : p.Fails env) :
    (reloadStep env file s p).2.Fails env := by
  cases p with
  | counting => trivial
  | noting msg err => rfl
  | checking b =>
    rw [MaasBoot.reloadStep]
    split
    · rfl
    · exact hp
  | parsing b =>
    rw [MaasBoot.reloadStep]
    split
    · trivial
    · rename_i m hm
      exact absurd hm (hp m)
  | done changed err => exact hp
  | _ => exact hp.elim

/-- A call that reads a bad file fails. -/
theorem FileState.Bad.reloadStep {file : FileState} (hfile : file.Bad env) (s : NodeStore) :
    (reloadStep env file s .start).2.Fails env := by
  by_cases hpath : env.path = []
  · simp only [MaasBoot.reloadStep, if_pos hpath, Phase.Fails]
  · cases file with
    | content b =>
      simp only [MaasBoot.reloadStep, if_neg hpath]
      exact hfile
    | missing => simp only [MaasBoot.reloadStep, if_neg hpath, Phase.Fails]
    | unreadable err => simp only [MaasBoot.reloadStep, if_neg hpath, Phase.Fails]

/-- Only its own events move a call. -/
theorem storeNext_calls_of_other (s : StoreState) {i : Nat} {e : StoreEvent} (hcall : e ≠ .call i)
    (hstep : e ≠ .step i) :
    (storeNext env s e).calls i = s.calls i := by
  cases e with
  | file f => rfl
  | call j =>
    have hj : i ≠ j := fun h => hcall (by rw [h])
    rw [storeNext]
    split
    · exact Function.update_of_ne hj ..
    · exact Function.update_of_ne hj ..
    · rfl
  | step j => exact storeNext_calls_of_ne env s fun h => hstep (by rw [h])

/-- Whatever happens meanwhile, a call that has read a bad file fails. -/
theorem Phase.Fails.run {s : StoreState} {i : Nat} (hs : (s.calls i).Fails env) {es : List StoreEvent}
    (hes : Along (storeNext env) (fun _ e => e ≠ .call i) s es) :
    ((runEvents (storeNext env) s es).calls i).Fails env := by
  refine hes.invariant (fun s => (s.calls i).Fails env) (fun s e he hs => ?_) hs
  by_cases hstep : e = .step i
  · rw [hstep, storeNext_calls_self]
    exact hs.reloadStep env s.file s.store
  · rw [storeNext_calls_of_other env s he hstep]
    exact hs

/-! ### A call without others -/

/-- The file is read only at the start. -/
theorem reloadStep_file (f f' : FileState) (s : NodeStore) {p : Phase} (hp : p ≠ .start) :
    reloadStep env f s p = reloadStep env f' s p := by
  cases p with
  | start => exact absurd rfl hp
  | _ => rfl

theorem reloadStep_ne_start (f : FileState) (s : NodeStore) (p : Phase) : (reloadStep env f s p).2 ≠ .start := by
  cases p with
  | start =>
    by_cases hpath : env.path = []
    · simp only [reloadStep, if_pos hpath, ne_eq, reduceCtorEq, not_false_eq_true]
    · cases f <;> simp only [reloadStep, if_neg hpath, ne_eq, reduceCtorEq, not_false_eq_true]
  | checking b =>
    rw [reloadStep]
    split <;> simp
  | parsing b =>
    rw [reloadStep]
    split <;> simp
  | _ => simp [reloadStep]

/-- The steps of a call that has read the file, one after another. -/
def reloadSteps (p : NodeStore × Phase) (k : Nat) : NodeStore × Phase :=
  (fun p => reloadStep env .missing p.1 p.2)^[k] p

/-- The number of steps among some events. -/
def stepCount (es : List StoreEvent) : Nat := es.countP fun e => match e with | .step _ => true | _ => false

/-- Without other calls the steps of a call follow each other, whatever happens to the file. -/
theorem solo_run {i : Nat} {es : List StoreEvent} (hes : ∀ e ∈ es, e = .step i ∨ ∃ f, e = .file f) {s : StoreState}
    (hs : s.calls i ≠ .start) :
    ((runEvents (storeNext env) s es).store, (runEvents (storeNext env) s es).calls i) =
      reloadSteps env (s.store, s.calls i) (stepCount es) := by
  induction es generalizing s with
  | nil => rfl
  | cons e es ih =>
    rw [List.forall_mem_cons] at hes
    rw [show runEvents (storeNext env) s (e :: es) = runEvents (storeNext env) (storeNext env s e) es from rfl]
    rcases hes.1 with rfl | ⟨f, rfl⟩
    · rw [ih hes.2 (by rw [storeNext_calls_self]; exact reloadStep_ne_start env _ _ _), storeNext_calls_self,
        storeNext_store, reloadStep_file env s.file .missing s.store hs]
      unfold reloadSteps stepCount
      rw [List.countP_cons_of_pos rfl, Function.iterate_succ_apply]
    · rw [ih hes.2 (s := storeNext env s (.file f)) hs]
      unfold stepCount
      rw [List.countP_cons_of_neg (by simp)]
      rfl

/-- The steps of a call that has read a good content. -/
theorem reloadSteps_checking (s : NodeStore) {c : Bytes} {m : NodeMap} (hm : parseNodes env c = .ok m) {k : Nat}
    (hk : 3 ≤ k) :
    reloadSteps env (s, .checking c) k =
      if s.loaded ∧ env.sha256 c = s.hash then (s, .done false none)
      else ({ nodes := m, hash := env.sha256 c, loaded := true, lastErr := [] }, .done true none) := by
  have hdone : ∀ (s : NodeStore) changed err, (fun p => reloadStep env .missing p.1 p.2) (s, .done changed err) =
      (s, .done changed err) := fun _ _ _ => rfl
  obtain ⟨k, rfl⟩ := Nat.exists_eq_add_of_le' hk
  unfold reloadSteps
  rw [Function.iterate_add_apply]
  by_cases hsame : s.loaded ∧ env.sha256 c = s.hash
  · rw [if_pos hsame]
    have hthree : (fun p => reloadStep env .missing p.1 p.2)^[3] (s, .checking c) = (s, .done false none) := by
      simp only [Function.iterate_succ_apply, Function.iterate_zero_apply, reloadStep, if_pos hsame]
    rw [hthree]
    exact Function.iterate_fixed (hdone _ _ _) k
  · rw [if_neg hsame]
    have hthree : (fun p => reloadStep env .missing p.1 p.2)^[3] (s, .checking c) =
        ({ nodes := m, hash := env.sha256 c, loaded := true, lastErr := [] }, .done true none) := by
      simp only [Function.iterate_succ_apply, Function.iterate_zero_apply, reloadStep, if_neg hsame, hm]
    rw [hthree]
    exact Function.iterate_fixed (hdone _ _ _) k

/-- A content that is parsed is a document of a version that is known. -/
theorem version_le_of_parseNodes {b : Bytes} {m : NodeMap} (h : parseNodes env b = .ok m) :
    ∃ f, env.unmarshal b = .ok f ∧ f.version ≤ nodesFileVersion := by
  unfold parseNodes at h
  cases hf : env.unmarshal b with
  | error err =>
    rw [hf] at h
    cases h
  | ok f =>
    refine ⟨f, rfl, ?_⟩
    simp only [hf, bind, Except.bind] at h
    split at h
    · cases h
    · omega

/-- The hash of a content is recorded exactly if it was installed last. -/
theorem same_iff_installed {s : StoreState} (hs : s.Good env) (hsha : Set.InjOn env.sha256 {b | b ∈ s.held})
    {c : Bytes} (hc : c ∈ s.held) : (s.store.loaded ∧ env.sha256 c = s.store.hash) ↔ s.installed = some c := by
  have h := hs.serves
  unfold Serves at h
  cases hi : s.installed with
  | none =>
    rw [hi] at h
    simp [h.1]
  | some b =>
    rw [hi] at h
    obtain ⟨hb, hloaded, hhash, -⟩ := h
    rw [hhash, Option.some.injEq]
    constructor
    · rintro ⟨-, heq⟩
      exact hsha hb hc heq.symm
    · rintro rfl
      exact ⟨hloaded, rfl⟩

/-- A call that overlaps no other and reads a good content. -/
theorem solo_reload {s : StoreState} (hs : s.Good env) (hsha : Set.InjOn env.sha256 {b | b ∈ s.held})
    (hpath : env.path ≠ []) {i : Nat} (hcall : s.calls i = .start) {c : Bytes} (hfile : s.file = .content c)
    {m : NodeMap} (hm : parseNodes env c = .ok m) {es : List StoreEvent}
    (hes : ∀ e ∈ es, e = .step i ∨ ∃ f, e = .file f)
    (hcount : 3 ≤ stepCount es) :
    ∃ changed, (runEvents (storeNext env) (storeNext env s (.step i)) es).calls i = .done changed none ∧
      (runEvents (storeNext env) (storeNext env s (.step i)) es).store.nodes = m ∧
      (changed = true ↔ s.installed ≠ some c) := by
  have hc : c ∈ s.held := hs.file c (by rw [hfile]; exact List.mem_singleton.mpr rfl)
  have hread : reloadStep env s.file s.store (s.calls i) = (s.store, .checking c) := by
    rw [hcall, hfile]
    simp only [reloadStep, if_neg hpath]
  have hsolo := solo_run env hes (s := storeNext env s (.step i)) (by rw [storeNext_calls_self, hread]; simp)
  rw [storeNext_calls_self, storeNext_store, hread, reloadSteps_checking env s.store hm hcount] at hsolo
  have hsame := same_iff_installed env hs hsha hc
  -- the content that is installed already is not installed again
  by_cases hinst : s.installed = some c
  · rw [if_pos (hsame.mpr hinst), Prod.mk.injEq] at hsolo
    refine ⟨false, hsolo.2, ?_, by simp [hinst]⟩
    have h := hs.serves
    unfold Serves at h
    rw [hinst] at h
    rw [hsolo.1]
    have hparse := h.2.2.2
    rw [hm, Except.ok.injEq] at hparse
    exact hparse.symm
  · rw [if_neg (fun h => hinst (hsame.mp h)), Prod.mk.injEq] at hsolo
    refine ⟨true, hsolo.2, by rw [hsolo.1], by simp [hinst]⟩

/-- The last good nodes are never lost.  In every state that is reached, nothing was loaded so far, or the nodes are
those of the content whose hash is recorded, which the file had at some time.  A step changes what is served only if
the call has read such a content, and then it returns with a change; a call that reads a bad file fails.  A call
that overlaps no other and reads a good content ends with its nodes, and reports whether it is another content. -/
theorem reload_keeps_last_good (file : FileState) (es : List StoreEvent) (s : StoreState)
    (hrun : s = runEvents (storeNext env) (.init file) es) (hsha : Set.InjOn env.sha256 {b | b ∈ s.held}) :
    ((s.installed = none ∧ s.store.loaded = false ∧ s.store.nodes = ∅) ∨
      ∃ b ∈ s.held, s.store.loaded = true ∧ (∀ b' ∈ s.held, env.sha256 b' = s.store.hash ↔ b' = b) ∧
        parseNodes env b = .ok s.store.nodes ∧ ∃ f, env.unmarshal b = .ok f ∧ f.version ≤ nodesFileVersion) ∧
    (∀ i, (storeNext env s (.step i)).store.served = s.store.served ∨
      ∃ b m, s.calls i = .installing b m ∧ b ∈ s.held ∧ parseNodes env b = .ok m ∧
        (storeNext env s (.step i)).calls i = .done true none) ∧
    (∀ i es' t, s.calls i = .start → s.file.Bad env → (∀ e ∈ es', e ≠ .call i) →
      t = runEvents (storeNext env) (storeNext env s (.step i)) es' →
      (t.calls i).Fails env ∧ (storeNext env t (.step i)).store.served = t.store.served) ∧
    (∀ i es' c m, env.path ≠ [] → s.calls i = .start → s.file = .content c → parseNodes env c = .ok m →
      (∀ e ∈ es', e = .step i ∨ ∃ f, e = .file f) → 3 ≤ stepCount es' →
      ∃ changed, (runEvents (storeNext env) (storeNext env s (.step i)) es').calls i = .done changed none ∧
        (runEvents (storeNext env) (storeNext env s (.step i)) es').store.nodes = m ∧
        (changed = true ↔ s.installed ≠ some c)) := by
  have hgood : s.Good env := hrun ▸ StoreState.good_run env file es
  refine ⟨?_, fun i => ?_, fun i es' t hcall hbad hes ht => ?_, fun i es' c m hpath hcall hfile hm hes hcount => ?_⟩
  · have h := hgood.serves
    unfold Serves at h
    cases hi : s.installed with
    | none =>
      rw [hi] at h
      exact .inl ⟨rfl, h⟩
    | some b =>
      rw [hi] at h
      obtain ⟨hb, hloaded, hhash, hparse⟩ := h
      refine .inr ⟨b, hb, hloaded, fun b' hb' => ?_, hparse, version_le_of_parseNodes env hparse⟩
      rw [hhash]
      exact ⟨fun heq => hsha hb' hb heq, fun heq => by rw [heq]⟩
  · by_cases hphase : ∃ b m, s.calls i = .installing b m
    · obtain ⟨b, m, hphase⟩ := hphase
      have hcall := hgood.calls i
      rw [hphase] at hcall
      exact .inr ⟨b, m, hphase, hcall.1, hcall.2, by rw [storeNext_calls_self, hphase]; rfl⟩
    · exact .inl (served_reloadStep env s.file s.store fun b m h => hphase ⟨b, m, h⟩)
  · have hfails : ((storeNext env s (.step i)).calls i).Fails env := by
      rw [storeNext_calls_self, hcall]
      exact hbad.reloadStep env s.store
    have ht' : (t.calls i).Fails env := ht ▸ hfails.run env (along_of_forall_mem hes)
    exact ⟨ht', served_reloadStep env t.file t.store (ht'.ne_installing env)⟩
  · exact solo_reload env hgood hsha hpath hcall hfile hm hes hcount

/-! ### A sample -/

/-- A document without nodes. -/
def emptyDoc : Bytes := str "\x7b\"version\":1,\"nodes\":\x7b\x7d\x7d"

/-- A document with one node. -/
def oneNodeDoc : Bytes :=
  str "\x7b\"version\":1,\"nodes\":\x7b\"02:5e:1c:9a:47:d3\":\x7b\"ip\":\"192.0.2.1\"\x7d\x7d\x7d"

/-- The decoder and the hash on these documents, with any number of spaces behind the second one. -/
def sampleStoreEnv : StoreEnv where
  unicode := .asciiOnly
  unmarshal b :=
    if b = emptyDoc then .ok { version := 1, nodes := [] }
    else if b.rdropWhile (· == 32) = oneNodeDoc then
      .ok { version := 1, nodes := [(str "02:5e:1c:9a:47:d3", { ip := str "192.0.2.1" })] }
    else .error (str "unexpected end of JSON input")
  sha256 b :=
    if b = emptyDoc then
      #v[0x72, 0xB2, 0xC9, 0x7E, 0x7C, 0x2F, 0x7E, 0xE6, 0x91, 0x92, 0xD5, 0x4C, 0xC5, 0xEB, 0xF3, 0x9E,
        0x83, 0x93, 0x5E, 0x3A, 0x37, 0x02, 0x1B, 0xE2, 0x18, 0xFE, 0x68, 0x8F, 0x9E, 0x92, 0xB8, 0x70]
    else
      #v[0x51, 0x3C, 0x30, 0xC3, 0xE2, 0xBA, 0xF5, 0xC8, 0x49, 0x9E, 0x9B, 0xB2, 0x81, 0x38, 0x30, 0x56,
        0xEC, 0xEE, 0x05, 0x98, 0xA9, 0x3E, 0x59, 0x9B, 0x79, 0xA7, 0x65, 0xC8, 0x51, 0x6F, 0x02, 0xCD]
  path := str "/etc/maas/nodes.json"

/-- The first document was loaded and the file replaced; a call is about to read it. -/
def sampleState : StoreState :=
  runEvents (storeNext sampleStoreEnv) (.init (.content emptyDoc))
    [.call 0, .step 0, .step 0, .step 0, .step 0, .file (.content oneNodeDoc), .call 1]

theorem reload_keeps_last_good_sample :
    ∃ changed,
      (runEvents (storeNext sampleStoreEnv) (storeNext sampleStoreEnv sampleState (.step 1))
        [.step 1, .file .missing, .step 1, .step 1]).calls 1 = .done changed none ∧
      (changed = true ↔ sampleState.installed ≠ some oneNodeDoc) := by
  have hheld : sampleState.held = [emptyDoc, oneNodeDoc] := by decide +kernel
  have hsha : Set.InjOn sampleStoreEnv.sha256 {b | b ∈ sampleState.held} := by
    have hne : sampleStoreEnv.sha256 emptyDoc ≠ sampleStoreEnv.sha256 oneNodeDoc := by decide +kernel
    rw [hheld]
    intro x hx y hy h
    simp only [Set.mem_ofPred_eq, List.mem_cons, List.not_mem_nil, or_false] at hx hy
    rcases hx with rfl | rfl <;> rcases hy with rfl | rfl
    · rfl
    · exact absurd h hne
    · exact absurd h.symm hne
    · rfl
  obtain ⟨-, -, -, h⟩ := reload_keeps_last_good sampleStoreEnv _ _ sampleState rfl hsha
  obtain ⟨changed, hcall, -, hchanged⟩ :=
    h 1 [.step 1, .file .missing, .step 1, .step 1] oneNodeDoc _ (by decide) rfl rfl
    rfl (by simp) (by decide)
  exact ⟨changed, hcall, hchanged⟩

end MaasBoot
