import MaasBoot.NodeStore
import MaasBoot.Rewriter

/-!
# The configuration and its overrides

The configuration comes from a file and from the environment.  `main` reads the file once, lets the environment's
values win and then calls `Reload`, which from then on may run in several goroutines at once, like the reload of the
nodes.  In every interleaving with changes of the file the configuration is that of one content of the file, with
the environment's values over it; a reload that cannot read or parse the file changes nothing.

Go visits the entries of a map in an order of its own each time; every step that normalises the nodes' keys is given
the order in which it does so.
-/

namespace MaasBoot

structure Config where
  rackUpstream : Bytes := []
  proxyBase : Bytes := []
  overlayURL : Bytes := []
  rewrites : List Rewrite := []
  nodes : NodeMap := ∅

/-- A decoded config file; its nodes are not normalised yet. -/
structure ConfigFile where
  rackUpstream : Bytes := []
  proxyBase : Bytes := []
  overlayURL : Bytes := []
  rewrites : List Rewrite := []
  nodes : List (Bytes × Node) := []

/-- The order in which `range` visits the entries of maps. -/
structure VisitOrder where
  visit : List (Bytes × Node) → List (Bytes × Node)
  perm : ∀ nodes, (visit nodes).Perm nodes

def normalizeNodeKeys (u : Unicode) (visited : List (Bytes × Node)) : NodeMap :=
  visited.foldl (fun out kv => out.insert (normalizeKey u kv.1) kv.2) ∅

/-- The configuration of a decoded file. -/
def ConfigFile.config (u : Unicode) (order : VisitOrder) (f : ConfigFile) : Config where
  rackUpstream := f.rackUpstream
  proxyBase := f.proxyBase
  overlayURL := f.overlayURL
  rewrites := f.rewrites
  nodes := normalizeNodeKeys u (order.visit f.nodes)

/-- A value of the environment wins if there is one. -/
def override (o v : Bytes) : Bytes := if o ≠ [] then o else v

def applyOverrides (c o : Config) : Config :=
  { c with
    rackUpstream := override o.rackUpstream c.rackUpstream
    proxyBase := override o.proxyBase c.proxyBase
    overlayURL := override o.overlayURL c.overlayURL }

/-- The parts of the environment: `unicode`, `json.Unmarshal` into a `Config`, `sha256.Sum256`, the path of the
config file and the values of the environment. -/
structure ConfigEnv where
  unicode : Unicode
  unmarshal : Bytes → Except Bytes ConfigFile
  sha256 : Bytes → Vector UInt8 32
  path : Bytes
  overrides : Config

/-- The fields of `Server` that hold the configuration. -/
structure ConfigServer where
  cfg : Config
  cfgHash : Vector UInt8 32 := Vector.replicate 32 0
  cfgLoaded : Bool := false

/-! ### Reloading -/

/-- How a call of `reloadConfig` ended. -/
inductive ReloadEnd where
  | noPath
  | readFailed
  | unchanged
  | parseFailed
  | installed

/-- Where a call of `reloadConfig` stands. -/
inductive ConfigPhase where
  /-- There is no such call. -/
  | idle
  | start
  | checking (b : Bytes)
  | parsing (b : Bytes)
  /-- Waits for the lock. -/
  | installing (b : Bytes) (c : Config)
  | done (res : ReloadEnd)

variable (env : ConfigEnv)

/-- The next step of `reloadConfig`, with its effect on the server. -/
def reloadConfigStep (file : FileState) (order : VisitOrder) (s : ConfigServer) :
    ConfigPhase → ConfigServer × ConfigPhase
  | .idle => (s, .idle)
  | .start =>
    if env.path = [] then (s, .done .noPath)
    else
      match file with
      | .content b => (s, .checking b)
      | .missing => (s, .done .readFailed)
      | .unreadable _ => (s, .done .readFailed)
  | .checking b => if s.cfgLoaded ∧ env.sha256 b = s.cfgHash then (s, .done .unchanged) else (s, .parsing b)
  | .parsing b =>
    match env.unmarshal b with
    | .error _ => (s, .done .parseFailed)
    | .ok f => (s, .installing b (f.config env.unicode order))
  | .installing b c =>
    ({ cfg := applyOverrides c env.overrides, cfgHash := env.sha256 b, cfgLoaded := true }, .done .installed)
  | .done res => (s, .done res)

def loadConfigFile (file : FileState) (order : VisitOrder) : Except Bytes Config :=
  match file with
  | .content b =>
    match env.unmarshal b with
    | .error err => .error err
    | .ok f => .ok (f.config env.unicode order)
  | .missing => .error (str "file does not exist")
  | .unreadable err => .error err

/-- The file, the server and the calls.  `held` and `installed` are a record of the past that no step looks at: the
contents the file has had, and the content that the configuration was taken from. -/
structure ConfigState where
  file : FileState
  server : ConfigServer
  calls : Nat → ConfigPhase := fun _ => .idle
  held : List Bytes
  installed : Option Bytes

inductive ConfigEvent where
  /-- The file is replaced, deleted or made unreadable. -/
  | file (f : FileState)
  /-- `reloadConfig` is called. -/
  | call (i : Nat)
  /-- The call `i` takes its next step. -/
  | step (i : Nat) (order : VisitOrder)

/-- The content that the configuration was taken from, after a step of the call `i`. -/
def ConfigState.installs (s : ConfigState) (i : Nat) : Option Bytes :=
  match s.calls i with
  | .installing b _ => some b
  | _ => s.installed

def configNext (s : ConfigState) : ConfigEvent → ConfigState
  | .file f => { s with file := f, held := s.held ++ f.contents }
  | .call i =>
    match s.calls i with
    | .idle => { s with calls := Function.update s.calls i .start }
    | .done _ => { s with calls := Function.update s.calls i .start }
    | _ => s
  | .step i order =>
    let (server, phase) := reloadConfigStep env s.file order s.server (s.calls i)
    { s with server := server, calls := Function.update s.calls i phase, installed := s.installs i }

/-- `main` up to `NewServer`: the file is read if that is possible. -/
def ConfigState.start (file : FileState) (order : VisitOrder) : ConfigState where
  file := file
  held := file.contents
  server :=
    match loadConfigFile env file order with
    | .ok c => { cfg := applyOverrides c env.overrides }
    | .error _ => { cfg := applyOverrides {} env.overrides }
  installed :=
    match file, loadConfigFile env file order with
    | .content b, .ok _ => some b
    | _, _ => none

/-! ### One step -/

/-- A step leaves the server alone, unless it installs a configuration. -/
theorem reloadConfigStep_cases (file : FileState) (order : VisitOrder) (s : ConfigServer) (q : ConfigPhase) :
    ((reloadConfigStep env file order s q).1 = s ∧ ∀ b c, q ≠ .installing b c) ∨
      ∃ b c, q = .installing b c ∧ reloadConfigStep env file order s q =
        ({ cfg := applyOverrides c env.overrides, cfgHash := env.sha256 b, cfgLoaded := true },
          .done .installed) := by
  cases q with
  | installing b c => exact .inr ⟨b, c, rfl, rfl⟩
  | start =>
    refine .inl ⟨?_, by simp⟩
    rw [reloadConfigStep.eq_def]
    dsimp only
    split
    · rfl
    · split <;> rfl
  | checking b =>
    refine .inl ⟨?_, by simp⟩
    rw [reloadConfigStep]
    split <;> rfl
  | parsing b =>
    refine .inl ⟨?_, by simp⟩
    rw [reloadConfigStep]
    split <;> rfl
  | idle => exact .inl ⟨rfl, by simp⟩
  | done res => exact .inl ⟨rfl, by simp⟩

theorem installs_of_ne {s : ConfigState} {i : Nat} (h : ∀ b c, s.calls i ≠ .installing b c) :
    s.installs i = s.installed := by
  unfold ConfigState.installs
  split
  · rename_i b c heq
    exact absurd heq (h b c)
  · rfl

theorem installs_of_installing {s : ConfigState} {i : Nat} {b : Bytes} {c : Config}
    (h : s.calls i = .installing b c) :
    s.installs i = some b := by
  simp [ConfigState.installs, h]

/-! ### Where the configuration comes from -/

/-- The file is the one that the content decodes to, and empty if there is no content. -/
def DecodesTo (held : List Bytes) (content : Option Bytes) (f : ConfigFile) : Prop :=
  match content with
  | none => f = {}
  | some b => b ∈ held ∧ env.unmarshal b = .ok f

/-- The configuration of the content, with the environment's values over it. -/
def TakenFrom (held : List Bytes) (content : Option Bytes) (cfg : Config) : Prop :=
  ∃ f order, DecodesTo env held content f ∧ cfg = applyOverrides (f.config env.unicode order) env.overrides

/-- A call holds contents of the file, and a configuration that was parsed from them. -/
def ConfigPhase.Holds (held : List Bytes) : ConfigPhase → Prop
  | .checking b => b ∈ held
  | .parsing b => b ∈ held
  | .installing b c => b ∈ held ∧ ∃ f order, env.unmarshal b = .ok f ∧ c = f.config env.unicode order
  | _ => True

structure ConfigState.Good (s : ConfigState) : Prop where
  cfg : TakenFrom env s.held s.installed s.server.cfg
  file : ∀ b ∈ s.file.contents, b ∈ s.held
  calls : ∀ i, (s.calls i).Holds env s.held

variable {env}

theorem TakenFrom.mono {held held' : List Bytes} (h : ∀ b ∈ held, b ∈ held') {content : Option Bytes} {cfg : Config}
    (ht : TakenFrom env held content cfg) : TakenFrom env held' content cfg := by
  obtain ⟨f, order, hf, hcfg⟩ := ht
  refine ⟨f, order, ?_, hcfg⟩
  cases content with
  | none => exact hf
  | some b => exact ⟨h b hf.1, hf.2⟩

theorem ConfigPhase.Holds.mono {held held' : List Bytes} (h : ∀ b ∈ held, b ∈ held') {q : ConfigPhase}
    (hq : q.Holds env held) : q.Holds env held' := by
  cases q with
  | checking b => exact h b hq
  | parsing b => exact h b hq
  | installing b c => exact ⟨h b hq.1, hq.2⟩
  | _ => trivial

theorem ConfigPhase.Holds.step {file : FileState} {held : List Bytes} (hfile : ∀ b ∈ file.contents, b ∈ held)
    (order : VisitOrder) (s : ConfigServer) {q : ConfigPhase} (hq : q.Holds env held) :
    (reloadConfigStep env file order s q).2.Holds env held := by
  cases q with
  | start =>
    rw [reloadConfigStep.eq_def]
    dsimp only
    split
    · trivial
    · split
      · exact hfile _ (List.mem_singleton.mpr rfl)
      · trivial
      · trivial
  | checking b =>
    rw [reloadConfigStep]
    split
    · trivial
    · exact hq
  | parsing b =>
    rw [reloadConfigStep]
    split
    · trivial
    · rename_i f hf
      exact ⟨hq, f, order, hf, rfl⟩
  | _ => trivial

/-! ### Runs -/

theorem ConfigState.Good.next {s : ConfigState} (hs : s.Good env) (e : ConfigEvent) :
    (configNext env s e).Good env := by
  cases e with
  | file f =>
    have hmono : ∀ b ∈ s.held, b ∈ s.held ++ f.contents := fun b hb => List.mem_append_left _ hb
    exact ⟨hs.cfg.mono hmono, fun b hb => List.mem_append_right _ hb, fun i => (hs.calls i).mono hmono⟩
  | call i =>
    have hcalls : ∀ j, (Function.update s.calls i .start j).Holds env s.held :=
      (Function.forall_update_iff _ fun _ (q : ConfigPhase) => q.Holds env s.held).mpr
        ⟨trivial, fun j _ => hs.calls j⟩
    rw [configNext]
    split
    · exact ⟨hs.cfg, hs.file, hcalls⟩
    · exact ⟨hs.cfg, hs.file, hcalls⟩
    · exact hs
  | step i order =>
    have hcalls : ∀ j, ((configNext env s (.step i order)).calls j).Holds env s.held :=
      (Function.forall_update_iff _ fun _ (q : ConfigPhase) => q.Holds env s.held).mpr
        ⟨(hs.calls i).step hs.file order s.server, fun j _ => hs.calls j⟩
    refine ⟨?_, hs.file, hcalls⟩
    have hcall := hs.calls i
    rcases reloadConfigStep_cases env s.file order s.server (s.calls i) with ⟨hsame, hne⟩ | ⟨b, c, hq, heq⟩
    · simp only [configNext, hsame, installs_of_ne hne]
      exact hs.cfg
    · simp only [configNext, heq, installs_of_installing hq]
      rw [hq] at hcall
      obtain ⟨hb, f, order', hf, rfl⟩ := hcall
      exact ⟨f, order', ⟨hb, hf⟩, rfl⟩

/-- Without a content there are no nodes. -/
theorem config_empty (u : Unicode) (order : VisitOrder) : ({} : ConfigFile).config u order = {} := by
  have hvisit : order.visit [] = [] := (order.perm []).eq_nil
  rw [ConfigFile.config, hvisit]
  rfl

theorem ConfigState.good_start (file : FileState) (order : VisitOrder) :
    (ConfigState.start env file order).Good env := by
  refine ⟨?_, fun _ hb => hb, fun _ => trivial⟩
  have hnone : TakenFrom env file.contents none (applyOverrides {} env.overrides) :=
    ⟨{}, order, rfl, by rw [config_empty]⟩
  cases file with
  | content b =>
    cases hf : env.unmarshal b with
    | error err => simpa only [ConfigState.start, loadConfigFile, hf] using hnone
    | ok f =>
      simp only [ConfigState.start, loadConfigFile, hf]
      exact ⟨f, order, ⟨List.mem_singleton.mpr rfl, hf⟩, rfl⟩
  | missing => exact hnone
  | unreadable err => exact hnone

theorem ConfigState.good_run (file : FileState) (order : VisitOrder) (es : List ConfigEvent) :
    (runEvents (configNext env) (.start env file order) es).Good env :=
  runEvents_invariant (fun _ e hs => hs.next e) (good_start file order) es

/-! ### Reloads that fail -/

/-- What changes a field of the server is the last step of a call that has parsed a content of the file. -/
theorem ConfigState.Good.server_cases {s : ConfigState} (hs : s.Good env) (e : ConfigEvent) :
    (configNext env s e).server = s.server ∨ ∃ i order b f, e = .step i order ∧ b ∈ s.held ∧ env.unmarshal b = .ok f ∧
      (configNext env s e).calls i = .done .installed ∧ (configNext env s e).installed = some b := by
  cases e with
  | file f => exact .inl rfl
  | call i =>
    left
    rw [configNext]
    split <;> rfl
  | step i order =>
    rcases reloadConfigStep_cases env s.file order s.server (s.calls i) with ⟨hsame, -⟩ | ⟨b, c, hq, heq⟩
    · exact .inl hsame
    · have hcall := hs.calls i
      rw [hq] at hcall
      obtain ⟨hb, f, -, hf, -⟩ := hcall
      refine .inr ⟨i, order, b, f, rfl, hb, hf, ?_, installs_of_installing hq⟩
      simp only [configNext, heq, Function.update_self]

theorem configNext_readFailed {s : ConfigState} {i : Nat} (order : VisitOrder) (hcall : s.calls i = .start)
    (hpath : env.path ≠ []) (hfile : ∀ b, s.file ≠ .content b) :
    (configNext env s (.step i order)).calls i = .done .readFailed := by
  simp only [configNext, Function.update_self, hcall]
  cases hf : s.file with
  | content b => exact absurd hf (hfile b)
  | missing => simp only [reloadConfigStep, if_neg hpath]
  | unreadable err => simp only [reloadConfigStep, if_neg hpath]

theorem configNext_parseFailed {s : ConfigState} {i : Nat} {b : Bytes} (order : VisitOrder)
    (hcall : s.calls i = .parsing b) (hb : ∀ f, env.unmarshal b ≠ .ok f) :
    (configNext env s (.step i order)).calls i = .done .parseFailed := by
  simp only [configNext, Function.update_self, hcall, reloadConfigStep]
  cases hf : env.unmarshal b with
  | ok f => exact absurd hf (hb f)
  | error err => rfl

/-- After the start of `main`, in every interleaving of reloads and changes of the file, the values of the
environment win over those of the one content that is installed, and the rewrites and nodes are those of that
content.  A field of the server changes only in the last step of a reload that has parsed a content; a reload that
cannot read or parse the file ends otherwise. -/
theorem config_overrides_win (env : ConfigEnv) (file : FileState) (order : VisitOrder) (es : List ConfigEvent) :
    let s := runEvents (configNext env) (.start env file order) es
    let o := env.overrides
    (∃ f visited, DecodesTo env s.held s.installed f ∧ visited.Perm f.nodes ∧
      s.server.cfg.rackUpstream = (if o.rackUpstream ≠ [] then o.rackUpstream else f.rackUpstream) ∧
      s.server.cfg.proxyBase = (if o.proxyBase ≠ [] then o.proxyBase else f.proxyBase) ∧
      s.server.cfg.overlayURL = (if o.overlayURL ≠ [] then o.overlayURL else f.overlayURL) ∧
      s.server.cfg.rewrites = f.rewrites ∧ s.server.cfg.nodes = normalizeNodeKeys env.unicode visited) ∧
    (∀ e, (configNext env s e).server = s.server ∨ ∃ i order b f, e = .step i order ∧ b ∈ s.held ∧ env.unmarshal b =
      .ok f ∧ (configNext env s e).calls i = .done .installed ∧ (configNext env s e).installed = some b) ∧
    (∀ i order, s.calls i = .start → env.path ≠ [] → (∀ b, s.file ≠ .content b) →
      (configNext env s (.step i order)).calls i = .done .readFailed) ∧
    ∀ i order b, s.calls i = .parsing b → (∀ f, env.unmarshal b ≠ .ok f) →
      (configNext env s (.step i order)).calls i = .done .parseFailed := by
  intro s o
  have hs : s.Good env := ConfigState.good_run file order es
  refine ⟨?_, hs.server_cases, fun i order => configNext_readFailed order,
    fun i order b => configNext_parseFailed order⟩
  obtain ⟨f, order', hf, hcfg⟩ := hs.cfg
  refine ⟨f, order'.visit f.nodes, hf, order'.perm f.nodes, ?_⟩
  rw [hcfg]
  exact ⟨rfl, rfl, rfl, rfl, rfl⟩

end MaasBoot
