import Mathlib.Logic.Function.Basic
import MaasBoot.Lib.Base64
import MaasBoot.Lib.Jq
import MaasBoot.Lib.Runs
import MaasBoot.Lib.Shell

/-!
# Exporting keys to secrets

`_export-api-key.sh.tpl` and `_export-secret-key.sh.tpl` put a key into a secret of the cluster.  A secret that is
there already is deleted first, and the script tries again until its own has been created.  Several pods may do so
at the same time, answers of the API server may get lost, and `wget` may send a request again.

The scripts run under `set -e`: a deletion that fails ends the script.  The exit status of the creation is lost in
`export result=$(post_secret)`, only its text counts.

If every request is handled while its `wget` runs, a pod that has deleted the secret goes on until it has created
it, so a pod that has finished never leaves it deleted (`export_secret_kept`).  A pod that is left alone with a
server that carries out its requests finishes after at most eight steps (`export_alone_finishes`).
-/

namespace MaasBoot

/-! ### The document -/

/-- The name of the secret and the key of its only entry. -/
structure ExportJob where
  secretName : Bytes
  entry : Bytes
  plainName : Json.IsPlainText secretName
  plainEntry : Json.IsPlainText entry

/-- `_export-api-key.sh.tpl` -/
def exportAPIKey (secretName : Bytes) (h : Json.IsPlainText secretName) : ExportJob :=
  ⟨secretName, str "token", h, by decide, by decide⟩

/-- `_export-secret-key.sh.tpl` -/
def exportSecretKey (secretName : Bytes) (h : Json.IsPlainText secretName) : ExportJob :=
  ⟨secretName, str "REGION_SECRET", h, by decide, by decide⟩

/-- What `maas-region apikey` prints, or the file `/var/lib/maas/secret`.  The shell takes none of its words for a
pattern and `echo` none for an option. -/
structure ExportKey where
  printed : Bytes
  plain : ∀ w ∈ words (capture printed), isEchoOption w = false ∧ ∀ c ∈ w, c ∉ str "*?[\\"

namespace ExportKey

/-- `KEY=$(…)` -/
def text (k : ExportKey) : Bytes := capture k.printed

/-- `echo -n $KEY` -/
def echoed (k : ExportKey) : Bytes := join (str " ") (words k.text)

/-- `ENCODED_KEY=$(echo -n $KEY | base64 -w 0)` -/
def encoded (k : ExportKey) : Bytes := capture (base64Encode k.echoed)

end ExportKey

/-- `/tmp/secret.json` -/
def ExportJob.document (job : ExportJob) (k : ExportKey) : Bytes :=
  str "\x7b\n  \"apiVersion\": \"v1\",\n  \"kind\": \"Secret\",\n" ++
    str "  \"type\": \"Opaque\",\n  \"metadata\": \x7b\n    \"name\": \"" ++
    job.secretName ++ str "\"\n  \x7d,\n  \"data\": \x7b\n    \"" ++ job.entry ++ str "\": \"" ++ k.encoded ++
    str "\"\n  \x7d\n\x7d\n"

/-- An entry of a secret, as a pod that uses the secret gets it. -/
def secretEntry (entry document : Bytes) : Option Bytes :=
  match Json.read document with
  | ([v], true) => match (v.field (str "data")).bind fun d => d.field entry with
    | some (.string s) => base64Decode s
    | _ => none
  | _ => none

theorem base64Char_plain : ∀ c : UInt8, isBase64Char c = true → c ≠ 0 ∧ c ≠ 10 ∧ c ≠ 34 ∧ c ≠ 92 :=
  forall_byte (by decide +kernel)

theorem ExportKey.encoded_eq (k : ExportKey) : k.encoded = base64Encode k.echoed := by
  have hmem : ∀ c ∈ base64Encode k.echoed, c ≠ 0 ∧ c ≠ 10 := fun c hc =>
    have h := base64Char_plain c (isBase64Char_of_mem hc)
    ⟨h.1, h.2.1⟩
  rw [ExportKey.encoded, capture, List.filter_eq_self.mpr fun c hc => by simpa using (hmem c hc).1,
    List.rdropWhile_eq_self_iff]
  intro hne hlast
  exact (hmem _ (List.getLast_mem hne)).2 (by simpa using hlast)

theorem ExportKey.isPlainText_encoded (k : ExportKey) : Json.IsPlainText k.encoded := by
  rw [k.encoded_eq]
  exact ⟨fun hc => (base64Char_plain _ (isBase64Char_of_mem hc)).2.2.1 rfl,
    fun hc => (base64Char_plain _ (isBase64Char_of_mem hc)).2.2.2 rfl⟩

/-- The fixed texts around the three strings that vary. -/
theorem ExportJob.document_eq (job : ExportJob) (k : ExportKey) : job.document k =
    str "\x7b\n  \"apiVersion\": \"v1\",\n  \"kind\": \"Secret\",\n" ++
      (str "  \"type\": \"Opaque\",\n  \"metadata\": \x7b\n    \"name\": \"" ++
      (job.secretName ++ 34 :: (str "\n  \x7d,\n  \"data\": \x7b\n    \"" ++ (job.entry ++ 34 :: (str ": \"" ++
        (k.encoded ++ 34 :: str "\n  \x7d\n\x7d\n")))))) := by
  have h₁ : str "\"\n  \x7d,\n  \"data\": \x7b\n    \"" = 34 :: str "\n  \x7d,\n  \"data\": \x7b\n    \"" := by decide
  have h₂ : str "\": \"" = 34 :: str ": \"" := by decide
  have h₃ : str "\"\n  \x7d\n\x7d\n" = 34 :: str "\n  \x7d\n\x7d\n" := by decide
  rw [ExportJob.document, h₁, h₂, h₃]
  simp only [List.append_assoc, List.cons_append]

theorem ExportJob.read_document (job : ExportJob) (k : ExportKey) :
    Json.read (job.document k) = ([.obj [(str "apiVersion", .string (str "v1")), (str "kind", .string (str "Secret")),
      (str "type", .string (str "Opaque")), (str "metadata", .obj [(str "name", .string job.secretName)]),
      (str "data", .obj [(job.entry, .string k.encoded)])]], true) := by
  have hkind : Json.scan .between (str "\x7b\n  \"apiVersion\": \"v1\",\n  \"kind\": \"Secret\",\n") =
      some (.between, [.mark 123, .text (str "apiVersion"), .mark 58, .text (str "v1"), .mark 44, .text (str "kind"),
        .mark 58, .text (str "Secret"), .mark 44]) := rfl
  have hname : Json.scan .between (str "  \"type\": \"Opaque\",\n  \"metadata\": \x7b\n    \"name\": \"") =
      some (.text [], [.text (str "type"), .mark 58, .text (str "Opaque"), .mark 44, .text (str "metadata"), .mark 58,
        .mark 123, .text (str "name"), .mark 58]) := rfl
  have hdata : Json.scan .between (str "\n  \x7d,\n  \"data\": \x7b\n    \"") =
      some (.text [], [.mark 125, .mark 44, .text (str "data"), .mark 58, .mark 123]) := rfl
  have hcolon : Json.scan .between (str ": \"") = some (.text [], [.mark 58]) := rfl
  have hend : Json.tokens .between (str "\n  \x7d\n\x7d\n") = [.mark 125, .mark 125] := rfl
  rw [Json.read, job.document_eq, Json.tokens_append hkind, Json.tokens_append hname, Json.tokens_text job.plainName,
    Json.tokens_append hdata, Json.tokens_text job.plainEntry, Json.tokens_append hcolon,
    Json.tokens_text k.isPlainText_encoded, hend]
  rfl

/-- The words of the key arrive, with single blanks between them. -/
theorem ExportJob.secretEntry_document (job : ExportJob) (k : ExportKey) :
    secretEntry job.entry (job.document k) = some k.echoed := by
  rw [secretEntry, job.read_document]
  simp [Json.field, k.encoded_eq, base64Decode_base64Encode, show str "apiVersion" ≠ str "data" by decide,
    show str "kind" ≠ str "data" by decide, show str "type" ≠ str "data" by decide,
    show str "metadata" ≠ str "data" by decide]

def tokenJob : ExportJob := exportAPIKey (str "maas-api-key") ⟨by decide, by decide⟩

def oldKey : ExportKey := ⟨str "Cq:Fe:Xn\n", by decide +kernel⟩

def newKey : ExportKey := ⟨str "Zk:9a:Vt\n", by decide +kernel⟩

example : secretEntry tokenJob.entry (tokenJob.document newKey) = some (str "Zk:9a:Vt") := by decide +kernel

/-! ### The API server -/

/-- `grep -i '201 Created'` of what `post_secret` has printed. -/
def isCreated (out : Bytes) : Bool := grepAny [str "201 Created"] (echo (capture out))

/-- `grep -i '409 Conflict'` -/
def isConflict (out : Bytes) : Bool := grepAny [str "409 Conflict"] (echo (capture out))

/-- The API server of the cluster, as far as it goes for one secret: the document of the secret, how the server
answers a `POST` with a document, and whether it accepts a `DELETE`.  It may refuse any request, and carry one out
that it does not answer well. -/
structure SecretServer (σ : Type) where
  secret : σ → Option Bytes
  post : Bytes → σ → Bytes × σ
  delete : σ → Bool × σ
  /-- A secret that is there is not replaced. -/
  post_effect : ∀ d s, secret (post d s).2 = secret s ∨ (secret s = none ∧ secret (post d s).2 = some d)
  /-- A creation that is reported has happened. -/
  post_created : ∀ d s, isCreated (post d s).1 = true → secret s = none ∧ secret (post d s).2 = some d
  delete_effect : ∀ s, secret (delete s).2 = secret s ∨ secret (delete s).2 = none

/-! ### The loop -/

/-- Where a script is.  For a running `wget` the state holds how the server has handled its requests so far. -/
inductive ExportPhase where
  | posting (answers : List Bytes)
  | clearing (accepted : List Bool)
  | sleeping
  | finished
  | failed
  deriving DecidableEq

structure Exporter where
  key : ExportKey
  phase : ExportPhase

/-- The server and the pods.  The log has every request that changed the secret: the pod and the secret after it. -/
structure Cluster (σ : Type) where
  server : σ
  exporters : Nat → Option Exporter := fun _ => none
  log : List (Nat × Option Bytes) := []

inductive ExportEvent where
  /-- A pod starts; `none` if it cannot get the key. -/
  | start (i : Nat) (key : Option ExportKey)
  /-- The API server handles a `POST` of a pod. -/
  | create (i : Nat)
  /-- `post_secret` returns. -/
  | posted (i : Nat) (out : Bytes)
  /-- The API server handles a `DELETE` of a pod. -/
  | delete (i : Nat)
  /-- `clear_secret` returns. -/
  | cleared (i : Nat) (ok : Bool)
  | wake (i : Nat)
  /-- The pod is stopped. -/
  | kill (i : Nat)

/-- The part of the script before the loop. -/
def startExport : Option ExportKey → Option Exporter
  | none => none
  | some key => some ⟨key, if key.text ≠ [] then .posting [] else .failed⟩

/-- What follows `post_secret`. -/
def afterPost (out : Bytes) : ExportPhase :=
  if isCreated out then .finished else if isConflict out then .clearing [] else .sleeping

namespace ExportPhase

/-- The server has answered a `POST`; nobody hears of it once `wget` has ended. -/
def answered (answer : Bytes) : ExportPhase → ExportPhase
  | .posting answers => .posting (answers ++ [answer])
  | p => p

/-- The server has handled a `DELETE`. -/
def handled (ok : Bool) : ExportPhase → ExportPhase
  | .clearing accepted => .clearing (accepted ++ [ok])
  | p => p

end ExportPhase

section

variable {σ : Type} (S : SecretServer σ) (job : ExportJob)

namespace Cluster

def setPhase (s : Cluster σ) (i : Nat) (key : ExportKey) (phase : ExportPhase) : Cluster σ :=
  { s with exporters := Function.update s.exporters i (some ⟨key, phase⟩) }

/-- The server has handled a request of a pod. -/
def setServer (s : Cluster σ) (i : Nat) (server : σ) : Cluster σ :=
  { s with
    server := server
    log := if S.secret server = S.secret s.server then s.log else s.log ++ [(i, S.secret server)] }

/-- What a pod has done last. -/
def lastEffect (s : Cluster σ) (i : Nat) : Option (Option Bytes) :=
  latest (fun l => if l.1 = i then some l.2 else none) s.log

end Cluster

/-- One event.  A request may be handled when the `wget` that has sent it has ended. -/
def clusterStep (s : Cluster σ) : ExportEvent → Cluster σ
  | .start i key => match s.exporters i with
    | none => { s with exporters := Function.update s.exporters i (startExport key) }
    | some _ => s
  | .create i => match s.exporters i with
    | some ⟨k, p⟩ =>
      let (answer, server) := S.post (job.document k) s.server
      (s.setServer S i server).setPhase i k (p.answered answer)
    | none => s
  | .posted i out => match s.exporters i with
    | some ⟨k, .posting _⟩ => s.setPhase i k (afterPost out)
    | _ => s
  | .delete i => match s.exporters i with
    | some ⟨k, p⟩ =>
      let (ok, server) := S.delete s.server
      (s.setServer S i server).setPhase i k (p.handled ok)
    | none => s
  | .cleared i ok => match s.exporters i with
    | some ⟨k, .clearing _⟩ => s.setPhase i k (if ok then .sleeping else .failed)
    | _ => s
  | .wake i => match s.exporters i with
    | some ⟨k, .sleeping⟩ => s.setPhase i k (.posting [])
    | _ => s
  | .kill i => match s.exporters i with
    | some ⟨_, .finished⟩ => s
    | some ⟨k, _⟩ => s.setPhase i k .failed
    | none => s

/-- A request is handled while the `wget` that has sent it runs, and `wget` shows a creation only if the server has
reported one. -/
def Timely (s : Cluster σ) : ExportEvent → Prop
  | .create i => ∃ k answers, s.exporters i = some ⟨k, .posting answers⟩
  | .posted i out => ∀ k answers, s.exporters i = some ⟨k, .posting answers⟩ → isCreated out = true →
    ∃ a ∈ answers, isCreated a = true
  | .delete i => ∃ k accepted, s.exporters i = some ⟨k, .clearing accepted⟩
  | _ => True

/-! ### What a finished pod leaves behind -/

/-- The script has created the secret, in the call of `post_secret` that runs or has run last. -/
def ExportPhase.HasCreated : ExportPhase → Prop
  | .posting answers => ∃ a ∈ answers, isCreated a = true
  | .finished => True
  | _ => False

/-- What one event can do: a pod starts, creates the secret, deletes it, or goes on without a change of the secret. -/
inductive ClusterMove (s : Cluster σ) : Cluster σ → Prop
  | stay : ClusterMove s s
  | start (i : Nat) (key : Option ExportKey) (h : s.exporters i = none) :
    ClusterMove s { s with exporters := Function.update s.exporters i (startExport key) }
  | create (i : Nat) (k : ExportKey) (p p' : ExportPhase) (server : σ) (h : s.exporters i = some ⟨k, p⟩)
    (hnone : S.secret s.server = none) (hsecret : S.secret server = some (job.document k)) :
    ClusterMove s ((s.setServer S i server).setPhase i k p')
  | delete (i : Nat) (k : ExportKey) (p p' : ExportPhase) (server : σ) (h : s.exporters i = some ⟨k, p⟩)
    (hsome : S.secret s.server ≠ none) (hsecret : S.secret server = none) (hcreated : ¬ p'.HasCreated) :
    ClusterMove s ((s.setServer S i server).setPhase i k p')
  | turn (i : Nat) (k : ExportKey) (p p' : ExportPhase) (server : σ) (h : s.exporters i = some ⟨k, p⟩)
    (hsecret : S.secret server = S.secret s.server) (hcreated : p'.HasCreated → p.HasCreated) :
    ClusterMove s ((s.setServer S i server).setPhase i k p')

variable {S job}

/-- A pod goes on by itself. -/
theorem ClusterMove.setPhase {s : Cluster σ} {i : Nat} {k : ExportKey} {p p' : ExportPhase}
    (h : s.exporters i = some ⟨k, p⟩) (hcreated : p'.HasCreated → p.HasCreated) :
    ClusterMove S job s (s.setPhase i k p') := by
  have hmove : ClusterMove S job s ((s.setServer S i s.server).setPhase i k p') :=
    .turn i k p p' s.server h rfl hcreated
  rwa [Cluster.setServer, if_pos rfl] at hmove

theorem clusterStep_move {s : Cluster σ} {e : ExportEvent} (h : Timely s e) :
    ClusterMove S job s (clusterStep S job s e) := by
  cases e with
  | start i key =>
    simp only [clusterStep]
    split
    case h_1 hi => exact .start i key hi
    case h_2 => exact .stay
  | create i =>
    obtain ⟨k, answers, hi⟩ := h
    simp only [clusterStep, hi]
    by_cases hsame : S.secret (S.post (job.document k) s.server).2 = S.secret s.server
    · refine .turn i k _ _ _ hi hsame ?_
      rintro ⟨a, ha, hcreated⟩
      rcases List.mem_append.mp ha with ha | ha
      · exact ⟨a, ha, hcreated⟩
      · -- a creation would have changed the secret
        obtain rfl := List.mem_singleton.mp ha
        obtain ⟨hnone, hsome⟩ := S.post_created _ _ hcreated
        rw [hnone, hsome] at hsame
        cases hsame
    · obtain ⟨hnone, hsome⟩ := (S.post_effect (job.document k) s.server).resolve_left hsame
      exact .create i k _ _ _ hi hnone hsome
  | posted i out =>
    simp only [clusterStep]
    split
    case h_1 k answers hi =>
      refine .setPhase hi fun hmem => ?_
      cases hout : isCreated out with
      | true => exact h k answers hi hout
      | false =>
        unfold afterPost at hmem
        rw [hout] at hmem
        cases hconflict : isConflict out <;> simp [hconflict, ExportPhase.HasCreated] at hmem
    case h_2 => exact .stay
  | delete i =>
    obtain ⟨k, accepted, hi⟩ := h
    simp only [clusterStep, hi]
    by_cases hsame : S.secret (S.delete s.server).2 = S.secret s.server
    · exact .turn i k _ _ _ hi hsame False.elim
    · have hnone := (S.delete_effect s.server).resolve_left hsame
      exact .delete i k _ _ _ hi (fun h => hsame (hnone.trans h.symm)) hnone id
  | cleared i ok =>
    simp only [clusterStep]
    split
    case h_1 k accepted hi => exact .setPhase hi fun hmem => by cases ok <;> exact hmem.elim
    case h_2 => exact .stay
  | wake i =>
    simp only [clusterStep]
    split
    case h_1 k hi => exact .setPhase hi fun hmem => by simp [ExportPhase.HasCreated] at hmem
    case h_2 => exact .stay
  | kill i =>
    simp only [clusterStep]
    split
    case h_1 => exact .stay
    case h_2 k p _ hi => exact .setPhase hi False.elim
    case h_3 => exact .stay

variable (S job) in
/-- The secret is what the last request has left, and a pod that has created it has not deleted it since. -/
structure Kept (s : Cluster σ) : Prop where
  secret_eq : ∀ l, s.log.getLast? = some l → S.secret s.server = l.2
  mem_log : ∀ l ∈ s.log, ∃ x, s.exporters l.1 = some x ∧ ∀ d, l.2 = some d → d = job.document x.key
  created : ∀ i x, s.exporters i = some x → x.phase.HasCreated → s.lastEffect i = some (some (job.document x.key))

namespace Kept

variable {s : Cluster σ}

/-- The phases of the pods in the log change, their keys do not. -/
theorem mem_log_setPhase (hs : Kept S job s) {i : Nat} {k : ExportKey} {p p' : ExportPhase}
    (hi : s.exporters i = some ⟨k, p⟩) : ∀ l ∈ s.log, ∃ x, (s.setPhase i k p').exporters l.1 = some x ∧
      ∀ d, l.2 = some d → d = job.document x.key := by
  intro l hl
  obtain ⟨x, hx, hdoc⟩ := hs.mem_log l hl
  by_cases hli : l.1 = i
  · rw [hli, hi] at hx
    cases hx
    exact ⟨⟨k, p'⟩, by simp [Cluster.setPhase, hli], hdoc⟩
  · exact ⟨x, by simpa [Cluster.setPhase, hli] using hx, hdoc⟩

/-- A pod changes its phase, and the secret stays as it is. -/
theorem turn (hs : Kept S job s) {i : Nat} {k : ExportKey} {p p' : ExportPhase} {server : σ}
    (hi : s.exporters i = some ⟨k, p⟩) (hsecret : S.secret server = S.secret s.server)
    (hcreated : p'.HasCreated → p.HasCreated) : Kept S job ((s.setServer S i server).setPhase i k p') := by
  rw [Cluster.setServer, if_pos hsecret]
  refine ⟨fun l hl => hsecret.trans (hs.secret_eq l hl), hs.mem_log_setPhase hi, ?_⟩
  intro j x hx hp
  by_cases hji : j = i
  · subst hji
    obtain rfl : (⟨k, p'⟩ : Exporter) = x := by simpa [Cluster.setPhase] using hx
    exact hs.created j ⟨k, p⟩ hi (hcreated hp)
  · have hx' : s.exporters j = some x := by simpa [Cluster.setPhase, hji] using hx
    exact hs.created j x hx' hp

/-- A request of a pod changes the secret: a creation leaves the document of the pod, and after a deletion the pod has
not created the secret. -/
theorem request (hs : Kept S job s) {i : Nat} {k : ExportKey} {p p' : ExportPhase} {server : σ}
    (hi : s.exporters i = some ⟨k, p⟩) (hne : S.secret server ≠ S.secret s.server)
    (hdoc : ∀ d, S.secret server = some d → d = job.document k)
    (hcreated : p'.HasCreated → S.secret server = some (job.document k)) :
    Kept S job ((s.setServer S i server).setPhase i k p') := by
  rw [Cluster.setServer, if_neg hne]
  refine ⟨?_, ?_, ?_⟩
  · intro l hl
    obtain rfl : (i, S.secret server) = l := by simpa [Cluster.setPhase] using hl
    rfl
  · intro l hl
    obtain hl | rfl : l ∈ s.log ∨ l = (i, S.secret server) := by simpa [Cluster.setPhase] using hl
    · exact hs.mem_log_setPhase hi l hl
    · exact ⟨⟨k, p'⟩, by simp [Cluster.setPhase], hdoc⟩
  · intro j x hx hp
    have heffect : ∀ c : Cluster σ, c.log = s.log ++ [(i, S.secret server)] →
        c.lastEffect j = (if i = j then some (S.secret server) else none).or (s.lastEffect j) := by
      intro c hc
      rw [Cluster.lastEffect, hc]
      exact latest_concat s.log (i, S.secret server)
    rw [heffect _ rfl]
    by_cases hji : i = j
    · subst hji
      obtain rfl : (⟨k, p'⟩ : Exporter) = x := by simpa [Cluster.setPhase] using hx
      simp [hcreated hp]
    · have hx' : s.exporters j = some x := by
        simpa [Cluster.setPhase, Function.update_of_ne (Ne.symm hji)] using hx
      simpa [hji] using hs.created j x hx' hp

/-- A pod that starts has not created the secret. -/
theorem start (hs : Kept S job s) {i : Nat} (hi : s.exporters i = none) (key : Option ExportKey) :
    Kept S job { s with exporters := Function.update s.exporters i (startExport key) } where
  secret_eq := hs.secret_eq
  mem_log := by
    intro l hl
    obtain ⟨x, hx, hdoc⟩ := hs.mem_log l hl
    have hli : l.1 ≠ i := fun hli => by simp [hli, hi] at hx
    exact ⟨x, by simpa [hli] using hx, hdoc⟩
  created := by
    intro j x hx hp
    by_cases hji : j = i
    · have hstart : startExport key = some x := by simpa [hji] using hx
      cases key with
      | none => cases hstart
      | some k =>
        obtain rfl := Option.some.inj hstart
        by_cases hk : k.text = [] <;> simp [hk, ExportPhase.HasCreated] at hp
    · have hx' : s.exporters j = some x := by simpa [hji] using hx
      exact hs.created j x hx' hp

theorem next (hs : Kept S job s) {e : ExportEvent} (h : Timely s e) : Kept S job (clusterStep S job s e) := by
  have hmove : ClusterMove S job s (clusterStep S job s e) := clusterStep_move h
  generalize clusterStep S job s e = s' at hmove ⊢
  cases hmove with
  | stay => exact hs
  | start i key hi => exact hs.start hi key
  | create i k p p' server hi hnone hsecret =>
    refine hs.request hi ?_ (fun d hd => Option.some.inj (hd.symm.trans hsecret)) fun _ => hsecret
    rw [hnone, hsecret]
    exact Option.some_ne_none _
  | delete i k p p' server hi hsome hsecret hcreated =>
    refine hs.request hi (fun h => hsome (h.symm.trans hsecret)) ?_ fun hp => absurd hp hcreated
    intro d hd
    rw [hsecret] at hd
    cases hd
  | turn i k p p' server hi hsecret hcreated => exact hs.turn hi hsecret hcreated

theorem initial (server : σ) : Kept S job { server := server } where
  secret_eq := by simp
  mem_log := by simp
  created := by simp

/-- The pod of the last request does not owe a secret, so the secret is its own. -/
theorem exists_document (hs : Kept S job s) {l : Nat × Option Bytes} (hl : s.log.getLast? = some l)
    (howe : s.lastEffect l.1 ≠ some none) :
    ∃ x, s.exporters l.1 = some x ∧ S.secret s.server = some (job.document x.key) := by
  have hlog : s.log = s.log.dropLast ++ [l] := (List.dropLast_append_getLast? l hl).symm
  have hlast : s.lastEffect l.1 = some l.2 := by
    rw [Cluster.lastEffect, hlog, latest_concat]
    simp
  obtain ⟨x, hx, hdoc⟩ := hs.mem_log l (by rw [hlog]; simp)
  refine ⟨x, hx, ?_⟩
  rw [hs.secret_eq l hl]
  cases hc : l.2 with
  | none => exact absurd (hlast.trans (congrArg some hc)) howe
  | some d => rw [hdoc d hc]

end Kept

/-- Pods export their keys at the same time, and answers may get lost.  Once one of them has finished, the secret is
there with the key of a pod, unless a pod that has not finished has deleted the secret and not created it since. -/
theorem export_secret_kept {server : σ} {es : List ExportEvent}
    (hes : Along (clusterStep S job) Timely { server := server } es) {s : Cluster σ}
    (hs : runEvents (clusterStep S job) { server := server } es = s) {i : Nat} {x : Exporter}
    (hi : s.exporters i = some x) (hx : x.phase = .finished)
    (howe : ∀ j y, s.exporters j = some y → y.phase ≠ .finished → s.lastEffect j ≠ some none) :
    ∃ j y d, s.exporters j = some y ∧ S.secret s.server = some d ∧ secretEntry job.entry d = some y.key.echoed := by
  have hkept : Kept S job s := by
    rw [← hs]
    exact hes.invariant (Kept S job) (fun _ _ h hs => hs.next h) (Kept.initial server)
  have hcreated : s.lastEffect i = some (some (job.document x.key)) :=
    hkept.created i x hi (by rw [hx]; exact trivial)
  cases hl : s.log.getLast? with
  | none =>
    rw [List.getLast?_eq_none_iff] at hl
    simp [Cluster.lastEffect, hl] at hcreated
  | some l =>
    have hnone : s.lastEffect l.1 ≠ some none := by
      obtain ⟨y, hy, -⟩ := hkept.mem_log l (List.mem_of_getLast? hl)
      by_cases hfin : y.phase = .finished
      · rw [hkept.created l.1 y hy (by rw [hfin]; exact trivial)]
        simp
      · exact howe l.1 y hy hfin
    obtain ⟨y, hy, hsecret⟩ := hkept.exists_document hl hnone
    exact ⟨l.1, y, job.document y.key, hy, hsecret, job.secretEntry_document y.key⟩

/-- A server that carries out what it can. -/
def plainServer : SecretServer (Option Bytes) where
  secret := id
  post d
    | none => (str "HTTP/1.1 201 Created", some d)
    | some c => (str "HTTP/1.1 409 Conflict", some c)
  delete
    | none => (false, none)
    | some _ => (true, none)
  post_effect d s := by
    cases s with
    | none => exact .inr ⟨rfl, rfl⟩
    | some c => exact .inl rfl
  post_created d s h := by
    cases s with
    | none => exact ⟨rfl, rfl⟩
    | some c => exact absurd h (show isCreated (str "HTTP/1.1 409 Conflict") ≠ true by decide)
  delete_effect s := by cases s <;> exact .inr rfl

/-- Two pods with different keys; the second finds the secret of the first. -/
def twoExports : List ExportEvent :=
  [.start 0 (some oldKey), .start 1 (some newKey), .create 0, .posted 0 (str "HTTP/1.1 201 Created"), .create 1,
    .posted 1 (str "HTTP/1.1 409 Conflict"), .delete 1, .cleared 1 true, .wake 1, .create 1,
    .posted 1 (str "HTTP/1.1 201 Created")]

theorem timely_twoExports : Along (clusterStep plainServer tokenJob) Timely { server := none } twoExports := by
  have hcreated : ∀ {k k' : ExportKey} {answers : List Bytes},
      some (⟨k, .posting [str "HTTP/1.1 201 Created"]⟩ : Exporter) = some ⟨k', .posting answers⟩ →
        ∃ a ∈ answers, isCreated a = true := by
    intro k k' answers h
    obtain rfl : [str "HTTP/1.1 201 Created"] = answers := by
      simpa using (Exporter.mk.inj (Option.some.inj h)).2
    exact ⟨_, List.mem_singleton_self _, by decide⟩
  refine ⟨trivial, trivial, ⟨oldKey, [], rfl⟩, ?_, ⟨newKey, [], rfl⟩, ?_, ⟨newKey, [], rfl⟩, trivial, trivial,
    ⟨newKey, [], rfl⟩, ?_, trivial⟩
  · intro k answers hi _
    exact hcreated hi
  · intro k answers _ hout
    exact absurd hout (by decide)
  · intro k answers hi _
    exact hcreated hi

theorem export_secret_kept_twoExports : ∃ j y d,
    (runEvents (clusterStep plainServer tokenJob) { server := none } twoExports).exporters j = some y ∧
      plainServer.secret (runEvents (clusterStep plainServer tokenJob) { server := none } twoExports).server =
        some d ∧ secretEntry tokenJob.entry d = some y.key.echoed := by
  refine export_secret_kept timely_twoExports rfl (i := 0) (x := ⟨oldKey, .finished⟩) rfl rfl ?_
  intro j y hy hne
  match j with
  | 0 => exact absurd (congrArg Exporter.phase (Option.some.inj hy)).symm hne
  | 1 => exact absurd (congrArg Exporter.phase (Option.some.inj hy)).symm hne
  | j + 2 => cases hy

-- The answer to the deletion is lost, `wget` tries again and gets `404 Not Found`, and the script ends.
example : (runEvents (clusterStep plainServer tokenJob) { server := some [] } [.start 0 (some oldKey), .create 0,
    .posted 0 (str "HTTP/1.1 409 Conflict"), .delete 0, .delete 0, .cleared 0 false]).server = none := rfl

-- A deletion that is handled when its pod has finished leaves no secret.
example : (runEvents (clusterStep plainServer tokenJob) { server := none } (twoExports ++ [.delete 1])).server =
    none := rfl

/-! ### A pod that is left alone -/

variable (S) in
/-- The server carries out every request that it can: it creates a secret that is not there, answers with a conflict
if it is there, and deletes it then. -/
structure SecretServer.Obliging : Prop where
  created : ∀ d s, S.secret s = none → isCreated (S.post d s).1 = true
  conflict : ∀ d s, S.secret s ≠ none → isConflict (S.post d s).1 = true
  deleted : ∀ s, S.secret s ≠ none → (S.delete s).1 = true ∧ S.secret (S.delete s).2 = none

/-- An event of one pod, whose calls of `wget` send one request each and get its answer. -/
def Prompt (i : Nat) (s : Cluster σ) : ExportEvent → Prop
  | .create j => j = i ∧ ∃ k, s.exporters i = some ⟨k, .posting []⟩
  | .posted j out => j = i ∧ ∃ k a, s.exporters i = some ⟨k, .posting [a]⟩ ∧ isCreated out = isCreated a ∧
    isConflict out = isConflict a
  | .delete j => j = i ∧ ∃ k, s.exporters i = some ⟨k, .clearing []⟩
  | .cleared j ok => j = i ∧ ∃ k, s.exporters i = some ⟨k, .clearing [ok]⟩
  | .wake j => j = i ∧ ∃ k, s.exporters i = some ⟨k, .sleeping⟩
  | .start .. | .kill _ => False

/-- The number of events until the script has finished. -/
def ExportPhase.work (present : Bool) : ExportPhase → Nat
  | .sleeping => if present then 8 else 3
  | .posting [] => if present then 7 else 2
  | .posting [a] => if isCreated a then 1 else 6
  | .clearing [] => 5
  | .clearing [true] => 4
  | _ => 0

/-- The secret and the phase of a pod with this document while no other pod does anything. -/
inductive Alone (d : Bytes) : Option Bytes → ExportPhase → Prop
  | sleeping (c : Option Bytes) : Alone d c .sleeping
  | posting (c : Option Bytes) : Alone d c (.posting [])
  | refused (c a : Bytes) (hcreated : isCreated a = false) (hconflict : isConflict a = true) :
    Alone d (some c) (.posting [a])
  | clearing (c : Bytes) : Alone d (some c) (.clearing [])
  | deleted : Alone d none (.clearing [true])
  | created (a : Bytes) (hcreated : isCreated a = true) : Alone d (some d) (.posting [a])
  | finished : Alone d (some d) .finished

namespace Cluster

variable (S job) in
def RunsAlone (i : Nat) (k : ExportKey) (s : Cluster σ) : Prop :=
  ∃ p, s.exporters i = some ⟨k, p⟩ ∧ Alone (job.document k) (S.secret s.server) p

variable (S) in
def work (i : Nat) (s : Cluster σ) : Nat :=
  match s.exporters i with
  | some x => x.phase.work (S.secret s.server).isSome
  | none => 0

variable {s : Cluster σ} {i : Nat} {k : ExportKey} {p : ExportPhase}

theorem work_eq (h : s.exporters i = some ⟨k, p⟩) : s.work S i = p.work (S.secret s.server).isSome := by
  rw [work, h]

theorem exporters_setPhase (s : Cluster σ) (i : Nat) (k : ExportKey) (p : ExportPhase) :
    (s.setPhase i k p).exporters i = some ⟨k, p⟩ :=
  Function.update_self ..

/-- The pod goes to another phase with less to do. -/
theorem runsAlone_setPhase {p' : ExportPhase} {c : Option Bytes} {w : Nat} (hsecret : S.secret s.server = c)
    (halone : Alone (job.document k) c p') (hwork : p'.work c.isSome < w) :
    (s.setPhase i k p').RunsAlone S job i k ∧ (s.setPhase i k p').work S i < w := by
  have hi := s.exporters_setPhase i k p'
  subst hsecret
  refine ⟨⟨p', hi, halone⟩, ?_⟩
  rw [work_eq hi]
  exact hwork

end Cluster

theorem Prompt.next (hS : S.Obliging) {i : Nat} {k : ExportKey} {s : Cluster σ} {e : ExportEvent} (h : Prompt i s e)
    (hs : s.RunsAlone S job i k) :
    (clusterStep S job s e).RunsAlone S job i k ∧ (clusterStep S job s e).work S i < s.work S i := by
  obtain ⟨p, hi, halone⟩ := hs
  rw [Cluster.work_eq hi]
  cases e with
  | start j key => exact h.elim
  | kill j => exact h.elim
  | create j =>
    obtain ⟨rfl, k', hk⟩ := h
    obtain ⟨rfl, rfl⟩ : k = k' ∧ p = .posting [] := by simpa [hi] using hk
    simp only [clusterStep, hi, ExportPhase.answered, List.nil_append]
    cases hsecret : S.secret s.server with
    | none =>
      have hcreated := hS.created (job.document k) s.server hsecret
      have hnew := (S.post_created _ _ hcreated).2
      exact Cluster.runsAlone_setPhase hnew (.created _ hcreated) (by simp [ExportPhase.work, hcreated])
    | some c =>
      have hsome : S.secret s.server ≠ none := hsecret.trans_ne (Option.some_ne_none c)
      have hcreated : isCreated (S.post (job.document k) s.server).1 = false := by
        rw [← Bool.not_eq_true]
        exact fun h => hsome (S.post_created _ _ h).1
      have hnew := (S.post_effect (job.document k) s.server).resolve_right fun h => hsome h.1
      exact Cluster.runsAlone_setPhase (hnew.trans hsecret) (.refused c _ hcreated (hS.conflict _ _ hsome))
        (by simp [ExportPhase.work, hcreated])
  | posted j out =>
    obtain ⟨rfl, k', a, hk, hcreated, hconflict⟩ := h
    obtain ⟨rfl, rfl⟩ : k = k' ∧ p = .posting [a] := by simpa [hi] using hk
    simp only [clusterStep, hi, afterPost, hcreated, hconflict]
    generalize hsecret : S.secret s.server = secret at halone
    cases halone with
    | refused c a hno hyes =>
      rw [hno, hyes]
      exact Cluster.runsAlone_setPhase hsecret (.clearing c) (by simp [ExportPhase.work, hno])
    | created a hyes =>
      rw [hyes]
      exact Cluster.runsAlone_setPhase hsecret .finished (by simp [ExportPhase.work, hyes])
  | delete j =>
    obtain ⟨rfl, k', hk⟩ := h
    obtain ⟨rfl, rfl⟩ : k = k' ∧ p = .clearing [] := by simpa [hi] using hk
    simp only [clusterStep, hi, ExportPhase.handled, List.nil_append]
    generalize hsecret : S.secret s.server = secret at halone
    cases halone with
    | clearing c =>
      obtain ⟨hok, hnew⟩ := hS.deleted s.server (hsecret.trans_ne (Option.some_ne_none c))
      rw [hok]
      exact Cluster.runsAlone_setPhase hnew .deleted (by simp [ExportPhase.work])
  | cleared j ok =>
    obtain ⟨rfl, k', hk⟩ := h
    obtain ⟨rfl, rfl⟩ : k = k' ∧ p = .clearing [ok] := by simpa [hi] using hk
    simp only [clusterStep, hi]
    generalize hsecret : S.secret s.server = secret at halone
    cases halone with
    | deleted => exact Cluster.runsAlone_setPhase hsecret (.sleeping none) (by simp [ExportPhase.work])
  | wake j =>
    obtain ⟨rfl, k', hk⟩ := h
    obtain ⟨rfl, rfl⟩ : k = k' ∧ p = .sleeping := by simpa [hi] using hk
    simp only [clusterStep, hi]
    refine Cluster.runsAlone_setPhase rfl (.posting _) ?_
    cases S.secret s.server <;> simp [ExportPhase.work]

/-- A pod that is left alone and has not finished can go on. -/
theorem Cluster.RunsAlone.finished_or_prompt {i : Nat} {k : ExportKey} {s : Cluster σ} (hs : s.RunsAlone S job i k) :
    (s.exporters i = some ⟨k, .finished⟩ ∧ S.secret s.server = some (job.document k)) ∨ ∃ e, Prompt i s e := by
  obtain ⟨p, hi, halone⟩ := hs
  generalize hsecret : S.secret s.server = secret at halone
  cases halone with
  | sleeping => exact .inr ⟨.wake i, rfl, k, hi⟩
  | posting => exact .inr ⟨.create i, rfl, k, hi⟩
  | refused c a => exact .inr ⟨.posted i a, rfl, k, a, hi, rfl, rfl⟩
  | clearing c => exact .inr ⟨.delete i, rfl, k, hi⟩
  | deleted => exact .inr ⟨.cleared i true, rfl, k, hi⟩
  | created a => exact .inr ⟨.posted i a, rfl, k, a, hi, rfl, rfl⟩
  | finished => exact .inl ⟨hi, rfl⟩

/-- A pod that is left alone before it posts, whatever the others have left, finishes after at most eight events,
and the secret is its own. -/
theorem export_alone_finishes (hS : S.Obliging) {s : Cluster σ} {i : Nat} {k : ExportKey}
    (hi : s.exporters i = some ⟨k, .posting []⟩ ∨ s.exporters i = some ⟨k, .sleeping⟩) {es : List ExportEvent}
    (hes : Along (clusterStep S job) (Prompt i) s es) {s' : Cluster σ}
    (hs' : runEvents (clusterStep S job) s es = s') :
    es.length ≤ 8 ∧ ((∃ e, Prompt i s' e) ∨
      s'.exporters i = some ⟨k, .finished⟩ ∧ S.secret s'.server = some (job.document k)) := by
  have hstart : s.RunsAlone S job i k ∧ s.work S i ≤ 8 := by
    rcases hi with hi | hi
    · refine ⟨⟨_, hi, .posting _⟩, ?_⟩
      rw [Cluster.work_eq hi]
      cases S.secret s.server <;> simp [ExportPhase.work]
    · refine ⟨⟨_, hi, .sleeping _⟩, ?_⟩
      rw [Cluster.work_eq hi]
      cases S.secret s.server <;> simp [ExportPhase.work]
  obtain ⟨hend, hlen⟩ := hes.length_add_work_le (Cluster.RunsAlone S job i k) (Cluster.work S i)
    (fun _ _ h hs => h.next hS hs) hstart.1
  rw [hs'] at hend
  exact ⟨by omega, hend.finished_or_prompt.symm⟩

theorem obliging_plainServer : plainServer.Obliging where
  created d s h := by
    cases s with
    | none => exact (show isCreated (str "HTTP/1.1 201 Created") = true by decide)
    | some c => cases h
  conflict d s h := by
    cases s with
    | none => exact absurd rfl h
    | some c => exact (show isConflict (str "HTTP/1.1 409 Conflict") = true by decide)
  deleted s h := by
    cases s with
    | none => exact absurd rfl h
    | some c => exact ⟨rfl, rfl⟩

theorem export_alone_finishes_tokenJob : (twoExports.drop 4).length ≤ 8 ∧
    ((∃ e, Prompt 1 (runEvents (clusterStep plainServer tokenJob) { server := none } twoExports) e) ∨
      (runEvents (clusterStep plainServer tokenJob) { server := none } twoExports).exporters 1 =
        some ⟨newKey, .finished⟩ ∧
      plainServer.secret (runEvents (clusterStep plainServer tokenJob) { server := none } twoExports).server =
        some (tokenJob.document newKey)) := by
  refine export_alone_finishes obliging_plainServer
    (s := runEvents (clusterStep plainServer tokenJob) { server := none } (twoExports.take 4)) (.inl rfl) ?_ rfl
  exact ⟨⟨rfl, newKey, rfl⟩, ⟨rfl, newKey, str "HTTP/1.1 409 Conflict", rfl, rfl, rfl⟩, ⟨rfl, newKey, rfl⟩,
    ⟨rfl, newKey, rfl⟩, ⟨rfl, newKey, rfl⟩, ⟨rfl, newKey, rfl⟩,
    ⟨rfl, newKey, str "HTTP/1.1 201 Created", rfl, rfl, rfl⟩, trivial⟩

end

end MaasBoot
