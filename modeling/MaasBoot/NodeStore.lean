import MaasBoot.Lib.Mac
import MaasBoot.Lib.Runs
import MaasBoot.Node
import Mathlib.Data.Finmap

/-!
# The node store

`NodeStore` of `nodes_store.go` keeps the nodes of a file that is read again on demand.  `Reload` may run in several
goroutines at once: it reads the file without a lock, compares the hash of what it has read under the read lock,
parses, and installs the nodes under the write lock.  These steps are atomic here, and between any two of them other
calls may take theirs and the file may change.
-/

namespace MaasBoot

/-! ### Keys and documents -/

def normalizeMAC (u : Unicode) (s : Bytes) : Bytes :=
  match parseMAC (trimSpace s) with
  | some hw => if hw.length = 6 then toLower u (macString hw) else []
  | none => []

def normalizeKey (u : Unicode) (s : Bytes) : Bytes :=
  if normalizeMAC u s ≠ [] then normalizeMAC u s else toLower u (trimSpace s)

def nodesFileVersion : Int := 1

/-- A decoded document; the nodes are listed in the order in which `range` visits them. -/
structure NodesFile where
  version : Int
  nodes : List (Bytes × Node)

abbrev NodeMap := Finmap fun _ : Bytes => Node

/-- The parts of the environment: `unicode`, `json.Unmarshal` into a `NodesFile`, `sha256.Sum256` and the path of the
nodes file. -/
structure StoreEnv where
  unicode : Unicode
  unmarshal : Bytes → Except Bytes NodesFile
  sha256 : Bytes → Vector UInt8 32
  path : Bytes

variable (env : StoreEnv)

def parseNodes (b : Bytes) : Except Bytes NodeMap := do
  let f ← env.unmarshal b
  if f.version > nodesFileVersion then
    throw (str "unsupported nodes file version " ++ decimal f.version.toNat ++ str " (max " ++
      decimal nodesFileVersion.toNat ++ str ")")
  else pure (f.nodes.foldl (fun out kv => out.insert (normalizeKey env.unicode kv.1) kv.2) ∅)

/-! ### The store -/

structure NodeStore where
  nodes : NodeMap := ∅
  hash : Vector UInt8 32 := Vector.replicate 32 0
  loaded : Bool := false
  lastErr : Bytes := []

def NodeStore.get (s : NodeStore) (mac : Bytes) : Option Node := s.nodes.lookup (normalizeKey env.unicode mac)

def NodeStore.put (s : NodeStore) (mac : Bytes) (n : Node) : NodeStore :=
  { s with nodes := s.nodes.insert (normalizeKey env.unicode mac) n }

def NodeStore.len (s : NodeStore) : Nat := s.nodes.keys.card

def NodeStore.noteError (s : NodeStore) (msg : Bytes) : NodeStore := { s with lastErr := msg }

/-- What the file is at some moment. -/
inductive FileState where
  | content (b : Bytes)
  | missing
  | unreadable (err : Bytes)
  deriving DecidableEq

/-- Where a call of `Reload` is. -/
inductive Phase where
  /-- No call has been made. -/
  | idle
  | start
  /-- The file was not found; the known nodes are counted for the message. -/
  | counting
  /-- About to note an error and to return `err`. -/
  | noting (msg : Bytes) (err : Option Bytes)
  /-- `b` was read. -/
  | checking (b : Bytes)
  | parsing (b : Bytes)
  | installing (b : Bytes) (nodes : NodeMap)
  /-- The call has returned. -/
  | done (changed : Bool) (err : Option Bytes)

/-- The next step of a call, with its effect on the store. -/
def reloadStep (file : FileState) (s : NodeStore) : Phase → NodeStore × Phase
  | .idle => (s, .idle)
  | .start =>
    if env.path = [] then (s, .done false none)
    else
      match file with
      | .content b => (s, .checking b)
      | .missing => (s, .counting)
      | .unreadable err => (s, .noting (str "reading nodes file " ++ env.path ++ str ": " ++ err) (some err))
  | .counting =>
    (s, .noting (str "nodes file " ++ env.path ++ str " not found; keeping " ++ decimal s.len ++ str " known node(s)")
      none)
  | .noting msg err => (s.noteError msg, .done false err)
  | .checking b => if s.loaded ∧ env.sha256 b = s.hash then (s, .done false none) else (s, .parsing b)
  | .parsing b =>
    match parseNodes env b with
    | .error err =>
      (s, .noting (str "ignoring invalid nodes file " ++ env.path ++ str " (keeping previous data): " ++ err)
        (some err))
    | .ok nodes => (s, .installing b nodes)
  | .installing b nodes =>
    ({ nodes := nodes, hash := env.sha256 b, loaded := true, lastErr := [] }, .done true none)
  | .done changed err => (s, .done changed err)

/-! ### Concurrent calls -/

/-- The file, the store and the calls.  The other fields are a record of the past that no step looks at: the contents
the file has had, the content installed last, the number of installations, and for every call how many there were when
it read the file. -/
structure StoreState where
  file : FileState
  store : NodeStore := {}
  calls : Nat → Phase := fun _ => .idle
  held : List Bytes
  installed : Option Bytes := none
  installs : Nat := 0
  readAt : Nat → Nat := fun _ => 0

inductive StoreEvent where
  /-- The file is replaced, deleted or made unreadable. -/
  | file (f : FileState)
  /-- `Reload` is called. -/
  | call (i : Nat)
  /-- The call `i` takes its next step. -/
  | step (i : Nat)

def FileState.contents : FileState → List Bytes
  | .content b => [b]
  | .missing => []
  | .unreadable _ => []

/-- The record of the past after a step of the call `i`. -/
def StoreState.record (s : StoreState) (i : Nat) : StoreState :=
  match s.calls i with
  | .start => { s with readAt := Function.update s.readAt i s.installs }
  | .installing b _ => { s with installed := some b, installs := s.installs + 1 }
  | _ => s

def storeNext (s : StoreState) : StoreEvent → StoreState
  | .file f => { s with file := f, held := s.held ++ f.contents }
  | .call i =>
    match s.calls i with
    | .idle => { s with calls := Function.update s.calls i .start }
    | .done _ _ => { s with calls := Function.update s.calls i .start }
    | _ => s
  | .step i =>
    let (store, phase) := reloadStep env s.file s.store (s.calls i)
    { s.record i with store := store, calls := Function.update s.calls i phase }

/-- A new store over a file. -/
def StoreState.init (file : FileState) : StoreState := { file := file, held := file.contents }

end MaasBoot
