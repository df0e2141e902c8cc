import MaasBoot.IsoRequests
import MaasBoot.Lib.HttpHeader
import MaasBoot.ResolveNode

/-!
# The server

`Server` of `main.go` with everything that runs in it.  Every request has a goroutine that runs `ServeHTTP`: it
reads the configuration once, and then serves an image, the overlay or an answer of the rack.  On the way it may
look a node up, and for that reload both files, and it may build an image and put it into the cache.  `Watch`
reloads the files as well, the cache is swept, and the files change.

A step of a goroutine is what it does under one lock, or the reading of a file or of the clock.  Between any two
steps of a goroutine the others may take theirs.
-/

namespace MaasBoot

/-! ### Requests and replies -/

structure HttpRequest extends Request where
  method : Bytes := str "GET"
  header : HttpHeader := ∅
  body : Bytes := []

/-- What `ServeHTTP` hands to the response writer. -/
inductive Reply where
  /-- `http.Error` -/
  | error (text : Bytes) (code : Nat)
  /-- `http.ServeContent` -/
  | content (contentType name : Bytes) (modTime : Int) (data : Bytes)
  /-- An answer of the rack. -/
  | answer (code : Nat) (header : HttpHeader) (body : Bytes)

/-- A request to the rack. -/
structure UpstreamRequest where
  method : Bytes
  url : Bytes
  header : HttpHeader
  body : Bytes

inductive UpstreamResult where
  /-- `Do` fails. -/
  | unreachable
  | response (code : Nat) (header : HttpHeader) (body : Stream)

def isBinary (path : Bytes) : Bool :=
  (str "/images/").isPrefixOf path || (str "/machine-resources/").isPrefixOf path ||
    decide (str "maas-scripts" <:+: path)

def isoErrorStatus (ipxeEFI : Bytes) : Nat := if ipxeEFI.length = 0 then 503 else 500

/-- The group of the pattern `ipxe\.cfg-([0-9A-Fa-f:.-]+)$`. -/
def ipxeRe (path : Bytes) : Option Bytes :=
  (path.tails.find? fun t => (str "ipxe.cfg-").isPrefixOf t && t.drop 9 != [] && (t.drop 9).all isMacByte).map
    (·.drop 9)

example : ipxeRe (str "/MAAS/ipxe.cfg-02:5e:1c:9a:47:d3") = some (str "02:5e:1c:9a:47:d3") ∧
    ipxeRe (str "/ipxe.cfg") = none ∧ ipxeRe (str "/ipxe.cfg-02.cfg") = none := by decide

/-- The address whose node an iPXE script is meant for, if there is one. -/
def ipxeMAC (path genesisMAC : Bytes) : Bytes :=
  if str "ipxe.cfg" <:+: path then (ipxeRe path).getD genesisMAC else []

/-- The base of the proxy's own URLs. -/
def Config.base (cfg : Config) (host : Bytes) : Bytes :=
  if cfg.proxyBase = [] then str "http://" ++ host else cfg.proxyBase

/-- The address by which the endpoint of the nodes' images goes. -/
def isoMAC (u : Unicode) (rawMAC : Bytes) : Bytes :=
  if normalizeMAC u rawMAC = [] then toLower u rawMAC else normalizeMAC u rawMAC

def upstreamHeader (header : HttpHeader) : HttpHeader :=
  (HttpHeader.copy ∅ header fun k => equalFold k (str "Accept-Encoding")).set (str "Accept-Encoding") (str "identity")

/-- The request that is made to the rack. -/
def HttpRequest.forward (r : HttpRequest) (upURL : Bytes) : UpstreamRequest where
  method := r.method
  url := upURL
  header := upstreamHeader r.header
  body := r.body

def copyHeaders (header : HttpHeader) (skipLen : Bool) : HttpHeader :=
  HttpHeader.copy ∅ header fun k => skipLen && equalFold k (str "Content-Length")

/-- An answer that is passed on as it is. -/
def streamed (code : Nat) (header : HttpHeader) (body : Bytes) : Reply := .answer code (copyHeaders header false) body

/-- An answer with another body. -/
def rewritten (code : Nat) (header : HttpHeader) (body : Bytes) : Reply :=
  .answer code ((copyHeaders header true).set (str "Content-Length") (decimal body.length)) body

/-! ### The environment and the shared state -/

/-- The fields of `Server` that do not change, and the packages that it uses. -/
structure ServerEnv (R : Type) where
  unicode : Unicode
  sha256 : Bytes → Vector UInt8 32
  md5 : Bytes → Vector UInt8 16
  gzip : Gzip
  tar : Tar R
  unmarshalNodes : Bytes → Except Bytes NodesFile
  unmarshalConfig : Bytes → Except Bytes ConfigFile
  nodesPath : Bytes
  cfgPath : Bytes
  overrides : Config
  missWait : Int
  ipxeEFI : Bytes
  overlayCPIO : Bytes
  bootTime : Int

section Steps

variable {R : Type} (env : ServerEnv R)

def ServerEnv.store : StoreEnv where
  unicode := env.unicode
  unmarshal := env.unmarshalNodes
  sha256 := env.sha256
  path := env.nodesPath

def ServerEnv.config : ConfigEnv where
  unicode := env.unicode
  unmarshal := env.unmarshalConfig
  sha256 := env.sha256
  path := env.cfgPath
  overrides := env.overrides

def ServerEnv.iso : IsoOps IsoRequest GoError where
  key := IsoRequest.key
  hash := IsoRequest.hash fun b => (env.sha256 b).toList
  build := IsoRequest.build env.unicode env.ipxeEFI

/-- What the goroutines share.  A goroutine's calls of `reloadConfig` and of `NodeStore.Reload` have its own number.
-/
structure Shared where
  clock : Int
  config : ConfigState
  nodes : StoreState
  cache : ISOCache

/-! ### Reloading and resolving -/

/-- Where a call of `Server.Reload` stands. -/
inductive ReloadPhase where
  | start
  /-- In `reloadConfig`. -/
  | config
  /-- In `NodeStore.Reload`. -/
  | nodes
  deriving DecidableEq

/-- The next step of `Server.Reload`; `none` is its return. -/
def reloadServerStep (i : Nat) (order : VisitOrder) (s : Shared) : ReloadPhase → Shared × Option ReloadPhase
  | .start => ({ s with config := configNext env.config s.config (.call i) }, some .config)
  | .config =>
    let config := configNext env.config s.config (.step i order)
    match config.calls i with
    | .done _ => ({ s with config := config, nodes := storeNext env.store s.nodes (.call i) }, some .nodes)
    | _ => ({ s with config := config }, some .config)
  | .nodes =>
    let nodes := storeNext env.store s.nodes (.step i)
    match nodes.calls i with
    | .done _ _ => ({ s with nodes := nodes }, none)
    | _ => ({ s with nodes := nodes }, some .nodes)

/-- In nanoseconds. -/
def missPollInterval : Int := 500 * 1000000

/-- Where the loop of `resolveNode` stands; `again` is the look-up after the reload. -/
inductive ResolvePhase where
  | nodes (again : Bool)
  | config (again : Bool)
  | reload (q : ReloadPhase)
  | deadline
  | waiting (since : Int)
  deriving DecidableEq

/-- The next step of the loop; a result ends it. -/
def resolveStep (i : Nat) (order : VisitOrder) (norm : Bytes) (deadline : Int) (s : Shared) :
    ResolvePhase → Shared × (ResolvePhase ⊕ Option Node)
  | .nodes again =>
    match s.nodes.store.get env.store norm with
    | some node => (s, .inr (some node))
    | none => (s, .inl (.config again))
  | .config again =>
    match s.config.server.cfg.nodes.lookup norm with
    | some node => (s, .inr (some node))
    | none => (s, .inl (if again then .deadline else .reload .start))
  | .reload q =>
    match reloadServerStep env i order s q with
    | (s', some q') => (s', .inl (.reload q'))
    | (s', none) => (s', .inl (.nodes true))
  | .deadline => if s.clock < deadline then (s, .inl (.waiting s.clock)) else (s, .inr none)
  | .waiting since =>
    if since + missPollInterval ≤ s.clock then (s, .inl (.nodes false)) else (s, .inl (.waiting since))

/-! ### Handling a request -/

/-- What a node is looked up for. -/
inductive Purpose where
  | iso (rawMAC normMAC : Bytes)
  /-- To complete an iPXE script of the rack. -/
  | ipxe (code : Nat) (header : HttpHeader) (body : Bytes)

inductive HandlerPhase where
  | resolving (purpose : Purpose) (norm : Bytes) (deadline : Int) (q : ResolvePhase)
  /-- In `cachedISO`, for a file of this name. -/
  | composing (name : Bytes) (q : IsoPhase IsoRequest GoError)
  /-- Waits for the rack. -/
  | forwarding (genesisMAC : Bytes) (up : UpstreamRequest)
  | rewriting (genesisMAC : Bytes) (code : Nat) (header : HttpHeader) (body : Bytes)
  | done (reply : Reply)

/-- After `resolveNode`. -/
def resolved (r : HttpRequest) (cfg : Config) : Purpose → Option Node → HandlerPhase
  | .iso rawMAC _, none => .done (.error (str "node with MAC " ++ rawMAC ++ str " not found") 404)
  | .iso _ normMAC, some node =>
    .composing (str "ipxe-" ++ normMAC ++ str ".iso") (.getting (.node node normMAC (cfg.base r.host)))
  | .ipxe code header body, none => .done (rewritten code header body)
  | .ipxe code header body, some node =>
    .done (rewritten code header (injectNode env.unicode cfg.overlayURL (cfg.base r.host) node body))

/-- The call of `resolveNode`. -/
def startResolving (clock : Int) (r : HttpRequest) (cfg : Config) (purpose : Purpose) (mac : Bytes) : HandlerPhase :=
  let norm := normalizeKey env.unicode mac
  if norm = [] then resolved env r cfg purpose none
  else .resolving purpose norm (clock + env.missWait) (.nodes false)

/-- `ServeHTTP` after it has read the configuration. -/
def serve (clock : Int) (r : HttpRequest) (cfg : Config) : HandlerPhase :=
  match route env.unicode cfg r.toRequest with
  | .genericISO => .composing (str "generic-boot.iso") (.getting (.generic (cfg.base r.host)))
  | .overlay =>
    .done (.content (str "application/x-gzip") (str "genesis-overlay.cpio.gz") env.bootTime env.overlayCPIO)
  | .nodeISO rawMAC =>
    startResolving env clock r cfg (.iso rawMAC (isoMAC env.unicode rawMAC)) (isoMAC env.unicode rawMAC)
  | .noUpstream => .done (.error (str "upstream rack proxy not configured") 503)
  | .upstream genesisMAC upURL =>
    match Url.parse upURL with
    | none => .done (.error (str "bad upstream request") 500)
    | some _ => .forwarding genesisMAC (r.forward upURL)

/-- `ServeHTTP` with the result of the request to the rack. -/
def receive (r : HttpRequest) (genesisMAC : Bytes) : UpstreamResult → HandlerPhase
  | .unreachable => .done (.error (str "upstream unreachable") 502)
  | .response code header body =>
    if isBinary r.path || r.method != str "GET" then .done (streamed code header body.data)
    else if body.ends then .rewriting genesisMAC code header body.data
    else .done (.error (str "read error from upstream") 502)

/-- The next step of a request. -/
def handlerStep (i : Nat) (order : VisitOrder) (r : HttpRequest) (cfg : Config) (s : Shared) :
    HandlerPhase → Shared × HandlerPhase
  | .resolving purpose norm deadline q =>
    match resolveStep env i order norm deadline s q with
    | (s', .inl q') => (s', .resolving purpose norm deadline q')
    | (s', .inr node) => (s', resolved env r cfg purpose node)
  | .composing name q =>
    match cachedISOStep env.iso env.unicode s.clock s.cache q with
    | (c, .returned _ (.ok p)) =>
      ({ s with cache := c },
        .done (.content (str "application/x-iso9660-image") name (c.heap p).modTime (c.heap p).data))
    | (c, .returned _ (.error _)) =>
      ({ s with cache := c }, .done (.error (str "failed to build ISO") (isoErrorStatus env.ipxeEFI)))
    | (c, q') => ({ s with cache := c }, .composing name q')
  | .forwarding genesisMAC up => (s, .forwarding genesisMAC up)
  | .rewriting genesisMAC code header body =>
    match rewriteData env.unicode env.gzip env.tar env.md5 body (cfg.base r.host) cfg.rewrites with
    | none => (s, .rewriting genesisMAC code header body)
    | some res =>
      let body := match res with
        | .ok rewrittenBody => rewrittenBody
        | .error _ => body
      let mac := ipxeMAC r.path genesisMAC
      if mac = [] then (s, .done (rewritten code header body))
      else (s, startResolving env s.clock r cfg (.ipxe code header body) mac)
  | .done reply => (s, .done reply)

/-! ### Goroutines -/

inductive Goroutine where
  /-- There is no such goroutine. -/
  | idle
  /-- A request that `ServeHTTP` is about to handle. -/
  | arrived (r : HttpRequest)
  | serving (r : HttpRequest) (cfg : Config) (q : HandlerPhase)
  /-- A reload by `main` or by `Watch`. -/
  | reloading (q : ReloadPhase)
  | ended

structure ServerState where
  shared : Shared
  goroutines : Nat → Goroutine

inductive ServerEvent where
  /-- A file is replaced, deleted or made unreadable. -/
  | configFile (f : FileState)
  | nodesFile (f : FileState)
  | request (i : Nat) (r : HttpRequest)
  | reload (i : Nat)
  /-- The goroutine `i` takes its next step. -/
  | step (i : Nat) (order : VisitOrder)
  /-- The client of a request that waits for a node goes away. -/
  | cancel (i : Nat)
  /-- The rack has answered, or cannot be reached. -/
  | upstream (i : Nat) (res : UpstreamResult)
  | reap
  /-- Time goes by. -/
  | tick (d : Nat)

/-- The next step of a goroutine. -/
def goroutineStep (i : Nat) (order : VisitOrder) (s : Shared) : Goroutine → Shared × Goroutine
  | .idle => (s, .idle)
  | .arrived r => (s, .serving r s.config.server.cfg (serve env s.clock r s.config.server.cfg))
  | .serving r cfg q => ((handlerStep env i order r cfg s q).1, .serving r cfg (handlerStep env i order r cfg s q).2)
  | .reloading q =>
    match reloadServerStep env i order s q with
    | (s', some q') => (s', .reloading q')
    | (s', none) => (s', .ended)
  | .ended => (s, .ended)

/-- What a goroutine does when its client goes away. -/
def Goroutine.cancel : Goroutine → Goroutine
  | .serving r cfg (.resolving purpose _ _ (.waiting _)) => .serving r cfg (resolved env r cfg purpose none)
  | g => g

/-- What a goroutine does with the result of its request to the rack. -/
def Goroutine.receive (res : UpstreamResult) : Goroutine → Goroutine
  | .serving r cfg (.forwarding genesisMAC _) => .serving r cfg (MaasBoot.receive r genesisMAC res)
  | g => g

/-- A new goroutine, unless there is one with its number. -/
def Goroutine.start : Goroutine → Goroutine → Goroutine
  | .idle, new => new
  | g, _ => g

def serverNext (s : ServerState) : ServerEvent → ServerState
  | .configFile f => { s with shared := { s.shared with config := configNext env.config s.shared.config (.file f) } }
  | .nodesFile f => { s with shared := { s.shared with nodes := storeNext env.store s.shared.nodes (.file f) } }
  | .request i r => { s with goroutines := Function.update s.goroutines i ((s.goroutines i).start (.arrived r)) }
  | .reload i => { s with goroutines := Function.update s.goroutines i ((s.goroutines i).start (.reloading .start)) }
  | .step i order =>
    { shared := (goroutineStep env i order s.shared (s.goroutines i)).1
      goroutines := Function.update s.goroutines i (goroutineStep env i order s.shared (s.goroutines i)).2 }
  | .cancel i => { s with goroutines := Function.update s.goroutines i ((s.goroutines i).cancel env) }
  | .upstream i res => { s with goroutines := Function.update s.goroutines i ((s.goroutines i).receive res) }
  | .reap => { s with shared := { s.shared with cache := (s.shared.cache.reap s.shared.clock).1 } }
  | .tick d => { s with shared := { s.shared with clock := s.shared.clock + d } }

/-- `main` up to the first reload. -/
def ServerState.start (configFile nodesFile : FileState) (order : VisitOrder) (ttl clock : Int) : ServerState where
  shared :=
    { clock := clock
      config := .start env.config configFile order
      nodes := .init nodesFile
      cache := .new ttl }
  goroutines := fun _ => .idle

end Steps

end MaasBoot
