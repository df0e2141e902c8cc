import MaasBoot.IsoLayout
import MaasBoot.Lib.Sha256
import MaasBoot.RewriteArchive
import MaasBoot.ServerRuns

/-!
# What the server replies

`Expected` says which replies a request may get, without goroutines and their steps: it depends on one
configuration, on the records under which a node was found or not found, on the images that were built and on the
rack's answer.  In every interleaving a reply is one of these, where the configuration is the one that the request
has read when it was handled first, and the records are those that the node store and the configuration had at some
moment at which the request was looking for its node; and the images were built for requests which have come to
their records in the same way (`serveHTTP_expected`).
-/

namespace MaasBoot

/-! ### The specification -/

/-- What a request has come across: records under keys, keys without a record in the node store and in the
configuration when they were looked up after a reload, and the result of a request to the rack; and the images that
were built so far, by whatever goroutine. -/
structure Evidence where
  seen : Bytes → Node → Prop
  missedNodes : Bytes → Prop
  missedConfig : Bytes → Prop
  answered : UpstreamRequest → UpstreamResult → Prop
  built : IsoRequest → Prop

/-- No record was found under the key. -/
def Evidence.Missed (ev : Evidence) (norm : Bytes) : Prop := norm = [] ∨ (ev.missedNodes norm ∧ ev.missedConfig norm)

/-- There is more evidence. -/
structure Evidence.Le (ev ev' : Evidence) : Prop where
  seen : ∀ {norm n}, ev.seen norm n → ev'.seen norm n
  missedNodes : ∀ {norm}, ev.missedNodes norm → ev'.missedNodes norm
  missedConfig : ∀ {norm}, ev.missedConfig norm → ev'.missedConfig norm
  answered : ∀ {up res}, ev.answered up res → ev'.answered up res
  built : ∀ {req}, ev.built req → ev'.built req

theorem Evidence.Le.missed {ev ev' : Evidence} (h : ev.Le ev') {norm : Bytes} : ev.Missed norm → ev'.Missed norm :=
  Or.imp_right fun hm => ⟨h.missedNodes hm.1, h.missedConfig hm.2⟩

section Replies

variable {R : Type} (env : ServerEnv R) (ev : Evidence) (r : HttpRequest) (cfg : Config)

/-- The image that is asked for, and the name of its file. -/
inductive AsksFor : Bytes → IsoRequest → Prop
  | generic (hroute : route env.unicode cfg r.toRequest = .genericISO) :
      AsksFor (str "generic-boot.iso") (.generic (cfg.base r.host))
  | node {rawMAC : Bytes} {n : Node} (hroute : route env.unicode cfg r.toRequest = .nodeISO rawMAC)
      (hseen : ev.seen (normalizeKey env.unicode (isoMAC env.unicode rawMAC)) n) :
      AsksFor (str "ipxe-" ++ isoMAC env.unicode rawMAC ++ str ".iso")
        (.node n (isoMAC env.unicode rawMAC) (cfg.base r.host))

/-- The request was forwarded, with this result. -/
def Answered (genesisMAC : Bytes) (res : UpstreamResult) : Prop :=
  ∃ upURL, route env.unicode cfg r.toRequest = .upstream genesisMAC upURL ∧ ev.answered (r.forward upURL) res

/-- The answer is of a kind that is rewritten, and this is what the rack has sent. -/
def Rewritable (genesisMAC : Bytes) (code : Nat) (header : HttpHeader) (body : Bytes) : Prop :=
  Answered env ev r cfg genesisMAC (.response code header { data := body, ends := true }) ∧
    isBinary r.path = false ∧ r.method = str "GET"

/-- The answer was rewritten to this. -/
def Rewritten (genesisMAC : Bytes) (code : Nat) (header : HttpHeader) (body : Bytes) : Prop :=
  ∃ old, Rewritable env ev r cfg genesisMAC code header old ∧
    rewriteData env.unicode env.gzip env.tar env.md5 old (cfg.base r.host) cfg.rewrites = some (.ok body)

/-- The replies to a request. -/
inductive Expected : Reply → Prop
  | overlay (hroute : route env.unicode cfg r.toRequest = .overlay) :
      Expected (.content (str "application/x-gzip") (str "genesis-overlay.cpio.gz") env.bootTime env.overlayCPIO)
  | image {name : Bytes} {req : IsoRequest} (hreq : AsksFor env ev r cfg name req) {t : Int} {data : Bytes}
      (hdata : env.iso.Cached ev.built env.unicode (ISOCache.key env.unicode (env.iso.key req))
        (env.iso.hash req) data) :
      Expected (.content (str "application/x-iso9660-image") name t data)
  | noImage {name : Bytes} {req : IsoRequest} (hreq : AsksFor env ev r cfg name req) {err : GoError}
      (herr : env.iso.build req = .error err) :
      Expected (.error (str "failed to build ISO") (isoErrorStatus env.ipxeEFI))
  | notFound {rawMAC : Bytes} (hroute : route env.unicode cfg r.toRequest = .nodeISO rawMAC)
      (hmissed : ev.Missed (normalizeKey env.unicode (isoMAC env.unicode rawMAC))) :
      Expected (.error (str "node with MAC " ++ rawMAC ++ str " not found") 404)
  | noUpstream (hroute : route env.unicode cfg r.toRequest = .noUpstream) :
      Expected (.error (str "upstream rack proxy not configured") 503)
  | badUpstream {genesisMAC upURL : Bytes} (hroute : route env.unicode cfg r.toRequest = .upstream genesisMAC upURL)
      (hurl : Url.parse upURL = none) : Expected (.error (str "bad upstream request") 500)
  | unreachable {genesisMAC : Bytes} (hans : Answered env ev r cfg genesisMAC .unreachable) :
      Expected (.error (str "upstream unreachable") 502)
  /-- Binary data and answers to other methods are passed on. -/
  | streamed {genesisMAC : Bytes} {code : Nat} {header : HttpHeader} {body : Stream}
      (hans : Answered env ev r cfg genesisMAC (.response code header body))
      (hkind : isBinary r.path = true ∨ r.method ≠ str "GET") : Expected (streamed code header body.data)
  | cutOff {genesisMAC : Bytes} {code : Nat} {header : HttpHeader} {data : Bytes}
      (hans : Answered env ev r cfg genesisMAC (.response code header { data := data, ends := false })) :
      Expected (.error (str "read error from upstream") 502)
  /-- The request is not one for an iPXE script of a node, or there is no such node. -/
  | plain {genesisMAC : Bytes} {code : Nat} {header : HttpHeader} {body : Bytes}
      (hbody : Rewritten env ev r cfg genesisMAC code header body)
      (hmac : ipxeMAC r.path genesisMAC = [] ∨ ev.Missed (normalizeKey env.unicode (ipxeMAC r.path genesisMAC))) :
      Expected (rewritten code header body)
  /-- The iPXE script of a node. -/
  | injected {genesisMAC : Bytes} {code : Nat} {header : HttpHeader} {body : Bytes} {n : Node}
      (hbody : Rewritten env ev r cfg genesisMAC code header body) (hmac : ipxeMAC r.path genesisMAC ≠ [])
      (hseen : ev.seen (normalizeKey env.unicode (ipxeMAC r.path genesisMAC)) n) :
      Expected (rewritten code header (injectNode env.unicode cfg.overlayURL (cfg.base r.host) n body))

variable {env ev r cfg}

theorem AsksFor.mono {ev' : Evidence} (hle : ev.Le ev') {name : Bytes} {req : IsoRequest}
    (h : AsksFor env ev r cfg name req) : AsksFor env ev' r cfg name req := by
  cases h with
  | generic hroute => exact .generic hroute
  | node hroute hseen => exact .node hroute (hle.seen hseen)

theorem Answered.mono {ev' : Evidence} (hle : ev.Le ev') {genesisMAC : Bytes} {res : UpstreamResult}
    (h : Answered env ev r cfg genesisMAC res) : Answered env ev' r cfg genesisMAC res := by
  obtain ⟨upURL, hroute, hans⟩ := h
  exact ⟨upURL, hroute, hle.answered hans⟩

theorem Rewritable.mono {ev' : Evidence} (hle : ev.Le ev') {genesisMAC : Bytes} {code : Nat} {header : HttpHeader}
    {body : Bytes} (h : Rewritable env ev r cfg genesisMAC code header body) :
    Rewritable env ev' r cfg genesisMAC code header body := ⟨h.1.mono hle, h.2⟩

theorem Rewritten.mono {ev' : Evidence} (hle : ev.Le ev') {genesisMAC : Bytes} {code : Nat} {header : HttpHeader}
    {body : Bytes} (h : Rewritten env ev r cfg genesisMAC code header body) :
    Rewritten env ev' r cfg genesisMAC code header body := by
  obtain ⟨old, hold, hbody⟩ := h
  exact ⟨old, hold.mono hle, hbody⟩

theorem Expected.mono {ev' : Evidence} (hle : ev.Le ev') {reply : Reply} (h : Expected env ev r cfg reply) :
    Expected env ev' r cfg reply := by
  cases h with
  | overlay hroute => exact .overlay hroute
  | image hreq hdata => exact .image (hreq.mono hle) (hdata.imp fun _ => hle.built)
  | noImage hreq herr => exact .noImage (hreq.mono hle) herr
  | notFound hroute hmissed => exact .notFound hroute (hle.missed hmissed)
  | noUpstream hroute => exact .noUpstream hroute
  | badUpstream hroute hurl => exact .badUpstream hroute hurl
  | unreachable hans => exact .unreachable (hans.mono hle)
  | streamed hans hkind => exact .streamed (hans.mono hle) hkind
  | cutOff hans => exact .cutOff (hans.mono hle)
  | plain hbody hmac => exact .plain (hbody.mono hle) (hmac.imp_right hle.missed)
  | injected hbody hmac hseen => exact .injected (hbody.mono hle) hmac (hle.seen hseen)

theorem AsksFor.route_cases {name : Bytes} {req : IsoRequest} (h : AsksFor env ev r cfg name req) :
    route env.unicode cfg r.toRequest = .genericISO ∨
      ∃ rawMAC, route env.unicode cfg r.toRequest = .nodeISO rawMAC := by
  cases h with
  | generic hroute => exact .inl hroute
  | node hroute => exact .inr ⟨_, hroute⟩

theorem Answered.route_eq {genesisMAC : Bytes} {res : UpstreamResult} (h : Answered env ev r cfg genesisMAC res) :
    ∃ upURL, route env.unicode cfg r.toRequest = .upstream genesisMAC upURL := by
  obtain ⟨upURL, hroute, -⟩ := h
  exact ⟨upURL, hroute⟩

theorem Rewritten.route_eq {genesisMAC : Bytes} {code : Nat} {header : HttpHeader} {body : Bytes}
    (h : Rewritten env ev r cfg genesisMAC code header body) :
    ∃ upURL, route env.unicode cfg r.toRequest = .upstream genesisMAC upURL := by
  obtain ⟨old, hold, -⟩ := h
  exact hold.1.route_eq

/-- The replies to a request for the image of a node. -/
theorem Expected.nodeISO_cases {reply : Reply} (h : Expected env ev r cfg reply) {rawMAC : Bytes}
    (hroute : route env.unicode cfg r.toRequest = .nodeISO rawMAC) :
    (ev.Missed (normalizeKey env.unicode (isoMAC env.unicode rawMAC)) ∧
      reply = .error (str "node with MAC " ++ rawMAC ++ str " not found") 404) ∨
    ∃ n, ev.seen (normalizeKey env.unicode (isoMAC env.unicode rawMAC)) n ∧
      let req := IsoRequest.node n (isoMAC env.unicode rawMAC) (cfg.base r.host)
      (∃ t data, env.iso.Cached ev.built env.unicode (ISOCache.key env.unicode (env.iso.key req))
        (env.iso.hash req) data ∧
        reply = .content (str "application/x-iso9660-image")
          (str "ipxe-" ++ isoMAC env.unicode rawMAC ++ str ".iso") t data) ∨
      ∃ err, env.iso.build req = .error err ∧
        reply = .error (str "failed to build ISO") (isoErrorStatus env.ipxeEFI) := by
  -- every other reply is one to a request of another kind
  have hother : ∀ {route' : Route}, route env.unicode cfg r.toRequest = route' → route' ≠ .nodeISO rawMAC → False :=
    fun h₁ h₂ => h₂ (h₁.symm.trans hroute)
  cases h with
  | image hreq hdata =>
    cases hreq with
    | generic hroute' => exact (hother hroute' (by simp)).elim
    | node hroute' hseen =>
      cases hroute.symm.trans hroute'
      exact .inr ⟨_, hseen, .inl ⟨_, _, hdata, rfl⟩⟩
  | noImage hreq herr =>
    cases hreq with
    | generic hroute' => exact (hother hroute' (by simp)).elim
    | node hroute' hseen =>
      cases hroute.symm.trans hroute'
      exact .inr ⟨_, hseen, .inr ⟨_, herr, rfl⟩⟩
  | notFound hroute' hmissed =>
    cases hroute.symm.trans hroute'
    exact .inl ⟨hmissed, rfl⟩
  | overlay hroute' => exact (hother hroute' (by simp)).elim
  | noUpstream hroute' => exact (hother hroute' (by simp)).elim
  | badUpstream hroute' => exact (hother hroute' (by simp)).elim
  | unreachable hans =>
    obtain ⟨upURL, hroute'⟩ := hans.route_eq
    exact (hother hroute' (by simp)).elim
  | streamed hans =>
    obtain ⟨upURL, hroute'⟩ := hans.route_eq
    exact (hother hroute' (by simp)).elim
  | cutOff hans =>
    obtain ⟨upURL, hroute'⟩ := hans.route_eq
    exact (hother hroute' (by simp)).elim
  | plain hbody =>
    obtain ⟨upURL, hroute'⟩ := hbody.route_eq
    exact (hother hroute' (by simp)).elim
  | injected hbody =>
    obtain ⟨upURL, hroute'⟩ := hbody.route_eq
    exact (hother hroute' (by simp)).elim

/-- The replies to a request that is forwarded and whose answer is rewritten. -/
theorem Expected.upstream_cases {reply : Reply} (h : Expected env ev r cfg reply) {genesisMAC upURL : Bytes}
    (hroute : route env.unicode cfg r.toRequest = .upstream genesisMAC upURL) (hbinary : isBinary r.path = false)
    (hmethod : r.method = str "GET") :
    (∃ text code, code ∈ [500, 502] ∧ reply = .error text code) ∨
    ∃ code header body, Rewritten env ev r cfg genesisMAC code header body ∧
      ((ipxeMAC r.path genesisMAC = [] ∨ ev.Missed (normalizeKey env.unicode (ipxeMAC r.path genesisMAC))) ∧
        reply = rewritten code header body ∨
      ∃ n, ipxeMAC r.path genesisMAC ≠ [] ∧ ev.seen (normalizeKey env.unicode (ipxeMAC r.path genesisMAC)) n ∧
        reply = rewritten code header (injectNode env.unicode cfg.overlayURL (cfg.base r.host) n body)) := by
  have hother : ∀ {route' : Route}, route env.unicode cfg r.toRequest = route' →
      route' ≠ .upstream genesisMAC upURL → False := fun h₁ h₂ => h₂ (h₁.symm.trans hroute)
  have hiso : ∀ {name : Bytes} {req : IsoRequest}, AsksFor env ev r cfg name req → False := by
    intro name req hreq
    rcases hreq.route_cases with hroute' | ⟨rawMAC, hroute'⟩
    · exact hother hroute' (by simp)
    · exact hother hroute' (by simp)
  cases h with
  | badUpstream => exact .inl ⟨_, 500, by simp, rfl⟩
  | unreachable => exact .inl ⟨_, 502, by simp, rfl⟩
  | cutOff => exact .inl ⟨_, 502, by simp, rfl⟩
  | plain hbody hmac =>
    obtain ⟨upURL', hroute'⟩ := hbody.route_eq
    cases hroute.symm.trans hroute'
    exact .inr ⟨_, _, _, hbody, .inl ⟨hmac, rfl⟩⟩
  | injected hbody hmac hseen =>
    obtain ⟨upURL', hroute'⟩ := hbody.route_eq
    cases hroute.symm.trans hroute'
    exact .inr ⟨_, _, _, hbody, .inr ⟨_, hmac, hseen, rfl⟩⟩
  | streamed hans hkind => simp [hbinary, hmethod] at hkind
  | overlay hroute' => exact (hother hroute' (by simp)).elim
  | noUpstream hroute' => exact (hother hroute' (by simp)).elim
  | notFound hroute' => exact (hother hroute' (by simp)).elim
  | image hreq => exact (hiso hreq).elim
  | noImage hreq => exact (hiso hreq).elim

/-! ### Requests on the way -/

variable (env ev r cfg)

/-- The key belongs to what the node is looked up for. -/
def Purpose.Backed (norm : Bytes) : Purpose → Prop
  | .iso rawMAC normMAC =>
    route env.unicode cfg r.toRequest = .nodeISO rawMAC ∧ normMAC = isoMAC env.unicode rawMAC ∧
      norm = normalizeKey env.unicode normMAC
  | .ipxe code header body =>
    ∃ genesisMAC, Rewritten env ev r cfg genesisMAC code header body ∧ ipxeMAC r.path genesisMAC ≠ [] ∧
      norm = normalizeKey env.unicode (ipxeMAC r.path genesisMAC)

def ResolvePhase.Backed (norm : Bytes) : ResolvePhase → Prop
  | .config true => ev.missedNodes norm
  | .deadline => ev.missedNodes norm ∧ ev.missedConfig norm
  | .waiting _ => ev.missedNodes norm ∧ ev.missedConfig norm
  | _ => True

def HandlerPhase.Backed : HandlerPhase → Prop
  | .resolving purpose norm _ q => purpose.Backed env ev r cfg norm ∧ q.Backed ev norm
  | .composing name q => ∃ req, q.request = some req ∧ AsksFor env ev r cfg name req
  | .forwarding genesisMAC up =>
    ∃ upURL, route env.unicode cfg r.toRequest = .upstream genesisMAC upURL ∧ up = r.forward upURL
  | .rewriting genesisMAC code header body => Rewritable env ev r cfg genesisMAC code header body
  | .done reply => Expected env ev r cfg reply

variable {env ev r cfg}

theorem Purpose.Backed.mono {ev' : Evidence} (hle : ev.Le ev') {norm : Bytes} {purpose : Purpose}
    (h : purpose.Backed env ev r cfg norm) : purpose.Backed env ev' r cfg norm := by
  cases purpose with
  | iso rawMAC normMAC => exact h
  | ipxe code header body =>
    obtain ⟨genesisMAC, hbody, hmac⟩ := h
    exact ⟨genesisMAC, hbody.mono hle, hmac⟩

theorem ResolvePhase.Backed.mono {ev' : Evidence} (hle : ev.Le ev') {norm : Bytes} {q : ResolvePhase}
    (h : q.Backed ev norm) : q.Backed ev' norm := by
  cases q with
  | nodes again => trivial
  | config again =>
    cases again with
    | true => exact hle.missedNodes h
    | false => trivial
  | reload q => trivial
  | deadline => exact ⟨hle.missedNodes h.1, hle.missedConfig h.2⟩
  | waiting since => exact ⟨hle.missedNodes h.1, hle.missedConfig h.2⟩

theorem HandlerPhase.Backed.mono {ev' : Evidence} (hle : ev.Le ev') {q : HandlerPhase} (h : q.Backed env ev r cfg) :
    q.Backed env ev' r cfg := by
  cases q with
  | resolving purpose norm deadline q => exact ⟨h.1.mono hle, h.2.mono hle⟩
  | composing name q =>
    obtain ⟨req, hq, hreq⟩ := h
    exact ⟨req, hq, hreq.mono hle⟩
  | forwarding genesisMAC up => exact h
  | rewriting genesisMAC code header body => exact Rewritable.mono hle h
  | done reply => exact Expected.mono hle h

theorem backed_resolved {norm : Bytes} {purpose : Purpose} (hp : purpose.Backed env ev r cfg norm)
    {node : Option Node} (hsome : ∀ n, node = some n → ev.seen norm n) (hnone : node = none → ev.Missed norm) :
    (resolved env r cfg purpose node).Backed env ev r cfg := by
  cases purpose with
  | iso rawMAC normMAC =>
    obtain ⟨hroute, rfl, rfl⟩ := hp
    cases node with
    | none => exact Expected.notFound hroute (hnone rfl)
    | some n => exact ⟨_, rfl, .node hroute (hsome n rfl)⟩
  | ipxe code header body =>
    obtain ⟨genesisMAC, hbody, hmac, rfl⟩ := hp
    cases node with
    | none => exact Expected.plain hbody (.inr (hnone rfl))
    | some n => exact Expected.injected hbody hmac (hsome n rfl)

theorem backed_resolve (now : Int) {purpose : Purpose} {mac : Bytes}
    (hp : purpose.Backed env ev r cfg (normalizeKey env.unicode mac)) :
    (startResolving env now r cfg purpose mac).Backed env ev r cfg := by
  unfold startResolving
  dsimp only
  split
  · rename_i hnorm
    exact backed_resolved hp (fun n hn => by cases hn) fun _ => .inl hnorm
  · exact ⟨hp, trivial⟩

theorem backed_serve (now : Int) : (serve env now r cfg).Backed env ev r cfg := by
  unfold serve
  split
  · rename_i hroute
    exact ⟨_, rfl, .generic hroute⟩
  · rename_i hroute
    exact Expected.overlay hroute
  · rename_i rawMAC hroute
    exact backed_resolve now ⟨hroute, rfl, rfl⟩
  · rename_i hroute
    exact Expected.noUpstream hroute
  · rename_i genesisMAC upURL hroute
    split
    · rename_i hurl
      exact Expected.badUpstream hroute hurl
    · exact ⟨upURL, hroute, rfl⟩

theorem backed_receive {genesisMAC : Bytes} {up : UpstreamRequest} {res : UpstreamResult}
    (hq : (HandlerPhase.forwarding genesisMAC up).Backed env ev r cfg) (hans : ev.answered up res) :
    (receive r genesisMAC res).Backed env ev r cfg := by
  obtain ⟨upURL, hroute, rfl⟩ := hq
  have hans' : Answered env ev r cfg genesisMAC res := ⟨upURL, hroute, hans⟩
  cases res with
  | unreachable => exact Expected.unreachable hans'
  | response code header body =>
    obtain ⟨data, ends⟩ := body
    rw [receive]
    split
    · rename_i hkind
      refine Expected.streamed hans' ?_
      simpa using hkind
    · rename_i hkind
      simp only [Bool.or_eq_true, bne_iff_ne, ne_eq, not_or, Bool.not_eq_true, not_not] at hkind
      cases ends with
      | true => exact ⟨hans', hkind⟩
      | false => exact Expected.cutOff hans'

variable (env) in
/-- `rewriteData` always returns, and never an error. -/
theorem rewriteData_eq_ok (input baseURL : Bytes) (rewrites : List Rewrite) :
    ∃ body, rewriteData env.unicode env.gzip env.tar env.md5 input baseURL rewrites = some (.ok body) := by
  cases hrep : repack env.gzip env.tar (applySubs env.unicode (trimRight baseURL 47) rewrites) input with
  | none => exact ⟨_, rewriteData_of_repack_eq_none env.gzip env.tar env.unicode env.md5 hrep⟩
  | some r =>
    obtain ⟨P, nl, -, -, h⟩ := rewriteData_of_repack_eq_some env.gzip env.tar env.unicode env.md5 hrep
    exact ⟨_, h⟩

variable (env ev) in
/-- What the node store and the configuration have under the key is part of the evidence. -/
structure Shows (s : Shared) (norm : Bytes) (q : ResolvePhase) : Prop where
  seen : ∀ n, s.nodes.store.get env.store norm = some n ∨ s.config.server.cfg.nodes.lookup norm = some n →
    ev.seen norm n
  missedNodes : q = .nodes true → s.nodes.store.get env.store norm = none → ev.missedNodes norm
  missedConfig : q = .config true → s.config.server.cfg.nodes.lookup norm = none → ev.missedConfig norm

/-- A step of the loop that looks a node up, with the evidence that it adds. -/
theorem ResolvePhase.Backed.step {norm : Bytes} {q : ResolvePhase} (hq : q.Backed ev norm) {s : Shared}
    (hnow : Shows env ev s norm q) (i : Nat) (order : VisitOrder) (deadline : Int) :
    (∃ q', (resolveStep env i order norm deadline s q).2 = .inl q' ∧ q'.Backed ev norm) ∨
      ∃ node, (resolveStep env i order norm deadline s q).2 = .inr node ∧ (∀ n, node = some n → ev.seen norm n) ∧
        (node = none → ev.Missed norm) := by
  cases q with
  | nodes again =>
    rw [resolveStep]
    split
    · rename_i n hn
      refine .inr ⟨_, rfl, fun n' hn' => hnow.seen n' (.inl (hn.trans hn')), by simp⟩
    · rename_i hnone
      cases again with
      | true => exact .inl ⟨_, rfl, hnow.missedNodes rfl hnone⟩
      | false => exact .inl ⟨_, rfl, trivial⟩
  | config again =>
    rw [resolveStep]
    split
    · rename_i n hn
      refine .inr ⟨_, rfl, fun n' hn' => hnow.seen n' (.inr (hn.trans hn')), by simp⟩
    · rename_i hnone
      cases again with
      | true => exact .inl ⟨_, rfl, hq, hnow.missedConfig rfl hnone⟩
      | false => exact .inl ⟨_, rfl, trivial⟩
  | reload q =>
    rw [resolveStep]
    split
    · exact .inl ⟨_, rfl, trivial⟩
    · exact .inl ⟨_, rfl, trivial⟩
  | deadline =>
    rw [resolveStep]
    split
    · exact .inl ⟨_, rfl, hq⟩
    · exact .inr ⟨_, rfl, by simp, fun _ => .inr hq⟩
  | waiting since =>
    rw [resolveStep]
    split
    · exact .inl ⟨_, rfl, trivial⟩
    · exact .inl ⟨_, rfl, hq⟩

/-- A step of a request. -/
theorem HandlerPhase.Backed.step {q : HandlerPhase} (hq : q.Backed env ev r cfg) {s : Shared}
    (hholds : ∀ name q', q = .composing name q' → env.iso.Holds ev.built env.unicode
      (cachedISOStep env.iso env.unicode s.clock s.cache q').1
      (cachedISOStep env.iso env.unicode s.clock s.cache q').2)
    (hnow : ∀ purpose norm deadline q', q = .resolving purpose norm deadline q' → Shows env ev s norm q')
    (i : Nat) (order : VisitOrder) : (handlerStep env i order r cfg s q).2.Backed env ev r cfg := by
  cases q with
  | resolving purpose norm deadline q =>
    have hstep := hq.2.step (hnow _ _ _ _ rfl) i order deadline
    rw [handlerStep]
    split
    · rename_i heq
      rw [heq] at hstep
      rcases hstep with ⟨q', hq', hback⟩ | ⟨node, hnode, -⟩
      · cases hq'
        exact ⟨hq.1, hback⟩
      · cases hnode
    · rename_i heq
      rw [heq] at hstep
      rcases hstep with ⟨q', hq', -⟩ | ⟨node, hnode, hsome, hnone⟩
      · cases hq'
      · cases hnode
        exact backed_resolved hq.1 hsome hnone
  | composing name q =>
    obtain ⟨req, hreq, hasks⟩ := hq
    have hstep := hholds name q rfl
    have hrequest := request_cachedISOStep env.iso env.unicode s.clock s.cache q
    rw [hreq] at hrequest
    rw [handlerStep]
    split
    · rename_i heq
      rw [heq] at hstep hrequest
      obtain rfl := Option.some.inj hrequest
      exact Expected.image hasks hstep.2
    · rename_i heq
      rw [heq] at hstep hrequest
      obtain rfl := Option.some.inj hrequest
      exact Expected.noImage hasks hstep
    · rename_i heq
      rw [heq] at hrequest
      exact ⟨req, hrequest, hasks⟩
  | forwarding genesisMAC up => exact hq
  | rewriting genesisMAC code header body =>
    obtain ⟨body', hres⟩ := rewriteData_eq_ok env body (cfg.base r.host) cfg.rewrites
    have hbody : Rewritten env ev r cfg genesisMAC code header body' := ⟨body, hq, hres⟩
    rw [handlerStep, hres]
    dsimp only
    split
    · rename_i hmac
      exact Expected.plain hbody (.inl hmac)
    · rename_i hmac
      exact backed_resolve _ ⟨genesisMAC, hbody, hmac, rfl⟩
  | done reply => exact hq

end Replies

/-! ### Runs -/

section Runs

variable {R : Type} (env : ServerEnv R) (s₀ : ServerState) (es : List ServerEvent) (i : Nat)

/-- The goroutine is looking for the record of a key. -/
def ResolvingAt (s : ServerState) (norm : Bytes) (q : ResolvePhase) : Prop :=
  ∃ r cfg purpose deadline, s.goroutines i = .serving r cfg (.resolving purpose norm deadline q)

/-- What a goroutine has come across in a run. -/
def evidence : Evidence where
  seen norm n := Sometime (serverNext env) (fun s => (∃ q, ResolvingAt i s norm q) ∧
    (s.shared.nodes.store.get env.store norm = some n ∨ s.shared.config.server.cfg.nodes.lookup norm = some n)) s₀ es
  missedNodes norm := Sometime (serverNext env) (fun s => ResolvingAt i s norm (.nodes true) ∧
    s.shared.nodes.store.get env.store norm = none) s₀ es
  missedConfig norm := Sometime (serverNext env) (fun s => ResolvingAt i s norm (.config true) ∧
    s.shared.config.server.cfg.nodes.lookup norm = none) s₀ es
  answered up res := ∃ es₁ es₂, es = es₁ ++ .upstream i res :: es₂ ∧
    ∃ r cfg genesisMAC, (runEvents (serverNext env) s₀ es₁).goroutines i = .serving r cfg (.forwarding genesisMAC up)
  built := BuiltIn env s₀ es

/-- The request has read the configuration when it was handled first. -/
def HasRead (r : HttpRequest) (cfg : Config) : Prop :=
  Sometime (serverNext env) (fun s => s.goroutines i = .arrived r ∧ s.shared.config.server.cfg = cfg) s₀ es

def Goroutine.Backed : Goroutine → Prop
  | .serving r cfg q => HasRead env s₀ es i r cfg ∧ q.Backed env (evidence env s₀ es i) r cfg
  | _ => True

variable {env s₀ es i}

theorem evidence_le (es' : List ServerEvent) : (evidence env s₀ es i).Le (evidence env s₀ (es ++ es') i) where
  seen h := by
    simp only [evidence] at h ⊢
    exact h.append es'
  missedNodes h := by
    simp only [evidence] at h ⊢
    exact h.append es'
  missedConfig h := by
    simp only [evidence] at h ⊢
    exact h.append es'
  answered h := by
    obtain ⟨es₁, es₂, rfl, h⟩ := h
    exact ⟨es₁, es₂ ++ es', by rw [List.append_assoc, List.cons_append], h⟩
  built h := BuiltIn.append h es'

/-- What is there while the goroutine looks for a record is evidence. -/
theorem evidence_now {norm : Bytes} {q : ResolvePhase} (h : ResolvingAt i (runEvents (serverNext env) s₀ es) norm q)
    (es' : List ServerEvent) :
    Shows env (evidence env s₀ (es ++ es') i) (runEvents (serverNext env) s₀ es).shared norm q where
  seen _ hn := ⟨es, es', rfl, ⟨q, h⟩, hn⟩
  missedNodes hq hn := ⟨es, es', rfl, hq ▸ h, hn⟩
  missedConfig hq hn := ⟨es, es', rfl, hq ▸ h, hn⟩

theorem Goroutine.Backed.append {g : Goroutine} (h : g.Backed env s₀ es i) (es' : List ServerEvent) :
    g.Backed env s₀ (es ++ es') i := by
  cases g with
  | serving r cfg q => exact ⟨h.1.append es', h.2.mono (evidence_le es')⟩
  | _ => trivial

/-- What a goroutine's own step adds. -/
theorem Goroutine.Backed.step (hcache : (runEvents (serverNext env) s₀ es).CacheGood env (BuiltIn env s₀ es))
    (hg : ((runEvents (serverNext env) s₀ es).goroutines i).Backed env s₀ es i) (order : VisitOrder) :
    (goroutineStep env i order (runEvents (serverNext env) s₀ es).shared
      ((runEvents (serverNext env) s₀ es).goroutines i)).2.Backed env s₀ (es ++ [.step i order]) i := by
  have hle : (evidence env s₀ es i).Le (evidence env s₀ (es ++ [.step i order]) i) := evidence_le _
  have hcalls := hcache.calls i
  cases hgi : (runEvents (serverNext env) s₀ es).goroutines i with
  | idle => trivial
  | arrived r => exact ⟨(sometime_now ⟨hgi, rfl⟩).append _, backed_serve _⟩
  | ended => trivial
  | reloading q =>
    rw [goroutineStep]
    split <;> trivial
  | serving r cfg q =>
    rw [hgi] at hg hcalls
    refine ⟨hg.1.append _, (hg.2.mono hle).step (fun name q' hq => ?_)
      (fun purpose norm deadline q' hq => ?_) i order⟩
    · -- an image that the goroutine is about to build now is one of the run
      subst hq
      refine IsoOps.Holds.step (hcache.cache.imp fun _ h => hle.built h) _
        (IsoOps.Holds.imp (fun _ h => hle.built h) hcalls) fun req hreq => ?_
      have hbuilds : (runEvents (serverNext env) s₀ (es ++ [.step i order])).Builds req := by
        rw [runEvents_concat]
        refine ⟨i, r, cfg, name, (Function.update_self ..).trans ?_⟩
        rw [hgi, goroutineStep, handlerStep]
        split <;> simp_all
      exact builtIn_now hbuilds
    · rw [hq] at hgi
      exact evidence_now ⟨r, cfg, purpose, deadline, hgi⟩ _

theorem Goroutine.Backed.start {new g : Goroutine} (hnew : new.Backed env s₀ es i) (hg : g.Backed env s₀ es i) :
    (g.start new).Backed env s₀ es i := by
  cases g with
  | idle => exact hnew
  | _ => exact hg

theorem Goroutine.Backed.cancel {g : Goroutine} (hg : g.Backed env s₀ es i) : (g.cancel env).Backed env s₀ es i := by
  unfold Goroutine.cancel
  split
  · exact ⟨hg.1, backed_resolved hg.2.1 (by simp) fun _ => .inr hg.2.2⟩
  · exact hg

theorem Goroutine.Backed.receive (hg : ((runEvents (serverNext env) s₀ es).goroutines i).Backed env s₀ es i)
    (res : UpstreamResult) :
    (((runEvents (serverNext env) s₀ es).goroutines i).receive res).Backed env s₀ (es ++ [.upstream i res]) i := by
  have happend := hg.append [.upstream i res]
  unfold Goroutine.receive
  split
  · rename_i r cfg genesisMAC up hgi
    rw [hgi] at happend
    exact ⟨happend.1, backed_receive happend.2 ⟨es, [], rfl, r, cfg, genesisMAC, hgi⟩⟩
  · exact happend

theorem Goroutine.Backed.next (hcache : (runEvents (serverNext env) s₀ es).CacheGood env (BuiltIn env s₀ es))
    (hg : ∀ j, ((runEvents (serverNext env) s₀ es).goroutines j).Backed env s₀ es j) (e : ServerEvent) (j : Nat) :
    ((serverNext env (runEvents (serverNext env) s₀ es) e).goroutines j).Backed env s₀ (es ++ [e]) j := by
  have hupdate : ∀ {i : Nat} {g : Goroutine}, g.Backed env s₀ (es ++ [e]) i →
      (Function.update (runEvents (serverNext env) s₀ es).goroutines i g j).Backed env s₀ (es ++ [e]) j := by
    intro i g h
    rcases eq_or_ne j i with rfl | hj
    · rw [Function.update_self]
      exact h
    · rw [Function.update_of_ne hj]
      exact (hg j).append [e]
  cases e with
  | request i r => exact hupdate (Goroutine.Backed.start trivial ((hg i).append _))
  | reload i => exact hupdate (Goroutine.Backed.start trivial ((hg i).append _))
  | step i order => exact hupdate (Goroutine.Backed.step hcache (hg i) order)
  | cancel i => exact hupdate ((hg i).append _).cancel
  | upstream i res => exact hupdate (Goroutine.Backed.receive (hg i) res)
  | _ => exact (hg j).append _

theorem backed_run (s₀ : ServerState) (hidle : ∀ i, s₀.goroutines i = .idle)
    (hcache : env.iso.Good (fun _ => False) env.unicode s₀.shared.cache) (es : List ServerEvent) (j : Nat) :
    ((runEvents (serverNext env) s₀ es).goroutines j).Backed env s₀ es j := by
  have hall : ∀ j, ((runEvents (serverNext env) s₀ es).goroutines j).Backed env s₀ es j :=
    runEvents_induction (P := fun es (s : ServerState) => ∀ j, (s.goroutines j).Backed env s₀ es j)
      (fun j => by rw [hidle j]; trivial) (fun es e h => Goroutine.Backed.next (cacheGood_run hidle hcache es) h e) es
  exact hall j

/-- An image that was built was asked for by a request that had read its configuration and seen its record. -/
theorem asksFor_of_built (s₀ : ServerState) (hidle : ∀ i, s₀.goroutines i = .idle)
    (hcache : env.iso.Good (fun _ => False) env.unicode s₀.shared.cache) {req : IsoRequest}
    (h : (evidence env s₀ es i).built req) :
    ∃ j r cfg name, HasRead env s₀ es j r cfg ∧ AsksFor env (evidence env s₀ es j) r cfg name req := by
  obtain ⟨es₁, es₂, rfl, j, r, cfg, name, hj⟩ := h
  have hback := (backed_run s₀ hidle hcache es₁ j).append es₂
  rw [hj] at hback
  obtain ⟨hread, req', hreq', hasks⟩ := hback
  obtain rfl := Option.some.inj hreq'
  exact ⟨j, r, cfg, name, hread, hasks⟩

end Runs

/-! ### Records come from the files -/

section Files

variable {R : Type} (env : ServerEnv R)

/-- The record is one of a content that the nodes file or the config file has had. -/
def Recorded (s : ServerState) (norm : Bytes) (n : Node) : Prop :=
  (∃ b ∈ s.shared.nodes.held, ∃ nodes, parseNodes env.store b = .ok nodes ∧
    nodes.lookup (normalizeKey env.unicode norm) = some n) ∨
  ∃ b ∈ s.shared.config.held, ∃ f, ∃ order : VisitOrder, env.unmarshalConfig b = .ok f ∧
    (normalizeNodeKeys env.unicode (order.visit f.nodes)).lookup norm = some n

variable {env}

theorem recorded_of_get {s : ServerState} (hs : s.shared.nodes.Good env.store) {norm : Bytes} {n : Node}
    (h : s.shared.nodes.store.get env.store norm = some n) : Recorded env s norm n := by
  have hserves := hs.serves
  unfold Serves at hserves
  cases hinst : s.shared.nodes.installed with
  | none =>
    rw [hinst] at hserves
    rw [NodeStore.get, hserves.2] at h
    simp at h
  | some b =>
    rw [hinst] at hserves
    exact .inl ⟨b, hserves.1, _, hserves.2.2.2, h⟩

theorem recorded_of_lookup {s : ServerState} (hs : s.shared.config.Good env.config) {norm : Bytes} {n : Node}
    (h : s.shared.config.server.cfg.nodes.lookup norm = some n) : Recorded env s norm n := by
  obtain ⟨f, order, hf, hcfg⟩ := hs.cfg
  rw [hcfg] at h
  cases hinst : s.shared.config.installed with
  | none =>
    rw [hinst] at hf
    obtain rfl : f = {} := hf
    rw [config_empty] at h
    simp [applyOverrides] at h
  | some b =>
    rw [hinst] at hf
    exact .inr ⟨b, hf.1, f, order, hf.2, h⟩

end Files

/-- A reply is an expected one, with a configuration that the request has read. -/
theorem expected_serverRun {R : Type} {env : ServerEnv R} {configFile nodesFile : FileState} {order : VisitOrder}
    {ttl clock : Int} {es : List ServerEvent} {i : Nat} {r : HttpRequest} {cfg : Config} {reply : Reply}
    (h : (serverRun env configFile nodesFile order ttl clock es).goroutines i = .serving r cfg (.done reply)) :
    HasRead env (.start env configFile nodesFile order ttl clock) es i r cfg ∧
      Expected env (evidence env (.start env configFile nodesFile order ttl clock) es i) r cfg reply := by
  have hback : ((serverRun env configFile nodesFile order ttl clock es).goroutines i).Backed env
      (.start env configFile nodesFile order ttl clock) es i := backed_run _ (fun _ => rfl) (IsoOps.good_new ttl) es i
  rw [h] at hback
  exact hback

/-- In every interleaving of requests, reloads, sweeps and changes of the files, what a request gets is a reply that
`Expected` allows.  The configuration is the one that the request has read when it was handled first, and that is
the one of a content of the config file with the environment's values over it.  An image was built for a request of
the run with the same key and the same config hash, which had read its configuration and seen its record in the same
way.  Whatever record a request has seen belongs to a content of one of the files, and was there at a moment at
which the request was looking for it. -/
theorem serveHTTP_expected {R : Type} (env : ServerEnv R) (configFile nodesFile : FileState) (order : VisitOrder)
    (ttl clock : Int) (es : List ServerEvent) (i : Nat) (r : HttpRequest) (cfg : Config) (reply : Reply)
    (h : (serverRun env configFile nodesFile order ttl clock es).goroutines i = .serving r cfg (.done reply)) :
    let run := serverRun env configFile nodesFile order ttl clock
    let ev := evidence env (.start env configFile nodesFile order ttl clock) es
    let Read (j : Nat) (r : HttpRequest) (cfg : Config) := ∃ es₁ es₂, es = es₁ ++ es₂ ∧
      (run es₁).goroutines j = .arrived r ∧
      TakenFrom env.config (run es₁).shared.config.held (run es₁).shared.config.installed cfg
    Expected env (ev i) r cfg reply ∧ Read i r cfg ∧
    (∀ req, (ev i).built req → ∃ j r' cfg' name, Read j r' cfg' ∧ AsksFor env (ev j) r' cfg' name req) ∧
    ∀ j norm n, (ev j).seen norm n → ∃ es₁ es₂, es = es₁ ++ es₂ ∧ (∃ q, ResolvingAt j (run es₁) norm q) ∧
      Recorded env (run es₁) norm n := by
  intro run ev Read
  obtain ⟨hread, hexpected⟩ := expected_serverRun h
  have hRead : ∀ {j r cfg}, HasRead env (.start env configFile nodesFile order ttl clock) es j r cfg →
      Read j r cfg := by
    rintro j r cfg ⟨es₁, es₂, hes, harrived, rfl⟩
    exact ⟨es₁, es₂, hes, harrived, (good_config_serverRun env configFile nodesFile order ttl clock es₁).cfg⟩
  refine ⟨hexpected, hRead hread, fun req hbuilt => ?_, ?_⟩
  · obtain ⟨j, r', cfg', name, hread', hasks⟩ := asksFor_of_built _ (fun _ => rfl) (IsoOps.good_new ttl) hbuilt
    exact ⟨j, r', cfg', name, hRead hread', hasks⟩
  · rintro j norm n ⟨es₁, es₂, hes, hresolving, hfound⟩
    refine ⟨es₁, es₂, hes, hresolving, ?_⟩
    rcases hfound with hget | hlookup
    · exact recorded_of_get (good_nodes_serverRun env configFile nodesFile order ttl clock es₁) hget
    · exact recorded_of_lookup (good_config_serverRun env configFile nodesFile order ttl clock es₁) hlookup

/-! ### A sample -/

def sampleKey : Bytes := str "02:5e:1c:9a:47:d3"

/-- A node with two uplinks. -/
def uplinksNode : Node := { ip := str "192.0.2.1", bondMembers := [str "0000:3b:00.0", str "0000:af:00.1"] }

/-- A document with this node. -/
def uplinksDoc : Bytes :=
  str "\x7b\"version\":1,\"nodes\":\x7b\"02:5e:1c:9a:47:d3\":\x7b\"ip\":\"192.0.2.1\"," ++
    str "\"bond_members\":[\"0000:3b:00.0\",\"0000:af:00.1\"]\x7d\x7d\x7d"

/-- An environment with two documents and no config file. -/
def sampleServerEnv : ServerEnv Bytes where
  unicode := .asciiOnly
  sha256 := sum256
  md5 := fun _ => Vector.replicate 16 0
  gzip := Plain.gzip
  tar := Plain.tar
  unmarshalNodes := fun b =>
    if b = uplinksDoc then .ok { version := 1, nodes := [(sampleKey, uplinksNode)] }
    else if b = emptyDoc then .ok { version := 1, nodes := [] }
    else .error (str "unexpected end of JSON input")
  unmarshalConfig := fun _ => .error (str "unexpected end of JSON input")
  nodesPath := str "/etc/maas/nodes.json"
  cfgPath := []
  overrides := { rackUpstream := str "http://192.0.2.57:5248" }
  missWait := 1000000000
  ipxeEFI := str "MZ"
  overlayCPIO := []
  bootTime := 0

/-- Go's order, whatever it is. -/
def sampleOrder : VisitOrder := ⟨id, fun _ => .refl _⟩

def sampleISORequest : HttpRequest where
  path := isoPath sampleKey
  host := str "proxy"

/-- The configuration without a config file. -/
def sampleConfig : Config := applyOverrides {} sampleServerEnv.overrides

/-- The image of the node. -/
def sampleImage : IsoRequest := .node uplinksNode sampleKey (str "http://proxy")

/-- A request for the node's image, and its steps. -/
def sampleEvents : List ServerEvent := .request 0 sampleISORequest :: List.replicate 14 (.step 0 sampleOrder)

def sampleRun (es : List ServerEvent) : ServerState :=
  serverRun sampleServerEnv .missing (.content uplinksDoc) sampleOrder 0 0 es

theorem build_sampleImage : ∃ data, sampleServerEnv.iso.build sampleImage = .ok data := by
  have hbuild : ∃ data, buildNodeISO .asciiOnly (str "MZ") uplinksNode sampleKey (str "http://proxy") = .ok data := by
    obtain ⟨fat, -, -, -, hesp⟩ := buildESPImage_eq (str "MZ")
      (renderNodeIPXEScript .asciiOnly uplinksNode sampleKey (str "http://proxy")) (by decide +kernel)
      (by decide +kernel)
    exact ⟨_, buildBootISO_eq (by decide) hesp⟩
  exact hbuild

/-- A request that builds its image gets it three steps later. -/
theorem composing_done {R : Type} {env : ServerEnv R} {s : ServerState} {i : Nat} {r : HttpRequest} {cfg : Config}
    {name data : Bytes} {req : IsoRequest} (hs : s.goroutines i = .serving r cfg (.composing name (.building req)))
    (hbuild : env.iso.build req = .ok data) (order : VisitOrder) :
    ∃ t, (runEvents (serverNext env) s (List.replicate 3 (.step i order))).goroutines i =
      .serving r cfg (.done (.content (str "application/x-iso9660-image") name t data)) := by
  have hstamping : (serverNext env s (.step i order)).goroutines i =
      .serving r cfg (.composing name (.stamping req data)) := by
    simp only [serverNext, hs, goroutineStep, handlerStep, cachedISOStep, hbuild, Function.update_self]
  have hstoring : ∃ now, (serverNext env (serverNext env s (.step i order)) (.step i order)).goroutines i =
      .serving r cfg (.composing name (.storing req data now)) := by
    generalize serverNext env s (.step i order) = s' at hstamping
    refine ⟨s'.shared.clock, ?_⟩
    simp only [serverNext, hstamping, goroutineStep, handlerStep, cachedISOStep, Function.update_self]
  obtain ⟨now, hstoring⟩ := hstoring
  rw [runEvents]
  simp only [List.replicate, List.foldl_cons, List.foldl_nil]
  generalize serverNext env (serverNext env s (.step i order)) (.step i order) = s' at hstoring
  refine ⟨now, ?_⟩
  simp only [serverNext, hstoring, goroutineStep, handlerStep, cachedISOStep, Function.update_self]
  simp [ISOCache.set, ISOCache.insert]

set_option maxRecDepth 4096 in
/-- The node is found after a reload, and its image is built and served. -/
theorem sampleRun_served : ∃ t data, sampleServerEnv.iso.build sampleImage = .ok data ∧
    (sampleRun sampleEvents).goroutines 0 = .serving sampleISORequest sampleConfig
      (.done (.content (str "application/x-iso9660-image") (str "ipxe-02:5e:1c:9a:47:d3.iso") t data)) := by
  obtain ⟨data, hbuild⟩ := build_sampleImage
  have hbuilding : (sampleRun (.request 0 sampleISORequest :: List.replicate 11 (.step 0 sampleOrder))).goroutines 0 =
      .serving sampleISORequest sampleConfig
        (.composing (str "ipxe-02:5e:1c:9a:47:d3.iso") (.building sampleImage)) := rfl
  obtain ⟨t, hdone⟩ := composing_done hbuilding hbuild sampleOrder
  exact ⟨t, data, hbuild, hdone⟩

theorem serveHTTP_expected_sample : ∃ t data,
    (sampleRun sampleEvents).goroutines 0 = .serving sampleISORequest sampleConfig
      (.done (.content (str "application/x-iso9660-image") (str "ipxe-02:5e:1c:9a:47:d3.iso") t data)) ∧
    Expected sampleServerEnv
      (evidence sampleServerEnv (.start sampleServerEnv .missing (.content uplinksDoc) sampleOrder 0 0)
        sampleEvents 0)
      sampleISORequest sampleConfig
      (.content (str "application/x-iso9660-image") (str "ipxe-02:5e:1c:9a:47:d3.iso") t data) := by
  obtain ⟨t, data, -, hrun⟩ := sampleRun_served
  exact ⟨t, data, hrun,
    (serveHTTP_expected sampleServerEnv .missing (.content uplinksDoc) sampleOrder 0 0 _ 0 _ _ _ hrun).1⟩

end MaasBoot
