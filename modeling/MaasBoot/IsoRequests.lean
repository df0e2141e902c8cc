import MaasBoot.ConfigHash
import MaasBoot.IsoCacheCalls
import MaasBoot.IsoImage

/-!
# The ISO endpoints

The proxy serves two kinds of ISO images, the generic one and those of nodes, both through `cachedISO`.  The nodes
and the proxy base may change at any time; a request keeps the values it has read.

Under the config hashes equal hashes stand for equal scripts, hence for equal images, as long as SHA-256 does not
collide on the texts that are hashed, no value contains a newline and no bond member contains a comma.
-/

namespace MaasBoot

/-- `GenericConfigHash` -/
def genericConfigHash (sha256 : Bytes → Bytes) (proxyBase : Bytes) : Bytes :=
  (hexEncode (sha256 (str "generic\nproxy_base=" ++ trimRight proxyBase 47))).take 16

/-- `BuildNodeISO` -/
def buildNodeISO (u : Unicode) (ipxeEFI : Bytes) (n : Node) (mac proxyBase : Bytes) : Go Bytes :=
  buildBootISO ipxeEFI (renderNodeIPXEScript u n mac proxyBase)

/-- `BuildGenericISO` -/
def buildGenericISO (ipxeEFI proxyBase : Bytes) : Go Bytes := buildBootISO ipxeEFI (renderGenericIPXEScript proxyBase)

def genericISOKey : Bytes := str "generic"

/-- A request for an ISO image, with the values it was made for. -/
inductive IsoRequest where
  | generic (proxyBase : Bytes)
  | node (n : Node) (normMAC proxyBase : Bytes)

namespace IsoRequest

/-- The arguments of `cachedISO`. -/
def key : IsoRequest → Bytes
  | .generic _ => genericISOKey
  | .node _ normMAC _ => normMAC

def hash (sha256 : Bytes → Bytes) : IsoRequest → Bytes
  | .generic proxyBase => genericConfigHash sha256 proxyBase
  | .node n normMAC proxyBase => computeNodeConfigHash sha256 n normMAC proxyBase

def build (u : Unicode) (ipxeEFI : Bytes) : IsoRequest → Go Bytes
  | .generic proxyBase => buildGenericISO ipxeEFI proxyBase
  | .node n normMAC proxyBase => buildNodeISO u ipxeEFI n normMAC proxyBase

/-- The text that is hashed. -/
def text : IsoRequest → Bytes
  | .generic proxyBase => str "generic\nproxy_base=" ++ trimRight proxyBase 47
  | .node n normMAC proxyBase => configText n normMAC proxyBase

/-- No value contains a newline, and no bond member a comma. -/
def Plain : IsoRequest → Prop
  | .generic _ => True
  | .node n normMAC proxyBase => (∀ f ∈ configFields n normMAC proxyBase, 10 ∉ f.2) ∧ ∀ m ∈ n.bondMembers, 44 ∉ m

/-! ### Equal texts mean equal images -/

/-- Joined by commas, members without commas can be told apart, except for none at all and an empty one. -/
theorem eq_or_of_join_eq {ms ms' : List Bytes} (hms : ∀ m ∈ ms, (44 : UInt8) ∉ m) (hms' : ∀ m ∈ ms', (44 : UInt8) ∉ m)
    (h : join (str ",") ms = join (str ",") ms') : ms = ms' ∨ (∀ m ∈ ms, m = []) ∧ ∀ m ∈ ms', m = [] := by
  have hsplit : ∀ ls : List Bytes, (∀ m ∈ ls, (44 : UInt8) ∉ m) → ls ≠ [] → (join (str ",") ls).splitOn 44 = ls := by
    intro ls hls hne
    exact List.splitOn_intercalate 44 hls hne
  have hempty : ∀ ls : List Bytes, (∀ m ∈ ls, (44 : UInt8) ∉ m) → join (str ",") ls = [] → ∀ m ∈ ls, m = [] := by
    intro ls hls hjoin m hm
    have heq := hsplit ls hls (List.ne_nil_of_mem hm)
    rw [hjoin] at heq
    rw [← heq] at hm
    simpa using hm
  rcases eq_or_ne ms [] with rfl | hne
  · exact .inr ⟨by simp, hempty ms' hms' h.symm⟩
  · rcases eq_or_ne ms' [] with rfl | hne'
    · exact .inr ⟨hempty ms hms h, by simp⟩
    · left
      rw [← hsplit ms hms hne, h, hsplit ms' hms' hne']

theorem pciMembers_of_empty {u : Unicode} {n : Node} (h : ∀ m ∈ n.bondMembers, m = []) : n.pciMembers u = [] := by
  unfold Node.pciMembers
  rw [List.map_eq_nil_iff, List.filter_eq_nil_iff]
  intro m hm
  rw [h m.1 (List.fst_mem_of_mem_zipIdx hm)]
  decide

theorem build_eq_of_text_eq (u : Unicode) (ipxeEFI : Bytes) {r r' : IsoRequest} (hr : r.Plain) (hr' : r'.Plain)
    (h : r.text = r'.text) : r.build u ipxeEFI = r'.build u ipxeEFI := by
  -- `generic` and `mac=` begin with different bytes
  have hhead : ∀ (b : Bytes) (n : Node) (mac b' : Bytes), (generic b).text ≠ (node n mac b').text := by
    intro b n mac b' heq
    have hheads := congrArg List.head? heq
    simp only [text, configText, configFields, Fields.text, List.map_cons, unlines_cons, List.head?_append,
      show (str "generic\nproxy_base=").head? = some 103 by decide, show (str "mac").head? = some 109 by decide,
      Option.some_or] at hheads
    exact absurd (Option.some.inj hheads) (by decide)
  cases r with
  | generic b =>
    cases r' with
    | generic b' =>
      have hb : trimRight b 47 = trimRight b' 47 := List.append_cancel_left h
      simp only [build, buildGenericISO, renderGenericIPXEScript, hb]
    | node n mac b' => exact absurd h (hhead b n mac b')
  | node n mac b =>
    cases r' with
    | generic b' => exact absurd h.symm (hhead b' n mac b)
    | node n' mac' b' =>
      obtain ⟨hsame, hjoin⟩ := (configLines_eq_iff (Fields.readable_of_newline_notMem hr.1)).mp
        (configText_eq_iff.mp h)
      have hpci : n.pciMembers u = n'.pciMembers u := by
        rcases eq_or_of_join_eq hr.2 hr'.2 hjoin with hms | ⟨hms, hms'⟩
        · unfold Node.pciMembers
          rw [hms]
        · -- empty members look like none, but they are no PCI addresses either
          rw [pciMembers_of_empty hms, pciMembers_of_empty hms']
      rw [build, build, buildNodeISO, buildNodeISO, renderNodeIPXEScript_congr (hsame.sameShown hpci)]

end IsoRequest

/-! ### Serving -/

/-- Plain requests, for whose texts SHA-256 does not collide. -/
def isoScheme (u : Unicode) (ipxeEFI : Bytes) (sha256 : Bytes → Bytes) (rs : Set IsoRequest)
    (hplain : ∀ r ∈ rs, r.Plain) (hsha : ∀ r ∈ rs, ∀ r' ∈ rs, r.hash sha256 = r'.hash sha256 → r.text = r'.text) :
    IsoScheme u rs GoError where
  key r := r.val.key
  hash r := r.val.hash sha256
  build r := r.val.build u ipxeEFI
  sound r r' _ hhash :=
    IsoRequest.build_eq_of_text_eq u ipxeEFI (hplain _ r.2) (hplain _ r'.2) (hsha _ r.2 _ r'.2 hhash)

/-- Whatever else goes on, a node's ISO is the one of the values that its request has read. -/
theorem nodeISO_served {u : Unicode} {ipxeEFI : Bytes} {sha256 : Bytes → Bytes} {rs : Set IsoRequest}
    (hplain : ∀ r ∈ rs, r.Plain) (hsha : ∀ r ∈ rs, ∀ r' ∈ rs, r.hash sha256 = r'.hash sha256 → r.text = r'.text)
    (ttl clock : Int) (es : List (IsoEvent rs)) {i : Nat} {n : Node} {mac base : Bytes} (hr : .node n mac base ∈ rs)
    {data : Bytes} (h : (runEvents (isoNext (isoScheme u ipxeEFI sha256 rs hplain hsha))
      (IsoState.init ttl clock) es).outcome i = some (⟨.node n mac base, hr⟩, .ok data)) :
      buildNodeISO u ipxeEFI n mac base = .ok data :=
  ((IsoState.good_run ttl clock es).outcome h).symm

end MaasBoot
