import MaasBoot.EspRoundTrip
import MaasBoot.GenericScript
import MaasBoot.IsoRoundTrip
import MaasBoot.ServerReplies

/-!
# From a served image to the node's record

A machine boots the image that the server has sent for a node.  Firmware finds the partition in the image, iPXE
finds its script in the partition, and what the script chains to comes back to the server as a request for the iPXE
script of an interface.  If the node goes by its own address, the server then looks for the record under the key
under which it has found the node when it made the image (`served_image_chains`).
-/

namespace MaasBoot

open Ipxe

/-! ### Requests for the iPXE script of an interface -/

/-- The path that the script chains to, below a path of the proxy's base. -/
def chainPath (dir mac : Bytes) : Bytes := dir ++ (str "/ipxe.cfg-" ++ mac)

/-- The paths of images have no `x`. -/
theorem isoRe_of_mem {p : Bytes} (hx : (120 : UInt8) ∈ p) : isoRe p = none := by
  unfold isoRe
  split
  · rename_i hpre
    obtain ⟨x, rfl⟩ := hpre
    have hmem : (120 : UInt8) ∈ x := (List.mem_append.mp hx).resolve_left (by decide)
    rw [List.drop_left' (by decide)]
    dsimp only
    rw [Option.map_eq_none_iff, List.find?_eq_none]
    intro n _ hmatch
    simp only [Bool.and_eq_true, Bool.or_eq_true, List.all_eq_true, beq_iff_eq] at hmatch
    obtain ⟨hall, hrest⟩ := hmatch
    rw [← List.take_append_drop n x, List.mem_append] at hmem
    rcases hmem with hmem | hmem
    · exact absurd (hall 120 hmem) (by decide)
    · rcases hrest with hrest | hrest
      · rw [hrest] at hmem
        exact absurd hmem (by decide)
      · rw [hrest] at hmem
        exact absurd hmem List.not_mem_nil
  · rfl

section ChainPath

variable {mac : Bytes} (hne : mac ≠ []) (hmac : ∀ c ∈ mac, isMacByte c = true)
include hne hmac

/-- A tail that has the whole of `/ipxe.cfg-` in it does not match, as `x` is in no address. -/
theorem ipxeRe_chainPath (dir : Bytes) : ipxeRe (chainPath dir mac) = some mac := by
  have hmatch : ((str "ipxe.cfg-").isPrefixOf (str "ipxe.cfg-" ++ mac) && (str "ipxe.cfg-" ++ mac).drop 9 != [] &&
      ((str "ipxe.cfg-" ++ mac).drop 9).all isMacByte) = true := by
    rw [List.drop_left' (by decide), List.isPrefixOf_iff_prefix.mpr (List.prefix_append ..),
      List.all_eq_true.mpr hmac]
    simpa using hne
  have hpath : chainPath dir mac = dir ++ [47] ++ (str "ipxe.cfg-" ++ mac) := by
    rw [chainPath, show str "/ipxe.cfg-" = [47] ++ str "ipxe.cfg-" by decide, List.append_assoc, List.append_assoc]
  have hfind : ∀ a : Bytes, (a ++ (str "ipxe.cfg-" ++ mac)).tails.find? (fun t => (str "ipxe.cfg-").isPrefixOf t &&
      t.drop 9 != [] && (t.drop 9).all isMacByte) = some (str "ipxe.cfg-" ++ mac) := by
    intro a
    induction a with
    | nil =>
      rw [List.nil_append, show str "ipxe.cfg-" = 105 :: str "pxe.cfg-" by decide, List.cons_append, List.tails_cons,
        List.find?_cons_of_pos]
      exact hmatch
    | cons c a ih =>
      rw [List.cons_append, List.tails_cons, List.find?_cons_of_neg, ih]
      intro hall
      simp only [Bool.and_eq_true, List.all_eq_true] at hall
      obtain ⟨⟨hpre, -⟩, hall⟩ := hall
      obtain ⟨t, ht⟩ := List.isPrefixOf_iff_prefix.mp hpre
      have hdrop : (c :: (a ++ (str "ipxe.cfg-" ++ mac))).drop 9 = t := by
        rw [← ht]
        exact List.drop_left' (by decide)
      rw [hdrop] at hall
      -- the `x` of the last `ipxe.cfg-` is behind the one of the first
      have hx : (str "ipxe.cfg-" ++ t)[a.length + 3]? = some 120 := by
        rw [ht, List.getElem?_cons_succ, List.getElem?_append_right (by omega), Nat.add_sub_cancel_left,
          List.getElem?_append_left (by decide)]
        decide
      by_cases hlt : a.length + 3 < 9
      · have hno : ∀ j < 9, 3 ≤ j → (str "ipxe.cfg-")[j]? ≠ some 120 := by decide
        rw [List.getElem?_append_left (by rw [show (str "ipxe.cfg-").length = 9 by decide]; exact hlt)] at hx
        exact hno _ hlt (by omega) hx
      · rw [List.getElem?_append_right (by rw [show (str "ipxe.cfg-").length = 9 by decide]; omega)] at hx
        exact absurd (hall 120 (List.mem_of_getElem? hx)) (by decide)
  rw [ipxeRe, hpath, hfind, Option.map_some, List.drop_left' (by decide)]

/-- Such a request is forwarded to the rack, and its answer is completed for the interface's address. -/
theorem route_chainPath (u : Unicode) {cfg : Config} (hup : cfg.rackUpstream ≠ []) (dir rawQuery host : Bytes) :
    ∃ genesisMAC upURL, route u cfg { path := chainPath dir mac, rawQuery := rawQuery, host := host } =
        .upstream genesisMAC upURL ∧ ipxeMAC (chainPath dir mac) genesisMAC = mac := by
  have hmem : ∀ c ∈ str "/ipxe.cfg-", c ∈ chainPath dir mac := fun c hc =>
    List.mem_append_right _ (List.mem_append_left _ hc)
  have hinfix : str "ipxe.cfg" <:+: chainPath dir mac := by
    refine ⟨dir ++ str "/", str "-" ++ mac, ?_⟩
    rw [chainPath, show str "/ipxe.cfg-" = str "/" ++ (str "ipxe.cfg" ++ str "-") by decide]
    simp
  have hother : ∀ p : Bytes, (120 : UInt8) ∉ p → chainPath dir mac ≠ p := by
    rintro p hp rfl
    exact hp (hmem 120 (by decide))
  have hnot : ¬ ServedLocally (chainPath dir mac) := by
    rintro (h | h | h | h)
    · exact hother _ (by decide) h
    · exact hother _ (by decide) h
    · exact hother _ (by decide) h
    · rw [isoRe_of_mem (hmem 120 (by decide))] at h
      cases h
  rw [route_of_not_servedLocally u hnot hup]
  refine ⟨_, _, rfl, ?_⟩
  rw [ipxeMAC, if_pos hinfix, ipxeRe_chainPath hne hmac]
  rfl

end ChainPath

/-! ### The address of an image -/

/-- An address in lower case. -/
structure IsLowerMac (u : Unicode) (mac : Bytes) : Prop where
  ne_nil : mac ≠ []
  bytes : ∀ c ∈ mac, isMacByte c = true
  toLower_eq : toLower u mac = mac

theorem isoRe_eq_some {p rawMAC : Bytes} (h : isoRe p = some rawMAC) :
    rawMAC ≠ [] ∧ ∀ c ∈ rawMAC, isMacByte c = true := by
  unfold isoRe at h
  split at h
  · rename_i hpre
    obtain ⟨x, rfl⟩ := hpre
    rw [List.drop_left' (by decide)] at h
    obtain ⟨n, hn, rfl⟩ := Option.map_eq_some_iff.mp h
    have hrange := List.mem_range'_1.mp (List.mem_of_find?_eq_some hn)
    have hmatch := List.find?_some hn
    simp only [Bool.and_eq_true, List.all_eq_true] at hmatch
    refine ⟨fun hnil => ?_, hmatch.1⟩
    rw [List.take_eq_nil_iff] at hnil
    rcases hnil with hzero | rfl
    · omega
    · simp at hrange
      omega
  · cases h

theorem isLowerMac_isoMAC (u : Unicode) {rawMAC : Bytes} (hne : rawMAC ≠ [])
    (hmac : ∀ c ∈ rawMAC, isMacByte c = true) : IsLowerMac u (isoMAC u rawMAC) := by
  have hbyte : ∀ c : UInt8, isMacByte c = true →
      c.toNat < 0x80 ∧ isMacByte (lowerByte c) = true ∧ lowerByte (lowerByte c) = lowerByte c :=
    forall_byte (by decide +kernel)
  have hascii : IsAscii rawMAC := fun c hc => (hbyte c (hmac c hc)).1
  unfold isoMAC
  by_cases hnorm : normalizeMAC u rawMAC = []
  · have hlower : ∀ c ∈ rawMAC.map lowerByte, isMacByte c = true := by
      intro c hc
      obtain ⟨d, hd, rfl⟩ := List.mem_map.mp hc
      exact (hbyte d (hmac d hd)).2.1
    rw [if_pos hnorm, toLower_ascii u hascii]
    refine ⟨by simpa using hne, hlower, ?_⟩
    rw [toLower_ascii u fun c hc => (hbyte c (hlower c hc)).1, List.map_map]
    exact List.map_congr_left fun c hc => (hbyte c (hmac c hc)).2.2
  · rw [if_neg hnorm]
    unfold normalizeMAC at hnorm ⊢
    split at hnorm
    · rename_i hw hparse
      split at hnorm
      · rename_i hlen
        rw [if_pos hlen, toLower_macString]
        exact ⟨macString_ne_nil hlen, fun c hc => (isMacText_macString hw).isMacByte hc, toLower_macString u hw⟩
      · exact absurd rfl hnorm
    · exact absurd rfl hnorm

theorem IsLowerMac.plain {u : Unicode} {mac : Bytes} (h : IsLowerMac u mac) : Plain mac := by
  have hbyte : ∀ c : UInt8, isMacByte c = true → (32 < c ∧ c ≠ 92 ∧ c ≠ 36 ∧ c ≠ 35) ∧ c ∉ [124, 38, 59] :=
    forall_byte (by decide +kernel)
  have hlink : ∀ w : Bytes, w.any ([124, 38, 59].contains ·) = true → mac ≠ w := by
    rintro w hw rfl
    obtain ⟨c, hc, hlink⟩ := List.any_eq_true.mp hw
    exact (hbyte c (h.bytes c hc)).2 (List.contains_iff_mem.mp hlink)
  exact ⟨fun c hc => (hbyte c (h.bytes c hc)).1, hlink _ (by decide), hlink _ (by decide), hlink _ (by decide)⟩

/-! ### What a node's script chains to -/

namespace Boot

variable {b : Boot}

theorem head_configure {n : Node} {i : Nat} {nic : Nic} {argv : List Bytes} (h : argv ∈ configure n i nic) :
    argv.head? ≠ some (str "chain") := by
  simp only [configure, List.mem_append, List.mem_cons, List.not_mem_nil, or_false, List.mem_map] at h
  have hcmd : ∀ {c : Bytes} (args : List Bytes), c ≠ str "chain" → (c :: args).head? ≠ some (str "chain") :=
    fun _ hc heq => hc (Option.some.inj heq)
  rcases h with (((rfl | rfl | rfl) | h) | ⟨a, -, rfl⟩) | rfl
  · exact hcmd _ (by decide)
  · exact hcmd _ (by decide)
  · exact hcmd _ (by decide)
  · split at h
    · rw [List.mem_singleton.mp h]
      exact hcmd _ (by decide)
    · exact absurd h List.not_mem_nil
  · exact hcmd _ (by decide)
  · exact hcmd _ (by decide)

theorem head_takeDown {n : Node} {i : Nat} {argv : List Bytes} (h : argv ∈ takeDown n i) :
    argv.head? ≠ some (str "chain") := by
  have hcmd : ∀ {c : Bytes} (args : List Bytes), c ≠ str "chain" → (c :: args).head? ≠ some (str "chain") :=
    fun _ hc heq => hc (Option.some.inj heq)
  rcases List.mem_append.mp h with h | h
  · split at h
    · simp only [List.mem_cons, List.not_mem_nil, or_false] at h
      rcases h with rfl | rfl
      · exact hcmd _ (by decide)
      · exact hcmd _ (by decide)
    · exact absurd h List.not_mem_nil
  · rw [List.mem_singleton.mp h]
    exact hcmd _ (by decide)

/-- The command chains to the script of an uplink, if it is a chain. -/
def ChainsToUplink (b : Boot) (argv : List Bytes) : Prop :=
  argv.head? = some (str "chain") →
    ∃ (i : Nat) (nic : Nic), b.nics.list[i]? = some nic ∧ Uplink b.unicode b.node b.mac nic ∧
      argv = chainTo b.proxyBase nic

theorem chainsToUplink_visit {i : Nat} {nic : Nic} (hnic : b.nics.list[i]? = some nic) {argv : List Bytes}
    (h : argv ∈ visit b.unicode b.node b.mac b.proxyBase i nic) : b.ChainsToUplink argv := by
  intro hchain
  rw [visit, List.mem_cons] at h
  rcases h with rfl | h
  · exact absurd (Option.some.inj hchain) (by decide)
  · split at h
    · rename_i hup
      rcases List.mem_append.mp h with h | h
      · exact absurd hchain (head_configure h)
      · rcases List.mem_cons.mp h with h | h
        · exact ⟨i, nic, hnic, hup, h⟩
        · exact absurd hchain (head_takeDown h)
    · exact absurd h List.not_mem_nil

theorem chainsToUplink_visits {k : Nat} {argv : List Bytes}
    (h : argv ∈ visits b.unicode b.node b.mac b.proxyBase b.nics k) : b.ChainsToUplink argv := by
  obtain ⟨p, hp, hmem⟩ := List.mem_flatMap.mp h
  exact chainsToUplink_visit (List.mk_mem_zipIdx_iff_getElem?.mp (List.mem_of_mem_take hp)) hmem

theorem chainsToUplink_passes {p : Nat} {argv : List Bytes}
    (h : argv ∈ passes b.unicode b.node b.mac b.proxyBase b.nics p) : b.ChainsToUplink argv := by
  have hretry : ∀ argv ∈ retry, argv.head? ≠ some (str "chain") := by decide
  obtain ⟨l, hl, hmem⟩ := List.mem_flatten.mp h
  rw [List.eq_of_mem_replicate hl] at hmem
  rcases List.mem_append.mp hmem with hmem | hmem
  · exact chainsToUplink_visits hmem
  · exact fun hchain => absurd hchain (hretry argv hmem)

/-- Whatever the script has done, its chains are those to the scripts of uplinks. -/
theorem chainsToUplink_trace (k : Nat) : ∀ argv ∈ (b.next^[k] (start b.program)).trace, b.ChainsToUplink argv := by
  by_cases hex : ∃ p i nic, b.ChainsIn p i nic
  · obtain ⟨p, i, nic, h⟩ := hex
    obtain ⟨p, i, nic, hfound, hfirst⟩ := exists_first h
    obtain ⟨m, hm⟩ := exists_done hfound hfirst
    have hdone : ∀ argv ∈ (b.next^[m] (start b.program)).trace, b.ChainsToUplink argv := by
      intro argv hmem
      rw [hm.trace_eq, beforeChain] at hmem
      simp only [List.mem_append, List.mem_cons, List.not_mem_nil, or_false] at hmem
      rcases hmem with ((hmem | hmem) | rfl | hmem) | rfl
      · exact chainsToUplink_passes hmem
      · exact chainsToUplink_visits hmem
      · exact fun hchain => absurd (Option.some.inj hchain) (by decide)
      · exact fun hchain => absurd hchain (head_configure hmem)
      · exact fun _ => ⟨i, nic, hfound.1, hfound.2.1, rfl⟩
    rcases Nat.le_total k m with hle | hle
    · obtain ⟨d, rfl⟩ := Nat.exists_eq_add_of_le hle
      exact fun argv hmem => hdone argv ((iterate_grows _ k d).trace.subset hmem)
    · obtain ⟨d, rfl⟩ := Nat.exists_eq_add_of_le hle
      rw [Nat.add_comm, Function.iterate_add_apply, iterate_done hm.halted]
      exact hdone
  · obtain ⟨m, hle, hm⟩ := exists_pass fun q i nic (_ : q < k) hc => hex ⟨q, i, nic, hc⟩
    obtain ⟨d, rfl⟩ := Nat.exists_eq_add_of_le hle
    intro argv hmem
    have hpre : (b.next^[k] (start b.program)).trace <+: (b.next^[k + d] (start b.program)).trace :=
      (iterate_grows _ k d).trace
    rw [hm.trace_eq] at hpre
    exact chainsToUplink_passes (hpre.subset hmem)

end Boot

/-! ### Images that were served -/

/-- A goroutine that has a request has got it from an event. -/
theorem request_mem_of_arrived {R : Type} {env : ServerEnv R} {s₀ : ServerState}
    (hidle : ∀ i, s₀.goroutines i = .idle) {es : List ServerEvent} {j : Nat} {r : HttpRequest}
    (h : (runEvents (serverNext env) s₀ es).goroutines j = .arrived r) : .request j r ∈ es := by
  have hall : ∀ j r, (runEvents (serverNext env) s₀ es).goroutines j = .arrived r → .request j r ∈ es := by
    refine runEvents_induction (P := fun es (s : ServerState) => ∀ j r, s.goroutines j = .arrived r →
      .request j r ∈ es) (fun j r hj => by rw [hidle j] at hj; cases hj) (fun es e ih j r hj => ?_) es
    rcases arrived_of_serverNext hj with hbefore | rfl
    · exact List.mem_append_left _ (ih j r hbefore)
    · exact List.mem_append_right _ (List.mem_singleton_self _)
  exact hall j r h

/-- Whatever is found under a key is the one node. -/
theorem eq_uplinksNode {s : ServerState} {norm : Bytes} {n : Node} (h : Recorded sampleServerEnv s norm n) :
    n = uplinksNode := by
  rcases h with ⟨b, -, nodes, hnodes, hn⟩ | ⟨b, -, f, order, hf, -⟩
  · have hun : sampleServerEnv.store.unmarshal b =
        if b = uplinksDoc then .ok { version := 1, nodes := [(sampleKey, uplinksNode)] }
        else if b = emptyDoc then .ok { version := 1, nodes := [] }
        else .error (str "unexpected end of JSON input") := rfl
    unfold parseNodes at hnodes
    rw [hun] at hnodes
    split at hnodes
    · obtain rfl : (∅ : NodeMap).insert (normalizeKey .asciiOnly sampleKey) uplinksNode = nodes :=
        Except.ok.inj hnodes
      by_cases hkey : normalizeKey sampleServerEnv.unicode norm = normalizeKey .asciiOnly sampleKey
      · rw [hkey, Finmap.lookup_insert] at hn
        exact (Option.some.inj hn).symm
      · rw [Finmap.lookup_insert_of_ne _ hkey, Finmap.lookup_empty] at hn
        cases hn
    · split at hnodes
      · obtain rfl : (∅ : NodeMap) = nodes := Except.ok.inj hnodes
        rw [Finmap.lookup_empty] at hn
        cases hn
      · cases hnodes
  · cases hf

/-- The configuration is the one without a config file. -/
theorem eq_sampleConfig {s : ServerState} (hs : s.shared.config.Good sampleServerEnv.config) :
    s.shared.config.server.cfg = sampleConfig := by
  obtain ⟨f, order, hf, hcfg⟩ := hs.cfg
  cases hinst : s.shared.config.installed with
  | none =>
    rw [hinst] at hf
    obtain rfl : f = {} := hf
    rw [hcfg, config_empty]
    rfl
  | some b =>
    rw [hinst] at hf
    cases hf.2

/-- The image of the node is the only one that is built in the run. -/
theorem eq_sampleImage {req : IsoRequest} (h : (evidence sampleServerEnv
    (.start sampleServerEnv .missing (.content uplinksDoc) sampleOrder 0 0) sampleEvents 0).built req) :
    req = sampleImage := by
  obtain ⟨j, r, cfg, name, ⟨es₁, es₂, hes, harrived, hcfg⟩, hasks⟩ :=
    asksFor_of_built _ (fun _ => rfl) (IsoOps.good_new 0) h
  obtain rfl : r = sampleISORequest := by
    have hmem : .request j r ∈ sampleEvents :=
      hes ▸ List.mem_append_left _ (request_mem_of_arrived (fun _ => rfl) harrived)
    simp only [sampleEvents, List.mem_cons, List.mem_replicate, ServerEvent.request.injEq, reduceCtorEq, and_false,
      or_false] at hmem
    exact hmem.2
  obtain rfl : cfg = sampleConfig :=
    hcfg.symm.trans (eq_sampleConfig (good_config_serverRun sampleServerEnv _ _ _ _ _ es₁))
  have hroute : route sampleServerEnv.unicode sampleConfig sampleISORequest.toRequest = .nodeISO sampleKey := by
    decide
  cases hasks with
  | generic hroute' => cases hroute.symm.trans hroute'
  | node hroute' hseen =>
    obtain rfl := Route.nodeISO.inj (hroute.symm.trans hroute')
    obtain ⟨es₁, es₂, -, -, hfound⟩ := hseen
    rename_i n
    obtain rfl : n = uplinksNode := by
      rcases hfound with hget | hlookup
      · exact eq_uplinksNode (recorded_of_get (good_nodes_serverRun sampleServerEnv _ _ _ _ _ es₁) hget)
      · exact eq_uplinksNode (recorded_of_lookup (good_config_serverRun sampleServerEnv _ _ _ _ _ es₁) hlookup)
    rfl

theorem plain_uplinksNode : uplinksNode.Plain where
  hostname := plain_of_all (by decide) (by decide)
  vlan := plain_of_all (by decide) (by decide)
  ip := plain_of_all (by decide) (by decide)
  netmask := plain_of_all (by decide) (by decide)
  gw := plain_of_all (by decide) (by decide)
  dns := plain_of_all (by decide) (by decide)
  bondMembers := by
    simp only [uplinksNode, List.forall_mem_cons, List.not_mem_nil, false_imp_iff, implies_true, and_true]
    exact ⟨plain_of_all (by decide) (by decide), plain_of_all (by decide) (by decide)⟩

/-- A machine with two interfaces, of which the second is in one of the node's slots. -/
def slotNics : Nics where
  list := [⟨str "02:00:00:00:00:01", str "0000:01:00.0", by decide, by decide⟩,
    ⟨str "02:00:00:00:00:02", str "0000:af:00.1", by decide, by decide⟩]
  length_lt := by decide

end MaasBoot
