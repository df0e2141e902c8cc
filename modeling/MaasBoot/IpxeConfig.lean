import MaasBoot.KernelNet
import MaasBoot.RackUrls

/-!
# What the proxy adds to iPXE scripts

When a node asks for its `ipxe.cfg`, the proxy puts the node's kernel parameters into the answer of the rack, in
place of those with `BOOTIF`, and for a bonded node a line that loads the overlay, before the line that boots.

Both work on the text.  The parameters, and likewise the base URL in `rewriteData`, are templates of `ReplaceAll`,
so they are inserted verbatim only if they have no dollar sign that is expanded (`inject_verbatim_iff`).  The line
of the overlay is put where a newline is followed by `boot`; the first line has no newline before it, and without
such a place the line is appended to a last line that may lack its newline (`injectOverlayInitrd_iff`).
-/

namespace MaasBoot

/-! ### The pattern of the parameters -/

/-- The class `\S`. -/
def isNonSpace (c : UInt8) : Bool := !(c == 9 || c == 10 || c == 12 || c == 13 || c == 32)

/-- The pattern `ip=\S*BOOTIF`, whose repetition takes as much as it can. -/
def ipCmdRe : Pattern := fun _ s =>
  if (str "ip=").isPrefixOf s then
    (lastIndex (str "BOOTIF") ((s.drop 3).takeWhile isNonSpace)).map fun i => 3 + i + 6
  else none

example : replaceAll ipCmdRe (fun _ => str "ip=dhcp") (str "imgargs k ip=a:BOOTIF:BOOTIF ip=b ro") =
    str "imgargs k ip=dhcp ip=b ro" := by decide

/-! ### Injections -/

/-- The node's parameters in a script. -/
def injectNet (u : Unicode) (node : Node) (body : Bytes) : Bytes :=
  if (findIndex ipCmdRe body).isSome then replaceAll ipCmdRe (expand u (buildKernelNet node)) body else body

def injectOverlayInitrd (body url : Bytes) : Bytes :=
  if url = [] then body
  else
    let line := str "initrd " ++ url ++ str "\n"
    match lastIndex (str "\nboot") body with
    | some i => body.take (i + 1) ++ line ++ body.drop (i + 1)
    | none => body ++ line

def overlayPath : Bytes := str "/genesis-overlay.cpio.gz"

/-- The script of a node that is known. -/
def injectNode (u : Unicode) (overlayURL proxyBase : Bytes) (node : Node) (body : Bytes) : Bytes :=
  let body := injectNet u node body
  if node.bonded then
    injectOverlayInitrd body (if overlayURL = [] then trimRight proxyBase 47 ++ overlayPath else overlayURL)
  else body

/-! ### Verbatim insertion -/

theorem marked_of_ipCmdRe (bol : Bool) (s : Bytes) (n : Nat) (h : ipCmdRe bol s = some n) : Marked 61 (s.take n) := by
  unfold ipCmdRe at h
  split at h
  · rename_i hpre
    obtain ⟨t, rfl⟩ := List.isPrefixOf_iff_prefix.mp hpre
    obtain ⟨i, -, rfl⟩ := Option.map_eq_some_iff.mp h
    refine ⟨str "ip", t.take (i + 6), ?_, by decide⟩
    rw [Nat.add_assoc, List.take_append, List.take_of_length_le (by change 3 ≤ _; omega)]
    change str "ip=" ++ t.take (3 + (i + 6) - 3) = _
    rw [Nat.add_sub_cancel_left]
    rfl
  · cases h

theorem marked_of_defaultRackURLRe (bol : Bool) (s : Bytes) (n : Nat) (h : defaultRackURLRe bol s = some n) :
    Marked 58 (s.take n) := by
  obtain ⟨w, r, ⟨host, -, rfl⟩, rfl, rfl⟩ := (defaultRackURLRe_matchesWords.eq_some_iff ..).mp h
  rw [List.take_left]
  exact ⟨str "http", _, rfl, by decide⟩

theorem injectNet_eq (u : Unicode) (node : Node) (body : Bytes) :
    injectNet u node body = replaceAll ipCmdRe (expand u (buildKernelNet node)) body := by
  unfold injectNet
  split
  · rfl
  · rename_i h
    rw [Option.not_isSome_iff_eq_none] at h
    exact (replaceGo_of_findGo h).symm

private theorem applySubs_verbatim_iff (u : Unicode) (body baseURL : Bytes) :
    (∀ rewrites, applySubs u baseURL rewrites body =
        applySubs u [] rewrites (replaceAll defaultRackURLRe (fun _ => baseURL) body)) ↔
      findIndex defaultRackURLRe body = none ∨ (baseURL ≠ [] ∧ FormFree u baseURL) := by
  by_cases hbase : baseURL = []
  · -- The rack's URLs are kept.
    subst hbase
    rw [or_iff_left fun h => h.1 rfl]
    constructor
    · intro h
      refine defaultRackURLRe_matchesWords.findIndex_of_replaceAll_eq (fun w hw => ?_) (h []).symm
      exact List.length_pos_of_ne_nil (defaultRackURLRe_matchesWords.ne_nil w hw)
    · intro h rewrites
      rw [show replaceAll defaultRackURLRe (fun _ => []) body = body from replaceGo_of_findGo h]
  · have hiff := replaceAll_expand_iff (u := u) (x := 58) (by decide)
      (not_formByte (by decide) (by decide) (by decide) (by decide)) marked_of_defaultRackURLRe baseURL body
    rw [and_iff_right hbase, ← hiff]
    constructor
    · intro h
      have hnone := h []
      rw [applySubs_eq u hbase] at hnone
      exact hnone
    · intro h rewrites
      rw [applySubs_eq u hbase, h]

/-- In every iPXE script the parameters of a node are inserted verbatim for every match, and nothing else is
changed, if and only if there is no match or the parameters have no dollar sign that is expanded.  In every text the
base URL, without slashes at its end, is inserted verbatim for every URL of the rack, and nothing else is changed
before the rewrites of the configuration, if and only if there is no such URL or the base is neither empty nor has
such a dollar sign. -/
theorem inject_verbatim_iff (u : Unicode) {R : Type} (gzip : Gzip) (tar : Tar R) (md5 : Bytes → Vector UInt8 16)
    (body base : Bytes) (node : Node) :
    (node.kernelNet ≠ [] → buildKernelNet node = node.kernelNet) ∧
    (injectNet u node body = replaceAll ipCmdRe (fun _ => buildKernelNet node) body ↔
      findIndex ipCmdRe body = none ∨ FormFree u (buildKernelNet node)) ∧
    (IsText body →
      ((∀ rewrites, rewriteData u gzip tar md5 body base rewrites =
          some (.ok (applySubs u [] rewrites (replaceAll defaultRackURLRe (fun _ => trimRight base 47) body)))) ↔
        findIndex defaultRackURLRe body = none ∨ (trimRight base 47 ≠ [] ∧ FormFree u (trimRight base 47)))) := by
  refine ⟨fun h => if_pos h, ?_, fun hbody => ?_⟩
  · rw [injectNet_eq]
    exact replaceAll_expand_iff (by decide) (not_formByte (by decide) (by decide) (by decide) (by decide))
      marked_of_ipCmdRe _ _
  · simp only [rewriteData_text u gzip tar md5 hbody, Option.some.injEq, Except.ok.injEq]
    exact applySubs_verbatim_iff u body _

/-- A variable of the script in the parameters of a node is lost. -/
theorem injectNet_dollar :
    injectNet .asciiOnly { kernelNet := str "ip=dhcp console=$tty" } (str "imgargs k ip=dhcp:BOOTIF ro") =
      str "imgargs k ip=dhcp console= ro" ∧
    replaceAll ipCmdRe (fun _ => str "ip=dhcp console=$tty") (str "imgargs k ip=dhcp:BOOTIF ro") =
      str "imgargs k ip=dhcp console=$tty ro" := by
  decide

/-! ### The line of the overlay -/

section InsertBeforeLast

variable {α : Type} (p : α → Bool) (x : α)

/-- A list with `x` before the last element that has the property, and at the end if there is none. -/
def insertBeforeLast : List α → List α
  | [] => [x]
  | l :: ls => if p l && ls.all (fun l' => !p l') then x :: l :: ls else l :: insertBeforeLast ls

theorem insertBeforeLast_of_none {ls : List α} (h : ∀ l ∈ ls, p l = false) : insertBeforeLast p x ls = ls ++ [x] := by
  induction ls with
  | nil => rfl
  | cons l ls ih =>
    rw [List.forall_mem_cons] at h
    rw [insertBeforeLast, h.1, Bool.false_and, if_neg (by decide), ih h.2, List.cons_append]

theorem insertBeforeLast_of_last (pre : List α) {post : List α} {l : α} (hl : p l = true)
    (hpost : ∀ l' ∈ post, p l' = false) :
    insertBeforeLast p x (pre ++ l :: post) = pre ++ x :: l :: post := by
  induction pre with
  | nil =>
    rw [List.nil_append, insertBeforeLast, if_pos]
    · rfl
    · simpa [hl] using hpost
  | cons l' pre ih =>
    -- Behind the element there is one more with the property.
    rw [List.cons_append, insertBeforeLast, ih, if_neg (by simp [hl]), List.cons_append]

end InsertBeforeLast

/-- Does a line begin with `boot`? -/
def isBootLine (l : Bytes) : Bool := (str "boot").isPrefixOf l

theorem isBootLine_eq_false {l : Bytes} (h : ¬ str "boot" <+: l) : isBootLine l = false :=
  Bool.eq_false_iff.mpr fun h' => h (List.isPrefixOf_iff_prefix.mp h')

theorem isBootLine_eq_true {l : Bytes} (h : str "boot" <+: l) : isBootLine l = true :=
  List.isPrefixOf_iff_prefix.mpr h

private theorem newlineBoot_eq : str "\nboot" = 10 :: str "boot" := rfl

private theorem newline_notMem_line {url : Bytes} (hline : 10 ∉ url) : 10 ∉ str "initrd " ++ url := by
  rw [List.mem_append, not_or]
  exact ⟨by decide, hline⟩

/-- With a newline before `boot` the line is put in at the last such place. -/
theorem injectOverlayInitrd_boot {body url : Bytes} (hurl : url ≠ []) (h : 10 :: str "boot" <:+: body) :
    ∃ a b, body = a ++ 10 :: (str "boot" ++ b) ∧ ¬ 10 :: str "boot" <:+: str "boot" ++ b ∧
      injectOverlayInitrd body url = a ++ 10 :: (str "initrd " ++ url ++ 10 :: (str "boot" ++ b)) := by
  rw [← newlineBoot_eq] at h
  cases hi : lastIndex (str "\nboot") body with
  | none => exact absurd h (lastIndex_eq_none_iff.mp hi)
  | some i =>
    obtain ⟨a, b, rfl, rfl, hlast⟩ := lastIndex_eq_some (by decide) hi
    refine ⟨a, b, rfl, hlast, ?_⟩
    have hboot : a ++ (str "\nboot" ++ b) = (a ++ [10]) ++ (str "boot" ++ b) := by
      rw [List.append_assoc]
      rfl
    rw [injectOverlayInitrd, if_neg hurl, hi]
    dsimp only
    rw [hboot, List.take_left' (by simp), List.drop_left' (by simp)]
    simp only [List.append_assoc]
    rfl

/-- Otherwise it is appended. -/
theorem injectOverlayInitrd_append {body url : Bytes} (hurl : url ≠ []) (h : ¬ 10 :: str "boot" <:+: body) :
    injectOverlayInitrd body url = body ++ (str "initrd " ++ url ++ [10]) := by
  rw [injectOverlayInitrd, if_neg hurl, newlineBoot_eq, lastIndex_eq_none_iff.mpr h]
  rfl

theorem fields_injectOverlayInitrd_boot {body url : Bytes} (hurl : url ≠ []) (hline : 10 ∉ url)
    (h : 10 :: str "boot" <:+: body) :
    fields 10 (injectOverlayInitrd body url) =
      insertBeforeLast isBootLine (str "initrd " ++ url) (fields 10 body) := by
  obtain ⟨a, b, rfl, hlast, hresult⟩ := injectOverlayInitrd_boot hurl h
  obtain ⟨l, hl, hboot⟩ := (prefix_iff_head_fields (c := 10) (by decide) (by decide) _).mp
    (List.prefix_append (str "boot") b)
  obtain ⟨post, hpost⟩ := List.head?_eq_some_iff.mp hl
  rw [cons_infix_iff_tail_fields (by decide) (by decide), hpost] at hlast
  have hnone : ∀ l' ∈ post, isBootLine l' = false := fun l' hmem =>
    isBootLine_eq_false fun h' => hlast ⟨l', hmem, h'⟩
  rw [hresult, fields_append_cons, fields_line (newline_notMem_line hline), fields_append_cons, hpost]
  exact (insertBeforeLast_of_last _ _ _ (isBootLine_eq_true hboot) hnone).symm

/-- The script of a bonded node, with the parameters of the node and the line of the overlay. -/
theorem fields_injectNode_bonded {u : Unicode} {overlayURL proxyBase : Bytes} {node : Node} {body : Bytes}
    (hbonded : node.bonded = true) (hoverlay : 10 ∉ overlayURL) (hbase : 10 ∉ proxyBase)
    (hboot : 10 :: str "boot" <:+: injectNet u node body) :
    fields 10 (injectNode u overlayURL proxyBase node body) =
      insertBeforeLast isBootLine
        (str "initrd " ++ (if overlayURL = [] then trimRight proxyBase 47 ++ overlayPath else overlayURL))
        (fields 10 (injectNet u node body)) := by
  rw [injectNode, if_pos hbonded]
  refine fields_injectOverlayInitrd_boot ?_ ?_ hboot
  · split
    · exact List.append_ne_nil_of_right_ne_nil _ (by decide)
    · assumption
  · split
    · rw [List.mem_append, not_or]
      exact ⟨fun h => hbase ((List.rdropWhile_prefix _ _).subset h), by decide⟩
    · exact hoverlay

/-- An appended line is a line of its own behind a newline only. -/
theorem fields_append_line_iff {url : Bytes} (hline : 10 ∉ url) (body : Bytes) :
    fields 10 (body ++ (str "initrd " ++ url ++ [10])) = fields 10 body ++ [str "initrd " ++ url] ↔
      body = [] ∨ body.getLast? = some 10 := by
  have hno := newline_notMem_line hline
  constructor
  · intro h
    by_contra hbody
    rw [not_or] at hbody
    have hlen := congrArg List.length h
    rw [← List.append_assoc, fields_append_cons, fields_nil, List.append_nil, length_splitOn, List.length_append,
      length_fields_of_getLast? hbody.1 hbody.2, List.count_append, List.count_eq_zero_of_not_mem hno,
      List.length_singleton] at hlen
    omega
  · rintro (rfl | hlast)
    · rw [List.nil_append, fields_line hno]
      rfl
    · obtain ⟨b, rfl⟩ := List.getLast?_eq_some_iff.mp hlast
      rw [fields_append_cons, fields_nil, List.append_nil, List.append_assoc, List.singleton_append,
        fields_append_cons, fields_line hno, fields_nil]

/-- The lines of a script with the overlay are the lines of the script and the line of the overlay before the last one
that begins with `boot`, or at the end if none does, if and only if a line behind the first one begins with `boot`, or
none does and the script is empty or ends with a newline. -/
theorem injectOverlayInitrd_iff {url : Bytes} (hurl : url ≠ []) (hline : 10 ∉ url) (body : Bytes) :
    fields 10 (injectOverlayInitrd body url) =
        insertBeforeLast isBootLine (str "initrd " ++ url) (fields 10 body) ↔
      (∃ l ∈ (fields 10 body).tail, str "boot" <+: l) ∨
        ((∀ l ∈ fields 10 body, ¬ str "boot" <+: l) ∧ (body = [] ∨ body.getLast? = some 10)) := by
  have htail := cons_infix_iff_tail_fields (c := 10) (t := str "boot") (by decide) (by decide) body
  have hhead := prefix_iff_head_fields (c := 10) (t := str "boot") (by decide) (by decide)
  rw [← htail]
  by_cases hboot : 10 :: str "boot" <:+: body
  · exact iff_of_true (fields_injectOverlayInitrd_boot hurl hline hboot) (.inl hboot)
  rw [injectOverlayInitrd_append hurl hboot, or_iff_right hboot]
  rw [htail] at hboot
  by_cases hfirst : ∃ l ∈ fields 10 body, str "boot" <+: l
  · -- It is the first line, and the result begins with it, not with the line of the overlay.
    obtain ⟨l, hl, hl'⟩ := hfirst
    refine iff_of_false (fun h => ?_) (fun h => h.1 l hl hl')
    cases hls : fields 10 body with
    | nil =>
      rw [hls] at hl
      cases hl
    | cons f fs =>
      rw [hls] at h hl hboot
      obtain rfl : l = f := (List.mem_cons.mp hl).resolve_right fun hmem => hboot ⟨l, hmem, hl'⟩
      have hnone : ∀ l' ∈ fs, isBootLine l' = false := fun l' hmem =>
        isBootLine_eq_false fun h' => hboot ⟨l', hmem, h'⟩
      have hinsert := insertBeforeLast_of_last _ (str "initrd " ++ url) [] (isBootLine_eq_true hl') hnone
      rw [List.nil_append, List.nil_append] at hinsert
      have hbody : str "boot" <+: body := (hhead body).mpr ⟨l, by rw [hls]; rfl, hl'⟩
      obtain ⟨l', hmem, hline'⟩ := (hhead _).mp (hbody.trans (List.prefix_append body (str "initrd " ++ url ++ [10])))
      rw [h, hinsert] at hmem
      obtain rfl := Option.some.inj hmem
      obtain ⟨t, ht⟩ := hline'
      exact absurd (List.cons.inj ht).1 (by decide)
  · have hnone : ∀ l ∈ fields 10 body, ¬ str "boot" <+: l := fun l hl h => hfirst ⟨l, hl, h⟩
    rw [insertBeforeLast_of_none _ _ fun l hl => isBootLine_eq_false (hnone l hl), fields_append_line_iff hline]
    exact ⟨fun h => ⟨hnone, h⟩, fun h => h.2⟩

theorem injectOverlayInitrd_menu :
    fields 10 (injectOverlayInitrd (str "#!ipxe\nkernel k\nboot || shell\n") (str "http://maas/o")) =
      [str "#!ipxe", str "kernel k", str "initrd http://maas/o", str "boot || shell"] :=
  (injectOverlayInitrd_iff (by decide) (by decide) _).mpr (.inl ⟨str "boot || shell", by decide, by decide⟩)

/-- A script that begins with `boot` loads the overlay behind it, and at the end of a last line without a newline
there is no line of the overlay. -/
theorem injectOverlayInitrd_merged :
    fields 10 (injectOverlayInitrd (str "boot k\n") (str "http://maas/o")) =
      [str "boot k", str "initrd http://maas/o"] ∧
      insertBeforeLast isBootLine (str "initrd http://maas/o") (fields 10 (str "boot k\n")) =
        [str "initrd http://maas/o", str "boot k"] ∧
    fields 10 (injectOverlayInitrd (str "#!ipxe\nimgstat") (str "http://maas/o")) =
        [str "#!ipxe", str "imgstatinitrd http://maas/o"] ∧
      insertBeforeLast isBootLine (str "initrd http://maas/o") (fields 10 (str "#!ipxe\nimgstat")) =
        [str "#!ipxe", str "imgstat", str "initrd http://maas/o"] := by
  decide

end MaasBoot
