import MaasBoot.BondSetup
import MaasBoot.IpxeConfig
import MaasBoot.Lib.IpxeText

/-!
# The script that a bonded node is served

The proxy works on the text of the rack's iPXE script.  Here the script is given by the words of its lines.  iPXE
reads the text that the proxy serves as the same lines, with the words of the node's parameters in place of every
word `ip=…BOOTIF`, and with one more line, which loads the overlay, before the last line that boots
(`served_script`).

The kernel that is started so has a command line from which the hook of the overlay reads the configuration of the
node.
-/

namespace MaasBoot

open Ipxe

/-! ### The pattern within words -/

theorem takeWhile_append_cons_of_neg {p : UInt8 → Bool} {c : UInt8} (hc : p c = false) (t s : Bytes) :
    (t ++ c :: s).takeWhile p = t.takeWhile p := by
  induction t with
  | nil => simp [hc]
  | cons d t ih =>
    rw [List.cons_append, List.takeWhile_cons, List.takeWhile_cons, ih]

/-- The pattern does not look beyond white space. -/
theorem ipCmdRe_append {c : UInt8} (hc : isNonSpace c = false) (bol bol' : Bool) (t s : Bytes) :
    ipCmdRe bol (t ++ c :: s) = ipCmdRe bol' t := by
  unfold ipCmdRe
  by_cases hpre : str "ip=" <+: t
  · obtain ⟨r, rfl⟩ := hpre
    have hdrop : ∀ r : Bytes, (str "ip=" ++ r).drop 3 = r := fun r => List.drop_left' (by decide)
    have hpre : ∀ r : Bytes, (str "ip=").isPrefixOf (str "ip=" ++ r) = true := by simp
    rw [List.append_assoc, hdrop, hdrop, hpre, hpre, takeWhile_append_cons_of_neg hc]
  · have hno : ¬ str "ip=" <+: t ++ c :: s := by
      intro h
      -- the white space would be one of the first three characters
      rcases List.prefix_or_prefix_of_prefix h (List.prefix_append t (c :: s)) with h' | ⟨r, hr⟩
      · exact hpre h'
      · rw [← hr, List.prefix_append_right_inj] at h
        have hmem : ∀ d ∈ str "ip=", isNonSpace d = true := by decide +kernel
        cases r with
        | nil =>
          rw [List.append_nil] at hr
          exact hpre (hr ▸ List.prefix_refl t)
        | cons d r =>
          obtain rfl : d = c := (List.cons_prefix_cons.mp h).1
          have hd := hmem d (hr ▸ by simp)
          rw [hc] at hd
          cases hd
    rw [if_neg (by simpa using hno), if_neg (by simpa using hpre)]

theorem length_ipCmdRe_le {bol : Bool} {s : Bytes} {n : Nat} (h : ipCmdRe bol s = some n) : n ≤ s.length := by
  unfold ipCmdRe at h
  split at h
  · rename_i hpre
    obtain ⟨t, rfl⟩ := List.isPrefixOf_iff_prefix.mp hpre
    obtain ⟨i, hi, rfl⟩ := Option.map_eq_some_iff.mp h
    rw [List.drop_left' (by decide)] at hi
    obtain ⟨a, b, hab, rfl, -⟩ := lastIndex_eq_some (by decide) hi
    have hle := (List.takeWhile_prefix isNonSpace (l := t)).length_le
    have hlen := congrArg List.length hab
    have hbootif : (str "BOOTIF").length = 6 := by decide
    have hip : (str "ip=").length = 3 := by decide
    simp only [List.length_append, hbootif] at hlen
    simp only [List.length_append, hip]
    omega
  · cases h

/-- Both sides of white space are replaced on their own; `skip` bytes of the first side belong to a match. -/
theorem replaceGo_ipCmdRe {c : UInt8} (hc : isNonSpace c = false) (f : Bytes → Bytes) (t s : Bytes) {skip : Nat}
    (hskip : skip ≤ t.length) (bol bol' bol'' : Bool) :
    replaceGo ipCmdRe f skip bol (t ++ c :: s) =
      replaceGo ipCmdRe f skip bol' t ++ c :: replaceGo ipCmdRe f 0 bol'' s := by
  have hbol : ∀ (skip : Nat) (b b' : Bool) (s : Bytes), replaceGo ipCmdRe f skip b s =
      replaceGo ipCmdRe f skip b' s := by
    intro skip b b' s
    cases s with
    | nil => simp [replaceGo]
    | cons d s =>
      cases skip with
      | zero => rfl
      | succ skip => rfl
  induction t generalizing skip bol bol' with
  | nil =>
    obtain rfl : skip = 0 := Nat.le_zero.mp hskip
    have hnone : ipCmdRe bol (c :: s) = none := ipCmdRe_append hc bol true [] s
    have hcopy : replaceGo ipCmdRe f 0 bol (c :: s) = c :: replaceGo ipCmdRe f 0 (c == 10) s := by
      rw [replaceGo, hnone]
    rw [List.nil_append, hcopy, hbol 0 (c == 10) bol'']
    rfl
  | cons d t ih =>
    cases skip with
    | succ skip =>
      rw [List.cons_append, replaceGo, replaceGo]
      exact ih (Nat.le_of_succ_le_succ hskip) _ _
    | zero =>
      rw [List.cons_append, replaceGo, replaceGo, ← List.cons_append, ipCmdRe_append hc bol bol']
      cases hmatch : ipCmdRe bol' (d :: t) with
      | none =>
        dsimp only
        rw [ih (Nat.zero_le _) _ (d == 10)]
        rfl
      | some n =>
        cases n with
        | zero =>
          dsimp only
          rw [ih (Nat.zero_le _) _ (d == 10)]
          rfl
        | succ n =>
          have hlen : n + 1 ≤ (d :: t).length := length_ipCmdRe_le hmatch
          dsimp only
          rw [ih (Nat.le_of_succ_le_succ hlen) _ (d == 10), List.take_append_of_le_length hlen, List.append_assoc]

theorem replaceAll_ipCmdRe {c : UInt8} (hc : isNonSpace c = false) (f : Bytes → Bytes) (t s : Bytes) :
    replaceAll ipCmdRe f (t ++ c :: s) = replaceAll ipCmdRe f t ++ c :: replaceAll ipCmdRe f s :=
  replaceGo_ipCmdRe hc f t s (Nat.zero_le _) true true true

theorem replaceAll_join (f : Bytes → Bytes) (ws : List Bytes) :
    replaceAll ipCmdRe f (join (str " ") ws) = join (str " ") (ws.map (replaceAll ipCmdRe f)) := by
  rw [show str " " = [32] by decide]
  unfold join
  induction ws with
  | nil => rfl
  | cons w ws ih =>
    cases ws with
    | nil => simp
    | cons w' ws =>
      rw [List.intercalate_cons_cons, List.append_assoc, List.singleton_append, replaceAll_ipCmdRe (by decide), ih]
      simp only [List.map_cons, List.intercalate_cons_cons, List.append_assoc, List.singleton_append]

theorem replaceAll_unlines (f : Bytes → Bytes) (ls : List Bytes) :
    replaceAll ipCmdRe f (unlines ls) = unlines (ls.map (replaceAll ipCmdRe f)) := by
  unfold unlines
  induction ls with
  | nil => rfl
  | cons l ls ih =>
    rw [List.flatMap_cons, List.append_assoc, List.singleton_append, replaceAll_ipCmdRe (by decide), ih,
      List.map_cons, List.flatMap_cons, List.append_assoc, List.singleton_append]

/-- A word `ip=…BOOTIF`. -/
def isBootif (w : Bytes) : Bool := (str "ip=").isPrefixOf w && (str "BOOTIF").isSuffixOf (w.drop 3)

theorem lastIndex_append_self {t : Bytes} (ht : t ≠ []) (x : Bytes) : lastIndex t (x ++ t) = some x.length := by
  cases h : lastIndex t (x ++ t) with
  | none => exact absurd (List.suffix_append x t).isInfix (lastIndex_eq_none_iff.mp h)
  | some i =>
    obtain ⟨a, b, hab, rfl, hlast⟩ := lastIndex_eq_some ht h
    -- another place further on would be the last one
    have hsuffix : t <:+ t ++ b := by
      have hwhole : t <:+ a ++ (t ++ b) := hab ▸ List.suffix_append x t
      exact List.suffix_of_suffix_length_le hwhole (List.suffix_append a (t ++ b)) (by simp)
    have hb : b = [] := by
      by_contra hne
      have htail : t <:+ (t ++ b).tail := by
        refine List.suffix_of_suffix_length_le hsuffix (List.tail_suffix _) ?_
        have hpos := List.length_pos_of_ne_nil hne
        rw [List.length_tail, List.length_append]
        omega
      exact hlast htail.isInfix
    rw [hb, List.append_nil] at hab
    rw [List.append_cancel_right hab]

theorem replaceGo_length (m : Pattern) (f : Bytes → Bytes) (bol : Bool) (s : Bytes) :
    replaceGo m f s.length bol s = [] := by
  induction s generalizing bol with
  | nil => rfl
  | cons c s ih => exact ih _

/-- Such a word is a match as a whole. -/
theorem replaceAll_bootif {w : Bytes} (h : isBootif w = true) (hw : ∀ c ∈ w, isNonSpace c = true)
    (f : Bytes → Bytes) :
    replaceAll ipCmdRe f w = f w := by
  obtain ⟨x, rfl⟩ : ∃ x, w = str "ip=" ++ (x ++ str "BOOTIF") := by
    rw [isBootif, Bool.and_eq_true, List.isPrefixOf_iff_prefix, List.isSuffixOf_iff_suffix] at h
    obtain ⟨⟨r, rfl⟩, hr⟩ := h
    rw [List.drop_left' (by decide)] at hr
    obtain ⟨x, rfl⟩ := hr
    exact ⟨x, rfl⟩
  have hspace : (x ++ str "BOOTIF").takeWhile isNonSpace = x ++ str "BOOTIF" := by
    rw [List.takeWhile_eq_self_iff]
    exact fun c hc => hw c (List.mem_append_right _ hc)
  have hmatch : ipCmdRe true (str "ip=" ++ (x ++ str "BOOTIF")) = some ((x ++ str "BOOTIF").length + 2 + 1) := by
    have hbootif : (str "BOOTIF").length = 6 := by decide
    rw [ipCmdRe, if_pos (by simp), List.drop_left' (by decide), hspace, lastIndex_append_self (by decide),
      Option.map_some, List.length_append, hbootif]
    congr 1
    omega
  have hword : str "ip=" ++ (x ++ str "BOOTIF") = 105 :: (str "p=" ++ (x ++ str "BOOTIF")) := rfl
  have hlen : (x ++ str "BOOTIF").length + 2 = (str "p=" ++ (x ++ str "BOOTIF")).length := by
    have hp : (str "p=").length = 2 := by decide
    simp only [List.length_append, hp]
    omega
  rw [replaceAll]
  rw [hword] at hmatch ⊢
  rw [replaceGo, hmatch]
  dsimp only
  rw [hlen, replaceGo_length, List.append_nil, List.take_of_length_le (by simp)]

/-! ### Words and lines -/

/-- A script with these words in its lines. -/
def scriptText (lines : List (List Bytes)) : Bytes := unlines (lines.map (join (str " ")))

/-- What stands for a word of the rack's script in the script that is served. -/
def netWords (n : Node) (w : Bytes) : List Bytes := if isBootif w then words (buildKernelNet n) else [w]

theorem join_append {xs ys : List Bytes} (hx : xs ≠ []) (hy : ys ≠ []) (sep : Bytes) :
    join sep (xs ++ ys) = join sep xs ++ (sep ++ join sep ys) := by
  unfold join
  induction xs with
  | nil => exact absurd rfl hx
  | cons x xs ih =>
    cases xs with
    | nil =>
      obtain ⟨y, ys, rfl⟩ := List.exists_cons_of_ne_nil hy
      rw [List.singleton_append, List.intercalate_cons_cons, List.append_assoc]
      simp
    | cons x' xs =>
      rw [List.cons_append, List.cons_append, List.intercalate_cons_cons, List.intercalate_cons_cons,
        ← List.cons_append, ih (by simp)]
      simp only [List.append_assoc]

/-- Texts that are joined from words are joined from all of the words. -/
theorem join_flatMap {sep : Bytes} {g : Bytes → List Bytes} (hg : ∀ w, g w ≠ []) (ws : List Bytes) :
    join sep (ws.map fun w => join sep (g w)) = join sep (ws.flatMap g) := by
  induction ws with
  | nil => rfl
  | cons w ws ih =>
    cases ws with
    | nil => simp [join]
    | cons w' ws =>
      have hne : (w' :: ws).flatMap g ≠ [] := by
        rw [List.flatMap_cons]
        exact List.append_ne_nil_of_left_ne_nil (hg w') _
      rw [List.flatMap_cons, join_append (hg w) hne, ← ih]
      simp only [join, List.map_cons, List.intercalate_cons_cons, List.append_assoc]

theorem argText_eq_join (first : Bytes) (args : List Bytes) :
    argText first args = join (str " ") (first :: args) := by
  unfold argText
  induction args generalizing first with
  | nil => simp [join]
  | cons a args ih =>
    have hcons : join (str " ") (first :: a :: args) = first ++ (str " " ++ join (str " ") (a :: args)) := by
      rw [join, List.intercalate_cons_cons, List.append_assoc]
      rfl
    rw [hcons, ← ih, List.flatMap_cons, List.append_assoc]

theorem fields_unlines {ls : List Bytes} (h : ∀ l ∈ ls, 10 ∉ l) : fields 10 (unlines ls) = ls := by
  have hsplit : (unlines ls).splitOn 10 = ls ++ [[]] := by
    have := splitOn_flatMap_append (c := 10) h []
    rwa [List.append_nil] at this
  rw [fields, hsplit, if_pos (by simp), List.dropLast_concat]

theorem insertBeforeLast_map {α β : Type} (p : β → Bool) (g : α → β) (x : α) (ls : List α) :
    insertBeforeLast p (g x) (ls.map g) = (insertBeforeLast (fun a => p (g a)) x ls).map g := by
  induction ls with
  | nil => rfl
  | cons l ls ih =>
    rw [List.map_cons, insertBeforeLast, insertBeforeLast, List.all_map]
    simp only [Function.comp_def]
    split
    · rfl
    · rw [List.map_cons, ih]

theorem mem_insertBeforeLast {α : Type} {p : α → Bool} {x a : α} {ls : List α} (h : a ∈ insertBeforeLast p x ls) :
    a = x ∨ a ∈ ls := by
  induction ls with
  | nil => simpa [insertBeforeLast] using h
  | cons l ls ih =>
    rw [insertBeforeLast] at h
    split at h
    · simpa using h
    · rcases List.mem_cons.mp h with rfl | h
      · simp
      · rcases ih h with h | h
        · exact .inl h
        · exact .inr (List.mem_cons_of_mem _ h)

theorem mem_insertBeforeLast_of_mem {α : Type} (p : α → Bool) (x : α) {a : α} {ls : List α} (h : a ∈ ls) :
    a ∈ insertBeforeLast p x ls := by
  induction ls with
  | nil => cases h
  | cons l ls ih =>
    rw [insertBeforeLast]
    split
    · exact List.mem_cons_of_mem _ h
    · rcases List.mem_cons.mp h with rfl | h
      · exact List.mem_cons_self ..
      · exact List.mem_cons_of_mem _ (ih h)

/-- A word that the proxy either replaces as a whole or leaves as it is. -/
structure IsScriptWord (w : Bytes) : Prop where
  ne_nil : w ≠ []
  visible : ∀ c ∈ w, isVisible c = true
  whole : isBootif w = true ∨ findIndex ipCmdRe w = none

theorem isNonSpace_of_isVisible {c : UInt8} (h : isVisible c = true) : isNonSpace c = true := by
  have hall : ∀ c : UInt8, isVisible c = true → isNonSpace c = true := forall_byte (by decide +kernel)
  exact hall c h

theorem isBlank_of_isVisible {c : UInt8} (h : isVisible c = true) : isBlank c = false := by
  have hall : ∀ c : UInt8, isVisible c = true → isBlank c = false := forall_byte (by decide +kernel)
  exact hall c h

/-- Words with single spaces between them. -/
theorem words_join {ws : List Bytes} (h : ∀ w ∈ ws, w ≠ [] ∧ BlankFree w) : words (join (str " ") ws) = ws := by
  rw [show str " " = [32] by decide]
  unfold join
  induction ws with
  | nil => rfl
  | cons w ws ih =>
    rw [List.forall_mem_cons] at h
    have hw := words_eq_singleton h.1.1 h.1.2
    cases ws with
    | nil => simpa using hw
    | cons w' ws =>
      rw [List.intercalate_cons_cons, List.append_assoc, List.singleton_append, words_append_cons (by decide), hw,
        ih h.2]
      rfl

/-! ### The script -/

section Served

variable {n : Node} (hbonded : n.bonded) (hkernel : n.kernelNet = []) (hblank : ∀ v ∈ n.values, BlankFree v)
include hbonded hkernel hblank

theorem buildKernelNet_eq_join : buildKernelNet n = join (str " ") (words (buildKernelNet n)) := by
  rw [words_buildKernelNet hblank hbonded hkernel, ← argText_eq_join, buildKernelNet, if_neg (not_not_intro hkernel),
    if_pos hbonded]

theorem netWords_ne_nil (w : Bytes) : netWords n w ≠ [] := by
  unfold netWords
  split
  · rw [words_buildKernelNet hblank hbonded hkernel]
    simp
  · simp

/-- Every argument has the character `=`, and none starts a comment. -/
theorem isWord_of_mem_kernelNet (hvisible : ∀ w ∈ words (buildKernelNet n), ∀ c ∈ w, isVisible c = true) {w : Bytes}
    (hw : w ∈ words (buildKernelNet n)) : isWord w = true := by
  have hform : ∃ key v, w = key ++ v ∧ 61 ∈ key ∧ key.head? ≠ none ∧ key.head? ≠ some 35 := by
    rw [words_buildKernelNet hblank hbonded hkernel] at hw
    rcases List.mem_cons.mp hw with rfl | hw
    · exact ⟨str "ip=", _, ipArg_eq n _, by decide, by decide, by decide⟩
    · simp only [bondArgs, List.mem_append, List.mem_cons, List.not_mem_nil, or_false] at hw
      rcases hw with (((rfl | rfl | rfl | rfl | rfl) | hw) | rfl)
      · exact ⟨str "gen_bond=", _, rfl, by decide, by decide, by decide⟩
      · exact ⟨str "gen_members=", _, rfl, by decide, by decide, by decide⟩
      · exact ⟨str "gen_mode=", _, rfl, by decide, by decide, by decide⟩
      · exact ⟨str "gen_rate=", _, rfl, by decide, by decide, by decide⟩
      · exact ⟨str "gen_hash=", _, rfl, by decide, by decide, by decide⟩
      · split at hw
        · obtain rfl := List.mem_singleton.mp hw
          exact ⟨str "gen_vlan=", _, rfl, by decide, by decide, by decide⟩
        · cases hw
      · exact ⟨str "network-config=disabled", [], (List.append_nil _).symm, by decide, by decide, by decide⟩
  obtain ⟨key, v, hkey, hmem, hne, hhead⟩ := hform
  refine isWord_of_mem (c := 61) ?_ (by decide) ?_ (hvisible w hw)
  · rw [hkey]
    exact List.mem_append_left _ hmem
  · rw [hkey]
    cases key with
    | nil => exact absurd rfl hne
    | cons c key => exact hhead

/-- The text with the parameters of the node is a script of words again. -/
theorem injectNet_scriptText {u : Unicode} (hform : FormFree u (buildKernelNet n)) {lines : List (List Bytes)}
    (hlines : ∀ l ∈ lines, ∀ w ∈ l, IsScriptWord w) :
    injectNet u n (scriptText lines) = scriptText (lines.map (·.flatMap (netWords n))) := by
  have hexpand : expand u (buildKernelNet n) = fun _ => buildKernelNet n := funext (expand_of_formFree hform)
  have hword : ∀ l ∈ lines, ∀ w ∈ l, replaceAll ipCmdRe (fun _ => buildKernelNet n) w =
      join (str " ") (netWords n w) := by
    intro l hl w hw
    obtain ⟨-, hvisible, hwhole⟩ := hlines l hl w hw
    by_cases hbootif : isBootif w = true
    · rw [replaceAll_bootif hbootif fun c hc => isNonSpace_of_isVisible (hvisible c hc), netWords, if_pos hbootif]
      exact buildKernelNet_eq_join hbonded hkernel hblank
    · rw [netWords, if_neg hbootif, replaceAll, replaceGo_of_findGo (hwhole.resolve_left hbootif)]
      simp [join]
  rw [injectNet_eq, hexpand, scriptText, replaceAll_unlines, scriptText, List.map_map, List.map_map]
  congr 1
  refine List.map_congr_left fun l hl => ?_
  rw [Function.comp_apply, Function.comp_apply, replaceAll_join, List.map_congr_left (hword l hl),
    join_flatMap (netWords_ne_nil hbonded hkernel hblank)]

/-- The words of the served script. -/
theorem visible_of_mem_netWords (hvisible : ∀ w ∈ words (buildKernelNet n), ∀ c ∈ w, isVisible c = true)
    {lines : List (List Bytes)} (hlines : ∀ l ∈ lines, ∀ w ∈ l, IsScriptWord w) :
    ∀ l ∈ lines.map (·.flatMap (netWords n)), ∀ w ∈ l, w ≠ [] ∧ ∀ c ∈ w, isVisible c = true := by
  intro l' hl' w hw
  obtain ⟨l, hl, rfl⟩ := List.mem_map.mp hl'
  obtain ⟨w', hw', hw⟩ := List.mem_flatMap.mp hw
  unfold netWords at hw
  split at hw
  · exact ⟨(isWord_iff.mp (isWord_of_mem_kernelNet hbonded hkernel hblank hvisible hw)).1, hvisible w hw⟩
  · obtain rfl := List.mem_singleton.mp hw
    exact ⟨(hlines l hl w hw').ne_nil, (hlines l hl w hw').visible⟩

end Served

theorem isLine_join {l : List Bytes} (h : ∀ w ∈ l, w ≠ [] ∧ ∀ c ∈ w, isVisible c = true) :
    IsLine (join (str " ") l) := by
  refine isLine_of_visible fun c hc => ?_
  rcases mem_or_mem_of_mem_join hc with hc | ⟨w, hw, hc⟩
  · exact .inr (List.mem_singleton.mp (show c ∈ [32] from (show str " " = [32] by decide) ▸ hc))
  · exact .inl ((h w hw).2 c hc)

theorem fields_scriptText {lines : List (List Bytes)}
    (h : ∀ l ∈ lines, ∀ w ∈ l, w ≠ [] ∧ ∀ c ∈ w, isVisible c = true) :
    fields 10 (scriptText lines) = lines.map (join (str " ")) := by
  refine fields_unlines fun l hl => ?_
  obtain ⟨l', hl', rfl⟩ := List.mem_map.mp hl
  exact (isLine_join (h l' hl')).1

/-- A line that begins with `boot` still does. -/
theorem boot_prefix_netWords (n : Node) (args : List Bytes) :
    str "boot" <+: join (str " ") ((str "boot" :: args).flatMap (netWords n)) := by
  have hfirst : netWords n (str "boot") = [str "boot"] := if_neg (by decide)
  rw [List.flatMap_cons, hfirst, List.singleton_append]
  cases args.flatMap (netWords n) with
  | nil => simp [join]
  | cons w ws =>
    rw [join, List.intercalate_cons_cons, List.append_assoc]
    exact List.prefix_append _ _

/-- Where a bonded node gets the overlay from. -/
def overlaySource (overlayURL proxyBase : Bytes) : Bytes :=
  if overlayURL = [] then trimRight proxyBase 47 ++ overlayPath else overlayURL

theorem overlaySource_visible {overlayURL proxyBase : Bytes}
    (hurl : ∀ c ∈ overlayURL ++ proxyBase, isVisible c = true) :
    overlaySource overlayURL proxyBase ≠ [] ∧ ∀ c ∈ overlaySource overlayURL proxyBase, isVisible c = true := by
  unfold overlaySource
  split
  · refine ⟨List.append_ne_nil_of_right_ne_nil _ (by decide), fun c hc => ?_⟩
    rcases List.mem_append.mp hc with hc | hc
    · exact hurl c (List.mem_append_right _ ((List.rdropWhile_prefix _ _).subset hc))
    · have hall : ∀ c ∈ overlayPath, isVisible c = true := by decide +kernel
      exact hall c hc
  · rename_i hne
    exact ⟨hne, fun c hc => hurl c (List.mem_append_left _ hc)⟩

/-- The lines of the served script, by their words. -/
def servedLines (overlayURL proxyBase : Bytes) (n : Node) (lines : List (List Bytes)) : List (List Bytes) :=
  insertBeforeLast (fun l => isBootLine (join (str " ") l)) [str "initrd", overlaySource overlayURL proxyBase]
    (lines.map (·.flatMap (netWords n)))

section Served

variable {u : Unicode} {overlayURL proxyBase : Bytes} {n : Node} {lines : List (List Bytes)}
  (hbonded : n.bonded) (hkernel : n.kernelNet = []) (hblank : ∀ v ∈ n.values, BlankFree v)
  (hvisible : ∀ w ∈ words (buildKernelNet n), ∀ c ∈ w, isVisible c = true)
include hbonded hkernel hblank hvisible

theorem fields_served (hform : FormFree u (buildKernelNet n))
    (hurl : ∀ c ∈ overlayURL ++ proxyBase, isVisible c = true) (hlines : ∀ l ∈ lines, ∀ w ∈ l, IsScriptWord w)
    (hboot : ∃ args, str "boot" :: args ∈ lines.tail) :
    fields 10 (injectNode u overlayURL proxyBase n (scriptText lines)) =
      (servedLines overlayURL proxyBase n lines).map (join (str " ")) := by
  have hnet := injectNet_scriptText hbonded hkernel hblank hform hlines
  have hfields := fields_scriptText (visible_of_mem_netWords hbonded hkernel hblank hvisible hlines)
  have hnewline : ∀ s : Bytes, (∀ c ∈ s, isVisible c = true) → 10 ∉ s := fun s hs hmem => by
    exact absurd (hs 10 hmem) (by decide)
  have hbootLine : 10 :: str "boot" <:+: injectNet u n (scriptText lines) := by
    obtain ⟨args, hargs⟩ := hboot
    rw [hnet, cons_infix_iff_tail_fields (by decide) (by decide), hfields, ← List.map_tail, ← List.map_tail]
    exact ⟨_, List.mem_map_of_mem (List.mem_map_of_mem hargs), boot_prefix_netWords n args⟩
  have hinitrd : str "initrd " ++ overlaySource overlayURL proxyBase =
      join (str " ") [str "initrd", overlaySource overlayURL proxyBase] := by
    rw [join, List.intercalate_cons_cons, show str "initrd " = str "initrd" ++ str " " by decide]
    simp
  rw [fields_injectNode_bonded hbonded (hnewline _ fun c hc => hurl c (List.mem_append_left _ hc))
    (hnewline _ fun c hc => hurl c (List.mem_append_right _ hc)) hbootLine, hnet, hfields, servedLines,
    ← insertBeforeLast_map]
  exact congrArg (fun x => insertBeforeLast isBootLine x _) hinitrd

theorem parseScript_served (hform : FormFree u (buildKernelNet n))
    (hurl : ∀ c ∈ overlayURL ++ proxyBase, isVisible c = true) (hlines : ∀ l ∈ lines, ∀ w ∈ l, IsScriptWord w)
    (hboot : ∃ args, str "boot" :: args ∈ lines.tail) :
    parseScript (injectNode u overlayURL proxyBase n (scriptText lines)) =
      (servedLines overlayURL proxyBase n lines).map fun l => parseLine (join (str " ") l) := by
  have hisLine : ∀ l ∈ (servedLines overlayURL proxyBase n lines).map (join (str " ")), IsLine l := by
    intro l hl
    obtain ⟨l', hl', rfl⟩ := List.mem_map.mp hl
    refine isLine_join ?_
    rcases mem_insertBeforeLast hl' with rfl | hl'
    · obtain ⟨hne, hsource⟩ := overlaySource_visible hurl
      simp only [List.forall_mem_cons, List.not_mem_nil, false_implies, implies_true, and_true]
      exact ⟨⟨by decide +kernel, by decide +kernel⟩, hne, hsource⟩
    · exact visible_of_mem_netWords hbonded hkernel hblank hvisible hlines l' hl'
  rw [parseScript, fields_served hbonded hkernel hblank hvisible hform hurl hlines hboot, logicalLines_eq hisLine,
    List.map_map]
  rfl

omit hbonded hkernel hblank hvisible in
theorem flatMap_netWords {ws : List Bytes} (h : ∀ w ∈ ws, isBootif w = false) : ws.flatMap (netWords n) = ws := by
  induction ws with
  | nil => rfl
  | cons w ws ih =>
    rw [List.forall_mem_cons] at h
    rw [List.flatMap_cons, netWords, h.1, if_neg (by decide), ih h.2]
    rfl

omit hbonded hkernel hblank hvisible in
/-- A line that starts a kernel. -/
theorem kernel_mem_servedLines {image ip : Bytes} {before after : List Bytes}
    (hmem : str "kernel" :: image :: (before ++ ip :: after) ∈ lines) (hip : isBootif ip = true)
    (hothers : ∀ w ∈ image :: (before ++ after), isBootif w = false) :
    str "kernel" :: image :: (before ++ words (buildKernelNet n) ++ after) ∈
      servedLines overlayURL proxyBase n lines := by
  rw [List.forall_mem_cons, List.forall_mem_append] at hothers
  obtain ⟨himage, hbefore, hafter⟩ := hothers
  have hwords : (str "kernel" :: image :: (before ++ ip :: after)).flatMap (netWords n) =
      str "kernel" :: image :: (before ++ words (buildKernelNet n) ++ after) := by
    have hcmd : isBootif (str "kernel") = false := by decide
    have hnet : netWords n ip = words (buildKernelNet n) := if_pos hip
    have hhead := flatMap_netWords (n := n)
      (List.forall_mem_cons.mpr ⟨hcmd, List.forall_mem_cons.mpr ⟨himage, hbefore⟩⟩)
    have hsplit : str "kernel" :: image :: (before ++ ip :: after) =
        (str "kernel" :: image :: before) ++ ip :: after := rfl
    rw [hsplit, List.flatMap_append, hhead, List.flatMap_cons, hnet, flatMap_netWords hafter]
    simp
  exact mem_insertBeforeLast_of_mem _ _ (hwords ▸ List.mem_map_of_mem hmem)

end Served

/-- A line of one command. -/
theorem parseLine_join {cmd : List Bytes} (h : isCommand cmd = true) :
    parseLine (join (str " ") cmd) = runLine cmd := by
  have hprint : (runLine cmd).print = join (str " ") cmd := by
    simp [Line.print, Line.words, runLine, commandWords, Link.words]
  rw [← hprint, parseLine_print (printable_run h)]

/-- iPXE reads the script that a bonded node is served as the script of the rack, with the words of the node's
parameters in place of every word `ip=…BOOTIF`, and with a line that loads the overlay before the last line that
boots.  A kernel that the script starts with such a word has a command line from which the hook of the overlay reads
the node's configuration. -/
theorem served_script {u : Unicode} {overlayURL proxyBase : Bytes} {n : Node} {lines : List (List Bytes)}
    (hbonded : n.bonded) (hkernel : n.kernelNet = []) (hblank : ∀ v ∈ n.values, BlankFree v)
    (hmembers : ∀ m ∈ n.bondMembers, m ≠ []) (hform : FormFree u (buildKernelNet n))
    (hvisible : ∀ w ∈ words (buildKernelNet n), ∀ c ∈ w, isVisible c = true)
    (hurl : ∀ c ∈ overlayURL ++ proxyBase, isVisible c = true) (hlines : ∀ l ∈ lines, ∀ w ∈ l, IsScriptWord w)
    (hboot : ∃ args, str "boot" :: args ∈ lines.tail) :
    let served := parseScript (injectNode u overlayURL proxyBase n (scriptText lines))
    served = (servedLines overlayURL proxyBase n lines).map (fun l => parseLine (join (str " ") l)) ∧
    ∀ image before ip after, str "kernel" :: image :: (before ++ ip :: after) ∈ lines → isBootif ip = true →
      (∀ w ∈ image :: (before ++ after), isBootif w = false ∧ isWord w = true) →
      (∀ w ∈ before ++ after, ∀ k : Hook.Arg, ¬ k.key <+: w) →
      let args := before ++ words (buildKernelNet n) ++ after
      runLine (str "kernel" :: image :: args) ∈ served ∧
        Hook.config (join (str " ") args) = some (Hook.nodeConfig n) := by
  intro served
  have hserved := parseScript_served hbonded hkernel hblank hvisible hform hurl hlines hboot
  refine ⟨hserved, ?_⟩
  intro image before ip after hmem hip hothers hkeys args
  have hargs : ∀ w ∈ image :: args, isWord w = true := by
    intro w hw
    simp only [args, List.mem_cons, List.mem_append] at hw
    rcases hw with rfl | (hw | hw) | hw
    · exact (hothers w (by simp)).2
    · exact (hothers w (by simp [hw])).2
    · exact isWord_of_mem_kernelNet hbonded hkernel hblank hvisible hw
    · exact (hothers w (by simp [hw])).2
  constructor
  · have hcommand : isCommand (str "kernel" :: image :: args) = true := isCommand_cons (by decide) hargs
    rw [← parseLine_join hcommand]
    change _ ∈ parseScript _
    rw [hserved]
    exact List.mem_map_of_mem (kernel_mem_servedLines hmem hip fun w hw => (hothers w hw).1)
  · have hblankFree : ∀ w ∈ args, w ≠ [] ∧ BlankFree w := by
      intro w hw
      obtain ⟨hne, hvis, -⟩ := isWord_iff.mp (hargs w (List.mem_cons_of_mem _ hw))
      exact ⟨hne, fun c hc => isBlank_of_isVisible (hvis c hc)⟩
    have hjoin := (Hook.join_bondMembers_ne_nil hbonded hmembers).2
    exact config_words hblank hbonded hkernel (words_join hblankFree) hkeys hjoin

/-- A script of the rack. -/
def rackScript : List (List Bytes) :=
  [[str "#!ipxe"], [str "kernel", str "http://rack/k", str "ro", str "ip=::::node1:BOOTIF", str "quiet"],
    [str "initrd", str "http://rack/i"], [str "boot"]]

theorem isScriptWord_rackScript : ∀ l ∈ rackScript, ∀ w ∈ l, IsScriptWord w := by
  have hall : ∀ l ∈ rackScript, ∀ w ∈ l, w ≠ [] ∧ (∀ c ∈ w, isVisible c = true) ∧
      (isBootif w = true ∨ findIndex ipCmdRe w = none) := by decide +kernel
  exact fun l hl w hw => ⟨(hall l hl w hw).1, (hall l hl w hw).2.1, (hall l hl w hw).2.2⟩

theorem served_script_rackScript :
    let served := parseScript (injectNode .asciiOnly [] (str "http://proxy/") bondedNode (scriptText rackScript))
    served = (servedLines [] (str "http://proxy/") bondedNode rackScript).map
      (fun l => parseLine (join (str " ") l)) ∧
      let args := [str "ro"] ++ words (buildKernelNet bondedNode) ++ [str "quiet"]
      runLine (str "kernel" :: str "http://rack/k" :: args) ∈ served ∧
        Hook.config (join (str " ") args) = some (Hook.nodeConfig bondedNode) := by
  have hurl : ∀ c ∈ ([] : Bytes) ++ str "http://proxy/", isVisible c = true := by decide +kernel
  have h := served_script (u := .asciiOnly) (n := bondedNode) (by decide) (by decide) (by decide) (by decide)
    (formFree_of_notMem _ (by decide +kernel)) (by decide +kernel) hurl isScriptWord_rackScript ⟨[], by decide⟩
  refine ⟨h.1, h.2 _ [str "ro"] (str "ip=::::node1:BOOTIF") [str "quiet"] (by decide) (by decide) (by decide) ?_⟩
  intro w hw k
  revert w
  cases k <;> decide

end MaasBoot
