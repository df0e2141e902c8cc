import MaasBoot.Lib.Runs
import MaasBoot.Lib.Shell

/-!
# Wrapped lines

`lineWrapWriter` of `rewriter.go`: it passes on what is written to it and puts a newline behind every `lineLen`-th
byte.  The column is kept between writes, so the output does not depend on how a text is cut into writes
(`writes_wrapped`).
-/

namespace MaasBoot

/-- The state of a `lineWrapWriter` over a writer with states `W`. -/
structure LineWrapWriter (W : Type) where
  w : W
  lineLen : Nat
  col : Nat := 0

namespace LineWrapWriter

variable {W ε : Type} (put : W → Bytes → Except ε W)

/-- The loop of `Write`; `none` if it has not ended after `fuel` rounds. -/
def writeLoop : Nat → LineWrapWriter W → Bytes → Option (Except ε (LineWrapWriter W))
  | _, l, [] => some (.ok l)
  | 0, _, _ :: _ => none
  | fuel + 1, l, p =>
    let remain := l.lineLen - l.col
    if p.length < remain then
      match put l.w p with
      | .error e => some (.error e)
      | .ok w => some (.ok { l with w := w, col := l.col + p.length })
    else
      match put l.w (p.take remain) with
      | .error e => some (.error e)
      | .ok w =>
        match put w (str "\n") with
        | .error e => some (.error e)
        | .ok w => writeLoop fuel { l with w := w, col := 0 } (p.drop remain)

/-- `Write`: the number of bytes it reports and the state behind it. -/
def write (l : LineWrapWriter W) (p : Bytes) : Option (Except ε (Nat × LineWrapWriter W)) :=
  (writeLoop put (p.length + 1) l p).map fun r => r.map fun l => (p.length, l)

/-- Several writes; the first error ends them. -/
def writes (l : LineWrapWriter W) : List Bytes → Option (Except ε (LineWrapWriter W))
  | [] => some (.ok l)
  | p :: ps =>
    match write put l p with
    | none => none
    | some (.error e) => some (.error e)
    | some (.ok (_, l)) => writes l ps

end LineWrapWriter

/-- A `bytes.Buffer` takes every write. -/
def bufferPut (b p : Bytes) : Go Bytes := .ok (b ++ p)

/-! ### Text in lines -/

/-- The text `s` in lines of `n` bytes, from the column `col` on. -/
def wrapFrom (n : Nat) : Nat → Bytes → Bytes
  | _, [] => []
  | col, c :: s => if col + 1 = n then c :: 10 :: wrapFrom n 0 s else c :: wrapFrom n (col + 1) s

theorem wrapFrom_of_lt {n col : Nat} {s : Bytes} (h : col + s.length < n) : wrapFrom n col s = s := by
  induction s generalizing col with
  | nil => rfl
  | cons c s ih =>
    rw [List.length_cons] at h
    rw [wrapFrom, if_neg (by omega), ih (by omega)]

/-- The rest of a line ends with a newline. -/
theorem wrapFrom_append_of_length {n col : Nat} {a : Bytes} (hcol : col < n) (ha : col + a.length = n) (b : Bytes) :
    wrapFrom n col (a ++ b) = a ++ 10 :: wrapFrom n 0 b := by
  induction a generalizing col with
  | nil =>
    rw [List.length_nil] at ha
    omega
  | cons c a ih =>
    rw [List.length_cons] at ha
    rw [List.cons_append, wrapFrom]
    by_cases hend : col + 1 = n
    · obtain rfl : a = [] := List.eq_nil_of_length_eq_zero (by omega)
      rw [if_pos hend]
      rfl
    · rw [if_neg hend, ih (by omega) (by omega)]
      rfl

/-- Only the column matters for what follows. -/
theorem wrapFrom_append {n col : Nat} (hcol : col < n) (a b : Bytes) :
    wrapFrom n col (a ++ b) = wrapFrom n col a ++ wrapFrom n ((col + a.length) % n) b := by
  induction a generalizing col with
  | nil => rw [List.nil_append, List.length_nil, Nat.add_zero, Nat.mod_eq_of_lt hcol]; rfl
  | cons c a ih =>
    rw [List.cons_append, wrapFrom, wrapFrom, List.length_cons]
    by_cases hend : col + 1 = n
    · have hmod : (col + (a.length + 1)) % n = (0 + a.length) % n := by
        rw [show col + (a.length + 1) = 0 + a.length + n by omega, Nat.add_mod_right]
      rw [if_pos hend, if_pos hend, ih (by omega), hmod]
      rfl
    · rw [if_neg hend, if_neg hend, ih (by omega), show col + 1 + a.length = col + (a.length + 1) by omega]
      rfl

/-- Wrapping adds newlines only. -/
theorem filter_wrapFrom (n col : Nat) {s : Bytes} (hs : 10 ∉ s) : (wrapFrom n col s).filter (· != 10) = s := by
  induction s generalizing col with
  | nil => rfl
  | cons c s ih =>
    rw [List.mem_cons, not_or] at hs
    have hc : c ≠ 10 := fun h => hs.1 h.symm
    rw [wrapFrom]
    split <;> simp [hc, ih _ hs.2]

/-- No line is longer than `n`, with `x` in front of the line that the text starts in. -/
private theorem length_le_of_mem_splitOn_append {n : Nat} {s : Bytes} (hs : 10 ∉ s) {x : Bytes} (hx : 10 ∉ x)
    (hlen : x.length < n) : ∀ l ∈ (x ++ wrapFrom n x.length s).splitOn 10, l.length ≤ n := by
  induction s generalizing x with
  | nil =>
    intro l hl
    rw [wrapFrom, List.append_nil, List.splitOn_eq_singleton hx, List.mem_singleton] at hl
    rw [hl]
    omega
  | cons c s ih =>
    intro l hl
    rw [List.mem_cons, not_or] at hs
    have hx' : (10 : UInt8) ∉ x ++ [c] := by simp [hx, hs.1]
    rw [wrapFrom] at hl
    split at hl
    · rw [show x ++ c :: 10 :: wrapFrom n 0 s = (x ++ [c]) ++ 10 :: wrapFrom n 0 s by simp,
        List.splitOn_append_cons_self_of_not_mem hx', List.mem_cons] at hl
      rcases hl with rfl | hl
      · rw [List.length_append]
        exact hlen
      · exact ih hs.2 List.not_mem_nil (Nat.lt_of_le_of_lt (Nat.zero_le _) hlen) l hl
    · rw [show x ++ c :: wrapFrom n (x.length + 1) s = (x ++ [c]) ++ wrapFrom n (x ++ [c]).length s by simp] at hl
      refine ih hs.2 hx' ?_ l hl
      rw [List.length_append, List.length_singleton]
      omega

/-- No line is longer than `n`. -/
theorem length_le_of_mem_splitOn_wrapFrom {n : Nat} (hn : 0 < n) {s : Bytes} (hs : 10 ∉ s) :
    ∀ l ∈ (wrapFrom n 0 s).splitOn 10, l.length ≤ n :=
  length_le_of_mem_splitOn_append hs List.not_mem_nil hn

/-- The bytes in order with a newline behind every `n`-th byte. -/
def wrapped (n : Nat) (s : Bytes) : Bytes := (s.mapIdx fun i c => if n ∣ i + 1 then [c, 10] else [c]).flatten

theorem wrapFrom_eq_flatten {n col : Nat} (hcol : col < n) (s : Bytes) :
    wrapFrom n col s = (s.mapIdx fun i c => if n ∣ col + i + 1 then [c, 10] else [c]).flatten := by
  induction s generalizing col with
  | nil => rfl
  | cons c s ih =>
    rw [wrapFrom, List.mapIdx_cons, List.flatten_cons]
    by_cases hend : col + 1 = n
    · -- the columns start again
      have hdvd : ∀ i, n ∣ col + (i + 1) + 1 ↔ n ∣ 0 + i + 1 := by
        intro i
        rw [show col + (i + 1) + 1 = n + (0 + i + 1) by omega, Nat.dvd_add_right dvd_rfl]
      simp only [hdvd]
      rw [if_pos hend, if_pos (by rw [Nat.add_zero, hend]), ih (by omega)]
      rfl
    · have hnot : ¬ n ∣ col + 0 + 1 := Nat.not_dvd_of_pos_of_lt (by omega) (by omega)
      have hcols : ∀ i, col + (i + 1) + 1 = col + 1 + i + 1 := fun i => by omega
      simp only [hcols]
      rw [if_neg hend, if_neg hnot, ih (by omega)]
      rfl

theorem wrapFrom_zero {n : Nat} (hn : 0 < n) (s : Bytes) : wrapFrom n 0 s = wrapped n s := by
  rw [wrapFrom_eq_flatten hn, wrapped]
  simp only [Nat.zero_add]

/-! ### The writer -/

namespace LineWrapWriter

/-- The loop ends.  It passes the text in lines to the underlying writer in some pieces, up to the first one that
fails. -/
theorem writeLoop_eq_foldlM {n col : Nat} (hcol : col < n) (p : Bytes) :
    ∃ cs : List Bytes, cs.flatten = wrapFrom n col p ∧
      ∀ {W ε : Type} (put : W → Bytes → Except ε W) (w : W) {fuel : Nat}, p.length ≤ fuel →
        writeLoop put fuel ⟨w, n, col⟩ p = some ((cs.foldlM put w).map fun w => ⟨w, n, (col + p.length) % n⟩) := by
  induction hlen : p.length using Nat.strong_induction_on generalizing col p with
  | _ k ih =>
    subst hlen
    cases p with
    | nil =>
      refine ⟨[], rfl, fun put w fuel _ => ?_⟩
      rw [writeLoop, List.length_nil, Nat.add_zero, Nat.mod_eq_of_lt hcol]
      rfl
    | cons c q =>
      by_cases hshort : (c :: q).length < n - col
      · refine ⟨[c :: q], ?_, fun put w fuel hfuel => ?_⟩
        · rw [wrapFrom_of_lt (by omega), List.flatten_singleton]
        · obtain ⟨fuel, rfl⟩ : ∃ m, fuel = m + 1 := ⟨fuel - 1, by rw [List.length_cons] at hfuel; omega⟩
          rw [writeLoop, List.foldlM_cons]
          · dsimp only
            rw [if_pos hshort, Nat.mod_eq_of_lt (by omega)]
            cases put w (c :: q) <;> rfl
          · simp
      · -- the line is filled, and the rest starts in a new one
        have hdrop : ((c :: q).drop (n - col)).length < (c :: q).length := by
          rw [List.length_drop, List.length_cons]
          omega
        obtain ⟨cs, hcs, hloop⟩ := ih _ hdrop (show 0 < n by omega) _ rfl
        refine ⟨(c :: q).take (n - col) :: str "\n" :: cs, ?_, fun put w fuel hfuel => ?_⟩
        · have htake : col + ((c :: q).take (n - col)).length = n := by
            rw [List.length_take]
            omega
          have hwrap := wrapFrom_append_of_length hcol htake ((c :: q).drop (n - col))
          rw [List.take_append_drop] at hwrap
          rw [hwrap, List.flatten_cons, List.flatten_cons, hcs]
          rfl
        · obtain ⟨fuel, rfl⟩ : ∃ m, fuel = m + 1 := ⟨fuel - 1, by rw [List.length_cons] at hfuel; omega⟩
          have hmod : (0 + ((c :: q).drop (n - col)).length) % n = (col + (c :: q).length) % n := by
            rw [List.length_drop, show col + (c :: q).length = 0 + ((c :: q).length - (n - col)) + n by omega,
              Nat.add_mod_right]
          rw [writeLoop, List.foldlM_cons]
          · dsimp only
            rw [if_neg hshort]
            cases put w ((c :: q).take (n - col)) with
            | error e => rfl
            | ok w₁ =>
              rw [← hmod]
              change _ = some (Except.map _ ((str "\n" :: cs).foldlM put w₁))
              rw [List.foldlM_cons]
              dsimp only
              cases put w₁ (str "\n") with
              | error e => rfl
              | ok w₂ => exact hloop put w₂ (by omega)
          · simp

/-- One write, with the number of bytes that it reports. -/
theorem write_eq_foldlM {n col : Nat} (hcol : col < n) (p : Bytes) :
    ∃ cs : List Bytes, cs.flatten = wrapFrom n col p ∧
      ∀ {W ε : Type} (put : W → Bytes → Except ε W) (w : W),
        write put ⟨w, n, col⟩ p = some ((cs.foldlM put w).map fun w => (p.length, ⟨w, n, (col + p.length) % n⟩)) := by
  obtain ⟨cs, hcs, hloop⟩ := writeLoop_eq_foldlM hcol p
  refine ⟨cs, hcs, fun put w => ?_⟩
  rw [write, hloop put w (Nat.le_succ _)]
  cases cs.foldlM put w <;> rfl

/-- Several writes pass on the whole text in lines. -/
theorem writes_eq_foldlM {n col : Nat} (hcol : col < n) (ps : List Bytes) :
    ∃ cs : List Bytes, cs.flatten = wrapFrom n col ps.flatten ∧
      ∀ {W ε : Type} (put : W → Bytes → Except ε W) (w : W),
        writes put ⟨w, n, col⟩ ps = some ((cs.foldlM put w).map fun w => ⟨w, n, (col + ps.flatten.length) % n⟩) := by
  induction ps generalizing col with
  | nil =>
    refine ⟨[], rfl, fun put w => ?_⟩
    rw [writes, List.flatten_nil, List.length_nil, Nat.add_zero, Nat.mod_eq_of_lt hcol]
    rfl
  | cons p ps ih =>
    obtain ⟨cs, hcs, hwrite⟩ := write_eq_foldlM hcol p
    obtain ⟨cs', hcs', hwrites⟩ := ih (Nat.mod_lt (col + p.length) (by omega))
    refine ⟨cs ++ cs', ?_, fun put w => ?_⟩
    · rw [List.flatten_append, List.flatten_cons, wrapFrom_append hcol, hcs, hcs']
    · rw [writes, hwrite put w, List.foldlM_append]
      cases cs.foldlM put w with
      | error e => rfl
      | ok w₁ =>
        refine (hwrites put w₁).trans ?_
        rw [List.flatten_cons, List.length_append, Nat.mod_add_mod, Nat.add_assoc]
        rfl

/-- A writer that takes everything has got everything that was passed to it. -/
theorem foldlM_of_takes {W ε : Type} {put : W → Bytes → Except ε W} {out : W → Bytes}
    (hput : ∀ w p, ∃ w', put w p = .ok w' ∧ out w' = out w ++ p) (w : W) (cs : List Bytes) :
    ∃ w', cs.foldlM put w = .ok w' ∧ out w' = out w ++ cs.flatten := by
  induction cs generalizing w with
  | nil => exact ⟨w, rfl, by rw [List.flatten_nil, List.append_nil]⟩
  | cons c cs ih =>
    obtain ⟨w₁, hw₁, hout₁⟩ := hput w c
    obtain ⟨w₂, hw₂, hout₂⟩ := ih w₁
    refine ⟨w₂, ?_, ?_⟩
    · rw [List.foldlM_cons, hw₁]
      exact hw₂
    · rw [hout₂, hout₁, List.flatten_cons, List.append_assoc]

theorem writes_bufferPut {l : LineWrapWriter Bytes} (hcol : l.col < l.lineLen) (ps : List Bytes) :
    writes bufferPut l ps = some (.ok { l with
      w := l.w ++ wrapFrom l.lineLen l.col ps.flatten
      col := (l.col + ps.flatten.length) % l.lineLen }) := by
  obtain ⟨cs, hcs, hwrites⟩ := writes_eq_foldlM hcol ps
  have hbuffer : ∀ b p : Bytes, ∃ b', bufferPut b p = .ok b' ∧ id b' = id b ++ p := fun b p => ⟨b ++ p, rfl, rfl⟩
  obtain ⟨b, hfold, hb⟩ := foldlM_of_takes hbuffer l.w cs
  obtain rfl : b = l.w ++ cs.flatten := hb
  rw [hwrites bufferPut l.w, hfold, hcs]
  rfl

/-- Over a writer that takes everything, the output depends on the text only and not on how it is cut into writes;
every write ends, returns the length of its argument and leaves a column inside the line.  Over any writer, a write
passes the same pieces on and fails with the error of the first one that fails. -/
theorem writes_wrapped (lineLen : Nat) (hlen : 1 ≤ lineLen) :
    (∀ {W ε : Type} (put : W → Bytes → Except ε W) (out : W → Bytes),
      (∀ w p, ∃ w', put w p = .ok w' ∧ out w' = out w ++ p) → ∀ (w : W) (ps : List Bytes),
        ∃ l, writes put { w := w, lineLen := lineLen } ps = some (.ok l) ∧
          out l.w = out w ++ wrapped lineLen ps.flatten ∧ l.lineLen = lineLen ∧ l.col < lineLen ∧
          ∀ p, ∃ l', write put l p = some (.ok (p.length, l'))) ∧
    ∀ col < lineLen, ∀ p : Bytes, ∃ cs : List Bytes, cs.flatten = wrapFrom lineLen col p ∧
      ∀ {W ε : Type} (put : W → Bytes → Except ε W) (w : W),
        (∀ e, write put { w := w, lineLen := lineLen, col := col } p = some (.error e) ↔
          ∃ a c b w', cs = a ++ c :: b ∧ a.foldlM put w = .ok w' ∧ put w' c = .error e) ∧
        ∀ r, write put { w := w, lineLen := lineLen, col := col } p = some (.ok r) →
          r.1 = p.length ∧ r.2.lineLen = lineLen ∧ r.2.col < lineLen := by
  constructor
  · intro W ε put out hput w ps
    obtain ⟨cs, hcs, hwrites⟩ := writes_eq_foldlM hlen ps
    obtain ⟨w', hw', hout⟩ := foldlM_of_takes hput w cs
    have hcol : (0 + ps.flatten.length) % lineLen < lineLen := Nat.mod_lt _ hlen
    refine ⟨⟨w', lineLen, (0 + ps.flatten.length) % lineLen⟩, ?_, ?_, rfl, hcol, fun p => ?_⟩
    · rw [hwrites put w, hw']
      rfl
    · rw [hout, hcs, wrapFrom_zero hlen]
    · obtain ⟨ds, -, hwrite⟩ := write_eq_foldlM hcol p
      obtain ⟨w₂, hw₂, -⟩ := foldlM_of_takes hput w' ds
      rw [hwrite put w', hw₂]
      exact ⟨_, rfl⟩
  · intro col hcol p
    obtain ⟨cs, hcs, hwrite⟩ := write_eq_foldlM hcol p
    refine ⟨cs, hcs, fun {W ε} put w => ?_⟩
    rw [hwrite put w]
    refine ⟨fun e => ?_, fun r hr => ?_⟩
    · rw [← foldlM_eq_error_iff]
      cases cs.foldlM put w with
      | error e' => simp [Except.map]
      | ok w' => simp [Except.map]
    · cases hfold : cs.foldlM put w with
      | error e => simp [hfold, Except.map] at hr
      | ok w' =>
        rw [hfold] at hr
        obtain rfl : _ = r := Except.ok.inj (Option.some.inj hr)
        exact ⟨rfl, rfl, Nat.mod_lt _ hlen⟩

/-- Five bytes in lines of two, in one write and in three, and a writer that is closed. -/
theorem writes_wrapped_buffer :
    (∃ l, writes bufferPut { w := [], lineLen := 2 } [str "abcde"] = some (.ok l) ∧ l.w = str "ab\ncd\ne") ∧
    (∃ l, writes bufferPut { w := [], lineLen := 2 } [str "a", str "bcd", str "e"] = some (.ok l) ∧
      l.w = str "ab\ncd\ne") ∧
    write (fun _ _ => .error GoError.panic) { w := (), lineLen := 2 } (str "abc") = some (.error .panic) := by
  have htakes : ∀ b p : Bytes, ∃ b', bufferPut b p = .ok b' ∧ id b' = id b ++ p := fun b p => ⟨b ++ p, rfl, rfl⟩
  obtain ⟨hwrites, hfail⟩ := writes_wrapped 2 (by decide)
  obtain ⟨l, hl, hout, -⟩ := hwrites bufferPut id htakes [] [str "abcde"]
  obtain ⟨l', hl', hout', -⟩ := hwrites bufferPut id htakes [] [str "a", str "bcd", str "e"]
  have hwrapped : [] ++ wrapped 2 (str "abcde") = str "ab\ncd\ne" := by decide
  refine ⟨⟨l, hl, hout.trans hwrapped⟩, ⟨l', hl', hout'.trans hwrapped⟩, ?_⟩
  obtain ⟨cs, hcs, hwrite⟩ := hfail 0 (by decide) (str "abc")
  cases cs with
  | nil => exact absurd hcs (by decide)
  | cons c cs => exact ((hwrite (fun _ _ => .error GoError.panic) ()).1 .panic).mpr ⟨[], c, cs, (), rfl, rfl, rfl⟩

end LineWrapWriter

end MaasBoot
