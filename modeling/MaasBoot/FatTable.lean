import MaasBoot.EspImage
import MaasBoot.FatReader
import MaasBoot.Lib.Runs

/-!
# The file allocation table as an array of entries

Two neighbouring entries share a byte, one nibble each.  `setFAT12` changes entry `i` and no other
(`entry_setFAT12`), so after any writes an entry has the value written to it last (`setFAT12_array`), and
a table is described by its entries: `chain` writes a linked run of clusters
(`chain_spec`), and the table of an image holds the four fixed entries, the two runs and zeros (`fatTable_spec`).
A reader that starts at the head of a run meets its clusters in order (`clusterChain_run`).
-/

namespace MaasBoot

open Fat

/-! ### Nibbles -/

set_option maxRecDepth 20000 in
private theorem nibbleMasks : ∀ x : Fin 256,
    (UInt8.ofNat x.val &&& 0xF0).toNat = x.val / 16 * 16 ∧ (UInt8.ofNat x.val &&& 0x0F).toNat = x.val % 16 := by
  decide

private theorem toNat_and_high (x : UInt8) : (x &&& 0xF0).toNat = x.toNat / 16 * 16 := by
  simpa using (nibbleMasks ⟨x.toNat, x.toNat_lt⟩).1

private theorem toNat_and_low (x : UInt8) : (x &&& 0x0F).toNat = x.toNat % 16 := by
  simpa using (nibbleMasks ⟨x.toNat, x.toNat_lt⟩).2

private theorem toNat_or_nibbles (x y : UInt8) :
    ((x &&& 0xF0) ||| (y &&& 0x0F)).toNat = x.toNat / 16 * 16 + y.toNat % 16 := by
  rw [UInt8.toNat_or, toNat_and_high, toNat_and_low]
  have h := Nat.two_pow_add_eq_or_of_lt (i := 4) (b := y.toNat % 16) (by omega) (x.toNat / 16)
  simp only [Nat.reducePow] at h
  rw [Nat.mul_comm, ← h]

private theorem toNat_shift_low (v : UInt16) : ((v &&& 0x0F).toUInt8 <<< (4 : UInt8)).toNat = v.toNat % 16 * 16 := by
  have h : (v &&& 0x0F).toNat = v.toNat % 16 := by
    rw [UInt16.toNat_and]
    exact Nat.and_two_pow_sub_one_eq_mod v.toNat 4
  rw [UInt8.toNat_shiftLeft, UInt16.toNat_toUInt8, h]
  simp only [UInt8.toNat_ofNat, Nat.reducePow, Nat.reduceMod, Nat.shiftLeft_eq]
  omega

private theorem toNat_or_shift (x : UInt8) (v : UInt16) :
    ((x &&& 0x0F) ||| ((v &&& 0x0F).toUInt8 <<< (4 : UInt8))).toNat = v.toNat % 16 * 16 + x.toNat % 16 := by
  rw [UInt8.toNat_or, toNat_and_low, toNat_shift_low, Nat.or_comm]
  have h := Nat.two_pow_add_eq_or_of_lt (i := 4) (b := x.toNat % 16) (by omega) (v.toNat % 16)
  simp only [Nat.reducePow] at h
  rw [Nat.mul_comm, ← h]

private theorem toNat_shift_byte (v : UInt16) : (v >>> 8).toUInt8.toNat = v.toNat / 256 % 256 := by
  rw [UInt16.toNat_toUInt8, UInt16.toNat_shiftRight]
  simp [Nat.shiftRight_eq_div_pow]

private theorem toNat_shift_nibble (v : UInt16) : (v >>> 4).toUInt8.toNat = v.toNat / 16 % 256 := by
  rw [UInt16.toNat_toUInt8, UInt16.toNat_shiftRight]
  simp [Nat.shiftRight_eq_div_pow]

/-! ### One entry -/

private theorem byteAt_set_pair {fat : Bytes} {o : Nat} (h : o + 1 < fat.length) (x y : UInt8) :
    byteAt ((fat.set o x).set (o + 1) y) o = x ∧ byteAt ((fat.set o x).set (o + 1) y) (o + 1) = y ∧
      ∀ k, k ≠ o → k ≠ o + 1 → byteAt ((fat.set o x).set (o + 1) y) k = byteAt fat k := by
  have hset : ∀ k, byteAt ((fat.set o x).set (o + 1) y) k =
      if o + 1 = k then y else if o = k then x else byteAt fat k := by
    intro k
    rw [byteAt_set _ _ (by rw [List.length_set]; exact h), byteAt_set _ _ (by omega)]
  refine ⟨by simp [hset], by simp [hset], fun k h0 h1 => ?_⟩
  rw [hset, if_neg (Ne.symm h1), if_neg (Ne.symm h0)]

/-- Entry `i` becomes `v`; every other entry keeps its value. -/
theorem entry_setFAT12 (fat : Bytes) (i : Nat) (v : UInt16) (hi : i * 3 / 2 + 1 < fat.length) (hv : v.toNat < 4096) :
    ∃ fat', setFAT12 fat i v = .ok fat' ∧ fat'.length = fat.length ∧
      ∀ j, entry fat' j = if j = i then v.toNat else entry fat j := by
  unfold setFAT12
  simp only [hi, ↓reduceIte]
  by_cases he : i % 2 = 0
  · rw [if_pos he]
    refine ⟨_, rfl, by simp, fun j => ?_⟩
    obtain ⟨h0, h1, hfar⟩ := byteAt_set_pair hi v.toUInt8
      ((byteAt fat (i * 3 / 2 + 1) &&& (0xF0 : UInt8)) ||| ((v >>> 8).toUInt8 &&& (0x0F : UInt8)))
    -- the byte shared with the odd neighbour keeps that neighbour's nibble
    have hb := toNat_or_nibbles (byteAt fat (i * 3 / 2 + 1)) (v >>> 8).toUInt8
    have hl := (byteAt fat (i * 3 / 2 + 1)).toNat_lt
    rw [toNat_shift_byte] at hb
    simp only [entry, le16At_eq]
    rcases eq_or_ne j i with rfl | hj
    · rw [h0, h1, hb, if_pos he, if_pos rfl, UInt16.toNat_toUInt8]
      omega
    · rw [if_neg hj]
      rcases eq_or_ne j (i + 1) with rfl | hj'
      · rw [show (i + 1) * 3 / 2 = i * 3 / 2 + 1 by omega, h1, hb, hfar _ (by omega) (by omega)]
        simp only [show ¬ (i + 1) % 2 = 0 by omega, ↓reduceIte]
        omega
      · rw [hfar _ (by omega) (by omega), hfar _ (by omega) (by omega)]
  · rw [if_neg he]
    refine ⟨_, rfl, by simp, fun j => ?_⟩
    obtain ⟨h0, h1, hfar⟩ := byteAt_set_pair hi
      ((byteAt fat (i * 3 / 2) &&& (0x0F : UInt8)) ||| ((v &&& 0x0F).toUInt8 <<< (4 : UInt8))) (v >>> 4).toUInt8
    -- the byte shared with the even neighbour keeps that neighbour's nibble
    have hb := toNat_or_shift (byteAt fat (i * 3 / 2)) v
    simp only [entry, le16At_eq]
    rcases eq_or_ne j i with rfl | hj
    · rw [h0, h1, hb, if_neg he, if_pos rfl, toNat_shift_nibble]
      omega
    · rw [if_neg hj]
      by_cases hj' : j + 1 = i
      · rw [show j * 3 / 2 + 1 = i * 3 / 2 by omega, h0, hb, hfar _ (by omega) (by omega)]
        simp only [show j % 2 = 0 by omega, ↓reduceIte]
        omega
      · rw [hfar _ (by omega) (by omega), hfar _ (by omega) (by omega)]

/-! ### A sequence of writes -/

/-- An entry is written in its two bytes. -/
theorem getElem?_setFAT12 {fat fat' : Bytes} {i : Nat} {v : UInt16} (h : setFAT12 fat i v = .ok fat') {k : Nat}
    (hk : k ≠ i * 3 / 2) (hk' : k ≠ i * 3 / 2 + 1) : fat'[k]? = fat[k]? := by
  have hset : ∀ x y : UInt8, ((fat.set (i * 3 / 2) x).set (i * 3 / 2 + 1) y)[k]? = fat[k]? := by
    intro x y
    rw [List.getElem?_set_ne (Ne.symm hk'), List.getElem?_set_ne (Ne.symm hk)]
  unfold setFAT12 at h
  dsimp only at h
  split at h
  · split at h
    · rw [← Except.ok.inj h]
      exact hset _ _
    · rw [← Except.ok.inj h]
      exact hset _ _
  · cases h

/-- The entry that a write changes, and the others. -/
theorem entry?_setFAT12 (fat : Bytes) (i : Nat) (v : UInt16) (hi : i * 3 / 2 + 1 < fat.length) (hv : v.toNat < 4096) :
    ∃ fat', setFAT12 fat i v = .ok fat' ∧ fat'.length = fat.length ∧
      ∀ j, entry? fat' j = if j = i then some v.toNat else entry? fat j := by
  obtain ⟨fat', h, hlen, hentry⟩ := entry_setFAT12 fat i v hi hv
  refine ⟨fat', h, hlen, fun j => ?_⟩
  unfold entry?
  rw [hlen, hentry]
  by_cases hj : j = i
  · subst hj
    rw [if_pos (by omega), if_pos rfl, if_pos rfl]
  · rw [if_neg hj, if_neg hj]

/-- The value that a write gives to entry `j`. -/
def writtenTo (j : Nat) (w : Nat × UInt16) : Option Nat := if w.1 = j then some w.2.toNat else none

/-- After any number of writes, an entry has the value written last or, without one, the value it had. -/
theorem entry?_setFAT12s (fat : Bytes) (ws : List (Nat × UInt16))
    (hws : ∀ w ∈ ws, w.1 * 3 / 2 + 1 < fat.length ∧ w.2.toNat < 4096) :
    ∃ fat', ws.foldlM (fun fat w => setFAT12 fat w.1 w.2) fat = Except.ok fat' ∧ fat'.length = fat.length ∧
      ∀ j, entry? fat' j = ((latest (writtenTo j) ws).or <| entry? fat j) := by
  induction ws using List.reverseRecOn with
  | nil => exact ⟨fat, rfl, rfl, fun j => rfl⟩
  | append_singleton ws w ih =>
    obtain ⟨fat₁, h₁, hlen₁, hentry₁⟩ := ih fun w' hw' => hws w' (List.mem_append_left _ hw')
    obtain ⟨hi, hv⟩ := hws w (by simp)
    obtain ⟨fat₂, h₂, hlen₂, hentry₂⟩ := entry?_setFAT12 fat₁ w.1 w.2 (by omega) hv
    refine ⟨fat₂, ?_, by omega, fun j => ?_⟩
    · rw [List.foldlM_append, h₁, ok_bind, List.foldlM_cons, h₂]
      rfl
    · rw [hentry₂, hentry₁, latest_concat, writtenTo]
      by_cases hj : j = w.1
      · rw [if_pos hj, if_pos hj.symm]
        rfl
      · rw [if_neg hj, if_neg (Ne.symm hj), Option.none_or]

/-- A write changes entry `i` only, in its two bytes, and after any sequence of writes every entry has the value
written to it last. -/
theorem setFAT12_array (fat : Bytes) :
    (∀ (i : Nat) (v : UInt16), i * 3 / 2 + 1 < fat.length → v.toNat < 4096 →
      ∃ fat', setFAT12 fat i v = .ok fat' ∧ fat'.length = fat.length ∧ entry? fat' i = some v.toNat ∧
        (∀ j, j ≠ i → entry? fat' j = entry? fat j) ∧
        ∀ k, k ≠ i * 3 / 2 → k ≠ i * 3 / 2 + 1 → fat'[k]? = fat[k]?) ∧
    ∀ ws : List (Nat × UInt16), (∀ w ∈ ws, w.1 * 3 / 2 + 1 < fat.length ∧ w.2.toNat < 4096) →
      ∃ fat', ws.foldlM (fun fat w => setFAT12 fat w.1 w.2) fat = Except.ok fat' ∧ fat'.length = fat.length ∧
        ∀ j, entry? fat' j = ((latest (writtenTo j) ws).or <| entry? fat j) := by
  refine ⟨fun i v hi hv => ?_, entry?_setFAT12s fat⟩
  obtain ⟨fat', h, hlen, hentry⟩ := entry?_setFAT12 fat i v hi hv
  refine ⟨fat', h, hlen, ?_, fun j hj => ?_, fun k hk hk' => getElem?_setFAT12 h hk hk'⟩
  · rw [hentry, if_pos rfl]
  · rw [hentry, if_neg hj]

/-- Two neighbours, one of them written twice. -/
theorem setFAT12_array_neighbours :
    (∃ fat', setFAT12 (zeros 6) 3 0x123 = .ok fat' ∧ entry? fat' 3 = some 0x123 ∧ entry? fat' 2 =
      entry? (zeros 6) 2) ∧
    ∃ fat', [(2, 0xABC), (3, 0x123), (2, 0xFFF)].foldlM (fun fat w => setFAT12 fat w.1 w.2) (zeros 6) =
      Except.ok fat' ∧ entry? fat' 2 = some 0xFFF ∧ entry? fat' 3 = some 0x123 := by
  obtain ⟨hwrite, hwrites⟩ := setFAT12_array (zeros 6)
  obtain ⟨fat₁, h₁, -, hentry₁, hother, -⟩ := hwrite 3 0x123 (by decide) (by decide)
  obtain ⟨fat₂, h₂, -, hentry₂⟩ := hwrites [(2, 0xABC), (3, 0x123), (2, 0xFFF)] (by decide)
  exact ⟨⟨fat₁, h₁, hentry₁, hother 2 (by decide)⟩, fat₂, h₂, hentry₂ 2, hentry₂ 3⟩

theorem entry_zeros (n j : Nat) : entry (zeros n) j = 0 := by
  have h : ∀ i, byteAt (zeros n) i = 0 := by
    intro i
    unfold byteAt zeros
    rw [List.getD_eq_getElem?_getD, List.getElem?_replicate]
    split <;> rfl
  simp [entry, le16At_eq, h]

/-! ### A run of clusters -/

/-- The entry of cluster `j` in the run of `n` clusters from `first` on. -/
def runEntry (first n j : Nat) : Nat := if j = first + n - 1 then 0xFFF else j + 1

theorem toNat_runEntry {first n k : Nat} (hk : k < n) (hn : first + n < 4096) :
    (if k = n - 1 then (0xFFF : UInt16) else UInt16.ofNat (first + k + 1)).toNat = runEntry first n (first + k) := by
  unfold runEntry
  by_cases hk' : k = n - 1
  · rw [if_pos hk', if_pos (by omega)]; rfl
  · rw [if_neg hk', if_neg (by omega), UInt16.toNat_ofNat_of_lt' (by simp [UInt16.size]; omega)]

/-- The loop invariant: after `k` rounds the first `k` entries of the run are written. -/
theorem chain_rounds (fat : Bytes) {first n : Nat} (hlen : (first + n) * 3 ≤ 2 * fat.length) (hn : first + n < 4096)
    {k : Nat} (hk : k ≤ n) : ∃ fat', (List.range k).foldlM
      (fun fat i => setFAT12 fat (first + i) (if i = n - 1 then 0xFFF else UInt16.ofNat (first + i + 1))) fat
        = Except.ok fat' ∧ fat'.length = fat.length ∧
      ∀ j, entry fat' j = if first ≤ j ∧ j < first + k then runEntry first n j else entry fat j := by
  induction k with
  | zero =>
    refine ⟨fat, rfl, rfl, fun j => ?_⟩
    rw [if_neg (by omega)]
  | succ k ih =>
    obtain ⟨fat₁, h₁, hl₁, he₁⟩ := ih (by omega)
    have hv := toNat_runEntry hk hn
    have hlt : runEntry first n (first + k) < 4096 := by unfold runEntry; split <;> omega
    obtain ⟨fat₂, h₂, hl₂, he₂⟩ := entry_setFAT12 fat₁ (first + k) _ (by omega)
      (by rw [hv]; exact hlt)
    refine ⟨fat₂, ?_, by omega, fun j => ?_⟩
    · rw [List.range_succ, List.foldlM_append, h₁]
      simpa [ok_bind] using h₂
    · rw [he₂, he₁, hv]
      by_cases hj : j = first + k
      · subst hj
        rw [if_pos rfl, if_pos (by omega)]
      · rw [if_neg hj]
        by_cases hj' : first ≤ j ∧ j < first + k
        · rw [if_pos hj', if_pos (by omega)]
        · rw [if_neg hj', if_neg (by omega)]

/-- `chain` writes the run and leaves all other entries alone. -/
theorem chain_spec (fat : Bytes) (first n : Nat) (hlen : (first + n) * 3 ≤ 2 * fat.length) (hn : first + n < 4096) :
    ∃ fat', chain fat first n = .ok fat' ∧ fat'.length = fat.length ∧
      ∀ j, entry fat' j = if first ≤ j ∧ j < first + n then runEntry first n j else entry fat j :=
  chain_rounds fat hlen hn (Nat.le_refl n)

/-- A reader meets the clusters of a run in order. -/
theorem clusterChain_run {fat : Bytes} {n : Nat} : ∀ (first fuel : Nat), 0 < n → n < fuel → first + n ≤ 0xFF8 →
    (first + n) * 3 ≤ 2 * fat.length → (∀ j, first ≤ j → j < first + n → entry fat j = runEntry first n j) →
    clusterChain fat fuel first = some (List.range' first n) := by
  induction n with
  | zero => intro first fuel h; omega
  | succ n ih =>
    intro first fuel _ hfuel hlt hlen he
    obtain ⟨fuel, rfl⟩ : ∃ m, fuel = m + 1 := ⟨fuel - 1, by omega⟩
    have h0 := he first (Nat.le_refl _) (by omega)
    unfold clusterChain entry?
    rw [if_neg (by omega), if_pos (by omega), h0]
    unfold runEntry
    -- the last cluster has the end mark, the others point to the next one
    by_cases hn : n = 0
    · subst hn
      obtain ⟨fuel, rfl⟩ : ∃ m, fuel = m + 1 := ⟨fuel - 1, by omega⟩
      simp [clusterChain]
    · rw [if_neg (by omega)]
      have hrest := ih (first + 1) fuel (by omega) (by omega) (by omega) (by omega) (by
        intro j h1 h2
        rw [he j (by omega) (by omega)]
        unfold runEntry
        rw [show first + (n + 1) - 1 = first + 1 + n - 1 by omega])
      simp [hrest, List.range'_succ]

/-! ### The table of an image -/

/-- What entry `j` of the table holds. -/
def tableEntry (efiCl scriptCl j : Nat) : Nat :=
  if j = 0 then 0xFF8
  else if j < efiFirst then 0xFFF
  else if j < efiFirst + efiCl then runEntry efiFirst efiCl j
  else if j < efiFirst + efiCl + scriptCl then runEntry (efiFirst + efiCl) scriptCl j
  else 0

/-- Each of the four chains is a run of its own: one cluster for each directory, then the two files. -/
theorem tableEntry_runs (efiCl scriptCl j : Nat) :
    (efiDir ≤ j → j < efiDir + 1 → tableEntry efiCl scriptCl j = runEntry efiDir 1 j) ∧
      (bootDir ≤ j → j < bootDir + 1 → tableEntry efiCl scriptCl j = runEntry bootDir 1 j) ∧
      (efiFirst ≤ j → j < efiFirst + efiCl → tableEntry efiCl scriptCl j = runEntry efiFirst efiCl j) ∧
      (efiFirst + efiCl ≤ j → j < efiFirst + efiCl + scriptCl →
        tableEntry efiCl scriptCl j = runEntry (efiFirst + efiCl) scriptCl j) := by
  simp only [efiDir, bootDir, efiFirst]
  refine ⟨fun h₁ h₂ => ?_, fun h₁ h₂ => ?_, fun h₁ h₂ => ?_, fun h₁ h₂ => ?_⟩
  · obtain rfl : j = 2 := by omega
    rfl
  · obtain rfl : j = 3 := by omega
    rfl
  · unfold tableEntry efiFirst
    rw [if_neg (by omega), if_neg (by omega), if_pos h₂]
  · unfold tableEntry efiFirst
    rw [if_neg (by omega), if_neg (by omega), if_neg (by omega), if_pos h₂]

/-- Behind the last file all entries are free. -/
theorem tableEntry_later {efiCl scriptCl j : Nat} (h : efiFirst + efiCl + scriptCl ≤ j) :
    tableEntry efiCl scriptCl j = 0 := by
  have hfirst : efiFirst = 4 := rfl
  unfold tableEntry
  rw [if_neg (by omega), if_neg (by omega), if_neg (by omega), if_neg (by omega)]

theorem fatTable_spec (fatSectors efiCl scriptCl : Nat)
    (hlen : (efiFirst + efiCl + scriptCl) * 3 ≤ 2 * (fatSectors * fatSectorSize))
    (hcl : efiFirst + efiCl + scriptCl < 4096) :
    ∃ fat, fatTable fatSectors efiCl scriptCl = .ok fat ∧ fat.length = fatSectors * fatSectorSize ∧
      ∀ j, entry fat j = tableEntry efiCl scriptCl j := by
  have hz : (zeros (fatSectors * fatSectorSize)).length = fatSectors * fatSectorSize := length_zeros _
  have hfirst : efiFirst = 4 := rfl
  -- the writes in their order: two reserved entries, two directories, two files
  obtain ⟨f0, h0, l0, e0⟩ := entry_setFAT12 (zeros (fatSectors * fatSectorSize)) 0 0xFF8 (by omega) (by decide)
  obtain ⟨f1, h1, l1, e1⟩ := entry_setFAT12 f0 1 0xFFF (by omega) (by decide)
  obtain ⟨f2, h2, l2, e2⟩ := entry_setFAT12 f1 efiDir 0xFFF (by simp only [efiDir]; omega) (by decide)
  obtain ⟨f3, h3, l3, e3⟩ := entry_setFAT12 f2 bootDir 0xFFF (by simp only [bootDir]; omega) (by decide)
  obtain ⟨f4, h4, l4, e4⟩ := chain_spec f3 efiFirst efiCl (by omega) (by omega)
  obtain ⟨f5, h5, l5, e5⟩ := chain_spec f4 (efiFirst + efiCl) scriptCl (by omega) (by omega)
  refine ⟨f5, ?_, by omega, fun j => ?_⟩
  · unfold fatTable
    simp only [h0, h1, h2, h3, h4, h5, ok_bind]
  · rw [e5, e4, e3, e2, e1, e0, entry_zeros]
    unfold tableEntry
    simp only [efiDir, bootDir, hfirst, show (0xFF8 : UInt16).toNat = 0xFF8 from rfl,
      show (0xFFF : UInt16).toNat = 0xFFF from rfl]
    repeat' split
    all_goals first
      | rfl
      | omega

end MaasBoot
