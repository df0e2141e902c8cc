import MaasBoot.EspLayout

/-!
# Long names

`fatLFNEntry` writes a name of at most thirteen code units of UTF-16 into one directory entry, around the attribute
and the checksum of the short name.  A name of less than thirteen code units is terminated by a zero, and the rest
is filled.

The slots do not overlap with each other or with the other bytes, so a reader finds the code units of the name
(`fatLFNEntry_long`).
-/

namespace MaasBoot

open Fat

/-! ### Code units -/

theorem lt_of_mem_utf16Encode {name : List Char} {u : Nat} (h : u ∈ utf16Encode name) : u < 65536 := by
  obtain ⟨c, -, hu⟩ := List.mem_flatMap.mp h
  have hc : c.toNat < 0x110000 := by
    rcases c.valid with hc | ⟨-, hc⟩
    · exact Nat.lt_trans hc (by decide)
    · exact hc
  split at hu
  · rename_i hlt
    rw [List.mem_singleton.mp hu]
    exact hlt
  · simp only [List.mem_cons, List.not_mem_nil, or_false] at hu
    omega

/-- The slots of an entry: the name, and a terminator and filler if there is room. -/
theorem lfnChars_eq {long : List Char} (h : (utf16Encode long).length ≤ 13) :
    lfnChars long = utf16Encode long ++
      if (utf16Encode long).length < 13 then 0 :: List.replicate (12 - (utf16Encode long).length) 0xFFFF else [] := by
  unfold lfnChars
  generalize utf16Encode long = u at h ⊢
  refine List.ext_getElem ?_ fun i hi hi' => ?_
  · split
    · simp only [List.length_map, List.length_range, List.length_append, List.length_cons, List.length_replicate]
      omega
    · simp only [List.length_map, List.length_range, List.length_append, List.length_nil]
      omega
  · rw [List.length_map, List.length_range] at hi
    rw [List.getElem_map, List.getElem_range, List.getElem_append]
    split
    · rename_i hlt
      rw [List.getD_eq_getElem?_getD, List.getElem?_eq_getElem hlt, Option.getD_some]
    · -- a slot behind the name
      rename_i hge
      simp only [if_pos (show u.length < 13 by omega), List.getElem_cons]
      by_cases hiu : i = u.length
      · rw [if_pos hiu, dif_pos (by omega)]
      · rw [if_neg hiu, dif_neg (by omega), List.getElem_replicate]

/-- The code units fit into their slots. -/
theorem map_mod_lfnChars {long : List Char} (h : (utf16Encode long).length ≤ 13) :
    (lfnChars long).map (· % 65536) = lfnChars long := by
  have hlt : ∀ u ∈ lfnChars long, u % 65536 = id u := by
    intro u hu
    rw [lfnChars_eq h, List.mem_append] at hu
    refine Nat.mod_eq_of_lt ?_
    rcases hu with hu | hu
    · exact lt_of_mem_utf16Encode hu
    · split at hu
      · rcases List.mem_cons.mp hu with rfl | hu
        · decide
        · rw [List.eq_of_mem_replicate hu]
          decide
      · cases hu
  rw [List.map_congr_left hlt, List.map_id]

theorem toNat_lfnChecksum (short : Bytes) : (lfnChecksum short).toNat = checksum short := by
  have hrotate : ∀ s : UInt8, ((s &&& 1) <<< 7 + s >>> 1).toNat = s.toNat % 2 * 128 + s.toNat / 2 :=
    forall_byte (by decide +kernel)
  have key : ∀ (s : UInt8) (n : Nat), s.toNat = n →
      (short.foldl (fun (sum c : UInt8) => ((sum &&& 1) <<< 7) + (sum >>> 1) + c) s).toNat =
        short.foldl (fun s c => (s % 2 * 128 + s / 2 + c.toNat) % 256) n := by
    induction short with
    | nil => exact fun s n h => h
    | cons c short ih =>
      intro s n h
      rw [List.foldl_cons, List.foldl_cons]
      refine ih _ _ ?_
      rw [UInt8.toNat_add, hrotate, h]
  exact key 0 0 rfl

/-! ### Slots -/

/-- Code units that stand one behind another. -/
theorem map_le16At_of_holds {e : Bytes} {o : Nat} {vs : List Nat} (h : Holds e o (vs.flatMap le16)) :
    ((List.range vs.length).map fun i => le16At e (o + 2 * i)) = vs.map (· % 65536) := by
  refine List.ext_getElem (by simp) fun i hi hi' => ?_
  rw [List.length_map] at hi'
  rw [List.getElem_map, List.getElem_map, List.getElem_range]
  exact (h.sub (holds_flatMap (fun v _ => length_le16 v) (List.getElem?_eq_getElem hi'))).le16At_eq

/-- What the bytes of an entry hold. -/
theorem longSlots_lfnEntryBytes {chars : List Nat} (h : chars.length = 13) (sum : UInt8) :
    longSlots (lfnEntryBytes chars sum) = chars.map (· % 65536) := by
  have h₁ : (chars.take 5).length = 5 := by
    rw [List.length_take]
    omega
  have h₂ : ((chars.drop 5).take 6).length = 6 := by
    rw [List.length_take, List.length_drop]
    omega
  have h₃ : (chars.drop 11).length = 2 := by
    rw [List.length_drop]
    omega
  have hlen : ∀ vs : List Nat, (vs.flatMap le16).length = 2 * vs.length := by
    intro vs
    simp [List.length_flatMap, Nat.mul_comm]
  have s₁ : Holds (lfnEntryBytes chars sum) 1 ((chars.take 5).flatMap le16) :=
    (((((Holds.last rfl).append _).append _).append _).append _)
  have s₂ : Holds (lfnEntryBytes chars sum) 14 (((chars.drop 5).take 6).flatMap le16) := by
    refine ((Holds.last ?_).append _).append _
    simp [hlen, h₁]
  have s₃ : Holds (lfnEntryBytes chars sum) 28 ((chars.drop 11).flatMap le16) := by
    refine Holds.last ?_
    simp [hlen, h₁, h₂]
  have g₁ := map_le16At_of_holds s₁
  have g₂ := map_le16At_of_holds s₂
  have g₃ := map_le16At_of_holds s₃
  rw [h₁] at g₁
  rw [h₂] at g₂
  rw [h₃] at g₃
  have hchars : chars = chars.take 5 ++ ((chars.drop 5).take 6 ++ chars.drop 11) := by
    rw [show chars.drop 11 = (chars.drop 5).drop
      6 by rw [List.drop_drop], List.take_append_drop, List.take_append_drop]
  unfold longSlots
  rw [List.flatMap_cons, List.flatMap_cons, List.flatMap_cons, List.flatMap_nil, g₁, g₂, g₃, List.append_nil,
    ← List.map_append, ← List.map_append, ← hchars]

/-! ### The entry -/

/-- The slots of the code units lie inside the entry, overlap with no other one, and leave the sequence byte, the
attribute, the type, the checksum and the cluster alone. -/
theorem lfnOffsets_disjoint : lfnOffsets.Pairwise (fun o o' => o + 2 ≤ o') ∧
    ∀ o ∈ lfnOffsets, o + 2 ≤ 32 ∧ ∀ k ∈ [0, 11, 12, 13, 26, 27], k < o ∨ o + 2 ≤ k := by decide

/-- A long name of at most thirteen code units is read back from its entry.  The slots behind the terminator are
filled, the entry is the last and the first of its name, and it has the checksum of the short name. -/
theorem fatLFNEntry_long (long : List Char) (short : Bytes) (hlen : (utf16Encode long).length ≤ 13)
    (hunits : ∀ u ∈ utf16Encode long, u ≠ 0 ∧ u ≠ 0xFFFF) :
    (∃ e, fatLFNEntry long short = .ok e ∧ e.length = 32 ∧ (longSlots e).length = 13 ∧
      (longSlots e).takeWhile (· ≠ 0) = utf16Encode long ∧ longUnits e = utf16Encode long ∧
      (∀ k, (utf16Encode long).length < k → k < 13 → (longSlots e)[k]? = some 0xFFFF) ∧
      byteAt e 0 = 0x40 ||| 1 ∧ byteAt e 11 = 0x0F ∧ (byteAt e 13).toNat = checksum short) ∧
    lfnOffsets.Pairwise (fun o o' => o + 2 ≤ o') ∧
    ∀ o ∈ lfnOffsets, o + 2 ≤ 32 ∧ ∀ k ∈ [0, 11, 12, 13, 26, 27], k < o ∨ o + 2 ≤ k := by
  refine ⟨⟨_, fatLFNEntry_eq long short, ?_⟩, lfnOffsets_disjoint⟩
  have hchars : (lfnChars long).length = 13 := by simp [lfnChars]
  obtain ⟨hseq, hattr, hsum⟩ := byteAt_lfnEntryBytes (lfnChecksum short) hchars
  have hslots := (longSlots_lfnEntryBytes hchars (lfnChecksum short)).trans
    ((map_mod_lfnChars hlen).trans (lfnChars_eq hlen))
  have hpos : ∀ u ∈ utf16Encode long, decide (u ≠ 0) = true := fun u hu => decide_eq_true (hunits u hu).1
  refine ⟨length_lfnEntryBytes _ hchars, ?_, ?_, ?_, fun k hk hk' => ?_, hseq, hattr, ?_⟩
  · rw [longSlots_lfnEntryBytes hchars, List.length_map, hchars]
  · rw [hslots, List.takeWhile_append_of_pos hpos]
    split <;> simp
  · have hunits' : ∀ u ∈ utf16Encode long, decide (u ≠ 0 ∧ u ≠ 0xFFFF) = true :=
      fun u hu => decide_eq_true (hunits u hu)
    rw [longUnits, hslots, List.takeWhile_append_of_pos hunits']
    split <;> simp
  · rw [hslots, List.getElem?_append_right (by omega), if_pos (by omega)]
    obtain ⟨m, hm⟩ : ∃ m, k - (utf16Encode long).length = m + 1 := ⟨k - (utf16Encode long).length - 1, by omega⟩
    rw [hm, List.getElem?_cons_succ, List.getElem?_replicate, if_pos (by omega)]
  · rw [hsum, toNat_lfnChecksum]

/-- The name that firmware looks up fills its entry; a shorter one has a terminator. -/
theorem fatLFNEntry_long_autoexec :
    (∃ e, fatLFNEntry autoexecName scriptShort = .ok e ∧ (longSlots e).takeWhile (· ≠ 0) = utf16Encode autoexecName) ∧
    ∃ e, fatLFNEntry "a.ipx".toList (shortName (str "A") (str "IPX")) = .ok e ∧
      (longSlots e).takeWhile (· ≠ 0) = utf16Encode "a.ipx".toList ∧ (longSlots e)[6]? = some 0xFFFF := by
  obtain ⟨⟨e, he, -, -, hname, -⟩, -⟩ := fatLFNEntry_long autoexecName scriptShort (by decide) (by decide)
  obtain ⟨⟨e', he', -, -, hname', -, hfill, -⟩, -⟩ :=
    fatLFNEntry_long "a.ipx".toList (shortName (str "A") (str "IPX")) (by decide) (by decide)
  exact ⟨⟨e, he, hname⟩, e', he', hname', hfill 6 (by decide) (by decide)⟩

end MaasBoot
