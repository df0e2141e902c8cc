import Mathlib.Data.List.Basic
import Mathlib.Tactic.Ring

/-!
# Byte strings and byte buffers

Byte strings are lists of `UInt8`; a buffer is a byte string that is written in place.  A write that Go refuses
with a run-time panic (a slice bound or an index outside the buffer) is the error `GoError.panic`, so that the
absence of panics is a statement about the result.

The key facts are about `overwrite`: it keeps the length, and on a concatenation it acts on the part it falls
into (`overwrite_append_left`, `overwrite_append_right`).  They turn a sequence of writes into a description of
the buffer as a concatenation of regions, and `slice_mid` reads a region back.
-/

namespace MaasBoot

abbrev Bytes := List UInt8

/-- The bytes of a text literal (its UTF-8 encoding). -/
def str (s : String) : Bytes := s.toUTF8.data.toList

/-- What a Go function can fail with: an `error` value with its text, or a run-time panic. -/
inductive GoError where
  | error (msg : Bytes)
  | panic
  deriving DecidableEq, Repr

abbrev Go := Except GoError

/-- `make([]byte, n)`. -/
def zeros (n : Nat) : Bytes := List.replicate n 0

/-- The buffer `b` with the bytes from `o` on replaced by `src`. -/
def overwrite (b : Bytes) (o : Nat) (src : Bytes) : Bytes := b.take o ++ src ++ b.drop (o + src.length)

/-- `copy(b[o:], src)`: as many bytes of `src` as there is room for. -/
def copyAt (b : Bytes) (o : Nat) (src : Bytes) : Go Bytes :=
  if o ≤ b.length then .ok (overwrite b o (src.take (b.length - o))) else .error .panic

/-- A write that needs room for all of `src`: `PutUint16(b[o:], v)`, `b[o] = x`. -/
def putAt (b : Bytes) (o : Nat) (src : Bytes) : Go Bytes :=
  if o + src.length ≤ b.length then .ok (overwrite b o src) else .error .panic

/-- `n` bytes of `b` from offset `o` on. -/
def slice (b : Bytes) (o n : Nat) : Bytes := (b.drop o).take n

/-- `b[o:o+n]` for a reader that does not look past the end. -/
def slice? (b : Bytes) (o n : Nat) : Option Bytes := if o + n ≤ b.length then some (slice b o n) else none

def byteAt (b : Bytes) (i : Nat) : UInt8 := b.getD i 0

/-- A property of all bytes, from the table of their values. -/
theorem forall_byte {p : UInt8 → Prop} (h : ∀ n < 256, p (UInt8.ofNat n)) (c : UInt8) : p c := by
  have hc := h c.toNat c.toNat_lt
  rwa [UInt8.ofNat_toNat] at hc

/-! ### Fixed-width integers -/

/-- The two little-endian bytes of `v` (of `v % 2^16`, as the conversion to `uint16` cuts it). -/
def le16 (v : Nat) : Bytes := [UInt8.ofNat v, UInt8.ofNat (v / 256)]

def be16 (v : Nat) : Bytes := (le16 v).reverse

def le32 (v : Nat) : Bytes := le16 v ++ le16 (v / 65536)

def be32 (v : Nat) : Bytes := (le32 v).reverse

/-- The number a little-endian byte string stands for. -/
def ofLE : Bytes → Nat
  | [] => 0
  | b :: bs => b.toNat + 256 * ofLE bs

def ofBE (bs : Bytes) : Nat := ofLE bs.reverse

def le16At (b : Bytes) (o : Nat) : Nat := ofLE (slice b o 2)

def le32At (b : Bytes) (o : Nat) : Nat := ofLE (slice b o 4)

def be16At (b : Bytes) (o : Nat) : Nat := ofBE (slice b o 2)

def be32At (b : Bytes) (o : Nat) : Nat := ofBE (slice b o 4)

@[simp] theorem length_le16 (v : Nat) : (le16 v).length = 2 := by simp [le16]

@[simp] theorem length_le32 (v : Nat) : (le32 v).length = 4 := by simp [le32]

@[simp] theorem length_be16 (v : Nat) : (be16 v).length = 2 := by simp [be16]

@[simp] theorem length_be32 (v : Nat) : (be32 v).length = 4 := by simp [be32]

theorem ofLE_le16 (v : Nat) : ofLE (le16 v) = v % 65536 := by
  simp only [le16, ofLE, UInt8.toNat_ofNat']
  omega

theorem ofLE_le32 (v : Nat) : ofLE (le32 v) = v % 4294967296 := by
  simp only [le32, le16, List.cons_append, List.nil_append, ofLE, UInt8.toNat_ofNat']
  omega

theorem ofBE_be16 (v : Nat) : ofBE (be16 v) = v % 65536 := by
  rw [ofBE, be16, List.reverse_reverse, ofLE_le16]

theorem ofBE_be32 (v : Nat) : ofBE (be32 v) = v % 4294967296 := by
  rw [ofBE, be32, List.reverse_reverse, ofLE_le32]

/-! ### Reading a region of a buffer -/

theorem le16At_eq (b : Bytes) (o : Nat) :
    le16At b o = (byteAt b o).toNat + 256 * (byteAt b (o + 1)).toNat := by
  unfold le16At slice byteAt
  have h0 : b[o]? = (b.drop o)[0]? := by simp
  have h1 : b[o + 1]? = (b.drop o)[1]? := by simp
  rw [List.getD_eq_getElem?_getD, List.getD_eq_getElem?_getD, h0, h1]
  rcases b.drop o with _ | ⟨x, _ | ⟨y, r⟩⟩ <;> simp [ofLE]

@[simp] theorem length_zeros (n : Nat) : (zeros n).length = n := List.length_replicate

theorem zeros_zero : zeros 0 = [] := by simp [zeros]

theorem zeros_add (m n : Nat) : zeros (m + n) = zeros m ++ zeros n :=
  List.replicate_add m n 0

/-- A region of a concatenation, read by its offset and length. -/
theorem slice_mid {a b c : Bytes} {o n : Nat} (ho : o = a.length) (hn : n = b.length) :
    slice (a ++ b ++ c) o n = b := by
  subst ho hn
  simp [slice, List.take_left']

/-- A region inside the first part of a concatenation. -/
theorem slice_append_left (a b : Bytes) {o n : Nat} (h : o + n ≤ a.length) :
    slice (a ++ b) o n = slice a o n := by
  unfold slice
  rw [List.drop_append_of_le_length (by omega), List.take_append_of_le_length (by simp; omega)]

theorem length_of_slice? {b s : Bytes} {o n : Nat} (h : slice? b o n = some s) : s.length = n ∧ o + n ≤ b.length := by
  unfold slice? at h
  split at h
  · rename_i hle
    rw [← Option.some.inj h, slice, List.length_take, List.length_drop]
    omega
  · cases h

theorem byteAt_append_left {a : Bytes} (b : Bytes) {i : Nat} (h : i < a.length) :
    byteAt (a ++ b) i = byteAt a i := by
  unfold byteAt
  rw [List.getD_eq_getElem?_getD, List.getD_eq_getElem?_getD, List.getElem?_append_left h]

theorem byteAt_append_right (a b : Bytes) {i j : Nat} (h : i = a.length + j) :
    byteAt (a ++ b) i = byteAt b j := by
  subst h
  unfold byteAt
  rw [List.getD_eq_getElem?_getD, List.getD_eq_getElem?_getD, List.getElem?_append_right (by omega)]
  simp

theorem byteAt_set {b : Bytes} {i : Nat} (x : UInt8) (j : Nat) (h : i < b.length) :
    byteAt (b.set i x) j = if i = j then x else byteAt b j := by
  unfold byteAt
  rw [List.getD_eq_getElem?_getD, List.getD_eq_getElem?_getD, List.getElem?_set]
  by_cases hij : i = j
  · subst hij; simp [h]
  · simp [hij]

/-- `img` holds the bytes `b` at offset `o`. -/
def Holds (img : Bytes) (o : Nat) (b : Bytes) : Prop := ∃ a c, img = a ++ b ++ c ∧ a.length = o

namespace Holds

variable {img b b' : Bytes} {o o' : Nat}

/-- The last part of a concatenation. -/
theorem last {a : Bytes} (h : a.length = o) : Holds (a ++ b) o b := ⟨a, [], by simp, h⟩

theorem first (c : Bytes) : Holds (b ++ c) 0 b := ⟨[], c, by simp, rfl⟩

/-- What a part holds, the concatenation holds. -/
theorem append (h : Holds img o b) (rest : Bytes) : Holds (img ++ rest) o b := by
  obtain ⟨a, c, rfl, rfl⟩ := h
  exact ⟨a, c ++ rest, by simp, rfl⟩

theorem prepend (h : Holds img o b) (pre : Bytes) : Holds (pre ++ img) (pre.length + o) b := by
  obtain ⟨a, c, rfl, rfl⟩ := h
  exact ⟨pre ++ a, c, by simp, by simp⟩

/-- A field of a region is a field of the image. -/
theorem sub (h : Holds img o b) (h' : Holds b o' b') : Holds img (o + o') b' := by
  obtain ⟨a, c, rfl, rfl⟩ := h
  obtain ⟨a', c', rfl, rfl⟩ := h'
  exact ⟨a ++ a', c' ++ c, by simp, by simp⟩

theorem left (h : Holds img o (b ++ b')) : Holds img o b := h.sub (first b')

theorem right (h : Holds img o (b ++ b')) (hb : b.length = o') : Holds img (o + o') b' := h.sub (last hb)

theorem le_length (h : Holds img o b) : o + b.length ≤ img.length := by
  obtain ⟨a, c, rfl, rfl⟩ := h
  simp

theorem slice_eq (h : Holds img o b) {n : Nat} (hn : n = b.length) : slice img o n = b := by
  obtain ⟨a, c, rfl, rfl⟩ := h
  exact slice_mid rfl hn

theorem slice?_eq (h : Holds img o b) {n : Nat} (hn : n = b.length) : slice? img o n = some b := by
  have hle := h.le_length
  unfold slice?
  rw [if_pos (by omega), h.slice_eq hn]

theorem byteAt_eq {x : UInt8} (h : Holds img o [x]) : byteAt img o = x := by
  obtain ⟨a, c, rfl, rfl⟩ := h
  rw [List.append_assoc, byteAt_append_right a _ (j := 0) (by omega)]
  rfl

theorem le16At_eq {v : Nat} (h : Holds img o (le16 v)) : le16At img o = v % 65536 := by
  unfold le16At
  rw [h.slice_eq (length_le16 v).symm, ofLE_le16]

theorem le32At_eq {v : Nat} (h : Holds img o (le32 v)) : le32At img o = v % 4294967296 := by
  unfold le32At
  rw [h.slice_eq (length_le32 v).symm, ofLE_le32]

theorem be16At_eq {v : Nat} (h : Holds img o (be16 v)) : be16At img o = v % 65536 := by
  unfold be16At
  rw [h.slice_eq (length_be16 v).symm, ofBE_be16]

theorem be32At_eq {v : Nat} (h : Holds img o (be32 v)) : be32At img o = v % 4294967296 := by
  unfold be32At
  rw [h.slice_eq (length_be32 v).symm, ofBE_be32]

end Holds

/-- Texts of equal length are at multiples of it. -/
theorem holds_flatMap {f : Nat → Bytes} {n : Nat} {vs : List Nat} (hvs : ∀ v ∈ vs, (f v).length = n) {i v : Nat}
    (hi : vs[i]? = some v) : Holds (vs.flatMap f) (n * i) (f v) := by
  induction vs generalizing i with
  | nil => simp at hi
  | cons v' vs ih =>
    rw [List.flatMap_cons]
    cases i with
    | zero =>
      obtain rfl : v' = v := by simpa using hi
      exact .first _
    | succ i =>
      have hlen := hvs v' List.mem_cons_self
      have := (ih (fun v hv => hvs v (List.mem_cons_of_mem _ hv)) (by simpa using hi)).prepend (f v')
      rwa [hlen, show n + n * i = n * (i + 1) by ring] at this

/-! ### Writes -/

theorem ok_bind {α β : Type} (a : α) (f : α → Go β) : (Except.ok a >>= f) = f a := by
  simp only [bind, Except.bind]

@[simp] theorem length_overwrite {b src : Bytes} {o : Nat} (h : o + src.length ≤ b.length) :
    (overwrite b o src).length = b.length := by
  simp [overwrite]; omega

theorem copyAt_eq {b src : Bytes} {o : Nat} (h : o + src.length ≤ b.length) :
    copyAt b o src = .ok (overwrite b o src) := by
  unfold copyAt
  rw [if_pos (by omega), List.take_of_length_le (by omega)]

theorem putAt_eq {b src : Bytes} {o : Nat} (h : o + src.length ≤ b.length) :
    putAt b o src = .ok (overwrite b o src) := by
  unfold putAt
  rw [if_pos h]

theorem overwrite_append_left (a b : Bytes) {src : Bytes} {o : Nat} (h : o + src.length ≤ a.length) :
    overwrite (a ++ b) o src = overwrite a o src ++ b := by
  unfold overwrite
  rw [List.take_append_of_le_length (by omega), List.drop_append_of_le_length h, List.append_assoc _ _ b]

theorem overwrite_append_right (a b : Bytes) {src : Bytes} {o o' : Nat} (h : o = a.length + o') :
    overwrite (a ++ b) o src = a ++ overwrite b o' src := by
  subst h
  unfold overwrite
  rw [List.take_length_add_append, Nat.add_assoc, List.drop_length_add_append]
  simp only [List.append_assoc]

/-- A write that fills a whole region. -/
theorem overwrite_all {b src : Bytes} (h : src.length = b.length) : overwrite b 0 src = src := by
  simp [overwrite, h]

/-- A write at the start of a fresh region leaves zeros after it. -/
theorem overwrite_zeros {src : Bytes} {n : Nat} :
    overwrite (zeros n) 0 src = src ++ zeros (n - src.length) := by
  simp [overwrite, zeros]

/-- The first write to a fresh buffer, at its start. -/
theorem copyAt_start {src : Bytes} {n : Nat} (h : src.length ≤ n) :
    copyAt (zeros n) 0 src = .ok (src ++ zeros (n - src.length)) := by
  rw [copyAt_eq (by simpa using h), overwrite_zeros]

theorem putAt_start {src : Bytes} {n : Nat} (h : src.length ≤ n) :
    putAt (zeros n) 0 src = .ok (src ++ zeros (n - src.length)) := by
  rw [putAt_eq (by simpa using h), overwrite_zeros]

/-- Writing the middle region of three. -/
theorem overwrite_mid {a b c src : Bytes} {o : Nat} (ho : o = a.length) (h : src.length = b.length) :
    overwrite (a ++ b ++ c) o src = a ++ src ++ c := by
  rw [List.append_assoc, overwrite_append_right a (b ++ c) (show o = a.length + 0 from ho),
    overwrite_append_left b c (by omega), overwrite_all h, List.append_assoc]

/-- A write behind everything written so far: the gap stays zero.  Buffers that are filled from the front to the
back become a concatenation this way. -/
theorem putAt_after {p src : Bytes} {n o : Nat} (gap rest : Nat) (ho : o = p.length + gap)
    (hn : n = gap + src.length + rest) :
    putAt (p ++ zeros n) o src = .ok (p ++ zeros gap ++ src ++ zeros rest) := by
  subst ho hn
  rw [putAt_eq (by simp; omega), zeros_add, zeros_add, ← List.append_assoc, ← List.append_assoc,
    overwrite_mid (by simp) (by simp)]

theorem copyAt_after {p src : Bytes} {n o : Nat} (gap rest : Nat) (ho : o = p.length + gap)
    (hn : n = gap + src.length + rest) :
    copyAt (p ++ zeros n) o src = .ok (p ++ zeros gap ++ src ++ zeros rest) := by
  rw [← putAt_after gap rest ho hn, copyAt_eq (by simp; omega), putAt_eq (by simp; omega)]

/-- `putAt_after` with the gap and the rest computed. -/
theorem putAt_next {p src : Bytes} {n o : Nat} (ho : p.length ≤ o) (h : o + src.length ≤ p.length + n) :
    putAt (p ++ zeros n) o src =
      .ok (p ++ zeros (o - p.length) ++ src ++ zeros (p.length + n - (o + src.length))) :=
  putAt_after _ _ (by omega) (by omega)

theorem copyAt_next {p src : Bytes} {n o : Nat} (ho : p.length ≤ o) (h : o + src.length ≤ p.length + n) :
    copyAt (p ++ zeros n) o src =
      .ok (p ++ zeros (o - p.length) ++ src ++ zeros (p.length + n - (o + src.length))) :=
  copyAt_after _ _ (by omega) (by omega)

/-- The first write to a fresh buffer, anywhere. -/
theorem copyAt_fresh {src : Bytes} {n o : Nat} (h : o + src.length ≤ n) :
    copyAt (zeros n) o src = .ok (zeros o ++ src ++ zeros (n - (o + src.length))) := by
  have := copyAt_next (p := []) (Nat.zero_le o) (show o + src.length ≤ [].length + n by simpa using h)
  simpa using this

end MaasBoot
