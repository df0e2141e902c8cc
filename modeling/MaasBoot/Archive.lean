import MaasBoot.Lib.Bytes
import Mathlib.Data.List.TakeWhile

/-!
# Compressed archives

The packages `compress/gzip` and `archive/tar` as `rewriteData` uses them.  What the proofs need to know about them
is that a reader gives back what a writer has written.  A plain format without compression, padding and checksums
has this property.
-/

namespace MaasBoot

/-- What can be read from a stream: some bytes, and then its end or an error. -/
structure Stream where
  data : Bytes
  ends : Bool := true
  deriving DecidableEq

structure Gzip where
  /-- `gzip.NewReader` and the stream it reads. -/
  newReader : Bytes → Option Stream
  /-- Everything that a writer puts out for some bytes, with `Close`. -/
  compress : Bytes → Option Bytes
  newReader_compress : ∀ {b g : Bytes}, compress b = some g → newReader g = some { data := b }

/-! ### Archives -/

/-- `tar.Header`; the fields other than the type and the size are in `rest`. -/
structure Header (R : Type) where
  typeflag : UInt8
  size : Nat
  rest : R
  deriving DecidableEq

/-- What `Next` and the reads of a `tar.Reader` give one after another. -/
inductive TarStream (R : Type) where
  | eof
  | error
  | copyError (hdr : Header R)
  | entry (hdr : Header R) (content : Bytes) (rest : TarStream R)
  deriving DecidableEq

/-- An archive that is read to its end without an error. -/
def TarStream.ofEntries {R : Type} : List (Header R × Bytes) → TarStream R
  | [] => .eof
  | e :: es => .entry e.1 e.2 (ofEntries es)

structure TarCodec (R : Type) where
  Writer : Type
  newWriter : Writer
  writeHeader : Writer → Header R → Option Writer
  write : Writer → Bytes → Option Writer
  /-- `Close`, and everything put out until then. -/
  close : Writer → Option Bytes
  read : Stream → TarStream R

/-- Entries written one after another, each with the writes that make up its content. -/
def TarCodec.writeEntries {R : Type} (tar : TarCodec R) :
    tar.Writer → List (Header R × List Bytes) → Option tar.Writer
  | w, [] => some w
  | w, e :: es => do
    let w ← tar.writeHeader w e.1
    let w ← e.2.foldlM tar.write w
    tar.writeEntries w es

structure Tar (R : Type) extends TarCodec R where
  read_close : ∀ {es : List (Header R × List Bytes)} {w : Writer} {b : Bytes},
    toTarCodec.writeEntries newWriter es = some w → close w = some b →
      read { data := b } = .ofEntries (es.map fun e => (e.1, e.2.flatten))

/-! ### A plain format -/

namespace Plain

/-- The magic bytes, and then the bytes as they are. -/
def gzip : Gzip where
  newReader g := if [0x1F, 0x8B].isPrefixOf g then some { data := g.drop 2 } else none
  compress b := some (0x1F :: 0x8B :: b)
  newReader_compress := by
    intro b g h
    obtain rfl := Option.some.inj h
    simp

/-- A number in ones, with a zero behind it. -/
def unary (n : Nat) : Bytes := List.replicate n 1 ++ [0]

/-- The type, the size and the name of an entry. -/
def header (hdr : Header Bytes) : Bytes := hdr.typeflag :: (unary hdr.size ++ (unary hdr.rest.length ++ hdr.rest))

/-- What was put out, and how many bytes are missing to the size of the current entry. -/
structure Writer where
  out : Bytes
  left : Nat

def writeHeader (w : Writer) (hdr : Header Bytes) : Option Writer :=
  if w.left = 0 then some { out := w.out ++ header hdr, left := hdr.size } else none

def write (w : Writer) (p : Bytes) : Option Writer :=
  if p.length ≤ w.left then some { out := w.out ++ p, left := w.left - p.length } else none

def close (w : Writer) : Option Bytes := if w.left = 0 then some w.out else none

/-- A number in ones, and the bytes behind it. -/
def readUnary (s : Bytes) : Nat × Bytes :=
  let n := (s.takeWhile (· == 1)).length
  (n, s.drop (n + 1))

/-- The fuel is the number of entries that are read at most. -/
def read (ends : Bool) : Nat → Bytes → TarStream Bytes
  | _, [] => if ends then .eof else .error
  | 0, _ :: _ => .error
  | fuel + 1, t :: s =>
    let (size, s) := readUnary s
    let (len, s) := readUnary s
    let hdr : Header Bytes := { typeflag := t, size := size, rest := s.take len }
    let s := s.drop len
    if s.length < size then .copyError hdr else .entry hdr (s.take size) (read ends fuel (s.drop size))

def codec : TarCodec Bytes where
  Writer := Writer
  newWriter := { out := [], left := 0 }
  writeHeader := writeHeader
  write := write
  close := close
  read st := read st.ends st.data.length st.data

theorem readUnary_unary (n : Nat) (s : Bytes) : readUnary (unary n ++ s) = (n, s) := by
  have htake : (unary n ++ s).takeWhile (· == 1) = List.replicate n 1 := by
    rw [unary, List.append_assoc, List.takeWhile_append_of_pos fun c hc => by simp [List.eq_of_mem_replicate hc]]
    simp
  unfold readUnary
  rw [htake, List.length_replicate]
  dsimp only
  rw [List.drop_left' (by simp [unary])]

/-- An entry is read back. -/
theorem read_header {hdr : Header Bytes} {c : Bytes} (hc : c.length = hdr.size) (s : Bytes) (fuel : Nat) :
    read true (fuel + 1) (header hdr ++ (c ++ s)) = .entry hdr c (read true fuel s) := by
  rw [header, List.cons_append, read]
  simp only [List.append_assoc, readUnary_unary, List.take_left, List.drop_left]
  rw [if_neg (by simp [hc]), List.take_left' hc, List.drop_left' hc]

/-- Writes that succeed fit into the entry. -/
theorem foldlM_write {w w' : Writer} {ps : List Bytes} (h : ps.foldlM write w = some w') :
    ps.flatten.length ≤ w.left ∧ w' = { out := w.out ++ ps.flatten, left := w.left - ps.flatten.length } := by
  induction ps generalizing w with
  | nil =>
    obtain rfl : w = w' := by simpa using h
    simp
  | cons p ps ih =>
    rw [List.foldlM_cons, write] at h
    split at h
    · rename_i hle
      obtain ⟨hps, rfl⟩ := ih h
      rw [List.flatten_cons, List.length_append]
      dsimp only at hps ⊢
      refine ⟨by omega, ?_⟩
      rw [List.append_assoc, Nat.sub_sub]
    · cases h

theorem writeEntries_cons (w : Writer) (e : Header Bytes × List Bytes) (es : List (Header Bytes × List Bytes)) :
    codec.writeEntries w (e :: es) =
      (writeHeader w e.1).bind fun w => (e.2.foldlM write w).bind fun w => codec.writeEntries w es := rfl

/-- The current entry is complete before the next header and at the end. -/
theorem left_eq_zero {w w' : Writer} {es : List (Header Bytes × List Bytes)} {b : Bytes}
    (h : codec.writeEntries w es = some w') (hb : close w' = some b) : w.left = 0 := by
  cases es with
  | nil =>
    obtain rfl : w = w' := Option.some.inj h
    unfold close at hb
    split at hb
    · assumption
    · cases hb
  | cons e es =>
    by_contra hne
    rw [writeEntries_cons, writeHeader, if_neg hne] at h
    cases h

/-- What is put out behind `w.out` reads back as the entries. -/
theorem read_writeEntries {w w' : Writer} {es : List (Header Bytes × List Bytes)} {b : Bytes}
    (h : codec.writeEntries w es = some w') (hb : close w' = some b) :
    ∃ s, b = w.out ++ s ∧ ∀ fuel, s.length ≤ fuel →
      read true fuel s = .ofEntries (es.map fun e => (e.1, e.2.flatten)) := by
  have hleft := left_eq_zero h hb
  induction es generalizing w with
  | nil =>
    obtain rfl : w = w' := Option.some.inj h
    rw [close, if_pos hleft, Option.some.injEq] at hb
    refine ⟨[], by rw [← hb, List.append_nil], fun fuel _ => ?_⟩
    rw [read]
    rfl
  | cons e es ih =>
    rw [writeEntries_cons, writeHeader, if_pos hleft, Option.bind_some] at h
    obtain ⟨w₁, hw₁, h⟩ := Option.bind_eq_some_iff.mp h
    obtain ⟨hle, rfl⟩ := foldlM_write hw₁
    -- the writes must have filled the entry
    have hleft₁ := left_eq_zero h hb
    obtain ⟨s, rfl, hs⟩ := ih h hleft₁
    dsimp only at hle hleft₁ ⊢
    refine ⟨header e.1 ++ (e.2.flatten ++ s), by simp, fun fuel hfuel => ?_⟩
    cases fuel with
    | zero => simp [header] at hfuel
    | succ fuel =>
      have hlen : s.length ≤ fuel := by
        simp only [header, List.length_append, List.length_cons] at hfuel
        omega
      rw [read_header (by omega), hs fuel hlen]
      rfl

def tar : Tar Bytes where
  toTarCodec := codec
  read_close := by
    intro es w b h hb
    obtain ⟨s, hs, hread⟩ := read_writeEntries h hb
    obtain rfl : b = s := hs
    exact hread _ (Nat.le_refl _)

end Plain

end MaasBoot
