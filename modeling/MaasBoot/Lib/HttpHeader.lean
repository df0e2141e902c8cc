import MaasBoot.Lib.Ascii
import Mathlib.Data.List.AList

/-!
# HTTP headers

`http.Header` is a map from names to lists of values.  The methods `Add` and `Set` put a name into its canonical
form; `net/http` does the same with the names of the headers that it reads.
-/

namespace MaasBoot

/-- `validHeaderFieldByte` -/
def isTokenByte (c : UInt8) : Bool :=
  (97 ≤ c && c ≤ 122) || (65 ≤ c && c ≤ 90) || (48 ≤ c && c ≤ 57) || (str "!#$%&'*+-.^_`|~").contains c

def upperByte (c : UInt8) : UInt8 := if 97 ≤ c ∧ c ≤ 122 then c - 32 else c

/-- Capitals at the start and behind hyphens, small letters elsewhere. -/
def capitalize (upper : Bool) : Bytes → Bytes
  | [] => []
  | c :: s => (if upper then upperByte c else lowerByte c) :: capitalize (c == 45) s

/-- `textproto.CanonicalMIMEHeaderKey` -/
def canonicalKey (s : Bytes) : Bytes := if s.all isTokenByte then capitalize true s else s

example : canonicalKey (str "accept-ENCODING") = str "Accept-Encoding" ∧ canonicalKey (str "a b") = str "a b" := by
  decide

/-- `strings.EqualFold` with a text of ASCII characters among whose letters are no `k` and no `s`, the only ones with
equivalents outside ASCII. -/
def equalFold (s t : Bytes) : Bool := s.map lowerByte == t.map lowerByte

/-- The entries stand in the order in which `range` visits them. -/
abbrev HttpHeader := AList fun _ : Bytes => List Bytes

namespace HttpHeader

/-- The values of a name that is in canonical form. -/
def values (h : HttpHeader) (name : Bytes) : List Bytes := (h.lookup name).getD []

/-- `Header.Add` -/
def add (h : HttpHeader) (name value : Bytes) : HttpHeader :=
  h.insert (canonicalKey name) (h.values (canonicalKey name) ++ [value])

/-- `Header.Set` -/
def set (h : HttpHeader) (name value : Bytes) : HttpHeader := h.insert (canonicalKey name) [value]

/-- A loop over a header that adds the values of every name which is not skipped to another one. -/
def copy (h src : HttpHeader) (skip : Bytes → Bool) : HttpHeader :=
  src.entries.foldl (fun h e => if skip e.1 then h else e.2.foldl (fun h v => h.add e.1 v) h) h

end HttpHeader

end MaasBoot
