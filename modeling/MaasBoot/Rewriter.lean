import MaasBoot.Lib.Base64
import MaasBoot.Lib.Pattern
import MaasBoot.Lib.Scan
import MaasBoot.LineWrap
import MaasBoot.Archive

/-!
# The rewriter

`rewriteData` of `rewriter.go` replaces the rack's URLs in what the proxy passes on.  A text is rewritten as it is.
A self-extracting archive (a shell script, a line `_____PAYLOAD_____` and a compressed archive in base64) is
unpacked, its files are rewritten, and it is packed again with its new checksum; if any of this fails it is treated
as a text.
-/

namespace MaasBoot

/-! ### The patterns -/

/-- The class `[^/:[:space:]"'\x60]`. -/
def isHostByte (c : UInt8) : Bool :=
  !(c == 47 || c == 58 || (9 ≤ c && c ≤ 13) || c == 32 || c == 34 || c == 39 || c == 96)

def defaultRackURLRe : Pattern := fun _ s =>
  if (str "http://").isPrefixOf s then
    let host := (s.drop 7).takeWhile isHostByte
    if host ≠ [] ∧ (str ":5248").isPrefixOf (s.drop (7 + host.length)) then some (12 + host.length) else none
  else none

/-- The class `['"]`. -/
def isQuote (c : UInt8) : Bool := c == 39 || c == 34

/-- The classes of `MD5SUM=['"][a-fA-F0-9]{32}['"]`. -/
def md5SumClasses : List (UInt8 → Bool) :=
  (str "MD5SUM=").map (fun c d => d == c) ++ isQuote :: (List.replicate 32 isHexDigit ++ [isQuote])

def md5SumRe : Pattern := lineClasses md5SumClasses

def payloadMarker : Bytes := str "_____PAYLOAD_____"

/-- The condition `$`. -/
def atLineEnd (s : Bytes) : Bool := s.isEmpty || s.head? == some 10

def payloadMarkerRe : Pattern := fun bol s =>
  if bol && payloadMarker.isPrefixOf s then
    let rest := s.drop payloadMarker.length
    if rest.head? = some 13 ∧ atLineEnd (rest.drop 1) then some (payloadMarker.length + 1)
    else if atLineEnd rest then some payloadMarker.length
    else none
  else none

/-! ### Texts -/

structure Rewrite where
  fromText : Bytes
  toText : Bytes

/-- `applySubs`. -/
def applySubs (u : Unicode) (baseURL : Bytes) (rewrites : List Rewrite) (data : Bytes) : Bytes :=
  rewrites.foldl (fun data r => if r.fromText ≠ [] then replaceText r.fromText r.toText data else data)
    (if baseURL ≠ [] then replaceAll defaultRackURLRe (expand u baseURL) data else data)

/-- `bytes.Map` that drops spaces, tabs, carriage returns and newlines. -/
def stripSpace (s : Bytes) : Bytes :=
  ((runes s).filter fun r => !(r == 32 || r == 9 || r == 13 || r == 10)).flatMap encodeRune

/-! ### Archives -/

section Archives

variable {R : Type}

/-- `tar.TypeReg` and `tar.TypeRegA`. -/
def Header.isRegular (hdr : Header R) : Bool := hdr.typeflag == 48 || hdr.typeflag == 0

variable (u : Unicode) (gzip : Gzip) (tar : Tar R) (md5 : Bytes → Vector UInt8 16)

/-- The loop over the entries of an archive; `none` is an exit with an error. -/
def rewriteEntries (sub : Bytes → Bytes) : TarStream R → tar.Writer → Option tar.Writer
  | .eof, tw => some tw
  | .error, _ => none
  | .copyError _, _ => none
  | .entry hdr rawBytes rest, tw =>
    if hdr.isRegular then do
      let newBytes := sub rawBytes
      let tw ← tar.writeHeader tw { hdr with size := newBytes.length }
      let tw ← tar.write tw newBytes
      rewriteEntries sub rest tw
    else do
      let tw ← tar.writeHeader tw hdr
      let tw ← if 0 < rawBytes.length then tar.write tw rawBytes else some tw
      rewriteEntries sub rest tw

/-- The header of a self-extracting archive and its payload, packed again; `none` where the source falls back to the
replacement in texts. -/
def repack (sub : Bytes → Bytes) (input : Bytes) : Option (Bytes × Bytes) := do
  let markerLoc ← findIndex payloadMarkerRe input
  let decoded ← base64Decode (stripSpace (input.drop markerLoc.2))
  if decoded.length < 2 ∨ byteAt decoded 0 ≠ 0x1F ∨ byteAt decoded 1 ≠ 0x8B then none
  else
    let gzr ← gzip.newReader decoded
    let tw ← rewriteEntries tar sub (tar.read gzr) tar.newWriter
    let archive ← tar.close tw
    let newGzBytes ← gzip.compress archive
    some (input.take markerLoc.1, newGzBytes)

/-- A newline, unless there is one already. -/
def finalNewline (s : Bytes) : Bytes := if (str "\n").isSuffixOf s then [] else str "\n"

/-- The replacement of a checksum. -/
def md5Line (newGzBytes : Bytes) : Bytes := str "MD5SUM='" ++ hexEncode (md5 newGzBytes).toList ++ str "'"

/-- `none` would be a call that does not return. -/
def rewriteData (input baseURL : Bytes) (rewrites : List Rewrite) : Option (Go Bytes) :=
  if input = [] then some (.ok input)
  else
    let sub := applySubs u (trimRight baseURL 47) rewrites
    match repack gzip tar sub input with
    | none => some (.ok (sub input))
    | some (header, newGzBytes) =>
      let header := replaceAll md5SumRe (expand u (md5Line md5 newGzBytes)) (sub header)
      match LineWrapWriter.writes bufferPut { w := [], lineLen := 76 } (encoderWrites newGzBytes) with
      | none => none
      | some (.error _) => some (.ok (sub input))
      | some (.ok b64Buf) =>
        let result := header ++ finalNewline header ++ payloadMarker ++ str "\n" ++ b64Buf.w
        some (.ok (result ++ finalNewline result))

end Archives

example : applySubs .asciiOnly (str "http://maas/boot") [{ fromText := str "a", toText := str "b" }]
    (str "url: 'http://10.0.0.1:5248/a'") = str "url: 'http://mbbs/boot/b'" := by decide

end MaasBoot
