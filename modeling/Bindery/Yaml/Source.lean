import Bindery.Text.Encoded
import Bindery.Yaml.Character
import Bindery.Yaml.Defect

/-!
# The text of a file, as far as it can be read

The text of a document is read in blocks of 4096 characters, each only when it is asked for, the
first two together. To that end bytes are decoded in chunks of 8192, or of more where many bytes
made few characters before. A chunk that is no text and a block with a character that no document
holds do not show before a block is asked for that needs them. So what is wrong far behind in a file
matters only if the document goes on up to there.

A `Source` is the outcome: the text that can be read, and what is met when more is asked for.
-/

namespace Bindery.Yaml

/-! ## Decoding in chunks -/

/-- A file in the course of being decoded. -/
structure Decoder where
  /-- The bytes still in the file. -/
  bytes : List UInt8
  /-- What there is of a character that the last chunk cut off. -/
  cutOff : List UInt8
  /-- Whether a carriage return waits for a line feed that may follow it. -/
  atReturn : Bool
  /-- The characters that were decoded and not taken. -/
  ready : List Char
  /-- How many bytes the last chunk had, and how many characters. -/
  lastBytes : Nat
  lastChars : Nat
  deriving Repr

namespace Decoder

/-- The decoder before a file. -/
def start (bytes : List UInt8) : Decoder :=
  ⟨bytes, [], false, [], 0, 0⟩

/-- The size of a chunk, unless more characters are wanted than it would give. -/
def usualSize : Nat := 8192

/-- How many bytes to decode when a number of characters is wanted: as many as they had if they were
like those of the last chunk. -/
def chunkSize (d : Decoder) (wanted : Nat) : Nat :=
  max usualSize
    (if d.lastChars = 0 || d.lastBytes < d.lastChars then wanted
    else d.lastBytes * wanted / d.lastChars)

/-- Decodes a chunk; nothing if it is no text. Where no bytes are left, what is kept back must be
complete. Every end of line becomes a line feed. -/
def decodeChunk (wanted : Nat) (d : Decoder) : Option Decoder :=
  let chunk := d.bytes.take (d.chunkSize wanted)
  let (whole, cutOff) :=
    if chunk.isEmpty then (d.cutOff, []) else Text.splitCutOff (d.cutOff ++ chunk)
  (Text.decode? whole).map fun text =>
    let cs := if d.atReturn then '\r' :: text.toList else text.toList
    let atReturn := !chunk.isEmpty && cs.getLast? == some '\r'
    let ready := Text.unixLines (if atReturn then cs.dropLast else cs)
    ⟨d.bytes.drop chunk.length, cutOff, atReturn, ready, chunk.length, ready.length⟩

/-- Takes characters, and fewer than wanted only at the end of the file; nothing if what is needed
for them is no text. -/
def take : Nat → Nat → Decoder → Option (List Char × Decoder)
  | 0, _, _ => none
  | limit + 1, wanted, d =>
    let taken := d.ready.take wanted
    let d := { d with ready := d.ready.drop wanted }
    if taken.length = wanted then some (taken, d)
    else
      let missing := wanted - taken.length
      match d.decodeChunk missing with
      | none => none
      | some next =>
        if d.bytes.isEmpty && next.ready.isEmpty then some (taken, next)
        else (take limit missing next).map fun (cs, d) => (taken ++ cs, d)

end Decoder

/-! ## Reading in blocks -/

/-- The text of a file as far as it can be read, and what is met when more is asked for. Without
such a fault the text is all of it. -/
structure Source where
  text : List Char
  fault? : Option Defect
  deriving DecidableEq, Repr

namespace Source

/-- How many characters are read at a time. -/
def blockSize : Nat := 4096

/-- Reads a number of blocks. -/
def takeBlocks (limit : Nat) : Nat → Decoder → Option (List Char × Decoder)
  | 0, d => some ([], d)
  | n + 1, d =>
    match d.take limit blockSize with
    | none => none
    | some (cs, d) => (takeBlocks limit n d).map fun (rest, d) => (cs ++ rest, d)

/-- Reads some blocks together, and those behind them one by one. -/
def readBlocks : Nat → Nat → Decoder → Source
  | 0, _, _ => ⟨[], none⟩
  | limit + 1, together, d =>
    match takeBlocks (limit + 1) together d with
    | none => ⟨[], some (.mishap .notUnicode)⟩
    | some (cs, d) =>
      if !cs.all isAllowed then ⟨[], some .malformed⟩
      else if cs.isEmpty then ⟨[], none⟩
      else
        let rest := readBlocks limit 1 d
        { rest with text := cs ++ rest.text }

/-- The text of a file. -/
def ofBytes (bytes : List UInt8) : Source :=
  readBlocks (bytes.length + 3) 2 (.start bytes)

end Source

end Bindery.Yaml
