import StackScript.Bytecode
import StackScript.Bytecode.Varint

/-!
# Bytecode Images

A bytecode as bytes that can be kept and read again: a mark, a format version, the code, and
the constants. Lengths and indices are variable-length numbers; a float is its pattern, lowest
byte first; a text is its length in bytes and its UTF-8 form.

Reading takes the whole image apart before it looks at the mark and then at the version. Bytes
after the image are ignored.

## Main definitions

* `Bytecode.image`: the bytes of a bytecode.
* `Bytecode.ofImage`: a bytecode read from bytes.
* `ImageError`: why bytes are no image, its cause perhaps an `ImageFault` of the encoding.
-/

namespace StackScript

/-- What is wrong with the encoding of an image. -/
inductive ImageFault
  /-- The bytes end too early. -/
  | endOfBytes
  /-- A number goes on for too long. -/
  | unendingNumber
  /-- A truth value that is neither zero nor one. -/
  | badBoolean
  /-- A text that is not UTF-8. -/
  | badText
  /-- A value of no known type. -/
  | badType
  deriving DecidableEq, Inhabited, Repr

/-- The message of a fault. -/
def ImageFault.message : ImageFault → String
  | endOfBytes => "Hit the end of buffer, expected more data"
  | unendingNumber =>
    "Found a varint that didn't terminate. Is the usize too big for this platform?"
  | badBoolean => "Found a bool that wasn't 0 or 1"
  | badText => "Tried to parse invalid utf-8"
  | badType => "Serde Deserialization Error"

/-- Why bytes are no image. -/
inductive ImageError
  /-- The bytes encode nothing. -/
  | encoding (fault : ImageFault)
  /-- The bytes do not start with the mark. -/
  | badMark
  /-- The image has another version. -/
  | version (found : Nat)
  deriving DecidableEq, Inhabited, Repr

namespace Image

/-- The four bytes that every image starts with. -/
def mark : List UInt8 := [0x4B, 0x49, 0x4C, 0x4E]

/-- The version of the format. -/
def version : Nat := 1

end Image

/-- The text of an error. -/
def ImageError.text : ImageError → String
  | encoding fault => "image error: " ++ fault.message
  | badMark => "image error: not a kiln bytecode image"
  | version found =>
    "image error: unsupported image version " ++ toString found ++ " (expected " ++
      toString Image.version ++ ")"

namespace Image

/-! ### Writing -/

/-- The bytes of a pattern, lowest first. -/
def patternBytes (x : Binary64) : List UInt8 :=
  (List.range 8).map fun place => UInt8.ofNat (x.bits.toNat >>> (8 * place))

/-- Bytes with their number in front. -/
def counted (bytes : List UInt8) : List UInt8 :=
  Varint.encode bytes.length ++ bytes

/-- The bytes of a value: the number of its type, and its content. -/
def valueBytes : Value → List UInt8
  | .integer n => 0 :: Varint.encode (Varint.fold n.toInt)
  | .float x => 1 :: patternBytes x
  | .string s => 2 :: counted s.toByteArray.data.toList
  | .boolean b => [3, if b then 1 else 0]
  | .null => [4]

end Image

/-- The bytes of a bytecode. -/
def Bytecode.image (b : Bytecode) : List UInt8 :=
  Image.mark ++ Varint.encode Image.version ++ Image.counted b.code.toList ++
    Varint.encode b.constants.size ++ b.constants.toList.flatMap Image.valueBytes

/-! ### Reading -/

/-- A rule that reads from the front of the bytes that are left. -/
abbrev ImageReader := EStateM ImageFault (List UInt8)

namespace ImageReader

/-- One byte. -/
def byte : ImageReader UInt8 := do
  match ← get with
  | [] => throw .endOfBytes
  | b :: rest =>
    set rest
    return b

/-- A variable-length number of which at most `more` bytes follow its first. -/
def numberWithin (lastByte : Nat) : Nat → ImageReader Nat
  | 0 => do
    let b ← byte
    if b.toNat < 128 ∧ b.toNat ≤ lastByte then return b.toNat else throw .unendingNumber
  | more + 1 => do
    let b ← byte
    if b.toNat < 128 then return b.toNat
    else
      let high ← numberWithin lastByte more
      return b.toNat - 128 + 128 * high

/-- A variable-length number of the given word size. -/
def number (width : Varint.Width) : ImageReader Nat :=
  numberWithin width.lastByte width.more

/-- As many items as `count` says, behind those already read. -/
def items {α : Type} (item : ImageReader α) (read : Array α) : Nat → ImageReader (Array α)
  | 0 => return read
  | count + 1 => do
    let a ← item
    items item (read.push a) count

/-- Items with their number in front. -/
def counted {α : Type} (item : ImageReader α) : ImageReader (Array α) := do
  let count ← number Varint.word64
  items item #[] count

/-- A pattern, lowest byte first. -/
def pattern : ImageReader Binary64 := do
  let bytes ← items byte #[] 8
  return ⟨UInt64.ofNat (bytes.foldr (fun b high => b.toNat + 256 * high) 0)⟩

/-- A text. -/
def text : ImageReader String := do
  match String.fromUTF8? ⟨← counted byte⟩ with
  | some s => return s
  | none => throw .badText

/-- A truth value. -/
def boolean : ImageReader Bool := do
  match ← byte with
  | 0 => return false
  | 1 => return true
  | _ => throw .badBoolean

/-- A value: the number of its type, and its content. -/
def value : ImageReader Value := do
  match ← number Varint.word32 with
  | 0 => return .integer (Int64.ofInt (Varint.unfold (← number Varint.word64)))
  | 1 => return .float (← pattern)
  | 2 => return .string (← text)
  | 3 => return .boolean (← boolean)
  | 4 => return .null
  | _ => throw .badType

/-- A whole image: its mark, its version and its bytecode. -/
def image : ImageReader (Array UInt8 × Nat × Bytecode) := do
  let mark ← items byte #[] 4
  let version ← number Varint.word16
  let code ← counted byte
  let constants ← counted value
  return (mark, version, { code, constants })

end ImageReader

/-- The bytecode of an image. The mark is looked at before the version, and both only when the
whole image could be read. -/
def Bytecode.ofImage (bytes : List UInt8) : Except ImageError Bytecode :=
  match ImageReader.image bytes with
  | .error fault _ => .error (.encoding fault)
  | .ok (mark, version, b) _ =>
    if mark.toList ≠ Image.mark then .error .badMark
    else if version ≠ Image.version then .error (.version version)
    else .ok b

end StackScript
