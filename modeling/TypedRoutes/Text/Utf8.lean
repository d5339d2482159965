import TypedRoutes.Number.Shortest
import TypedRoutes.Text.Hex

/-!
# UTF-8

Reading bytes as text. `decode` takes well-formed text only and reports the first fault;
`decodeLossy` puts the replacement character in the place of each fault and goes on; `read` is
`decode` with the fault placed and `encode` writes a text.
-/

set_option autoImplicit false

namespace TypedRoutes.Text.Utf8

/-- Why bytes are no text. -/
inductive Reason where
  | startByte
  | continuationByte
  | endOfData
  deriving DecidableEq, Repr

/-- The report of a reason. -/
def Reason.message : Reason → String
  | .startByte => "invalid start byte"
  | .continuationByte => "invalid continuation byte"
  | .endOfData => "unexpected end of data"

/-- The first fault of some bytes: the reason, the bytes at fault, and what follows them. -/
structure Fault where
  reason : Reason
  bytes : List UInt8
  rest : List UInt8
  deriving DecidableEq, Repr

/-- The number of continuation bytes after a leading byte, and the range of the first of them. -/
def expected? (b : UInt8) : Option (Nat × UInt8 × UInt8) :=
  if 0xC2 ≤ b && b ≤ 0xDF then some (1, 0x80, 0xBF)
  else if b = 0xE0 then some (2, 0xA0, 0xBF)
  else if b = 0xED then some (2, 0x80, 0x9F)
  else if 0xE1 ≤ b && b ≤ 0xEF then some (2, 0x80, 0xBF)
  else if b = 0xF0 then some (3, 0x90, 0xBF)
  else if b = 0xF4 then some (3, 0x80, 0x8F)
  else if 0xF1 ≤ b && b ≤ 0xF3 then some (3, 0x80, 0xBF)
  else none

/-- The bits of a leading byte that belong to the code point. -/
def leadingBits (b : UInt8) : Nat :=
  if b < 0xE0 then b.toNat - 0xC0 else if b < 0xF0 then b.toNat - 0xE0 else b.toNat - 0xF0

/-- The longest start of a character: how many of the continuation bytes wanted are there. -/
def continuations (low high : UInt8) : (wanted : Nat) → List UInt8 → List UInt8
  | 0, _ => []
  | _, [] => []
  | wanted + 1, b :: rest =>
    if low ≤ b && b ≤ high then b :: continuations 0x80 0xBF wanted rest else []

/-- The first character of some bytes. -/
def first (b : UInt8) (rest : List UInt8) : Except Fault (Char × List UInt8) :=
  if b < 0x80 then .ok (Char.ofNat b.toNat, rest)
  else match expected? b with
    | none => .error ⟨.startByte, [b], rest⟩
    | some (wanted, low, high) =>
      let found := continuations low high wanted rest
      let rest' := rest.drop found.length
      if found.length = wanted then
        .ok (Char.ofNat (found.foldl (fun n x => n * 64 + (x.toNat - 0x80)) (leadingBits b)), rest')
      else
        .error ⟨if rest'.isEmpty then .endOfData else .continuationByte, b :: found, rest'⟩

/-- The text that some bytes are, or their first fault. -/
def decodeWithin : (fuel : Nat) → List UInt8 → Except Fault (List Char)
  | _, [] => .ok []
  | 0, _ :: _ => .ok []
  | fuel + 1, b :: rest => do
    let (c, rest) ← first b rest
    let cs ← decodeWithin fuel rest
    return c :: cs

/-- The text that some bytes are, or their first fault. -/
def decode (bytes : List UInt8) : Except Fault (List Char) := decodeWithin bytes.length bytes

/-- The text that some bytes are, with a replacement character for each fault. -/
def decodeLossyWithin : (fuel : Nat) → List UInt8 → List Char
  | _, [] => []
  | 0, _ :: _ => []
  | fuel + 1, b :: rest =>
    match first b rest with
    | .ok (c, rest) => c :: decodeLossyWithin fuel rest
    | .error fault => '\ufffd' :: decodeLossyWithin fuel fault.rest

/-- The text that some bytes are, with a replacement character for each fault. -/
def decodeLossy (bytes : List UInt8) : List Char := decodeLossyWithin bytes.length bytes

/-- The first fault of some bytes with its place: the number of bytes before it. -/
structure Misfit where
  reason : Reason
  bytes : List UInt8
  position : Nat
  deriving DecidableEq, Repr

/-- The report of a misfit: one byte at fault is shown, of several only the places. -/
def Misfit.message (m : Misfit) : String :=
  let place := match m.bytes with
    | [b] => "byte 0x" ++ String.ofList (hex 2 b.toNat) ++ " in position " ++ decimalText m.position
    | _ =>
      "bytes in position " ++ decimalText m.position ++ "-" ++
        decimalText (m.position + m.bytes.length - 1)
  "'utf-8' codec can't decode " ++ place ++ ": " ++ m.reason.message

/-- The text that some bytes are. -/
def read (bytes : List UInt8) : Except Misfit String :=
  match decode bytes with
  | .ok cs => .ok (String.ofList cs)
  | .error fault =>
    .error ⟨fault.reason, fault.bytes, bytes.length - fault.rest.length - fault.bytes.length⟩

/-- The bytes of a text. -/
def encode (text : String) : List UInt8 := text.toUTF8.data.toList

example : (decode [0x61, 0xC3, 0xA9, 0xF0, 0x9F, 0x98, 0x80]).toOption = some ['a', 'é', '😀'] := by
  decide +kernel
example : decodeLossy [0xE2, 0x82, 0x61, 0xFF] = ['\ufffd', 'a', '\ufffd'] := by decide +kernel
example : (Misfit.mk .endOfData [0xF0, 0x9F] 3).message =
    "'utf-8' codec can't decode bytes in position 3-4: unexpected end of data" := by decide +kernel

end TypedRoutes.Text.Utf8
