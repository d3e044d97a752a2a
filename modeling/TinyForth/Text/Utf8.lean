import TinyForth.Text.Basic

/-!
# UTF-8

Texts as bytes, and bytes as texts.  `encode` writes each character as one to four
bytes.  `decode` reads strictly: no overlong sequence, no surrogate, nothing above
U+10FFFF.  It reports the first fault by its position, the bytes that are wrong, and
a reason.

Everything is read off one table.  `tailBounds?` says for a first byte how many bytes
must follow and between which bounds each of them lies.  The bounds of the second
byte are what excludes overlong sequences, surrogates and large values.  So `first`
counts how many bytes keep to their bounds.  If all do, they are a character.  If
not, the sequence is broken off by the end of the data or by a byte that does not
continue it, and in both cases the faulty bytes are the ones counted.

`decodeFrom` recurs on the bytes themselves.  Its second argument counts the bytes of
the current character that are still to be passed over.
-/

namespace TinyForth.Utf8

/-! ## Writing -/

/-- The bytes of one character. -/
def encodeChar (c : Char) : List UInt8 :=
  let n := c.toNat
  if n < 0x80 then [.ofNat n]
  else if n < 0x800 then [.ofNat (0xC0 + n / 64), .ofNat (0x80 + n % 64)]
  else if n < 0x10000 then
    [.ofNat (0xE0 + n / 4096), .ofNat (0x80 + n / 64 % 64), .ofNat (0x80 + n % 64)]
  else
    [.ofNat (0xF0 + n / 262144), .ofNat (0x80 + n / 4096 % 64), .ofNat (0x80 + n / 64 % 64),
      .ofNat (0x80 + n % 64)]

/-- The bytes of a text. -/
def encode (t : Text) : List UInt8 := t.flatMap encodeChar

/-! ## Faults -/

/-- Why bytes are no character. -/
inductive Reason where
  /-- No sequence starts with this byte. -/
  | startByte
  /-- The data ends inside a sequence. -/
  | endOfData
  /-- A byte does not continue the sequence it stands in. -/
  | continuation
deriving DecidableEq, Repr

/-- The wording of a reason. -/
def Reason.message : Reason → Text
  | .startByte => "invalid start byte".toList
  | .endOfData => "unexpected end of data".toList
  | .continuation => "invalid continuation byte".toList

/-- The first place where bytes are not UTF-8. -/
structure Fault where
  /-- The number of bytes before it. -/
  position : Nat
  /-- The bytes that are wrong, at least one. -/
  bytes : List UInt8
  /-- What is wrong with them. -/
  reason : Reason
deriving DecidableEq, Repr

/-- The wording of a fault.  A single byte is shown by value, several by their positions. -/
def Fault.message (f : Fault) : Text :=
  let place := match f.bytes with
    | [b] => "byte 0x".toList ++ Text.padded 16 2 b.toNat ++ " in position ".toList
        ++ Nat.toDigits 10 f.position
    | bs => "bytes in position ".toList ++ Nat.toDigits 10 f.position ++ ['-']
        ++ Nat.toDigits 10 (f.position + bs.length - 1)
  "'utf-8' codec can't decode ".toList ++ place ++ ": ".toList ++ f.reason.message

/-! ## Reading -/

/-- The bounds of the bytes that follow a first byte, or `none` if no sequence starts with it. -/
def tailBounds? (b : UInt8) : Option (List (Nat × Nat)) :=
  let n := b.toNat
  if n < 0x80 then some []
  else if n < 0xC2 then none
  else if n < 0xE0 then some [(0x80, 0xBF)]
  else if n = 0xE0 then some [(0xA0, 0xBF), (0x80, 0xBF)]
  else if n = 0xED then some [(0x80, 0x9F), (0x80, 0xBF)]
  else if n < 0xF0 then some [(0x80, 0xBF), (0x80, 0xBF)]
  else if n = 0xF0 then some [(0x90, 0xBF), (0x80, 0xBF), (0x80, 0xBF)]
  else if n < 0xF4 then some [(0x80, 0xBF), (0x80, 0xBF), (0x80, 0xBF)]
  else if n = 0xF4 then some [(0x80, 0x8F), (0x80, 0xBF), (0x80, 0xBF)]
  else none

/-- How many bytes keep to their bounds before the first that does not. -/
def within : List (Nat × Nat) → List UInt8 → Nat
  | (low, high) :: bounds, b :: bs =>
      if low ≤ b.toNat ∧ b.toNat ≤ high then within bounds bs + 1 else 0
  | _, _ => 0

/-- The bits of a first byte that belong to the character, by the number of bytes after it. -/
def leadBits (b : UInt8) : (tail : Nat) → Nat
  | 0 => b.toNat
  | 1 => b.toNat % 32
  | 2 => b.toNat % 16
  | _ => b.toNat % 8

/-- The character of a whole sequence: the bits of the first byte, then six bits of each other
byte. -/
def assemble (b : UInt8) (tail : List UInt8) : Char :=
  .ofNat (tail.foldl (fun n t => n * 64 + t.toNat % 64) (leadBits b tail.length))

/-- What stands at the start of a list of bytes. -/
inductive First where
  /-- A character, and how many bytes of it follow the first. -/
  | char (c : Char) (tail : Nat)
  /-- A fault, and how many bytes of it follow the first. -/
  | fault (tail : Nat) (reason : Reason)
deriving DecidableEq, Repr

/-- The character or the fault that starts with the byte `b` and goes on in `bs`. -/
def first (b : UInt8) (bs : List UInt8) : First :=
  match tailBounds? b with
  | none => .fault 0 .startByte
  | some bounds =>
      let n := within bounds bs
      if n = bounds.length then .char (assemble b (bs.take n)) n
      else if n = bs.length then .fault n .endOfData
      else .fault n .continuation

/-- The text of the bytes after the first `skip`, the first of them standing at `position`. -/
def decodeFrom : (position skip : Nat) → List UInt8 → Except Fault Text
  | _, _, [] => .ok []
  | position, skip + 1, _ :: bs => decodeFrom (position + 1) skip bs
  | position, 0, b :: bs =>
      match first b bs with
      | .fault tail reason => .error ⟨position, b :: bs.take tail, reason⟩
      | .char c tail => (decodeFrom (position + 1) tail bs).map (c :: ·)

/-- The text of the bytes, or their first fault. -/
def decode (bs : List UInt8) : Except Fault Text := decodeFrom 0 0 bs

example : (decode (encode "aé€😀".toList)).toOption = some "aé€😀".toList := by decide

end TinyForth.Utf8
