/-!
Bytes as text. What is no valid encoding of a character is replaced by U+FFFD, one replacement for
each longest beginning of a character.
-/

namespace ToolDock.Lossy

def replacement : Char := Char.ofNat 0xfffd

def afterLead (lead : Nat) : Option (Nat × Nat × Nat) :=
  if 0xc2 ≤ lead ∧ lead ≤ 0xdf then some (0x80, 0xbf, 0)
  else if lead = 0xe0 then some (0xa0, 0xbf, 1)
  else if lead = 0xed then some (0x80, 0x9f, 1)
  else if 0xe1 ≤ lead ∧ lead ≤ 0xef then some (0x80, 0xbf, 1)
  else if lead = 0xf0 then some (0x90, 0xbf, 2)
  else if 0xf1 ≤ lead ∧ lead ≤ 0xf3 then some (0x80, 0xbf, 2)
  else if lead = 0xf4 then some (0x80, 0x8f, 2)
  else none

def leadBits (lead : Nat) : Nat :=
  if lead < 0xe0 then lead % 32 else if lead < 0xf0 then lead % 16 else lead % 8

/-- A character that has begun: its bits so far, the bounds of its next byte, and the number of
bytes after that one. -/
structure Begun where
  bits : Nat
  low : Nat
  high : Nat
  more : Nat

def start (byte : Nat) : List Char × Option Begun :=
  if byte < 0x80 then ([Char.ofNat byte], none)
  else
    match afterLead byte with
    | some (low, high, more) => ([], some ⟨leadBits byte, low, high, more⟩)
    | none => ([replacement], none)

def step (begun : Option Begun) (byte : Nat) : List Char × Option Begun :=
  match begun with
  | none => start byte
  | some b =>
    if b.low ≤ byte ∧ byte ≤ b.high then
      let bits := b.bits * 64 + byte % 64
      match b.more with
      | 0 => ([Char.ofNat bits], none)
      | more + 1 => ([], some ⟨bits, 0x80, 0xbf, more⟩)
    else
      let (chars, next) := start byte
      (replacement :: chars, next)

def decodeFrom (begun : Option Begun) : List UInt8 → List Char
  | [] => if begun.isSome then [replacement] else []
  | byte :: rest =>
    let (chars, next) := step begun byte.toNat
    chars ++ decodeFrom next rest

def decode (bytes : List UInt8) : String := String.ofList (decodeFrom none bytes)

end ToolDock.Lossy
