/-!
# Reading bytes as UTF-8

`decode` reads any list of bytes.  Where the bytes are no UTF-8, one replacement character stands
for each maximal part that starts a character and cannot be finished, and reading goes on with the
byte that broke it.
-/

namespace ScopeMetrics.Text

/-- What has been read of a character: how many bytes are still owed, the least and the greatest
byte the next one may be, and the bits collected so far. -/
structure Partial where
  owed : Nat
  low : UInt8
  high : UInt8
  bits : Nat

/-- What a byte is that stands between characters. -/
inductive Lead where
  | whole (c : Char)
  | first (rest : Partial)
  | stray

/-- Reads a byte between characters. The bounds on the second byte keep out over-long forms,
surrogates and numbers above the last character. -/
def Lead.ofByte (b : UInt8) : Lead :=
  let n := b.toNat
  if n < 0x80 then .whole (Char.ofNat n)
  else if n < 0xc2 then .stray
  else if n < 0xe0 then .first ⟨1, 0x80, 0xbf, n % 32⟩
  else if n = 0xe0 then .first ⟨2, 0xa0, 0xbf, 0⟩
  else if n = 0xed then .first ⟨2, 0x80, 0x9f, 13⟩
  else if n < 0xf0 then .first ⟨2, 0x80, 0xbf, n % 16⟩
  else if n = 0xf0 then .first ⟨3, 0x90, 0xbf, 0⟩
  else if n < 0xf4 then .first ⟨3, 0x80, 0xbf, n % 8⟩
  else if n = 0xf4 then .first ⟨3, 0x80, 0x8f, 4⟩
  else .stray

/-- The character that stands for bytes that are no character. -/
def replacement : Char := Char.ofNat 0xfffd

/-- Reads bytes from the middle of a character (`some`) or from between two (`none`). -/
def decodeFrom : Option Partial → List UInt8 → List Char
  | none, [] => []
  | some _, [] => [replacement]
  | none, b :: bs =>
    match Lead.ofByte b with
    | .whole c => c :: decodeFrom none bs
    | .first p => decodeFrom (some p) bs
    | .stray => replacement :: decodeFrom none bs
  | some p, b :: bs =>
    if p.low ≤ b ∧ b ≤ p.high then
      let bits := p.bits * 64 + b.toNat % 64
      if p.owed ≤ 1 then Char.ofNat bits :: decodeFrom none bs
      else decodeFrom (some ⟨p.owed - 1, 0x80, 0xbf, bits⟩) bs
    else
      match Lead.ofByte b with
      | .whole c => replacement :: c :: decodeFrom none bs
      | .first q => replacement :: decodeFrom (some q) bs
      | .stray => replacement :: replacement :: decodeFrom none bs

/-- The text that the bytes spell, with replacement characters where they spell none. -/
def decode (bytes : List UInt8) : String :=
  String.ofList (decodeFrom none bytes)

/-- The bytes of a text. -/
def encode (s : String) : List UInt8 :=
  s.toUTF8.data.toList

end ScopeMetrics.Text
