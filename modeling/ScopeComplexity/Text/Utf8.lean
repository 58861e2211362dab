/-!
Reading bytes as UTF-8. Every longest stretch of bytes that begins a character and does not finish it, and
every byte that begins none, is read as one replacement character.
-/

namespace ScopeComplexity.Text

/-- The state between two bytes: how many bytes the open character still needs, where the next of them
must lie, what its value is so far, and the text read before it. -/
structure Decoder where
  owed : Nat := 0
  low : Nat := 0x80
  high : Nat := 0xbf
  value : Nat := 0
  text : String := ""
  replaced : Bool := false

namespace Decoder

def replacement : Char := '\uFFFD'

def replace (d : Decoder) : Decoder :=
  { text := d.text.push replacement, replaced := true }

def begin (d : Decoder) (b : Nat) : Decoder :=
  let start (owed low high value : Nat) : Decoder := { d with owed, low, high, value }
  if b < 0x80 then { d with text := d.text.push (Char.ofNat b) }
  else if b < 0xc2 then d.replace
  else if b < 0xe0 then start 1 0x80 0xbf (b - 0xc0)
  else if b == 0xe0 then start 2 0xa0 0xbf 0
  else if b == 0xed then start 2 0x80 0x9f 0xd
  else if b < 0xf0 then start 2 0x80 0xbf (b - 0xe0)
  else if b == 0xf0 then start 3 0x90 0xbf 0
  else if b < 0xf4 then start 3 0x80 0xbf (b - 0xf0)
  else if b == 0xf4 then start 3 0x80 0x8f 4
  else d.replace

def feed (d : Decoder) (byte : UInt8) : Decoder :=
  let b := byte.toNat
  if d.owed == 0 then d.begin b
  else if d.low ≤ b && b ≤ d.high then
    let value := d.value * 64 + (b - 0x80)
    if d.owed == 1 then
      { text := d.text.push (Char.ofNat value), replaced := d.replaced }
    else { d with owed := d.owed - 1, low := 0x80, high := 0xbf, value }
  else d.replace.begin b

def finish (d : Decoder) : Decoder := if d.owed == 0 then d else d.replace

def run (bytes : ByteArray) : Decoder :=
  (bytes.foldl feed {}).finish

end Decoder

def decode (bytes : ByteArray) : String := (Decoder.run bytes).text

def decode? (bytes : ByteArray) : Option String :=
  let d := Decoder.run bytes
  if d.replaced then none else some d.text

end ScopeComplexity.Text
