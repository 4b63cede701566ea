import Salvage.Bytes.Hex
import Salvage.Text.Printable

/-!
# Quoted text in listings

A text in a listing stands in single quotes, or in double quotes when it holds single quotes and no
double ones. Backslashes, the quote itself and characters that are not printable are escaped. Octet
strings are written in the same way after a `b`.
-/

namespace Salvage.Quoted

def quoteFor (cs : List Char) : Char :=
  if cs.contains '\'' && !cs.contains '"' then '"' else '\''

def escapeChar (quote c : Char) : List Char :=
  if c = quote ∨ c = '\\' then ['\\', c]
  else if c = '\n' then ['\\', 'n']
  else if c = '\r' then ['\\', 'r']
  else if c = '\t' then ['\\', 't']
  else if Text.isPrintable c then [c]
  else if c.toNat < 0x100 then '\\' :: 'x' :: (Hex.natPadded 2 c.toNat).toList
  else if c.toNat < 0x10000 then '\\' :: 'u' :: (Hex.natPadded 4 c.toNat).toList
  else '\\' :: 'U' :: (Hex.natPadded 8 c.toNat).toList

def text (s : String) : String :=
  let cs := s.toList
  let q := quoteFor cs
  String.ofList (q :: cs.flatMap (escapeChar q) ++ [q])

def escapeOctet (quote : Char) (b : UInt8) : List Char :=
  let c := Char.ofNat b.toNat
  if c = quote ∨ c = '\\' then ['\\', c]
  else if c = '\n' then ['\\', 'n']
  else if c = '\r' then ['\\', 'r']
  else if c = '\t' then ['\\', 't']
  else if 0x20 ≤ b ∧ b < 0x7F then [c]
  else '\\' :: 'x' :: Hex.octet b

def octets (b : Bytes) : String :=
  let q := quoteFor (b.map fun x => Char.ofNat x.toNat)
  String.ofList ('b' :: q :: b.flatMap (escapeOctet q) ++ [q])

end Salvage.Quoted
