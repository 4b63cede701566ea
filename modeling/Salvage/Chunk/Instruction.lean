import Salvage.Bytes.Hex
import Salvage.Chunk.Key
import Salvage.Number.Decimal

/-!
# Instruction words

A word holds an operation code in its seven low bits and operands above it. Codes beyond the last
one in use have a flipped bit, which is flipped back before the word is repaired or listed.
-/

namespace Salvage.Chunk

abbrev Word := UInt32

namespace Word

/-! ## Fields -/

def opcode (w : Word) : UInt8 :=
  let op := plainOpcode w
  if op < 84 then op else op ^^^ 0x40

def a (w : Word) : Nat := ((w >>> 7) &&& 0xFF).toNat

def k (w : Word) : Nat := ((w >>> 15) &&& 1).toNat

def b (w : Word) : Nat := ((w >>> 16) &&& 0xFF).toNat

def c (w : Word) : Nat := ((w >>> 24) &&& 0xFF).toNat

def bx (w : Word) : Nat := (w >>> 15).toNat

def sbx (w : Word) : Int := (bx w : Int) - 131071

def signedOctet (n : Nat) : Int :=
  if n < 128 then n else (n : Int) - 256

def sb (w : Word) : Int := signedOctet (b w)

def sc (w : Word) : Int := (c w : Int) - 127

def ax (w : Word) : Nat := (w >>> 7).toNat

def sj (w : Word) : Int :=
  if ax w < 0x1000000 then ax w else (ax w : Int) - 0x2000000

def withBx (w : Word) (v : Int) : Word :=
  (w &&& (0x7FFF : UInt32)) ||| (UInt32.ofNat (v % 0x20000).toNat <<< 15)

/-! ## Listing -/

inductive Shape where
  | a | ab | abc | abck | abk | ak | ac | aSbx | aBx | abSc | aSbCk | aSbk | sj | ax | none

def operations : List (String × Shape) :=
  [("Move", .ab), ("LoadI", .aSbx), ("LoadF", .aSbx), ("LoadK", .aBx), ("LoadKx", .a),
   ("LoadFalse", .a), ("LFalseSkip", .a), ("LoadTrue", .a), ("LoadNil", .ab), ("GetUpval", .ab),
   ("SetUpval", .ab), ("GetTabup", .abc), ("GetTable", .abc), ("GetI", .abc), ("GetField", .abc),
   ("SetTabup", .abc), ("SetTable", .abc), ("SetI", .abc), ("SetField", .abc),
   ("NewTable", .abck), ("Self_", .abc), ("AddI", .abSc), ("AddK", .abc), ("SubK", .abc),
   ("MulK", .abc), ("ModK", .abc), ("PowK", .abc), ("DivK", .abc), ("IDivK", .abc),
   ("BAndK", .abc), ("BOrK", .abc), ("BXorK", .abc), ("ShrI", .abSc), ("ShlI", .abSc),
   ("Add", .abc), ("Sub", .abc), ("Mul", .abc), ("Mod", .abc), ("Pow", .abc), ("Div", .abc),
   ("IDiv", .abc), ("BAnd", .abc), ("BOr", .abc), ("BXor", .abc), ("Shl", .abc), ("Shr", .abc),
   ("MmBin", .abc), ("MmBinI", .aSbCk), ("MmBinK", .abck), ("Unm", .ab), ("BNot", .ab),
   ("Not", .ab), ("Len", .ab), ("Concat", .ab), ("GAME_CUSTOM", .abc), ("Close", .a), ("Tbc", .a),
   ("Jmp", .sj), ("Eq", .abk), ("Lt", .abk), ("Le", .abk), ("EqK", .abk), ("EqI", .aSbk),
   ("LtI", .aSbk), ("LeI", .aSbk), ("GtI", .aSbk), ("GeI", .aSbk), ("Test", .ak),
   ("TestSet", .abk), ("Call", .abc), ("TailCall", .abck), ("Return", .abck), ("Return0", .none),
   ("Return1", .a), ("ForLoop", .aBx), ("ForPrep", .aBx), ("TForPrep", .aBx), ("TForCall", .ac),
   ("TForLoop", .aBx), ("SetList", .abck), ("Closure", .aBx), ("Vararg", .ac), ("VarargPrep", .a),
   ("Extraarg", .ax)]

def operand (name : String) (width : Nat) (v : Int) : String :=
  name ++ "=" ++ Decimal.padRight ' ' width (Decimal.int v)

def operands (w : Word) : Shape → List String
  | .a => [operand "A" 3 (a w)]
  | .ab => [operand "A" 3 (a w), operand "B" 3 (b w)]
  | .abc => [operand "A" 3 (a w), operand "B" 3 (b w), operand "C" 3 (c w)]
  | .abck => [operand "A" 3 (a w), operand "B" 3 (b w), operand "C" 3 (c w), operand "k" 0 (k w)]
  | .abk => [operand "A" 3 (a w), operand "B" 3 (b w), operand "k" 0 (k w)]
  | .ak => [operand "A" 3 (a w), operand "k" 0 (k w)]
  | .ac => [operand "A" 3 (a w), operand "C" 3 (c w)]
  | .aSbx => [operand "A" 3 (a w), operand "sBx" 8 (sbx w)]
  | .aBx => [operand "A" 3 (a w), operand "Bx" 6 (bx w)]
  | .abSc => [operand "A" 3 (a w), operand "B" 3 (b w), operand "sC" 4 (sc w)]
  | .aSbCk =>
    [operand "A" 3 (a w), operand "sB" 4 (sb w), operand "C" 3 (c w), operand "k" 0 (k w)]
  | .aSbk => [operand "A" 3 (a w), operand "sB" 4 (sb w), operand "k" 0 (k w)]
  | .sj => [operand "sJ" 8 (sj w)]
  | .ax => [operand "Ax" 10 (ax w)]
  | .none => []

def describe (w : Word) : String :=
  match operations[(opcode w).toNat]? with
  | some (name, .none) => name
  | some (name, shape) =>
    Decimal.padRight ' ' 12 name ++ " " ++ " ".intercalate (operands w shape)
  | none => "???"

def listing (position : UInt32) (w : Word) (repaired : Bool) : String :=
  " " ++ Decimal.natPadded 4 position.toNat ++ ": " ++ Hex.natPaddedUpper 8 w.toNat ++ "  " ++
    describe w ++ (if repaired then "  [FIXED]" else "") ++ "\n"

end Word

end Salvage.Chunk
