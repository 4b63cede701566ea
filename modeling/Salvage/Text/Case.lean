import Salvage.Text.LowerCase

/-!
# Lower case and title case

File name endings and keywords are compared in lower case, and identifiers are made in title case.

An identifier is made from a text by writing the first letter of each word in upper case and the
others in lower case, and an underscore for whatever is no ASCII letter or digit. Letters of other
scripts matter in two ways: they begin and continue words, and a few of them turn into several
characters or into ASCII letters.
-/

namespace Salvage.Text

def casedRanges : Ranges :=
  .ofSteps 0 [65,25,6,25,47,0,10,0,4,0,5,22,1,30,1,194,1,3,4,207,1,35,7,1,30,4,96,0,42,3,2,1,2,3,1,
    0,6,0,1,2,1,0,1,19,1,82,1,138,8,165,1,37,9,40,2839,37,1,0,5,0,2,42,2,2,672,85,2,5,2178,8,7,42,2,
    2,64,191,64,277,2,5,2,37,2,5,2,7,1,0,1,0,1,0,1,30,2,52,1,6,1,0,3,2,1,6,3,3,2,5,4,12,5,2,1,6,116,
    0,13,0,16,12,101,0,4,0,2,9,1,0,3,4,6,0,1,0,1,0,1,3,1,5,4,0,2,3,5,4,4,0,17,31,3,1,817,51,1814,
    228,6,3,3,1,12,37,1,0,5,0,30994,45,18,29,132,101,3,3,1,58,5,1,1,0,1,4,27,1,1,2,821,42,1,12,7,79,
    20288,6,12,4,1033,25,6,25,1189,79,96,35,4,35,116,10,1,14,1,6,1,1,1,10,1,14,1,6,1,1,451,0,2,2,1,
    41,1,8,1221,50,13,50,2989,63,21856,63,25984,84,1,70,1,1,2,0,2,1,2,3,1,11,1,0,1,6,1,64,1,3,2,7,1,
    6,1,27,1,3,1,4,1,0,3,6,1,339,2,24,1,24,1,30,1,24,1,30,1,24,1,30,1,24,1,30,1,24,1,7,1844,9,1,19,
    2529,67,2028,25,6,25,6,25]

def isCased (c : Char) : Bool :=
  casedRanges.mem c.toNat

/-- The characters beyond ASCII whose title case is an ASCII letter or several characters. -/
def titleExpansions : List (Nat × List Nat) :=
  [(0xdf, [0x53, 0x73]), (0x131, [0x49]), (0x149, [0x2bc, 0x4e]), (0x17f, [0x53]),
   (0x1f0, [0x4a, 0x30c]), (0x390, [0x399, 0x308, 0x301]), (0x3b0, [0x3a5, 0x308, 0x301]),
   (0x587, [0x535, 0x582]), (0x1e96, [0x48, 0x331]), (0x1e97, [0x54, 0x308]),
   (0x1e98, [0x57, 0x30a]), (0x1e99, [0x59, 0x30a]), (0x1e9a, [0x41, 0x2be]),
   (0x1f50, [0x3a5, 0x313]), (0x1f52, [0x3a5, 0x313, 0x300]), (0x1f54, [0x3a5, 0x313, 0x301]),
   (0x1f56, [0x3a5, 0x313, 0x342]), (0x1fb2, [0x1fba, 0x345]), (0x1fb4, [0x386, 0x345]),
   (0x1fb6, [0x391, 0x342]), (0x1fb7, [0x391, 0x342, 0x345]), (0x1fc2, [0x1fca, 0x345]),
   (0x1fc4, [0x389, 0x345]), (0x1fc6, [0x397, 0x342]), (0x1fc7, [0x397, 0x342, 0x345]),
   (0x1fd2, [0x399, 0x308, 0x300]), (0x1fd3, [0x399, 0x308, 0x301]), (0x1fd6, [0x399, 0x342]),
   (0x1fd7, [0x399, 0x308, 0x342]), (0x1fe2, [0x3a5, 0x308, 0x300]),
   (0x1fe3, [0x3a5, 0x308, 0x301]), (0x1fe4, [0x3a1, 0x313]), (0x1fe6, [0x3a5, 0x342]),
   (0x1fe7, [0x3a5, 0x308, 0x342]), (0x1ff2, [0x1ffa, 0x345]), (0x1ff4, [0x38f, 0x345]),
   (0x1ff6, [0x3a9, 0x342]), (0x1ff7, [0x3a9, 0x342, 0x345]), (0xfb00, [0x46, 0x66]),
   (0xfb01, [0x46, 0x69]), (0xfb02, [0x46, 0x6c]), (0xfb03, [0x46, 0x66, 0x69]),
   (0xfb04, [0x46, 0x66, 0x6c]), (0xfb05, [0x53, 0x74]), (0xfb06, [0x53, 0x74]),
   (0xfb13, [0x544, 0x576]), (0xfb14, [0x544, 0x565]), (0xfb15, [0x544, 0x56b]),
   (0xfb16, [0x54e, 0x576]), (0xfb17, [0x544, 0x56d])]

def lowerExpansions : List (Nat × List Nat) :=
  [(0x130, [0x69, 0x307])]

/-- The codes that a character beyond ASCII turns into, as far as their number and the ASCII letters
among them go. -/
def expand (table : List (Nat × List Nat)) (c : Char) : List Nat :=
  ((table.find? fun e => e.1 == c.toNat).map (·.2)).getD [c.toNat]

def titleCodes (c : Char) : List Nat :=
  if c.toNat < 128 then [c.toUpper.toNat] else expand titleExpansions c

def lowerCodes (c : Char) : List Nat :=
  if c.toNat < 128 then [c.toLower.toNat]
  else
    match lowerExpansions.lookup c.toNat with
    | some codes => codes
    | none => [lowerCode c.toNat]

/-- The codes of a text in title case; `inside` says whether a word has begun. -/
def titleOnto (inside : Bool) : List Char → List Nat
  | [] => []
  | c :: r => (if inside then lowerCodes c else titleCodes c) ++ titleOnto (isCased c) r

def identifierChar (code : Nat) : Char :=
  let c := Char.ofNat code
  if code < 128 && c.isAlphanum then c else '_'

def titleIdentifier (s : String) : String :=
  String.ofList ((titleOnto false s.toList).map identifierChar)

def lower (s : String) : String :=
  String.ofList ((s.toList.flatMap lowerCodes).map Char.ofNat)

end Salvage.Text
