import Salvage.Text.Ranges

/-! # Digits and number signs of all scripts -/

namespace Salvage.Text

/-- The codes of the decimal digits: each range holds the digits from zero to nine. -/
def decimalRanges : Ranges :=
  .ofSteps 0 [48,9,1574,9,134,9,198,9,412,9,118,9,118,9,118,9,118,9,118,9,118,9,118,9,118,9,118,9,
    96,9,118,9,70,9,278,9,70,9,1862,9,38,9,300,9,128,9,166,9,6,9,182,9,86,9,134,9,6,9,35270,9,678,9,
    38,9,198,9,22,9,86,9,406,9,21270,9,1414,9,2182,9,812,9,128,9,60,9,144,9,278,9,342,9,118,9,374,9,
    102,9,102,9,422,9,102,9,758,9,246,9,70,9,19638,9,86,9,134,9,27764,9,0,9,0,9,0,9,0,9,2368,9,422,
    9,1622,9,4758,9]

def decimalValue? (c : Char) : Option Nat :=
  decimalRanges.offset? c.toNat

def isDecimal (c : Char) : Bool :=
  decimalRanges.mem c.toNat

def digitRanges : Ranges :=
  .ofSteps 0 [48,9,120,1,5,0,1446,9,134,9,198,9,412,9,118,9,118,9,118,9,118,9,118,9,118,9,118,9,118,
    9,118,9,96,9,118,9,70,9,278,9,70,9,719,8,1134,9,38,9,300,9,128,10,165,9,6,9,182,9,86,9,134,9,6,
    9,1046,0,3,5,6,9,982,8,11,8,11,8,89,0,10,8,1,0,630,8,1,8,1,8,32397,9,678,9,38,9,198,9,22,9,86,9,
    406,9,21270,9,1414,9,1430,3,748,9,294,8,489,8,11,9,128,9,60,9,144,9,278,9,342,9,118,9,374,9,102,
    9,102,9,422,9,102,9,758,9,246,9,70,9,19638,9,86,9,134,9,27764,49,2368,9,422,9,1622,9,1958,10,
    2789,9]

def isDigit (c : Char) : Bool :=
  digitRanges.mem c.toNat

set_option maxRecDepth 4000 in
def numericRanges : Ranges :=
  .ofSteps 0 [48,9,120,1,5,0,2,2,1441,9,134,9,198,9,412,9,118,9,4,5,108,9,118,9,118,9,2,5,110,12,
    115,9,8,6,103,9,104,6,7,18,109,9,96,9,118,9,70,19,268,9,70,9,719,19,881,2,239,9,6,9,22,9,300,9,
    128,10,165,9,6,9,182,9,86,9,134,9,6,9,1046,0,3,5,6,9,198,50,2,4,726,59,78,21,630,29,1385,0,777,
    0,25,8,14,2,343,3,138,9,30,7,1,14,32,9,39,14,325,0,125,0,934,0,802,0,4786,0,2,0,3,0,1,0,83,0,46,
    0,7,0,1,0,40,1,30,0,8,0,36,0,98,0,403,0,65,0,34,0,1,0,1,0,467,0,1,2,6,0,116,3,790,0,533,0,7,0,
    1408,0,131,1,12,2,1,0,1005,0,77,0,1157,0,1843,0,1167,0,743,0,2567,0,933,0,2177,0,4,0,124,0,2288,
    0,36,0,5,0,43,0,125,0,3881,9,188,9,320,5,154,9,38,9,198,9,22,9,86,9,406,9,19825,0,7,0,4,0,57,0,
    30,0,1,0,41,0,1298,9,493,44,12,56,17,1,341,26,36,3,29,0,8,0,134,4,202,9,942,7,25,6,39,8,75,4,22,
    5,160,1,2,15,2,45,64,8,52,1,30,2,75,4,104,7,24,7,41,6,330,5,48,9,294,30,158,9,42,3,112,6,134,29,
    128,9,60,9,144,9,7,19,251,9,342,9,118,9,374,9,102,9,102,11,420,18,93,9,758,28,227,9,70,9,534,20,
    1067,110,17905,9,86,9,134,9,1,6,798,22,25673,19,108,24,1109,49,2368,9,422,9,1485,8,128,9,791,58,
    1,2,1,3,76,44,1,14,962,12,2787,9,1031,0,98,0,125,0,62,0,2056,0,88,0,8,0,15,0,333,0,18,0,27,0,
    6262,0,1543,0,4482,0,10065,0,38434,0]

def isNumeric (c : Char) : Bool :=
  numericRanges.mem c.toNat

end Salvage.Text
