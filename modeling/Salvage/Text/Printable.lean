import Salvage.Text.Ranges

/-!
# Printable characters

A character is printable when it is assigned and is no control, format, private, surrogate or
separator character; of the separators the plain space is printable.
-/

namespace Salvage.Text

set_option maxRecDepth 4000 in
def printableRanges : Ranges :=
  .ofSteps 0 [32,94,34,11,1,713,2,5,4,6,1,0,1,19,1,396,1,37,2,49,2,2,1,54,8,26,4,5,17,21,1,191,1,47,
    2,58,2,100,14,58,2,48,2,14,1,27,2,0,1,10,5,30,9,73,1,160,1,7,2,1,2,21,1,6,1,0,3,3,2,8,2,1,2,3,8,
    0,4,1,1,4,2,24,2,2,1,5,4,1,2,21,1,6,1,1,1,1,1,1,2,0,1,4,4,1,2,2,3,0,7,3,1,0,7,16,10,2,1,8,1,2,1,
    21,1,6,1,1,1,4,2,9,1,2,1,2,2,0,15,3,2,11,7,6,1,2,1,7,2,1,2,21,1,6,1,1,1,4,2,8,2,1,2,2,7,2,4,1,1,
    4,2,17,10,1,1,5,3,2,1,3,3,1,1,0,1,1,3,1,3,2,3,11,4,4,3,2,1,3,2,0,6,0,14,20,5,12,1,2,1,22,1,15,2,
    8,1,2,1,3,7,1,1,2,2,0,2,3,2,9,7,21,1,2,1,22,1,9,1,4,2,8,1,2,1,3,7,1,6,1,1,3,2,9,1,1,13,12,1,2,1,
    50,1,2,1,5,4,15,2,25,1,2,1,17,3,23,1,8,1,0,2,6,3,0,4,5,1,0,1,7,6,9,2,2,12,57,4,28,37,1,1,0,1,4,
    1,23,1,0,1,22,2,4,1,0,1,5,2,9,2,3,32,71,1,35,4,38,1,35,1,14,1,12,37,197,1,0,5,0,2,376,1,3,2,6,1,
    0,1,3,2,40,1,3,2,32,1,3,2,6,1,0,1,3,2,14,1,56,1,3,2,66,2,31,3,25,6,85,2,5,2,639,1,27,3,88,7,21,
    9,23,9,19,12,12,1,2,1,1,12,93,2,9,6,9,6,13,1,10,6,88,7,42,5,69,10,30,1,11,4,11,4,0,3,41,2,4,11,
    43,4,25,6,10,3,61,2,64,1,28,2,10,6,9,6,13,2,30,49,76,3,46,1,115,8,59,3,14,3,59,7,42,2,10,8,42,5,
    533,2,5,2,37,2,5,2,7,1,0,1,0,1,0,1,30,2,52,1,14,1,13,2,5,1,18,2,2,1,8,17,23,8,46,17,1,2,26,1,12,
    3,32,15,32,15,139,4,662,25,10,21,1811,2,31,1,348,5,44,1,0,5,0,2,55,7,1,14,23,9,6,1,6,1,6,1,6,1,
    6,1,6,1,6,1,6,1,125,34,25,1,88,12,213,26,11,5,62,1,85,2,102,5,42,1,93,1,83,12,46,1,29292,3,54,9,
    347,20,183,8,202,5,1,1,0,1,4,24,58,3,9,6,55,8,69,8,11,6,115,11,29,3,77,1,10,4,32,1,54,9,13,2,9,
    2,102,24,27,10,5,2,5,2,5,9,6,1,6,1,59,4,125,2,9,6,11171,12,22,4,48,8452,365,2,105,38,6,12,4,5,
    25,1,4,1,0,1,1,1,1,1,124,16,444,2,53,7,0,32,41,6,50,1,18,1,3,4,4,1,134,4,189,3,5,2,5,2,5,2,2,3,
    6,1,6,13,1,2,11,1,25,1,18,1,1,1,14,2,13,34,122,5,2,4,44,3,87,1,12,3,0,47,45,130,28,3,48,15,27,4,
    35,9,29,5,42,5,29,1,36,4,13,42,157,2,9,6,35,4,35,4,39,8,51,11,11,1,14,1,6,1,1,1,10,1,14,1,6,1,1,
    67,310,9,21,10,7,24,5,1,41,1,8,69,5,2,0,1,43,1,1,3,0,2,22,1,71,8,8,48,18,1,1,5,32,3,26,5,0,64,
    55,4,19,2,49,1,1,5,7,1,2,1,28,2,2,4,9,7,8,7,63,32,38,4,11,9,53,3,28,2,26,5,25,7,3,12,6,80,72,55,
    50,13,50,7,45,8,9,294,30,1,41,1,2,2,1,78,39,8,41,22,25,38,27,20,22,9,77,4,35,9,61,1,4,13,24,7,9,
    6,52,1,17,8,38,9,95,1,19,11,17,1,43,65,6,1,0,1,3,1,14,1,10,6,58,5,9,6,3,1,7,2,1,2,21,1,6,1,1,1,
    4,1,9,2,1,2,2,2,0,6,0,5,6,2,6,3,4,139,91,1,4,30,71,8,9,166,53,2,37,34,68,11,9,6,12,19,57,6,9,54,
    26,2,14,4,22,185,59,100,82,12,7,2,0,2,7,1,1,1,29,1,1,2,11,9,9,70,7,2,45,2,10,27,71,8,82,13,72,
    263,8,1,44,1,13,10,28,3,31,2,21,1,13,73,6,1,1,1,43,3,0,1,1,1,8,8,9,6,5,1,1,1,36,1,1,1,5,7,9,310,
    24,183,0,15,49,13,922,102,110,1,4,11,195,2636,98,13,1070,4049,582,8633,568,7,30,1,9,4,80,1,9,6,
    29,2,5,10,69,10,9,1,6,1,20,5,18,688,90,101,74,4,56,7,16,64,4,11,1,14,6135,8,1237,42,8,8935,3,1,
    6,1,1,1,290,45,2,17,3,8,395,2308,106,5,12,3,8,7,9,2,3,4704,45,2,22,9,115,60,245,10,38,2,73,8,
    111,21,69,154,19,12,86,9,24,135,84,1,70,1,1,2,0,2,1,2,3,1,11,1,0,1,6,1,64,1,3,2,7,1,6,1,27,1,3,
    1,4,1,0,3,6,1,339,2,291,2,701,15,4,1,14,1104,30,225,6,1,16,2,6,1,1,1,4,213,44,3,13,2,9,4,1,320,
    30,17,57,5,0,1248,6,1,3,1,1,1,14,1,196,2,15,41,75,4,9,4,1,785,67,76,60,194,3,1,26,1,1,1,0,2,0,1,
    9,1,3,1,0,1,0,6,0,4,0,1,0,1,0,1,2,1,1,1,0,2,0,1,0,1,0,1,0,1,0,1,1,1,0,2,3,1,6,1,3,1,3,1,0,1,9,1,
    16,5,2,1,4,1,16,52,1,270,43,4,99,12,14,2,14,1,14,1,36,10,173,56,28,13,43,4,8,7,1,14,5,154,983,5,
    15,3,12,3,115,12,88,7,11,4,0,15,11,4,55,8,9,6,39,8,29,2,1,78,339,12,13,2,4,3,4,3,6,9,28,3,10,5,
    5,10,9,6,7,8,6,9,146,1,54,37,9,1030,42719,32,4152,7,221,2,5761,14,7472,3103,541,1506,4938,
    716213,239]

def isPrintable (c : Char) : Bool :=
  printableRanges.mem c.toNat

end Salvage.Text
