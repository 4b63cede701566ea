import Salvage.Text.Ranges

/-!
# Lower case of single characters

Most characters beyond ASCII that have a lower case of one character have it at a distance that is the
same for all of a range, or for every second character of one.
-/

namespace Salvage.Text

/-- Runs of codes `(step, shift, ranges)`: each code that is a whole number of steps behind the start
of its range has its lower case at the distance `shift`. The ranges are given by their own steps. -/
def lowerRuns : List (Nat × Int × List Nat) :=
  [(2, 1, [256,46,3,4,2,14,2,44,2,4,4,2,2,0,3,0,5,0,6,0,7,4,2,0,4,0,2,0,3,2,2,0,3,0,8,0,2,0,2,16,2,
   16,3,2,3,38,3,16,8,0,5,0,4,8,289,2,3,0,97,22,8,0,2,0,101,32,9,52,2,12,2,94,6353,148,11,94,644,0,
   2780,0,6,4,6,0,2,0,10,98,8,2,4,0,31053,44,19,26,135,12,3,60,10,2,2,8,4,0,4,2,3,18,11,14,4,2,6,0,
   5,2,28,0]), (1, -8, [7944, 7, 8, 5, 10, 7, 8, 7, 8, 5, 26, 7, 24, 7, 8,
   7, 8, 7, 8, 1, 30, 1, 14, 1]), (1, 32, [192, 22, 1, 6, 690, 16, 1, 8, 100, 31, 64241, 25, 6501,
   31, 21888, 31]), (1, 2, [452, 0, 2, 0, 2, 0, 38, 0]), (1, 39, [66928, 10, 1, 14, 1, 6, 1, 1]),
   (1, -9, [8124, 0, 15, 0, 47, 0]), (1, 218, [422, 0, 2, 0, 4, 0]), (1, 7264, [4256, 37, 1, 0, 5,
   0]), (1, -42308, [42922, 0, 3, 0]), (1, -3008, [7312, 42, 2, 2]), (1, -130, [544, 0, 476, 2]),
   (1, -7, [1017, 0, 7154, 0]), (1, 8, [975, 0, 4128, 5]), (1, 40, [66560, 39, 136, 35]), (1, 48,
   [1329, 37, 9897, 47]), (1, 64, [908, 0, 67827, 50]), (1, 205, [393, 1, 8, 0]), (1, 211, [406, 0,
   5, 0]), (1, -42319, [42923, 0]), (1, -42315, [42924, 0]), (1, -42307, [42949, 0]), (1, -42305,
   [42925, 0]), (1, -42282, [42929, 0]), (1, -42280, [42893, 0]), (1, -42261, [42930, 0]), (1,
   -42258, [42928, 0]), (1, -35384, [42950, 0]), (1, -35332, [42877, 0]), (1, -10815, [11390, 1]),
   (1, -10783, [11375, 0]), (1, -10782, [11376, 0]), (1, -10780, [11373, 0]), (1, -10749, [11374,
   0]), (1, -10743, [11362, 0]), (1, -10727, [11364, 0]), (1, -8383, [8490, 0]), (1, -8262, [8491,
   0]), (1, -7615, [7838, 0]), (1, -7517, [8486, 0]), (1, -3814, [11363, 0]), (1, -195, [579, 0]),
   (1, -163, [573, 0]), (1, -128, [8184, 1]), (1, -126, [8186, 1]), (1, -121, [376, 0]), (1, -112,
   [8170, 1]), (1, -100, [8154, 1]), (1, -97, [502, 0]), (1, -86, [8136, 3]), (1, -74, [8122, 1]),
   (1, -60, [1012, 0]), (1, -56, [503, 0]), (1, -48, [42948, 0]), (1, 15, [1216, 0]), (1, 16,
   [8544, 15]), (1, 26, [9398, 25]), (1, 28, [8498, 0]), (1, 34, [125184, 33]), (1, 37, [904, 2]),
   (1, 38, [902, 0]), (1, 63, [910, 1]), (1, 69, [580, 0]), (1, 71, [581, 0]), (1, 79, [398, 0]),
   (1, 80, [1024, 15]), (1, 116, [895, 0]), (1, 202, [399, 0]), (1, 203, [400, 0]), (1, 206, [390,
   0]), (1, 207, [404, 0]), (1, 209, [407, 0]), (1, 210, [385, 0]), (1, 213, [413, 0]), (1, 214,
   [415, 0]), (1, 217, [433, 1]), (1, 219, [439, 0]), (1, 928, [42931, 0]), (1, 10792, [574, 0]),
   (1, 10795, [570, 0]), (1, 38864, [5024, 79]), (2, -8, [8025, 6])]

def inRun (code : Nat) (run : Nat × Int × List Nat) : Bool :=
  match (Ranges.ofSteps 0 run.2.2).offset? code with
  | none => false
  | some i => i % run.1 == 0

/-- The code of the lower case of a character beyond ASCII, as far as that is one character. -/
def lowerCode (code : Nat) : Nat :=
  match lowerRuns.find? (inRun code) with
  | none => code
  | some run => ((code : Int) + run.2.1).toNat

end Salvage.Text
