import Salvage.Number.Shortest
import Salvage.Text.Quoted

/-!
# Cell values of binary tables

A cell is absent, a truth mark, a number, a text, a list or a map. Zero, falsehood, the empty text
and the empty collection are all stored as absent.
-/

namespace Salvage.Table

inductive Key where
  | absent
  | int (i : Int)
  | text (s : String)
deriving DecidableEq

inductive Value where
  | absent
  | yes
  | int (i : Int)
  | real (x : Binary64)
  | text (s : String)
  | list (items : List Value)
  | map (entries : List (Key × Value))

namespace Value

/-- The entries of a map with one written: in place when the key is there, else at the end. -/
def insert (key : Key) (value : Value) : List (Key × Value) → List (Key × Value)
  | [] => [(key, value)]
  | (k, v) :: r => if k = key then (k, value) :: r else (k, v) :: insert key value r

def isAbsent : Value → Bool
  | absent => true
  | _ => false

def isZero : Value → Bool
  | int i => i == 0
  | real x => x.isZero
  | _ => false

def orElse (v other : Value) : Value :=
  if v.isAbsent || v.isZero then other else v

end Value

def Key.listing : Key → String
  | .absent => "None"
  | .int i => Decimal.int i
  | .text s => Quoted.text s

namespace Value

mutual

def listing : Value → String
  | absent => "None"
  | yes => "True"
  | int i => Decimal.int i
  | real x => Shortest.render Shortest.listing x
  | text s => Quoted.text s
  | list [] => "[]"
  | list (v :: r) => "[" ++ listing v ++ listingItems r ++ "]"
  | map [] => "\x7b\x7d"
  | map ((k, v) :: r) => "\x7b" ++ k.listing ++ ": " ++ listing v ++ listingEntries r ++ "\x7d"

def listingItems : List Value → String
  | [] => ""
  | v :: r => ", " ++ listing v ++ listingItems r

def listingEntries : List (Key × Value) → String
  | [] => ""
  | (k, v) :: r => ", " ++ k.listing ++ ": " ++ listing v ++ listingEntries r

end

def display : Value → String
  | absent => ""
  | text s => s
  | v => listing v

end Value

end Salvage.Table
