/-! # Column kinds -/

namespace Salvage.Table

inductive Kind where
  | bool
  | string
  | fix
  | listString
  | listBool
  | listInt
  | listFloat
  | listFix
  | mapStringString
  | mapIntInt
  | mapIntString
  | mapStringInt
  | mapIntFloat
  | int
  | float
  | fix2
  | fix3
  | fixQuaternion
  | listFix2
  | listFix3
  | listFixQuaternion
deriving DecidableEq

namespace Kind

def all : List Kind :=
  [bool, string, fix, listString, listBool, listInt, listFloat, listFix, mapStringString,
   mapIntInt, mapIntString, mapStringInt, mapIntFloat, int, float, fix2, fix3, fixQuaternion,
   listFix2, listFix3, listFixQuaternion]

def code (k : Kind) : Nat :=
  all.idxOf k + 1

def ofCode? (i : Int) : Option Kind :=
  if 1 ≤ i then all[i.toNat - 1]? else none

def name : Kind → String
  | bool => "bool"
  | string => "string"
  | fix => "fix"
  | listString => "list<string>"
  | listBool => "list<bool>"
  | listInt => "list<int>"
  | listFloat => "list<float>"
  | listFix => "list<fix>"
  | mapStringString => "dic<str,str>"
  | mapIntInt => "dic<int,int>"
  | mapIntString => "dic<int,str>"
  | mapStringInt => "dic<str,int>"
  | mapIntFloat => "dic<int,float>"
  | int => "int"
  | float => "float"
  | fix2 => "fix2"
  | fix3 => "fix3"
  | fixQuaternion => "fixquat"
  | listFix2 => "list<fix2>"
  | listFix3 => "list<fix3>"
  | listFixQuaternion => "list<fixquat>"

/-- Whether cells of the kind hold several values of their own length. -/
def isCollection : Kind → Bool
  | listString | listBool | listInt | listFloat | listFix | mapStringString | mapIntInt
  | mapIntString | mapStringInt | mapIntFloat | listFix2 | listFix3 | listFixQuaternion => true
  | _ => false

def isText : Kind → Bool
  | string | listString => true
  | _ => false

end Kind

end Salvage.Table
