import Salvage.Doc.Basic
import Salvage.Text.Quoted

/-!
# Documents of another shape

Settings, indexes and answers of servers are documents of a known shape. This module names the ways
in which a document can differ from the shape that a reader expects.
-/

namespace Salvage.Doc

inductive ShapeFault where
  | noOperation (kind : Kind) (name : String)
  | notPath (kind : Kind)
  | notPlace (kind : Kind)
  | notIterable (kind : Kind)
  | noLength (kind : Kind)
  | notSearched (kind : Kind)
  | notPart (kind : Kind)
  | notName (kind : Kind)
  | notText (kind : Kind)
  | notCompared (kind : Kind)
  | notNumber (kind : Kind)
  | notAssigned (kind : Kind)
  | noFields (kind : Kind)
  | listField
  | textField
  | noText (kind : Kind)
  | notOctets (kind : Kind)
  | unhashable (kind : Kind)
  | missing (name : String)

def ShapeFault.message : ShapeFault → String
  | noOperation k n => "'" ++ k.name ++ "' object has no attribute '" ++ n ++ "'"
  | notPath k => "expected str, bytes or os.PathLike object, not " ++ k.name
  | notPlace k => "stat: path should be string, bytes, os.PathLike or integer, not " ++ k.name
  | notIterable k => "'" ++ k.name ++ "' object is not iterable"
  | noLength k => "object of type '" ++ k.name ++ "' has no len()"
  | notSearched k => "argument of type '" ++ k.name ++ "' is not iterable"
  | notPart k => "'in <string>' requires string as left operand, not " ++ k.name
  | notName k => "unsupported operand type(s) for /: 'PosixPath' and '" ++ k.name ++ "'"
  | notText k => "can only concatenate str (not \"" ++ k.name ++ "\") to str"
  | notCompared k => "'<=' not supported between instances of '" ++ k.name ++ "' and 'int'"
  | notNumber k =>
    "int() argument must be a string, a bytes-like object or a real number, not '" ++ k.name ++ "'"
  | notAssigned k => "'" ++ k.name ++ "' object does not support item assignment"
  | noFields k => "'" ++ k.name ++ "' object is not subscriptable"
  | listField => "list indices must be integers or slices, not str"
  | textField => "string indices must be integers, not 'str'"
  | noText k => "expected string or bytes-like object, got '" ++ k.name ++ "'"
  | notOctets k => "argument should be a bytes-like object or ASCII string, not '" ++ k.name ++ "'"
  | unhashable k => "unhashable type: '" ++ k.name ++ "'"
  | missing n => Quoted.text n

def fields (operation : String) : Doc → Except ShapeFault (List (String × Doc))
  | obj fs => .ok fs
  | d => .error (.noOperation d.kind operation)

def get? (d : Doc) (name : String) : Except ShapeFault (Option Doc) := do
  return lookup name (← d.fields "get")

def getOr (d : Doc) (name : String) (other : Doc) : Except ShapeFault Doc := do
  return (← d.get? name).getD other

def item (d : Doc) (name : String) : Except ShapeFault Doc :=
  match d with
  | obj fs => (lookup name fs).elim (.error (.missing name)) .ok
  | arr _ => .error .listField
  | str _ => .error .textField
  | d => .error (.noFields d.kind)

def parts : Doc → Except ShapeFault (List Doc)
  | arr items => .ok items
  | obj fs => .ok (fs.map fun f => str f.1)
  | str s => .ok (s.toList.map fun c => str c.toString)
  | d => .error (.notIterable d.kind)

def length (d : Doc) : Except ShapeFault Nat :=
  match d.parts with
  | .ok items => .ok items.length
  | .error _ => .error (.noLength d.kind)

def assign (d : Doc) (name : String) (value : Doc) : Except ShapeFault Doc :=
  match d with
  | obj fs => .ok (obj (insert name value fs))
  | arr _ => .error .listField
  | d => .error (.notAssigned d.kind)

def path : Doc → Except ShapeFault String
  | str s => .ok s
  | d => .error (.notPath d.kind)

/-! ## Keys

A value that is not a list or an object can be the key of a table. Numbers are the same key when they
are equal, whatever their kind: yes is one, and a real number without a fraction is a whole number.
-/

inductive Key where
  | null
  | whole (i : Int)
  | real (x : Binary64)
  | text (s : String)
deriving DecidableEq

def Key.ofReal (x : Binary64) : Key :=
  match x.truncate? with
  | none => .real x
  | some i => if x.isInt i then .whole i else .real x

def key : Doc → Except ShapeFault Key
  | null => .ok .null
  | bool b => .ok (.whole (if b then 1 else 0))
  | int i => .ok (.whole i)
  | real x => .ok (.ofReal x)
  | str s => .ok (.text s)
  | d => .error (.unhashable d.kind)

end Salvage.Doc
