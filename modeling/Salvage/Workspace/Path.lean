import Salvage.Workspace.PathText

/-! # Paths as lists of names -/

namespace Salvage

structure Path where
  anchor : String := ""
  parts : List String := []
deriving DecidableEq

namespace Path

def ofString (s : String) : Path :=
  { anchor := PathText.anchor s
    parts := (PathText.pieces s).filter fun p => p ≠ "" ∧ p ≠ "." }

def text (p : Path) : String :=
  if p.anchor.isEmpty && p.parts.isEmpty then "." else p.anchor ++ PathText.ofPieces p.parts

def append (p q : Path) : Path :=
  if q.anchor.isEmpty then { p with parts := p.parts ++ q.parts } else q

def child (p : Path) (s : String) : Path :=
  p.append (ofString s)

def parent (p : Path) : Path :=
  { p with parts := p.parts.dropLast }

def name (p : Path) : String :=
  p.parts.getLast?.getD ""

def dotPlace (name : String) : Option Nat :=
  let cs := name.toList
  let tail := cs.reverse.takeWhile (· != '.')
  let n := cs.length - tail.length - 1
  if tail.length = cs.length ∨ n = 0 ∨ tail.isEmpty then none else some n

def stem (p : Path) : String :=
  match dotPlace p.name with
  | none => p.name
  | some n => String.ofList (p.name.toList.take n)

def extension (p : Path) : String :=
  match dotPlace p.name with
  | none => ""
  | some n => String.ofList (p.name.toList.drop n)

def withName (p : Path) (name : String) : Path :=
  { p with parts := p.parts.dropLast ++ [name] }

def withExtension? (p : Path) (ext : String) : Option Path :=
  if p.name.isEmpty then none else some (p.withName (p.stem ++ ext))

def relativeTo? (p base : Path) : Option Path :=
  if p.anchor = base.anchor ∧ base.parts.isPrefixOf p.parts then
    some { parts := p.parts.drop base.parts.length }
  else none

end Path

end Salvage
