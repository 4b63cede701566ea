import Salvage.Job.Basic

/-!
# Walks through directories

A walk visits a directory before the directories in it, and lists each directory when it comes to
it.
-/

namespace Salvage.Job

inductive Course (α : Type) where
  | go (a : α)
  | stop (a : α)

def Course.value {α : Type} : Course α → α
  | go a => a
  | stop a => a

def each {α β : Type} (f : β → α → Job (Course α)) : List β → α → Job (Course α)
  | [], a => return .go a
  | b :: r, a => do
    match ← f b a with
    | .stop a => return .stop a
    | .go a => each f r a

def walkFrom {α : Type} (visit : Tree.Visit → α → Job (Course α)) :
    Nat → String → α → Job (Course α)
  | 0, _, a => return .go a
  | fuel + 1, path, a => do
    match ((← tree).walk path).head? with
    | none => return .go a
    | some v =>
      match ← visit v a with
      | .stop a => return .stop a
      | .go a => each (fun d a => walkFrom visit fuel (PathText.join path d) a) v.directories a

def walk {α : Type} (visit : Tree.Visit → α → Job (Course α)) (path : String) (a : α) :
    Job (Course α) := do
  walkFrom visit ((← tree).entries.length + 2) path a

end Salvage.Job
