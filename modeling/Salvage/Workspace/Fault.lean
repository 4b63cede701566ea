import Salvage.Number.Decimal
import Salvage.Text.Quoted

/-! # Why a file operation cannot be done -/

namespace Salvage

inductive FileCause where
  | missing
  | exists
  | notDirectory
  | isDirectory
  | notEmpty
  | nameTooLong
  | zeroCharacter
  | sameFile
deriving DecidableEq

structure FileFault where
  cause : FileCause
  path : String
  target : Option String := none
deriving DecidableEq

def FileCause.words : FileCause → Nat × String
  | .missing => (2, "No such file or directory")
  | .exists => (17, "File exists")
  | .notDirectory => (20, "Not a directory")
  | .isDirectory => (21, "Is a directory")
  | .notEmpty => (39, "Directory not empty")
  | .nameTooLong => (36, "File name too long")
  | .zeroCharacter => (22, "embedded null byte")
  | .sameFile => (0, "are the same file")

def FileFault.message (f : FileFault) : String :=
  match f.cause, f.target with
  | .zeroCharacter, _ => "embedded null byte"
  | .sameFile, target =>
    Quoted.text f.path ++ " and " ++ Quoted.text (target.getD "") ++ " are the same file"
  | .exists, some target => "Destination path '" ++ target ++ "' already exists"
  | c, target =>
    "[Errno " ++ Decimal.nat c.words.1 ++ "] " ++ c.words.2 ++ ": " ++ Quoted.text f.path ++
      match target with
      | none => ""
      | some t => " -> " ++ Quoted.text t

end Salvage
