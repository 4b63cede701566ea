import Salvage.Bytes.Basic
import Salvage.Doc.Basic
import Salvage.Number.Decimal

/-!
# Servers

The servers a job talks to are given as their answers: one to an update check, and for each address
the answers to successive downloads, the last of which is repeated.
-/

namespace Salvage

structure Answer where
  status : Int := 200
  document : Doc := .null
  chunks : List Bytes := []

def Answer.isRefusal (a : Answer) : Bool :=
  400 ≤ a.status

inductive NetworkFault where
  | noRoute
  | refused (status : Int)

def NetworkFault.message : NetworkFault → String
  | noRoute => "no route"
  | refused status => Decimal.int status ++ " error"

inductive Request where
  | post (url body : String)
  | get (url : String) (range : Option String)

structure Network where
  post : Option Answer := none
  downloads : List (String × List Answer) := []
  requests : List Request := []

namespace Network

def accept : Option Answer → Except NetworkFault Answer
  | none => .error .noRoute
  | some a => if a.isRefusal then .error (.refused a.status) else .ok a

def send (n : Network) (url body : String) : Option Answer × Network :=
  (n.post, { n with requests := n.requests ++ [.post url body] })

def advance (answers : List Answer) : List Answer :=
  match answers with
  | _ :: b :: r => b :: r
  | r => r

def fetch (n : Network) (url : String) (range : Option String) : Option Answer × Network :=
  let asked := { n with requests := n.requests ++ [.get url range] }
  match n.downloads.lookup url with
  | some (a :: r) =>
    (some a,
      { asked with
        downloads := n.downloads.map fun d => if d.1 = url then (url, advance (a :: r)) else d })
  | _ => (none, asked)

end Network

end Salvage
