import Salvage.Digest.Md5
import Salvage.Doc.Printer
import Salvage.Job.Basic

/-!
# Downloads

A download is written to a partial file beside its place and moved there when it is complete.
-/

namespace Salvage.Update

open Job

/-! ## Addresses -/

def game : String := "20019"

def checkAddress : String := "https://nm-common-proxy-live.garena.com/jsonMsgCheckSign"

def hotfixAddress (game : String) : String :=
  "https://dl-fellowmoon.garenanow.com/hotfix/" ++ game ++ "/Android/patch/"

def indexAddress (game package : String) : String :=
  hotfixAddress game ++ "VersionIndex/" ++ package ++ "/"

def assetAddress (game path : String) : String :=
  hotfixAddress game ++ "SYResRoot/" ++ path

def checkContent : Doc :=
  .arr [.obj
    [("appid", .str game), ("regionId", .str "nm-jp-game"), ("channelId", .str "55"),
     ("resVersion", .str "56"), ("appVersion", .str "1.1.41"), ("userId", .str ""),
     ("adid", .str "0")]]

def checkBody : String :=
  Doc.render .compact (.obj
    [("srcService", .str "client-update-service"), ("msgId", .str "getUpdateVersion"),
     ("msgContent", .str (Doc.render .compact checkContent))])

def assetRange : Option String := some "bytes=0-"

/-! ## Requests -/

def fetch (url : String) (range : Option String) : Job Answer := do
  let (answer, network) := (← get).network.fetch url range
  modify fun w => { w with network := network }
  ofExcept .network (Network.accept answer)

def send (url body : String) : Job Answer := do
  let (answer, network) := (← get).network.send url body
  modify fun w => { w with network := network }
  ofExcept .network (Network.accept answer)

/-! ## Files -/

/-- The digest of a file that is read in pieces of `piece` octets; a negative number stands for the
whole, and none for no piece at all. -/
def fileDigest (path : String) (piece : Int := 1048576) : Job String := do
  let data ← readFile path
  return Hex.encode (Md5.digest (if piece = 0 then [] else data))

/-- The octets of the parts before the stop sign is raised, and whether all were taken; there is one
look at the sign before each part. -/
def receiveParts : List Bytes → Job (Bytes × Bool)
  | [] => return ([], true)
  | c :: r => do
    if ← stopped then return ([], false)
    let (rest, whole) ← receiveParts r
    return (c ++ rest, whole)

def receive (answer : Answer) (partialFile : String) : Job Bool := do
  writeFile partialFile []
  let (data, whole) ← receiveParts answer.chunks
  writeFile partialFile data
  return whole

def withExtension (p : Path) (extension : String) : Job Path :=
  match p.withExtension? extension with
  | some q => return q
  | none => throw (.noName p.text)

def replaceFile (source target : String) : Job Unit :=
  change (·.rename source target)

/-! ## Downloads -/

inductive Try where
  | done
  | stopped
  | failed (f : NetworkFault)

def deliver (answer : Answer) (dest : Path) : Job Try := do
  let partialFile ← withExtension dest ".part"
  makePath dest.parent
  if ← receive answer partialFile.text then
    replaceFile partialFile.text dest.text
    return .done
  else
    warn ("[STOP] Interrupted during " ++ dest.name)
    return .stopped

def tryDownload (url : String) (dest : Path) (range : Option String) : Job Try := do
  match ← attempt (fetch url range) with
  | .error (.network f) => return .failed f
  | .error f => throw f
  | .ok answer => deliver answer dest

def downloadFrom (url : String) (dest : Path) (range : Option String) (n : Int) :
    Nat → Nat → Job Bool
  | 0, _ => return false
  | left + 1, i => do
    if ← stopped then
      warn ("[STOP] Aborting download of " ++ dest.name)
      return false
    match ← tryDownload url dest range with
    | .done =>
      note ("[OK] " ++ dest.name)
      return true
    | .stopped => return false
    | .failed f =>
      complain ("[" ++ Decimal.nat (i + 1) ++ "/" ++ Decimal.int n ++ "] failed: " ++ dest.name ++
        " (" ++ f.message ++ ")")
      downloadFrom url dest range n left (i + 1)

def downloadFile (url : String) (dest : Path) (tries : Int := 3) (range : Option String := none) :
    Job Bool :=
  downloadFrom url dest range tries tries.toNat 0

/-! ## Pools -/

def checkWorkers : Doc → Job Unit
  | .int i => if i ≤ 0 then throw .noWorkers else return
  | .bool b => if b then return else throw .noWorkers
  | .real x => if x.isNegative || x.isZero then throw .noWorkers else return
  | .null => return
  | d => throw (.shape (.notCompared d.kind))

def runTasks {α β : Type} (task : α → Job β) : List α → Job (List (Except Fault β))
  | [] => return []
  | a :: r => do
    let result ← attempt (task a)
    return result :: (← runTasks task r)

/-- Downloads named files from an address into a directory, as tasks; how each ended. A name that is
no text ends the row. -/
def downloadNamed (address : String) (dir : Path) : List Doc → Job (List (Except Fault Bool))
  | [] => return []
  | .str s :: r => do
    let result ← attempt (downloadFile (address ++ s) (dir.child (Path.ofString s).name))
    return result :: (← downloadNamed address dir r)
  | d :: _ => throw (.shape (.notText d.kind))

def firstFault {α : Type} : List (Except Fault α) → Job Unit
  | [] => return
  | .ok _ :: r => firstFault r
  | .error f :: _ => throw f

/-- Downloads named files from an address into a directory, whatever the stop sign says. -/
def downloadAll (address : String) (names : List Doc) (dir : Path) (workers : Doc := .int 8) :
    Job Unit := do
  makePath dir
  checkWorkers workers
  firstFault (← unstoppable (downloadNamed address dir names))

end Salvage.Update
