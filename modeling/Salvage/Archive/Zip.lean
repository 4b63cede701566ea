import Salvage.Compress.Inflate
import Salvage.Digest.Polynomial
import Salvage.Text.Quoted
import Salvage.Text.Utf8

/-!
# Zip archives

An archive ends with a record that says where its directory is. The directory lists the members: how
each is called, where its own header is, and how it is stored.
-/

namespace Salvage

inductive Zip.Fault where
  | notZip
  | directoryOffset
  | shortDirectory
  | badDirectory
  | noMember (name : String)
  | shortHeader
  | badHeader
  | otherName (listed : String) (found : Bytes)
  | encrypted (name : String)
  | method
  | stream (f : Inflate.Fault)
  | shortMember
  | checksum (name : String)
  | name (f : Utf8.Fault)

structure Zip.Member where
  name : String
  flags : Nat
  method : Nat
  checksum : Nat
  stored : Nat
  size : Nat
  offset : Nat

structure Zip where
  data : Bytes
  members : List Zip.Member

namespace Zip

def Fault.message : Fault → String
  | notZip => "File is not a zip file"
  | directoryOffset => "Bad offset for central directory"
  | shortDirectory => "Truncated central directory"
  | badDirectory => "Bad magic number for central directory"
  | noMember n => Quoted.text ("There is no item named " ++ Quoted.text n ++ " in the archive")
  | shortHeader => "Truncated file header"
  | badHeader => "Bad magic number for file header"
  | otherName listed found =>
    "File name in directory " ++ Quoted.text listed ++ " and header " ++ Quoted.octets found ++
      " differ."
  | encrypted n => "File " ++ Quoted.text n ++ " is encrypted, password required for extraction"
  | method => "That compression method is not supported"
  | stream f => "Error -3 while decompressing data: " ++ f.message
  | shortMember => ""
  | checksum n => "Bad CRC-32 for file " ++ Quoted.text n
  | name _ => "invalid name"

/-! ## The directory -/

def endMark : Bytes := [0x50, 0x4B, 5, 6]

def lineMark : Bytes := [0x50, 0x4B, 1, 2]

def headerMark : Bytes := [0x50, 0x4B, 3, 4]

def number (b : Bytes) (i n : Nat) : Nat :=
  Bytes.littleEndian (Bytes.window b i n)

def findLast? (p : Bytes) : Nat → Bytes → Option Nat
  | _, [] => none
  | at', c :: r =>
    match findLast? p (at' + 1) r with
    | some i => some i
    | none => if p.isPrefixOf (c :: r) then some at' else none

def endRecord? (b : Bytes) : Option Nat :=
  if b.length < 22 then none
  else
    let i := b.length - 22
    let last := b.drop i
    if endMark.isPrefixOf last ∧ last.drop 20 = [0, 0] then some i
    else
      let from' := b.length - (65536 + 22)
      match findLast? endMark from' (b.drop from') with
      | some i => if i + 22 ≤ b.length then some i else none
      | none => none

def highCharacters : Array Char :=
  ("ÇüéâäàåçêëèïîìÄÅÉæÆôöòûùÿÖÜ¢£¥₧ƒáíóúñÑªº¿⌐¬½¼¡«»░▒▓│┤╡╢╖╕╣║╗╝╜╛┐└┴┬├─┼╞╟╚╔╩╦╠═╬╧╨╤╥╙╘╒╓╫╪┘┌█▄▌▐▀" ++
    "αßΓπΣσµτΦΘΩδ∞φε∩≡±≥≤⌠⌡÷≈°∙·√ⁿ²■ ").toList.toArray

def nameChar (b : UInt8) : Char :=
  if b < 128 then Char.ofNat b.toNat else highCharacters.getD (b.toNat - 128) '?'

def nameOf (flags : Nat) (b : Bytes) : Except Fault String :=
  if flags / 0x800 % 2 = 1 then (Utf8.decode b).mapError .name
  else .ok (String.ofList (b.map nameChar))

def upToZero (s : String) : String :=
  String.ofList (s.toList.takeWhile (· != '\x00'))

/-- The lines of a directory of `size` octets, of which `done` have been read; `shift` is added to
the places of headers. At most `fuel` lines. -/
def lines (size shift : Nat) : Nat → Nat → Bytes → Except Fault (List Member)
  | 0, _, _ => .ok []
  | fuel + 1, done, b =>
    if size ≤ done then .ok []
    else if b.length < 46 then .error .shortDirectory
    else if !lineMark.isPrefixOf b then .error .badDirectory
    else do
      let n := number b 28 2
      let flags := number b 8 2
      let name ← nameOf flags (Bytes.window b 46 n)
      let length := 46 + n + number b 30 2 + number b 32 2
      let m : Member :=
        { name := upToZero name, flags := flags, method := number b 10 2, checksum := number b 16 4
          stored := number b 20 4, size := number b 24 4, offset := number b 42 4 + shift }
      return m :: (← lines size shift fuel (done + length) (b.drop length))

def ofBytes (b : Bytes) : Except Fault Zip := do
  let some i := endRecord? b | throw .notZip
  let size := number b (i + 12) 4
  let offset := number b (i + 16) 4
  if i < size then throw .directoryOffset
  let start := i - size
  let shift := start - offset
  if start < offset then throw .directoryOffset
  return ⟨b, ← lines size shift b.length 0 (Bytes.window b start size)⟩

def names (z : Zip) : List String :=
  z.members.map Member.name

/-! ## Members -/

def member? (z : Zip) (name : String) : Option Member :=
  z.members.foldl (fun found m => if m.name = name then some m else found) none

def bodyOf (z : Zip) (m : Member) : Except Fault Bytes := do
  let header := Bytes.window z.data m.offset 30
  if header.length < 30 then throw .shortHeader
  if !headerMark.isPrefixOf header then throw .badHeader
  let n := number header 26 2
  let rest := z.data.drop (m.offset + 30)
  let name := rest.take n
  let found ← nameOf (number header 6 2) name
  if upToZero found ≠ m.name then throw (.otherName m.name name)
  if m.flags % 2 = 1 then throw (.encrypted m.name)
  if m.method ≠ 0 ∧ m.method ≠ 8 then throw .method
  return rest.drop (n + number header 28 2)

def checked (m : Member) (b : Bytes) : Except Fault Bytes :=
  if (Crc32.checksum b).toNat = m.checksum then .ok b else .error (.checksum m.name)

def unpack (m : Member) (body : Bytes) : Except Fault Bytes :=
  if m.method = 0 then
    if body.length < m.stored then .error .shortMember else checked m (body.take m.stored)
  else
    let r := inflate (body.take m.stored)
    match r.halt with
    | some (.invalid f) => .error (.stream f)
    | some .short => .error .shortMember
    | none => checked m (r.output.take m.size)

def locate (z : Zip) (name : String) : Except Fault (Member × Bytes) :=
  match z.member? name with
  | some m => do return (m, ← z.bodyOf m)
  | none => .error (.noMember name)

def read (z : Zip) (name : String) : Except Fault Bytes := do
  let (m, body) ← z.locate name
  unpack m body

/-! ## Writing -/

def flagsOf (name : String) : Nat :=
  if name.toList.all (·.toNat < 128) then 0 else 0x800

def common (name : String) (data : Bytes) : Bytes :=
  Bytes.ofLittleEndian 2 20 ++ Bytes.ofLittleEndian 2 (flagsOf name) ++ Bytes.ofLittleEndian 2 0 ++
    Bytes.ofLittleEndian 2 0 ++ Bytes.ofLittleEndian 2 0x21 ++
    Bytes.ofLittleEndian 4 (Crc32.checksum data).toNat ++ Bytes.ofLittleEndian 4 data.length ++
    Bytes.ofLittleEndian 4 data.length ++ Bytes.ofLittleEndian 2 (Utf8.encode name).length ++
    Bytes.ofLittleEndian 2 0

def entry (name : String) (data : Bytes) : Bytes :=
  headerMark ++ common name data ++ Utf8.encode name ++ data

def line (offset : Nat) (name : String) (data : Bytes) : Bytes :=
  lineMark ++ [20, 3] ++ common name data ++ List.replicate 6 0 ++
    Bytes.ofLittleEndian 4 0x1800000 ++ Bytes.ofLittleEndian 4 offset ++ Utf8.encode name

/-- The members from `offset` on: their headers and octets, and their lines. -/
def body : Nat → List (String × Bytes) → Bytes × Bytes
  | _, [] => ([], [])
  | offset, (name, data) :: r =>
    let e := entry name data
    let (es, ls) := body (offset + e.length) r
    (e ++ es, line offset name data ++ ls)

def encode (members : List (String × Bytes)) : Bytes :=
  let (es, ls) := body 0 members
  let n := Bytes.ofLittleEndian 2 members.length
  es ++ ls ++ endMark ++ Bytes.ofLittleEndian 4 0 ++ n ++ n ++ Bytes.ofLittleEndian 4 ls.length ++
    Bytes.ofLittleEndian 4 es.length ++ Bytes.ofLittleEndian 2 0

end Zip

end Salvage
