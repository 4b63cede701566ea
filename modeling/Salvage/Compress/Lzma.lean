import Salvage.Bytes.Basic

/-!
# LZMA files

A file has a header of thirteen octets, the properties, the size of the window and the length of the
text, and then a stream of literals and copies whose bits are coded by their probabilities. A text
of unknown length ends at an end mark. Files may follow each other.
-/

namespace Salvage.Lzma

inductive Fault where
  | header
  | invalid
  | short

def Fault.message : Fault → String
  | header => "Input format not supported by decoder"
  | invalid => "Corrupt input data"
  | short => "Compressed data ended before the end-of-stream marker was reached"

/-! ## Probabilities -/

def isMatchAt (state position : Nat) : Nat := 16 * state + position
def isRepeatAt (state : Nat) : Nat := 192 + state
def isOlderAt (state : Nat) : Nat := 204 + state
def isThirdAt (state : Nat) : Nat := 216 + state
def isFourthAt (state : Nat) : Nat := 228 + state
def isLongAt (state position : Nat) : Nat := 240 + 16 * state + position
def slotsAt (kind : Nat) : Nat := 432 + 64 * kind
def lowBitsAt : Nat := 688
def lowestBitsAt : Nat := 816
def lengthsAt : Nat := 832
def repeatLengthsAt : Nat := 1346
def literalsAt : Nat := 1860

/-! ## Decoding -/

/-- The numbers in the properties: the high bits of the octet before, the low bits of the position,
and the bits of the position, on which the probabilities depend. -/
structure Properties where
  before : Nat
  low : Nat
  position : Nat

structure Decoder where
  rest : Bytes
  range : UInt32 := 0xFFFFFFFF
  code : UInt32
  odds : Array UInt16
  output : Array UInt8 := #[]
  state : Nat := 0
  last : Nat := 0
  second : Nat := 0
  third : Nat := 0
  fourth : Nat := 0

abbrev Decode := EStateM Fault Decoder

namespace Decode

def normalize : Decode Unit := fun d =>
  if d.range < 0x1000000 then
    match d.rest with
    | [] => .error .short d
    | b :: r => .ok () { d with rest := r, range := d.range <<< 8, code := (d.code <<< 8) ||| b.toUInt32 }
  else .ok () d

def bit (i : Nat) : Decode Bool := do
  normalize
  modifyGet fun (d : Decoder) =>
    let odds := d.odds.getD i 1024
    let bound := (d.range >>> 11) * odds.toUInt32
    if d.code < bound then
      (false, { d with range := bound, odds := d.odds.setIfInBounds i (odds + ((2048 - odds) >>> 5)) })
    else
      (true, { d with range := d.range - bound, code := d.code - bound
                      odds := d.odds.setIfInBounds i (odds - (odds >>> 5)) })

def bitNat (i : Nat) : Decode Nat := do
  return if ← bit i then 1 else 0

def evenBits : Nat → UInt32 → Decode UInt32
  | 0, v => pure v
  | n + 1, v => do
    normalize
    let b ← modifyGet fun (d : Decoder) =>
      let range := d.range >>> 1
      let code := d.code - range
      if code >>> 31 = 0 then ((1 : UInt32), { d with range := range, code := code })
      else (0, { d with range := range, code := code + range })
    evenBits n (2 * v + b)

/-- A number of `n` bits, its high bit first, each bit with a probability for the bits before it;
`node` stands for the bits that have been read. -/
def treeFrom (base : Nat) : Nat → Nat → Decode Nat
  | 0, node => pure node
  | n + 1, node => do treeFrom base n (2 * node + (← bitNat (base + node)))

def tree (base n : Nat) : Decode Nat := do
  return (← treeFrom base n 1) - Nat.pow 2 n

/-- A number of `n` bits, its low bit first; `weight` is the value of the next bit. -/
def reverseTree (base : Nat) : Nat → Nat → Nat → Decode Nat
  | 0, _, _ => pure 0
  | n + 1, node, weight => do
    let b ← bitNat (base + node)
    return b * weight + (← reverseTree base n (2 * node + b) (2 * weight))

/-! ## Literals -/

/-- The octet that stands `distance` before the end, zero being the last. -/
def back (distance : Nat) : Decode UInt8 := do
  let d ← get
  return if distance < d.output.size then d.output.getD (d.output.size - 1 - distance) 0 else 0

/-- The bits of a literal after a copy, which depend on the octet that a copy would have given;
`shown` is that octet, moved up, and `offset` is zero once a bit has differed. -/
def matchedFrom (base : Nat) : Nat → Nat → Nat → Nat → Decode Nat
  | 0, node, _, _ => pure node
  | n + 1, node, shown, offset => do
    let expected := shown &&& offset
    let b ← bitNat (base + offset + expected + node)
    let offset := if b = 1 then offset &&& expected else if expected = 0 then offset else 0
    matchedFrom base n (2 * node + b) (2 * shown) offset

def literalBase (p : Properties) : Decode Nat := do
  let size := (← get).output.size
  let previous := (← back 0).toNat
  return literalsAt +
    0x300 * ((size % Nat.pow 2 p.low) * Nat.pow 2 p.before + previous / Nat.pow 2 (8 - p.before))

def literal (p : Properties) : Decode UInt8 := do
  let base ← literalBase p
  let state := (← get).state
  let shown := (← back (← get).last).toNat
  let node ←
    if state < 7 then treeFrom base 8 1 else matchedFrom base 8 1 (2 * shown) 0x100
  return UInt8.ofNat node

def afterLiteral (state : Nat) : Nat :=
  if state < 4 then 0 else if state < 10 then state - 3 else state - 6

/-! ## Copies -/

def length (base position : Nat) : Decode Nat := do
  if !(← bit base) then return 2 + (← tree (base + 2 + 8 * position) 3)
  if !(← bit (base + 1)) then return 10 + (← tree (base + 130 + 8 * position) 3)
  return 18 + (← tree (base + 258) 8)

def distance (length : Nat) : Decode Nat := do
  let slot ← tree (slotsAt (min (length - 2) 3)) 6
  if slot < 4 then return slot
  let n := slot / 2 - 1
  let high := 2 + slot % 2
  if slot < 14 then
    let start := high * Nat.pow 2 n
    return start + (← reverseTree (lowBitsAt + start - slot - 1) n 1 1)
  let v ← evenBits (n - 4) (UInt32.ofNat high)
  let low ← reverseTree lowestBitsAt 4 1 1
  return ((v <<< 4) + UInt32.ofNat low).toNat

def copyBack (distance : Nat) : Nat → Array UInt8 → Array UInt8
  | 0, out => out
  | n + 1, out => copyBack distance n (out.push (out.getD (out.size - 1 - distance) 0))

inductive Item where
  | literal (b : UInt8)
  | copy (length : Nat)
  | endMark

/-- The distance of a copy that repeats one, which becomes the last one; whether the copy is of one
octet only. -/
def repeated (position : Nat) : Decode Bool := do
  let state := (← get).state
  if !(← bit (isOlderAt state)) then
    return !(← bit (isLongAt state position))
  if !(← bit (isThirdAt state)) then
    modify fun d => { d with last := d.second, second := d.last }
    return false
  if !(← bit (isFourthAt state)) then
    modify fun d => { d with last := d.third, second := d.last, third := d.second }
    return false
  modify fun d => { d with last := d.fourth, second := d.last, third := d.second, fourth := d.third }
  return false

/-- The next item; copies look back at most `window` octets. -/
def item (p : Properties) (window : Nat) : Decode Item := do
  let state := (← get).state
  let size := (← get).output.size
  let position := size % Nat.pow 2 p.position
  if !(← bit (isMatchAt state position)) then
    let b ← literal p
    modify fun d => { d with state := afterLiteral d.state }
    return .literal b
  if !(← bit (isRepeatAt state)) then
    let n ← length lengthsAt position
    let far ← distance n
    modify fun d =>
      { d with last := far, second := d.last, third := d.second, fourth := d.third
               state := if d.state < 7 then 7 else 10 }
    if far = 0xFFFFFFFF then return .endMark
    if min size window ≤ far then throw .invalid
    return .copy n
  if size = 0 then throw .invalid
  if ← repeated position then
    modify fun d => { d with state := if d.state < 7 then 9 else 11 }
    return .copy 1
  let n ← length repeatLengthsAt position
  modify fun d => { d with state := if d.state < 7 then 8 else 11 }
  return .copy n

/-! ## Streams -/

def finish : Decode Unit := do
  normalize
  if (← get).code ≠ 0 then throw .invalid

/-- Items up to the end of a text of a known length or up to the end mark; at most `fuel` items. A
text of a known length may have an end mark as well. -/
def items (p : Properties) (window : Nat) (size : Option Nat) : Nat → Decode Unit
  | 0 => throw .short
  | fuel + 1 => do
    let room := size.map (· - (← get).output.size)
    if room = some 0 then
      normalize
      if (← get).code = 0 then return
    match ← item p window with
    | .endMark => if room.getD 0 = 0 then finish else throw .invalid
    | .literal b =>
      if room = some 0 then throw .invalid
      modify fun d => { d with output := d.output.push b }
      items p window size fuel
    | .copy n =>
      match room with
      | some m => if m < n then throw .invalid
      | none => pure ()
      modify fun d => { d with output := copyBack d.last n d.output }
      items p window size fuel

end Decode

/-! ## Files -/

def Properties.ofNat? (n : Nat) : Option Properties :=
  let p : Properties := ⟨n % 9, n / 9 % 5, n / 45⟩
  if n < 225 ∧ p.before + p.low ≤ 4 then some p else none

/-- Whether a window has a size that is written: a power of two, half as much again, or the
greatest number. -/
def isWindow (n : Nat) : Bool :=
  n == 0xFFFFFFFF || (List.range 32).any fun k =>
    n == Nat.pow 2 k || n == Nat.pow 2 k + Nat.pow 2 (k - 1)

def windowOf (n : Nat) : Nat :=
  (max n 4096 + 15) / 16 * 16

def file (b : Bytes) : Except Fault (Bytes × Bytes) := do
  match b with
  | [] => throw .short
  | first :: _ =>
    let some p := Properties.ofNat? first.toNat | throw .header
    if b.length < 5 then throw .short
    let window := Bytes.littleEndian (Bytes.window b 1 4)
    if !isWindow window then throw .header
    if b.length < 14 then throw .short
    let size := Bytes.littleEndian (Bytes.window b 5 8)
    if b.getD 13 0 ≠ 0 then throw .invalid
    if b.length < 18 then throw .short
    let rest := b.drop 18
    let start : Decoder :=
      { rest := rest, code := UInt32.ofNat (Bytes.bigEndian (Bytes.window b 14 4))
        odds := Array.replicate (literalsAt + 0x300 * Nat.pow 2 (p.before + p.low)) 1024 }
    let known := if size = 0xFFFFFFFFFFFFFFFF then none else some size
    match (Decode.items p (windowOf window) known (400 * (rest.length + 5))).run start with
    | .ok _ d => return (d.output.toList, d.rest)
    | .error f _ => throw f

def further : Nat → Bytes → Except Fault Bytes
  | 0, _ => .ok []
  | _ + 1, [] => .ok []
  | fuel + 1, b =>
    match file b with
    | .error .short => .error .short
    | .error _ => .ok []
    | .ok (text, rest) => do return text ++ (← further fuel rest)

def decompress (b : Bytes) : Except Fault Bytes := do
  let (text, rest) ← file b
  return text ++ (← further b.length rest)

end Salvage.Lzma
