import Salvage.Bytes.Hex
import Salvage.Number.Decimal

/-!
# UTF-8 with faults

Texts inside damaged files are read in three ways: strictly, where the first malformed sequence is
reported with its position and cause; by skipping malformed sequences; and by writing one
replacement character for each. All three cut the octets in the same way, and the cut of a
malformed sequence is the longest one that could still have become a character.
-/

namespace Salvage.Utf8

/-! ## Malformed sequences -/

inductive Cause where
  | invalidStart
  | invalidContinuation
  | unexpectedEnd
deriving DecidableEq

def Cause.message : Cause → String
  | .invalidStart => "invalid start byte"
  | .invalidContinuation => "invalid continuation byte"
  | .unexpectedEnd => "unexpected end of data"

structure Fault where
  position : Nat
  octets : Bytes
  cause : Cause
deriving DecidableEq

/-! ## Lead octets -/

/-- What a lead octet announces: how many octets continue it, and the range of the first one. -/
structure Lead where
  tail : Nat
  low : UInt8
  high : UInt8

def lead? (b : UInt8) : Option Lead :=
  if 0xC2 ≤ b ∧ b ≤ 0xDF then some ⟨1, 0x80, 0xBF⟩
  else if b = 0xE0 then some ⟨2, 0xA0, 0xBF⟩
  else if b = 0xED then some ⟨2, 0x80, 0x9F⟩
  else if 0xE1 ≤ b ∧ b ≤ 0xEF then some ⟨2, 0x80, 0xBF⟩
  else if b = 0xF0 then some ⟨3, 0x90, 0xBF⟩
  else if 0xF1 ≤ b ∧ b ≤ 0xF3 then some ⟨3, 0x80, 0xBF⟩
  else if b = 0xF4 then some ⟨3, 0x80, 0x8F⟩
  else none

def leadBits (b : UInt8) (tail : Nat) : Nat :=
  match tail with
  | 1 => b.toNat % 32
  | 2 => b.toNat % 16
  | _ => b.toNat % 8

/-! ## The cut -/

inductive Piece where
  | char (c : Char)
  | bad (octets : Bytes) (cause : Cause)

/-- What remains after `n` continuation octets of a character whose code so far is `code`, whose
octets so far are `seen`, and whose next octet must lie between `low` and `high`. -/
def continuation : Nat → Nat → Bytes → UInt8 → UInt8 → Bytes → Piece × Bytes
  | 0, code, _, _, _, rest => (.char (Char.ofNat code), rest)
  | _ + 1, _, seen, _, _, [] => (.bad seen .unexpectedEnd, [])
  | n + 1, code, seen, low, high, b :: rest =>
    if low ≤ b ∧ b ≤ high then
      continuation n (64 * code + b.toNat % 64) (seen ++ [b]) 0x80 0xBF rest
    else (.bad seen .invalidContinuation, b :: rest)

def piece (b : UInt8) (rest : Bytes) : Piece × Bytes :=
  if b < 0x80 then (.char (Char.ofNat b.toNat), rest)
  else
    match lead? b with
    | none => (.bad [b] .invalidStart, rest)
    | some l => continuation l.tail (leadBits b l.tail) [b] l.low l.high rest

theorem length_continuation (n code : Nat) (seen : Bytes) (low high : UInt8) (rest : Bytes) :
    (continuation n code seen low high rest).2.length ≤ rest.length := by
  induction n generalizing code seen low high rest with
  | zero => simp [continuation]
  | succ n ih =>
    cases rest with
    | nil => simp [continuation]
    | cons b rest =>
      simp only [continuation]
      split
      · exact Nat.le_succ_of_le (ih _ _ _ _ _)
      · simp

theorem length_piece (b : UInt8) (rest : Bytes) : (piece b rest).2.length ≤ rest.length := by
  unfold piece
  split
  · simp
  · split
    · simp
    · exact length_continuation _ _ _ _ _ _

def pieces : Bytes → List Piece
  | [] => []
  | b :: rest => (piece b rest).1 :: pieces (piece b rest).2
termination_by b => b.length
decreasing_by
  have := length_piece b rest
  simp only [List.length_cons]
  omega

/-! ## The three readings -/

def width (c : Char) : Nat :=
  c.utf8Size

def strict (at' : Nat) : List Piece → Except Fault (List Char)
  | [] => .ok []
  | .bad octets cause :: _ => .error ⟨at', octets, cause⟩
  | .char c :: r => (strict (at' + width c) r).map (c :: ·)

/-- The text that the octets spell, or the first malformed sequence. -/
def decode (b : Bytes) : Except Fault String :=
  (strict 0 (pieces b)).map String.ofList

def decodeSkipping (b : Bytes) : String :=
  String.ofList ((pieces b).filterMap fun
    | .char c => some c
    | .bad _ _ => none)

/-- The text that the octets spell, with a replacement character for each malformed sequence. -/
def decodeReplacing (b : Bytes) : String :=
  String.ofList ((pieces b).map fun
    | .char c => c
    | .bad _ _ => Char.ofNat 0xFFFD)

def encode (s : String) : Bytes :=
  Bytes.ofString s

def Fault.message (f : Fault) : String :=
  match f.octets with
  | [b] =>
    "'utf-8' codec can't decode byte 0x" ++ Hex.encode [b] ++ " in position " ++
      Decimal.nat f.position ++ ": " ++ f.cause.message
  | bs =>
    "'utf-8' codec can't decode bytes in position " ++ Decimal.nat f.position ++ "-" ++
      Decimal.nat (f.position + bs.length - 1) ++ ": " ++ f.cause.message

end Salvage.Utf8
