import Salvage.Bytes.Basic

/-!
# RC4

The cipher keeps an arrangement of the octets. The key mixes the arrangement once; after that each
step moves two octets and gives one octet of the key stream, which does not depend on the data.
-/

namespace Salvage

structure Rc4 where
  box : Vector UInt8 256
  i : UInt8 := 0
  j : UInt8 := 0

namespace Rc4

def identityBox : Vector UInt8 256 :=
  Vector.ofFn fun k => UInt8.ofNat k.val

def read (box : Vector UInt8 256) (k : UInt8) : UInt8 :=
  box.get k.toFin

def exchange (box : Vector UInt8 256) (a b : UInt8) : Vector UInt8 256 :=
  box.swap a.toNat b.toNat a.toNat_lt b.toNat_lt

def mix (key : Nat → UInt8) : Nat → UInt8 → Vector UInt8 256 → Vector UInt8 256
  | 0, _, box => box
  | n + 1, j, box =>
    let k := UInt8.ofNat (255 - n)
    let j := j + read box k + key (255 - n)
    mix key n j (exchange box k j)

def schedule (key : Nat → UInt8) : Rc4 :=
  { box := mix key 256 0 identityBox }

def ofKey (key : Bytes) : Rc4 :=
  schedule fun i => key.getD (i % key.length) 0

def next (r : Rc4) : UInt8 × Rc4 :=
  let i := r.i + 1
  let si := read r.box i
  let j := r.j + si
  let sj := read r.box j
  let box := exchange r.box i j
  (read box (si + sj), { box := box, i := i, j := j })

def stream : Nat → Rc4 → Bytes
  | 0, _ => []
  | n + 1, r => r.next.1 :: stream n r.next.2

def apply (r : Rc4) : Bytes → Bytes
  | [] => []
  | b :: rest =>
    let (k, r) := r.next
    (b ^^^ k) :: apply r rest

end Rc4

end Salvage
