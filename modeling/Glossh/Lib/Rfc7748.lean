/-
# X25519 as RFC 7748 defines it

The functions of RFC 7748 section 5 for curve25519, in the RFC's words: decoding of scalars and
u-coordinates, the ladder over the integers modulo `2 ^ 255 - 19`, and the encoding of its result.
-/
import Glossh.Lib.Bytes
import Mathlib.Data.ZMod.Basic

namespace Glossh
namespace Rfc7748

open Bytes

/-- §4.1: the prime. -/
def p : ℕ := 2 ^ 255 - 19

instance neZeroP : NeZero p := ⟨by decide⟩

/-- The integers modulo `p`. -/
abbrev F := ZMod p

/-- §4.1: `(A - 2) / 4`. -/
def a24 : F := 121665

/-- §5: `decodeScalar25519`. -/
def decodeScalar25519 (k : Bytes) : ℕ :=
  ofLe (((k.modify 0 (· &&& 248)).modify 31 (· &&& 127)).modify 31 (· ||| 64))

/-- §5: `decodeUCoordinate`: the unused top bit is masked, and values from `p` on are accepted. -/
def decodeUCoordinate (u : Bytes) : F := ((ofLe u % 2 ^ 255 : ℕ) : F)

/-- §5: `encodeUCoordinate`. -/
def encodeUCoordinate (u : F) : Bytes := leBytes 32 u.val

/-- The variables of the ladder. -/
structure Ladder where
  x2 : F
  z2 : F
  x3 : F
  z3 : F
  swap : Bool

/-- The conditional swaps of the ladder. -/
def Ladder.cswap (s : Ladder) (b : Bool) : Ladder :=
  if b then { s with x2 := s.x3, z2 := s.z3, x3 := s.x2, z3 := s.z2 } else s

/-- One turn of the loop, for bit `t` of the scalar. -/
def ladderStep (k : ℕ) (x1 : F) (s : Ladder) (t : ℕ) : Ladder :=
  let kt := k.testBit t
  let s := s.cswap (s.swap ^^ kt)
  let A := s.x2 + s.z2
  let AA := A ^ 2
  let B := s.x2 - s.z2
  let BB := B ^ 2
  let E := AA - BB
  let C := s.x3 + s.z3
  let D := s.x3 - s.z3
  let DA := D * A
  let CB := C * B
  { x3 := (DA + CB) ^ 2, z3 := x1 * (DA - CB) ^ 2, x2 := AA * BB, z2 := E * (AA + a24 * E)
    swap := kt }

/-- The bits of a scalar from the top, `255` of them. -/
def bitPositions : List ℕ := (List.range 255).reverse

/-- §5: the function X25519 of a scalar and a u-coordinate. -/
def ladder (k : ℕ) (u : F) : F :=
  let s := bitPositions.foldl (ladderStep k u) { x2 := 1, z2 := 0, x3 := u, z3 := 1, swap := false }
  let s := s.cswap s.swap
  s.x2 * s.z2 ^ (p - 2)

/-- §5: X25519 on the bytes. -/
def x25519 (k u : Bytes) : Bytes :=
  encodeUCoordinate (ladder (decodeScalar25519 k) (decodeUCoordinate u))

end Rfc7748
end Glossh
