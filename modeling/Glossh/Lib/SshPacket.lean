/-
# The SSH binary packet protocol with chacha20-poly1305@openssh.com

RFC 4253 §6: a packet is its length, the length of its padding, a payload and the padding; the
padding brings what the cipher covers to a multiple of the block size.  `Packet` carries those
conditions, so that a packet that could not be sent cannot be built.

The cipher encrypts the length and the rest under two keys with the packet's sequence number as
nonce and authenticates both ciphertexts; the length is not counted in the alignment.
-/
import Glossh.Lib.Rfc8439

namespace Glossh
namespace SshPacket

open Bytes

/-- The size of the cipher's blocks as far as padding is concerned. -/
def blockSize : ℕ := 8

/-- The payload of a packet with the padding its sender chose. -/
structure Packet where
  payload : Bytes
  padding : Bytes
  payload_pos : 0 < payload.length
  padding_min : 4 ≤ padding.length
  padding_max : padding.length ≤ 255
  aligned : blockSize ∣ 1 + payload.length + padding.length

/-- The field `packet_length`. -/
def Packet.packetLength (p : Packet) : ℕ := 1 + p.payload.length + p.padding.length

/-- What follows the field `packet_length`. -/
def Packet.body (p : Packet) : Bytes :=
  UInt8.ofNat p.padding.length :: (p.payload ++ p.padding)

@[simp] theorem Packet.length_body (p : Packet) : p.body.length = p.packetLength := by
  simp only [Packet.body, Packet.packetLength, List.length_cons, List.length_append]
  omega

theorem Packet.packetLength_pos (p : Packet) : 0 < p.packetLength := by
  rw [Packet.packetLength]
  omega

/-- A stream cipher with an 8-byte nonce and a one-time authenticator. -/
structure Cipher where
  keystream : Vector UInt8 8 → Vector UInt8 32 → ℕ → UInt8
  auth : Bytes → Vector UInt8 32 → Vector UInt8 16

/-- ChaCha20 with a 64-bit block counter, the high half of which stands where RFC 8439 has the
first word of its nonce, and Poly1305. -/
def chacha20Poly1305 : Cipher where
  keystream nonce key i := Rfc8439.keystream key (UInt32.ofNat (i / 64))
    (toVector 12 (leBytes 4 (i / 64 / 2 ^ 32) ++ nonce.toList)) (i % 64)
  auth := Rfc8439.poly1305

/-- The two keys of one direction. -/
structure Keys where
  main : Vector UInt8 32
  header : Vector UInt8 32

/-- The sequence number of a packet as a nonce. -/
def nonceOf (seq : UInt32) : Vector UInt8 8 :=
  toVector 8 (List.replicate 4 0 ++ beBytes 4 seq.toNat)

section

variable (C : Cipher) (keys : Keys) (seq : UInt32) (p : Packet)

/-- The encrypted field `packet_length`. -/
def sealedLength : Bytes :=
  xorWith (C.keystream (nonceOf seq) keys.header) (beBytes 4 p.packetLength)

/-- The encrypted rest: the keystream of block 1 on. -/
def sealedBody : Bytes :=
  xorWith (advance (C.keystream (nonceOf seq) keys.main) 64) p.body

/-- The one-time key: the first half of block 0. -/
def oneTimeKey : Vector UInt8 32 :=
  toVector 32 ((List.range 32).map (C.keystream (nonceOf seq) keys.main))

/-- The tag over both ciphertexts. -/
def tag : Vector UInt8 16 :=
  C.auth (sealedLength C keys seq p ++ sealedBody C keys seq p) (oneTimeKey C keys seq)

/-- A packet on the wire. -/
def sealPacket : Bytes :=
  sealedLength C keys seq p ++ sealedBody C keys seq p ++ (tag C keys seq p).toList

@[simp] theorem length_sealedLength : (sealedLength C keys seq p).length = 4 := by
  rw [sealedLength, length_xorWith, length_beBytes]

@[simp] theorem length_sealedBody : (sealedBody C keys seq p).length = p.packetLength := by
  rw [sealedBody, length_xorWith, Packet.length_body]

theorem length_sealPacket : (sealPacket C keys seq p).length = p.packetLength + 20 := by
  rw [sealPacket, List.length_append, List.length_append, length_sealedLength, length_sealedBody,
    Vector.length_toList]
  omega

/-- The length field is read back with the header key. -/
theorem ofBe_sealedLength (h : p.packetLength < 256 ^ 4) :
    ofBe (xorWith (C.keystream (nonceOf seq) keys.header) (sealedLength C keys seq p)) =
      p.packetLength := by
  rw [sealedLength, xorWith_xorWith, ofBe_beBytes, Nat.mod_eq_of_lt h]

/-- What a receiver of `wire` reads as the field `packet_length`. -/
def openLength (wire : Bytes) : ℕ :=
  ofBe (xorWith (C.keystream (nonceOf seq) keys.header) (wire.take 4))

/-- What it decrypts behind this field. -/
def openBody (wire : Bytes) : Bytes :=
  xorWith (advance (C.keystream (nonceOf seq) keys.main) 64)
    ((wire.drop 4).take (openLength C keys seq wire))

theorem openLength_sealPacket (h : p.packetLength < 256 ^ 4) (rest : Bytes) :
    openLength C keys seq (sealPacket C keys seq p ++ rest) = p.packetLength := by
  have hfront : (sealPacket C keys seq p ++ rest).take 4 = sealedLength C keys seq p := by
    rw [sealPacket, List.append_assoc, List.append_assoc]
    exact List.take_left' (length_sealedLength C keys seq p)
  rw [openLength, hfront, ofBe_sealedLength C keys seq p h]

theorem openBody_sealPacket (h : p.packetLength < 256 ^ 4) (rest : Bytes) :
    openBody C keys seq (sealPacket C keys seq p ++ rest) = p.body := by
  have hmiddle : ((sealPacket C keys seq p ++ rest).drop 4).take p.packetLength =
      sealedBody C keys seq p := by
    rw [sealPacket, List.append_assoc, List.append_assoc,
      List.drop_left' (length_sealedLength C keys seq p)]
    exact List.take_left' (length_sealedBody C keys seq p)
  rw [openBody, openLength_sealPacket C keys seq p h, hmiddle, sealedBody, xorWith_xorWith]

/-- What a sender writes: packets with consecutive sequence numbers. -/
def sealStream (seq : UInt32) : List Packet → Bytes
  | [] => []
  | p :: l => sealPacket C keys seq p ++ sealStream (seq + 1) l

end

end SshPacket
end Glossh
