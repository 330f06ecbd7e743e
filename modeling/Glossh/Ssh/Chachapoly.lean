/-
# `port_sshcrypto_cipher_chachapoly.c`: opening a packet in the receive buffer

`chachapoly_packet_get` works in place on `recvbufspace`: 64 bytes of room for the keystream of
block 0, then what was received.  The one-time key is computed into the first 32 bytes, the tag
checked, and the rest of the room and the packet are then decrypted together, so that the packet
meets the keystream of block 1.

`recvbufspace` is followed by `sendbufspace` in `struct tinyssh_packet`; both are one region
here, since the last copy of the function reaches past what was received.
-/
import Glossh.Mtls.Aead
import Glossh.Ssh.Buf
import Glossh.Lib.Region
import Glossh.Lib.SshPacket

namespace Glossh.Ssh

open Bytes SshPacket

/-! ## 1. The receiving half of `struct tinyssh_packet` -/

def PACKET_LIMIT : ℕ := 4096

def PACKET_FULLLIMIT : ℕ := 4300

def PACKET_ZEROBYTES : ℕ := 64

/-- `sizeof recvbufspace`, which is also `recvbuf.alloc`. -/
def RECVBUF_SIZE : ℕ := 4 * PACKET_FULLLIMIT + 1 + PACKET_ZEROBYTES

/-- `sizeof sendbufspace`. -/
def SENDBUF_SIZE : ℕ := 4 * PACKET_FULLLIMIT + 1

/-- `sshcrypto_auth_bytes` once the cipher is selected. -/
def AB : ℕ := 16

/-- What `struct tinyssh_packet` holds for receiving.  `space` is `recvbufspace` and the
`sendbufspace` behind it. -/
structure TinysshPacket where
  space : Region
  recvlen : ℕ
  packetLength : ℕ
  receivepacketid : UInt32
  clientkey : Vector UInt8 128

namespace TinysshPacket

/-- The state with a call on the buffer made. -/
def withSpace (p : TinysshPacket) (f : Region → Region) : TinysshPacket :=
  { p with space := f p.space }

/-- The 32 bytes of `clientkey` from `off` on, as `sshcrypto_stream_xor` reads them. -/
def keyAt (p : TinysshPacket) (off : ℕ) : Vector UInt8 32 :=
  toVector 32 (slice p.clientkey.toList off 32)

/-- The keys of the client's direction. -/
def clientKeys (p : TinysshPacket) : Keys where
  main := p.keyAt 0
  header := p.keyAt 32

end TinysshPacket

/-- `packet_init`. -/
def packetInit : TinysshPacket where
  space := Region.ofBytes (List.replicate (RECVBUF_SIZE + SENDBUF_SIZE) 0)
  recvlen := 0
  packetLength := 0
  receivepacketid := 0
  clientkey := Vector.replicate 128 0

/-- The first statement of `packet_recv`: room for the keystream is set apart. -/
def recvStart (p : TinysshPacket) : TinysshPacket :=
  if p.recvlen < PACKET_ZEROBYTES then
    { p with recvlen := PACKET_ZEROBYTES, space := p.space.zero 0 PACKET_ZEROBYTES }
  else p

/-- `packet_recvisready`. -/
def packetRecvisready (p : TinysshPacket) : Bool := p.recvlen + PACKET_FULLLIMIT < RECVBUF_SIZE

/-- `packet_recv`: the state after it, and what it returns. -/
def packetRecv (p : TinysshPacket) (r : ReadResult) : TinysshPacket × Bool :=
  let p := recvStart p
  if packetRecvisready p then
    match r.upTo PACKET_FULLLIMIT with
    | .data x =>
      ({ p with space := p.space.write p.recvlen x, recvlen := p.recvlen + x.length }, true)
    | .eof => (p, false)
    | .again => (p, true)
    | .failed => (p, false)
  else (p, true)

/-! ## 2. `chachapoly_packet_get` -/

section

variable (C : Cipher)

/-- The array `n`: `byte_zero`, then `uint32_pack_big`. -/
def packNonce (receivepacketid : UInt32) : Vector UInt8 8 :=
  toVector 8 (overwrite (List.replicate 8 0) 4 (beBytes 4 receivepacketid.toNat))

/-- "parse length": only when no length was parsed before. -/
def parseLength (p : TinysshPacket) : TinysshPacket :=
  if p.packetLength = 0 then
    let buf := xorWith (C.keystream (packNonce p.receivepacketid) (p.keyAt 32))
      (p.space.get PACKET_ZEROBYTES 4)
    { p with
      space := p.space.read PACKET_ZEROBYTES 4
      packetLength := ofBe buf }
  else p

/-- The first 32 bytes become the one-time key. -/
def computeOtk (p : TinysshPacket) : TinysshPacket :=
  p.withSpace fun m =>
    (m.zero 0 32).xor 0 32 (C.keystream (packNonce p.receivepacketid) (p.keyAt 0))

/-- "verify": the comparison of the computed and the received tag. -/
def verifyPacket (p : TinysshPacket) : UInt32 :=
  Mtls.verify
    (C.auth (p.space.get PACKET_ZEROBYTES (p.packetLength + 4)) (toVector 32 (p.space.get 0 32)))
    (toVector 16 (p.space.get (PACKET_ZEROBYTES + p.packetLength + 4) 16))

/-- "decrypt packet": in place, from offset 4 to the end of the packet. -/
def decryptPacket (p : TinysshPacket) : TinysshPacket :=
  p.withSpace fun m =>
    m.xor 4 (p.packetLength + PACKET_ZEROBYTES)
      (C.keystream (packNonce p.receivepacketid) (p.keyAt 0))

/-- The padding length and its byte are no part of the payload. -/
def payloadLength (p : TinysshPacket) : ℤ :=
  (p.packetLength : ℤ) - (((p.space.get (PACKET_ZEROBYTES + 4) 1).headD 0).toNat + 1)

/-- What follows the delivery: the rest of what was received is moved to the front, its old place
purged.  The count `l - packet_length + AB + 4` lacks its parentheses: the copy is 40 bytes
longer than the rest. -/
def removePacket (p : TinysshPacket) : TinysshPacket :=
  let pp := PACKET_ZEROBYTES
  let l := p.recvlen - PACKET_ZEROBYTES
  { p with
    space :=
      (((p.space.copy pp (l - p.packetLength + AB + 4) (pp + p.packetLength + AB + 4)).zero
        (pp + l - p.packetLength + AB + 4) (p.packetLength + AB + 4)).zero 0 PACKET_ZEROBYTES)
    recvlen := p.recvlen - (p.packetLength + AB + 4)
    receivepacketid := p.receivepacketid + 1
    packetLength := 0 }

/-- "process packet". -/
def processPacket (p : TinysshPacket) (b : Buf) : Except Exit (TinysshPacket × Buf) :=
  let len := payloadLength p
  if len ≤ 0 then bugProto
  else do
    let b ← b.put (p.space.get (PACKET_ZEROBYTES + 5) len.toNat)
    return (removePacket p, b)

/-- `chachapoly_packet_get`, which always returns 1. -/
def chachapolyPacketGet (p : TinysshPacket) (b : Buf) : Except Exit (TinysshPacket × Buf) :=
  if (p.recvlen : ℤ) - PACKET_ZEROBYTES < 4 then .ok ({ p with packetLength := 0 }, b)
  else
    let p := parseLength C p
    if p.packetLength > PACKET_LIMIT then bugProto
    else if (p.packetLength + AB + 4 : ℤ) > p.recvlen - PACKET_ZEROBYTES then .ok (p, b)
    else
      let p := computeOtk C p
      if verifyPacket C p ≠ 0 then bugProto
      else processPacket (decryptPacket C p) b

/-! ## 3. A buffer that holds received bytes -/

/-- `data` was received and not consumed yet. -/
structure TinysshPacket.Holds (p : TinysshPacket) (data : Bytes) : Prop where
  /-- Both arrays of the structure. -/
  space_length : p.space.bytes.length = RECVBUF_SIZE + SENDBUF_SIZE
  recvlen_eq : p.recvlen = PACKET_ZEROBYTES + data.length
  recvlen_lt : p.recvlen < RECVBUF_SIZE
  data_eq : slice p.space.bytes PACKET_ZEROBYTES data.length = data

/-- `p` is at the front of the packet: its length was not parsed yet, or it was. -/
def TinysshPacket.AtPacket (p : TinysshPacket) (pkt : SshPacket.Packet) : Prop :=
  p.packetLength = 0 ∨ p.packetLength = pkt.packetLength

/-- The parts of the region: room for the keystream, the data, what lies behind. -/
theorem TinysshPacket.Holds.parts {p : TinysshPacket} {data : Bytes} (h : p.Holds data) :
    ∃ z j : Bytes, z.length = PACKET_ZEROBYTES ∧ p.space.bytes = z ++ data ++ j := by
  have hlen := h.space_length
  refine ⟨p.space.bytes.take PACKET_ZEROBYTES,
    p.space.bytes.drop (PACKET_ZEROBYTES + data.length), ?_, ?_⟩
  · rw [List.length_take, hlen]
    decide
  · have hcut := eq_append_slice p.space.bytes PACKET_ZEROBYTES data.length
    rwa [h.data_eq] at hcut

/-- Reading changes no key and no counter. -/
theorem packetRecv_frame (p : TinysshPacket) (r : ReadResult) :
    (packetRecv p r).1.packetLength = p.packetLength ∧
      (packetRecv p r).1.receivepacketid = p.receivepacketid ∧
      (packetRecv p r).1.clientkey = p.clientkey := by
  have hstart : (recvStart p).packetLength = p.packetLength ∧
      (recvStart p).receivepacketid = p.receivepacketid ∧
      (recvStart p).clientkey = p.clientkey := by
    unfold recvStart
    split <;> simp only [and_self]
  by_cases hready : packetRecvisready (recvStart p)
  · simp only [packetRecv, if_pos hready]
    split <;> exact hstart
  · simp only [packetRecv, if_neg hready, hstart, and_self]

/-- **What was read is appended to what was received.** -/
theorem packetRecv_holds {p : TinysshPacket} {data x : Bytes} (h : (recvStart p).Holds data)
    (hready : packetRecvisready (recvStart p) = true) (hne : x ≠ [])
    (hx : x.length ≤ PACKET_FULLLIMIT) :
    (packetRecv p (.data x)).1.Holds (data ++ x) := by
  obtain ⟨z, j, hz, hbytes⟩ := h.parts
  obtain ⟨hlen, hrecv, hlt, -⟩ := h
  have hroom : (recvStart p).recvlen + PACKET_FULLLIMIT < RECVBUF_SIZE := of_decide_eq_true hready
  have hj : j.length = RECVBUF_SIZE + SENDBUF_SIZE - (recvStart p).recvlen := by
    have hsum := congrArg List.length hbytes
    rw [List.length_append, List.length_append, hlen, hz] at hsum
    omega
  have hover : overwrite (recvStart p).space.bytes (recvStart p).recvlen x =
      z ++ (data ++ x) ++ j.drop x.length := by
    have hcut : (recvStart p).space.bytes = z ++ data ++ j.take x.length ++ j.drop x.length := by
      rw [List.append_assoc, List.take_append_drop, hbytes]
    rw [hcut, overwrite_append, List.append_assoc z]
    · rw [List.length_append, hz, hrecv]
    · rw [List.length_take, hj]
      omega
  simp only [packetRecv, if_pos hready, ReadResult.upTo_data hne hx]
  refine ⟨?_, ?_, ?_, ?_⟩
  · rw [Region.bytes_write, length_overwrite (by omega), hlen]
  · simp only [hrecv, List.length_append]
    omega
  · simp only
    omega
  · rw [Region.bytes_write, hover]
    exact slice_append hz rfl

theorem packNonce_eq (seq : UInt32) : packNonce seq = nonceOf seq := by
  have hfill : overwrite (List.replicate 8 0) 4 (beBytes 4 seq.toNat) =
      List.replicate 4 0 ++ beBytes 4 seq.toNat := by
    rw [overwrite, length_beBytes]
    simp
  rw [packNonce, nonceOf, hfill]

@[simp] theorem parseLength_bytes (p : TinysshPacket) :
    (parseLength C p).space.bytes = p.space.bytes := by
  unfold parseLength
  split <;> rfl

@[simp] theorem parseLength_recvlen (p : TinysshPacket) :
    (parseLength C p).recvlen = p.recvlen := by
  unfold parseLength
  split <;> rfl

@[simp] theorem parseLength_receivepacketid (p : TinysshPacket) :
    (parseLength C p).receivepacketid = p.receivepacketid := by
  unfold parseLength
  split <;> rfl

@[simp] theorem parseLength_clientkey (p : TinysshPacket) :
    (parseLength C p).clientkey = p.clientkey := by
  unfold parseLength
  split <;> rfl

@[simp] theorem parseLength_keyAt (p : TinysshPacket) (off : ℕ) :
    (parseLength C p).keyAt off = p.keyAt off := by
  rw [TinysshPacket.keyAt, TinysshPacket.keyAt, parseLength_clientkey]

@[simp] theorem parseLength_clientKeys (p : TinysshPacket) :
    (parseLength C p).clientKeys = p.clientKeys := by
  rw [TinysshPacket.clientKeys, parseLength_keyAt, parseLength_keyAt, TinysshPacket.clientKeys]

theorem computeOtk_frame (p : TinysshPacket) :
    (computeOtk C p).recvlen = p.recvlen ∧ (computeOtk C p).packetLength = p.packetLength ∧
      (computeOtk C p).receivepacketid = p.receivepacketid ∧
      (computeOtk C p).clientkey = p.clientkey := by
  simp only [computeOtk, TinysshPacket.withSpace, and_self]

theorem decryptPacket_frame (p : TinysshPacket) :
    (decryptPacket C p).recvlen = p.recvlen ∧
      (decryptPacket C p).packetLength = p.packetLength ∧
      (decryptPacket C p).receivepacketid = p.receivepacketid ∧
      (decryptPacket C p).clientkey = p.clientkey := by
  simp only [decryptPacket, TinysshPacket.withSpace, and_self]

theorem removePacket_frame (p : TinysshPacket) :
    (removePacket p).packetLength = 0 ∧
      (removePacket p).receivepacketid = p.receivepacketid + 1 ∧
      (removePacket p).clientkey = p.clientkey := by
  simp only [removePacket, and_self]

/-- The keys depend on `clientkey` only. -/
theorem TinysshPacket.clientKeys_congr {p q : TinysshPacket} (h : p.clientkey = q.clientkey) :
    p.clientKeys = q.clientKeys := by
  simp only [TinysshPacket.clientKeys, TinysshPacket.keyAt, h]

/-! ## 4. The steps on a sealed packet -/

variable {C} {p : TinysshPacket} {pkt : SshPacket.Packet} {rest : Bytes}

/-- The length that is parsed is the packet's. -/
theorem parseLength_packetLength
    (h : p.Holds (sealPacket C p.clientKeys p.receivepacketid pkt ++ rest))
    (hat : p.AtPacket pkt) : (parseLength C p).packetLength = pkt.packetLength := by
  rcases hat with h0 | hpl
  · obtain ⟨z, j, hz, hbytes⟩ := h.parts
    have hfit : pkt.packetLength < 256 ^ 4 := by
      have hlt := h.recvlen_lt
      have heq := h.recvlen_eq
      rw [List.length_append, length_sealPacket] at heq
      have hsize : RECVBUF_SIZE < 256 ^ 4 := by decide
      omega
    have hget : p.space.get PACKET_ZEROBYTES 4 =
        sealedLength C p.clientKeys p.receivepacketid pkt := by
      rw [sealPacket] at hbytes
      simp only [List.append_assoc] at hbytes
      rw [← List.append_assoc z] at hbytes
      exact Region.get_append hbytes hz (length_sealedLength ..)
    rw [parseLength, if_pos h0, packNonce_eq, hget]
    exact ofBe_sealedLength C p.clientKeys p.receivepacketid pkt hfit
  · have hpos := pkt.packetLength_pos
    rw [parseLength, if_neg (by omega), hpl]

/-- The first half of block 0, as bytes. -/
def otkBytes (C : Cipher) (p : TinysshPacket) : Bytes :=
  (List.range 32).map (C.keystream (nonceOf p.receivepacketid) (p.keyAt 0))

/-- The one-time key stands in the first 32 bytes. -/
theorem computeOtk_bytes {z x : Bytes} (hz : z.length = PACKET_ZEROBYTES)
    (hbytes : p.space.bytes = z ++ x) :
    (computeOtk C p).space.bytes = otkBytes C p ++ (z.drop 32 ++ x) := by
  have hcut : p.space.bytes = [] ++ z.take 32 ++ (z.drop 32 ++ x) := by
    rw [hbytes, List.nil_append, ← List.append_assoc, List.take_append_drop]
  have htake : (z.take 32).length = 32 := by
    rw [List.length_take, hz]
    decide
  have hzero := Region.zero_append hcut List.length_nil htake
  have hxor := Region.xor_append (C.keystream (packNonce p.receivepacketid) (p.keyAt 0)) hzero
    List.length_nil List.length_replicate
  rw [xorWith_replicate_zero, packNonce_eq, List.nil_append] at hxor
  exact hxor

/-- A state whose region holds the one-time key, 32 more bytes and a sealed packet. -/
structure Keyed (C : Cipher) (keys : Keys) (seq : UInt32) (pkt : SshPacket.Packet) (x : Bytes)
    (q : TinysshPacket) : Prop where
  keys_eq : q.clientKeys = keys
  seq_eq : q.receivepacketid = seq
  packetLength_eq : q.packetLength = pkt.packetLength
  bytes_eq : ∃ z2 : Bytes, z2.length = 32 ∧ q.space.bytes =
    (oneTimeKey C keys seq).toList ++ (z2 ++ (sealPacket C keys seq pkt ++ x))

/-- The tag of a sealed packet is found right. -/
theorem verifyPacket_eq_zero {keys : Keys} {seq : UInt32} {x : Bytes} {q : TinysshPacket}
    (h : Keyed C keys seq pkt x q) : verifyPacket C q = 0 := by
  obtain ⟨-, -, hpl, z2, hz2, hbytes⟩ := h
  rw [sealPacket] at hbytes
  generalize hO : oneTimeKey C keys seq = otk at hbytes
  generalize hE : sealedLength C keys seq pkt = e at hbytes
  generalize hB : sealedBody C keys seq pkt = bd at hbytes
  have he : e.length = 4 := by rw [← hE, length_sealedLength]
  have hbd : bd.length = pkt.packetLength := by rw [← hB, length_sealedBody]
  have hotk : q.space.get 0 32 = otk.toList := by
    refine Region.get_append (a := []) (c := z2 ++ (e ++ bd ++ (tag C keys seq pkt).toList ++ x)) ?_
      List.length_nil otk.length_toList
    simpa only [List.nil_append] using hbytes
  have hct : q.space.get PACKET_ZEROBYTES (q.packetLength + 4) = e ++ bd := by
    refine Region.get_append (a := otk.toList ++ z2) (c := (tag C keys seq pkt).toList ++ x)
      ?_ ?_ ?_
    · simpa only [List.append_assoc] using hbytes
    · rw [List.length_append, otk.length_toList, hz2]
      rfl
    · rw [List.length_append, he, hbd, hpl, Nat.add_comm]
  have htag : q.space.get (PACKET_ZEROBYTES + q.packetLength + 4) 16 =
      (tag C keys seq pkt).toList := by
    refine Region.get_append (a := otk.toList ++ z2 ++ e ++ bd) (c := x) ?_ ?_
      (tag C keys seq pkt).length_toList
    · simpa only [List.append_assoc] using hbytes
    · rw [List.length_append, List.length_append, List.length_append, otk.length_toList, hz2, he,
        hbd, hpl]
      simp only [PACKET_ZEROBYTES]
      omega
  rw [verifyPacket, hotk, hct, htag, toVector_toList, toVector_toList, Mtls.verify_eq_zero_iff, tag,
    hE, hB, hO]

/-- Decrypting in place from offset 4 leaves the packet's body at offset 68. -/
theorem decryptPacket_bytes {keys : Keys} {seq : UInt32} {x : Bytes} {q : TinysshPacket}
    (h : Keyed C keys seq pkt x q) :
    ∃ a : Bytes, a.length = PACKET_ZEROBYTES + 4 ∧ (decryptPacket C q).space.bytes =
      a ++ pkt.body ++ ((tag C keys seq pkt).toList ++ x) := by
  obtain ⟨hkeys, hseq, hpl, z2, hz2, hbytes⟩ := h
  have hmain : q.keyAt 0 = keys.main := by rw [← hkeys]; rfl
  rw [sealPacket] at hbytes
  generalize hO : (oneTimeKey C keys seq).toList = otk at hbytes
  generalize hE : sealedLength C keys seq pkt = e at hbytes
  have hotk : otk.length = 32 := by rw [← hO, Vector.length_toList]
  have he : e.length = 4 := by rw [← hE, length_sealedLength]
  have hmid : (otk.drop 4 ++ z2 ++ e).length = 64 := by
    rw [List.length_append, List.length_append, List.length_drop, hotk, hz2, he]
  have hcut : q.space.bytes = otk.take 4 ++
      (otk.drop 4 ++ z2 ++ e ++ sealedBody C keys seq pkt) ++
      ((tag C keys seq pkt).toList ++ x) := by
    have hsplit := List.take_append_drop 4 otk
    calc q.space.bytes = otk.take 4 ++ otk.drop 4 ++ (z2 ++ (e ++ sealedBody C keys seq pkt ++
          (tag C keys seq pkt).toList ++ x)) := by rw [hsplit, hbytes]
      _ = _ := by simp only [List.append_assoc]
  have hfirst : (otk.take 4).length = 4 := by
    rw [List.length_take, hotk]
    decide
  have hspan : (otk.drop 4 ++ z2 ++ e ++ sealedBody C keys seq pkt).length =
      q.packetLength + PACKET_ZEROBYTES := by
    rw [List.length_append, hmid, length_sealedBody, hpl, Nat.add_comm]
    rfl
  have hxor := Region.xor_append (C.keystream (packNonce q.receivepacketid) (q.keyAt 0)) hcut
    hfirst hspan
  refine ⟨otk.take 4 ++ xorWith (C.keystream (nonceOf seq) keys.main) (otk.drop 4 ++ z2 ++ e),
    ?_, ?_⟩
  · rw [List.length_append, length_xorWith, hmid, hfirst]
    rfl
  · rw [xorWith_append, hmid, packNonce_eq, hseq, hmain, sealedBody, xorWith_xorWith] at hxor
    rw [decryptPacket, TinysshPacket.withSpace, packNonce_eq, hseq, hmain]
    simpa only [List.append_assoc] using hxor

section

variable {a x : Bytes} {q : TinysshPacket}

/-- The payload's length is recovered from the decrypted padding length. -/
theorem payloadLength_eq (ha : a.length = PACKET_ZEROBYTES + 4)
    (hpl : q.packetLength = pkt.packetLength) (hbytes : q.space.bytes = a ++ pkt.body ++ x) :
    payloadLength q = pkt.payload.length := by
  have hbyte : q.space.get (PACKET_ZEROBYTES + 4) 1 = [UInt8.ofNat pkt.padding.length] := by
    refine Region.get_append (a := a) (c := pkt.payload ++ pkt.padding ++ x) ?_ ha rfl
    rw [hbytes, SshPacket.Packet.body]
    simp only [List.append_assoc, List.cons_append, List.nil_append]
  have hmax := pkt.padding_max
  have hpad : (UInt8.ofNat pkt.padding.length).toNat = pkt.padding.length := by
    rw [UInt8.toNat_ofNat', Nat.mod_eq_of_lt (by omega)]
  rw [payloadLength, hbyte, hpl, List.headD_cons, hpad, SshPacket.Packet.packetLength]
  omega

/-- The payload stands behind the padding length. -/
theorem get_payload (ha : a.length = PACKET_ZEROBYTES + 4)
    (hbytes : q.space.bytes = a ++ pkt.body ++ x) :
    q.space.get (PACKET_ZEROBYTES + 5) pkt.payload.length = pkt.payload := by
  refine Region.get_append (a := a ++ [UInt8.ofNat pkt.padding.length]) (c := pkt.padding ++ x)
    ?_ ?_ rfl
  · rw [hbytes, SshPacket.Packet.body]
    simp only [List.append_assoc, List.cons_append, List.nil_append]
  · rw [List.length_append, ha]
    rfl

/-- The payload is put into `b`, and the packet is removed. -/
theorem processPacket_eq {b : Buf} (ha : a.length = PACKET_ZEROBYTES + 4)
    (hpl : q.packetLength = pkt.packetLength) (hbytes : q.space.bytes = a ++ pkt.body ++ x)
    (hb : b.Ok) (hroom : b.data.length + pkt.payload.length < b.alloc) :
    processPacket q b = .ok (removePacket q, { b with data := b.data ++ pkt.payload }) := by
  have hpos := pkt.payload_pos
  rw [processPacket, payloadLength_eq ha hpl hbytes, if_neg (by omega), Int.toNat_natCast,
    get_payload ha hbytes, hb.put hroom]
  rfl

/-- Removing a packet leaves the data behind it at the front: the 40 bytes that the copy moves
too many lie behind that data. -/
theorem removePacket_holds {pk : Bytes} (h : q.Holds (pk ++ rest))
    (hpk : pk.length = q.packetLength + AB + 4) : (removePacket q).Holds rest := by
  obtain ⟨hlen, hrecv, hlt, hdata⟩ := h
  have hAB : AB = 16 := rfl
  have hZB : PACKET_ZEROBYTES = 64 := rfl
  have hR : RECVBUF_SIZE = 17265 := rfl
  have hS : SENDBUF_SIZE = 17201 := rfl
  rw [List.length_append] at hrecv hdata
  have hcount : q.recvlen - PACKET_ZEROBYTES - q.packetLength + AB + 4 = rest.length + 40 := by
    omega
  have hsrc : slice q.space.bytes (PACKET_ZEROBYTES + q.packetLength + AB + 4) rest.length =
      rest := by
    have hdrop := congrArg (List.drop pk.length) hdata
    rw [List.drop_left' rfl, slice, List.drop_take, List.drop_drop,
      Nat.add_sub_cancel_left] at hdrop
    rw [slice, show PACKET_ZEROBYTES + q.packetLength + AB + 4 = PACKET_ZEROBYTES + pk.length by
      omega]
    exact hdrop
  have hmoved : slice (copyForward (rest.length + 40) PACKET_ZEROBYTES
      (PACKET_ZEROBYTES + q.packetLength + AB + 4) q.space.bytes) PACKET_ZEROBYTES rest.length =
      rest := by
    rw [← slice_slice _ (show rest.length ≤ rest.length + 40 by omega),
      slice_copyForward (by omega) (by omega), slice_slice _ (by omega), hsrc]
  refine ⟨?_, ?_, ?_, ?_⟩
  · simp only [removePacket, Region.bytes_zero, Region.bytes_copy]
    rw [length_overwrite, length_overwrite, length_copyForward, hlen]
    · rw [length_copyForward, List.length_replicate]
      omega
    · rw [length_overwrite, length_copyForward, List.length_replicate]
      · omega
      · rw [length_copyForward, List.length_replicate]
        omega
  · simp only [removePacket]
    omega
  · simp only [removePacket]
    omega
  · simp only [removePacket, Region.bytes_zero, Region.bytes_copy, hcount]
    rw [slice_overwrite_after, slice_overwrite_before, hmoved]
    · omega
    · rw [length_copyForward]
      omega
    · rw [List.length_replicate, Nat.zero_add]
    · rw [length_overwrite, length_copyForward, List.length_replicate]
      · omega
      · rw [length_copyForward, List.length_replicate]
        omega

end

/-! ## 5. Opening a sealed packet -/

/-- The state after a packet was delivered. -/
def openedState (C : Cipher) (p : TinysshPacket) : TinysshPacket :=
  removePacket (decryptPacket C (computeOtk C (parseLength C p)))

/-- The region in front of the tag check. -/
theorem keyed_computeOtk
    (h : p.Holds (sealPacket C p.clientKeys p.receivepacketid pkt ++ rest))
    (hat : p.AtPacket pkt) : ∃ j : Bytes,
      p.space.bytes.length = PACKET_ZEROBYTES + (pkt.packetLength + 20 + rest.length + j.length) ∧
      Keyed C p.clientKeys p.receivepacketid pkt (rest ++ j) (computeOtk C (parseLength C p)) := by
  obtain ⟨z, j, hz, hbytes⟩ := h.parts
  obtain ⟨-, hlen, hseq, hkey⟩ := computeOtk_frame C (parseLength C p)
  have hotk : otkBytes C (parseLength C p) =
      (oneTimeKey C p.clientKeys p.receivepacketid).toList := by
    rw [oneTimeKey, toList_toVector (by rw [List.length_map, List.length_range]), otkBytes,
      parseLength_keyAt, parseLength_receivepacketid]
    rfl
  have hparsed : (parseLength C p).space.bytes =
      z ++ (sealPacket C p.clientKeys p.receivepacketid pkt ++ (rest ++ j)) := by
    rw [parseLength_bytes, hbytes]
    simp only [List.append_assoc]
  refine ⟨j, ?_, ?_, ?_, ?_, z.drop 32, ?_, ?_⟩
  · rw [hbytes, List.length_append, List.length_append, List.length_append, length_sealPacket, hz,
      Nat.add_assoc PACKET_ZEROBYTES]
  · rw [TinysshPacket.clientKeys_congr hkey, parseLength_clientKeys]
  · rw [hseq, parseLength_receivepacketid]
  · rw [hlen, parseLength_packetLength h hat]
  · rw [List.length_drop, hz]
    rfl
  · rw [computeOtk_bytes hz hparsed, hotk]

/-- **A sealed packet at the front of the buffer is delivered exactly when its length is within
`PACKET_LIMIT`**, and otherwise ends the session. -/
theorem chachapolyPacketGet_sealed {b : Buf}
    (h : p.Holds (sealPacket C p.clientKeys p.receivepacketid pkt ++ rest))
    (hat : p.AtPacket pkt) (hb : b.Ok) (hroom : b.data.length + pkt.payload.length < b.alloc) :
    chachapolyPacketGet C p b =
      if pkt.packetLength ≤ PACKET_LIMIT then
        .ok (openedState C p, { b with data := b.data ++ pkt.payload })
      else bugProto := by
  have hpl := parseLength_packetLength h hat
  have hrecv := h.recvlen_eq
  rw [List.length_append, length_sealPacket] at hrecv
  have hAB : AB = 16 := rfl
  rw [chachapolyPacketGet, if_neg (by omega)]
  simp only [hpl, parseLength_recvlen]
  by_cases hlimit : pkt.packetLength ≤ PACKET_LIMIT
  · obtain ⟨j, -, hkeyed⟩ := keyed_computeOtk h hat
    obtain ⟨a, ha, hdec⟩ := decryptPacket_bytes hkeyed
    have hdlen : (decryptPacket C (computeOtk C (parseLength C p))).packetLength =
        pkt.packetLength := by
      rw [(decryptPacket_frame C _).2.1, hkeyed.packetLength_eq]
    rw [if_neg (by omega), if_neg (by omega), if_pos hlimit, verifyPacket_eq_zero hkeyed]
    simp only [ne_eq, not_true_eq_false, if_false]
    exact processPacket_eq ha hdlen hdec hb hroom
  · rw [if_pos (by omega), if_neg hlimit]

/-- The state after a delivery: what was received behind the packet stands at the front, and the
next packet has the next number. -/
theorem openedState_spec
    (h : p.Holds (sealPacket C p.clientKeys p.receivepacketid pkt ++ rest))
    (hat : p.AtPacket pkt) : (openedState C p).Holds rest ∧ (openedState C p).packetLength = 0 ∧
      (openedState C p).receivepacketid = p.receivepacketid + 1 ∧
      (openedState C p).clientKeys = p.clientKeys := by
  obtain ⟨j, htotal, hkeyed⟩ := keyed_computeOtk h hat
  obtain ⟨a, ha, hdec⟩ := decryptPacket_bytes hkeyed
  obtain ⟨hrecv, hlen, hseq, hkey⟩ := decryptPacket_frame C (computeOtk C (parseLength C p))
  obtain ⟨hlen', hseq', hkey'⟩ :=
    removePacket_frame (decryptPacket C (computeOtk C (parseLength C p)))
  have hrecv' : (decryptPacket C (computeOtk C (parseLength C p))).recvlen = p.recvlen := by
    rw [hrecv, (computeOtk_frame C _).1, parseLength_recvlen]
  have hAB : AB = 16 := rfl
  have heq := h.recvlen_eq
  rw [List.length_append, length_sealPacket] at heq
  -- The decrypted packet in its old place, with the rest behind it.
  let pk := a.drop PACKET_ZEROBYTES ++ pkt.body ++
    (tag C p.clientKeys p.receivepacketid pkt).toList
  have hpk : pk.length = pkt.packetLength + AB + 4 := by
    rw [List.length_append, List.length_append, List.length_drop, ha, SshPacket.Packet.length_body,
      Vector.length_toList]
    omega
  have hcut : (decryptPacket C (computeOtk C (parseLength C p))).space.bytes =
      a.take PACKET_ZEROBYTES ++ (pk ++ rest) ++ j := by
    have hsplit := List.take_append_drop PACKET_ZEROBYTES a
    rw [hdec]
    conv_lhs => rw [← hsplit]
    simp only [pk, List.append_assoc]
  have hfront : (a.take PACKET_ZEROBYTES).length = PACKET_ZEROBYTES := by
    rw [List.length_take, ha]
    rfl
  have hholds : (decryptPacket C (computeOtk C (parseLength C p))).Holds (pk ++ rest) := by
    refine ⟨?_, ?_, ?_, ?_⟩
    · rw [hcut, List.length_append, List.length_append, List.length_append, hfront, hpk,
        ← h.space_length, htotal]
      omega
    · rw [hrecv', List.length_append, hpk, heq]
      omega
    · rw [hrecv']
      exact h.recvlen_lt
    · rw [hcut]
      exact slice_append hfront rfl
  refine ⟨removePacket_holds hholds ?_, hlen', ?_, ?_⟩
  · rw [hpk, hlen, hkeyed.packetLength_eq]
  · rw [openedState, hseq', hseq, hkeyed.seq_eq]
  · rw [← hkeyed.keys_eq, openedState]
    exact TinysshPacket.clientKeys_congr (hkey'.trans hkey)

end

end Glossh.Ssh
