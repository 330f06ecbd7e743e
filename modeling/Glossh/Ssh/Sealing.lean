/-
# `chachapoly_packet_put`: sealing a packet in the send buffer

The packet is built behind what `sendbuf` holds already, 60 bytes too far: with the four bytes of
the length these make up the 64 bytes of block 0.  They are encrypted with the packet, so that the
one-time key stands in front of it and the packet meets the keystream of block 1; then length and
tag are added and the packet is moved down.

What is appended is the packet on the wire under the server's keys, with `sendpacketid` as its
number, and there is room for it exactly when the main loop's model says so.
-/
import Glossh.Ssh.MainLoop

namespace Glossh.Ssh

open Bytes SshPacket Prog

/-! ## 1. The sending half of `struct tinyssh_packet` -/

def ZB : ℕ := 60

def BB : ℕ := 8

/-- What `struct tinyssh_packet` holds for sending. -/
structure TinysshSend where
  sendbuf : Buf
  sendpacketid : UInt32
  serverkey : Vector UInt8 128

namespace TinysshSend

/-- The 32 bytes of `serverkey` from `off` on. -/
def keyAt (p : TinysshSend) (off : ℕ) : Vector UInt8 32 :=
  toVector 32 (slice p.serverkey.toList off 32)

/-- The keys of the server's direction. -/
def serverKeys (p : TinysshSend) : Keys where
  main := p.keyAt 0
  header := p.keyAt 32

end TinysshSend

/-! ## 2. `chachapoly_packet_put` -/

/-- From "get position" to "space for mac": the packet in the clear, behind its `ZB` zero bytes. -/
def buildPacket (sendbuf : Buf) (b : Bytes) (coin : Bool) : Except Exit Buf := do
  let pos := sendbuf.data.length
  let s ← sendbuf.putZerobytes ZB
  let s ← s.putNum32 0
  let s ← s.putNum8 0
  let s ← s.put b
  let padding := 2 * BB - (s.data.length - pos - ZB) % BB + 4 + if coin then BB else 0
  let s ← s.putZerobytes padding
  let s := { s with data := s.data.set (pos + ZB + 4) (UInt8.ofNat padding) }
  s.putZerobytes AB

section

variable (C : Cipher) (p : TinysshSend) (pos : ℕ)

/-- "encrypt data". -/
def encryptData (m : Region) : Region :=
  m.xor pos (m.bytes.length - pos - AB) (C.keystream (packNonce p.sendpacketid) (p.keyAt 0))

/-- "add packet length". -/
def addPacketLength (m : Region) : Region :=
  m.write (pos + ZB) (beBytes 4 (m.bytes.length - pos - AB - 4 - ZB))

/-- "encrypt the length". -/
def encryptLength (m : Region) : Region :=
  m.xor (pos + ZB) 4 (C.keystream (packNonce p.sendpacketid) (p.keyAt 32))

/-- "authenticate data". -/
def authenticateData (m : Region) : Region :=
  m.write (m.bytes.length - AB) (C.auth (m.get (pos + ZB) (m.bytes.length - AB - pos - ZB))
    (toVector 32 (m.get pos 32))).toList

/-- "remove zerobytes". -/
def removeZerobytes (m : Region) : Bytes :=
  (m.copy pos (m.bytes.length - pos - ZB) (pos + ZB)).bytes.take (m.bytes.length - ZB)

/-- From "encrypt data" to "remove zerobytes". -/
def sealPacketAt (data : Bytes) : Bytes :=
  removeZerobytes pos (authenticateData C pos (encryptLength C p pos (addPacketLength pos
    (encryptData C p pos (Region.ofBytes data)))))

end

/-- `chachapoly_packet_put` of the payload `b`; `coin` is `randommod(2)`. -/
def chachapolyPacketPut (C : Cipher) (p : TinysshSend) (b : Bytes) (coin : Bool) :
    Except Exit TinysshSend := do
  let s ← buildPacket p.sendbuf b coin
  return { p with
    sendbuf := { s with data := sealPacketAt C p p.sendbuf.data.length s.data }
    sendpacketid := p.sendpacketid + 1 }

/-! ## 3. What is appended -/

/-- The packet a payload travels in. -/
def paddedPacket (b : Bytes) (coin : Bool) (hb : 0 < b.length) : SshPacket.Packet where
  payload := b
  padding := List.replicate (paddinglen b.length coin) 0
  payload_pos := hb
  padding_min := by
    rw [List.length_replicate, paddinglen]
    omega
  padding_max := by
    rw [List.length_replicate, paddinglen]
    split <;> omega
  aligned := by
    rw [List.length_replicate, paddinglen, blockSize]
    split <;> omega

theorem packetLength_paddedPacket (b : Bytes) (coin : Bool) (hb : 0 < b.length) :
    (paddedPacket b coin hb).packetLength + 20 = sealedLength b.length coin := by
  have hA : AB = 16 := rfl
  rw [SshPacket.Packet.packetLength, sealedLength]
  change 1 + b.length + (List.replicate (paddinglen b.length coin) (0 : UInt8)).length + 20 = _
  rw [List.length_replicate]
  omega

section

variable {C : Cipher} {p : TinysshSend} {pkt : SshPacket.Packet}

/-- The keystream of block 0, of which the zero bytes and the length's place are masked. -/
def block0 (C : Cipher) (p : TinysshSend) : ℕ → UInt8 :=
  C.keystream (nonceOf p.sendpacketid) (p.keyAt 0)

theorem length_block0 : ((List.range ZB).map (block0 C p)).length = ZB := by
  rw [List.length_map, List.length_range]

/-- The zero bytes and the length's place are masked by block 0, the packet by block 1 on. -/
theorem encryptData_bytes {pre : Bytes} {m : Region} (hm : m.bytes = pre ++ (List.replicate ZB 0 ++
      (List.replicate 4 0 ++ pkt.body)) ++ List.replicate AB 0) :
    (encryptData C p pre.length m).bytes =
      pre ++ (List.range ZB).map (block0 C p) ++ xorWith (advance (block0 C p) ZB)
        (List.replicate 4 0) ++ (sealedBody C p.serverKeys p.sendpacketid pkt ++
          List.replicate AB 0) := by
  have hspan : (List.replicate ZB (0 : UInt8) ++ (List.replicate 4 0 ++ pkt.body)).length =
      m.bytes.length - pre.length - AB := by
    rw [hm]
    simp only [List.length_append, List.length_replicate]
    omega
  rw [encryptData, packNonce_eq, Region.xor_append _ hm rfl hspan, xorWith_append, xorWith_append,
    List.length_replicate, List.length_replicate, advance_advance, xorWith_replicate_zero]
  simp only [List.append_assoc]
  rfl

/-- The length in the clear. -/
theorem addPacketLength_bytes {a b : Bytes} {pos : ℕ} {m : Region}
    (hm : m.bytes = a ++ b ++ (sealedBody C p.serverKeys p.sendpacketid pkt ++
      List.replicate AB 0)) (ha : a.length = pos + ZB) (hb : b.length = 4) :
    (addPacketLength pos m).bytes = a ++ beBytes 4 pkt.packetLength ++
      (sealedBody C p.serverKeys p.sendpacketid pkt ++ List.replicate AB 0) := by
  have hlen : m.bytes.length - pos - AB - 4 - ZB = pkt.packetLength := by
    rw [hm]
    simp only [List.length_append, List.length_replicate, length_sealedBody, ha, hb]
    omega
  rw [addPacketLength, hlen, Region.bytes_write, hm,
    overwrite_append ha (by rw [hb, length_beBytes])]

theorem encryptLength_bytes {a c : Bytes} {pos : ℕ} {m : Region}
    (hm : m.bytes = a ++ beBytes 4 pkt.packetLength ++ c) (ha : a.length = pos + ZB) :
    (encryptLength C p pos m).bytes =
      a ++ SshPacket.sealedLength C p.serverKeys p.sendpacketid pkt ++ c := by
  rw [encryptLength, packNonce_eq, Region.xor_append _ hm ha (length_beBytes _ _)]
  rfl

/-- The tag is computed with the one-time key that stands in front of the packet. -/
theorem authenticateData_bytes {pre : Bytes} {m : Region}
    (hm : m.bytes = pre ++ (List.range ZB).map (block0 C p) ++
      SshPacket.sealedLength C p.serverKeys p.sendpacketid pkt ++
      (sealedBody C p.serverKeys p.sendpacketid pkt ++ List.replicate AB 0)) :
    (authenticateData C pre.length m).bytes = pre ++ (List.range ZB).map (block0 C p) ++
      sealPacket C p.serverKeys p.sendpacketid pkt := by
  have hotk : toVector 32 (m.get pre.length 32) = oneTimeKey C p.serverKeys p.sendpacketid := by
    have hcut : m.bytes = pre ++ (List.range 32).map (block0 C p) ++
        (((List.range ZB).map (block0 C p)).drop 32 ++
          SshPacket.sealedLength C p.serverKeys p.sendpacketid pkt ++
          (sealedBody C p.serverKeys p.sendpacketid pkt ++ List.replicate AB 0)) := by
      have hsplit : (List.range ZB).map (block0 C p) = (List.range 32).map (block0 C p) ++
          ((List.range ZB).map (block0 C p)).drop 32 := by
        conv_lhs => rw [← List.take_append_drop 32 ((List.range ZB).map (block0 C p))]
        rw [← List.map_take, List.take_range]
        rfl
      rw [hm]
      conv_lhs => rw [hsplit]
      simp only [List.append_assoc]
    rw [Region.get_append hcut rfl (by rw [List.length_map, List.length_range])]
    rfl
  have hcovered : m.get (pre.length + ZB) (m.bytes.length - AB - pre.length - ZB) =
      SshPacket.sealedLength C p.serverKeys p.sendpacketid pkt ++
        sealedBody C p.serverKeys p.sendpacketid pkt := by
    have hcut : m.bytes = (pre ++ (List.range ZB).map (block0 C p)) ++
        (SshPacket.sealedLength C p.serverKeys p.sendpacketid pkt ++
          sealedBody C p.serverKeys p.sendpacketid pkt) ++ List.replicate AB 0 := by
      rw [hm]
      simp only [List.append_assoc]
    refine Region.get_append hcut ?_ ?_
    · rw [List.length_append, length_block0]
    · rw [hm]
      simp only [List.length_append, List.length_replicate, length_block0,
        SshPacket.length_sealedLength, length_sealedBody]
      omega
  have hcut : m.bytes = (pre ++ (List.range ZB).map (block0 C p) ++
      SshPacket.sealedLength C p.serverKeys p.sendpacketid pkt ++
      sealedBody C p.serverKeys p.sendpacketid pkt) ++ List.replicate AB 0 ++ [] := by
    rw [hm, List.append_nil]
    simp only [List.append_assoc]
  rw [authenticateData, hotk, hcovered, Region.bytes_write]
  conv_lhs => rw [hcut]
  rw [overwrite_append]
  · rw [sealPacket, tag, List.append_nil]
    simp only [List.append_assoc]
  · simp only [List.length_append, List.length_replicate, List.length_nil]
    omega
  · rw [List.length_replicate, Vector.length_toList]
    rfl

theorem removeZerobytes_eq {pre k x : Bytes} {m : Region} (hm : m.bytes = pre ++ k ++ x)
    (hk : k.length = ZB) : removeZerobytes pre.length m = pre ++ x := by
  have hlen : m.bytes.length = pre.length + ZB + x.length := by
    rw [hm, List.length_append, List.length_append, hk]
  have hmoved : (copyForward x.length pre.length (pre.length + ZB) m.bytes).take
      (pre.length + x.length) = m.bytes.take pre.length ++
        slice m.bytes (pre.length + ZB) x.length :=
    take_copyForward (Nat.le_add_right _ _) (by omega)
  rw [removeZerobytes, Region.bytes_copy, hlen,
    show pre.length + ZB + x.length - pre.length - ZB = x.length by omega,
    show pre.length + ZB + x.length - ZB = pre.length + x.length by omega, hmoved, hm]
  have hx : slice (pre ++ k ++ x) (pre.length + ZB) x.length = x := by
    have happ : slice (pre ++ k ++ x ++ []) (pre.length + ZB) x.length = x :=
      slice_append (by rw [List.length_append, hk]) rfl
    rwa [List.append_nil] at happ
  rw [hx, List.append_assoc, List.take_left]

/-- **Sealing in place**: behind `pre`, which stays, comes the packet as it goes on the wire. -/
theorem sealPacketAt_eq (pre : Bytes) :
    sealPacketAt C p pre.length (pre ++ (List.replicate ZB 0 ++ (List.replicate 4 0 ++ pkt.body)) ++
      List.replicate AB 0) = pre ++ sealPacket C p.serverKeys p.sendpacketid pkt := by
  have hfront : (pre ++ (List.range ZB).map (block0 C p)).length = pre.length + ZB := by
    rw [List.length_append, length_block0]
  have hencrypted := @encryptData_bytes C p pkt pre (Region.ofBytes _) rfl
  have hadded := addPacketLength_bytes hencrypted hfront
    (by rw [length_xorWith, List.length_replicate])
  have hlength := encryptLength_bytes (C := C) (p := p) hadded hfront
  exact removeZerobytes_eq (authenticateData_bytes hlength) length_block0

end

/-! ## 4. The whole function -/

section

variable {C : Cipher} {p : TinysshSend} {b : Bytes} {coin : Bool}

/-- What is put in front of the padding. -/
def clearFront (b : Bytes) : Bytes :=
  List.replicate ZB 0 ++ (beBytes 4 (0 : UInt32).toNat ++ ([0] ++ b))

theorem length_clearFront : (clearFront b).length = 65 + b.length := by
  simp only [clearFront, List.length_append, List.length_replicate, length_beBytes,
    List.length_singleton]
  have hZ : ZB = 60 := rfl
  omega

/-- The place of the padding length. -/
theorem set_paddinglen (pre padding : Bytes) (v : UInt8) :
    (pre ++ clearFront b ++ padding).set (pre.length + ZB + 4) v =
      pre ++ (List.replicate ZB 0 ++ (List.replicate 4 0 ++ v :: (b ++ padding))) := by
  have hzero : beBytes 4 (0 : UInt32).toNat = List.replicate 4 0 := rfl
  have hcut : pre ++ clearFront b ++ padding =
      (pre ++ List.replicate ZB 0 ++ List.replicate 4 0) ++ (0 :: (b ++ padding)) := by
    rw [clearFront, hzero]
    simp only [List.append_assoc, List.cons_append, List.nil_append]
  have hlen : (pre ++ List.replicate ZB (0 : UInt8) ++ List.replicate 4 0).length =
      pre.length + ZB + 4 := by
    simp only [List.length_append, List.length_replicate]
  rw [hcut, List.set_append_right _ _ (by rw [hlen]), hlen, Nat.sub_self]
  simp only [List.append_assoc, List.set_cons_zero]

/-- The packet in the clear, or no room for it. -/
theorem buildPacket_eq (hok : p.sendbuf.Ok) (hb : 0 < b.length) (hmax : b.length ≤ GLOBAL_BSIZE) :
    buildPacket p.sendbuf b coin =
      if p.sendbuf.data.length + 60 + sealedLength b.length coin < p.sendbuf.alloc then
        .ok { p.sendbuf with
          data := p.sendbuf.data ++ (List.replicate ZB 0 ++ (List.replicate 4 0 ++
            (paddedPacket b coin hb).body)) ++ List.replicate AB 0 }
      else bugNomem := by
  have hZ : ZB = 60 := rfl
  have hA : AB = 16 := rfl
  have hG : GLOBAL_BSIZE = 8192 := rfl
  have hM : BUF_MAX = 1073741824 := rfl
  have hpad : paddinglen b.length coin ≤ 28 := by
    rw [paddinglen]
    split <;> omega
  have hfront := length_clearFront (b := b)
  rw [sealedLength]
  dsimp only [buildPacket, Buf.putZerobytes, Buf.putNum32, Buf.putNum8]
  -- The puts in front of the padding are one.
  have hone : List.replicate ZB (0 : UInt8) ++ beBytes 4 (0 : UInt32).toNat ++ [0] ++ b =
      clearFront b := by
    rw [clearFront]
    simp only [List.append_assoc]
  have hmax2 : (List.replicate ZB (0 : UInt8) ++ beBytes 4 (0 : UInt32).toNat).length ≤
      BUF_MAX := by decide
  have hmax3 : (List.replicate ZB (0 : UInt8) ++ beBytes 4 (0 : UInt32).toNat ++ [0]).length ≤
      BUF_MAX := by decide
  rw [hok.put_put_bind hmax2, hok.put_put_bind hmax3, hok.put_put_bind (by rw [hone]; omega), hone,
    hok.put_bind (by omega)]
  split
  swap
  · rw [if_neg (by omega)]
  rename_i hfits
  have hclear := hok.append hfits
  have hpadding : 2 * BB - ((p.sendbuf.data ++ clearFront b).length - p.sendbuf.data.length - ZB) %
      BB + 4 + (if coin = true then BB else 0) = paddinglen b.length coin := by
    rw [paddinglen, List.length_append, hfront, show BB = 8 from rfl]
    congr 3
    congr 2
    omega
  rw [hpadding, hclear.put_bind (by rw [List.length_replicate]; omega)]
  split
  swap
  · rename_i hfull
    simp only [List.length_append, List.length_replicate] at hfull
    rw [if_neg (by omega)]
  rename_i hpadded
  have hset := set_paddinglen (b := b) p.sendbuf.data
    (List.replicate (paddinglen b.length coin) 0) (UInt8.ofNat (paddinglen b.length coin))
  have hlen := congrArg List.length hset
  rw [List.length_set] at hlen
  have hbody : (paddedPacket b coin hb).body = UInt8.ofNat (paddinglen b.length coin) ::
      (b ++ List.replicate (paddinglen b.length coin) 0) := by
    change UInt8.ofNat (List.replicate (paddinglen b.length coin) (0 : UInt8)).length :: _ = _
    rw [List.length_replicate]
    rfl
  have hbuilt : Buf.Ok { p.sendbuf with
      data := p.sendbuf.data ++ (List.replicate ZB 0 ++ (List.replicate 4 0 ++
        (paddedPacket b coin hb).body)) } := by
    refine ⟨?_, hok.alloc_le⟩
    rw [hbody]
    exact hlen ▸ (hclear.append hpadded).room
  rw [hset, ← hbody, hbuilt.put_eq (by rw [List.length_replicate]; omega)]
  have hsum : (p.sendbuf.data ++ (List.replicate ZB 0 ++ (List.replicate 4 0 ++
      (paddedPacket b coin hb).body))).length + (List.replicate AB (0 : UInt8)).length =
        p.sendbuf.data.length + 60 + (5 + b.length + paddinglen b.length coin + AB) := by
    rw [hbody, ← hlen]
    simp only [List.length_append, List.length_replicate]
    omega
  rw [hsum]

/-- **`chachapoly_packet_put` appends the sealed packet where it finds room**, and otherwise ends
the session. -/
theorem chachapolyPacketPut_eq (hok : p.sendbuf.Ok) (hb : 0 < b.length)
    (hmax : b.length ≤ GLOBAL_BSIZE) :
    chachapolyPacketPut C p b coin =
      if p.sendbuf.data.length + 60 + sealedLength b.length coin < p.sendbuf.alloc then
        .ok { p with
          sendbuf := { p.sendbuf with
            data := p.sendbuf.data ++
              sealPacket C p.serverKeys p.sendpacketid (paddedPacket b coin hb) }
          sendpacketid := p.sendpacketid + 1 }
      else bugNomem := by
  rw [chachapolyPacketPut, buildPacket_eq hok hb hmax]
  split
  · change Except.ok _ = Except.ok _
    rw [sealPacketAt_eq]
  · rfl

/-- The send buffer of the main loop's model, by its length. -/
structure Queues (s : Loop) (p : TinysshSend) : Prop where
  ok : p.sendbuf.Ok
  alloc_eq : p.sendbuf.alloc = SENDBUF_SIZE
  length_eq : p.sendbuf.data.length = s.sendlen

/-- **The main loop's `packet_put` is `chachapoly_packet_put`**: they find room together, and
append the same number of bytes. -/
theorem packetPut_sim {s : Loop} (h : Queues s p) (hb : 0 < b.length)
    (hmax : b.length ≤ GLOBAL_BSIZE) :
    (s.hasRoom b.length = false ∧ chachapolyPacketPut C p b (s.random 0) = bugNomem) ∨
    (s.hasRoom b.length = true ∧ ∃ q, chachapolyPacketPut C p b (s.random 0) = .ok q ∧
      q.sendpacketid = p.sendpacketid + 1 ∧ Queues (exec (packetPut b) s).2 q) := by
  have hput := @chachapolyPacketPut_eq C p b (s.random 0) h.ok hb hmax
  rw [h.length_eq, h.alloc_eq] at hput
  by_cases hroom : s.hasRoom b.length = true
  · have hfits : s.sendlen + 60 + sealedLength b.length (s.random 0) < SENDBUF_SIZE :=
      of_decide_eq_true hroom
    rw [if_pos hfits] at hput
    refine .inr ⟨hroom, _, hput, rfl, ?_⟩
    rw [exec_packetPut hroom]
    have hlen := length_sealPacket C p.serverKeys p.sendpacketid (paddedPacket b (s.random 0) hb)
    rw [packetLength_paddedPacket] at hlen
    refine ⟨⟨?_, h.ok.alloc_le⟩, h.alloc_eq, ?_⟩
    · simp only [List.length_append, hlen, h.length_eq, h.alloc_eq]
      omega
    · simp only [List.length_append, hlen, h.length_eq]
      exact (sendlen_append _ _ _).symm
  · have hfull : ¬ s.sendlen + 60 + sealedLength b.length (s.random 0) < SENDBUF_SIZE :=
      fun hfits => hroom (decide_eq_true hfits)
    rw [if_neg hfull] at hput
    exact .inl ⟨Bool.eq_false_iff.mpr hroom, hput⟩

end

end Glossh.Ssh
