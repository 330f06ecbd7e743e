/-
# A packet put by one side and got by the other

`chachapoly_packet_put` encrypts over 60 zero bytes in front of the packet, `chachapoly_packet_get`
over 64 zero bytes in front of what it received, of which it leaves out four.  Either way the
one-time key is the start of block 0 and the packet begins with block 1, so that what the one side
appends to `sendbuf` is what the other side takes apart.
-/
import Glossh.Ssh.Sealing
import Glossh.Ssh.PacketGet

namespace Glossh.Ssh

open Bytes SshPacket

/-! ## 1. The packet on the wire, and who waits for it -/

/-- The wire carries one packet with the payload `b`. -/
structure Frames (C : Cipher) (keys : Keys) (seq : UInt32) (b wire : Bytes) : Prop where
  aligned : BB ∣ openLength C keys seq wire
  /-- The length counts everything but itself and the tag. -/
  counts : 4 + openLength C keys seq wire + AB = wire.length
  body : ∃ padding : Bytes, 4 ≤ padding.length ∧ padding.length ≤ 255 ∧
    openBody C keys seq wire = UInt8.ofNat padding.length :: (b ++ padding)

/-- A sealed packet is one. -/
theorem frames_sealPacket (C : Cipher) (keys : Keys) (seq : UInt32) (pkt : SshPacket.Packet)
    (h : pkt.packetLength < 256 ^ 4) :
    Frames C keys seq pkt.payload (sealPacket C keys seq pkt) := by
  have hlength := openLength_sealPacket C keys seq pkt h []
  have hbody := openBody_sealPacket C keys seq pkt h []
  rw [List.append_nil] at hlength hbody
  refine ⟨?_, ?_, pkt.padding, pkt.padding_min, pkt.padding_max, hbody⟩
  · rw [hlength]
    exact pkt.aligned
  · rw [hlength, length_sealPacket]
    change 4 + pkt.packetLength + 16 = _
    omega

/-- A peer of `p` received `x` and expects the packet that `p` puts next: it has the keys of this
direction and the packet's number. -/
structure Awaits (C : Cipher) (p : TinysshSend) (x : Bytes) (q : TinysshPacket) : Prop where
  holds : q.Holds x
  clientkey_eq : q.clientkey = p.serverkey
  receivepacketid_eq : q.receivepacketid = p.sendpacketid
  /-- The packet's length was not parsed yet, or it was by an earlier call. -/
  packetLength_eq :
    q.packetLength = 0 ∨ q.packetLength = openLength C p.serverKeys p.sendpacketid x

theorem Awaits.clientKeys_eq {C : Cipher} {p : TinysshSend} {x : Bytes} {q : TinysshPacket}
    (h : Awaits C p x q) : q.clientKeys = p.serverKeys := by
  rw [TinysshPacket.clientKeys, TinysshPacket.keyAt, TinysshPacket.keyAt, h.clientkey_eq]
  rfl

theorem openedState_clientkey (C : Cipher) (q : TinysshPacket) :
    (openedState C q).clientkey = q.clientkey := by
  rw [openedState, (removePacket_frame _).2.2, (decryptPacket_frame C _).2.2.2,
    (computeOtk_frame C _).2.2.2, parseLength_clientkey]

/-- **What the peer gets of a sealed packet**: its payload, and then it expects the next one. -/
theorem Awaits.get {C : Cipher} {p p' : TinysshSend} {pkt : SshPacket.Packet} {rest : Bytes}
    {q : TinysshPacket} {c : Buf}
    (h : Awaits C p (sealPacket C p.serverKeys p.sendpacketid pkt ++ rest) q)
    (hlimit : pkt.packetLength ≤ PACKET_LIMIT) (hkey : p'.serverkey = p.serverkey)
    (hid : p'.sendpacketid = p.sendpacketid + 1) (hc : c.Ok)
    (hroom : c.data.length + pkt.payload.length < c.alloc) :
    ∃ q', chachapolyPacketGet C q c = .ok (q', { c with data := c.data ++ pkt.payload }) ∧
      Awaits C p' rest q' := by
  have hL : PACKET_LIMIT < 256 ^ 4 := by decide
  have hholds : q.Holds (sealPacket C q.clientKeys q.receivepacketid pkt ++ rest) := by
    rw [h.clientKeys_eq, h.receivepacketid_eq]
    exact h.holds
  have hat : q.AtPacket pkt := by
    have hlen := h.packetLength_eq
    rwa [openLength_sealPacket C _ _ pkt (by omega)] at hlen
  have hget := chachapolyPacketGet_sealed hholds hat hc hroom
  rw [if_pos hlimit] at hget
  obtain ⟨hrest, hnext, hseq, -⟩ := openedState_spec hholds hat
  refine ⟨_, hget, hrest, ?_, ?_, .inl hnext⟩
  · rw [openedState_clientkey, h.clientkey_eq, hkey]
  · rw [hseq, h.receivepacketid_eq, hid]

/-! ## 2. The round trip -/

/-- **A payload that was put is the payload that is got**: for every content of `sendbuf`, either
padding, every key and packet number, as long as the packet is within `PACKET_LIMIT` and `sendbuf`
has room for it. -/
theorem chachapolyPacketPut_get (C : Cipher) (p : TinysshSend) (b : Bytes) (coin : Bool)
    (hok : p.sendbuf.Ok) (hb : 0 < b.length)
    (hlimit : 1 + b.length + paddinglen b.length coin ≤ PACKET_LIMIT)
    (hroom : p.sendbuf.data.length + 60 + sealedLength b.length coin < p.sendbuf.alloc) :
    ∃ p' wire, chachapolyPacketPut C p b coin = .ok p' ∧
      p'.sendbuf = { p.sendbuf with data := p.sendbuf.data ++ wire } ∧
      Frames C p.serverKeys p.sendpacketid b wire ∧
      openLength C p.serverKeys p.sendpacketid wire = 1 + b.length + paddinglen b.length coin ∧
      ∀ q rest c, Awaits C p (wire ++ rest) q → c.Ok → c.data.length + b.length < c.alloc →
        ∃ q', chachapolyPacketGet C q c = .ok (q', { c with data := c.data ++ b }) ∧
          Awaits C p' rest q' := by
  have hL : PACKET_LIMIT = 4096 := rfl
  have hG : GLOBAL_BSIZE = 8192 := rfl
  have hput := @chachapolyPacketPut_eq C p b coin hok hb (by omega)
  rw [if_pos hroom] at hput
  have hlength :
      (paddedPacket b coin hb).packetLength = 1 + b.length + paddinglen b.length coin := by
    have hsum := packetLength_paddedPacket b coin hb
    have hA : AB = 16 := rfl
    rw [sealedLength] at hsum
    omega
  have hfit : (paddedPacket b coin hb).packetLength < 256 ^ 4 := by omega
  have hopen := openLength_sealPacket C p.serverKeys p.sendpacketid (paddedPacket b coin hb) hfit []
  rw [List.append_nil, hlength] at hopen
  refine ⟨_, _, hput, rfl, frames_sealPacket C _ _ (paddedPacket b coin hb) hfit, hopen, ?_⟩
  intro q rest c hawaits hc hspace
  exact hawaits.get (by omega) rfl rfl hc hspace

/-- One read brought a fresh session what was put. -/
theorem awaits_packetRecv (C : Cipher) (p : TinysshSend) {wire : Bytes} (hne : wire ≠ [])
    (hlen : wire.length ≤ PACKET_FULLLIMIT) :
    Awaits C p wire (packetRecv (keyedSession p.serverkey p.sendpacketid) (.data wire)).1 := by
  obtain ⟨hlength, hseq, hkey⟩ :=
    packetRecv_frame (keyedSession p.serverkey p.sendpacketid) (.data wire)
  have hstart := recvStart_keyedSession p.serverkey p.sendpacketid
  have hready : packetRecvisready (recvStart (keyedSession p.serverkey p.sendpacketid)) = true := by
    rw [packetRecvisready, hstart.recvlen_eq]
    decide
  have hholds := packetRecv_holds hstart hready hne hlen
  rw [List.nil_append] at hholds
  refine ⟨hholds, ?_, ?_, .inl ?_⟩
  · rw [hkey, keyedSession]
  · rw [hseq, keyedSession]
  · rw [hlength, keyedSession, packetInit]

/-- **One byte**, put behind three others with the longer padding, and got. -/
theorem chachapolyPacketPut_get_oneByte :
    ∃ p p' wire q q', p.sendbuf.data = [1, 2, 3] ∧
      chachapolyPacketPut chacha20Poly1305 p [0x61] true = .ok p' ∧
      p'.sendbuf.data = [1, 2, 3] ++ wire ∧ Awaits chacha20Poly1305 p wire q ∧
      chachapolyPacketGet chacha20Poly1305 q freshBuf =
        .ok (q', { freshBuf with data := [0x61] }) := by
  let p : TinysshSend := ⟨⟨[1, 2, 3], SENDBUF_SIZE⟩, 5, Vector.replicate 128 7⟩
  obtain ⟨p', wire, hput, hbuf, hframes, hlength, hget⟩ :=
    chachapolyPacketPut_get chacha20Poly1305 p [0x61] true ⟨by decide, by decide⟩ (by decide)
      (by decide) (by decide)
  have hcounts := hframes.counts
  rw [hlength] at hcounts
  have hlen : wire.length = 44 := hcounts.symm
  have hne : wire ≠ [] := List.ne_nil_of_length_pos (by omega)
  have hawaits := awaits_packetRecv chacha20Poly1305 p hne (by rw [hlen]; decide)
  generalize (packetRecv _ _).1 = q at hawaits
  have hfront : Awaits chacha20Poly1305 p (wire ++ []) q := by
    rw [List.append_nil]
    exact hawaits
  obtain ⟨q', hgot, -⟩ := hget q [] freshBuf hfront freshBuf_ok (by decide)
  exact ⟨p, p', wire, q, q', rfl, hput, by rw [hbuf], hawaits, hgot⟩

end Glossh.Ssh
