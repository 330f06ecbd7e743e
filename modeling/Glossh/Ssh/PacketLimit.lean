/-
# The advertised maximum packet size against the packets accepted

`packet_channel_open` offers the client `PACKET_LIMIT` as the maximum packet size, which bounds
the data of one `CHANNEL_DATA` message, and `chachapoly_packet_get` refuses packets whose length
is over `PACKET_LIMIT`.  That length also counts the nine bytes in front of the data, the padding
and its length byte.
-/
import Glossh.Ssh.Messages
import Glossh.Ssh.Chachapoly

namespace Glossh.Ssh

open Bytes SshPacket

/-! ## 1. What a client may send -/

/-- A `CHANNEL_DATA` message that keeps to the offered maximum packet size and to the open
window, with the padding its sender chose for it. -/
structure ChannelData (window : ℕ) where
  recipient : UInt32
  data : Bytes
  padding : Bytes
  data_le_limit : data.length ≤ PACKET_LIMIT
  data_le_window : data.length ≤ window
  padding_min : 4 ≤ padding.length
  padding_max : padding.length ≤ 255
  aligned : blockSize ∣ 10 + data.length + padding.length

namespace ChannelData

variable {window : ℕ} (msg : ChannelData window)

/-- Byte, uint32 and string. -/
def payload : Bytes :=
  SSH_MSG_CHANNEL_DATA :: (beBytes 4 msg.recipient.toNat ++ beBytes 4 msg.data.length ++ msg.data)

@[simp] theorem length_payload : msg.payload.length = 9 + msg.data.length := by
  simp only [payload, List.length_cons, List.length_append, length_beBytes]
  omega

/-- The packet the message travels in. -/
def packet : SshPacket.Packet where
  payload := msg.payload
  padding := msg.padding
  payload_pos := by
    rw [length_payload]
    omega
  padding_min := msg.padding_min
  padding_max := msg.padding_max
  aligned := by
    rw [length_payload, ← Nat.add_assoc]
    exact msg.aligned

@[simp] theorem packetLength_packet :
    msg.packet.packetLength = 10 + msg.data.length + msg.padding.length := by
  change 1 + msg.payload.length + msg.padding.length = _
  rw [length_payload]
  omega

end ChannelData

/-! ## 2. What is accepted -/

/-- The buffer a packet is put into. -/
def freshBuf : Buf := ⟨[], GLOBAL_BSIZE⟩

theorem freshBuf_ok : freshBuf.Ok := ⟨by decide, by decide⟩

section

variable {C : Cipher} {window : ℕ} {msg : ChannelData window} {p : TinysshPacket} {rest : Bytes}

/-- What comes of a `CHANNEL_DATA` message at the front of the receive buffer. -/
theorem chachapolyPacketGet_channelData
    (h : p.Holds (sealPacket C p.clientKeys p.receivepacketid msg.packet ++ rest))
    (hat : p.AtPacket msg.packet) : chachapolyPacketGet C p freshBuf =
      if 10 + msg.data.length + msg.padding.length ≤ PACKET_LIMIT then
        .ok (openedState C p, { freshBuf with data := msg.payload })
      else bugProto := by
  have hroom : freshBuf.data.length + msg.packet.payload.length < freshBuf.alloc := by
    have hlimit := msg.data_le_limit
    have hL : PACKET_LIMIT = 4096 := rfl
    have hB : freshBuf.alloc = 8192 := rfl
    have hpay : msg.packet.payload.length = 9 + msg.data.length := msg.length_payload
    have hnil : freshBuf.data.length = 0 := rfl
    omega
  have hget := chachapolyPacketGet_sealed h hat freshBuf_ok hroom
  rw [msg.packetLength_packet] at hget
  exact hget

/-- **A `CHANNEL_DATA` message within the offered limits is delivered exactly when the message
with its padding fits in `PACKET_LIMIT` too.**  For every cipher, state of the receive buffer with
the packet at its front, and data behind the packet. -/
theorem channelData_delivered_iff
    (h : p.Holds (sealPacket C p.clientKeys p.receivepacketid msg.packet ++ rest))
    (hat : p.AtPacket msg.packet) :
    (∃ p', chachapolyPacketGet C p freshBuf = .ok (p', { freshBuf with data := msg.payload })) ↔
      10 + msg.data.length + msg.padding.length ≤ PACKET_LIMIT := by
  rw [chachapolyPacketGet_channelData h hat]
  constructor
  · rintro ⟨p', hp'⟩
    by_contra hlong
    rw [if_neg hlong] at hp'
    cases hp'
  · intro hfits
    exact ⟨openedState C p, if_pos hfits⟩

end

/-! ## 3. One packet read into an empty buffer -/

/-- A session with keys, at packet number `seq`. -/
def keyedSession (clientkey : Vector UInt8 128) (seq : UInt32) : TinysshPacket :=
  { packetInit with clientkey := clientkey, receivepacketid := seq }

/-- The session after one read brought it the sealed packet. -/
def arrived (C : Cipher) (clientkey : Vector UInt8 128) (seq : UInt32) (pkt : SshPacket.Packet) :
    TinysshPacket :=
  (packetRecv (keyedSession clientkey seq)
    (.data (sealPacket C (keyedSession clientkey seq).clientKeys seq pkt))).1

section

variable (C : Cipher) (clientkey : Vector UInt8 128) (seq : UInt32) (pkt : SshPacket.Packet)

theorem recvStart_keyedSession : (recvStart (keyedSession clientkey seq)).Holds [] := by
  have hlen : (keyedSession clientkey seq).space.bytes.length = RECVBUF_SIZE + SENDBUF_SIZE := by
    rw [keyedSession, packetInit, Region.bytes_ofBytes, List.length_replicate]
  have hstart : recvStart (keyedSession clientkey seq) =
      { keyedSession clientkey seq with
        recvlen := PACKET_ZEROBYTES
        space := (keyedSession clientkey seq).space.zero 0 PACKET_ZEROBYTES } := by
    rw [recvStart, if_pos]
    simp only [keyedSession, packetInit, PACKET_ZEROBYTES]
    decide
  rw [hstart]
  have hzero : 0 + (List.replicate PACKET_ZEROBYTES (0 : UInt8)).length ≤
      (keyedSession clientkey seq).space.bytes.length := by
    rw [List.length_replicate, hlen]
    decide
  refine ⟨?_, rfl, (by decide : PACKET_ZEROBYTES < RECVBUF_SIZE), rfl⟩
  rw [Region.bytes_zero, length_overwrite hzero, hlen]

/-- Reading into the buffer changes neither keys nor counters. -/
theorem arrived_frame : (arrived C clientkey seq pkt).clientKeys =
      (keyedSession clientkey seq).clientKeys ∧
    (arrived C clientkey seq pkt).receivepacketid = seq ∧
    (arrived C clientkey seq pkt).packetLength = 0 := by
  obtain ⟨hlen, hseq, hkey⟩ := packetRecv_frame (keyedSession clientkey seq)
    (.data (sealPacket C (keyedSession clientkey seq).clientKeys seq pkt))
  unfold arrived
  refine ⟨TinysshPacket.clientKeys_congr hkey, ?_, ?_⟩
  · rw [hseq, keyedSession]
  · rw [hlen, keyedSession, packetInit]

theorem arrived_holds (hfits : pkt.packetLength + 20 ≤ PACKET_FULLLIMIT) :
    (arrived C clientkey seq pkt).Holds
      (sealPacket C (arrived C clientkey seq pkt).clientKeys
        (arrived C clientkey seq pkt).receivepacketid pkt ++ []) := by
  obtain ⟨hkeys, hseq, -⟩ := arrived_frame C clientkey seq pkt
  rw [hkeys, hseq, List.append_nil]
  have hstart := recvStart_keyedSession clientkey seq
  have hready : packetRecvisready (recvStart (keyedSession clientkey seq)) = true := by
    rw [packetRecvisready, hstart.recvlen_eq]
    decide
  have hlen := length_sealPacket C (keyedSession clientkey seq).clientKeys seq pkt
  have hne : sealPacket C (keyedSession clientkey seq).clientKeys seq pkt ≠ [] :=
    List.ne_nil_of_length_pos (by omega)
  have hread := packetRecv_holds hstart hready hne (by rw [hlen]; exact hfits)
  rwa [List.nil_append] at hread

end

/-- Sixteen bytes of packet for one byte of data, in the window of a fresh channel. -/
def oneByte : ChannelData 131072 where
  recipient := 0
  data := [0x61]
  padding := List.replicate 5 0
  data_le_limit := by decide
  data_le_window := by decide
  padding_min := by decide
  padding_max := by decide
  aligned := by decide

/-- As much data as the client was told it may send, with the least padding that aligns it. -/
def fullData : ChannelData 131072 where
  recipient := 0
  data := List.replicate 4096 0x61
  padding := List.replicate 6 0
  data_le_limit := by rw [List.length_replicate]; decide
  data_le_window := by rw [List.length_replicate]; decide
  padding_min := by decide
  padding_max := by decide
  aligned := by rw [List.length_replicate, List.length_replicate]; decide

/-- One byte of data arrives. -/
theorem channelData_delivered_oneByte :
    ∃ p', chachapolyPacketGet chacha20Poly1305
      (arrived chacha20Poly1305 (Vector.replicate 128 7) 3 oneByte.packet) freshBuf =
        .ok (p', { freshBuf with data := oneByte.payload }) :=
  (channelData_delivered_iff
    (arrived_holds chacha20Poly1305 (Vector.replicate 128 7) 3 oneByte.packet (by decide))
    (Or.inl (arrived_frame chacha20Poly1305 (Vector.replicate 128 7) 3 oneByte.packet).2.2)).mpr
    (by decide)

/-- **The most data the client was told it may send ends the session**: with its header and
padding the packet is 4112 bytes long. -/
theorem channelData_refused_fullData :
    fullData.data.length ≤ PACKET_LIMIT ∧ chachapolyPacketGet chacha20Poly1305
      (arrived chacha20Poly1305 (Vector.replicate 128 7) 3 fullData.packet) freshBuf =
        bugProto := by
  have hlen : fullData.packet.packetLength = 4112 := by
    rw [ChannelData.packetLength_packet, fullData, List.length_replicate, List.length_replicate]
  have hget := chachapolyPacketGet_channelData
    (arrived_holds chacha20Poly1305 (Vector.replicate 128 7) 3 fullData.packet
      (by rw [hlen]; decide))
    (Or.inl (arrived_frame chacha20Poly1305 (Vector.replicate 128 7) 3 fullData.packet).2.2)
  rw [← ChannelData.packetLength_packet, hlen, if_neg (by decide)] at hget
  exact ⟨fullData.data_le_limit, hget⟩

end Glossh.Ssh
