/-
# Packets from reads of any size

The client's packets are one stream of bytes; `packet_recv` takes pieces of it as they arrive, and
`chachapoly_packet_get` is called whenever it is called.  Where a piece ends does not matter: in
front of a length, inside it, in the body or in the tag.

The invariant splits the packets into those delivered and those to come.  What was received and
not delivered, with what was not read yet, is the stream of those to come, and a parsed length is
that of the first of them.
-/
import Glossh.Lib.Run
import Glossh.Ssh.PacketLimit

namespace Glossh.Ssh

open Bytes SshPacket

/-! ## 1. The system -/

/-- The receiving half of a session, what was not read from the connection yet, and the non-empty
results of `chachapoly_packet_get`. -/
structure ReceiveSystem where
  packet : TinysshPacket
  wire : Bytes
  delivered : List Bytes

inductive ReceiveEvent where
  /-- `packet_recv`, to which `read` would bring `n` bytes. -/
  | recv (n : ℕ)
  /-- `packet_recv` on a connection with nothing to read. -/
  | again
  /-- `chachapoly_packet_get` into a purged buffer. -/
  | get

def receiveStep (C : Cipher) (s : ReceiveSystem) : ReceiveEvent → Option ReceiveSystem
  | .recv n =>
    if 1 ≤ n ∧ n ≤ PACKET_FULLLIMIT ∧ n ≤ s.wire.length then
      some { s with
        packet := (packetRecv s.packet (.data (s.wire.take n))).1
        -- A full buffer is not read into.
        wire := if packetRecvisready (recvStart s.packet) then s.wire.drop n else s.wire }
    else none
  | .again => some { s with packet := (packetRecv s.packet .again).1 }
  | .get =>
    match chachapolyPacketGet C s.packet freshBuf with
    | .ok (p, b) => some { s with
        packet := p
        delivered := if b.data = [] then s.delivered else s.delivered ++ [b.data] }
    | .error _ => none

/-- What the next `chachapoly_packet_get` brings: the payload of the first packet to come, if all of
it was received. -/
def nextPayload (data : Bytes) : List SshPacket.Packet → Bytes
  | [] => []
  | pkt :: _ => if pkt.packetLength + 20 ≤ data.length then pkt.payload else []

/-- `done` were delivered, `todo` are to come, `data` was received of those. -/
structure Receiving (C : Cipher) (keys : Keys) (id : UInt32) (s : ReceiveSystem)
    (done todo : List SshPacket.Packet) (data : Bytes) : Prop where
  delivered_eq : s.delivered = done.map SshPacket.Packet.payload
  keys_eq : s.packet.clientKeys = keys
  id_eq : s.packet.receivepacketid = id + UInt32.ofNat done.length
  holds : (recvStart s.packet).Holds data
  stream_eq : data ++ s.wire = sealStream C keys s.packet.receivepacketid todo
  at_packet : ∀ pkt, todo.head? = some pkt → s.packet.AtPacket pkt
  limit : ∀ pkt ∈ todo, pkt.packetLength ≤ PACKET_LIMIT

/-! ## 2. What was received -/

/-- `recvStart` is done once. -/
theorem TinysshPacket.Holds.recvStart_eq {p : TinysshPacket} {data : Bytes} (h : p.Holds data) :
    recvStart p = p := by
  have hrecv := h.recvlen_eq
  rw [recvStart, if_neg (by omega)]

theorem recvStart_recvStart (p : TinysshPacket) : recvStart (recvStart p) = recvStart p := by
  by_cases hlen : p.recvlen < PACKET_ZEROBYTES
  · simp only [recvStart, if_pos hlen, Nat.lt_irrefl, if_false]
  · simp only [recvStart, if_neg hlen]

/-- Before the first `packet_recv` nothing was received. -/
theorem eq_nil_or_holds {p : TinysshPacket} {data : Bytes} (h : (recvStart p).Holds data) :
    (p.recvlen < PACKET_ZEROBYTES ∧ data = []) ∨ p.Holds data := by
  by_cases hlen : p.recvlen < PACKET_ZEROBYTES
  · refine .inl ⟨hlen, List.eq_nil_of_length_eq_zero ?_⟩
    have hrecv := h.recvlen_eq
    simp only [recvStart, if_pos hlen] at hrecv
    omega
  · rw [recvStart, if_neg hlen] at h
    exact .inr h

/-- A buffer without room is not read into. -/
theorem packetRecv_full {p : TinysshPacket} (h : packetRecvisready (recvStart p) = false)
    (r : ReadResult) : (packetRecv p r).1 = recvStart p := by
  simp only [packetRecv, h, Bool.false_eq_true, if_false]

theorem packetRecv_again (p : TinysshPacket) : (packetRecv p .again).1 = recvStart p := by
  by_cases hready : packetRecvisready (recvStart p)
  · simp only [packetRecv, if_pos hready, ReadResult.upTo]
  · exact packetRecv_full (Bool.eq_false_iff.mpr hready) _

section

variable {C : Cipher} {p : TinysshPacket} {data : Bytes}

/-- Without the four bytes of a length nothing is parsed. -/
theorem chachapolyPacketGet_short (h : (recvStart p).Holds data) (hlen : data.length < 4)
    (b : Buf) : chachapolyPacketGet C p b = .ok ({ p with packetLength := 0 }, b) := by
  have hZB : PACKET_ZEROBYTES = 64 := rfl
  rw [chachapolyPacketGet, if_pos]
  rcases eq_nil_or_holds h with ⟨hrecv, -⟩ | hholds
  · omega
  · have hrecv := hholds.recvlen_eq
    omega

/-- A length is parsed as soon as its four bytes are there. -/
theorem parseLength_of_take {pkt : SshPacket.Packet} (h : p.Holds data) (hat : p.AtPacket pkt)
    (htake : data.take 4 = SshPacket.sealedLength C p.clientKeys p.receivepacketid pkt)
    (hlimit : pkt.packetLength ≤ PACKET_LIMIT) :
    (parseLength C p).packetLength = pkt.packetLength := by
  rcases hat with h0 | hpl
  · obtain ⟨z, j, hz, hbytes⟩ := h.parts
    have hfit : pkt.packetLength < 256 ^ 4 := hlimit.trans_lt (by decide)
    have hget : p.space.get PACKET_ZEROBYTES 4 =
        SshPacket.sealedLength C p.clientKeys p.receivepacketid pkt := by
      rw [← List.take_append_drop 4 data, htake, ← List.append_assoc, List.append_assoc] at hbytes
      exact Region.get_append hbytes hz (length_sealedLength ..)
    rw [parseLength, if_pos h0, packNonce_eq, hget]
    exact ofBe_sealedLength C p.clientKeys p.receivepacketid pkt hfit
  · have hpos := pkt.packetLength_pos
    rw [parseLength, if_neg (by omega), hpl]

/-- Parsing a length changes nothing in the buffer. -/
theorem TinysshPacket.Holds.parseLength (h : p.Holds data) (C : Cipher) :
    (parseLength C p).Holds data := by
  obtain ⟨hlen, hrecv, hlt, hdata⟩ := h
  constructor
  · rw [parseLength_bytes, hlen]
  · rw [parseLength_recvlen, hrecv]
  · rw [parseLength_recvlen]
    exact hlt
  · rw [parseLength_bytes, hdata]

/-- **A packet that is not all there stays**: its length may be parsed, and nothing else is. -/
theorem chachapolyPacketGet_partial {pkt : SshPacket.Packet} (h : p.Holds data)
    (hat : p.AtPacket pkt)
    (htake : data.take 4 = SshPacket.sealedLength C p.clientKeys p.receivepacketid pkt)
    (hlimit : pkt.packetLength ≤ PACKET_LIMIT) (hlen : data.length < pkt.packetLength + 20)
    (b : Buf) : chachapolyPacketGet C p b = .ok (parseLength C p, b) := by
  have hfour : 4 ≤ data.length := by
    have hlength := congrArg List.length htake
    rw [List.length_take, length_sealedLength] at hlength
    omega
  have hrecv := h.recvlen_eq
  have hpl := parseLength_of_take h hat htake hlimit
  have hAB : AB = 16 := rfl
  have hZB : PACKET_ZEROBYTES = 64 := rfl
  rw [chachapolyPacketGet, if_neg (by omega)]
  simp only [hpl, parseLength_recvlen]
  rw [if_neg (by omega), if_pos (by omega)]

end

/-! ## 3. Every step keeps the invariant -/

section

variable {C : Cipher} {keys : Keys} {id : UInt32} {s : ReceiveSystem}
  {done todo : List SshPacket.Packet} {data : Bytes}

namespace Receiving

/-- Another state of the buffer with the same contents. -/
theorem of_frame (h : Receiving C keys id s done todo data) {q : TinysshPacket}
    (hkey : q.clientkey = s.packet.clientkey)
    (hid : q.receivepacketid = s.packet.receivepacketid) (hholds : (recvStart q).Holds data)
    (hat : ∀ pkt, todo.head? = some pkt → q.AtPacket pkt) :
    Receiving C keys id { s with packet := q } done todo data where
  delivered_eq := h.delivered_eq
  keys_eq := (TinysshPacket.clientKeys_congr hkey).trans h.keys_eq
  id_eq := hid.trans h.id_eq
  holds := hholds
  stream_eq := by
    change data ++ s.wire = sealStream C keys q.receivepacketid todo
    rw [hid]
    exact h.stream_eq
  at_packet := hat
  limit := h.limit

/-- The first packet to come is at the front of what was received and is still to be read. -/
theorem take_stream {pkt : SshPacket.Packet} {rest : List SshPacket.Packet}
    (h : Receiving C keys id s done (pkt :: rest) data) (hlen : 4 ≤ data.length) :
    data.take 4 = SshPacket.sealedLength C keys s.packet.receivepacketid pkt := by
  have hstream := h.stream_eq
  rw [sealStream, sealPacket, List.append_assoc, List.append_assoc] at hstream
  have htake := congrArg (List.take 4) hstream
  rwa [List.take_append_of_le_length hlen, List.take_left' (length_sealedLength ..)] at htake

/-- A packet that was received whole is followed by what was received behind it. -/
theorem split_data {pkt : SshPacket.Packet} {rest : List SshPacket.Packet}
    (h : Receiving C keys id s done (pkt :: rest) data)
    (hlen : pkt.packetLength + 20 ≤ data.length) :
    ∃ behind, data = sealPacket C keys s.packet.receivepacketid pkt ++ behind ∧
      behind ++ s.wire = sealStream C keys (s.packet.receivepacketid + 1) rest := by
  have hstream := h.stream_eq
  rw [sealStream] at hstream
  rcases List.append_eq_append_iff.mp hstream with ⟨l, hseal, hwire⟩ | ⟨l, hdata, hrest⟩
  · have hlength := congrArg List.length hseal
    rw [List.length_append, length_sealPacket] at hlength
    have hnil : l = [] := List.eq_nil_of_length_eq_zero (by omega)
    subst hnil
    exact ⟨[], by rw [hseal, List.append_nil, List.append_nil], hwire⟩
  · exact ⟨l, hdata, hrest.symm⟩

/-- Where something was received, the first `packet_recv` was made. -/
theorem holds_of_pos (h : Receiving C keys id s done todo data) (hlen : 0 < data.length) :
    s.packet.Holds data := by
  rcases eq_nil_or_holds h.holds with ⟨-, hnil⟩ | hholds
  · rw [hnil] at hlen
    cases hlen
  · exact hholds

/-- **What `chachapoly_packet_get` does at any moment**: it delivers the first packet to come if
all of it was received, and otherwise nothing. -/
theorem get (h : Receiving C keys id s done todo data) : ∃ q,
    chachapolyPacketGet C s.packet freshBuf =
      .ok (q, { freshBuf with data := nextPayload data todo }) ∧
    ((nextPayload data todo = [] ∧ Receiving C keys id { s with packet := q } done todo data) ∨
      ∃ pkt rest behind, todo = pkt :: rest ∧ nextPayload data todo = pkt.payload ∧
        Receiving C keys id { s with
          packet := q
          delivered := s.delivered ++ [pkt.payload] } (done ++ [pkt]) rest behind) := by
  have hshort : data.length < 4 → ∃ q, chachapolyPacketGet C s.packet freshBuf =
      .ok (q, freshBuf) ∧ Receiving C keys id { s with packet := q } done todo data := by
    intro hlen
    refine ⟨_, chachapolyPacketGet_short h.holds hlen freshBuf, h.of_frame rfl rfl ?_ ?_⟩
    · rcases eq_nil_or_holds h.holds with ⟨hrecv, -⟩ | hholds
      · have hstart := h.holds
        simp only [recvStart, if_pos hrecv] at hstart ⊢
        exact ⟨hstart.1, hstart.2, hstart.3, hstart.4⟩
      · have hp : TinysshPacket.Holds { s.packet with packetLength := 0 } data :=
          ⟨hholds.1, hholds.2, hholds.3, hholds.4⟩
        rwa [hp.recvStart_eq]
    · intro pkt hpkt
      exact .inl rfl
  cases todo with
  | nil =>
    have hnil : data = [] := List.append_eq_nil_iff.mp h.stream_eq |>.1
    obtain ⟨q, hget, hq⟩ := hshort (by rw [hnil]; decide)
    exact ⟨q, hget, .inl ⟨rfl, hq⟩⟩
  | cons pkt rest =>
    have hlimit : pkt.packetLength ≤ PACKET_LIMIT := h.limit pkt List.mem_cons_self
    have hat : s.packet.AtPacket pkt := h.at_packet pkt rfl
    by_cases hlen : pkt.packetLength + 20 ≤ data.length
    · obtain ⟨behind, hdata, hrest⟩ := h.split_data hlen
      have hholds : s.packet.Holds (sealPacket C s.packet.clientKeys s.packet.receivepacketid pkt ++
          behind) := by
        rw [h.keys_eq, ← hdata]
        exact h.holds_of_pos (by omega)
      have hroom : freshBuf.data.length + pkt.payload.length < freshBuf.alloc := by
        have hlength : pkt.packetLength = 1 + pkt.payload.length + pkt.padding.length := rfl
        have hL : PACKET_LIMIT = 4096 := rfl
        have hB : freshBuf.alloc = 8192 := rfl
        have hnil : freshBuf.data.length = 0 := rfl
        omega
      have hget := chachapolyPacketGet_sealed hholds hat freshBuf_ok hroom
      rw [if_pos hlimit] at hget
      obtain ⟨hopened, hparsed, hid, hkeys⟩ := openedState_spec hholds hat
      have hnext : nextPayload data (pkt :: rest) = pkt.payload := if_pos hlen
      rw [hnext]
      refine ⟨openedState C s.packet, hget, .inr ⟨pkt, rest, behind, rfl, rfl, ?_⟩⟩
      constructor
      · rw [h.delivered_eq, List.map_append]
        rfl
      · exact hkeys.trans h.keys_eq
      · rw [List.length_append, List.length_singleton, UInt32.ofNat_add, ← UInt32.add_assoc,
          ← h.id_eq]
        exact hid
      · change (recvStart (openedState C s.packet)).Holds behind
        rwa [hopened.recvStart_eq]
      · change behind ++ s.wire = sealStream C keys (openedState C s.packet).receivepacketid rest
        rw [hid]
        exact hrest
      · intro pkt' _
        exact .inl hparsed
      · intro pkt' hpkt'
        exact h.limit pkt' (List.mem_cons_of_mem _ hpkt')
    · have hnext : nextPayload data (pkt :: rest) = [] := if_neg hlen
      rw [hnext]
      by_cases hfour : data.length < 4
      · obtain ⟨q, hget, hq⟩ := hshort hfour
        exact ⟨q, hget, .inl ⟨rfl, hq⟩⟩
      · have hholds : s.packet.Holds data := h.holds_of_pos (by omega)
        have htake := h.take_stream (by omega)
        rw [← h.keys_eq] at htake
        have hget := chachapolyPacketGet_partial hholds hat htake hlimit (by omega) freshBuf
        refine ⟨parseLength C s.packet, hget, .inl ⟨rfl, h.of_frame ?_ ?_ ?_ ?_⟩⟩
        · exact parseLength_clientkey C s.packet
        · exact parseLength_receivepacketid C s.packet
        · have hparsed := hholds.parseLength C
          rwa [hparsed.recvStart_eq]
        · rintro pkt' ⟨⟩
          exact .inr (parseLength_of_take hholds hat htake hlimit)

/-- **`packet_recv` appends what it reads**, or finds the buffer full. -/
theorem recv (h : Receiving C keys id s done todo data) {n : ℕ} (hpos : 1 ≤ n)
    (hfull : n ≤ PACKET_FULLLIMIT) (hwire : n ≤ s.wire.length) : ∃ data',
    Receiving C keys id { s with
      packet := (packetRecv s.packet (.data (s.wire.take n))).1
      wire := if packetRecvisready (recvStart s.packet) then s.wire.drop n else s.wire }
      done todo data' := by
  obtain ⟨hlen, hid, hkey⟩ := packetRecv_frame s.packet (.data (s.wire.take n))
  have htake : (s.wire.take n).length = n := by
    rw [List.length_take]
    omega
  have hread : packetRecvisready (recvStart s.packet) = true →
      (packetRecv s.packet (.data (s.wire.take n))).1.Holds (data ++ s.wire.take n) := by
    intro hready
    exact packetRecv_holds h.holds hready
      (List.ne_nil_of_length_pos (by omega : 0 < (s.wire.take n).length)) (by omega)
  have hkept : packetRecvisready (recvStart s.packet) = false →
      (packetRecv s.packet (.data (s.wire.take n))).1 = recvStart s.packet :=
    fun hready => packetRecv_full hready _
  generalize (packetRecv s.packet (.data (s.wire.take n))).1 = q at *
  have hat : ∀ pkt, todo.head? = some pkt → q.AtPacket pkt := by
    intro pkt hpkt
    rw [TinysshPacket.AtPacket, hlen]
    exact h.at_packet pkt hpkt
  by_cases hready : packetRecvisready (recvStart s.packet)
  · refine ⟨data ++ s.wire.take n, ?_⟩
    rw [if_pos hready]
    refine ⟨h.delivered_eq, ?_, hid.trans h.id_eq, ?_, ?_, hat, h.limit⟩
    · exact (TinysshPacket.clientKeys_congr hkey).trans h.keys_eq
    · change (recvStart q).Holds _
      have hholds := hread hready
      rwa [hholds.recvStart_eq]
    · change data ++ s.wire.take n ++ s.wire.drop n = sealStream C keys q.receivepacketid todo
      rw [List.append_assoc, List.take_append_drop, hid]
      exact h.stream_eq
  · refine ⟨data, ?_⟩
    rw [if_neg hready]
    refine h.of_frame hkey hid ?_ hat
    rw [hkept (Bool.eq_false_iff.mpr hready), recvStart_recvStart]
    exact h.holds

/-- **What one step keeps.** -/
theorem step {s' : ReceiveSystem} (h : Receiving C keys id s done todo data) (ev : ReceiveEvent)
    (hstep : receiveStep C s ev = some s') : ∃ done' todo' data',
    done' ++ todo' = done ++ todo ∧ Receiving C keys id s' done' todo' data' := by
  cases ev with
  | recv n =>
    rw [receiveStep] at hstep
    split at hstep
    · rename_i hn
      obtain rfl := (Option.some.inj hstep).symm
      obtain ⟨data', hrecv⟩ := h.recv hn.1 hn.2.1 hn.2.2
      exact ⟨done, todo, data', rfl, hrecv⟩
    · cases hstep
  | again =>
    obtain rfl := (Option.some.inj hstep).symm
    obtain ⟨hlen, hid, hkey⟩ := packetRecv_frame s.packet .again
    refine ⟨done, todo, data, rfl, h.of_frame hkey hid ?_ ?_⟩
    · rw [packetRecv_again, recvStart_recvStart]
      exact h.holds
    · intro pkt hpkt
      rw [TinysshPacket.AtPacket, hlen]
      exact h.at_packet pkt hpkt
  | get =>
    obtain ⟨q, hget, hcases⟩ := h.get
    simp only [receiveStep, hget] at hstep
    obtain rfl := (Option.some.inj hstep).symm
    rcases hcases with ⟨hnil, hsame⟩ | ⟨pkt, rest, behind, rfl, hpayload, hnext⟩
    · rw [if_pos hnil]
      exact ⟨done, todo, data, rfl, hsame⟩
    · have hne : nextPayload data (pkt :: rest) ≠ [] := by
        rw [hpayload]
        exact List.ne_nil_of_length_pos pkt.payload_pos
      rw [if_neg hne, hpayload]
      exact ⟨done ++ [pkt], rest, behind, List.append_cons .. |>.symm, hnext⟩

/-- When all was read and nothing is delivered, nothing is to come. -/
theorem todo_eq_nil (h : Receiving C keys id s done todo data) (hwire : s.wire = [])
    (hnext : nextPayload data todo = []) : todo = [] := by
  cases todo with
  | nil => rfl
  | cons pkt rest =>
    have hstream := congrArg List.length h.stream_eq
    rw [hwire, List.append_nil, sealStream, List.length_append, length_sealPacket] at hstream
    rw [nextPayload, if_pos (by omega)] at hnext
    exact absurd hnext (List.ne_nil_of_length_pos pkt.payload_pos)

end Receiving

end

/-! ## 4. From the first packet under a key on -/

/-- **Reassembly**: whatever sizes the reads have and whenever `chachapoly_packet_get` is called,
it never ends the session, and its non-empty results are the client's payloads in order, each once.
The packet number counts them; what was received and is not delivered is kept as it came; and a
call brings the next payload exactly when its packet was received whole. -/
theorem receive_reassembly (C : Cipher) (pkts : List SshPacket.Packet)
    (hlimit : ∀ pkt ∈ pkts, pkt.packetLength ≤ PACKET_LIMIT) (p : TinysshPacket)
    (early wire : Bytes) (hstart : (recvStart p).Holds early) (hparsed : p.packetLength = 0)
    (hstream : early ++ wire = sealStream C p.clientKeys p.receivepacketid pkts)
    (s : ReceiveSystem) (hs : Run (receiveStep C) (fun _ _ => True) ⟨p, wire, []⟩ s) :
    ∃ done todo data, done ++ todo = pkts ∧
      s.delivered = done.map SshPacket.Packet.payload ∧
      s.packet.receivepacketid = p.receivepacketid + UInt32.ofNat done.length ∧
      (recvStart s.packet).Holds data ∧
      data ++ s.wire = sealStream C p.clientKeys s.packet.receivepacketid todo ∧
      (∃ q, chachapolyPacketGet C s.packet freshBuf =
        .ok (q, { freshBuf with data := nextPayload data todo })) ∧
      (s.wire = [] → nextPayload data todo = [] → todo = []) := by
  have hinit : Receiving C p.clientKeys p.receivepacketid ⟨p, wire, []⟩ [] pkts early := by
    refine ⟨rfl, rfl, ?_, hstart, hstream, fun _ _ => .inl hparsed, hlimit⟩
    exact (UInt32.add_zero _).symm
  obtain ⟨done, todo, data, hpkts, h⟩ := hs.invariant (fun s => ∃ done todo data,
      done ++ todo = pkts ∧ Receiving C p.clientKeys p.receivepacketid s done todo data)
    ⟨[], pkts, early, rfl, hinit⟩ (by
      rintro s e s' ⟨done, todo, data, hpkts, h⟩ - hstep
      obtain ⟨done', todo', data', hsame, h'⟩ := h.step e hstep
      exact ⟨done', todo', data', hsame.trans hpkts, h'⟩)
  obtain ⟨q, hget, -⟩ := h.get
  exact ⟨done, todo, data, hpkts, h.delivered_eq, h.id_eq, h.holds, h.stream_eq, ⟨q, hget⟩,
    h.todo_eq_nil⟩

/-- A read into a buffer with room. -/
theorem receiveStep_recv (C : Cipher) {p : TinysshPacket} {data : Bytes} (wire : Bytes)
    (delivered : List Bytes) {n : ℕ} (h : (recvStart p).Holds data)
    (hroom : PACKET_ZEROBYTES + data.length + PACKET_FULLLIMIT < RECVBUF_SIZE) (hpos : 1 ≤ n)
    (hfull : n ≤ PACKET_FULLLIMIT) (hn : n ≤ wire.length) :
    ∃ p', receiveStep C ⟨p, wire, delivered⟩ (.recv n) = some ⟨p', wire.drop n, delivered⟩ ∧
      (recvStart p').Holds (data ++ wire.take n) := by
  have hready : packetRecvisready (recvStart p) = true := by
    rw [packetRecvisready, h.recvlen_eq]
    exact decide_eq_true hroom
  have htake : (wire.take n).length = n := by rw [List.length_take, Nat.min_eq_left hn]
  have hread := packetRecv_holds h hready
    (List.ne_nil_of_length_pos (by omega : 0 < (wire.take n).length)) (by rw [htake]; exact hfull)
  refine ⟨(packetRecv p (.data (wire.take n))).1, ?_, ?_⟩
  · rw [receiveStep, if_pos ⟨hpos, hfull, hn⟩, if_pos hready]
  · rw [hread.recvStart_eq]
    exact hread

/-- A second packet behind `oneByte`. -/
def anotherByte : ChannelData 131072 :=
  { oneByte with data := [0x62] }

def twoPackets : List SshPacket.Packet := [oneByte.packet, anotherByte.packet]

/-- 36 bytes each. -/
theorem length_twoPackets (keys : Keys) (seq : UInt32) :
    (sealStream chacha20Poly1305 keys seq twoPackets).length = 72 := by
  rw [twoPackets, sealStream, sealStream, sealStream, List.append_nil, List.length_append,
    length_sealPacket, length_sealPacket]
  rfl

/-- What the client sends of them. -/
def twoPacketStream (p : TinysshPacket) : Bytes :=
  sealStream chacha20Poly1305 p.clientKeys p.receivepacketid twoPackets

/-- The session they reach. -/
def twoPacketSession : TinysshPacket := keyedSession (Vector.replicate 128 7) 3

/-- Two packets: the first read ends inside the length of the first, the second inside the other
packet.  What is left of that one after the first was got is its beginning, as it came. -/
theorem receive_reassembly_cut : ∃ s data,
    Run (receiveStep chacha20Poly1305) (fun _ _ => True)
      ⟨twoPacketSession, twoPacketStream twoPacketSession, []⟩ s ∧
    s.delivered = [oneByte.payload] ∧ s.packet.receivepacketid = 4 ∧
    (recvStart s.packet).Holds data ∧ data.length = 20 ∧ data ++ s.wire =
      sealPacket chacha20Poly1305 twoPacketSession.clientKeys 4 anotherByte.packet := by
  have hstart : (recvStart twoPacketSession).Holds [] := recvStart_keyedSession _ _
  have hparsed : twoPacketSession.packetLength = 0 := by
    rw [twoPacketSession, keyedSession, packetInit]
  have hid : twoPacketSession.receivepacketid = 3 := by rw [twoPacketSession, keyedSession]
  have hlimit : ∀ pkt ∈ twoPackets, pkt.packetLength ≤ PACKET_LIMIT := by
    intro pkt hpkt
    rcases List.mem_pair.mp hpkt with rfl | rfl
    · decide
    · decide
  generalize twoPacketSession = p at *
  have hspec := receive_reassembly chacha20Poly1305 twoPackets hlimit p [] (twoPacketStream p)
    hstart hparsed (by rw [List.nil_append, twoPacketStream])
  have hlen : (twoPacketStream p).length = 72 := length_twoPackets _ _
  generalize hwire : twoPacketStream p = wire at *
  obtain ⟨p₁, hfirst, hheld⟩ : ∃ p₁, receiveStep chacha20Poly1305 ⟨p, wire, []⟩ (.recv 3) =
      some ⟨p₁, wire.drop 3, []⟩ ∧ (recvStart p₁).Holds ([] ++ wire.take 3) :=
    receiveStep_recv _ _ _ hstart (by decide) (by decide) (by decide) (by omega)
  have hmiddle : ([] ++ wire.take 3).length = 3 := by
    rw [List.nil_append, List.length_take, hlen]
    rfl
  obtain ⟨p₂, hsecond, -⟩ := receiveStep_recv chacha20Poly1305 (wire.drop 3) [] hheld
    (n := 53) (by rw [hmiddle]; decide) (by decide) (by decide) (by rw [List.length_drop]; omega)
  have hread : Run (receiveStep chacha20Poly1305) (fun _ _ => True) ⟨p, wire, []⟩
      ⟨p₂, (wire.drop 3).drop 53, []⟩ := (Run.start.next trivial hfirst).next trivial hsecond
  have hleft : ((wire.drop 3).drop 53).length = 16 := by
    rw [List.length_drop, List.length_drop, hlen]
  generalize (wire.drop 3).drop 53 = left at *
  obtain ⟨done, todo, data, hpkts, hdelivered, -, -, hrest, ⟨q, hget⟩, -⟩ := hspec _ hread
  obtain rfl : done = [] := List.map_eq_nil_iff.mp hdelivered.symm
  obtain rfl : todo = twoPackets := hpkts
  have hdata : data.length = 56 := by
    have hlength := congrArg List.length hrest
    rw [length_twoPackets, List.length_append, hleft] at hlength
    omega
  have hnext : nextPayload data twoPackets = oneByte.payload := by
    rw [twoPackets, nextPayload, hdata]
    rfl
  rw [hnext] at hget
  have hthird : receiveStep chacha20Poly1305 ⟨p₂, left, []⟩ .get =
      some ⟨q, left, [oneByte.payload]⟩ := by
    simp only [receiveStep, hget]
    rfl
  have hrun := hread.next trivial hthird
  obtain ⟨done, todo, data, hpkts, hdelivered, hseq, hholds, hrest, -⟩ := hspec _ hrun
  obtain ⟨pkt, rfl⟩ : ∃ pkt, done = [pkt] :=
    List.length_eq_one_iff.mp ((List.length_map ..).symm.trans (congrArg _ hdelivered.symm))
  obtain ⟨-, rfl⟩ := List.cons.inj hpkts
  have hfour : q.receivepacketid = 4 := by rw [hseq, hid]; rfl
  rw [hfour, sealStream, sealStream, List.append_nil] at hrest
  have hkept : data.length = 20 := by
    have hlength := congrArg List.length hrest
    rw [List.length_append, hleft, length_sealPacket] at hlength
    exact Nat.add_right_cancel (m := 16) hlength
  exact ⟨_, data, hrun, rfl, hfour, hholds, hkept, hrest⟩

end Glossh.Ssh
