/-
# Where `chachapoly_packet_get` works

The copy of the rest counts `l - packet_length + AB + 4` bytes: it lacks its parentheses, and is 40
bytes longer than the rest.  The purge behind it begins 40 bytes later than it should and ends 40
bytes behind what was received.  As long as `recvbuf` is not nearly full that is inside
`recvbufspace`, and it leaves nothing behind: the 40 bytes are copied from zeros, and the purge
takes the old place of everything else.

With less than 40 bytes left the copy reads and the purge writes `sendbufspace`.
-/
import Glossh.Ssh.Drain

namespace Glossh.Ssh

open Bytes SshPacket

/-! ## 1. What a call touches -/

/-- The state with no access recorded. -/
def TinysshPacket.unwatched (p : TinysshPacket) : TinysshPacket :=
  p.withSpace fun m => Region.ofBytes m.bytes

/-- Every byte read or written lies in `recvbufspace`, the payload that is put into the caller's
buffer included. -/
structure StaysInside (b b' : Buf) (q : TinysshPacket) : Prop where
  spans : ∀ span ∈ q.space.touched, span.1 + span.2 ≤ RECVBUF_SIZE
  payload : PACKET_ZEROBYTES + 5 + (b'.data.length - b.data.length) ≤ RECVBUF_SIZE

section

variable {C : Cipher} {p q : TinysshPacket} {b b' : Buf}

/-- The packet at the front, in the clear. -/
def opened (C : Cipher) (p : TinysshPacket) : TinysshPacket :=
  decryptPacket C (computeOtk C (parseLength C p))

theorem opened_frame (C : Cipher) (p : TinysshPacket) : (opened C p).recvlen = p.recvlen ∧
    (opened C p).packetLength = (parseLength C p).packetLength ∧
    (opened C p).receivepacketid = p.receivepacketid ∧ (opened C p).clientkey = p.clientkey := by
  obtain ⟨hrecv, hlen, hid, hkey⟩ := computeOtk_frame C (parseLength C p)
  obtain ⟨hrecv', hlen', hid', hkey'⟩ := decryptPacket_frame C (computeOtk C (parseLength C p))
  refine ⟨?_, hlen'.trans hlen, ?_, ?_⟩
  · rw [opened, hrecv', hrecv, parseLength_recvlen]
  · rw [opened, hid', hid, parseLength_receivepacketid]
  · rw [opened, hkey', hkey, parseLength_clientkey]

/-- **A call that returns** left the buffer as it was, or found the whole packet, decrypted it and
removed it. -/
theorem chachapolyPacketGet_returns (h : p.InSpace)
    (hget : chachapolyPacketGet C p b = .ok (q, b')) :
    (b' = b ∧ q.space.bytes = p.space.bytes ∧ q.recvlen = p.recvlen) ∨
    (q = removePacket (opened C p) ∧ (parseLength C p).packetLength ≤ PACKET_LIMIT ∧
      PACKET_ZEROBYTES + ((parseLength C p).packetLength + AB + 4) ≤ p.recvlen ∧
      ∃ x : Bytes, x.length < (parseLength C p).packetLength ∧
        b' = { b with data := b.data ++ x }) := by
  have hZ : PACKET_ZEROBYTES = 64 := rfl
  have hA : AB = 16 := rfl
  obtain ⟨hrecv, hlen, -⟩ := opened_frame C p
  obtain ⟨-, rfl, rfl⟩ | ⟨-, -, -, rfl, rfl⟩ | ⟨hlimit, hall, hprocess⟩ :=
    chachapolyPacketGet_ok hget
  · exact .inl ⟨rfl, rfl, rfl⟩
  · exact .inl ⟨rfl, parseLength_bytes C p, parseLength_recvlen C p⟩
  have hopen : (opened C p).InSpace := ((h.parseLength C).computeOtk C).decryptPacket C
  change processPacket (opened C p) b = _ at hprocess
  rw [processPacket] at hprocess
  split at hprocess
  · cases hprocess
  have hpayload : payloadLength (opened C p) ≤ (opened C p).packetLength - 1 := by
    rw [payloadLength]
    omega
  have hx := hopen.length_get (a := PACKET_ZEROBYTES + 5)
    (n := (payloadLength (opened C p)).toNat) (by omega)
  cases hput : b.put ((opened C p).space.get (PACKET_ZEROBYTES + 5)
      (payloadLength (opened C p)).toNat) with
  | error e =>
    rw [hput] at hprocess
    cases hprocess
  | ok c =>
    rw [hput] at hprocess
    obtain ⟨rfl, rfl⟩ := Prod.mk.inj (Except.ok.inj hprocess)
    exact .inr ⟨rfl, by omega, by omega, _, by omega, (Buf.put_ok hput).1⟩

/-- **Before the packet is removed** only what was received is touched. -/
theorem touched_opened
    (hall : PACKET_ZEROBYTES + ((parseLength C p).packetLength + AB + 4) ≤ p.recvlen) :
    ∀ span ∈ (opened C p).space.touched, span ∈ p.space.touched ∨ span.1 + span.2 ≤ p.recvlen := by
  have hZ : PACKET_ZEROBYTES = 64 := rfl
  have hA : AB = 16 := rfl
  have hparse : ∀ span ∈ (parseLength C p).space.touched, span ∈ p.space.touched ∨
      span.1 + span.2 ≤ p.recvlen := by
    intro span hspan
    rw [parseLength] at hspan
    split at hspan
    · rcases List.mem_cons.mp hspan with rfl | hspan
      · refine .inr ?_
        change PACKET_ZEROBYTES + 4 ≤ p.recvlen
        omega
      · exact .inl hspan
    · exact .inl hspan
  have hotk : ∀ span ∈ (computeOtk C (parseLength C p)).space.touched, span ∈ p.space.touched ∨
      span.1 + span.2 ≤ p.recvlen := by
    intro span hspan
    have hlen : ∀ m : Region, (xorWith (C.keystream (packNonce (parseLength C p).receivepacketid)
        ((parseLength C p).keyAt 0)) (m.get 0 32)).length ≤ 32 := by
      intro m
      rw [length_xorWith]
      exact List.length_take_le _ _
    rcases List.mem_cons.mp hspan with rfl | hspan
    · refine .inr ?_
      have hle := hlen ((parseLength C p).space.zero 0 32)
      change 0 + _ ≤ p.recvlen
      omega
    rcases List.mem_cons.mp hspan with rfl | hspan
    · refine .inr ?_
      change 0 + 32 ≤ p.recvlen
      omega
    rcases List.mem_cons.mp hspan with rfl | hspan
    · refine .inr ?_
      rw [List.length_replicate]
      omega
    · exact hparse span hspan
  obtain ⟨-, hlen, -⟩ := computeOtk_frame C (parseLength C p)
  intro span hspan
  rcases List.mem_cons.mp hspan with rfl | hspan
  · refine .inr ?_
    have hle : ((computeOtk C (parseLength C p)).space.get 4
        ((computeOtk C (parseLength C p)).packetLength + PACKET_ZEROBYTES)).length ≤
          (computeOtk C (parseLength C p)).packetLength + PACKET_ZEROBYTES :=
      List.length_take_le _ _
    rw [length_xorWith]
    omega
  rcases List.mem_cons.mp hspan with rfl | hspan
  · refine .inr ?_
    change 4 + ((computeOtk C (parseLength C p)).packetLength + PACKET_ZEROBYTES) ≤ p.recvlen
    omega
  · exact hotk span hspan

/-- **Removing the packet** reads and writes 40 bytes past what was received. -/
theorem touched_removePacket (p : TinysshPacket)
    (hall : PACKET_ZEROBYTES + (p.packetLength + AB + 4) ≤ p.recvlen) :
    (∃ span ∈ (removePacket p).space.touched, span.1 + span.2 = p.recvlen + 40) ∧
      ∀ span ∈ (removePacket p).space.touched, span ∈ p.space.touched ∨
        span.1 + span.2 ≤ p.recvlen + 40 := by
  have hZ : PACKET_ZEROBYTES = 64 := rfl
  have hA : AB = 16 := rfl
  have htouched : (removePacket p).space.touched =
      (0, (List.replicate PACKET_ZEROBYTES (0 : UInt8)).length) ::
        (PACKET_ZEROBYTES + (p.recvlen - PACKET_ZEROBYTES) - p.packetLength + AB + 4,
          (List.replicate (p.packetLength + AB + 4) (0 : UInt8)).length) ::
        (PACKET_ZEROBYTES, p.recvlen - PACKET_ZEROBYTES - p.packetLength + AB + 4) ::
        (PACKET_ZEROBYTES + p.packetLength + AB + 4,
          p.recvlen - PACKET_ZEROBYTES - p.packetLength + AB + 4) :: p.space.touched := rfl
  simp only [List.length_replicate] at htouched
  rw [htouched]
  constructor
  · refine ⟨_, List.mem_cons_of_mem _ List.mem_cons_self, ?_⟩
    simp only
    omega
  · intro span hspan
    simp only [List.mem_cons] at hspan
    rcases hspan with rfl | rfl | rfl | rfl | hspan
    · exact .inr (by simp only; omega)
    · exact .inr (by simp only; omega)
    · exact .inr (by simp only; omega)
    · exact .inr (by simp only; omega)
    · exact .inl hspan

/-- **`chachapoly_packet_get` stays inside `recvbufspace` exactly as long as 40 bytes of it are
left.** -/
theorem chachapolyPacketGet_inside_iff (h : p.InSpace)
    (hget : chachapolyPacketGet C p.unwatched b = .ok (q, b')) (hne : b' ≠ b) :
    StaysInside b b' q ↔ p.recvlen + 40 ≤ RECVBUF_SIZE := by
  have hspace : p.unwatched.InSpace := ⟨h.space_length, h.recvlen_lt⟩
  obtain ⟨rfl, hlimit, hall, x, hx, rfl⟩ :=
    (chachapolyPacketGet_returns hspace hget).resolve_left fun hnone => hne hnone.1
  obtain ⟨hrecv, hlen, -⟩ := opened_frame C p.unwatched
  have hsame : p.unwatched.recvlen = p.recvlen := rfl
  rw [hsame] at hrecv hall
  have hwhole : PACKET_ZEROBYTES + ((opened C p.unwatched).packetLength + AB + 4) ≤
      (opened C p.unwatched).recvlen := by
    rw [hlen, hrecv]
    exact hall
  obtain ⟨hpast, hspans⟩ := touched_removePacket _ hwhole
  rw [hrecv] at hpast hspans
  constructor
  · intro hinside
    obtain ⟨span, hspan, hend⟩ := hpast
    have hle := hinside.spans span hspan
    omega
  · intro hroom
    constructor
    · intro span hspan
      rcases hspans span hspan with hspan | hle
      · rcases touched_opened hall span hspan with hspan | hle
        · cases hspan
        · omega
      · omega
    · have hZ : PACKET_ZEROBYTES = 64 := rfl
      have hA : AB = 16 := rfl
      simp only [List.length_append]
      omega

/-- Recorded accesses are no part of what was received. -/
theorem TinysshPacket.Holds.unwatched {data : Bytes} (h : p.Holds data) : p.unwatched.Holds data :=
  ⟨h.space_length, h.recvlen_eq, h.recvlen_lt, h.data_eq⟩

/-- A payload makes a buffer another. -/
theorem ne_freshBuf {x : Bytes} (h : 0 < x.length) : { freshBuf with data := x } ≠ freshBuf := by
  intro hsame
  have hdata := congrArg Buf.data hsame
  change x = [] at hdata
  rw [hdata] at h
  cases h

/-- A sealed packet at the front of the buffer, with no access recorded. -/
theorem chachapolyPacketGet_unwatched {pkt : SshPacket.Packet} {rest : Bytes}
    (h : p.Holds (sealPacket C p.clientKeys p.receivepacketid pkt ++ rest))
    (hparsed : p.packetLength = 0) (hlimit : pkt.packetLength ≤ PACKET_LIMIT) :
    chachapolyPacketGet C p.unwatched freshBuf =
      .ok (openedState C p.unwatched, { freshBuf with data := pkt.payload }) :=
  packetGetAny_sealed (p := p.unwatched) h.unwatched hparsed hlimit

end

/-- A packet that arrives alone is taken out inside the space. -/
theorem chachapolyPacketGet_inside_alone : ∃ q b',
    chachapolyPacketGet chacha20Poly1305
      (arrived chacha20Poly1305 (Vector.replicate 128 7) 3 oneByte.packet).unwatched freshBuf =
        .ok (q, b') ∧ StaysInside freshBuf b' q := by
  have hholds :=
    arrived_holds chacha20Poly1305 (Vector.replicate 128 7) 3 oneByte.packet (by decide)
  obtain ⟨-, -, hparsed⟩ := arrived_frame chacha20Poly1305 (Vector.replicate 128 7) 3 oneByte.packet
  generalize arrived chacha20Poly1305 (Vector.replicate 128 7) 3 oneByte.packet = p at *
  have hget := chachapolyPacketGet_unwatched hholds hparsed (by decide)
  have hroom : p.recvlen + 40 ≤ RECVBUF_SIZE := by
    rw [hholds.recvlen_eq, List.append_nil, length_sealPacket]
    decide
  exact ⟨_, _, hget, (chachapolyPacketGet_inside_iff ⟨hholds.space_length, hholds.recvlen_lt⟩ hget
    (ne_freshBuf (by decide))).mpr hroom⟩

/-! ## 2. A full buffer -/

/-- The bytes of an IGNORE packet. -/
theorem length_ignorePacket (C : Cipher) (keys : Keys) (seq : UInt32) :
    (sealPacket C keys seq ignorePacket).length = 44 := by
  rw [length_sealPacket]
  rfl

section

variable {C : Cipher} {p : TinysshPacket} {n l r : ℕ}

/-- The first `l` bytes of `n` IGNORE packets were received and not consumed. -/
def Ignores (C : Cipher) (p : TinysshPacket) (n l : ℕ) : Prop :=
  (recvStart p).Holds ((sealStream C p.clientKeys p.receivepacketid
    (List.replicate n ignorePacket)).take l) ∧ p.packetLength = 0 ∧ l ≤ 44 * n

theorem length_ignores (C : Cipher) (keys : Keys) (seq : UInt32) (n : ℕ) :
    (sealStream C keys seq (List.replicate n ignorePacket)).length = 44 * n := by
  induction n generalizing seq with
  | zero => rfl
  | succ n ih =>
    rw [List.replicate_succ, sealStream, List.length_append, length_ignorePacket, ih]
    omega

/-- **A read of `r` bytes**. -/
theorem Ignores.poll (h : Ignores C p n l)
    (hfit : PACKET_ZEROBYTES + l + PACKET_FULLLIMIT < RECVBUF_SIZE) (hpos : 0 < r)
    (hfull : r ≤ PACKET_FULLLIMIT) (hall : l + r ≤ 44 * n) : ∃ q,
    Run (drainStep C) (fun _ _ => True) ⟨p, true, .poll⟩ ⟨q, true, .packets⟩ ∧
      Ignores C q n (l + r) ∧ q.Holds ((sealStream C q.clientKeys q.receivepacketid
        (List.replicate n ignorePacket)).take (l + r)) := by
  obtain ⟨hholds, hparsed, hl⟩ := h
  have hlen := length_ignores C p.clientKeys p.receivepacketid n
  generalize hT : sealStream C p.clientKeys p.receivepacketid (List.replicate n ignorePacket) = T
    at *
  have htake : (T.take l).length = l := by
    rw [List.length_take, hlen]
    omega
  have hx : ((T.drop l).take r).length = r := by
    rw [List.length_take, List.length_drop, hlen]
    omega
  have hsplit : T.take l ++ (T.drop l).take r = T.take (l + r) := List.take_add.symm
  have hready : packetRecvisready (recvStart p) = true := by
    rw [packetRecvisready, hholds.recvlen_eq, decide_eq_true_eq, htake]
    exact hfit
  obtain ⟨q, hstep, hread, hkeys, hid, hpl⟩ := drainStep_poll_data (C := C) hholds hready
    (List.ne_nil_of_length_pos (by rw [hx]; exact hpos)) (by rw [hx]; exact hfull)
  rw [hsplit, ← hT, ← hkeys, ← hid] at hread
  refine ⟨q, Run.start.next trivial hstep, ⟨?_, hpl.trans hparsed, hall⟩, hread⟩
  rwa [hread.recvStart_eq]

/-- **A turn of "process packets"** takes one of them and waits. -/
theorem Ignores.get (h : Ignores C p (n + 1) l) (hone : 44 ≤ l) : ∃ q,
    Run (drainStep C) (fun _ _ => True) ⟨p, true, .packets⟩ ⟨q, true, .poll⟩ ∧
      Ignores C q n (l - 44) := by
  obtain ⟨hholds, hparsed, hl⟩ := h
  have hlen := length_ignorePacket C p.clientKeys p.receivepacketid
  rw [List.replicate_succ, sealStream, List.take_append, List.take_of_length_le
    (by rw [hlen]; exact hone), hlen] at hholds
  have hfront : p.Holds _ := (eq_nil_or_holds hholds).resolve_left fun h =>
    absurd h.2 (List.ne_nil_of_length_pos (by rw [List.length_append, hlen]; omega))
  have hany := packetGetAny_sealed hfront hparsed (by decide)
  obtain ⟨hopened, hnext, hid, hkeys⟩ := openedState_spec hfront (.inl hparsed)
  have hspace : p.InSpace := ⟨hfront.space_length, hfront.recvlen_lt⟩
  have hafter := @afterGet_stops C ⟨p, true, .packets⟩ true _ _ hspace hany
    ⟨by decide, .inr (.inl (by decide))⟩
  have hstep : drainStep C ⟨p, true, .packets⟩ (.get true) =
      some ⟨openedState C p, true, .poll⟩ := by
    rw [drainStep, if_pos rfl, hafter]
  refine ⟨_, Run.start.next trivial hstep, ?_, hnext, by omega⟩
  rw [hopened.recvStart_eq, hkeys, hid]
  exact hopened

/-- An iteration of the main loop. -/
theorem Ignores.turn (h : Ignores C p (n + 1) l)
    (hfit : PACKET_ZEROBYTES + l + PACKET_FULLLIMIT < RECVBUF_SIZE) (hpos : 0 < r)
    (hfull : r ≤ PACKET_FULLLIMIT) (hall : l + r ≤ 44 * (n + 1)) (hone : 44 ≤ l + r) : ∃ q,
    Run (drainStep C) (fun _ _ => True) ⟨p, true, .poll⟩ ⟨q, true, .poll⟩ ∧
      Ignores C q n (l + r - 44) := by
  obtain ⟨q, hpoll, hq, -⟩ := h.poll hfit hpos hfull hall
  obtain ⟨q', hget, hq'⟩ := hq.get hone
  exact ⟨q', hpoll.trans hget, hq'⟩

end

/-- **A client that sends IGNORE packets fills the buffer**: the loop takes one of them behind each
read.  At the fifth read `recvbuf` is as full as it can be, and taking the next packet leaves the
space. -/
theorem chachapolyPacketGet_outside : ∃ s,
    Run (drainStep chacha20Poly1305) (fun _ _ => True) drainStart s ∧ s.pos = .packets ∧
      s.packet.recvlen = RECVBUF_SIZE - 1 ∧ ∃ q b',
        chachapolyPacketGet chacha20Poly1305 s.packet.unwatched freshBuf = .ok (q, b') ∧
          b' ≠ freshBuf ∧ ¬ StaysInside freshBuf b' q := by
  have hstart := recvStart_keyedSession (Vector.replicate 128 7) 0
  have hparsed : (keyedSession (Vector.replicate 128 7) 0).packetLength = 0 := by
    rw [keyedSession, packetInit]
  have hkexdh : drainStep chacha20Poly1305 drainStart (.kexdh (Vector.replicate 128 7)) =
      some ⟨keyedSession (Vector.replicate 128 7) 0, true, .handshake⟩ := rfl
  generalize keyedSession (Vector.replicate 128 7) 0 = p at *
  have henter : drainStep chacha20Poly1305 ⟨p, true, .handshake⟩ .enter =
      some ⟨p, true, .poll⟩ := rfl
  have hnone : Ignores chacha20Poly1305 p 395 0 := ⟨hstart, hparsed, by decide⟩
  obtain ⟨p1, hrun1, h1⟩ := hnone.turn (r := 4300) (by decide) (by decide) (by decide) (by decide)
    (by decide)
  obtain ⟨p2, hrun2, h2⟩ := h1.turn (r := 4300) (by decide) (by decide) (by decide) (by decide)
    (by decide)
  obtain ⟨p3, hrun3, h3⟩ := h2.turn (r := 4300) (by decide) (by decide) (by decide) (by decide)
    (by decide)
  obtain ⟨p4, hrun4, h4⟩ := h3.turn (r := 176) (by decide) (by decide) (by decide) (by decide)
    (by decide)
  obtain ⟨q, hrun5, h5, hholds⟩ := h4.poll (r := 4300) (by decide) (by decide) (by decide)
    (by decide)
  have hrun : Run (drainStep chacha20Poly1305) (fun _ _ => True) drainStart ⟨p, true, .poll⟩ :=
    (Run.start.next trivial hkexdh).next trivial henter
  have hlen := length_ignorePacket chacha20Poly1305 q.clientKeys q.receivepacketid
  have htotal := length_ignores chacha20Poly1305 q.clientKeys q.receivepacketid 391
  have hrecv : q.recvlen = RECVBUF_SIZE - 1 := by
    rw [hholds.recvlen_eq, List.length_take, htotal]
    decide
  rw [show (391 : ℕ) = 390 + 1 from rfl, List.replicate_succ, sealStream, List.take_append,
    List.take_of_length_le (by rw [hlen]; decide), hlen] at hholds
  have hget := chachapolyPacketGet_unwatched hholds h5.2.1 (by decide)
  refine ⟨⟨q, true, .packets⟩,
    hrun.trans (hrun1.trans (hrun2.trans (hrun3.trans (hrun4.trans hrun5)))), rfl, hrecv, _, _,
    hget, ne_freshBuf (by decide), ?_⟩
  intro hinside
  have hspace : q.unwatched.InSpace := ⟨hholds.space_length, hholds.recvlen_lt⟩
  obtain ⟨hopened, -, hwhole, -⟩ := (chachapolyPacketGet_returns hspace hget).resolve_left
    fun hnone => ne_freshBuf (by decide) hnone.1
  obtain ⟨hframe, hframe', -⟩ := opened_frame chacha20Poly1305 q.unwatched
  obtain ⟨⟨span, hspan, hend⟩, -⟩ := touched_removePacket (opened chacha20Poly1305 q.unwatched)
    (by rw [hframe', hframe]; exact hwhole)
  rw [← hopened] at hspan
  have hle := hinside.spans span hspan
  have hsame : q.unwatched.recvlen = q.recvlen := rfl
  rw [hframe, hsame, hrecv] at hend
  have hR : RECVBUF_SIZE = 17265 := rfl
  omega

end Glossh.Ssh
