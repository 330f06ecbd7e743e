/-
# Complete packets left in the receive buffer

The main loop takes packets out of `recvbuf` until `packet_get` brings none, and then waits in
`poll`.  It also stops taking them where `packet_get` dropped an IGNORE or DEBUG packet (the buffer
is empty then, too), where it reports a DISCONNECT, and where a key exchange begins; and it is
entered from the key exchange and from authentication with whatever these left in `recvbuf`.
`packet_getall`, which serves those, goes on after a dropped packet.

A client whose packets arrive one by one never sees a difference.  `drained_at_poll`: nor does one
that sends nothing right behind such a packet.  `undrained_at_poll` has a data packet behind an
IGNORE packet, in one read.
-/
import Glossh.Lib.Run
import Glossh.Ssh.PacketGet
import Glossh.Ssh.Sealing

namespace Glossh.Ssh

open Bytes SshPacket

/-! ## 1. The loop and its buffer -/

/-- Where a session is. -/
inductive LoopAt where
  /-- In a key exchange or in authentication: at the calls of `packet_getall`. -/
  | handshake
  /-- At the `poll` of the main loop. -/
  | poll
  /-- At the `packet_get` of "process packets". -/
  | packets
  | left
deriving DecidableEq

structure DrainSystem where
  packet : TinysshPacket
  flagkeys : Bool
  pos : LoopAt

inductive DrainEvent where
  /-- `packet_recv` in `packet_getall`. -/
  | handshakeRecv (r : ReadResult)
  /-- `packet_get` in `packet_getall`. -/
  | handshakeGet (flagauthorized : Bool) (x : UInt8)
  /-- `packet_kexdh` derived its keys, `flagkeys` is set. -/
  | kexdh (clientkey : Vector UInt8 128)
  /-- The main loop is entered. -/
  | enter
  /-- `poll`, and `packet_recv` if the connection was watched and is ready. -/
  | poll (r : Option ReadResult)
  /-- `packet_get` and the `switch`; `handled` says whether the packet's function lets the session
  go on. -/
  | get (handled : Bool)
  /-- The session ends for a reason of its own. -/
  | leave

section

variable (C : Cipher)

/-- "process packets" on what `packet_get` came to. -/
def afterGet (s : DrainSystem) (handled : Bool) :
    Except Exit (Bool × TinysshPacket × Buf) → DrainSystem
  | .error _ => { s with pos := .left }
  | .ok (false, p, _) => { s with packet := p, pos := .poll }
  | .ok (true, p, b) =>
    if b.data.length < 1 then { s with packet := p, pos := .poll }
    else if b.data.headD 0 = SSH_MSG_KEXINIT then { s with packet := p, pos := .handshake }
    else { s with packet := p, pos := if handled then .packets else .left }

def drainStep (s : DrainSystem) : DrainEvent → Option DrainSystem
  | .handshakeRecv r =>
    if s.pos = .handshake then
      some { s with
        packet := (packetRecv s.packet r).1
        pos := if (packetRecv s.packet r).2 then .handshake else .left }
    else none
  | .handshakeGet flagauthorized x =>
    if s.pos = .handshake then
      match packetGet C s.flagkeys flagauthorized x s.packet freshBuf with
      | .ok (true, p, _) => some { s with packet := p }
      | .ok (false, p, _) => some { s with packet := p, pos := .left }
      | .error _ => some { s with pos := .left }
    else none
  | .kexdh clientkey =>
    if s.pos = .handshake then
      some { s with packet := { s.packet with clientkey := clientkey }, flagkeys := true }
    else none
  | .enter => if s.pos = .handshake ∧ s.flagkeys then some { s with pos := .poll } else none
  | .poll none => if s.pos = .poll then some { s with pos := .packets } else none
  | .poll (some r) =>
    if s.pos = .poll then
      some { s with
        packet := (packetRecv s.packet r).1
        pos := if (packetRecv s.packet r).2 then .packets else .left }
    else none
  | .get handled =>
    if s.pos = .packets then
      some (afterGet s handled (packetGet C s.flagkeys true 0 s.packet freshBuf))
    else none
  | .leave => some { s with pos := .left }

/-- No complete packet is in the buffer: `packet_get_` brings nothing. -/
def Drained (flagkeys : Bool) (p : TinysshPacket) : Prop :=
  ∀ q b, packetGetAny C flagkeys p freshBuf = .ok (q, b) → b.data = []

/-- The packets after which the loop waits. -/
def Stops (payload : Bytes) : Prop :=
  payload ≠ [] ∧ (payload.headD 0 = SSH_MSG_DISCONNECT ∨ payload.headD 0 = SSH_MSG_IGNORE ∨
    payload.headD 0 = SSH_MSG_DEBUG)

/-- No complete packet was received behind the last one of a key exchange or of authentication
when the main loop is entered, nor behind an IGNORE, DEBUG or DISCONNECT when the loop takes it. -/
def NothingBehind (s : DrainSystem) : DrainEvent → Prop
  | .enter => Drained C s.flagkeys s.packet
  | .get _ => ∀ q b, packetGetAny C s.flagkeys s.packet freshBuf = .ok (q, b) → Stops b.data →
      Drained C s.flagkeys q
  | _ => True

end

/-- A session at its first key exchange. -/
def drainStart : DrainSystem := ⟨packetInit, false, .handshake⟩

/-! ## 2. Taking packets out -/

section

variable {C : Cipher}

/-- **What brought nothing brings nothing again.** -/
theorem drained_of_nil {flagkeys : Bool} {p q : TinysshPacket} {b : Buf} (h : p.InSpace)
    (hget : packetGetAny C flagkeys p freshBuf = .ok (q, b)) (hnil : b.data = []) :
    Drained C flagkeys q := by
  obtain ⟨-, ⟨-, hagain⟩ | ⟨x, hx⟩⟩ := packetGetAny_cases h hget
  · intro r c hr
    obtain ⟨r', hr'⟩ := hagain freshBuf
    rw [hr'] at hr
    obtain ⟨-, rfl⟩ := Prod.mk.inj (Except.ok.inj hr)
    rfl
  · have hpos := hx.pos
    rw [hx.buf_eq] at hnil
    change [] ++ x = [] at hnil
    rw [List.nil_append] at hnil
    rw [hnil] at hpos
    cases hpos

/-- The buffer stays inside its space, and is drained at every `poll`. -/
structure DrainInv (C : Cipher) (s : DrainSystem) : Prop where
  inSpace : s.packet.InSpace
  drained : s.pos = .poll → Drained C s.flagkeys s.packet

/-- Where `packet_get` leaves the receive buffer. -/
theorem packetGet_inSpace {flagkeys flagauthorized ok : Bool} {x : UInt8} {p q : TinysshPacket}
    {b : Buf} (h : p.InSpace)
    (hget : packetGet C flagkeys flagauthorized x p freshBuf = .ok (ok, q, b)) : q.InSpace := by
  obtain ⟨c, hany, -⟩ := packetGet_cases hget
  exact (packetGetAny_cases h hany).1

/-- Where nothing was delivered the loop goes to `poll`. -/
theorem afterGet_nil {s : DrainSystem} {handled : Bool} {q : TinysshPacket} {b : Buf}
    (hany : packetGetAny C s.flagkeys s.packet freshBuf = .ok (q, b)) (hnil : b.data = []) :
    afterGet s handled (packetGet C s.flagkeys true 0 s.packet freshBuf) =
      { s with packet := q, pos := .poll } := by
  have hshort : b.data.length < 1 := by
    rw [hnil]
    exact Nat.zero_lt_one
  rw [packetGet_nil true 0 hany hnil, afterGet, if_pos hshort]

/-- **What one turn of "process packets" leaves**: it goes on to `poll` with a drained buffer,
unless it took a packet that stops it. -/
theorem afterGet_drained {s : DrainSystem} {handled : Bool} (h : s.packet.InSpace)
    (hbehind : NothingBehind C s (.get handled))
    (hpoll : (afterGet s handled (packetGet C s.flagkeys true 0 s.packet freshBuf)).pos = .poll) :
    Drained C (afterGet s handled (packetGet C s.flagkeys true 0 s.packet freshBuf)).flagkeys
      (afterGet s handled (packetGet C s.flagkeys true 0 s.packet freshBuf)).packet := by
  rcases hget : packetGet C s.flagkeys true 0 s.packet freshBuf with e | ⟨ok, q, b⟩
  · rw [hget] at hpoll
    cases hpoll
  obtain ⟨c, hany, ⟨hnil, rfl, rfl⟩ | ⟨hsome, hswitch⟩⟩ := packetGet_cases hget
  · rw [← hget, afterGet_nil hany hnil]
    exact drained_of_nil h hany hnil
  · obtain ⟨rfl, htype⟩ | ⟨rfl, hnil, htype⟩ | ⟨rfl, rfl, -⟩ := packetGetSwitch_cases hswitch
    · exact hbehind q c hany ⟨hsome, .inl htype⟩
    · have hshort : b.data.length < 1 := by
        rw [hnil]
        exact Nat.zero_lt_one
      rw [afterGet, if_pos hshort]
      exact hbehind q c hany ⟨hsome, .inr htype⟩
    · have hlong : ¬ b.data.length < 1 := by
        intro hshort
        exact hsome (List.eq_nil_of_length_eq_zero (by omega))
      rw [hget, afterGet, if_neg hlong] at hpoll
      split at hpoll
      · cases hpoll
      · cases handled
        · cases hpoll
        · cases hpoll

/-- A packet that stops the loop leads to `poll`, with what was received behind it. -/
theorem afterGet_stops {s : DrainSystem} {handled : Bool} {q : TinysshPacket} {b : Buf}
    (h : s.packet.InSpace) (hany : packetGetAny C s.flagkeys s.packet freshBuf = .ok (q, b))
    (hstops : Stops b.data) :
    afterGet s handled (packetGet C s.flagkeys true 0 s.packet freshBuf) =
      { s with packet := q, pos := .poll } := by
  obtain ⟨hsome, htype⟩ := hstops
  have hpurge : b.purge = .ok { b with data := [] } := by
    obtain ⟨-, ⟨rfl, -⟩ | ⟨x, hx⟩⟩ := packetGetAny_cases h hany
    · exact absurd rfl hsome
    · exact hx.ok.purge
  rw [packetGet_switch 0 hany hsome, packetGetSwitch, hpurge]
  rcases htype with htype | htype | htype
  · rw [if_pos htype]
    rfl
  · rw [if_neg (by rw [htype]; decide), if_pos htype]
    rfl
  · rw [if_neg (by rw [htype]; decide), if_neg (by rw [htype]; decide), if_pos htype]
    rfl

/-- The buffer stays inside its space in "process packets". -/
theorem afterGet_inSpace {s : DrainSystem} {handled : Bool} (h : s.packet.InSpace) :
    (afterGet s handled
      (packetGet C s.flagkeys true 0 s.packet freshBuf)).packet.InSpace := by
  rcases hget : packetGet C s.flagkeys true 0 s.packet freshBuf with e | ⟨ok, q, b⟩
  · exact h
  · have hq := packetGet_inSpace h hget
    cases ok with
    | false => exact hq
    | true =>
      rw [afterGet]
      split
      · exact hq
      · split
        · exact hq
        · exact hq

/-- Everything that a step can do, and where. -/
inductive DrainMove (C : Cipher) (s : DrainSystem) : DrainEvent → DrainSystem → Prop where
  | handshakeRecv (r : ReadResult) (hpos : s.pos = .handshake) (p : TinysshPacket) (ok : Bool)
      (hrecv : packetRecv s.packet r = (p, ok)) :
    DrainMove C s (.handshakeRecv r)
      { s with packet := p, pos := if ok then .handshake else .left }
  | handshakeGet (flagauthorized : Bool) (x : UInt8) (hpos : s.pos = .handshake) (ok : Bool)
      (p : TinysshPacket) (b : Buf)
      (hget : packetGet C s.flagkeys flagauthorized x s.packet freshBuf = .ok (ok, p, b))
      (pos : LoopAt) (hne : pos ≠ .poll) :
    DrainMove C s (.handshakeGet flagauthorized x) { s with packet := p, pos := pos }
  | handshakeError (flagauthorized : Bool) (x : UInt8) (hpos : s.pos = .handshake) :
    DrainMove C s (.handshakeGet flagauthorized x) { s with pos := .left }
  | kexdh (clientkey : Vector UInt8 128) (hpos : s.pos = .handshake) :
    DrainMove C s (.kexdh clientkey)
      { s with packet := { s.packet with clientkey := clientkey }, flagkeys := true }
  | enter (hpos : s.pos = .handshake) : DrainMove C s .enter { s with pos := .poll }
  | idle (hpos : s.pos = .poll) : DrainMove C s (.poll none) { s with pos := .packets }
  | recv (r : ReadResult) (hpos : s.pos = .poll) (p : TinysshPacket) (ok : Bool)
      (hrecv : packetRecv s.packet r = (p, ok)) :
    DrainMove C s (.poll (some r)) { s with packet := p, pos := if ok then .packets else .left }
  | get (handled : Bool) (hpos : s.pos = .packets) :
    DrainMove C s (.get handled)
      (afterGet s handled (packetGet C s.flagkeys true 0 s.packet freshBuf))
  | leave : DrainMove C s .leave { s with pos := .left }

/-- **A step is one of these.** -/
theorem drainStep_move {s s' : DrainSystem} {e : DrainEvent} (hstep : drainStep C s e = some s') :
    DrainMove C s e s' := by
  cases e with
  | handshakeRecv r =>
    rw [drainStep] at hstep
    rcases hrecv : packetRecv s.packet r with ⟨p, ok⟩
    rw [hrecv] at hstep
    split at hstep
    · rename_i hpos
      cases hstep
      exact .handshakeRecv r hpos p ok hrecv
    · cases hstep
  | handshakeGet flagauthorized x =>
    rw [drainStep] at hstep
    split at hstep
    · rename_i hpos
      split at hstep
      · rename_i hget
        cases hstep
        exact .handshakeGet flagauthorized x hpos _ _ _ hget s.pos (by rw [hpos]; decide)
      · rename_i hget
        cases hstep
        exact .handshakeGet flagauthorized x hpos _ _ _ hget .left (by decide)
      · cases hstep
        exact .handshakeError flagauthorized x hpos
    · cases hstep
  | kexdh clientkey =>
    rw [drainStep] at hstep
    split at hstep
    · rename_i hpos
      cases hstep
      exact .kexdh clientkey hpos
    · cases hstep
  | enter =>
    rw [drainStep] at hstep
    split at hstep
    · rename_i hpos
      cases hstep
      exact .enter hpos.1
    · cases hstep
  | poll r =>
    cases r with
    | none =>
      rw [drainStep] at hstep
      split at hstep
      · rename_i hpos
        cases hstep
        exact .idle hpos
      · cases hstep
    | some r =>
      rw [drainStep] at hstep
      rcases hrecv : packetRecv s.packet r with ⟨p, ok⟩
      rw [hrecv] at hstep
      split at hstep
      · rename_i hpos
        cases hstep
        exact .recv r hpos p ok hrecv
      · cases hstep
  | get handled =>
    rw [drainStep] at hstep
    split at hstep
    · rename_i hpos
      cases hstep
      exact .get handled hpos
    · cases hstep
  | leave =>
    cases hstep
    exact .leave

/-- **The buffer stays inside its space.** -/
theorem DrainMove.inSpace {s s' : DrainSystem} {e : DrainEvent} (h : s.packet.InSpace)
    (hmove : DrainMove C s e s') : s'.packet.InSpace := by
  have hspace {r : ReadResult} {p : TinysshPacket} {ok : Bool}
      (hrecv : packetRecv s.packet r = (p, ok)) : p.InSpace := by
    have hkept := h.packetRecv r
    rwa [hrecv] at hkept
  cases hmove with
  | handshakeRecv r hpos p ok hrecv => exact hspace hrecv
  | handshakeGet flagauthorized x hpos ok p b hget => exact packetGet_inSpace h hget
  | handshakeError => exact h
  | kexdh => exact ⟨h.space_length, h.recvlen_lt⟩
  | enter => exact h
  | idle => exact h
  | recv r hpos p ok hrecv => exact hspace hrecv
  | get handled => exact afterGet_inSpace h
  | leave => exact h

/-- **What one step keeps.**  Only the entry of the loop and "process packets" lead to `poll`. -/
theorem DrainInv.step {s s' : DrainSystem} (h : DrainInv C s) (e : DrainEvent)
    (hbehind : NothingBehind C s e) (hstep : drainStep C s e = some s') : DrainInv C s' := by
  have hleft {ok : Bool} {a : LoopAt} (hr : (if ok then a else LoopAt.left) = .poll) :
      a = .poll := by
    cases ok with
    | true => exact hr
    | false => cases hr
  have hmove := drainStep_move hstep
  refine ⟨hmove.inSpace h.inSpace, fun hpoll => ?_⟩
  cases hmove with
  | handshakeRecv => cases hleft hpoll
  | handshakeGet flagauthorized x hpos ok p b hget pos hne => exact absurd hpoll hne
  | handshakeError => cases hpoll
  | kexdh clientkey hpos => cases hpos.symm.trans hpoll
  | enter => exact hbehind
  | idle => cases hpoll
  | recv => cases hleft hpoll
  | get handled => exact afterGet_drained h.inSpace hbehind hpoll
  | leave => cases hpoll

end

/-! ## 3. Packets in the buffer -/

section

variable (C : Cipher) (key : Vector UInt8 128)

/-- A session whose main loop was entered, with nothing in `recvbuf`. -/
theorem runTrace_enter (check : DrainSystem → DrainEvent → Bool)
    (hkexdh : check drainStart (.kexdh key) = true)
    (henter : check ⟨keyedSession key 0, true, .handshake⟩ .enter = true) (l : List DrainEvent) :
    runTrace (drainStep C) check (.kexdh key :: .enter :: l) drainStart =
      runTrace (drainStep C) check l ⟨keyedSession key 0, true, .poll⟩ := by
  rw [runTrace, if_pos hkexdh]
  change runTrace (drainStep C) check (.enter :: l) ⟨keyedSession key 0, true, .handshake⟩ = _
  rw [runTrace, if_pos henter]
  rfl

theorem packetGetAny_keyedSession :
    ∃ q, packetGetAny C true (keyedSession key 0) freshBuf = .ok (q, freshBuf) :=
  ⟨_, chachapolyPacketGet_short (C := C) (recvStart_keyedSession key 0) (by decide) freshBuf⟩

end

/-- An IGNORE packet without data. -/
def ignorePacket : SshPacket.Packet :=
  paddedPacket (SSH_MSG_IGNORE :: sshString []) false (by decide)

section

variable {C : Cipher} {p : TinysshPacket}

/-- A read that brings packets. -/
theorem drainStep_poll_data {data x : Bytes} (h : (recvStart p).Holds data)
    (hready : packetRecvisready (recvStart p) = true) (hne : x ≠ [])
    (hx : x.length ≤ PACKET_FULLLIMIT) :
    ∃ q, drainStep C ⟨p, true, .poll⟩ (.poll (some (.data x))) = some ⟨q, true, .packets⟩ ∧
      q.Holds (data ++ x) ∧ q.clientKeys = p.clientKeys ∧
      q.receivepacketid = p.receivepacketid ∧ q.packetLength = p.packetLength := by
  have hread := packetRecv_holds h hready hne hx
  obtain ⟨hlen, hid, hkey⟩ := packetRecv_frame p (.data x)
  have hok : (packetRecv p (.data x)).2 = true := by
    simp only [packetRecv, if_pos hready, ReadResult.upTo_data hne hx]
  refine ⟨(packetRecv p (.data x)).1, ?_, hread, TinysshPacket.clientKeys_congr hkey, hid, hlen⟩
  rw [drainStep, if_pos rfl, hok, if_pos rfl]

/-- An empty buffer is read into. -/
theorem packetRecvisready_of_nil (h : (recvStart p).Holds []) :
    packetRecvisready (recvStart p) = true := by
  rw [packetRecvisready, h.recvlen_eq]
  decide

/-- The bytes of packets, received and not consumed. -/
def HoldsPackets (C : Cipher) (p : TinysshPacket) (pkts : List SshPacket.Packet) : Prop :=
  p.Holds (sealStream C p.clientKeys p.receivepacketid pkts) ∧ p.packetLength = 0

/-- The first of them is taken. -/
theorem HoldsPackets.packetGetAny {pkt : SshPacket.Packet} {pkts : List SshPacket.Packet}
    (h : HoldsPackets C p (pkt :: pkts)) (hlimit : pkt.packetLength ≤ PACKET_LIMIT) : ∃ q,
    packetGetAny C true p freshBuf = .ok (q, { freshBuf with data := pkt.payload }) ∧
      HoldsPackets C q pkts ∧ q.receivepacketid = p.receivepacketid + 1 := by
  have hfront : p.Holds (sealPacket C p.clientKeys p.receivepacketid pkt ++
      sealStream C p.clientKeys (p.receivepacketid + 1) pkts) := h.1
  obtain ⟨hopened, hnext, hid, hkeys⟩ := openedState_spec hfront (.inl h.2)
  refine ⟨_, packetGetAny_sealed hfront h.2 hlimit, ⟨?_, hnext⟩, hid⟩
  rw [hkeys, hid]
  exact hopened

/-- Where there are none, nothing is. -/
theorem HoldsPackets.packetGetAny_nil (h : HoldsPackets C p []) :
    Ssh.packetGetAny C true p freshBuf = .ok (p, freshBuf) := by
  have hholds : (recvStart p).Holds [] := by
    rw [h.1.recvStart_eq]
    exact h.1
  have hsame : { p with packetLength := 0 } = p := by rw [← h.2]
  have hshort := chachapolyPacketGet_short (C := C) hholds (by decide) freshBuf
  rwa [hsame] at hshort

theorem HoldsPackets.drained (h : HoldsPackets C p []) : Drained C true p := by
  intro q b hany
  rw [h.packetGetAny_nil] at hany
  obtain ⟨-, rfl⟩ := Prod.mk.inj (Except.ok.inj hany)
  rfl

/-- Packets arrive in one read. -/
theorem drainStep_poll_packets {pkts : List SshPacket.Packet} (h : (recvStart p).Holds [])
    (hparsed : p.packetLength = 0)
    (hpos : 0 < (sealStream C p.clientKeys p.receivepacketid pkts).length)
    (hfull : (sealStream C p.clientKeys p.receivepacketid pkts).length ≤ PACKET_FULLLIMIT) : ∃ q,
    drainStep C ⟨p, true, .poll⟩
      (.poll (some (.data (sealStream C p.clientKeys p.receivepacketid pkts)))) =
      some ⟨q, true, .packets⟩ ∧ HoldsPackets C q pkts ∧
        q.receivepacketid = p.receivepacketid := by
  obtain ⟨q, hstep, hholds, hkeys, hid, hlen⟩ := drainStep_poll_data (C := C) h
    (packetRecvisready_of_nil h) (List.ne_nil_of_length_pos hpos) hfull
  rw [List.nil_append] at hholds
  refine ⟨q, hstep, ⟨?_, hlen.trans hparsed⟩, hid⟩
  rw [hkeys, hid]
  exact hholds

/-- The loop handles a packet and goes on. -/
theorem HoldsPackets.handled {pkt : SshPacket.Packet} {pkts : List SshPacket.Packet}
    (h : HoldsPackets C p (pkt :: pkts)) (hlimit : pkt.packetLength ≤ PACKET_LIMIT)
    (hne : pkt.payload ≠ []) (hon : ¬ Stops pkt.payload)
    (hkexinit : pkt.payload.headD 0 ≠ SSH_MSG_KEXINIT) : ∃ q,
    NothingBehind C ⟨p, true, .packets⟩ (.get true) ∧
      drainStep C ⟨p, true, .packets⟩ (.get true) = some ⟨q, true, .packets⟩ ∧
      HoldsPackets C q pkts ∧ q.receivepacketid = p.receivepacketid + 1 := by
  obtain ⟨q, hany, hq, hid⟩ := h.packetGetAny hlimit
  have hbehind : NothingBehind C ⟨p, true, .packets⟩ (.get true) := by
    intro r b hget hstops
    obtain ⟨-, rfl⟩ := Prod.mk.inj (Except.ok.inj (hany.symm.trans hget).symm)
    exact absurd hstops hon
  refine ⟨q, hbehind, ?_, hq, hid⟩
  have hno : pkt.payload.headD 0 ≠ SSH_MSG_DISCONNECT ∧ pkt.payload.headD 0 ≠ SSH_MSG_IGNORE ∧
      pkt.payload.headD 0 ≠ SSH_MSG_DEBUG :=
    ⟨fun htype => hon ⟨hne, .inl htype⟩, fun htype => hon ⟨hne, .inr (.inl htype)⟩,
      fun htype => hon ⟨hne, .inr (.inr htype)⟩⟩
  have hget : packetGet C true true 0 p freshBuf =
      .ok (true, q, { freshBuf with data := pkt.payload }) := by
    rw [packetGet_switch 0 hany hne, packetGetSwitch, if_neg hno.1, if_neg hno.2.1, if_neg hno.2.2]
    rfl
  have hlong : ¬ pkt.payload.length < 1 := fun hlt =>
    hne (List.eq_nil_of_length_eq_zero (by omega))
  rw [drainStep, if_pos rfl, hget, afterGet, if_neg hlong, if_neg hkexinit]
  rfl

/-- A packet that stops the loop, with nothing behind it. -/
theorem HoldsPackets.stopped {pkt : SshPacket.Packet} (h : HoldsPackets C p [pkt])
    (hlimit : pkt.packetLength ≤ PACKET_LIMIT) (hstops : Stops pkt.payload) : ∃ q,
    NothingBehind C ⟨p, true, .packets⟩ (.get true) ∧
      drainStep C ⟨p, true, .packets⟩ (.get true) = some ⟨q, true, .poll⟩ ∧
      HoldsPackets C q [] ∧ q.receivepacketid = p.receivepacketid + 1 := by
  obtain ⟨q, hany, hq, hid⟩ := h.packetGetAny hlimit
  have hspace : p.InSpace := ⟨h.1.space_length, h.1.recvlen_lt⟩
  refine ⟨q, ?_, ?_, hq, hid⟩
  · intro r b hget _
    obtain ⟨rfl, -⟩ := Prod.mk.inj (Except.ok.inj (hany.symm.trans hget).symm)
    exact hq.drained
  · rw [drainStep, if_pos rfl, @afterGet_stops C ⟨p, true, .packets⟩ true q _ hspace hany hstops]

/-- Nothing is left, and the loop goes to `poll`. -/
theorem HoldsPackets.finished (h : HoldsPackets C p []) :
    NothingBehind C ⟨p, true, .packets⟩ (.get true) ∧
      drainStep C ⟨p, true, .packets⟩ (.get true) = some ⟨p, true, .poll⟩ := by
  refine ⟨fun r b hget hstops => absurd (h.drained r b hget) hstops.1, ?_⟩
  rw [drainStep, if_pos rfl,
    @afterGet_nil C ⟨p, true, .packets⟩ true p freshBuf h.packetGetAny_nil rfl]

end

/-! ## 4. Drained before waiting -/

/-- **Drained before waiting**: in every run in which nothing complete is left behind the packets
that stop the loop, no complete packet is in the buffer at any `poll`.  The first step that does
leave one behind leads to a `poll` with a complete packet in the buffer. -/
theorem drained_at_poll (C : Cipher) (s : DrainSystem)
    (hs : Run (drainStep C) (NothingBehind C) drainStart s) :
    (s.pos = .poll → Drained C s.flagkeys s.packet) ∧
      ∀ e s', drainStep C s e = some s' → ¬ NothingBehind C s e →
        s'.pos = .poll ∧ ¬ Drained C s'.flagkeys s'.packet := by
  have hinv : DrainInv C s := hs.invariant (DrainInv C)
    ⟨TinysshPacket.InSpace.packetInit, fun hpoll => by cases hpoll⟩
    fun _ e _ h hbehind hstep => h.step e hbehind hstep
  refine ⟨hinv.drained, ?_⟩
  intro e s' hstep hnot
  cases drainStep_move hstep with
  | enter => exact ⟨rfl, hnot⟩
  | get handled hpos =>
    simp only [NothingBehind, not_forall] at hnot
    obtain ⟨q, b, hany, hstops, hbehind⟩ := hnot
    rw [afterGet_stops hinv.inSpace hany hstops]
    exact ⟨rfl, hbehind⟩
  | _ => exact absurd trivial hnot

/-- A session in which two data packets come in one read, and then an IGNORE packet alone. -/
theorem drained_at_poll_reads : ∃ s t,
    Run (drainStep chacha20Poly1305) (NothingBehind chacha20Poly1305) drainStart s ∧
      s.pos = .poll ∧ s.packet.receivepacketid = 2 ∧
      Drained chacha20Poly1305 s.flagkeys s.packet ∧
    Run (drainStep chacha20Poly1305) (NothingBehind chacha20Poly1305) drainStart t ∧
      t.pos = .poll ∧ t.packet.receivepacketid = 3 ∧
      Drained chacha20Poly1305 t.flagkeys t.packet := by
  have hstart := recvStart_keyedSession (Vector.replicate 128 7) 0
  have hparsed : (keyedSession (Vector.replicate 128 7) 0).packetLength = 0 := by
    rw [keyedSession, packetInit]
  have hid : (keyedSession (Vector.replicate 128 7) 0).receivepacketid = 0 := by rw [keyedSession]
  obtain ⟨q, hnone⟩ := packetGetAny_keyedSession chacha20Poly1305 (Vector.replicate 128 7)
  have hkexdh : drainStep chacha20Poly1305 drainStart (.kexdh (Vector.replicate 128 7)) =
      some ⟨keyedSession (Vector.replicate 128 7) 0, true, .handshake⟩ := rfl
  generalize keyedSession (Vector.replicate 128 7) 0 = p at *
  have hdrained : Drained chacha20Poly1305 true p := by
    intro r b hget
    rw [hnone] at hget
    obtain ⟨-, rfl⟩ := Prod.mk.inj (Except.ok.inj hget)
    rfl
  have hfree : NothingBehind chacha20Poly1305 drainStart (.kexdh (Vector.replicate 128 7)) :=
    trivial
  have henter : NothingBehind chacha20Poly1305 ⟨p, true, .handshake⟩ .enter := hdrained
  have hentered := (Run.start.next hfree hkexdh).next henter rfl
  -- Two data packets.
  have hlen₁ : (sealStream chacha20Poly1305 p.clientKeys p.receivepacketid
      [oneByte.packet, oneByte.packet]).length = 72 := by
    rw [sealStream, sealStream, sealStream, List.length_append, List.length_append,
      length_sealPacket, length_sealPacket]
    rfl
  have hdata : ¬ Stops oneByte.packet.payload := by
    rintro ⟨-, htype⟩
    exact absurd htype (by decide)
  obtain ⟨p₁, hpoll₁, h₁, hid₁⟩ := drainStep_poll_packets (C := chacha20Poly1305) hstart hparsed
    (by rw [hlen₁]; decide) (by rw [hlen₁]; decide)
  obtain ⟨p₂, hbehind₂, hget₂, h₂, hid₂⟩ := h₁.handled (by decide) (by decide) hdata (by decide)
  obtain ⟨p₃, hbehind₃, hget₃, h₃, hid₃⟩ := h₂.handled (by decide) (by decide) hdata (by decide)
  obtain ⟨hbehind₄, hget₄⟩ := h₃.finished
  have hwait₁ : NothingBehind chacha20Poly1305 ⟨p, true, .poll⟩ (.poll (some (.data (sealStream
    chacha20Poly1305 p.clientKeys p.receivepacketid [oneByte.packet, oneByte.packet])))) := trivial
  have hfirst := (((hentered.next hwait₁ hpoll₁).next hbehind₂ hget₂).next hbehind₃ hget₃).next
    hbehind₄ hget₄
  -- The IGNORE packet.
  have hlen₅ : (sealStream chacha20Poly1305 p₃.clientKeys p₃.receivepacketid
      [ignorePacket]).length = 44 := by
    rw [sealStream, sealStream, List.length_append, length_sealPacket]
    rfl
  obtain ⟨p₅, hpoll₅, h₅, hid₅⟩ := drainStep_poll_packets (C := chacha20Poly1305)
    (by rw [h₃.1.recvStart_eq]; exact h₃.1) h₃.2 (by rw [hlen₅]; decide) (by rw [hlen₅]; decide)
  obtain ⟨p₆, hbehind₆, hget₆, h₆, hid₆⟩ := h₅.stopped (by decide)
    ⟨by decide, .inr (.inl (by decide))⟩
  have hwait₅ : NothingBehind chacha20Poly1305 ⟨p₃, true, .poll⟩ (.poll (some (.data (sealStream
    chacha20Poly1305 p₃.clientKeys p₃.receivepacketid [ignorePacket])))) := trivial
  have hsecond := (hfirst.next hwait₅ hpoll₅).next hbehind₆ hget₆
  refine ⟨_, _, hfirst, rfl, ?_, (drained_at_poll chacha20Poly1305 _ hfirst).1 rfl, hsecond, rfl,
    ?_, (drained_at_poll chacha20Poly1305 _ hsecond).1 rfl⟩
  · change p₃.receivepacketid = 2
    rw [hid₃, hid₂, hid₁, hid]
    rfl
  · change p₆.receivepacketid = 3
    rw [hid₆, hid₅, hid₃, hid₂, hid₁, hid]
    rfl

/-- An IGNORE packet and a packet with a byte of data arrive in one read.  The loop takes the first
and waits, with the second in the buffer. -/
theorem undrained_at_poll : ∃ s,
    runTrace (drainStep chacha20Poly1305) (fun _ _ => true)
      [.kexdh (Vector.replicate 128 7), .enter,
        .poll (some (.data (sealStream chacha20Poly1305
          (keyedSession (Vector.replicate 128 7) 0).clientKeys 0 [ignorePacket, oneByte.packet]))),
        .get true] drainStart = some s ∧
    s.pos = .poll ∧ ¬ Drained chacha20Poly1305 s.flagkeys s.packet := by
  rw [runTrace_enter _ (Vector.replicate 128 7) _ rfl rfl]
  have hstart := recvStart_keyedSession (Vector.replicate 128 7) 0
  have hparsed : (keyedSession (Vector.replicate 128 7) 0).packetLength = 0 := by
    rw [keyedSession, packetInit]
  have hid : (keyedSession (Vector.replicate 128 7) 0).receivepacketid = 0 := by rw [keyedSession]
  generalize keyedSession (Vector.replicate 128 7) 0 = p at *
  have hlen : (sealStream chacha20Poly1305 p.clientKeys 0 [ignorePacket, oneByte.packet]).length =
      80 := by
    rw [sealStream, sealStream, sealStream, List.length_append, List.length_append,
      length_sealPacket, length_sealPacket]
    rfl
  rw [← hid] at hlen ⊢
  obtain ⟨q, hpoll, hq, -⟩ := drainStep_poll_packets (C := chacha20Poly1305) hstart hparsed
    (by rw [hlen]; decide) (by rw [hlen]; decide)
  obtain ⟨r, hignore, hr, -⟩ := hq.packetGetAny (by decide)
  obtain ⟨_, hsecond, -⟩ := hr.packetGetAny (by decide)
  have hspace : q.InSpace := ⟨hq.1.space_length, hq.1.recvlen_lt⟩
  have hget := @afterGet_stops chacha20Poly1305 ⟨q, true, .packets⟩ true r _ hspace hignore
    ⟨by decide, .inr (.inl (by decide))⟩
  refine ⟨⟨r, true, .poll⟩, ?_, rfl, ?_⟩
  · rw [runTrace, if_pos rfl, hpoll, Option.bind_some, runTrace, if_pos rfl, drainStep, if_pos rfl,
      hget]
    rfl
  · intro hdrained
    exact absurd (hdrained _ _ hsecond) (by decide)

end Glossh.Ssh
