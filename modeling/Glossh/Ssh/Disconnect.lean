/-
# What follows a DISCONNECT

`packet_get` reports a DISCONNECT by returning 0 with `errno` 0.  In `packet_getall` that ends the
session.  In the main loop `if (!errno) break;` stands inside "process packets": it leaves that
loop and not the loop around it, so that the session waits in `poll` again and takes what comes.

A session behaves as if it had ended only as long as the client sends no packet after its
DISCONNECT.
-/
import Glossh.Ssh.Drain

namespace Glossh.Ssh

open Bytes SshPacket

/-! ## 1. The loop, and what it takes after a DISCONNECT -/

/-- `packet_get` returned 0. -/
def reportsDisconnect : Except Exit (Bool × TinysshPacket × Buf) → Bool
  | .ok (false, _, _) => true
  | _ => false

/-- What goes to the `switch` of the main loop. -/
def dispatched : Except Exit (Bool × TinysshPacket × Buf) → List Bytes
  | .ok (true, _, b) => if b.data.length < 1 then [] else [b.data]
  | _ => []

/-- A session, whether the main loop was told of a DISCONNECT, and the packets it dispatched since
then. -/
structure DisconnectSystem where
  drain : DrainSystem
  disconnected : Bool
  late : List Bytes

section

variable (C : Cipher)

def disconnectStep (s : DisconnectSystem) (e : DrainEvent) : Option DisconnectSystem :=
  (drainStep C s.drain e).map fun d =>
    match e with
    | .get _ =>
      let r := packetGet C s.drain.flagkeys true 0 s.drain.packet freshBuf
      { drain := d
        disconnected := s.disconnected || reportsDisconnect r
        late := if s.disconnected then s.late ++ dispatched r else s.late }
    | _ => { s with drain := d }

/-- No packet follows a DISCONNECT: none was received behind it when the loop takes it, and none is
complete after a later `packet_recv`. -/
def NothingFollows (s : DisconnectSystem) : DrainEvent → Prop
  | .get _ => ∀ q b, packetGetAny C s.drain.flagkeys s.drain.packet freshBuf = .ok (q, b) →
      b.data.headD 0 = SSH_MSG_DISCONNECT → Drained C s.drain.flagkeys q
  | .poll (some r) => s.disconnected = true → (packetRecv s.drain.packet r).2 = true →
      Drained C s.drain.flagkeys (packetRecv s.drain.packet r).1
  | _ => True

end

/-- A session at its first key exchange. -/
def disconnectStart : DisconnectSystem := ⟨drainStart, false, []⟩

/-! ## 2. Where no packet follows -/

section

variable {C : Cipher}

/-- A DISCONNECT is not empty. -/
theorem stops_of_disconnect {x : Bytes} (h : x.headD 0 = SSH_MSG_DISCONNECT) : Stops x := by
  refine ⟨?_, .inl h⟩
  rintro rfl
  exact absurd h (by decide)

/-- **What `packet_get` makes of a drained buffer**: nothing, or the session ends. -/
theorem packetGet_drained {flagkeys : Bool} {p : TinysshPacket} (h : Drained C flagkeys p) :
    (∃ e, packetGet C flagkeys true 0 p freshBuf = .error e) ∨
      ∃ q b, packetGetAny C flagkeys p freshBuf = .ok (q, b) ∧ b.data = [] ∧
        packetGet C flagkeys true 0 p freshBuf = .ok (true, q, b) := by
  rcases hget : packetGet C flagkeys true 0 p freshBuf with e | ⟨ok, q, b⟩
  · exact .inl ⟨e, rfl⟩
  · obtain ⟨c, hany, ⟨hnil, rfl, rfl⟩ | ⟨hsome, -⟩⟩ := packetGet_cases hget
    · exact .inr ⟨q, b, hany, hnil, rfl⟩
    · exact absurd (h q c hany) hsome

/-- A report comes from a DISCONNECT at the front of the buffer. -/
theorem packetGet_disconnect {flagkeys : Bool} {p : TinysshPacket}
    (h : reportsDisconnect (packetGet C flagkeys true 0 p freshBuf) = true) : ∃ q c,
    packetGetAny C flagkeys p freshBuf = .ok (q, c) ∧ c.data.headD 0 = SSH_MSG_DISCONNECT := by
  rcases hget : packetGet C flagkeys true 0 p freshBuf with e | ⟨ok, q, b⟩
  · rw [hget] at h
    cases h
  rw [hget] at h
  cases ok with
  | true => cases h
  | false =>
    obtain ⟨c, hany, ⟨-, hok, -⟩ | ⟨-, hswitch⟩⟩ := packetGet_cases hget
    · cases hok
    · obtain ⟨-, htype⟩ | ⟨hok, -⟩ | ⟨hok, -⟩ := packetGetSwitch_cases hswitch
      · exact ⟨q, c, hany, htype⟩
      · cases hok
      · cases hok

/-- After a DISCONNECT the session is in its main loop, with no complete packet in the buffer, or
it was left; and nothing was dispatched. -/
structure Quiet (C : Cipher) (s : DisconnectSystem) : Prop where
  inSpace : s.drain.packet.InSpace
  not_handshake : s.disconnected = true → s.drain.pos ≠ .handshake
  drained : s.disconnected = true → s.drain.pos ≠ .left → Drained C s.drain.flagkeys s.drain.packet
  late_eq : s.late = []

namespace Quiet

variable {s : DisconnectSystem}

/-- A step that does not take a packet, and leads to `d`. -/
theorem of_drain (h : Quiet C s) {d : DrainSystem} (hspace : d.packet.InSpace)
    (hpos : s.disconnected = true → d.pos ≠ .handshake ∧
      (d.pos ≠ .left → Drained C d.flagkeys d.packet)) : Quiet C { s with drain := d } :=
  ⟨hspace, fun hd => (hpos hd).1, fun hd => (hpos hd).2, h.late_eq⟩

/-- "process packets" after a DISCONNECT: nothing is there. -/
theorem get_disconnected (h : Quiet C s) (hd : s.disconnected = true)
    (hpos : s.drain.pos = .packets) (handled : Bool) :
    Quiet C {
      drain := afterGet s.drain handled
        (packetGet C s.drain.flagkeys true 0 s.drain.packet freshBuf)
      disconnected := true
      late := s.late ++
        dispatched (packetGet C s.drain.flagkeys true 0 s.drain.packet freshBuf) } := by
  have hdrained := h.drained hd (by rw [hpos]; decide)
  rcases packetGet_drained hdrained with ⟨e, hget⟩ | ⟨q, b, hany, hnil, hget⟩
  · have hnone : dispatched (.error e) = [] := rfl
    rw [hget, afterGet, hnone, List.append_nil]
    exact ⟨h.inSpace, fun _ => LoopAt.noConfusion, fun _ hleft => absurd rfl hleft, h.late_eq⟩
  · have hafter := @afterGet_nil C s.drain handled q b hany hnil
    have hnone : dispatched (.ok (true, q, b)) = [] := by
      rw [dispatched, hnil]
      rfl
    rw [hget] at hafter ⊢
    rw [hafter, hnone, List.append_nil]
    refine ⟨(packetGetAny_cases h.inSpace hany).1, fun _ => LoopAt.noConfusion, fun _ _ => ?_,
      h.late_eq⟩
    exact drained_of_nil h.inSpace hany hnil

/-- "process packets" before: if the packet is a DISCONNECT, nothing is behind it. -/
theorem get_connected (h : Quiet C s) (handled : Bool)
    (hfollows : NothingFollows C s (.get handled)) :
    Quiet C {
      drain := afterGet s.drain handled
        (packetGet C s.drain.flagkeys true 0 s.drain.packet freshBuf)
      disconnected := reportsDisconnect
        (packetGet C s.drain.flagkeys true 0 s.drain.packet freshBuf)
      late := s.late } := by
  cases hr : reportsDisconnect (packetGet C s.drain.flagkeys true 0 s.drain.packet freshBuf) with
  | false =>
    refine ⟨?_, fun hd => (by cases hd), fun hd => (by cases hd), h.late_eq⟩
    exact afterGet_inSpace h.inSpace
  | true =>
    obtain ⟨q, c, hany, htype⟩ := packetGet_disconnect hr
    rw [afterGet_stops h.inSpace hany (stops_of_disconnect htype)]
    exact ⟨(packetGetAny_cases h.inSpace hany).1, fun _ => LoopAt.noConfusion,
      fun _ _ => hfollows q c hany htype, h.late_eq⟩

/-- **What one step keeps.** -/
theorem step {s' : DisconnectSystem} (h : Quiet C s) (e : DrainEvent)
    (hfollows : NothingFollows C s e) (hstep : disconnectStep C s e = some s') : Quiet C s' := by
  obtain ⟨d, hd, hs'⟩ := Option.map_eq_some_iff.mp hstep
  have hmove := drainStep_move hd
  have hspace := hmove.inSpace h.inSpace
  -- From the handshake no step is taken after a DISCONNECT.
  have hat (hpos : s.drain.pos = .handshake) : s.disconnected = true →
      d.pos ≠ .handshake ∧ (d.pos ≠ .left → Drained C d.flagkeys d.packet) :=
    fun hdis => absurd hpos (h.not_handshake hdis)
  cases hmove with
  | get handled hpos =>
    cases hdis : s.disconnected with
    | true =>
      have hget := h.get_disconnected hdis hpos handled
      simp only [hdis, Bool.true_or, if_true] at hs'
      rwa [← hs']
    | false =>
      have hget := h.get_connected handled hfollows
      simp only [hdis, Bool.false_or, Bool.false_eq_true, if_false] at hs'
      rwa [← hs']
  | idle hpos =>
    subst hs'
    refine h.of_drain hspace fun hdis => ⟨LoopAt.noConfusion, fun _ => ?_⟩
    exact h.drained hdis (by rw [hpos]; decide)
  | recv r hpos p ok hrecv =>
    subst hs'
    refine h.of_drain hspace fun hdis => ?_
    have hbehind : (packetRecv s.drain.packet r).2 = true → Drained C s.drain.flagkeys
      (packetRecv s.drain.packet r).1 := hfollows hdis
    rw [hrecv] at hbehind
    cases ok with
    | true => exact ⟨LoopAt.noConfusion, fun _ => hbehind rfl⟩
    | false => exact ⟨LoopAt.noConfusion, fun hleft => absurd rfl hleft⟩
  | leave =>
    subst hs'
    exact h.of_drain hspace fun _ => ⟨LoopAt.noConfusion, fun hleft => absurd rfl hleft⟩
  | handshakeRecv r hpos =>
    subst hs'
    exact h.of_drain hspace (hat hpos)
  | handshakeGet flagauthorized x hpos =>
    subst hs'
    exact h.of_drain hspace (hat hpos)
  | handshakeError flagauthorized x hpos =>
    subst hs'
    exact h.of_drain hspace (hat hpos)
  | kexdh clientkey hpos =>
    subst hs'
    exact h.of_drain hspace (hat hpos)
  | enter hpos =>
    subst hs'
    exact h.of_drain hspace (hat hpos)

end Quiet

/-! ## 3. Where a packet follows -/

theorem exists_of_not_drained {flagkeys : Bool} {p : TinysshPacket} (h : ¬ Drained C flagkeys p) :
    ∃ q b, packetGetAny C flagkeys p freshBuf = .ok (q, b) ∧ b.data ≠ [] := by
  simp only [Drained, not_forall] at h
  obtain ⟨q, b, hany, hsome⟩ := h
  exact ⟨q, b, hany, hsome⟩

/-- **A packet behind a DISCONNECT is dispatched** at the next `packet_get`. -/
theorem disconnectStep_late {s : DisconnectSystem} (hpos : s.drain.pos = .packets)
    (hd : s.disconnected = true) {q : TinysshPacket} {b : Buf}
    (hany : packetGetAny C s.drain.flagkeys s.drain.packet freshBuf = .ok (q, b))
    (hsome : b.data ≠ []) (hstops : ¬ Stops b.data) :
    ∃ s', disconnectStep C s (.get true) = some s' ∧ s'.late = s.late ++ [b.data] := by
  have hother : ∀ t, t = SSH_MSG_DISCONNECT ∨ t = SSH_MSG_IGNORE ∨ t = SSH_MSG_DEBUG →
      b.data.headD 0 ≠ t := by
    intro t ht htype
    subst htype
    exact hstops ⟨hsome, ht⟩
  have hget : packetGet C s.drain.flagkeys true 0 s.drain.packet freshBuf = .ok (true, q, b) := by
    rw [packetGet_switch 0 hany hsome, packetGetSwitch, if_neg (hother _ (.inl rfl)),
      if_neg (hother _ (.inr (.inl rfl))), if_neg (hother _ (.inr (.inr rfl))),
      if_neg fun hx => hx.1 rfl]
    rfl
  have hlate : dispatched (.ok (true, q, b)) = [b.data] := by
    rw [dispatched, if_neg]
    intro hshort
    exact hsome (List.eq_nil_of_length_eq_zero (by omega))
  have hdrain : drainStep C s.drain (.get true) = some (afterGet s.drain true
      (packetGet C s.drain.flagkeys true 0 s.drain.packet freshBuf)) := by
    rw [drainStep, if_pos hpos]
  rw [disconnectStep, hdrain]
  refine ⟨_, rfl, ?_⟩
  simp only [hd, if_true, hget, hlate]

/-- **A session dispatches nothing after a DISCONNECT as long as no packet follows it.**  The first
step behind which one does leaves that packet at the front of the buffer; unless `packet_get` drops
it, the main loop dispatches it. -/
theorem nothing_after_disconnect (C : Cipher) (s : DisconnectSystem)
    (hs : Run (disconnectStep C) (NothingFollows C) disconnectStart s) :
    s.late = [] ∧ ∀ e s', disconnectStep C s e = some s' → ¬ NothingFollows C s e →
      ∃ q b, packetGetAny C s'.drain.flagkeys s'.drain.packet freshBuf = .ok (q, b) ∧
        b.data ≠ [] ∧ (Stops b.data ∨
          ∃ t, Run (disconnectStep C) (fun _ _ => True) s' t ∧ t.late = [b.data]) := by
  have hquiet : Quiet C s := hs.invariant (Quiet C)
    ⟨TinysshPacket.InSpace.packetInit, fun hd => (by cases hd), fun hd => (by cases hd), rfl⟩
    fun _ e _ h hfollows hstep => h.step e hfollows hstep
  refine ⟨hquiet.late_eq, ?_⟩
  intro e s' hstep hnot
  -- The state in front of the next `packet_get`.
  have hgoal : ∀ t : DisconnectSystem, Run (disconnectStep C) (fun _ _ => True) s' t →
      t.drain.packet = s'.drain.packet → t.drain.flagkeys = s'.drain.flagkeys →
      t.drain.pos = .packets → t.disconnected = true → t.late = [] →
      ¬ Drained C s'.drain.flagkeys s'.drain.packet →
      ∃ q b, packetGetAny C s'.drain.flagkeys s'.drain.packet freshBuf = .ok (q, b) ∧
        b.data ≠ [] ∧ (Stops b.data ∨
          ∃ t, Run (disconnectStep C) (fun _ _ => True) s' t ∧ t.late = [b.data]) := by
    intro t hrun hpacket hkeys hpos hd hlate hbehind
    obtain ⟨q, b, hany, hsome⟩ := exists_of_not_drained hbehind
    refine ⟨q, b, hany, hsome, ?_⟩
    by_cases hstops : Stops b.data
    · exact .inl hstops
    · rw [← hpacket, ← hkeys] at hany
      obtain ⟨t', ht, hlate'⟩ := disconnectStep_late hpos hd hany hsome hstops
      rw [hlate, List.nil_append] at hlate'
      exact .inr ⟨t', hrun.next trivial ht, hlate'⟩
  obtain ⟨d, hd, hs'⟩ := Option.map_eq_some_iff.mp hstep
  cases drainStep_move hd with
  | get handled =>
    simp only [NothingFollows, not_forall] at hnot
    obtain ⟨q, b, hany, htype, hbehind⟩ := hnot
    have hstops := stops_of_disconnect htype
    have hafter := @afterGet_stops C s.drain handled q b hquiet.inSpace hany hstops
    have hreport : reportsDisconnect
        (packetGet C s.drain.flagkeys true 0 s.drain.packet freshBuf) = true := by
      rw [packetGet_switch 0 hany hstops.1, packetGetSwitch, if_pos htype]
      rfl
    have hnone :
        dispatched (packetGet C s.drain.flagkeys true 0 s.drain.packet freshBuf) = [] := by
      rw [packetGet_switch 0 hany hstops.1, packetGetSwitch, if_pos htype]
      rfl
    simp only [hafter, hreport, hnone, hquiet.late_eq, Bool.or_true, List.append_nil,
      ite_self] at hs'
    subst hs'
    -- `poll` finds nothing ready.
    have hpoll : disconnectStep C ⟨⟨q, s.drain.flagkeys, .poll⟩, true, []⟩ (.poll none) =
        some ⟨⟨q, s.drain.flagkeys, .packets⟩, true, []⟩ := rfl
    exact hgoal _ (Run.start.next trivial hpoll) rfl rfl rfl rfl rfl hbehind
  | recv r hpos p ok hrecv =>
    simp only [NothingFollows, not_forall] at hnot
    obtain ⟨hdis, hok, hbehind⟩ := hnot
    rw [hrecv] at hok hbehind
    obtain rfl : ok = true := hok
    subst hs'
    exact hgoal _ Run.start rfl rfl rfl hdis hquiet.late_eq hbehind
  | _ => exact absurd trivial hnot

end

/-! ## 4. Two sessions -/

/-- A DISCONNECT by the application. -/
def disconnectPacket : SshPacket.Packet :=
  paddedPacket (SSH_MSG_DISCONNECT :: (num32 11 ++ (sshString [] ++ sshString []))) false
    (by decide)

section

variable {C : Cipher} {p : TinysshPacket}

/-- The packets arrive in one read. -/
theorem received_of_poll {pkts : List SshPacket.Packet} (h : (recvStart p).Holds [])
    (hparsed : p.packetLength = 0)
    (hpos : 0 < (sealStream C p.clientKeys p.receivepacketid pkts).length)
    (hfull : (sealStream C p.clientKeys p.receivepacketid pkts).length ≤ PACKET_FULLLIMIT) : ∃ q,
    disconnectStep C ⟨⟨p, true, .poll⟩, false, []⟩
      (.poll (some (.data (sealStream C p.clientKeys p.receivepacketid pkts)))) =
      some ⟨⟨q, true, .packets⟩, false, []⟩ ∧ HoldsPackets C q pkts := by
  obtain ⟨q, hstep, hq, -⟩ := drainStep_poll_packets h hparsed hpos hfull
  exact ⟨q, by rw [disconnectStep, hstep]; rfl, hq⟩

/-- The main loop takes a DISCONNECT and waits. -/
theorem disconnect_taken {pkts : List SshPacket.Packet}
    (h : HoldsPackets C p (disconnectPacket :: pkts)) : ∃ q,
    packetGetAny C true p freshBuf = .ok (q, { freshBuf with data := disconnectPacket.payload }) ∧
      disconnectStep C ⟨⟨p, true, .packets⟩, false, []⟩ (.get true) =
        some ⟨⟨q, true, .poll⟩, true, []⟩ ∧ HoldsPackets C q pkts := by
  obtain ⟨q, hany, hq, -⟩ := h.packetGetAny (by decide)
  refine ⟨q, hany, ?_, hq⟩
  have hspace : p.InSpace := ⟨h.1.space_length, h.1.recvlen_lt⟩
  have htype : disconnectPacket.payload.headD 0 = SSH_MSG_DISCONNECT := by decide
  have hafter := @afterGet_stops C ⟨p, true, .packets⟩ true q _ hspace hany
    (stops_of_disconnect htype)
  have hget : packetGet C true true 0 p freshBuf =
      .ok (false, q, { freshBuf with data := disconnectPacket.payload }) := by
    rw [packetGet_switch 0 hany (by decide), packetGetSwitch, if_pos htype]
    rfl
  rw [disconnectStep, drainStep, if_pos rfl, hafter, Option.map_some]
  simp only [hget, reportsDisconnect, Bool.false_or, Bool.false_eq_true, if_false]

end

/-- A client that disconnects and sends nothing more. -/
theorem nothing_after_disconnect_alone : ∃ s,
    Run (disconnectStep chacha20Poly1305) (NothingFollows chacha20Poly1305) disconnectStart s ∧
      s.disconnected = true ∧ s.late = [] := by
  have hstart := recvStart_keyedSession (Vector.replicate 128 7) 0
  have hparsed : (keyedSession (Vector.replicate 128 7) 0).packetLength = 0 := by
    rw [keyedSession, packetInit]
  have hkexdh : disconnectStep chacha20Poly1305 disconnectStart (.kexdh (Vector.replicate 128 7)) =
      some ⟨⟨keyedSession (Vector.replicate 128 7) 0, true, .handshake⟩, false, []⟩ := rfl
  have hfree : NothingFollows chacha20Poly1305 disconnectStart (.kexdh (Vector.replicate 128 7)) :=
    trivial
  generalize keyedSession (Vector.replicate 128 7) 0 = p at *
  have hlen : (sealStream chacha20Poly1305 p.clientKeys p.receivepacketid
      [disconnectPacket]).length = 52 := by
    rw [sealStream, sealStream, List.append_nil, length_sealPacket]
    rfl
  obtain ⟨q, hpoll, hq⟩ := received_of_poll hstart hparsed (by rw [hlen]; decide)
    (by rw [hlen]; decide)
  obtain ⟨r, hany, hget, hr⟩ := disconnect_taken hq
  have henter : disconnectStep chacha20Poly1305 ⟨⟨p, true, .handshake⟩, false, []⟩ .enter =
      some ⟨⟨p, true, .poll⟩, false, []⟩ := rfl
  have hwait : NothingFollows chacha20Poly1305 ⟨⟨p, true, .handshake⟩, false, []⟩ .enter := trivial
  have hread : NothingFollows chacha20Poly1305 ⟨⟨p, true, .poll⟩, false, []⟩ (.poll (some (.data
      (sealStream chacha20Poly1305 p.clientKeys p.receivepacketid [disconnectPacket])))) := by
    intro hd
    cases hd
  have halone : NothingFollows chacha20Poly1305 ⟨⟨q, true, .packets⟩, false, []⟩ (.get true) := by
    intro q' b hany' htype
    rw [hany] at hany'
    obtain ⟨rfl, -⟩ := Prod.mk.inj (Except.ok.inj hany')
    exact hr.drained
  have hrun := (((Run.start.next hfree hkexdh).next hwait henter).next hread hpoll).next halone hget
  exact ⟨_, hrun, rfl, (nothing_after_disconnect chacha20Poly1305 _ hrun).1⟩

/-- A DISCONNECT and a packet with a byte of data arrive in one read.  The loop waits once more and
dispatches the data. -/
theorem dispatched_after_disconnect : ∃ s,
    Run (disconnectStep chacha20Poly1305) (fun _ _ => True) disconnectStart s ∧
      s.late = [oneByte.payload] := by
  have hstart := recvStart_keyedSession (Vector.replicate 128 7) 0
  have hparsed : (keyedSession (Vector.replicate 128 7) 0).packetLength = 0 := by
    rw [keyedSession, packetInit]
  have hkexdh : disconnectStep chacha20Poly1305 disconnectStart (.kexdh (Vector.replicate 128 7)) =
      some ⟨⟨keyedSession (Vector.replicate 128 7) 0, true, .handshake⟩, false, []⟩ := rfl
  generalize keyedSession (Vector.replicate 128 7) 0 = p at *
  have hlen : (sealStream chacha20Poly1305 p.clientKeys p.receivepacketid
      [disconnectPacket, oneByte.packet]).length = 88 := by
    rw [sealStream, sealStream, sealStream, List.append_nil, List.length_append, length_sealPacket,
      length_sealPacket]
    rfl
  obtain ⟨q, hpoll, hq⟩ := received_of_poll hstart hparsed (by rw [hlen]; decide)
    (by rw [hlen]; decide)
  obtain ⟨r, -, hget, hr⟩ := disconnect_taken hq
  obtain ⟨r', hany, -⟩ := hr.packetGetAny (by decide)
  have henter : disconnectStep chacha20Poly1305 ⟨⟨p, true, .handshake⟩, false, []⟩ .enter =
      some ⟨⟨p, true, .poll⟩, false, []⟩ := rfl
  have hwait : disconnectStep chacha20Poly1305 ⟨⟨r, true, .poll⟩, true, []⟩ (.poll none) =
      some ⟨⟨r, true, .packets⟩, true, []⟩ := rfl
  have hdata : ¬ Stops oneByte.packet.payload := by
    rintro ⟨-, htype⟩
    revert htype
    decide
  obtain ⟨s, hlast, hlate⟩ := @disconnectStep_late chacha20Poly1305 ⟨⟨r, true, .packets⟩, true, []⟩
    rfl rfl r' _ hany (by decide) hdata
  have hrun : Run (disconnectStep chacha20Poly1305) (fun _ _ => True) disconnectStart s :=
    (((((Run.start.next trivial hkexdh).next trivial henter).next trivial hpoll).next trivial
      hget).next trivial hwait).next trivial hlast
  exact ⟨s, hrun, hlate⟩

end Glossh.Ssh
