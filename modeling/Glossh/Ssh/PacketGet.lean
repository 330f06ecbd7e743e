/-
# `packet_get.c`: packets before the first key exchange, and what is kept from the callers

Until `flagkeys` is set packets come in the clear.  Either way a packet that is all there is moved
out of `recvbuf`, whose length stays within its space, and its payload has fewer than
`PACKET_LIMIT` bytes.  `packet_get` then drops IGNORE and DEBUG, reports DISCONNECT, counts what an
unauthenticated client sends and insists on the type that was asked for.
-/
import Glossh.Ssh.Messages
import Glossh.Ssh.Reassembly

namespace Glossh.Ssh

open Bytes SshPacket

/-! ## 1. `packet_get` -/

def PACKET_UNAUTHENTICATED_MESSAGES : ℕ := 30

/-- The end of `packet_get_plain_`: the rest of what was received is moved to the front.  The count
`l - packet_length + 4` lacks its parentheses. -/
def removePlain (p : TinysshPacket) (packetLength : ℕ) : TinysshPacket :=
  let pp := PACKET_ZEROBYTES
  let l := p.recvlen - PACKET_ZEROBYTES
  { p with
    space := (p.space.copy pp (l - packetLength + 4) (pp + packetLength + 4)).zero
      (pp + l - packetLength + 4) (packetLength + 4)
    recvlen := p.recvlen - (packetLength + 4)
    receivepacketid := p.receivepacketid + 1 }

/-- `packet_get_plain_`, which always returns 1. -/
def packetGetPlain (p : TinysshPacket) (b : Buf) : Except Exit (TinysshPacket × Buf) :=
  let l : ℤ := (p.recvlen : ℤ) - PACKET_ZEROBYTES
  if l < 4 then .ok (p, b)
  else
    let packetLength := ofBe (p.space.get PACKET_ZEROBYTES 4)
    if packetLength > PACKET_LIMIT then bugProto
    else if (packetLength + 4 : ℤ) > l then .ok (p, b)
    else
      let len : ℤ :=
        (packetLength : ℤ) - (((p.space.get (PACKET_ZEROBYTES + 4) 1).headD 0).toNat + 1)
      if len ≤ 0 then bugProto
      else do
        let b ← b.put (p.space.get (PACKET_ZEROBYTES + 5) len.toNat)
        return (removePlain p packetLength, b)

section

variable (C : Cipher)

/-- `packet_get_`. -/
def packetGetAny (flagkeys : Bool) (p : TinysshPacket) (b : Buf) :
    Except Exit (TinysshPacket × Buf) :=
  if flagkeys then chachapolyPacketGet C p b else packetGetPlain p b

/-- The `switch` of `packet_get`: what it returns, and the buffer. -/
def packetGetSwitch (x : UInt8) (b : Buf) : Except Exit (Bool × Buf) :=
  if b.data.headD 0 = SSH_MSG_DISCONNECT then .ok (false, b)
  else if b.data.headD 0 = SSH_MSG_IGNORE then (b.purge).map fun b => (true, b)
  else if b.data.headD 0 = SSH_MSG_DEBUG then (b.purge).map fun b => (true, b)
  else if x ≠ 0 ∧ x ≠ b.data.headD 0 then bugProto
  else .ok (true, b)

/-- `packet_get`; where it returns 0, `errno` is 0. -/
def packetGet (flagkeys flagauthorized : Bool) (x : UInt8) (p : TinysshPacket) (b : Buf) :
    Except Exit (Bool × TinysshPacket × Buf) := do
  let b ← b.purge
  let (p, b) ← packetGetAny C flagkeys p b
  if b.data.length ≤ 0 then return (true, p, b)
  else if !flagauthorized && p.receivepacketid.toNat > PACKET_UNAUTHENTICATED_MESSAGES then bugProto
  else do
    let (ok, b) ← packetGetSwitch x b
    return (ok, p, b)

end

/-! ## 2. The receive buffer stays inside its space -/

/-- `recvbufspace` is what it is, and `recvbuf.len` is less than its size. -/
structure TinysshPacket.InSpace (p : TinysshPacket) : Prop where
  space_length : p.space.bytes.length = RECVBUF_SIZE + SENDBUF_SIZE
  recvlen_lt : p.recvlen < RECVBUF_SIZE

namespace TinysshPacket.InSpace

variable {p : TinysshPacket}

theorem packetInit : packetInit.InSpace :=
  ⟨by rw [Ssh.packetInit, Region.bytes_ofBytes, List.length_replicate], by decide⟩

theorem recvStart (h : p.InSpace) : (recvStart p).InSpace := by
  rw [Ssh.recvStart]
  split
  · refine ⟨?_, (by decide : PACKET_ZEROBYTES < RECVBUF_SIZE)⟩
    rw [Region.length_zero (by rw [h.space_length]; decide), h.space_length]
  · exact h

theorem packetRecv (h : p.InSpace) (r : ReadResult) : (packetRecv p r).1.InSpace := by
  have hstart := h.recvStart
  rw [Ssh.packetRecv]
  split
  · rename_i hready
    have hroom : (Ssh.recvStart p).recvlen + PACKET_FULLLIMIT < RECVBUF_SIZE :=
      of_decide_eq_true hready
    cases r with
    | data x =>
      rw [ReadResult.upTo]
      split
      · rename_i hread
        split at hread
        · cases hread
        · cases hread
          have htake : (x.take PACKET_FULLLIMIT).length ≤ PACKET_FULLLIMIT :=
            List.length_take_le _ _
          have hlen := hstart.space_length
          refine ⟨?_, ?_⟩
          · rw [Region.bytes_write, length_overwrite (by omega), hlen]
          · simp only
            omega
      all_goals exact hstart
    | eof => exact hstart
    | again => exact hstart
    | failed => exact hstart
  · exact hstart

theorem parseLength (h : p.InSpace) (C : Cipher) : (parseLength C p).InSpace :=
  ⟨by rw [parseLength_bytes, h.space_length], by rw [parseLength_recvlen]; exact h.recvlen_lt⟩

theorem computeOtk (h : p.InSpace) (C : Cipher) : (computeOtk C p).InSpace := by
  have hlen := h.space_length
  refine ⟨?_, by rw [(computeOtk_frame C p).1]; exact h.recvlen_lt⟩
  rw [Ssh.computeOtk, TinysshPacket.withSpace]
  change ((p.space.zero 0 32).xor 0 32 _).bytes.length = _
  rw [Region.length_xor _ _ (Nat.zero_le _), Region.length_zero (by rw [hlen]; decide), hlen]

theorem decryptPacket (h : p.InSpace) (C : Cipher) : (decryptPacket C p).InSpace := by
  have hlen := h.space_length
  refine ⟨?_, by rw [(decryptPacket_frame C p).1]; exact h.recvlen_lt⟩
  rw [Ssh.decryptPacket, TinysshPacket.withSpace]
  change (p.space.xor 4 _ _).bytes.length = _
  rw [Region.length_xor _ _ (by rw [hlen]; decide), hlen]

/-- The packet that is removed was received. -/
theorem removePacket (h : p.InSpace)
    (hall : PACKET_ZEROBYTES + (p.packetLength + AB + 4) ≤ p.recvlen) :
    (removePacket p).InSpace := by
  have hlen := h.space_length
  have hlt := h.recvlen_lt
  have hR : RECVBUF_SIZE = 17265 := rfl
  have hS : SENDBUF_SIZE = 17201 := rfl
  have hZ : PACKET_ZEROBYTES = 64 := rfl
  have hA : AB = 16 := rfl
  rw [Ssh.removePacket]
  constructor
  · change (((p.space.copy _ _ _).zero _ _).zero _ _).bytes.length = _
    have hcopy : (p.space.copy PACKET_ZEROBYTES
        (p.recvlen - PACKET_ZEROBYTES - p.packetLength + AB + 4)
        (PACKET_ZEROBYTES + p.packetLength + AB + 4)).bytes.length =
          RECVBUF_SIZE + SENDBUF_SIZE := by
      rw [Region.bytes_copy, length_copyForward, hlen]
    have hzero := hcopy
    rw [← Region.length_zero (a := PACKET_ZEROBYTES + (p.recvlen - PACKET_ZEROBYTES) -
      p.packetLength + AB + 4) (n := p.packetLength + AB + 4) (by rw [hcopy]; omega)] at hzero
    rw [Region.length_zero (by rw [hzero]; omega), hzero]
  · change p.recvlen - _ < _
    omega

theorem removePlain (h : p.InSpace) {packetLength : ℕ}
    (hall : PACKET_ZEROBYTES + (packetLength + 4) ≤ p.recvlen) :
    (removePlain p packetLength).InSpace := by
  have hlen := h.space_length
  have hlt := h.recvlen_lt
  have hR : RECVBUF_SIZE = 17265 := rfl
  have hS : SENDBUF_SIZE = 17201 := rfl
  have hZ : PACKET_ZEROBYTES = 64 := rfl
  rw [Ssh.removePlain]
  constructor
  · change ((p.space.copy _ _ _).zero _ _).bytes.length = _
    have hcopy : (p.space.copy PACKET_ZEROBYTES (p.recvlen - PACKET_ZEROBYTES - packetLength + 4)
        (PACKET_ZEROBYTES + packetLength + 4)).bytes.length = RECVBUF_SIZE + SENDBUF_SIZE := by
      rw [Region.bytes_copy, length_copyForward, hlen]
    rw [Region.length_zero (by rw [hcopy]; omega), hcopy]
  · change p.recvlen - _ < _
    omega

/-- A slice of what was received. -/
theorem length_get (h : p.InSpace) {a n : ℕ} (hin : a + n ≤ p.recvlen) :
    (p.space.get a n).length = n := by
  have hlt := h.recvlen_lt
  rw [Region.get, length_slice]
  rw [h.space_length]
  omega

end TinysshPacket.InSpace

/-! ## 3. What a call delivers -/

/-- `x` was put into the buffer `b`. -/
structure Delivers (b b' : Buf) (x : Bytes) : Prop where
  pos : 0 < x.length
  lt_limit : x.length < PACKET_LIMIT
  buf_eq : b' = { b with data := b.data ++ x }

section

variable {C : Cipher} {p q : TinysshPacket} {b b' : Buf}

/-- "process packet": the payload is shorter than the packet. -/
theorem processPacket_delivers (h : p.InSpace) (hlimit : p.packetLength ≤ PACKET_LIMIT)
    (hall : PACKET_ZEROBYTES + (p.packetLength + AB + 4) ≤ p.recvlen)
    (hget : processPacket p b = .ok (q, b')) : q = removePacket p ∧ ∃ x, Delivers b b' x := by
  have hA : AB = 16 := rfl
  rw [processPacket] at hget
  split at hget
  · cases hget
  · rename_i hpos
    have hlen : payloadLength p ≤ p.packetLength - 1 := by
      rw [payloadLength]
      omega
    have hx := h.length_get (a := PACKET_ZEROBYTES + 5) (n := (payloadLength p).toNat) (by omega)
    cases hput : b.put (p.space.get (PACKET_ZEROBYTES + 5) (payloadLength p).toNat) with
    | error e =>
      rw [hput] at hget
      cases hget
    | ok c =>
      rw [hput] at hget
      obtain ⟨rfl, rfl⟩ := Prod.mk.inj (Except.ok.inj hget)
      exact ⟨rfl, _, by omega, by omega, (Buf.put_ok hput).1⟩

/-- A length that was parsed is parsed. -/
theorem parseLength_parseLength (C : Cipher) (p : TinysshPacket) :
    (parseLength C (parseLength C p)).packetLength = (parseLength C p).packetLength := by
  by_cases h0 : (parseLength C p).packetLength = 0
  · by_cases hp : p.packetLength = 0
    · have hagain : (parseLength C (parseLength C p)).packetLength =
          ofBe (xorWith (C.keystream (packNonce (parseLength C p).receivepacketid)
            ((parseLength C p).keyAt 32)) ((parseLength C p).space.get PACKET_ZEROBYTES 4)) := by
        conv_lhs => rw [parseLength, if_pos h0]
      rw [hagain, parseLength_receivepacketid, parseLength_keyAt, Region.get, parseLength_bytes]
      conv_rhs => rw [parseLength, if_pos hp]
      rfl
    · have hsame : parseLength C p = p := by rw [parseLength, if_neg hp]
      rw [hsame, hsame]
  · conv_lhs => rw [parseLength, if_neg h0]

/-- **Where `chachapoly_packet_get` returns**: before a length is there, before the packet is
there, or with the packet's payload. -/
theorem chachapolyPacketGet_ok (hget : chachapolyPacketGet C p b = .ok (q, b')) :
    ((p.recvlen : ℤ) - PACKET_ZEROBYTES < 4 ∧ q = { p with packetLength := 0 } ∧ b' = b) ∨
    (¬ (p.recvlen : ℤ) - PACKET_ZEROBYTES < 4 ∧ (parseLength C p).packetLength ≤ PACKET_LIMIT ∧
      p.recvlen < PACKET_ZEROBYTES + ((parseLength C p).packetLength + AB + 4) ∧
      q = parseLength C p ∧ b' = b) ∨
    ((parseLength C p).packetLength ≤ PACKET_LIMIT ∧
      PACKET_ZEROBYTES + ((parseLength C p).packetLength + AB + 4) ≤ p.recvlen ∧
      processPacket (decryptPacket C (computeOtk C (parseLength C p))) b = .ok (q, b')) := by
  rw [chachapolyPacketGet] at hget
  split at hget
  · rename_i hshort
    obtain ⟨rfl, rfl⟩ := Prod.mk.inj (Except.ok.inj hget)
    exact .inl ⟨hshort, rfl, rfl⟩
  rename_i hfour
  dsimp only at hget
  split at hget
  · cases hget
  rename_i hlimit
  split at hget
  · rename_i hpartial
    obtain ⟨rfl, rfl⟩ := Prod.mk.inj (Except.ok.inj hget)
    rw [parseLength_recvlen] at hpartial
    exact .inr (.inl ⟨hfour, by omega, by omega, rfl, rfl⟩)
  rename_i hall
  rw [parseLength_recvlen] at hall
  split at hget
  · cases hget
  · exact .inr (.inr ⟨by omega, by omega, hget⟩)

/-- **What `chachapoly_packet_get` can do**: deliver the payload of one packet, or nothing, and
then it delivers nothing when it is called again. -/
theorem chachapolyPacketGet_cases (h : p.InSpace)
    (hget : chachapolyPacketGet C p b = .ok (q, b')) : q.InSpace ∧
      ((b' = b ∧ ∀ c, ∃ r, chachapolyPacketGet C q c = .ok (r, c)) ∨ ∃ x, Delivers b b' x) := by
  have hZ : PACKET_ZEROBYTES = 64 := rfl
  have hA : AB = 16 := rfl
  obtain ⟨hshort, rfl, rfl⟩ | ⟨hfour, hlimit, hpartial, rfl, rfl⟩ | ⟨hlimit, hall, hprocess⟩ :=
    chachapolyPacketGet_ok hget
  · refine ⟨⟨h.space_length, h.recvlen_lt⟩, .inl ⟨rfl, fun c => ⟨{ p with packetLength := 0 }, ?_⟩⟩⟩
    rw [chachapolyPacketGet, if_pos hshort]
  · refine ⟨h.parseLength C, .inl ⟨rfl, fun c => ⟨parseLength C (parseLength C p), ?_⟩⟩⟩
    rw [chachapolyPacketGet, parseLength_recvlen, if_neg hfour]
    simp only [parseLength_parseLength, parseLength_recvlen]
    rw [if_neg (by omega), if_pos (by omega)]
  · obtain ⟨hrecv, hlen, -⟩ := computeOtk_frame C (parseLength C p)
    obtain ⟨hrecv', hlen', -⟩ := decryptPacket_frame C (computeOtk C (parseLength C p))
    have hopen := ((h.parseLength C).computeOtk C).decryptPacket C
    rw [parseLength_recvlen] at hrecv
    have hwhole : PACKET_ZEROBYTES +
        ((decryptPacket C (computeOtk C (parseLength C p))).packetLength + AB + 4) ≤
          (decryptPacket C (computeOtk C (parseLength C p))).recvlen := by
      rw [hrecv', hlen', hrecv, hlen]
      exact hall
    obtain ⟨rfl, hx⟩ :=
      processPacket_delivers hopen (by rw [hlen', hlen]; exact hlimit) hwhole hprocess
    exact ⟨hopen.removePacket hwhole, .inr hx⟩

/-- **What `packet_get_plain_` can do.** -/
theorem packetGetPlain_cases (h : p.InSpace) (hget : packetGetPlain p b = .ok (q, b')) :
    q.InSpace ∧ ((b' = b ∧ ∀ c, ∃ r, packetGetPlain q c = .ok (r, c)) ∨ ∃ x, Delivers b b' x) := by
  have hZ : PACKET_ZEROBYTES = 64 := rfl
  rw [packetGetPlain] at hget
  split at hget
  · rename_i hshort
    obtain ⟨rfl, rfl⟩ := Prod.mk.inj (Except.ok.inj hget)
    exact ⟨h, .inl ⟨rfl, fun c => ⟨p, by rw [packetGetPlain, if_pos hshort]⟩⟩⟩
  · rename_i hfour
    dsimp only at hget
    split at hget
    · cases hget
    · rename_i hlimit
      split at hget
      · rename_i hpartial
        obtain ⟨rfl, rfl⟩ := Prod.mk.inj (Except.ok.inj hget)
        refine ⟨h, .inl ⟨rfl, fun c => ⟨p, ?_⟩⟩⟩
        rw [packetGetPlain, if_neg hfour]
        dsimp only
        rw [if_neg hlimit, if_pos hpartial]
      · rename_i hall
        split at hget
        · cases hget
        · rename_i hpos
          generalize hpl : ofBe (p.space.get PACKET_ZEROBYTES 4) = packetLength at *
          generalize ((p.space.get (PACKET_ZEROBYTES + 4) 1).headD 0).toNat = padding at *
          have hx := h.length_get (a := PACKET_ZEROBYTES + 5)
            (n := ((packetLength : ℤ) - (padding + 1)).toNat) (by omega)
          cases hput : b.put (p.space.get (PACKET_ZEROBYTES + 5)
              ((packetLength : ℤ) - (padding + 1)).toNat) with
          | error e =>
            rw [hput] at hget
            cases hget
          | ok c =>
            rw [hput] at hget
            obtain ⟨rfl, rfl⟩ := Prod.mk.inj (Except.ok.inj hget)
            exact ⟨h.removePlain (by omega), .inr ⟨_, by omega, by omega, (Buf.put_ok hput).1⟩⟩

/-- **What `packet_get_` can do**, with keys and without. -/
theorem packetGetAny_cases {flagkeys : Bool} (h : p.InSpace)
    (hget : packetGetAny C flagkeys p b = .ok (q, b')) : q.InSpace ∧
      ((b' = b ∧ ∀ c, ∃ r, packetGetAny C flagkeys q c = .ok (r, c)) ∨ ∃ x, Delivers b b' x) := by
  cases flagkeys with
  | true => exact chachapolyPacketGet_cases h hget
  | false => exact packetGetPlain_cases h hget

/-- What is put fits where there is room for `PACKET_LIMIT` bytes. -/
theorem put_get_ne_error (hb : b.Ok) (hroom : b.data.length + PACKET_LIMIT ≤ b.alloc) {a n : ℕ}
    (hn : n < PACKET_LIMIT) (e : Exit) : b.put (p.space.get a n) ≠ .error e := by
  have hlen : (p.space.get a n).length ≤ n := List.length_take_le _ _
  rw [hb.put (by omega)]
  exact fun h => by cases h

/-- A decrypted packet that is refused is refused for its padding: the buffer has room. -/
theorem processPacket_error {e : Exit} (hb : b.Ok)
    (hroom : b.data.length + PACKET_LIMIT ≤ b.alloc) (hlimit : p.packetLength ≤ PACKET_LIMIT)
    (hget : processPacket p b = .error e) : e = .bug .EPROTO := by
  rw [processPacket] at hget
  split at hget
  · cases hget
    rfl
  · have hlen : payloadLength p ≤ p.packetLength - 1 := by
      rw [payloadLength]
      omega
    cases hput : b.put (p.space.get (PACKET_ZEROBYTES + 5) (payloadLength p).toNat) with
    | error e' => exact absurd hput (put_get_ne_error hb hroom (by omega) e')
    | ok c =>
      rw [hput] at hget
      cases hget

/-- **`packet_get_` ends a session with EPROTO only**, in a buffer that has room. -/
theorem packetGetAny_error {flagkeys : Bool} {e : Exit} (hb : b.Ok)
    (hroom : b.data.length + PACKET_LIMIT ≤ b.alloc)
    (hget : packetGetAny C flagkeys p b = .error e) : e = .bug .EPROTO := by
  cases flagkeys with
  | true =>
    -- Too short, a bad length, not all of it, a bad tag, or a packet.
    rw [packetGetAny, if_pos rfl, chachapolyPacketGet] at hget
    split at hget
    · cases hget
    · dsimp only at hget
      split at hget
      · cases hget
        rfl
      · rename_i hlimit
        split at hget
        · cases hget
        · split at hget
          · cases hget
            rfl
          · obtain ⟨-, hlen, -⟩ := computeOtk_frame C (parseLength C p)
            obtain ⟨-, hlen', -⟩ := decryptPacket_frame C (computeOtk C (parseLength C p))
            exact processPacket_error hb hroom (by rw [hlen', hlen]; omega) hget
  | false =>
    -- Too short, a bad length, not all of it, a bad padding, or a packet.
    rw [packetGetAny, if_neg Bool.false_ne_true, packetGetPlain] at hget
    dsimp only at hget
    split at hget
    · cases hget
    · split at hget
      · cases hget
        rfl
      · split at hget
        · cases hget
        · split at hget
          · cases hget
            rfl
          · generalize hpl : ofBe (p.space.get PACKET_ZEROBYTES 4) = packetLength at *
            generalize ((p.space.get (PACKET_ZEROBYTES + 4) 1).headD 0).toNat = padding at *
            cases hput : b.put (p.space.get (PACKET_ZEROBYTES + 5)
                ((packetLength : ℤ) - (padding + 1)).toNat) with
            | error e' => exact absurd hput (put_get_ne_error hb hroom (by omega) e')
            | ok c =>
              rw [hput] at hget
              cases hget

/-- **What the `switch` makes of a packet**: it reports a DISCONNECT, drops IGNORE and DEBUG, and
hands on everything else. -/
theorem packetGetSwitch_cases {x : UInt8} {ok : Bool} (hget : packetGetSwitch x b = .ok (ok, b')) :
    (ok = false ∧ b.data.headD 0 = SSH_MSG_DISCONNECT) ∨
    (ok = true ∧ b'.data = [] ∧
      (b.data.headD 0 = SSH_MSG_IGNORE ∨ b.data.headD 0 = SSH_MSG_DEBUG)) ∨
    (ok = true ∧ b' = b ∧ b.data.headD 0 ≠ SSH_MSG_DISCONNECT ∧ b.data.headD 0 ≠ SSH_MSG_IGNORE ∧
      b.data.headD 0 ≠ SSH_MSG_DEBUG ∧ (x ≠ 0 → x = b.data.headD 0)) := by
  have hpurge : ∀ {r : Bool × Buf}, (b.purge).map (fun c => (true, c)) = .ok r →
      r.1 = true ∧ r.2.data = [] := by
    intro r hr
    rw [Buf.purge] at hr
    split at hr
    · cases hr
      exact ⟨rfl, rfl⟩
    · cases hr
  rw [packetGetSwitch] at hget
  split at hget
  · rename_i hdisconnect
    cases hget
    exact .inl ⟨rfl, hdisconnect⟩
  · rename_i hdisconnect
    split at hget
    · rename_i hignore
      obtain ⟨hok, hnil⟩ := hpurge hget
      exact .inr (.inl ⟨hok, hnil, .inl hignore⟩)
    · rename_i hignore
      split at hget
      · rename_i hdebug
        obtain ⟨hok, hnil⟩ := hpurge hget
        exact .inr (.inl ⟨hok, hnil, .inr hdebug⟩)
      · rename_i hdebug
        split at hget
        · cases hget
        · rename_i hexpected
          cases hget
          refine .inr (.inr ⟨rfl, rfl, hdisconnect, hignore, hdebug, fun hx => ?_⟩)
          by_contra hne
          exact hexpected ⟨hx, hne⟩

/-- **`packet_get` into a buffer of the session**: `packet_get_` delivered nothing, or the `switch`
decided. -/
theorem packetGet_cases {flagkeys flagauthorized ok : Bool} {x : UInt8}
    (hget : packetGet C flagkeys flagauthorized x p freshBuf = .ok (ok, q, b')) :
    ∃ c, packetGetAny C flagkeys p freshBuf = .ok (q, c) ∧
      ((c.data = [] ∧ ok = true ∧ b' = c) ∨
        (c.data ≠ [] ∧ packetGetSwitch x c = .ok (ok, b'))) := by
  rw [packetGet, freshBuf_ok.purge] at hget
  change (packetGetAny C flagkeys p freshBuf >>= _) = _ at hget
  cases hany : packetGetAny C flagkeys p freshBuf with
  | error e =>
    rw [hany] at hget
    cases hget
  | ok r =>
    obtain ⟨q', c⟩ := r
    rw [hany] at hget
    change (if c.data.length ≤ 0 then Except.ok (true, q', c) else _) = _ at hget
    split at hget
    · rename_i hnil
      cases hget
      exact ⟨_, rfl, .inl ⟨List.eq_nil_of_length_eq_zero (by omega), rfl, rfl⟩⟩
    · rename_i hsome
      split at hget
      · cases hget
      · cases hswitch : packetGetSwitch x c with
        | error e =>
          rw [hswitch] at hget
          cases hget
        | ok r =>
          obtain ⟨ok', b''⟩ := r
          rw [hswitch] at hget
          cases hget
          refine ⟨c, rfl, .inr ⟨?_, hswitch⟩⟩
          rintro hnil
          rw [hnil] at hsome
          exact hsome (le_refl 0)

/-- Where nothing was delivered `packet_get` returns at once. -/
theorem packetGet_nil {flagkeys : Bool} (flagauthorized : Bool) (x : UInt8)
    (hany : packetGetAny C flagkeys p freshBuf = .ok (q, b)) (hnil : b.data = []) :
    packetGet C flagkeys flagauthorized x p freshBuf = .ok (true, q, b) := by
  have hshort : b.data.length ≤ 0 := by rw [hnil, List.length_nil]
  rw [packetGet, freshBuf_ok.purge]
  change (packetGetAny C flagkeys p freshBuf >>= _) = _
  rw [hany]
  exact if_pos hshort

/-- A payload of an authorized client goes to the `switch`. -/
theorem packetGet_switch {flagkeys : Bool} (x : UInt8)
    (hany : packetGetAny C flagkeys p freshBuf = .ok (q, b)) (hsome : b.data ≠ []) :
    packetGet C flagkeys true x p freshBuf =
      (packetGetSwitch x b).map fun r => (r.1, q, r.2) := by
  have hlong : ¬ b.data.length ≤ 0 := fun hnil => hsome (List.eq_nil_of_length_eq_zero (by omega))
  rw [packetGet, freshBuf_ok.purge]
  change (packetGetAny C flagkeys p freshBuf >>= _) = _
  rw [hany]
  change (if b.data.length ≤ 0 then _ else if (!true && _) = true then _ else _) = _
  rw [if_neg hlong, Bool.not_true, Bool.false_and, if_neg Bool.false_ne_true]
  cases packetGetSwitch x b with
  | error e => rfl
  | ok r => rfl

/-- A delivered payload leaves room in the buffer. -/
theorem Delivers.ok {x : Bytes} (h : Delivers freshBuf b x) : b.Ok := by
  rw [h.buf_eq]
  refine freshBuf_ok.append ?_
  have hlt := h.lt_limit
  have hL : PACKET_LIMIT = 4096 := rfl
  change 0 + x.length < 8192
  omega

/-- A packet at the front of the buffer is delivered. -/
theorem packetGetAny_sealed {pkt : SshPacket.Packet} {rest : Bytes}
    (h : p.Holds (sealPacket C p.clientKeys p.receivepacketid pkt ++ rest))
    (hparsed : p.packetLength = 0) (hlimit : pkt.packetLength ≤ PACKET_LIMIT) :
    packetGetAny C true p freshBuf =
      .ok (openedState C p, { freshBuf with data := pkt.payload }) := by
  have hlength : pkt.packetLength = 1 + pkt.payload.length + pkt.padding.length := rfl
  have hL : PACKET_LIMIT = 4096 := rfl
  have hroom : freshBuf.data.length + pkt.payload.length < freshBuf.alloc := by
    change 0 + pkt.payload.length < 8192
    omega
  have hget := chachapolyPacketGet_sealed h (.inl hparsed) freshBuf_ok hroom
  rwa [if_pos hlimit] at hget

end

end Glossh.Ssh
