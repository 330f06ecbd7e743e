/-
# What is left in the receive buffer

Packets are decrypted where they were received, with the one-time key in front of them.  What is
behind `recvbuf.len` was zero when the session began; `packet_recv` writes from there on and moves
`recvbuf.len` with what it writes.  `chachapoly_packet_get` moves the rest down with 40 zero bytes
behind it, and purges from behind these to where the packet ended.

So the buffer is clean at every moment, as long as that purge stays inside it.
-/
import Glossh.Ssh.RecvSpace

namespace Glossh.Ssh

open Bytes SshPacket

/-! ## 1. Runs -/

/-- What happens to the receive buffer, in any order. -/
inductive RecvEvent where
  /-- `packet_recv`. -/
  | recv (r : ReadResult)
  /-- `chachapoly_packet_get`. -/
  | get (b : Buf)
  /-- `packet_kexdh` derived a key. -/
  | key (clientkey : Vector UInt8 128)
  /-- What `packet_put` and `packet_send` leave in `sendbufspace`. -/
  | sendbuf (x : Bytes)

def recvStep (C : Cipher) (p : TinysshPacket) : RecvEvent → Option TinysshPacket
  | .recv r => some (packetRecv p r).1
  | .get b =>
    match chachapolyPacketGet C p b with
    | .ok (q, _) => some q
    | .error _ => none
  | .key clientkey => some { p with clientkey := clientkey }
  | .sendbuf x =>
    if x.length = SENDBUF_SIZE then
      some (p.withSpace fun m => { m with bytes := m.bytes.take RECVBUF_SIZE ++ x })
    else none

/-- The purge behind a packet stays inside `recvbufspace`. -/
def PurgeInside (p : TinysshPacket) : RecvEvent → Prop
  | .get _ => p.recvlen + 40 ≤ RECVBUF_SIZE
  | _ => True

/-- Nothing is behind what was received, nor in front of it. -/
structure TinysshPacket.Clean (p : TinysshPacket) : Prop where
  inSpace : p.InSpace
  behind : ∀ i, p.recvlen ≤ i → i < RECVBUF_SIZE → p.space.bytes[i]? = some 0
  front : ∀ i < PACKET_ZEROBYTES, p.space.bytes[i]? = some 0

/-! ## 2. What keeps it clean -/

/-- What `packet_recv` does: nothing more than its first statement, or bytes are appended. -/
theorem packetRecv_cases (p : TinysshPacket) (r : ReadResult) :
    (packetRecv p r).1 = recvStart p ∨ ∃ x : Bytes,
      (recvStart p).recvlen + x.length < RECVBUF_SIZE ∧ (packetRecv p r).1 = { recvStart p with
        space := (recvStart p).space.write (recvStart p).recvlen x
        recvlen := (recvStart p).recvlen + x.length } := by
  rw [packetRecv]
  split
  · rename_i hready
    have hroom : (recvStart p).recvlen + PACKET_FULLLIMIT < RECVBUF_SIZE := of_decide_eq_true hready
    split
    · rename_i x hread
      have hlen : x.length ≤ PACKET_FULLLIMIT := by
        cases r with
        | data y =>
          rw [ReadResult.upTo] at hread
          split at hread
          · cases hread
          · cases hread
            exact List.length_take_le _ _
        | eof => cases hread
        | again => cases hread
        | failed => cases hread
      exact .inr ⟨x, by omega, rfl⟩
    all_goals exact .inl rfl
  · exact .inl rfl

namespace TinysshPacket.Clean

variable {C : Cipher} {p : TinysshPacket}

/-- A state with the same bytes. -/
theorem of_bytes (h : p.Clean) {q : TinysshPacket} (hq : q.InSpace)
    (hbytes : q.space.bytes = p.space.bytes) (hrecv : q.recvlen = p.recvlen) : q.Clean :=
  ⟨hq, by rw [hbytes, hrecv]; exact h.behind, by rw [hbytes]; exact h.front⟩

theorem packetInit : packetInit.Clean := by
  have hzero : ∀ i < RECVBUF_SIZE, Ssh.packetInit.space.bytes[i]? = some 0 := by
    intro i hi
    rw [Ssh.packetInit, Region.bytes_ofBytes, List.getElem?_replicate, if_pos (by omega)]
  have hZ : PACKET_ZEROBYTES < RECVBUF_SIZE := by decide
  exact ⟨TinysshPacket.InSpace.packetInit, fun i _ hi => hzero i hi,
    fun i hi => hzero i (by omega)⟩

/-- Room for the keystream is set apart once. -/
theorem recvStart (h : p.Clean) :
    (recvStart p).Clean ∧ PACKET_ZEROBYTES ≤ (recvStart p).recvlen := by
  have hspace := h.inSpace.recvStart
  have hfit : 0 + PACKET_ZEROBYTES ≤ p.space.bytes.length := by
    rw [h.inSpace.space_length]
    decide
  rw [Ssh.recvStart] at hspace ⊢
  split at hspace
  · rename_i hlow
    rw [if_pos hlow]
    refine ⟨⟨hspace, ?_, ?_⟩, le_refl _⟩
    · intro i hi hlt
      change PACKET_ZEROBYTES ≤ i at hi
      rw [Region.bytes_zero, getElem?_overwrite_zero hfit, if_neg (by omega)]
      exact h.behind i (by omega) hlt
    · intro i hi
      rw [Region.bytes_zero, getElem?_overwrite_zero hfit, if_pos (by omega)]
  · rename_i hhigh
    rw [if_neg hhigh]
    exact ⟨h, by omega⟩

/-- **`packet_recv` writes what it counts.** -/
theorem packetRecv (h : p.Clean) (r : ReadResult) : (packetRecv p r).1.Clean := by
  obtain ⟨hstart, hlow⟩ := h.recvStart
  have hspace := h.inSpace.packetRecv r
  rcases packetRecv_cases p r with hsame | ⟨x, hroom, hread⟩
  · rw [hsame]
    exact hstart
  · rw [hread] at hspace ⊢
    have hlen := hstart.inSpace.space_length
    have hfit : (Ssh.recvStart p).recvlen + x.length ≤ (Ssh.recvStart p).space.bytes.length := by
      omega
    refine ⟨hspace, ?_, ?_⟩
    · intro i hi hlt
      change (Ssh.recvStart p).recvlen + x.length ≤ i at hi
      rw [Region.bytes_write, getElem?_overwrite hfit, if_neg (by omega)]
      exact hstart.behind i (by omega) hlt
    · intro i hi
      rw [Region.bytes_write, getElem?_overwrite hfit, if_neg (by omega)]
      exact hstart.front i hi

/-- What is behind the packet is not decrypted. -/
theorem opened_behind (h : p.InSpace)
    (hall : PACKET_ZEROBYTES + ((parseLength C p).packetLength + AB + 4) ≤ p.recvlen) (i : ℕ)
    (hi : p.recvlen ≤ i) : (opened C p).space.bytes[i]? = p.space.bytes[i]? := by
  have hZ : PACKET_ZEROBYTES = 64 := rfl
  have hA : AB = 16 := rfl
  have hlt := h.recvlen_lt
  have hlen := h.space_length
  -- The packet ends at `recvbuf.len` at the latest.
  have hxor : ∀ (m : Region) (off n : ℕ) (ks : ℕ → UInt8), off + n ≤ p.recvlen →
      m.bytes.length = RECVBUF_SIZE + SENDBUF_SIZE →
      (m.xor off n ks).bytes[i]? = m.bytes[i]? := by
    intro m off n ks hin hm
    have hspan : (slice m.bytes off n).length = n := length_slice (by omega)
    rw [Region.bytes_xor, getElem?_overwrite (by rw [length_xorWith, hspan]; omega),
      length_xorWith, hspan, if_neg (by omega)]
  have hparse := h.parseLength C
  have hotk := hparse.computeOtk C
  obtain ⟨-, hpl, -⟩ := computeOtk_frame C (parseLength C p)
  have hdecrypt : (opened C p).space.bytes[i]? =
      (computeOtk C (parseLength C p)).space.bytes[i]? :=
    hxor _ _ _ _ (by rw [hpl]; omega) hotk.space_length
  have hzero : ((parseLength C p).space.zero 0 32).bytes.length = RECVBUF_SIZE + SENDBUF_SIZE := by
    rw [Region.length_zero (by rw [hparse.space_length]; decide), hparse.space_length]
  have hkey : (computeOtk C (parseLength C p)).space.bytes[i]? =
      ((parseLength C p).space.zero 0 32).bytes[i]? := hxor _ _ _ _ (by omega) hzero
  rw [hdecrypt, hkey, Region.bytes_zero, parseLength_bytes,
    getElem?_overwrite_zero (by omega), if_neg (by omega)]

/-- **Removing a packet** leaves nothing of it. -/
theorem removePacket {d : TinysshPacket} (hd : d.InSpace)
    (hall : PACKET_ZEROBYTES + (d.packetLength + AB + 4) ≤ d.recvlen)
    (hbehind : ∀ i, d.recvlen ≤ i → i < RECVBUF_SIZE → d.space.bytes[i]? = some 0)
    (hroom : d.recvlen + 40 ≤ RECVBUF_SIZE) : (removePacket d).Clean := by
  have hZ : PACKET_ZEROBYTES = 64 := rfl
  have hA : AB = 16 := rfl
  have hlen := hd.space_length
  have hspace := hd.removePacket hall
  let m := copyForward (d.recvlen - PACKET_ZEROBYTES - d.packetLength + AB + 4) PACKET_ZEROBYTES
    (PACKET_ZEROBYTES + d.packetLength + AB + 4) d.space.bytes
  have hm : m.length = RECVBUF_SIZE + SENDBUF_SIZE := (length_copyForward _ _ _ _).trans hlen
  have hpurge : PACKET_ZEROBYTES + (d.recvlen - PACKET_ZEROBYTES) - d.packetLength + AB + 4 +
      (d.packetLength + AB + 4) ≤ m.length := by omega
  have hfront : 0 + PACKET_ZEROBYTES ≤ (overwrite m
      (PACKET_ZEROBYTES + (d.recvlen - PACKET_ZEROBYTES) - d.packetLength + AB + 4)
      (List.replicate (d.packetLength + AB + 4) 0)).length := by
    rw [length_overwrite (by rw [List.length_replicate]; exact hpurge)]
    omega
  have hbytes : (Ssh.removePacket d).space.bytes = overwrite (overwrite m
      (PACKET_ZEROBYTES + (d.recvlen - PACKET_ZEROBYTES) - d.packetLength + AB + 4)
      (List.replicate (d.packetLength + AB + 4) 0)) 0 (List.replicate PACKET_ZEROBYTES 0) := rfl
  have hrecv : (Ssh.removePacket d).recvlen = d.recvlen - (d.packetLength + AB + 4) := rfl
  refine ⟨hspace, ?_, ?_⟩
  · intro i hi hlt
    rw [hrecv] at hi
    rw [hbytes, getElem?_overwrite_zero hfront, if_neg (by omega), getElem?_overwrite_zero hpurge]
    split
    · rfl
    · rename_i hout
      rw [getElem?_copyForward (by omega) (by omega)]
      split
      · -- Copied from behind what was received.
        exact hbehind _ (by omega) (by omega)
      · exact hbehind i (by omega) hlt
  · intro i hi
    rw [hbytes, getElem?_overwrite_zero hfront, if_pos (by omega)]

/-- **What one step keeps.** -/
theorem step (h : p.Clean) {q : TinysshPacket} (e : RecvEvent) (hpurge : PurgeInside p e)
    (hstep : recvStep C p e = some q) : q.Clean := by
  cases e with
  | recv r =>
    obtain rfl := Option.some.inj hstep
    exact h.packetRecv r
  | get b =>
    rw [recvStep] at hstep
    split at hstep
    · rename_i q' b' hget
      obtain rfl := Option.some.inj hstep
      have hspace := (chachapolyPacketGet_cases h.inSpace hget).1
      rcases chachapolyPacketGet_returns h.inSpace hget with
        ⟨-, hbytes, hrecv⟩ | ⟨rfl, -, hall, -⟩
      · exact h.of_bytes hspace hbytes hrecv
      · obtain ⟨hrecv, hlen, -⟩ := opened_frame C p
        have hopen : (opened C p).InSpace :=
          ((h.inSpace.parseLength C).computeOtk C).decryptPacket C
        refine removePacket hopen ?_ ?_ ?_
        · rw [hlen, hrecv]
          exact hall
        · intro i hi hlt
          rw [hrecv] at hi
          rw [opened_behind h.inSpace hall i hi]
          exact h.behind i hi hlt
        · rw [hrecv]
          exact hpurge
    · cases hstep
  | key clientkey =>
    obtain rfl := Option.some.inj hstep
    exact h.of_bytes ⟨h.inSpace.space_length, h.inSpace.recvlen_lt⟩ rfl rfl
  | sendbuf x =>
    rw [recvStep] at hstep
    split at hstep
    · rename_i hx
      obtain rfl := Option.some.inj hstep
      have htake : (p.space.bytes.take RECVBUF_SIZE).length = RECVBUF_SIZE := by
        rw [List.length_take, h.inSpace.space_length]
        omega
      have hsame : ∀ i < RECVBUF_SIZE,
          (p.space.bytes.take RECVBUF_SIZE ++ x)[i]? = p.space.bytes[i]? := by
        intro i hi
        rw [List.getElem?_append_left (by omega), List.getElem?_take, if_pos hi]
      refine ⟨⟨?_, h.inSpace.recvlen_lt⟩, ?_, ?_⟩
      · change (p.space.bytes.take RECVBUF_SIZE ++ x).length = _
        rw [List.length_append, htake, hx]
      · intro i hi hlt
        exact (hsame i hlt).trans (h.behind i hi hlt)
      · intro i hi
        have hZ : PACKET_ZEROBYTES < RECVBUF_SIZE := by decide
        exact (hsame i (by omega)).trans (h.front i hi)
    · cases hstep

end TinysshPacket.Clean

/-! ## 3. At every moment -/

/-- **No plaintext and no keystream is left in the receive buffer**: in every run in which each
purge stays inside it, the buffer is zero from `recvbuf.len` on and in its first
`PACKET_ZEROBYTES` bytes; so it is behind every `chachapoly_packet_get`. -/
theorem recvbuf_clean (C : Cipher) (p : TinysshPacket)
    (hp : Run (recvStep C) PurgeInside packetInit p) :
    (∀ i, p.recvlen ≤ i → i < RECVBUF_SIZE → p.space.bytes[i]? = some 0) ∧
      ∀ i < PACKET_ZEROBYTES, p.space.bytes[i]? = some 0 := by
  have hclean : p.Clean := hp.invariant TinysshPacket.Clean TinysshPacket.Clean.packetInit
    fun _ e _ h hpurge hstep => h.step e hpurge hstep
  exact ⟨hclean.behind, hclean.front⟩

/-- A packet at the front of the buffer, and what its delivery leaves. -/
theorem recvStep_get {C : Cipher} {p : TinysshPacket} {pkt : SshPacket.Packet}
    (hholds : p.Holds (sealPacket C p.clientKeys p.receivepacketid pkt ++ []))
    (hparsed : p.packetLength = 0) (hlimit : pkt.packetLength ≤ PACKET_LIMIT) :
    PurgeInside p (.get freshBuf) ∧
      recvStep C p (.get freshBuf) = some (openedState C p) := by
  have hget := packetGetAny_sealed hholds hparsed hlimit
  rw [packetGetAny, if_pos rfl] at hget
  constructor
  · have hL : PACKET_LIMIT = 4096 := rfl
    have hZ : PACKET_ZEROBYTES = 64 := rfl
    have hR : RECVBUF_SIZE = 17265 := rfl
    rw [PurgeInside, hholds.recvlen_eq, List.append_nil, length_sealPacket]
    omega
  · rw [recvStep, hget]

/-- A session that was given its keys and received a packet. -/
theorem run_arrived (C : Cipher) (clientkey : Vector UInt8 128) (pkt : SshPacket.Packet) :
    Run (recvStep C) PurgeInside packetInit (arrived C clientkey 0 pkt) := by
  have hkey : recvStep C packetInit (.key clientkey) = some (keyedSession clientkey 0) := by
    rw [recvStep, keyedSession, packetInit]
  have hrecv : recvStep C (keyedSession clientkey 0)
      (.recv (.data (sealPacket C (keyedSession clientkey 0).clientKeys 0 pkt))) =
      some (arrived C clientkey 0 pkt) := by
    rw [recvStep, arrived]
  generalize arrived C clientkey 0 pkt = p at *
  generalize keyedSession clientkey 0 = p0 at *
  generalize packetInit = start at *
  have hfree : PurgeInside start (.key clientkey) := trivial
  have hread : PurgeInside p0 (.recv (.data (sealPacket C p0.clientKeys 0 pkt))) := trivial
  exact (Run.start.next hfree hkey).next hread hrecv

/-- **A packet of one byte**, received and delivered. -/
theorem recvbuf_clean_oneByte : ∃ p q, Run (recvStep chacha20Poly1305) PurgeInside packetInit p ∧
    recvStep chacha20Poly1305 p (.get freshBuf) = some q ∧
    (∀ i, q.recvlen ≤ i → i < RECVBUF_SIZE → q.space.bytes[i]? = some 0) ∧
    ∀ i < PACKET_ZEROBYTES, q.space.bytes[i]? = some 0 := by
  have hholds :=
    arrived_holds chacha20Poly1305 (Vector.replicate 128 7) 0 oneByte.packet (by decide)
  obtain ⟨-, -, hparsed⟩ := arrived_frame chacha20Poly1305 (Vector.replicate 128 7) 0 oneByte.packet
  have hrun := run_arrived chacha20Poly1305 (Vector.replicate 128 7) oneByte.packet
  generalize arrived chacha20Poly1305 (Vector.replicate 128 7) 0 oneByte.packet = p at *
  obtain ⟨hpurge, hstep⟩ := recvStep_get hholds hparsed (by decide)
  exact ⟨p, _, hrun, hstep, recvbuf_clean chacha20Poly1305 _ (hrun.next hpurge hstep)⟩

end Glossh.Ssh
