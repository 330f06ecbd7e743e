/-
# The nonces of the packets sent

`chachapoly_packet_put` takes the 32-bit `sendpacketid` as nonce and counts it up; nothing looks
whether it wrapped, and only a key exchange that the client asks for changes `serverkey`.  So the
nonces under one key are consecutive numbers modulo 2^32: distinct for 2^32 packets in a row, and
the same again after those.

The last section has a client that never asks for a key exchange and has 2^32 + 1 packets sent.
-/
import Mathlib.Data.Nat.ModEq
import Glossh.Lib.Run
import Glossh.Ssh.ChannelEnd
import Glossh.Ssh.Sealing

namespace Glossh.Ssh

open Bytes SshPacket Prog

/-! ## 1. Sealing under a sequence of keys -/

/-- The sending half of a session, and the nonces of the packets sealed: those under the present
`serverkey`, and those under each earlier one. -/
structure SealSystem where
  send : TinysshSend
  current : List (Vector UInt8 8)
  previous : List (List (Vector UInt8 8))

inductive SealEvent where
  /-- `packet_put` once `flagkeys` is set. -/
  | put (b : Bytes) (coin : Bool)
  /-- `packet_send` of `n` bytes. -/
  | send (n : ℕ)
  | sendall
  /-- `packet_kexdh` is done: there is a new `serverkey`. -/
  | kexdh (serverkey : Vector UInt8 128)

def sealStep (C : Cipher) (s : SealSystem) : SealEvent → Option SealSystem
  | .put b coin =>
    match chachapolyPacketPut C s.send b coin with
    | .ok send => some { s with
        send := send
        current := s.current ++ [packNonce s.send.sendpacketid] }
    | .error _ => none
  | .send n => some { s with
      send := { s.send with
        sendbuf := { s.send.sendbuf with data := s.send.sendbuf.data.drop n } } }
  | .sendall => some { s with
      send := { s.send with sendbuf := { s.send.sendbuf with data := [] } } }
  | .kexdh serverkey => some {
      send := { s.send with serverkey := serverkey }
      current := []
      previous := s.current :: s.previous }

/-! ## 2. Consecutive numbers -/

/-- The nonces of `n` packets from number `id` on. -/
def noncesFrom (id : UInt32) (n : ℕ) : List (Vector UInt8 8) :=
  (List.range n).map fun i => nonceOf (id + UInt32.ofNat i)

theorem noncesFrom_succ (id : UInt32) (n : ℕ) :
    noncesFrom id (n + 1) = noncesFrom id n ++ [nonceOf (id + UInt32.ofNat n)] := by
  rw [noncesFrom, List.range_succ, List.map_append]
  rfl

theorem nonceOf_injective : Function.Injective nonceOf := by
  intro a b h
  have hlen : ∀ c : UInt32, (List.replicate 4 (0 : UInt8) ++ beBytes 4 c.toNat).length = 8 := by
    intro c
    rw [List.length_append, List.length_replicate, length_beBytes]
  have hbytes := congrArg Vector.toList h
  rw [nonceOf, nonceOf, toList_toVector (hlen a), toList_toVector (hlen b)] at hbytes
  exact UInt32.toNat_inj.mp
    (beBytes_inj a.toNat_lt b.toNat_lt (List.append_cancel_left hbytes))

/-- **Two of the nonces are the same exactly when a multiple of 2^32 lies between them.** -/
theorem noncesFrom_getElem_eq_iff {id : UInt32} {n i j : ℕ} (hij : i ≤ j) (hj : j < n) :
    (noncesFrom id n)[i]? = (noncesFrom id n)[j]? ↔ 2 ^ 32 ∣ j - i := by
  have hget : ∀ {k : ℕ}, k < n → (noncesFrom id n)[k]? = some (nonceOf (id + UInt32.ofNat k)) := by
    intro k hk
    rw [noncesFrom, List.getElem?_map, List.getElem?_range hk]
    rfl
  rw [hget (hij.trans_lt hj), hget hj]
  have hmod : UInt32.ofNat i = UInt32.ofNat j ↔ Nat.ModEq (2 ^ 32) i j := by
    rw [← UInt32.toNat_inj, UInt32.toNat_ofNat', UInt32.toNat_ofNat']
    rfl
  rw [← Nat.modEq_iff_dvd' hij, ← hmod]
  constructor
  · intro h
    exact (UInt32.add_right_inj id).mp (nonceOf_injective (Option.some.inj h))
  · intro h
    rw [h]

/-! ## 3. Runs -/

/-- The nonces under each key are consecutive, those under the present one up to
`sendpacketid`. -/
structure Consecutive (s : SealSystem) : Prop where
  current : ∃ id, s.current = noncesFrom id s.current.length ∧
    s.send.sendpacketid = id + UInt32.ofNat s.current.length
  previous : ∀ l ∈ s.previous, ∃ id, l = noncesFrom id l.length

/-- A packet takes the next number. -/
theorem chachapolyPacketPut_sendpacketid {C : Cipher} {p q : TinysshSend} {b : Bytes} {coin : Bool}
    (h : chachapolyPacketPut C p b coin = .ok q) : q.sendpacketid = p.sendpacketid + 1 := by
  rw [chachapolyPacketPut] at h
  cases hbuild : buildPacket p.sendbuf b coin with
  | error e =>
    rw [hbuild] at h
    cases h
  | ok s =>
    rw [hbuild] at h
    rw [← Except.ok.inj h]

/-- **What one step keeps.** -/
theorem Consecutive.step {C : Cipher} {s s' : SealSystem} (h : Consecutive s) (ev : SealEvent)
    (hstep : sealStep C s ev = some s') : Consecutive s' := by
  obtain ⟨⟨id, hcurrent, hid⟩, hprevious⟩ := h
  cases ev with
  | put b coin =>
    rw [sealStep] at hstep
    split at hstep
    · rename_i send hput
      obtain rfl := (Option.some.inj hstep).symm
      refine ⟨⟨id, ?_, ?_⟩, hprevious⟩
      · rw [List.length_append, List.length_singleton, noncesFrom_succ, ← hcurrent, packNonce_eq,
          hid]
      · rw [List.length_append, List.length_singleton, UInt32.ofNat_add, ← UInt32.add_assoc, ← hid]
        exact chachapolyPacketPut_sendpacketid hput
    · cases hstep
  | send n =>
    obtain rfl := (Option.some.inj hstep).symm
    exact ⟨⟨id, hcurrent, hid⟩, hprevious⟩
  | sendall =>
    obtain rfl := (Option.some.inj hstep).symm
    exact ⟨⟨id, hcurrent, hid⟩, hprevious⟩
  | kexdh serverkey =>
    obtain rfl := (Option.some.inj hstep).symm
    refine ⟨⟨s.send.sendpacketid, rfl, (UInt32.add_zero _).symm⟩, ?_⟩
    intro l hl
    rcases List.mem_cons.mp hl with rfl | hl
    · exact ⟨id, hcurrent⟩
    · exact hprevious l hl

theorem consecutive_of_run {C : Cipher} {send : TinysshSend} {s : SealSystem}
    (hs : Run (sealStep C) (fun _ _ => True) ⟨send, [], []⟩ s) : Consecutive s :=
  hs.invariant Consecutive
    ⟨⟨send.sendpacketid, rfl, (UInt32.add_zero _).symm⟩, fun l hl => by cases hl⟩
    fun _ e _ h _ hstep => h.step e hstep

/-- **Nonces under one key**: in every run, from any packet number and with any key exchanges, two
packets sealed under the same `serverkey` have the same nonce exactly when a multiple of 2^32
packets lies between them. -/
theorem send_nonces (C : Cipher) (send : TinysshSend) (s : SealSystem)
    (hs : Run (sealStep C) (fun _ _ => True) ⟨send, [], []⟩ s) :
    ∀ l ∈ s.current :: s.previous, ∀ i j, i ≤ j → j < l.length →
      (l[i]? = l[j]? ↔ 2 ^ 32 ∣ j - i) := by
  have hinv := consecutive_of_run hs
  have hconsecutive : ∀ l ∈ s.current :: s.previous, ∃ id, l = noncesFrom id l.length := by
    intro l hl
    rcases List.mem_cons.mp hl with rfl | hl
    · obtain ⟨id, hcurrent, -⟩ := hinv.current
      exact ⟨id, hcurrent⟩
    · exact hinv.previous l hl
  intro l hl i j hij hj
  obtain ⟨id, hl⟩ := hconsecutive l hl
  rw [hl]
  exact noncesFrom_getElem_eq_iff hij hj

/-- The packets `put`, each sealed and sent. -/
def sealAll (put : List Bytes) : List SealEvent :=
  put.flatMap fun b => [.put b false, .sendall]

/-- Short packets that are sent one by one always find room. -/
theorem runTrace_sealAll (C : Cipher) (put : List Bytes) (hput : ∀ b ∈ put, b.length = 5)
    (s : SealSystem) (hs : s.send.sendbuf = ⟨[], SENDBUF_SIZE⟩) :
    ∃ s', runTrace (sealStep C) (fun _ _ => true) (sealAll put) s = some s' ∧
      s'.send.sendbuf = ⟨[], SENDBUF_SIZE⟩ ∧ s'.previous = s.previous ∧
      s'.current.length = s.current.length + put.length := by
  induction put generalizing s with
  | nil => exact ⟨s, rfl, hs, rfl, rfl⟩
  | cons b put ih =>
    have hb : b.length = 5 := hput b List.mem_cons_self
    have hok : s.send.sendbuf.Ok := by
      rw [hs]
      exact ⟨by decide, by decide⟩
    have hroom : s.send.sendbuf.data.length + 60 + sealedLength b.length false <
        s.send.sendbuf.alloc := by
      rw [hs, hb]
      decide
    have hseal := @chachapolyPacketPut_eq C s.send b false hok (by omega) (by rw [hb]; decide)
    rw [if_pos hroom] at hseal
    let next : SealSystem := {
      send := { s.send with sendbuf := ⟨[], SENDBUF_SIZE⟩, sendpacketid := s.send.sendpacketid + 1 }
      current := s.current ++ [packNonce s.send.sendpacketid]
      previous := s.previous }
    have hnext : runTrace (sealStep C) (fun _ _ => true) (sealAll (b :: put)) s =
        runTrace (sealStep C) (fun _ _ => true) (sealAll put) next := by
      change ((sealStep C s (.put b false)).bind fun s => runTrace _ _ _ s) = _
      rw [sealStep, hseal, Option.bind_some]
      change runTrace _ _ _ { next with
        send := { next.send with sendbuf := ⟨[], s.send.sendbuf.alloc⟩ } } = _
      rw [hs]
      rfl
    obtain ⟨s', hrun, hsendbuf, hprevious, hlen⟩ :=
      ih (fun b h => hput b (List.mem_cons_of_mem _ h)) next rfl
    refine ⟨s', hnext.trans hrun, hsendbuf, hprevious, ?_⟩
    rw [hlen, List.length_append, List.length_singleton, List.length_cons]
    omega

/-- The sending half of a session before its first key exchange. -/
def firstSend : TinysshSend := ⟨⟨[], SENDBUF_SIZE⟩, 0, Vector.replicate 128 0⟩

/-- Two packets, a key exchange, and one more. -/
theorem send_nonces_rekeyed : ∃ s,
    Run (sealStep chacha20Poly1305) (fun _ _ => True) ⟨firstSend, [], []⟩ s ∧
      s.previous.map List.length = [2] ∧ s.current.length = 1 ∧
      ∀ l ∈ s.current :: s.previous, ∀ i j, i ≤ j → j < l.length →
        (l[i]? = l[j]? ↔ 2 ^ 32 ∣ j - i) := by
  have hunit : ∀ s e, (fun _ _ => true : SealSystem → SealEvent → Bool) s e = true → True :=
    fun _ _ _ => trivial
  let key : Vector UInt8 128 := Vector.replicate 128 1
  obtain ⟨s, hrun, hsend, hprevious, hcurrent⟩ := runTrace_sealAll chacha20Poly1305
    [List.replicate 5 0, List.replicate 5 1] (by decide) ⟨firstSend, [], []⟩ rfl
  obtain ⟨t, hrun', -, hprevious', hcurrent'⟩ := runTrace_sealAll chacha20Poly1305
    [List.replicate 5 2] (by decide)
    ⟨{ s.send with serverkey := key }, [], s.current :: s.previous⟩ hsend
  have hwhole : Run (sealStep chacha20Poly1305) (fun _ _ => True) ⟨firstSend, [], []⟩ t :=
    (Run.next (e := .kexdh key) (Run.of_trace _ hunit _ hrun) trivial rfl).trans
      (Run.of_trace _ hunit _ hrun')
  refine ⟨t, hwhole, ?_, hcurrent', send_nonces _ _ _ hwhole⟩
  rw [hprevious', hprevious, List.map_cons, hcurrent]
  rfl

/-! ## 4. A client that never asks for a key exchange -/

/-- An iteration that brings a packet of a type nobody knows. -/
def unknownEnv (receivepacketid : UInt32) : LoopEnv :=
  { quietEnv with packets := [{ arrives [5] with receivepacketid := receivepacketid }] }

/-- Its answer. -/
def unimplemented (receivepacketid : UInt32) : Bytes :=
  SSH_MSG_UNIMPLEMENTED :: num32 receivepacketid

/-- The numbers of the first `n` packets of a client. -/
def packetids (n : ℕ) : List UInt32 := (List.range n).map UInt32.ofNat

/-- The session that has sent `emitted` and waits. -/
def answered (emitted : List Bytes) : Loop :=
  { loopStart (ascii "admin") fun _ => false with emitted := emitted }

theorem length_unimplemented (id : UInt32) : (unimplemented id).length = 5 := by
  rw [unimplemented, num32, List.length_cons, length_beBytes]

theorem exec_packetUnimplemented (id : UInt32) (emitted : List Bytes) :
    exec (packetUnimplemented id true) (answered emitted) =
      (.ok true, answered (emitted ++ [unimplemented id])) := by
  have hroom : (answered emitted).hasRoom (unimplemented id).length = true := by
    rw [length_unimplemented]
    rfl
  exact exec_bind_ok (exec_packetPut hroom)

/-- Each of these iterations sends one packet. -/
theorem mainLoopIteration_unknownEnv (id : UInt32) (emitted : List Bytes) :
    exec (mainLoopIteration (unknownEnv id)) (answered emitted) =
      (.ok false, answered (emitted ++ [unimplemented id])) := by
  have hevent : exec (processPackets (unknownEnv id).packets) (answered emitted) =
      (.ok (), answered (emitted ++ [unimplemented id])) := by
    refine exec_bind_ok (a := true) ?_
    exact exec_bind_ok (exec_packetUnimplemented id emitted)
  have hgo : ¬ (answered emitted).finished = true := Bool.false_ne_true
  have hwatch : watch (unknownEnv id) (answered emitted) = ⟨true, false, false, false⟩ := rfl
  have hidle : ∀ m : LoopM Unit,
      exec (whenReady false m) (answered emitted) = (.ok (), answered emitted) := fun _ => rfl
  have hchild : exec (checkChild (unknownEnv id).closeSent) (answered emitted) =
      (.ok (), answered emitted) := rfl
  have hrecv : exec (receiveFromNetwork true (unknownEnv id).recv) (answered emitted) =
      (.ok false, answered emitted) := rfl
  rw [mainLoopIteration, exec_reads_bind, if_neg hgo, exec_reads_bind, hwatch,
    exec_bind_ok (hidle _), exec_bind_ok (hidle _), exec_bind_ok hchild, exec_bind_ok (hidle _),
    exec_bind_ok hrecv, if_neg Bool.false_ne_true, exec_bind_ok hevent, exec_pure]

theorem mainLoop_unknownEnv (ids : List UInt32) (emitted : List Bytes) :
    exec (mainLoop (ids.map unknownEnv)) (answered emitted) =
      (.ok false, answered (emitted ++ ids.map unimplemented)) := by
  induction ids generalizing emitted with
  | nil =>
    rw [List.map_nil, List.map_nil, List.append_nil]
    rfl
  | cons id ids ih =>
    rw [List.map_cons, List.map_cons, mainLoop,
      exec_bind_ok (mainLoopIteration_unknownEnv id emitted), if_neg Bool.false_ne_true, ih,
      List.append_assoc]
    rfl

/-- The client sends 2^32 + 1 packets of an unknown type and no KEXINIT.  The loop puts that many
answers, and they are sealed under one key: the first and the last with the same nonce. -/
theorem send_nonces_unknown :
    (exec (mainLoop ((packetids (2 ^ 32 + 1)).map unknownEnv)) (answered [])).1 = .ok false ∧
      ∃ s, runTrace (sealStep chacha20Poly1305) (fun _ _ => true)
          (sealAll (exec (mainLoop ((packetids (2 ^ 32 + 1)).map unknownEnv)) (answered [])).2.put)
          ⟨firstSend, [], []⟩ = some s ∧
        2 ^ 32 < s.current.length ∧ s.current[0]? = s.current[2 ^ 32]? := by
  have hlen : (packetids (2 ^ 32 + 1)).length = 2 ^ 32 + 1 := by
    rw [packetids, List.length_map, List.length_range]
  generalize packetids (2 ^ 32 + 1) = ids at *
  have hput : (answered (ids.map unimplemented)).put = ids.map unimplemented := List.append_nil _
  have hfive : ∀ b ∈ ids.map unimplemented, b.length = 5 := by
    intro b hb
    obtain ⟨id, -, rfl⟩ := List.mem_map.mp hb
    exact length_unimplemented id
  obtain ⟨s, hrun, -, -, hcurrent⟩ := runTrace_sealAll chacha20Poly1305 (ids.map unimplemented)
    hfive ⟨firstSend, [], []⟩ rfl
  rw [mainLoop_unknownEnv, List.nil_append, hput]
  have hcount : s.current.length = 2 ^ 32 + 1 := by
    rw [hcurrent, List.length_map, hlen, List.length_nil, Nat.zero_add]
  have hconsecutive := consecutive_of_run (Run.of_trace _ (fun _ _ _ => trivial) _ hrun)
  obtain ⟨id, hnonces, -⟩ := hconsecutive.current
  refine ⟨rfl, s, hrun, by omega, ?_⟩
  rw [hnonces, hcount]
  exact (noncesFrom_getElem_eq_iff (Nat.zero_le _) (by omega)).mpr (dvd_refl _)

end Glossh.Ssh
