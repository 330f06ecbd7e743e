/-
# From the shell to the client

The data that `packet_channel_send_data` takes from the interpreter with `channel_read`, against
the window the client gave it.  The client's WINDOW_ADJUSTs are added to the 32-bit window without
a check; an addition that wraps only makes the window smaller.

A run starts behind `channel_open`.  What it has put, read and been allowed is compared in one
invariant, `OutputFlow`, which each event keeps.
-/
import Glossh.Ssh.MainLoop

namespace Glossh.Ssh

open Bytes Prog

/-! ## 1. Runs -/

/-- What happens to the output of a channel, in any order. -/
inductive OutputEvent where
  | exec (cmd : Option Bytes) (e : ExecEnv)
  /-- WINDOW_ADJUST. -/
  | adjust (x : UInt32)
  /-- `packet_channel_send_data`, with what the read comes to. -/
  | data (r : ReadResult)
  | send (w : WriteResult)

/-- The code an event runs. -/
def OutputEvent.prog : OutputEvent → LoopM Unit
  | .exec cmd e => execOrBug cmd e
  | .adjust x => onChannel (channelIncrementremotewindow x)
  | .data r => packetChannelSendData r
  | .send w => sendToNetwork w

/-- A run. -/
def outputRun : List OutputEvent → LoopM Unit
  | [] => return ()
  | ev :: evs => do
    ev.prog
    outputRun evs

/-- The window that an event adds, as a natural number. -/
def OutputEvent.adjusts : OutputEvent → ℕ
  | .adjust x => x.toNat
  | _ => 0

/-- A `CHANNEL_DATA` message. -/
def channelData (id : UInt32) (x : Bytes) : Bytes :=
  SSH_MSG_CHANNEL_DATA :: (num32 id ++ (num32 (UInt32.ofNat x.length) ++ x))

def isChannelData (p : Bytes) : Bool := p.headD 0 = SSH_MSG_CHANNEL_DATA

/-! ## 2. What a read does -/

/-- Nothing that concerns the output changed. -/
structure SameOutput (c d : ChannelState) : Prop where
  id_eq : d.channel.id = c.channel.id
  maxpacket_eq : d.channel.maxpacket = c.channel.maxpacket
  remotewindow_eq : d.channel.remotewindow = c.channel.remotewindow
  read_eq : bytesRead d.io = bytesRead c.io

theorem ReadResult.upTo_eq_data {r : ReadResult} {n : ℕ} {x : Bytes} (h : r.upTo n = .data x) :
    x ≠ [] ∧ x.length ≤ n := by
  cases r with
  | data y =>
    rw [ReadResult.upTo] at h
    split at h
    · cases h
    · rename_i hne
      cases h
      exact ⟨hne, List.length_take_le n y⟩
  | eof => cases h
  | again => cases h
  | failed => cases h

/-- **Everything `channel_read` can do**: it meets a bug check, returns 0, or returns bytes within
`len` and within the window, which it takes off the window. -/
theorem channelRead_cases (len : ℤ) (r : ReadResult) (c : ChannelState) :
    (∃ e, exec (channelRead len r) c = (.error e, c)) ∨
      (∃ d, SameOutput c d ∧ exec (channelRead len r) c = (.ok [], d)) ∨
      ∃ x, x ≠ [] ∧ x.length ≤ len.toNat ∧ x.length ≤ c.channel.remotewindow.toNat ∧
        exec (channelRead len r) c = (.ok x,
          ⟨{ c.channel with
            remotewindow := c.channel.remotewindow - UInt32.ofNat x.length },
            .read c.channel.fd1 x :: c.io⟩) := by
  have hclosed : ∃ d, SameOutput c d ∧
      exec (closeFd1 >>= fun _ => (pure [] : ChannelM Bytes)) c = (.ok [], d) := by
    exact ⟨⟨{ c.channel with fd1 := -1 }, .closed c.channel.fd1 :: c.io⟩,
      ⟨rfl, rfl, rfl, bytesRead_of_not_read rfl _⟩, rfl⟩
  rw [channelRead, exec_bugIf_bind]
  split
  · exact .inl ⟨_, rfl⟩
  rw [exec_bugIf_bind]
  split
  · exact .inl ⟨_, rfl⟩
  rw [exec_bugIf_bind]
  split
  · exact .inl ⟨_, rfl⟩
  rw [exec_bugIf_bind]
  split
  · exact .inl ⟨_, rfl⟩
  rw [exec_reads_bind]
  split
  · exact .inr (.inl ⟨c, ⟨rfl, rfl, rfl, rfl⟩, rfl⟩)
  split
  · exact .inr (.inl ⟨c, ⟨rfl, rfl, rfl, rfl⟩, rfl⟩)
  · rename_i x hx
    obtain ⟨hne, hlen⟩ := ReadResult.upTo_eq_data hx
    exact .inr (.inr ⟨x, hne, by omega, by omega, rfl⟩)
  · exact .inr (.inl hclosed)
  · exact .inr (.inl hclosed)

/-! ## 3. The invariant -/

/-- What was put, read and allowed, when the initial window and all adjusts make up `credit`. -/
structure OutputFlow (id maxpacket : UInt32) (credit : ℕ) (s : Loop) : Prop where
  id_eq : s.chan.channel.id = id
  maxpacket_eq : s.chan.channel.maxpacket = maxpacket
  refused_eq : s.refused = []
  /-- The data messages carry the bytes read, in order, and what was sent and what may still be
  sent is within the credit. -/
  messages : ∃ xs : List Bytes, s.put.filter isChannelData = xs.map (channelData id) ∧
    xs.flatten = bytesRead s.chan.io ∧ (∀ x ∈ xs, x.length ≤ maxpacket.toNat) ∧
    xs.flatten.length + s.chan.channel.remotewindow.toNat ≤ credit

variable {id maxpacket : UInt32} {credit : ℕ}

/-- An operation that does not concern the output. -/
theorem OutputFlow.of_same {s : Loop} {c : ChannelState} (h : OutputFlow id maxpacket credit s)
    (hc : SameOutput s.chan c) : OutputFlow id maxpacket credit { s with chan := c } := by
  obtain ⟨xs, hput, hread, hmax, hcredit⟩ := h.messages
  exact ⟨hc.id_eq.trans h.id_eq, hc.maxpacket_eq.trans h.maxpacket_eq, h.refused_eq,
    xs, hput, hread.trans hc.read_eq.symm, hmax, by rw [hc.remotewindow_eq]; exact hcredit⟩

/-- A message that fits is put where `packet_putisready` holds. -/
theorem hasRoom_of_putisready {s : Loop} {n : ℕ} (h : s.putisready = true) (hn : n ≤ PACKET_LIMIT) :
    s.hasRoom n = true := by
  have hready : s.sendlen + PACKET_FULLLIMIT < SENDBUF_SIZE := of_decide_eq_true h
  have hpad : paddinglen n (s.random 0) ≤ 28 := by
    rw [paddinglen]
    split <;> omega
  have hL : PACKET_LIMIT = 4096 := rfl
  have hF : PACKET_FULLLIMIT = 4300 := rfl
  have hA : AB = 16 := rfl
  refine decide_eq_true ?_
  rw [sealedLength]
  omega

theorem dataLimit_le (m : ℕ) : dataLimit m ≤ PACKET_LIMIT := by
  rw [dataLimit]
  split <;> omega

theorem dataLimit_le_maxpacket {m : ℕ} (h : 0 < m) : dataLimit m ≤ m := by
  rw [dataLimit]
  split <;> omega

/-! ## 4. The events -/

/-- **One message**: a read and its packet. -/
theorem outputFlow_data (hmax : 0 < maxpacket) (r : ReadResult) :
    Keeps (OutputFlow id maxpacket credit) (packetChannelSendData r) := by
  intro s h
  rw [packetChannelSendData, exec_reads_bind, exec_reads_bind]
  by_cases hready : s.putisready = true
  · rw [if_pos hready, h.maxpacket_eq]
    have hlimit := dataLimit_le maxpacket.toNat
    have hlimit' := dataLimit_le_maxpacket (m := maxpacket.toNat) hmax
    rcases channelRead_cases ((dataLimit maxpacket.toNat : ℤ) - 9) r s.chan with
      ⟨e, he⟩ | ⟨d, hd, hexec⟩ | ⟨x, hne, hlen, hwindow, hexec⟩
    · have hread : exec (onChannel (channelRead ((dataLimit maxpacket.toNat : ℤ) - 9) r)) s =
          (.error e, s) := by rw [onChannel, exec_zoom, he]
      rw [exec_bind_error hread]
      exact h
    · have hread : exec (onChannel (channelRead ((dataLimit maxpacket.toNat : ℤ) - 9) r)) s =
          (.ok [], { s with chan := d }) := by rw [onChannel, exec_zoom, hexec]
      rw [exec_bind_ok hread, if_pos rfl, exec_pure]
      exact h.of_same hd
    · -- The bytes leave the window and enter the queue.
      obtain ⟨xs, hput, hreads, hlengths, hcredit⟩ := h.messages
      let t : Loop := { s with
        chan := ⟨{ s.chan.channel with
          remotewindow := s.chan.channel.remotewindow - UInt32.ofNat x.length },
          .read s.chan.channel.fd1 x :: s.chan.io⟩ }
      have hread : exec (onChannel (channelRead ((dataLimit maxpacket.toNat : ℤ) - 9) r)) s =
          (.ok x, t) := by rw [onChannel, exec_zoom, hexec]
      have hL : PACKET_LIMIT = 4096 := rfl
      have hmsg : (channelData id x).length = 9 + x.length := by
        simp only [channelData, num32, List.length_cons, List.length_append, length_beBytes]
        omega
      have hroom : t.hasRoom (channelData id x).length = true :=
        hasRoom_of_putisready (s := t) hready (by omega)
      have hofNat : (UInt32.ofNat x.length).toNat = x.length :=
        UInt32.toNat_ofNat_of_lt' (by simp only [UInt32.size]; omega)
      have hsub : (s.chan.channel.remotewindow - UInt32.ofNat x.length).toNat =
          s.chan.channel.remotewindow.toNat - x.length := by
        rw [UInt32.toNat_sub_of_le _ _ (UInt32.le_iff_toNat_le.mpr (by omega)), hofNat]
      rw [exec_bind_ok hread, if_neg hne, exec_reads_bind, show t.chan.channel.id = id from h.id_eq]
      change OutputFlow id maxpacket credit (exec (packetPut (channelData id x)) t).2
      rw [exec_packetPut hroom]
      refine ⟨h.id_eq, h.maxpacket_eq, h.refused_eq, xs ++ [x], ?_, ?_, ?_, ?_⟩
      · simp only [Loop.put, List.map_append, List.filter_append] at hput ⊢
        rw [← List.append_assoc, hput]
        rfl
      · change (xs ++ [x]).flatten = bytesRead (.read s.chan.channel.fd1 x :: s.chan.io)
        rw [List.flatten_append, hreads, bytesRead_read, List.flatten_singleton]
      · intro y hy
        rcases List.mem_append.mp hy with hy | hy
        · exact hlengths y hy
        · rw [List.mem_singleton.mp hy]
          omega
      · change (xs ++ [x]).flatten.length +
          (s.chan.channel.remotewindow - UInt32.ofNat x.length).toNat ≤ credit
        rw [List.flatten_append, List.length_append, hsub]
        simp only [List.flatten_cons, List.flatten_nil, List.append_nil]
        omega
  · rw [if_neg hready, exec_pure]
    exact h

theorem outputFlow_onChannel {α : Type} {m : ChannelM α}
    (h : ∀ c, Keeps (SameOutput c) m) : Keeps (OutputFlow id maxpacket credit) (onChannel m) :=
  fun s hs => hs.of_same (h s.chan s.chan ⟨rfl, rfl, rfl, rfl⟩)

/-- Starting an interpreter reads nothing from it. -/
theorem keeps_sameOutput_channelExec (c : ChannelState) (cmd : Option Bytes) (e : ExecEnv) :
    Keeps (SameOutput c) (channelExec cmd e) := by
  have hio : IgnoresIo (SameOutput c) := fun _ io _ hx hs =>
    ⟨hs.id_eq, hs.maxpacket_eq, hs.remotewindow_eq,
      (bytesRead_of_not_read hx io).trans hs.read_eq⟩
  refine ((hio.triple_channelExec cmd e).post ?_).keeps
  rintro ok s (⟨-, hs⟩ | ⟨-, d, fd0, fd1, hs, -, -, -, hchannel⟩)
  · exact hs
  · constructor
    · rw [hchannel]
      exact hs.id_eq
    · rw [hchannel]
      exact hs.maxpacket_eq
    · rw [hchannel]
      exact hs.remotewindow_eq
    · exact hs.read_eq

theorem outputFlow_send (w : WriteResult) :
    Keeps (OutputFlow id maxpacket credit) (sendToNetwork w) := by
  refine KeptBySending.sendToNetwork ?_ w
  intro s emitted sendbuf hput h
  refine ⟨h.id_eq, h.maxpacket_eq, h.refused_eq, ?_⟩
  rw [hput]
  exact h.messages

/-- The client enlarges the window: modulo 2^32 by no more than it says. -/
theorem outputFlow_adjust {s : Loop} (h : OutputFlow id maxpacket credit s) (x : UInt32) :
    OutputFlow id maxpacket (credit + x.toNat)
      (exec (onChannel (channelIncrementremotewindow x)) s).2 := by
  obtain ⟨xs, hput, hreads, hlengths, hcredit⟩ := h.messages
  refine ⟨h.id_eq, h.maxpacket_eq, h.refused_eq, xs, hput, hreads, hlengths, ?_⟩
  have hadd : (s.chan.channel.remotewindow + x).toNat ≤
      s.chan.channel.remotewindow.toNat + x.toNat := by
    rw [UInt32.toNat_add]
    exact Nat.mod_le _ _
  change xs.flatten.length + (s.chan.channel.remotewindow + x).toNat ≤ credit + x.toNat
  omega

theorem OutputFlow.mono {credit' : ℕ} {s : Loop} (h : OutputFlow id maxpacket credit s)
    (hle : credit ≤ credit') : OutputFlow id maxpacket credit' s := by
  obtain ⟨xs, hput, hreads, hlengths, hcredit⟩ := h.messages
  exact ⟨h.id_eq, h.maxpacket_eq, h.refused_eq, xs, hput, hreads, hlengths, hcredit.trans hle⟩

/-- **What one event keeps.** -/
theorem outputFlow_event (hmax : 0 < maxpacket) {s : Loop} (h : OutputFlow id maxpacket credit s)
    (ev : OutputEvent) : OutputFlow id maxpacket (credit + ev.adjusts) (exec ev.prog s).2 := by
  cases ev with
  | exec cmd e =>
    exact ((outputFlow_onChannel fun c => keeps_sameOutput_channelExec c cmd e).bind
      fun _ => keeps_check _) s h
  | adjust x => exact outputFlow_adjust h x
  | data r => exact outputFlow_data hmax r s h
  | send w => exact outputFlow_send w s h

/-- **What a run keeps**, also where it is ended early. -/
theorem outputFlow_run (hmax : 0 < maxpacket) (evs : List OutputEvent) {s : Loop}
    (h : OutputFlow id maxpacket credit s) :
    OutputFlow id maxpacket (credit + (evs.map OutputEvent.adjusts).sum)
      (exec (outputRun evs) s).2 := by
  induction evs generalizing s credit with
  | nil => exact h
  | cons ev evs ih =>
    have hstep := outputFlow_event hmax h ev
    rw [outputRun, exec_bind, List.map_cons, List.sum_cons, ← Nat.add_assoc]
    rcases hx : exec ev.prog s with ⟨r, t⟩
    rw [hx] at hstep
    cases r with
    | ok a => exact ih hstep
    | error e => exact hstep.mono (Nat.le_add_right _ _)

/-! ## 5. From the opening of the channel on -/

/-- `channel_open` gives the client's window as the first credit. -/
theorem outputFlow_open {name user : Bytes} {random : ℕ → Bool} {remotewindow w : UInt32}
    {s : Loop} (h : exec (onChannel (channelOpen user id remotewindow maxpacket))
      (loopStart name random) = (.ok w, s)) :
    0 < maxpacket ∧ OutputFlow id maxpacket remotewindow.toNat s := by
  rcases hx : exec (channelOpen user id remotewindow maxpacket) (loopStart name random).chan with
    ⟨r, d⟩
  rw [onChannel, exec_zoom, hx] at h
  obtain ⟨rfl, rfl⟩ := Prod.mk.inj h
  obtain ⟨hmax, -, -, -, -, -, rfl⟩ := channelOpen_ok hx
  refine ⟨UInt32.pos_iff_ne_zero.mpr hmax, rfl, rfl, rfl, [], rfl, rfl, ?_, ?_⟩
  · intro x hx
    cases hx
  · exact Nat.le_of_eq (Nat.zero_add _)

/-- **Flow control and integrity of the output**: for every channel that could be opened and every
run behind that, the `CHANNEL_DATA` messages carry exactly the bytes read from the interpreter, in
order; each carries at most `maxpacket` bytes, together they carry no more than the initial window
and all adjusts, and none fails to fit in `sendbuf`. -/
theorem output_flow (name user : Bytes) (random : ℕ → Bool)
    (id remotewindow maxpacket w : UInt32) (s : Loop)
    (hopen : exec (onChannel (channelOpen user id remotewindow maxpacket))
      (loopStart name random) = (.ok w, s)) (evs : List OutputEvent) :
    ∃ xs : List Bytes,
      (exec (outputRun evs) s).2.put.filter isChannelData = xs.map (channelData id) ∧
      xs.flatten = bytesRead (exec (outputRun evs) s).2.chan.io ∧
      (∀ x ∈ xs, x.length ≤ maxpacket.toNat) ∧
      xs.flatten.length ≤ remotewindow.toNat + (evs.map OutputEvent.adjusts).sum ∧
      (exec (outputRun evs) s).2.refused = [] := by
  obtain ⟨hmax, hstart⟩ := outputFlow_open hopen
  have hrun := outputFlow_run hmax evs hstart
  obtain ⟨xs, hput, hread, hlengths, hcredit⟩ := hrun.messages
  exact ⟨xs, hput, hread, hlengths, (Nat.le_add_right _ _).trans hcredit, hrun.refused_eq⟩

/-- A window of 5 bytes that wraps, and output in two pieces. -/
def wrappingOutput : List OutputEvent :=
  [.exec none workingSockets,
    .data (.data (ascii "Welcome")), .adjust 4294967295, .adjust 3, .data .again,
    .data (.data (ascii "me")), .send (.wrote 20), .data .eof]

/-- An opened channel. -/
theorem output_flow_wrapping : ∃ s, exec (onChannel (channelOpen (ascii "admin") 7 5 4096))
      (loopStart (ascii "admin") fun _ => false) = (.ok 131072, s) ∧
    (∃ xs : List Bytes,
      (exec (outputRun wrappingOutput) s).2.put.filter isChannelData = xs.map (channelData 7) ∧
      xs.flatten = bytesRead (exec (outputRun wrappingOutput) s).2.chan.io ∧
      (∀ x ∈ xs, x.length ≤ 4096) ∧
      xs.flatten.length ≤ 5 + (wrappingOutput.map OutputEvent.adjusts).sum ∧
      (exec (outputRun wrappingOutput) s).2.refused = []) := by
  have hopen : exec (onChannel (channelOpen (ascii "admin") 7 5 4096))
      (loopStart (ascii "admin") fun _ => false) = (.ok 131072,
        (exec (onChannel (channelOpen (ascii "admin") 7 5 4096))
          (loopStart (ascii "admin") fun _ => false)).2) := rfl
  exact ⟨_, hopen, output_flow (ascii "admin") (ascii "admin") (fun _ => false) 7 5 4096 131072 _
    hopen wrappingOutput⟩

end Glossh.Ssh
