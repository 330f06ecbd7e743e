/-
# When the output of the shell ends

`packet_channel_send_data` reads as much as fits behind the nine bytes in front of the data in a
packet of the client's size.  A client may have confirmed to it a size that holds no byte of data:
with `maxpacket` 9 the read is one of no bytes, and what it returns is taken for the end of the
interpreter's output; below 9 its length is negative, which `channel_read` calls a bug.

The states are those in which the main loop makes the call, in any run of it.
-/
import Glossh.Ssh.ChannelEnd
import Glossh.Ssh.OutputFlow

namespace Glossh.Ssh

open Bytes Prog

/-! ## 1. The call, and what may come of it -/

/-- The interpreter's side is at its end, or the read failed for good. -/
def ReadResult.Ended : ReadResult → Prop
  | .data x => x = []
  | .eof => True
  | .again => False
  | .failed => True

/-- The call returns, and the output is at its end only if the interpreter's side is. -/
structure EndsWithShell (s : Loop) (r : ReadResult) : Prop where
  returns : (exec (packetChannelSendData r) s).1 = .ok ()
  ended : (exec (packetChannelSendData r) s).2.chan.channel.fd1 = -1 → r.Ended

/-- The main loop, started in `start`, gets through `envs` and calls `packet_channel_send_data` in
the iteration that meets `env`, in the state `s`. -/
def CallsSendData (start : Loop) (envs : List LoopEnv) (env : LoopEnv) (s : Loop) : Prop :=
  ∃ t, exec (mainLoop envs) start = (.ok false, t) ∧ t.finished = false ∧
    (watch env t).watchfromchild1 = true ∧
    exec (whenReady (watch env t).watchtochild (writeToChild env.childWrite)) t = (.ok (), s)

/-! ## 2. The states in which it is called -/

theorem readisready_iff {c : Channel} : c.readisready = true ↔
    c.maxpacket ≠ 0 ∧ c.pid ≠ 0 ∧ c.fd1 ≠ -1 ∧ 0 < c.remotewindow := by
  unfold Channel.readisready
  constructor
  · intro h
    split at h
    · cases h
    · rename_i hopen
      split at h
      · cases h
      · rename_i hfd1
        exact ⟨fun h0 => hopen (.inl h0), fun h0 => hopen (.inr h0), hfd1, of_decide_eq_true h⟩
  · rintro ⟨hmax, hpid, hfd1, hwindow⟩
    rw [if_neg (not_or.mpr ⟨hmax, hpid⟩), if_neg hfd1]
    exact decide_eq_true hwindow

/-- An interpreter with an open output, and a window. -/
structure Reads (s : Loop) : Prop where
  ready : s.chan.channel.readisready = true
  pid_pos : 0 < s.chan.channel.pid

/-- What `channel_readisready` looks at. -/
structure SameReads (c d : Channel) : Prop where
  maxpacket : d.maxpacket = c.maxpacket
  pid : d.pid = c.pid
  fd1 : d.fd1 = c.fd1
  remotewindow : d.remotewindow = c.remotewindow

theorem Reads.of_same {s t : Loop} (h : Reads s) (hsame : SameReads s.chan.channel t.chan.channel) :
    Reads t := by
  obtain ⟨hmax, hpid, hfd1, hwindow⟩ := hsame
  refine ⟨?_, hpid ▸ h.pid_pos⟩
  rw [readisready_iff, hmax, hpid, hfd1, hwindow]
  exact readisready_iff.mp h.ready

theorem keeps_reads_onChannel {α : Type} {m : ChannelM α}
    (h : ∀ c, Keeps (fun s => SameReads c s.channel) m) : Keeps Reads (onChannel m) :=
  fun s hs => hs.of_same (h s.chan.channel s.chan ⟨rfl, rfl, rfl, rfl⟩)

theorem keeps_sameReads_channelWrite (c : Channel) (w : WriteResult) :
    Keeps (fun s => SameReads c s.channel) (channelWrite w) :=
  keeps_channelWrite_of (fun _ h => ⟨h.maxpacket, h.pid, h.fd1, h.remotewindow⟩)
    (fun _ _ h => ⟨h.maxpacket, h.pid, h.fd1, h.remotewindow⟩) w

theorem keeps_reads_packetPut (p : Bytes) : Keeps Reads (packetPut p) := by
  refine (keeps_reads _).bind fun _ => Keeps.ite ?_ ?_
  · exact keeps_modify fun _ h => ⟨h.ready, h.pid_pos⟩
  · exact Keeps.bind (keeps_modify fun _ h => ⟨h.ready, h.pid_pos⟩) fun _ => keeps_throw _

/-- Writing to the interpreter leaves its output alone. -/
theorem keeps_reads_writeToChild (w : WriteResult) : Keeps Reads (writeToChild w) := by
  refine (keeps_reads_onChannel fun c => keeps_sameReads_channelWrite c w).bind fun _ =>
    (keeps_check _).bind fun _ => (keeps_reads _).bind fun _ => (keeps_pure _).ite
    ((keeps_pure _).ite ?_)
  refine Keeps.bind (keeps_reads_onChannel fun c => ?_) fun _ => keeps_reads_packetPut _
  exact keeps_modify fun _ h => ⟨h.maxpacket, h.pid, h.fd1, h.remotewindow⟩

/-- The channel's process is none, the interpreter, or gone. -/
def PidOk (s : ChannelState) : Prop := -1 ≤ s.channel.pid

/-- No assignment to the channel takes its process below that. -/
theorem pidOk_assignments : KeptByAssignments fun c => -1 ≤ c.pid where
  user _ h := h
  opened _ _ _ _ _ _ h := h
  started _ _ _ := (by decide : (-1 : ℤ) ≤ 9999)
  input _ _ h := h
  eof _ h := h
  closedFd0 h := h
  closedFd1 h := h
  output _ h := h
  gone _ := le_refl _

theorem keptByChannel_pidOk : KeptByChannel PidOk := pidOk_assignments.channel

/-- **Where the main loop calls `packet_channel_send_data`** there is an interpreter whose output is
open, and a window. -/
theorem CallsSendData.reads {name : Bytes} {random : ℕ → Bool} {envs : List LoopEnv} {env : LoopEnv}
    {s : Loop} (h : CallsSendData (loopStart name random) envs env s) : Reads s := by
  obtain ⟨t, hloop, -, hwatch, hwrite⟩ := h
  have hlive : Live t := by
    have hrun := (triple_mainLoop envs).run _ (live_loopStart name random)
    rw [hloop] at hrun
    exact hrun.2
  have hpid : -1 ≤ t.chan.channel.pid := by
    have hkept := keptByChannel_pidOk.mainLoop envs (loopStart name random)
      (show (-1 : ℤ) ≤ 0 by decide)
    rwa [hloop] at hkept
  have hready : t.chan.channel.readisready = true := by
    simp only [watch, Bool.and_eq_true] at hwatch
    exact hwatch.1.1.1
  have hreads : Reads t := by
    refine ⟨hready, ?_⟩
    obtain ⟨hmax, hzero, -, -⟩ := readisready_iff.mp hready
    have hnot := hlive.notEof
    unfold Loop.iseof Channel.iseof at hnot
    rw [if_neg hmax, if_neg hzero] at hnot
    have hgone : t.chan.channel.pid ≠ -1 := by
      intro hgone
      rw [if_pos hgone] at hnot
      cases hnot
    omega
  have hkept : Keeps Reads (whenReady (watch env t).watchtochild (writeToChild env.childWrite)) :=
    (keeps_reads_writeToChild _).ite (keeps_pure _)
  have hs := hkept t hreads
  rwa [hwrite] at hs

/-! ## 3. What the call does there -/

/-- `channel_read` of a channel that `channel_readisready` calls ready. -/
theorem exec_channelRead {c : ChannelState} (hready : c.channel.readisready = true)
    (hpid : 0 < c.channel.pid) (len : ℤ) (r : ReadResult) :
    exec (channelRead len r) c =
      if len < 0 then (.error (.bug .EINVAL), c)
      else
        match r.upTo (min (min len.toNat 1048576) c.channel.remotewindow.toNat) with
        | .again => (.ok [], c)
        | .data x => (.ok x, ⟨{ c.channel with
            remotewindow := c.channel.remotewindow - UInt32.ofNat x.length },
            .read c.channel.fd1 x :: c.io⟩)
        | .eof => (.ok [], ⟨{ c.channel with fd1 := -1 }, .closed c.channel.fd1 :: c.io⟩)
        | .failed => (.ok [], ⟨{ c.channel with fd1 := -1 }, .closed c.channel.fd1 :: c.io⟩) := by
  obtain ⟨hopen, -, hfd1, hpos⟩ := readisready_iff.mp hready
  have hwindow : ¬ c.channel.remotewindow ≤ 0 := UInt32.not_le.mpr hpos
  have hmax : decide (c.channel.maxpacket = 0) = false := decide_eq_false hopen
  have hrun : decide (c.channel.pid ≤ 0) = false := decide_eq_false (by omega)
  have hfd : decide (c.channel.fd1 = -1) = false := decide_eq_false hfd1
  rw [channelRead, exec_bugIf_bind, hmax, if_neg Bool.false_ne_true, exec_bugIf_bind, hrun,
    if_neg Bool.false_ne_true, exec_bugIf_bind, hfd, if_neg Bool.false_ne_true, exec_bugIf_bind]
  by_cases hlen : len < 0
  · rw [if_pos (decide_eq_true hlen), if_pos hlen]
  · rw [if_neg fun h => hlen (of_decide_eq_true h), if_neg hlen, exec_reads_bind, if_neg hwindow]
    generalize r.upTo _ = answer
    cases answer <;> rfl

section

variable {s : Loop} {r : ReadResult}

/-- Without room in `sendbuf` nothing is read. -/
theorem endsWithShell_unready (h : Reads s) (hready : s.putisready = false) :
    EndsWithShell s r := by
  have hexec : exec (packetChannelSendData r) s = (.ok (), s) := by
    rw [packetChannelSendData, exec_reads_bind, exec_reads_bind, hready,
      if_neg Bool.false_ne_true, exec_pure]
  refine ⟨by rw [hexec], ?_⟩
  rw [hexec]
  exact fun hclosed => absurd hclosed (readisready_iff.mp h.ready).2.2.1

/-- The call, as far as `channel_read`. -/
theorem exec_sendData (hready : s.putisready = true) {x : Bytes} {c : ChannelState}
    (hread : exec (channelRead ((dataLimit s.chan.channel.maxpacket.toNat : ℤ) - 9) r) s.chan =
      (.ok x, c)) :
    exec (packetChannelSendData r) s =
      if x = [] then (.ok (), { s with chan := c })
      else exec (packetPut (channelData c.channel.id x)) { s with chan := c } := by
  have honchannel : exec (onChannel (channelRead
      ((dataLimit s.chan.channel.maxpacket.toNat : ℤ) - 9) r)) s =
        (.ok x, { s with chan := c }) := by
    rw [onChannel, exec_zoom, hread]
  rw [packetChannelSendData, exec_reads_bind, exec_reads_bind, if_pos hready,
    exec_bind_ok honchannel]
  split
  · rw [exec_pure]
  · rw [exec_reads_bind]
    rfl

/-- **Ten bytes and more**: the call returns, and a read that takes no byte is one of a shell that
is at its end. -/
theorem endsWithShell_large (h : Reads s) (hlarge : 10 ≤ s.chan.channel.maxpacket.toNat) :
    EndsWithShell s r := by
  by_cases hready : s.putisready = true
  swap
  · exact endsWithShell_unready h (Bool.eq_false_iff.mpr hready)
  have hL : PACKET_LIMIT = 4096 := rfl
  have hlimit : 10 ≤ dataLimit s.chan.channel.maxpacket.toNat := by
    rw [dataLimit]
    split <;> omega
  have hlimit' := dataLimit_le s.chan.channel.maxpacket.toNat
  obtain ⟨-, -, hopen, hpos⟩ := readisready_iff.mp h.ready
  have hwindow : 0 < s.chan.channel.remotewindow.toNat := UInt32.lt_iff_toNat_lt.mp hpos
  have hread := exec_channelRead h.ready h.pid_pos
    ((dataLimit s.chan.channel.maxpacket.toNat : ℤ) - 9) r
  rw [if_neg (by omega)] at hread
  generalize hn : min (min ((dataLimit s.chan.channel.maxpacket.toNat : ℤ) - 9).toNat 1048576)
    s.chan.channel.remotewindow.toNat = n at hread
  cases r with
  | again =>
    have hexec := exec_sendData hready hread
    rw [if_pos rfl] at hexec
    exact ⟨by rw [hexec], by rw [hexec]; exact fun hclosed => absurd hclosed hopen⟩
  | eof =>
    have hexec := exec_sendData hready hread
    rw [if_pos rfl] at hexec
    exact ⟨by rw [hexec], fun _ => trivial⟩
  | failed =>
    have hexec := exec_sendData hready hread
    rw [if_pos rfl] at hexec
    exact ⟨by rw [hexec], fun _ => trivial⟩
  | data x =>
    by_cases hx : x = []
    · subst hx
      rw [ReadResult.upTo, List.take_nil, if_pos rfl] at hread
      have hexec := exec_sendData hready hread
      rw [if_pos rfl] at hexec
      exact ⟨by rw [hexec], fun _ => rfl⟩
    · have htake : x.take n ≠ [] := by
        intro hnil
        rcases List.take_eq_nil_iff.mp hnil with h0 | h0
        · omega
        · exact hx h0
      rw [ReadResult.upTo, if_neg htake] at hread
      have hexec := exec_sendData hready hread
      have htakelen : (x.take n).length ≤ n := List.length_take_le _ _
      have hroom : ({ s with chan := ⟨{ s.chan.channel with
          remotewindow := s.chan.channel.remotewindow - UInt32.ofNat (x.take n).length },
          .read s.chan.channel.fd1 (x.take n) :: s.chan.io⟩ } : Loop).hasRoom
            (channelData s.chan.channel.id (x.take n)).length = true := by
        refine hasRoom_of_putisready hready ?_
        simp only [channelData, num32, List.length_cons, List.length_append, length_beBytes]
        omega
      rw [if_neg htake, exec_packetPut hroom] at hexec
      exact ⟨by rw [hexec], by rw [hexec]; exact fun hclosed => absurd hclosed hopen⟩

/-- **Fewer than nine bytes**: the length of the read is negative. -/
theorem not_endsWithShell_small (h : Reads s) (hready : s.putisready = true)
    (hsmall : s.chan.channel.maxpacket.toNat < 9) : ¬ EndsWithShell s r := by
  have hlimit : dataLimit s.chan.channel.maxpacket.toNat < 9 := by
    have hmax := (readisready_iff.mp h.ready).1
    have hpos : s.chan.channel.maxpacket.toNat ≠ 0 := fun hzero => hmax (UInt32.toNat_inj.mp hzero)
    have hle := dataLimit_le_maxpacket (m := s.chan.channel.maxpacket.toNat) (by omega)
    omega
  have hread := exec_channelRead h.ready h.pid_pos
    ((dataLimit s.chan.channel.maxpacket.toNat : ℤ) - 9) r
  rw [if_pos (by omega)] at hread
  have honchannel : exec (onChannel (channelRead
      ((dataLimit s.chan.channel.maxpacket.toNat : ℤ) - 9) r)) s =
        (.error (.bug .EINVAL), s) := by
    rw [onChannel, exec_zoom, hread]
  intro hends
  have hreturns := hends.returns
  rw [packetChannelSendData, exec_reads_bind, exec_reads_bind, if_pos hready,
    exec_bind_error honchannel] at hreturns
  cases hreturns

/-- **Nine bytes**: a read of no bytes, which returns 0 whatever the shell wrote. -/
theorem not_endsWithShell_nine (h : Reads s) (hready : s.putisready = true)
    (hnine : s.chan.channel.maxpacket.toNat = 9) (x : Bytes) (hx : x ≠ []) :
    ¬ EndsWithShell s (.data x) := by
  have hlimit : (dataLimit s.chan.channel.maxpacket.toNat : ℤ) - 9 = 0 := by
    rw [hnine]
    decide
  have hread := exec_channelRead h.ready h.pid_pos
    ((dataLimit s.chan.channel.maxpacket.toNat : ℤ) - 9) (.data x)
  rw [hlimit, if_neg (by decide), ReadResult.upTo, Int.toNat_zero, Nat.zero_min, Nat.zero_min,
    List.take_zero, if_pos rfl, ← hlimit] at hread
  have hexec := exec_sendData hready hread
  rw [if_pos rfl] at hexec
  intro hends
  have hended := hends.ended
  rw [hexec] at hended
  exact hx (hended rfl)

end

/-! ## 4. In every run -/

/-- **The output ends only with the shell exactly while a packet of the client's size holds a byte
of data.**  In every state in which the main loop makes the call, whatever its read comes to;
without room in `sendbuf` nothing is read. -/
theorem output_ends_iff (name : Bytes) (random : ℕ → Bool) (envs : List LoopEnv) (env : LoopEnv)
    (s : Loop) (hcall : CallsSendData (loopStart name random) envs env s) :
    (∀ r, EndsWithShell s r) ↔
      10 ≤ s.chan.channel.maxpacket.toNat ∨ s.putisready = false := by
  have hreads := hcall.reads
  constructor
  · intro hall
    by_contra hnot
    obtain ⟨hsmall, hready⟩ := not_or.mp hnot
    have hready' : s.putisready = true := Bool.of_not_eq_false hready
    rcases Nat.lt_or_ge s.chan.channel.maxpacket.toNat 9 with hlt | hge
    · exact not_endsWithShell_small hreads hready' hlt (hall .again)
    · exact not_endsWithShell_nine hreads hready' (by omega) [0] (List.cons_ne_nil _ _) (hall _)
  · rintro (hlarge | hfull) r
    · exact endsWithShell_large hreads hlarge
    · exact endsWithShell_unready hreads hfull

/-- CHANNEL_OPEN with a packet size, and a shell. -/
def openShell (maxpacket : UInt32) : List LoopEnv :=
  [{ quietEnv with packets :=
      [arrives (SSH_MSG_CHANNEL_OPEN :: (sshString (ascii "session") ++ (num32 0 ++
        (num32 2097152 ++ num32 maxpacket)))),
      arrives (SSH_MSG_CHANNEL_REQUEST :: (num32 0 ++ (sshString (ascii "shell") ++ [1])))] }]

/-- What the shell writes arrives. -/
def greeting : LoopEnv := { quietEnv with childRead := .data (ascii "esp32> ") }

/-- The state the shell writes in. -/
def shellState (maxpacket : UInt32) : Loop :=
  (exec (mainLoop (openShell maxpacket)) (loopStart (ascii "admin") fun _ => false)).2

/-- Nothing is written to the shell in front of the call. -/
theorem callsSendData_shellState {maxpacket : UInt32}
    (hloop : (exec (mainLoop (openShell maxpacket)) (loopStart (ascii "admin") fun _ => false)).1 =
      .ok false)
    (hfinished : (shellState maxpacket).finished = false)
    (hidle : (watch greeting (shellState maxpacket)).watchtochild = false)
    (hwatch : (watch greeting (shellState maxpacket)).watchfromchild1 = true) :
    CallsSendData (loopStart (ascii "admin") fun _ => false) (openShell maxpacket) greeting
      (shellState maxpacket) := by
  refine ⟨shellState maxpacket, ?_, hfinished, hwatch, ?_⟩
  · unfold shellState
    generalize exec (mainLoop (openShell maxpacket)) _ = out at hloop
    exact Prod.ext hloop rfl
  · rw [hidle, whenReady, if_neg Bool.false_ne_true, exec_pure]

/-- **Packets of 32768 bytes.** -/
theorem output_ends_iff_shell :
    CallsSendData (loopStart (ascii "admin") fun _ => false) (openShell 32768) greeting
      (shellState 32768) ∧ ∀ r, EndsWithShell (shellState 32768) r := by
  have hcall : CallsSendData (loopStart (ascii "admin") fun _ => false) (openShell 32768) greeting
      (shellState 32768) :=
    callsSendData_shellState (by decide +kernel) (by decide +kernel) (by decide +kernel)
      (by decide +kernel)
  have hlarge : 10 ≤ (shellState 32768).chan.channel.maxpacket.toNat := by decide +kernel
  exact ⟨hcall, (output_ends_iff (ascii "admin") (fun _ => false) (openShell 32768) greeting
    (shellState 32768) hcall).mpr (.inl hlarge)⟩

/-- **Packets of nine bytes** truncate the output: the shell's greeting is there to be read, and
its descriptor is closed. -/
theorem output_truncated :
    CallsSendData (loopStart (ascii "admin") fun _ => false) (openShell 9) greeting
      (shellState 9) ∧ greeting.childRead = .data (ascii "esp32> ") ∧
      ((exec (packetChannelSendData greeting.childRead) (shellState 9)).2.chan.channel.fd1 = -1 ∧
        ¬ EndsWithShell (shellState 9) greeting.childRead) := by
  have hcall : CallsSendData (loopStart (ascii "admin") fun _ => false) (openShell 9) greeting
      (shellState 9) :=
    callsSendData_shellState (by decide +kernel) (by decide +kernel) (by decide +kernel)
      (by decide +kernel)
  refine ⟨hcall, rfl, by decide +kernel, ?_⟩
  exact not_endsWithShell_nine hcall.reads (by decide +kernel) (by decide +kernel) _ (by decide)

end Glossh.Ssh
