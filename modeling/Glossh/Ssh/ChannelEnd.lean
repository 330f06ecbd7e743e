/-
# The end of a channel

What the main loop does once the interpreter has closed its output.  "check child" wants the
self-pipe first, `selfpipe[0]` is still -1, and `open_pipe` of the port always returns -1: the
session dies before EOF, exit status or CLOSE is put.

An iteration is taken apart at "check child".  In front of it and behind it the channel is not at
its end (`Live`), and only `channel_read` can bring it there.
-/
import Glossh.Ssh.MainLoop

namespace Glossh.Ssh

open Bytes Prog

variable {α : Type}

/-! ## 1. An orderly end -/

/-- The server's messages about the output of the interpreter and its end. -/
def isTraffic (p : Bytes) : Bool :=
  p.headD 0 = SSH_MSG_CHANNEL_DATA || p.headD 0 = SSH_MSG_CHANNEL_EOF ||
    p.headD 0 = SSH_MSG_CHANNEL_REQUEST || p.headD 0 = SSH_MSG_CHANNEL_CLOSE

/-- The data of a `CHANNEL_DATA`. -/
def channelDataOf (p : Bytes) : Bytes := p.drop 9

/-- An exit-status or exit-signal request on channel `id`. -/
def ExitRequest (id : UInt32) (p : Bytes) : Prop :=
  ∃ rest, p = SSH_MSG_CHANNEL_REQUEST :: (num32 id ++ (sshString (ascii "exit-status") ++ rest)) ∨
    p = SSH_MSG_CHANNEL_REQUEST :: (num32 id ++ (sshString (ascii "exit-signal") ++ rest))

/-- **An orderly end** of a run of the loop: it was not ended through `die_fatal`, and the client
was sent all that was read, then EOF, the exit status, and CLOSE, each once. -/
structure OrderlyEnd (r : Except Exit Bool) (s : Loop) : Prop where
  not_fatal : ∀ trouble, r ≠ .error (.dieFatal trouble)
  closed : ∃ (data : List Bytes) (id : UInt32) (request : Bytes),
    s.emitted.filter isTraffic =
      data ++ [SSH_MSG_CHANNEL_EOF :: num32 id, request, channelClose id] ∧
    (∀ p ∈ data, p.headD 0 = SSH_MSG_CHANNEL_DATA) ∧
    data.flatMap channelDataOf = bytesRead s.chan.io ∧ ExitRequest id request

/-! ## 2. The channel is not at its end -/

/-- `channel_iseof` is 0. -/
def Open (s : ChannelState) : Prop := s.channel.iseof = false

/-- The fields that `channel_iseof` reads. -/
structure SameEnd (c d : Channel) : Prop where
  maxpacket_eq : d.maxpacket = c.maxpacket
  pid_eq : d.pid = c.pid
  fd1_eq : d.fd1 = c.fd1
  fd2_eq : d.fd2 = c.fd2

theorem SameEnd.iseof_eq {c d : Channel} (h : SameEnd c d) : d.iseof = c.iseof := by
  rw [Channel.iseof, Channel.iseof, h.maxpacket_eq, h.pid_eq, h.fd1_eq, h.fd2_eq]

theorem iseof_of_pid_zero {c : Channel} (h : c.pid = 0) : c.iseof = false := by
  rw [Channel.iseof, if_pos h]
  split <;> rfl

theorem keeps_open_fdEvent (e : FdEvent) : Keeps Open (fdEvent e) := keeps_modify fun _ h => h

theorem keeps_open_update {f : Channel → Channel} (h : ∀ c, SameEnd c (f c)) :
    Keeps Open (updateChannel f) := by
  refine keeps_modify ?_
  intro s hs
  exact (h s.channel).iseof_eq.trans hs

/-- A channel is opened without an interpreter, and an interpreter comes with its output open. -/
theorem open_assignments : KeptBeforeEnd fun c => c.iseof = false where
  user _ h := h
  opened _ _ _ _ _ hpid _ := iseof_of_pid_zero hpid
  started {c fd0 fd1} _ hfd1 _ := by
    have hne : fd1 ≠ -1 := by omega
    simp only [Channel.iseof]
    split
    · rfl
    · rw [if_neg (by decide), if_neg (by decide), decide_eq_false hne, Bool.false_and]
  input _ _ h := h
  eof _ h := h
  closedFd0 h := h
  output _ h := h

/-! ## 3. The loop before "check child" -/

/-- No self-pipe, and neither exit status nor CLOSE put. -/
structure Unclosed (s : Loop) : Prop where
  selfpipe : s.selfpipe = -1
  silent : ∀ p ∈ s.put, p.headD 0 ≠ SSH_MSG_CHANNEL_REQUEST ∧ p.headD 0 ≠ SSH_MSG_CHANNEL_CLOSE

/-- The channel is not at its end either. -/
structure Live (s : Loop) : Prop extends Unclosed s where
  notEof : s.iseof = false

theorem keeps_live_onChannel {m : ChannelM α} (h : Keeps Open m) :
    Keeps Live (onChannel m) :=
  fun s hs => ⟨⟨hs.selfpipe, hs.silent⟩, h s.chan hs.notEof⟩

theorem keeps_live_packetPut {p : Bytes} (h : p.headD 0 ≠ SSH_MSG_CHANNEL_REQUEST)
    (h' : p.headD 0 ≠ SSH_MSG_CHANNEL_CLOSE) : Keeps Live (packetPut p) := by
  refine (keeps_reads _).bind fun _ => Keeps.ite ?_ ?_
  · refine keeps_modify ?_
    rintro s ⟨⟨hpipe, hsilent⟩, heof⟩
    refine ⟨⟨hpipe, ?_⟩, heof⟩
    intro q hq
    simp only [Loop.put, List.map_append, ← List.append_assoc, List.map_cons, List.map_nil] at hq
    rcases List.mem_append.mp hq with hq | hq
    · exact hsilent q hq
    · rw [List.mem_singleton.mp hq]
      exact ⟨h, h'⟩
  · exact Keeps.bind (keeps_modify fun _ hs => ⟨⟨hs.selfpipe, hs.silent⟩, hs.notEof⟩) fun _ =>
      keeps_throw _

theorem live_keptBySending : KeptBySending Live := by
  intro s emitted sendbuf hput hs
  refine ⟨⟨hs.selfpipe, ?_⟩, hs.notEof⟩
  rw [hput]
  exact hs.silent

theorem keeps_live_sendEof : Keeps Live packetChannelSendEof := by
  refine (keeps_reads _).bind fun _ => (keeps_pure _).ite ((keeps_reads _).bind fun _ => ?_)
  refine (keeps_live_packetPut ?_ ?_).bind fun _ => keeps_modify ?_
  · exact (by decide : SSH_MSG_CHANNEL_EOF ≠ SSH_MSG_CHANNEL_REQUEST)
  · exact (by decide : SSH_MSG_CHANNEL_EOF ≠ SSH_MSG_CHANNEL_CLOSE)
  · exact fun _ hs => ⟨⟨hs.selfpipe, hs.silent⟩, hs.notEof⟩

theorem keeps_live_sendWindowadjust : Keeps Live packetChannelSendWindowadjust := by
  refine (keeps_reads _).bind fun _ => (keeps_pure _).ite ((keeps_pure _).ite ?_)
  refine (keeps_live_onChannel (open_assignments.keeps_channelIncrementlocalwindow _)).bind ?_
  refine fun _ => keeps_live_packetPut ?_ ?_
  · exact (by decide : SSH_MSG_CHANNEL_WINDOW_ADJUST ≠ SSH_MSG_CHANNEL_REQUEST)
  · exact (by decide : SSH_MSG_CHANNEL_WINDOW_ADJUST ≠ SSH_MSG_CHANNEL_CLOSE)

theorem keeps_live_dieUnless (ok : Bool) (trouble : String) : Keeps Live (dieUnless ok trouble) :=
  keeps_check _

theorem keeps_live_writeToChild (w : WriteResult) : Keeps Live (writeToChild w) := by
  refine (keeps_live_onChannel (open_assignments.keeps_channelWrite w)).bind fun _ =>
    (keeps_live_dieUnless _ _).bind fun _ => keeps_live_sendWindowadjust

theorem keeps_live_whenReady {m : LoopM Unit} (watch : Bool) (h : Keeps Live m) :
    Keeps Live (whenReady watch m) := h.ite (keeps_pure _)

/-! ## 4. `channel_read` and "check child" -/

/-- A session that reached the end of the channel: the fatal error, nothing of the closing
sequence. -/
structure DiedAtEnd (e : Exit) (s : Loop) : Prop extends Unclosed s where
  fatal : e = .dieFatal "unable to open pipe"

/-- How the loop is left through an exit. -/
def Ends (e : Exit) (s : Loop) : Prop := Live s ∨ DiedAtEnd e s

theorem live_ends {m : LoopM α} (h : Keeps Live m) : Triple Live m (fun _ => Live) Ends :=
  h.triple fun _ _ hs => .inl hs

/-- Whatever `channel_read` returns other than 0 leaves the channel open. -/
theorem triple_channelRead (len : ℤ) (r : ReadResult) :
    Triple Open (channelRead len r) (fun x s => x ≠ [] → Open s) fun _ => Open := by
  have hkeeps : ∀ (c : Channel → Bool) (errno : Errno),
      Triple Open (bugIf c errno) (fun _ => Open) fun _ => Open :=
    fun c errno => (keeps_bugIf c errno).triple fun _ _ hs => hs
  have hnil : Triple Open (pure [] : ChannelM Bytes) (fun x s => x ≠ [] → Open s) fun _ => Open :=
    triple_pure fun s _ hne => absurd rfl hne
  have hclose : Triple Open (closeFd1 >>= fun _ => (pure [] : ChannelM Bytes))
      (fun x s => x ≠ [] → Open s) fun _ => Open := by
    constructor
    intro s _ hne
    exact absurd rfl hne
  refine (hkeeps _ _).bind fun _ => (hkeeps _ _).bind fun _ => (hkeeps _ _).bind fun _ =>
    (hkeeps _ _).bind fun _ => ?_
  refine triple_reads_bind fun c => Triple.pre ?_ fun _ h => h.1
  refine Triple.ite (fun _ => hnil) fun _ => ?_
  split
  · exact hnil
  · refine Triple.bind ((keeps_open_fdEvent _).triple fun _ _ hs => hs) fun _ => ?_
    refine Triple.bind (Q := fun _ => Open) ?_ fun _ => triple_pure fun _ hs _ => hs
    refine Keeps.triple ?_ fun _ _ hs => hs
    exact keeps_open_update fun _ => ⟨rfl, rfl, rfl, rfl⟩
  · exact hclose
  · exact hclose

/-- The end of the channel is reached here or nowhere. -/
theorem triple_sendData (r : ReadResult) :
    Triple Live (packetChannelSendData r) (fun _ => Unclosed) Ends := by
  have hdone : Triple Unclosed (pure () : LoopM Unit) (fun _ => Unclosed) Ends :=
    triple_pure fun _ hs => hs
  refine triple_reads_any fun limit => triple_reads_any fun ready => ?_
  refine Triple.ite (fun _ => ?_) fun _ => hdone.pre fun _ => Live.toUnclosed
  refine Triple.bind (Q := fun x s => Unclosed s ∧ (x ≠ [] → Live s)) ?_ fun x => ?_
  · constructor
    intro s hs
    have hread := (triple_channelRead ((limit : ℤ) - 9) r).run s.chan hs.notEof
    rw [onChannel, exec_zoom]
    revert hread
    rcases exec (channelRead _ r) s.chan with ⟨(_ | x), t⟩
    · intro hopen
      exact .inl ⟨⟨hs.selfpipe, hs.silent⟩, hopen⟩
    · intro hopen
      exact ⟨⟨hs.selfpipe, hs.silent⟩, fun hne => ⟨⟨hs.selfpipe, hs.silent⟩, hopen hne⟩⟩
  · refine Triple.ite (fun _ => hdone.pre fun _ hs => hs.1) fun hne => ?_
    refine triple_reads_any fun id => Triple.pre (P := Live) ?_ fun _ h => h.2 hne
    refine (live_ends (keeps_live_packetPut ?_ ?_)).post fun _ _ => Live.toUnclosed
    · exact (by decide : SSH_MSG_CHANNEL_DATA ≠ SSH_MSG_CHANNEL_REQUEST)
    · exact (by decide : SSH_MSG_CHANNEL_DATA ≠ SSH_MSG_CHANNEL_CLOSE)

/-- **"check child" is passed only while the channel is not at its end.** -/
theorem triple_checkChild (closeSent : Bool × Bool) :
    Triple Unclosed (checkChild closeSent) (fun _ => Live) Ends := by
  refine triple_reads_bind fun eof => Triple.ite (fun heof => ?_) fun heof => ?_
  · -- `selfpipe[0]` is -1 and `open_pipe` returns -1.
    refine triple_reads_bind fun unset => ⟨?_⟩
    rintro s ⟨⟨hs, -⟩, hunset⟩
    have hunset' : unset = true := by
      rw [← hunset, hs.selfpipe]
      rfl
    have hdie : exec (dieUnless (!(unset && decide (openPipe = -1))) "unable to open pipe") s =
        (.error (.dieFatal "unable to open pipe"), s) := by
      rw [hunset', dieUnless, exec_check]
      rfl
    rw [exec_bind_error hdie]
    exact .inr ⟨hs, rfl⟩
  · refine triple_pure ?_
    rintro s ⟨hs, hnot⟩
    exact ⟨hs, hnot.trans (Bool.eq_false_iff.mpr heof)⟩

/-! ## 5. The loop behind "check child" -/

/-- A failed read is the end of the session while the channel is not at its end. -/
theorem triple_receiveFromNetwork (watch0 received : Bool) :
    Triple Live (receiveFromNetwork watch0 received) (fun left s => left = false ∧ Live s)
      Ends := by
  have hfalse : Triple Live (pure false : LoopM Bool) (fun left s => left = false ∧ Live s) Ends :=
    triple_pure fun _ hs => ⟨rfl, hs⟩
  refine triple_reads_bind fun eof => ?_
  refine Triple.ite (fun _ => hfalse.pre fun _ h => h.1) fun _ => Triple.ite (fun heof => ?_) ?_
  · refine triple_pure ?_
    rintro s ⟨hs, rfl⟩
    rw [hs.notEof] at heof
    cases heof
  · intro _
    exact ((live_ends (keeps_live_dieUnless _ _)).bind fun _ => hfalse).pre fun _ h => h.1

theorem keeps_live_channelOpen (b : Bytes) : Keeps Live (packetChannelOpen b) := by
  refine (keeps_check _).bind fun _ => (keeps_check _).bind fun _ => (keeps_check _).bind fun _ =>
    (keeps_check _).bind fun _ => (keeps_check _).bind fun _ => (keeps_check _).bind fun _ =>
    Keeps.ite ?_ (keeps_live_packetPut ?_ ?_)
  · refine (keeps_check _).bind fun _ => (keeps_reads _).bind fun _ =>
      (keeps_live_onChannel (open_assignments.keeps_channelOpen _ _ _ _)).bind fun _ =>
      keeps_live_packetPut ?_ ?_
    · exact (by decide : SSH_MSG_CHANNEL_OPEN_CONFIRMATION ≠ SSH_MSG_CHANNEL_REQUEST)
    · exact (by decide : SSH_MSG_CHANNEL_OPEN_CONFIRMATION ≠ SSH_MSG_CHANNEL_CLOSE)
  · exact (by decide : SSH_MSG_CHANNEL_OPEN_FAILURE ≠ SSH_MSG_CHANNEL_REQUEST)
  · exact (by decide : SSH_MSG_CHANNEL_OPEN_FAILURE ≠ SSH_MSG_CHANNEL_CLOSE)

theorem keeps_live_execOrBug (cmd : Option Bytes) (e : ExecEnv) : Keeps Live (execOrBug cmd e) :=
  (keeps_live_onChannel (open_assignments.keeps_channelExec cmd e)).bind fun _ => keeps_check _

theorem keeps_live_channelRequest (b : Bytes) (e : ExecEnv) :
    Keeps Live (packetChannelRequest b e) := by
  refine (keeps_check _).bind fun _ => (keeps_check _).bind fun _ => (keeps_check _).bind fun _ =>
    (keeps_reads _).bind fun _ => (keeps_check _).bind fun _ => (keeps_check _).bind fun _ =>
    (keeps_check _).bind fun _ =>
    (keeps_requestAccepted keeps_live_execOrBug _ _ _ _).bind fun accepted =>
    Keeps.ite (keeps_pure _) (keeps_live_packetPut ?_ ?_)
  · cases accepted <;> exact of_decide_eq_true rfl
  · cases accepted <;> exact of_decide_eq_true rfl

theorem keeps_live_recvData (b : Bytes) : Keeps Live (packetChannelRecvData b) :=
  (keeps_channelHead _ _).bind fun _ => (keeps_check _).bind fun _ => (keeps_check _).bind fun _ =>
    keeps_live_onChannel (open_assignments.keeps_channelPut _)

theorem keeps_live_recvWindowadjust (b : Bytes) : Keeps Live (packetChannelRecvWindowadjust b) :=
  (keeps_channelHead _ _).bind fun _ => (keeps_check _).bind fun _ => (keeps_check _).bind fun _ =>
    keeps_live_onChannel (open_assignments.keeps_channelIncrementremotewindow _)

theorem keeps_live_recvEof (b : Bytes) : Keeps Live (packetChannelRecvEof b) :=
  (keeps_channelHead _ _).bind fun _ => (keeps_check _).bind fun _ =>
    keeps_live_onChannel open_assignments.keeps_channelPuteof

theorem keeps_live_recvClose (b : Bytes) : Keeps Live (packetChannelRecvClose b) :=
  (keeps_channelHead _ _).bind fun _ => (keeps_check _).bind fun _ =>
    keeps_live_sendEof.bind fun _ =>
    keeps_modify fun _ hs => ⟨⟨hs.selfpipe, hs.silent⟩, hs.notEof⟩

theorem keeps_live_unimplemented (seq : UInt32) (sent : Bool) :
    Keeps Live (packetUnimplemented seq sent) := by
  refine (keeps_live_packetPut ?_ ?_).bind fun _ => live_keptBySending.packetSendall _
  · exact (by decide : SSH_MSG_UNIMPLEMENTED ≠ SSH_MSG_CHANNEL_REQUEST)
  · exact (by decide : SSH_MSG_UNIMPLEMENTED ≠ SSH_MSG_CHANNEL_CLOSE)

theorem keeps_live_rekey (r : RekeyEnv) : Keeps Live (rekey r) := by
  refine (keeps_live_packetPut ?_ ?_).bind fun _ =>
    (live_keptBySending.packetSendall _).bind fun _ =>
    (keeps_live_dieUnless _ _).bind fun _ => (keeps_check _).bind fun _ =>
    (keeps_live_packetPut ?_ ?_).bind fun _ => (keeps_live_packetPut ?_ ?_).bind fun _ =>
    (live_keptBySending.packetSendall _).bind fun _ => (keeps_live_dieUnless _ _).bind fun _ =>
    keeps_check _
  · exact (by decide : SSH_MSG_KEXINIT ≠ SSH_MSG_CHANNEL_REQUEST)
  · exact (by decide : SSH_MSG_KEXINIT ≠ SSH_MSG_CHANNEL_CLOSE)
  · exact (by decide : SSH_MSG_KEXDH_REPLY ≠ SSH_MSG_CHANNEL_REQUEST)
  · exact (by decide : SSH_MSG_KEXDH_REPLY ≠ SSH_MSG_CHANNEL_CLOSE)
  · exact (by decide : SSH_MSG_NEWKEYS ≠ SSH_MSG_CHANNEL_REQUEST)
  · exact (by decide : SSH_MSG_NEWKEYS ≠ SSH_MSG_CHANNEL_CLOSE)

theorem keeps_live_dispatch (b : Bytes) (p : PacketEvent) : Keeps Live (dispatch b p) := by
  have hthen : ∀ {m : LoopM Unit} (go : Bool), Keeps Live m →
      Keeps Live (m >>= fun _ => (pure go : LoopM Bool)) :=
    fun go hm => hm.bind fun _ => keeps_pure go
  refine Keeps.ite (hthen _ (keeps_live_channelOpen b)) ?_
  refine Keeps.ite (hthen _ (keeps_live_channelRequest b _)) ?_
  refine Keeps.ite (hthen _ (keeps_live_recvData b)) (Keeps.ite (keeps_pure _) ?_)
  refine Keeps.ite (hthen _ (keeps_live_recvWindowadjust b)) ?_
  refine Keeps.ite (hthen _ (keeps_live_recvEof b)) ?_
  refine Keeps.ite (hthen _ (keeps_live_recvClose b)) ?_
  refine Keeps.ite (hthen _ (keeps_live_rekey _)) ?_
  exact (keeps_live_unimplemented _ _).bind fun _ => hthen _ (keeps_live_dieUnless _ _)

theorem keeps_live_processPackets (l : List PacketEvent) : Keeps Live (processPackets l) := by
  induction l with
  | nil => exact keeps_pure _
  | cons p l ih =>
    refine Keeps.bind ?_ fun go => ih.ite (keeps_pure _)
    unfold processEvent
    split
    · exact keeps_pure _
    · exact keeps_pure _
    · exact keeps_throw _
    · exact keeps_throw _
    · exact (keeps_pure _).ite (keeps_live_dispatch _ _)

/-! ## 6. Every run -/

/-- **One iteration** ends with the channel not at its end, or kills the session. -/
theorem triple_mainLoopIteration (env : LoopEnv) :
    Triple Live (mainLoopIteration env) (fun left s => left = false ∧ Live s) Ends := by
  refine triple_reads_bind fun finished => Triple.ite (fun hfin => ?_) fun _ => ?_
  · -- The top of the loop finds the channel not at its end.
    refine triple_pure ?_
    rintro s ⟨hs, rfl⟩
    rw [Loop.finished, hs.notEof] at hfin
    cases hfin
  · refine triple_reads_any fun w => Triple.pre (P := Live) ?_ fun _ h => h.1
    refine (live_ends (keeps_live_whenReady _ (keeps_live_writeToChild _))).bind fun _ => ?_
    refine Triple.bind (Q := fun _ => Unclosed) ?_ fun _ => ?_
    · exact Triple.ite (fun _ => triple_sendData _) fun _ => triple_pure fun _ => Live.toUnclosed
    refine (triple_checkChild _).bind fun _ => ?_
    have hsend := keeps_live_whenReady w.watch1 (live_keptBySending.sendToNetwork env.send)
    refine (live_ends hsend).bind fun _ => ?_
    refine (triple_receiveFromNetwork _ _).bind fun left => Triple.ite (fun hleft => ?_) fun _ => ?_
    · refine triple_pure ?_
      rintro s ⟨rfl, -⟩
      cases hleft
    · refine Triple.pre ((live_ends (keeps_live_processPackets _)).bind fun _ => ?_) fun _ h => h.2
      exact triple_pure fun _ hs => ⟨rfl, hs⟩

/-- **Every run** of the loop: it is never left otherwise than by an exit, and its exits are those
of a channel that is not at its end, and the one of "check child". -/
theorem triple_mainLoop (envs : List LoopEnv) :
    Triple Live (mainLoop envs) (fun left s => left = false ∧ Live s) Ends := by
  induction envs with
  | nil => exact triple_pure fun _ hs => ⟨rfl, hs⟩
  | cons env envs ih =>
    refine (triple_mainLoopIteration env).bind fun left => Triple.ite (fun hleft => ?_) fun _ => ?_
    · refine triple_pure ?_
      rintro s ⟨rfl, -⟩
      cases hleft
    · exact ih.pre fun _ h => h.2

theorem live_loopStart (name : Bytes) (random : ℕ → Bool) : Live (loopStart name random) :=
  ⟨⟨rfl, fun p hp => by cases hp⟩, rfl⟩

/-- **No channel ends in order.**  In every run of the loop in which the interpreter closes its
output the session dies in "check child", before exit status and CLOSE are put. -/
theorem channel_end_not_orderly (name : Bytes) (random : ℕ → Bool) (envs : List LoopEnv)
    (heof : (exec (mainLoop envs) (loopStart name random)).2.iseof = true) :
    (exec (mainLoop envs) (loopStart name random)).1 =
        .error (.dieFatal "unable to open pipe") ∧
      (∀ p ∈ (exec (mainLoop envs) (loopStart name random)).2.put,
        p.headD 0 ≠ SSH_MSG_CHANNEL_REQUEST ∧ p.headD 0 ≠ SSH_MSG_CHANNEL_CLOSE) ∧
      ¬ OrderlyEnd (exec (mainLoop envs) (loopStart name random)).1
        (exec (mainLoop envs) (loopStart name random)).2 := by
  have hrun := (triple_mainLoop envs).run _ (live_loopStart name random)
  rcases hx : exec (mainLoop envs) (loopStart name random) with ⟨r, s⟩
  rw [hx] at hrun heof
  have hnot : ¬ Live s := fun hlive => by
    rw [hlive.notEof] at heof
    cases heof
  cases r with
  | ok left => exact absurd hrun.2 hnot
  | error e =>
    rcases hrun with hlive | hdied
    · exact absurd hlive hnot
    · have hfatal := hdied.fatal
      refine ⟨by rw [hfatal], hdied.silent, ?_⟩
      intro hend
      exact hend.not_fatal _ (by rw [hfatal])

/-! ## 7. A session with one command -/

/-- No key exchange. -/
def noRekey : RekeyEnv where
  kexsend := []
  kexSent := true
  reply := .ok []
  replySent := true
  newkeys := .ok ()

/-- A packet that arrives where nothing fails. -/
def arrives (b : Bytes) : PacketEvent where
  answer := .packet b
  exec := workingSockets
  rekey := noRekey
  receivepacketid := 7
  sent := true

/-- An iteration in which every descriptor that is watched is ready. -/
def quietEnv : LoopEnv where
  poll := true
  sendReady := true
  recvReady := true
  childWriteReady := true
  childReadReady := true
  childWrite := .wrote 1
  childRead := .again
  closeSent := (true, true)
  send := .wrote 100
  recv := true
  packets := []

/-- CHANNEL_OPEN "session" and an exec request; then output arrives, and its end. -/
def oneCommand : List LoopEnv :=
  [{ quietEnv with packets :=
      [arrives (SSH_MSG_CHANNEL_OPEN :: (sshString (ascii "session") ++ (num32 0 ++
        (num32 2097152 ++ num32 32768)))),
      arrives (SSH_MSG_CHANNEL_REQUEST :: (num32 0 ++ (sshString (ascii "exec") ++ (1 ::
        sshString (ascii "help")))))] },
    { quietEnv with childRead := .data (ascii "Available commands:") },
    { quietEnv with childRead := .eof }]

/-- Nothing the session reads from or writes to the network fails in this iteration. -/
structure NetworkOk (env : LoopEnv) : Prop where
  send_ok : env.send ≠ .failed
  recv_ok : env.recv = true
  close_ok : env.closeSent = (true, true)
  packets_ok : ∀ p ∈ env.packets, p.answer ≠ .failed ∧ p.sent = true ∧ p.rekey.kexSent = true ∧
    p.rekey.replySent = true

/-- The command's output ends. -/
theorem channel_end_not_orderly_oneCommand :
    (exec (mainLoop oneCommand) (loopStart (ascii "admin") fun _ => false)).2.iseof = true ∧
      (exec (mainLoop oneCommand) (loopStart (ascii "admin") fun _ => false)).1 =
        .error (.dieFatal "unable to open pipe") :=
  have heof : (exec (mainLoop oneCommand) (loopStart (ascii "admin") fun _ => false)).2.iseof =
      true := by decide +kernel
  ⟨heof, (channel_end_not_orderly (ascii "admin") (fun _ => false) oneCommand heof).1⟩

/-- **A command that ends kills the session**, with nothing failing on the network. -/
theorem oneCommand_dies : (∀ env ∈ oneCommand, NetworkOk env) ∧
    (exec (mainLoop oneCommand) (loopStart (ascii "admin") fun _ => false)).2.iseof = true ∧
    ¬ OrderlyEnd (exec (mainLoop oneCommand) (loopStart (ascii "admin") fun _ => false)).1
      (exec (mainLoop oneCommand) (loopStart (ascii "admin") fun _ => false)).2 := by
  refine ⟨?_, by decide +kernel, ?_⟩
  · intro env henv
    simp only [oneCommand, List.mem_cons, List.not_mem_nil, or_false] at henv
    rcases henv with rfl | rfl | rfl
    · refine ⟨by decide, rfl, rfl, ?_⟩
      intro p hp
      simp only [List.mem_cons, List.not_mem_nil, or_false] at hp
      rcases hp with rfl | rfl <;> exact ⟨nofun, rfl, rfl, rfl⟩
    · exact ⟨by decide, rfl, rfl, fun p hp => by cases hp⟩
    · exact ⟨by decide, rfl, rfl, fun p hp => by cases hp⟩
  · intro hend
    have hdies :
        (match (exec (mainLoop oneCommand) (loopStart (ascii "admin") fun _ => false)).1 with
      | .error (.dieFatal _) => true
      | _ => false) = true := by decide +kernel
    revert hdies
    split
    · rename_i trouble heq
      exact absurd heq (hend.not_fatal trouble)
    · intro h
      cases h

end Glossh.Ssh
