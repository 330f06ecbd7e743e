/-
# The main loop of `main_tinysshd`

The loop behind authentication: one iteration waits, moves data between the interpreter and the
packets, looks after the child, sends, receives, and handles the packets that are complete.  What
the operating system and the network bring to an iteration is a `LoopEnv`; the packets that
`packet_get` delivers in it are a list of events.

`sendbuf` is the queue of the packets in it, each with the bytes that are still to be written.
A packet takes its payload, five bytes in front of it, the padding and the tag, and sealing it
needs 60 bytes more for a moment.
-/
import Glossh.Lib.Calls
import Glossh.Lib.Region
import Glossh.Ssh.Messages
import Glossh.Ssh.Packetparser
import Glossh.Ssh.Channel
import Glossh.Ssh.Chachapoly

namespace Glossh.Ssh

open Bytes Prog

/-! ## 1. The state -/

/-- What the loop works on. -/
structure Loop where
  chan : ChannelState
  /-- Payload, and bytes of the sealed packet still to be written. -/
  sendbuf : List (Bytes × ℕ)
  /-- The payloads of the packets that are wholly written. -/
  emitted : List Bytes
  /-- The payloads that found no room in `sendbuf`. -/
  refused : List Bytes
  flageofsent : Bool
  flagclosesent : Bool
  flagchanneleofreceived : Bool
  /-- `selfpipe[0]`. -/
  selfpipe : ℤ
  /-- `packet.name`. -/
  name : Bytes
  /-- The outcomes of `randommod(2)` to come. -/
  random : ℕ → Bool

abbrev LoopM := Prog Loop Exit

namespace Loop

/-- `channel_iseof`. -/
def iseof (s : Loop) : Bool := s.chan.channel.iseof

/-- `packet.sendbuf.len`. -/
def sendlen (s : Loop) : ℕ := (s.sendbuf.map Prod.snd).sum

/-- `packet_sendisready`. -/
def sendisready (s : Loop) : Bool := s.sendlen > 0

/-- `packet_putisready`. -/
def putisready (s : Loop) : Bool := s.sendlen + PACKET_FULLLIMIT < SENDBUF_SIZE

/-- The payloads put so far, in their order. -/
def put (s : Loop) : List Bytes := s.emitted ++ s.sendbuf.map Prod.fst

end Loop

/-- A call of the channel code. -/
def onChannel {α : Type} (m : ChannelM α) : LoopM α :=
  zoom (fun s => s.chan) (fun c s => { s with chan := c }) m

/-! ## 2. Output -/

/-- `paddinglen` of `chachapoly_packet_put` for a payload of `n` bytes. -/
def paddinglen (n : ℕ) (coin : Bool) : ℕ := 16 - (5 + n) % 8 + 4 + if coin then 8 else 0

/-- The bytes of a sealed packet. -/
def sealedLength (n : ℕ) (coin : Bool) : ℕ := 5 + n + paddinglen n coin + AB

/-- The `buf_put*` of `chachapoly_packet_put` find room for a payload of `n` bytes. -/
def Loop.hasRoom (s : Loop) (n : ℕ) : Bool :=
  s.sendlen + 60 + sealedLength n (s.random 0) < SENDBUF_SIZE

/-- `packet_put` of a payload, sealed. -/
def packetPut (payload : Bytes) : LoopM Unit := do
  let room ← reads fun s => s.hasRoom payload.length
  if room then
    modify fun s => { s with
      sendbuf := s.sendbuf ++ [(payload, sealedLength payload.length (s.random 0))]
      random := fun i => s.random (i + 1) }
  else do
    modify fun s => { s with refused := s.refused ++ [payload] }
    throw (.bug .ENOMEM)

/-- `n` bytes taken from the front of the queue: the packets that are done with, and the rest. -/
def consume : ℕ → List (Bytes × ℕ) → List Bytes × List (Bytes × ℕ)
  | _, [] => ([], [])
  | n, (p, k) :: q =>
    if k ≤ n then (p :: (consume (n - k) q).1, (consume (n - k) q).2)
    else ([], (p, k - n) :: q)

/-- Writing takes packets from the queue only. -/
theorem consume_put (n : ℕ) (q : List (Bytes × ℕ)) :
    (consume n q).1 ++ (consume n q).2.map Prod.fst = q.map Prod.fst := by
  induction q generalizing n with
  | nil => rfl
  | cons x q ih =>
    obtain ⟨p, k⟩ := x
    rw [consume]
    split
    · rw [List.cons_append, ih, List.map_cons]
    · rfl

/-- `packet_send`. -/
def packetSend (w : WriteResult) : LoopM Bool := do
  let ready ← reads Loop.sendisready
  if ready then
    match w with
    | .again => return true
    | .failed => return false
    | .wrote n => do
      modify fun s => { s with
        emitted := s.emitted ++ (consume n s.sendbuf).1
        sendbuf := (consume n s.sendbuf).2 }
      return true
  else return true

/-- `packet_sendall`; `ok` says whether `writeall` succeeded. -/
def packetSendall (ok : Bool) : LoopM Bool :=
  if ok then do
    modify fun s => { s with emitted := s.emitted ++ s.sendbuf.map Prod.fst, sendbuf := [] }
    return true
  else return false

/-- What holds however much of the queue the socket has taken. -/
def KeptBySending (P : Loop → Prop) : Prop :=
  ∀ s emitted sendbuf, Loop.put { s with emitted := emitted, sendbuf := sendbuf } = s.put → P s →
    P { s with emitted := emitted, sendbuf := sendbuf }

theorem KeptBySending.packetSend {P : Loop → Prop} (h : KeptBySending P) (w : WriteResult) :
    Keeps P (packetSend w) := by
  refine (keeps_reads _).bind fun _ => Keeps.ite ?_ (keeps_pure _)
  split
  · exact keeps_pure _
  · exact keeps_pure _
  · refine Keeps.bind (keeps_modify fun s hs => h s _ _ ?_ hs) fun _ => keeps_pure _
    rw [Loop.put, List.append_assoc, consume_put, Loop.put]

theorem KeptBySending.packetSendall {P : Loop → Prop} (h : KeptBySending P) (ok : Bool) :
    Keeps P (packetSendall ok) := by
  refine Keeps.ite (Keeps.bind (keeps_modify fun s hs => h s _ _ ?_ hs) fun _ => keeps_pure _)
    (keeps_pure _)
  rw [Loop.put, List.map_nil, List.append_nil, Loop.put]

/-- A 32-bit number on the wire. -/
def num32 (x : UInt32) : Bytes := beBytes 4 x.toNat

/-- `limit` of `packet_channel_send_data`. -/
def dataLimit (maxpacket : ℕ) : ℕ :=
  if maxpacket > 0 ∧ maxpacket < PACKET_LIMIT then maxpacket else PACKET_LIMIT

/-- `packet_channel_send_data`. -/
def packetChannelSendData (r : ReadResult) : LoopM Unit := do
  let limit ← reads fun s => dataLimit s.chan.channel.maxpacket.toNat
  let ready ← reads Loop.putisready
  if ready then do
    let x ← onChannel (channelRead ((limit : ℤ) - 9) r)
    if x = [] then return ()
    else do
      let id ← reads fun s => s.chan.channel.id
      packetPut (SSH_MSG_CHANNEL_DATA :: (num32 id ++ (num32 (UInt32.ofNat x.length) ++ x)))
  else return ()

/-- `packet_channel_send_windowadjust`. -/
def packetChannelSendWindowadjust : LoopM Unit := do
  let c ← reads fun s => s.chan.channel
  if c.buf0.length > CHANNEL_BUFSIZE / 2 then return ()
  else if c.localwindow.toNat > CHANNEL_BUFSIZE / 2 then return ()
  else do
    let plus := UInt32.ofNat (CHANNEL_BUFSIZE - c.buf0.length) - c.localwindow
    onChannel (channelIncrementlocalwindow plus)
    packetPut (SSH_MSG_CHANNEL_WINDOW_ADJUST :: (num32 c.id ++ num32 plus))

/-- `packet_channel_send_eof`. -/
def packetChannelSendEof : LoopM Unit := do
  let sent ← reads fun s => s.flageofsent
  if sent then return ()
  else do
    let id ← reads fun s => s.chan.channel.id
    packetPut (SSH_MSG_CHANNEL_EOF :: num32 id)
    modify fun s => { s with flageofsent := true }

/-- The request `packet_channel_send_close` sends for an exit without a signal. -/
def exitStatus (id : UInt32) (exitcode : UInt32) : Bytes :=
  SSH_MSG_CHANNEL_REQUEST ::
    (num32 id ++ (sshString (ascii "exit-status") ++ (0 :: num32 exitcode)))

def channelClose (id : UInt32) : Bytes := SSH_MSG_CHANNEL_CLOSE :: num32 id

/-- `packet_channel_send_close` with `exitsignal` 0, the only one `channel_waitnohang` reports;
`ok` says which of its two `packet_sendall` succeed. -/
def packetChannelSendClose (exitcode : UInt32) (ok : Bool × Bool) : LoopM Bool := do
  packetChannelSendEof
  let sent ← reads fun s => s.flagclosesent
  if sent then return true
  else do
    let id ← reads fun s => s.chan.channel.id
    packetPut (exitStatus id exitcode)
    let sent ← packetSendall ok.1
    if ¬ sent then return false
    else do
      packetPut (channelClose id)
      let sent ← packetSendall ok.2
      if ¬ sent then return false
      else do
        modify fun s => { s with flagclosesent := true }
        return true

/-! ## 3. The packets of the client -/

/-- `if (!c) bug_proto();` -/
def require (c : Bool) : Except Exit Unit := if c then .ok () else bugProto

/-- `packet_channel_open`. -/
def packetChannelOpen (b : Bytes) : LoopM Unit := do
  let ch ← check (packetparserUint8 b 0)
  check (require (ch.1 = SSH_MSG_CHANNEL_OPEN))
  let chan ← check (packetparserString b ch.2)
  let id ← check (packetparserUint32 b chan.2)
  let remotewindow ← check (packetparserUint32 b id.2)
  let maxpacket ← check (packetparserUint32 b remotewindow.2)
  let limited := if maxpacket.1.toNat > PACKET_LIMIT then UInt32.ofNat PACKET_LIMIT else maxpacket.1
  if slice b (chan.2 - chan.1) chan.1 = ascii "session" then do
    let _ ← check (packetparserEnd b maxpacket.2)
    let name ← reads fun s => s.name
    let localwindow ← onChannel (channelOpen name id.1 remotewindow.1 limited)
    packetPut (SSH_MSG_CHANNEL_OPEN_CONFIRMATION :: (num32 id.1 ++ (num32 id.1 ++
      (num32 localwindow ++ num32 (UInt32.ofNat PACKET_LIMIT)))))
  else
    packetPut (SSH_MSG_CHANNEL_OPEN_FAILURE :: (num32 id.1 ++
      (num32 (UInt32.ofNat SSH_OPEN_ADMINISTRATIVELY_PROHIBITED) ++
      (sshString (ascii "only one 'session' channel allowed") ++ sshString []))))

/-- The string at `pos` as C sees it: up to its first zero byte. -/
def cString (b : Bytes) (s : ℕ × ℕ) : Bytes := (slice b (s.2 - s.1) s.1).takeWhile (· ≠ 0)

/-- The four numbers of a terminal's size. -/
def skipSize (b : Bytes) (pos : ℕ) : Except Exit ℕ := do
  let (_, pos) ← packetparserUint32 b pos
  let (_, pos) ← packetparserUint32 b pos
  let (_, pos) ← packetparserUint32 b pos
  let (_, pos) ← packetparserUint32 b pos
  return pos

/-- The arguments of "exec" and "subsystem". -/
def requestString (b : Bytes) (pos : ℕ) : Except Exit Bytes := do
  let s ← packetparserString b pos
  let _ ← packetparserEnd b s.2
  return cString b s

/-- The arguments of "env". -/
def requestEnv (b : Bytes) (pos : ℕ) : Except Exit Unit := do
  let (_, pos) ← packetparserString b pos
  let (_, pos) ← packetparserString b pos
  let _ ← packetparserEnd b pos

/-- The arguments of "pty-req". -/
def requestPty (b : Bytes) (pos : ℕ) : Except Exit Unit := do
  let (_, pos) ← packetparserString b pos
  let pos ← skipSize b pos
  let (_, pos) ← packetparserString b pos
  let _ ← packetparserEnd b pos

/-- The arguments of "window-change". -/
def requestWindowChange (b : Bytes) (pos : ℕ) : Except Exit Unit := do
  let pos ← skipSize b pos
  let _ ← packetparserEnd b pos

/-- `if (!channel_exec(cmd)) bug();` -/
def execOrBug (cmd : Option Bytes) (e : ExecEnv) : LoopM Unit := do
  let ok ← onChannel (channelExec cmd e)
  check (if ok then .ok () else .error .bugAsIs)

/-- The request types: whether the request is accepted.  No subsystem is registered, terminals
are refused, `channel_env` and `channel_ptyresize` do nothing. -/
def channelRequestAccepted (b : Bytes) (cmd : Bytes) (pos : ℕ) (e : ExecEnv) : LoopM Bool :=
  if cmd = ascii "exec" then do
    let p1 ← check (requestString b pos)
    execOrBug (some p1) e
    return true
  else if cmd = ascii "subsystem" then do
    let _ ← check (requestString b pos)
    return false
  else if cmd = ascii "shell" then do
    let _ ← check (packetparserEnd b pos)
    execOrBug none e
    return true
  else if cmd = ascii "env" then do
    check (requestEnv b pos)
    return true
  else if cmd = ascii "pty-req" then do
    check (requestPty b pos)
    return false
  else if cmd = ascii "window-change" then do
    check (requestWindowChange b pos)
    return true
  else return false

/-- `packet_channel_request`. -/
def packetChannelRequest (b : Bytes) (e : ExecEnv) : LoopM Unit := do
  let ch ← check (packetparserUint8 b 0)
  check (require (ch.1 = SSH_MSG_CHANNEL_REQUEST))
  let id ← check (packetparserUint32 b ch.2)
  let ours ← reads fun s => s.chan.channel.id
  check (require (id.1 = ours))
  let cmd ← check (packetparserString b id.2)
  let wantreply ← check (packetparserUint8 b cmd.2)
  let accepted ← channelRequestAccepted b (slice b (cmd.2 - cmd.1) cmd.1) wantreply.2 e
  if wantreply.1 = 0 then return ()
  else
    packetPut
      ((if accepted then SSH_MSG_CHANNEL_SUCCESS else SSH_MSG_CHANNEL_FAILURE) :: num32 id.1)

/-- The head of a message on the channel: its type and the channel's id. -/
def channelHead (b : Bytes) (msg : UInt8) : LoopM ℕ := do
  let ch ← check (packetparserUint8 b 0)
  check (require (ch.1 = msg))
  let id ← check (packetparserUint32 b ch.2)
  let ours ← reads fun s => s.chan.channel.id
  check (require (id.1 = ours))
  return id.2

/-- `packet_channel_recv_data`. -/
def packetChannelRecvData (b : Bytes) : LoopM Unit := do
  let pos ← channelHead b SSH_MSG_CHANNEL_DATA
  let data ← check (packetparserString b pos)
  let _ ← check (packetparserEnd b data.2)
  onChannel (channelPut (slice b (data.2 - data.1) data.1))

/-- `packet_channel_recv_windowadjust`. -/
def packetChannelRecvWindowadjust (b : Bytes) : LoopM Unit := do
  let pos ← channelHead b SSH_MSG_CHANNEL_WINDOW_ADJUST
  let len ← check (packetparserUint32 b pos)
  let _ ← check (packetparserEnd b len.2)
  onChannel (channelIncrementremotewindow len.1)

/-- `packet_channel_recv_eof`. -/
def packetChannelRecvEof (b : Bytes) : LoopM Unit := do
  let pos ← channelHead b SSH_MSG_CHANNEL_EOF
  let _ ← check (packetparserEnd b pos)
  onChannel channelPuteof

/-- `packet_channel_recv_close`. -/
def packetChannelRecvClose (b : Bytes) : LoopM Unit := do
  let pos ← channelHead b SSH_MSG_CHANNEL_CLOSE
  let _ ← check (packetparserEnd b pos)
  packetChannelSendEof
  modify fun s => { s with flagchanneleofreceived := true }

/-- `packet_unimplemented`; `sent` says whether `packet_sendall` succeeds. -/
def packetUnimplemented (receivepacketid : UInt32) (sent : Bool) : LoopM Bool := do
  packetPut (SSH_MSG_UNIMPLEMENTED :: num32 receivepacketid)
  packetSendall sent

/-! ## 4. The environment -/

/-- What `packet_get` comes to. -/
inductive PacketAnswer where
  /-- An empty `b1`: no complete packet, or one that is dropped. -/
  | nothing
  | packet (b : Bytes)
  /-- 0 with `errno` 0. -/
  | disconnect
  /-- 0 with another `errno`. -/
  | failed
  | exit (e : Exit)

/-- What a key exchange inside the loop comes to: the KEXINIT it sends, what `packet_kexdh` makes
of the client's packets up to its reply, and whether NEWKEYS arrives. -/
structure RekeyEnv where
  kexsend : Bytes
  kexSent : Bool
  reply : Except Exit Bytes
  replySent : Bool
  newkeys : Except Exit Unit

/-- A call of `packet_get`, with what the handling of its packet needs. -/
structure PacketEvent where
  answer : PacketAnswer
  exec : ExecEnv
  rekey : RekeyEnv
  receivepacketid : UInt32
  sent : Bool

/-- What an iteration meets.  A descriptor that was not watched is never ready. -/
structure LoopEnv where
  poll : Bool
  sendReady : Bool
  recvReady : Bool
  childWriteReady : Bool
  childReadReady : Bool
  childWrite : WriteResult
  childRead : ReadResult
  closeSent : Bool × Bool
  send : WriteResult
  recv : Bool
  packets : List PacketEvent

/-! ## 5. The iteration -/

/-- `if (!ok) die_fatal(trouble, 0, 0);` -/
def dieUnless (ok : Bool) (trouble : String) : LoopM Unit :=
  check (if ok then .ok () else .error (.dieFatal trouble))

/-- `open_pipe` of the port. -/
def openPipe : ℤ := -1

/-- The descriptors `poll` found ready. -/
structure Watch where
  watch0 : Bool
  watch1 : Bool
  watchtochild : Bool
  watchfromchild1 : Bool

/-- From `watch0 = watch1 = 0` to the end of the `if` on `poll`. -/
def watch (env : LoopEnv) (s : Loop) : Watch where
  watch0 := env.poll && env.recvReady
  watch1 := s.sendisready && env.poll && env.sendReady
  watchtochild := s.chan.channel.writeisready && env.poll && env.childWriteReady
  watchfromchild1 := s.chan.channel.readisready && s.putisready && env.poll && env.childReadReady

/-- "write data to child", "try to adjust window". -/
def writeToChild (w : WriteResult) : LoopM Unit := do
  let ok ← onChannel (channelWrite w)
  dieUnless ok "unable to write data to child"
  packetChannelSendWindowadjust

/-- "check child". -/
def checkChild (closeSent : Bool × Bool) : LoopM Unit := do
  let eof ← reads Loop.iseof
  if eof then do
    let unset ← reads fun s => decide (s.selfpipe = -1)
    dieUnless (!(unset && decide (openPipe = -1))) "unable to open pipe"
    let status ← onChannel channelWaitnohang
    if status then do
      packetChannelSendEof
      let ok ← packetChannelSendClose 0 closeSent
      dieUnless ok "unable to close channel"
    else return ()
  else return ()

/-- "send data to network". -/
def sendToNetwork (w : WriteResult) : LoopM Unit := do
  let ok ← packetSend w
  dieUnless ok "unable to send data to network"

/-- "receive data from network": whether the loop is left. -/
def receiveFromNetwork (watch0 received : Bool) : LoopM Bool := do
  let eof ← reads Loop.iseof
  if !watch0 || received then return false
  else if eof then return true
  else do
    dieUnless false "unable to receive data from network"
    return false

/-- From `rekeying` to the next iteration, in an authorized session. -/
def rekey (r : RekeyEnv) : LoopM Unit := do
  packetPut (SSH_MSG_KEXINIT :: r.kexsend)
  let sent ← packetSendall r.kexSent
  dieUnless sent "unable to send kex-message"
  let reply ← check r.reply
  packetPut (SSH_MSG_KEXDH_REPLY :: reply)
  packetPut [SSH_MSG_NEWKEYS]
  let sent ← packetSendall r.replySent
  dieUnless sent "unable to process kexdh"
  check r.newkeys

/-- The `switch` on a packet: whether the next packet is asked for. -/
def dispatch (b : Bytes) (p : PacketEvent) : LoopM Bool :=
  if b.headD 0 = SSH_MSG_CHANNEL_OPEN then do
    packetChannelOpen b
    return true
  else if b.headD 0 = SSH_MSG_CHANNEL_REQUEST then do
    packetChannelRequest b p.exec
    return true
  else if b.headD 0 = SSH_MSG_CHANNEL_DATA then do
    packetChannelRecvData b
    return true
  else if b.headD 0 = SSH_MSG_CHANNEL_EXTENDED_DATA then return true
  else if b.headD 0 = SSH_MSG_CHANNEL_WINDOW_ADJUST then do
    packetChannelRecvWindowadjust b
    return true
  else if b.headD 0 = SSH_MSG_CHANNEL_EOF then do
    packetChannelRecvEof b
    return true
  else if b.headD 0 = SSH_MSG_CHANNEL_CLOSE then do
    packetChannelRecvClose b
    return true
  else if b.headD 0 = SSH_MSG_KEXINIT then do
    rekey p.rekey
    return false
  else do
    let sent ← packetUnimplemented p.receivepacketid p.sent
    dieUnless sent "unable to send SSH_MSG_UNIMPLEMENTED message"
    return true

/-- One turn of "process packets". -/
def processEvent (p : PacketEvent) : LoopM Bool :=
  match p.answer with
  | .nothing => return false
  | .disconnect => return false
  | .failed => throw (.dieFatal "unable to get packets from network")
  | .exit e => throw e
  | .packet b => if b.length < 1 then return false else dispatch b p

/-- "process packets". -/
def processPackets : List PacketEvent → LoopM Unit
  | [] => return ()
  | p :: l => do
    let go ← processEvent p
    if go then processPackets l else return ()

/-- The condition at the top of the loop. -/
def Loop.finished (s : Loop) : Bool :=
  s.iseof && decide (s.sendlen = 0) && s.flagchanneleofreceived

/-- `if (watch) m;` -/
def whenReady (watch : Bool) (m : LoopM Unit) : LoopM Unit := if watch then m else return ()

/-- One iteration: whether the loop is left. -/
def mainLoopIteration (env : LoopEnv) : LoopM Bool := do
  let finished ← reads Loop.finished
  if finished then return true
  else do
    let w ← reads (watch env)
    whenReady w.watchtochild (writeToChild env.childWrite)
    whenReady w.watchfromchild1 (packetChannelSendData env.childRead)
    checkChild env.closeSent
    whenReady w.watch1 (sendToNetwork env.send)
    let left ← receiveFromNetwork w.watch0 env.recv
    if left then return true
    else do
      processPackets env.packets
      return false

/-- The main loop over what its iterations meet: whether it was left. -/
def mainLoop : List LoopEnv → LoopM Bool
  | [] => return false
  | env :: envs => do
    let left ← mainLoopIteration env
    if left then return true else mainLoop envs

/-- The state an authorized session enters the loop with. -/
def loopStart (name : Bytes) (random : ℕ → Bool) : Loop where
  chan := ⟨Channel.init, []⟩
  sendbuf := []
  emitted := []
  refused := []
  flageofsent := false
  flagclosesent := false
  flagchanneleofreceived := false
  selfpipe := -1
  name := name
  random := random

/-! ## 6. Rules -/

theorem sendlen_append (q : List (Bytes × ℕ)) (p : Bytes) (k : ℕ) :
    ((q ++ [(p, k)]).map Prod.snd).sum = (q.map Prod.snd).sum + k := by
  rw [List.map_append, List.sum_append, List.map_singleton, List.sum_singleton]

theorem exec_packetPut {s : Loop} {p : Bytes} (h : s.hasRoom p.length = true) :
    exec (packetPut p) s = (.ok (), { s with
      sendbuf := s.sendbuf ++ [(p, sealedLength p.length (s.random 0))]
      random := fun i => s.random (i + 1) }) := by
  rw [packetPut, exec_reads_bind, if_pos h, exec_modify]

theorem keeps_channelHead {P : Loop → Prop} (b : Bytes) (msg : UInt8) :
    Keeps P (channelHead b msg) :=
  (keeps_check _).bind fun _ => (keeps_check _).bind fun _ => (keeps_check _).bind fun _ =>
    (keeps_reads _).bind fun _ => (keeps_check _).bind fun _ => keeps_pure _

theorem KeptBySending.sendToNetwork {P : Loop → Prop} (h : KeptBySending P) (w : WriteResult) :
    Keeps P (sendToNetwork w) := (h.packetSend w).bind fun _ => keeps_check _

/-- The request types differ in their arguments and in `channel_exec`. -/
theorem keeps_requestAccepted {P : Loop → Prop} (h : ∀ cmd e, Keeps P (execOrBug cmd e))
    (b cmd : Bytes) (pos : ℕ) (e : ExecEnv) : Keeps P (channelRequestAccepted b cmd pos e) := by
  have hexec : ∀ c, Keeps P (execOrBug c e >>= fun _ => (pure true : LoopM Bool)) :=
    fun c => (h c e).bind fun _ => keeps_pure _
  have hcheck : ∀ {β : Type} (x : Except Exit β) (ok : Bool),
      Keeps P (check x >>= fun _ => (pure ok : LoopM Bool)) :=
    fun _ _ => (keeps_check _).bind fun _ => keeps_pure _
  refine Keeps.ite ((keeps_check _).bind fun _ => hexec _) ?_
  refine Keeps.ite (hcheck _ _) (Keeps.ite ((keeps_check _).bind fun _ => hexec _) ?_)
  exact Keeps.ite (hcheck _ _) (Keeps.ite (hcheck _ _) (Keeps.ite (hcheck _ _) (keeps_pure _)))

/-! ## 7. The calls of the loop -/

/-- The calls an iteration is made of. -/
inductive LoopCall where
  | write (w : WriteResult)
  | adjust
  | data (r : ReadResult)
  | waitnohang
  | eof
  | close (exitcode : UInt32) (ok : Bool × Bool)
  | send (w : WriteResult)
  | dispatch (b : Bytes) (p : PacketEvent)

def LoopCall.prog : LoopCall → LoopM Unit
  | .write w => do
    let ok ← onChannel (channelWrite w)
    dieUnless ok "unable to write data to child"
  | .adjust => packetChannelSendWindowadjust
  | .data r => packetChannelSendData r
  | .waitnohang => do
    let _ ← onChannel channelWaitnohang
  | .eof => packetChannelSendEof
  | .close exitcode ok => do
    let _ ← packetChannelSendClose exitcode ok
  | .send w => sendToNetwork w
  | .dispatch b p => do
    let _ ← Ssh.dispatch b p

/-- Calls, each with the state in front of it. -/
abbrev Calls := List (Loop × LoopCall)

def writeToChildCalls (w : WriteResult) (s : Loop) : Calls :=
  (s, .write w) :: after (LoopCall.write w).prog (fun _ s => [(s, .adjust)]) s

def checkChildCalls (closeSent : Bool × Bool) (s : Loop) : Calls :=
  if s.iseof then
    after (dieUnless (!(decide (s.selfpipe = -1) && decide (openPipe = -1))) "unable to open pipe")
      (fun _ s => (s, .waitnohang) :: after (onChannel channelWaitnohang) (fun status s =>
        if status then
          (s, .eof) :: after packetChannelSendEof (fun _ s => [(s, .close 0 closeSent)]) s
        else []) s) s
  else []

def processEventCalls (p : PacketEvent) (s : Loop) : Calls :=
  match p.answer with
  | .packet b => if b.length < 1 then [] else [(s, .dispatch b p)]
  | _ => []

def processPacketsCalls : List PacketEvent → Loop → Calls
  | [], _ => []
  | p :: l, s => processEventCalls p s ++
    after (processEvent p) (fun go s => if go then processPacketsCalls l s else []) s

/-- `if (watch)` in front of a call. -/
def whenReadyCalls (watch : Bool) (calls : Calls) : Calls := if watch then calls else []

def mainLoopIterationCalls (env : LoopEnv) (s : Loop) : Calls :=
  if s.finished then []
  else
    let w := watch env s
    whenReadyCalls w.watchtochild (writeToChildCalls env.childWrite s) ++
    after (whenReady w.watchtochild (writeToChild env.childWrite)) (fun _ s =>
    whenReadyCalls w.watchfromchild1 [(s, .data env.childRead)] ++
    after (whenReady w.watchfromchild1 (packetChannelSendData env.childRead)) (fun _ s =>
    checkChildCalls env.closeSent s ++
    after (checkChild env.closeSent) (fun _ s =>
    whenReadyCalls w.watch1 [(s, .send env.send)] ++
    after (whenReady w.watch1 (sendToNetwork env.send)) (fun _ s =>
    after (receiveFromNetwork w.watch0 env.recv) (fun left s =>
    if left then [] else processPacketsCalls env.packets s) s) s) s) s) s

/-- The calls the main loop makes, in order. -/
def mainLoopCalls : List LoopEnv → Loop → Calls
  | [], _ => []
  | env :: envs, s => mainLoopIterationCalls env s ++
    after (mainLoopIteration env) (fun left s => if left then [] else mainLoopCalls envs s) s

theorem LoopCall.makes (c : LoopCall) (s : Loop) : Makes LoopCall.prog c.prog s [(s, c)] :=
  makes_call c

theorem makes_writeToChild (w : WriteResult) (s : Loop) :
    Makes LoopCall.prog (writeToChild w) s (writeToChildCalls w s) := by
  have hassoc : writeToChild w =
      (LoopCall.write w).prog >>= fun _ => packetChannelSendWindowadjust :=
    (bind_assoc _ _ _).symm
  rw [hassoc]
  exact (LoopCall.makes (.write w) s).bind fun _ => LoopCall.makes .adjust

theorem makes_checkChild (closeSent : Bool × Bool) (s : Loop) :
    Makes LoopCall.prog (checkChild closeSent) s (checkChildCalls closeSent s) := by
  have hclose : ∀ t, Makes LoopCall.prog (do
      let ok ← packetChannelSendClose 0 closeSent
      dieUnless ok "unable to close channel") t [(t, .close 0 closeSent)] :=
    fun t => (LoopCall.makes (.close 0 closeSent) t).of_discard.bind_last fun _ _ => makes_check _
  refine makes_reads_bind (Makes.ite (makes_reads_bind ?_) (makes_pure _))
  refine (makes_check _).bind fun _ t => (LoopCall.makes .waitnohang t).of_discard.bind ?_
  exact fun _ t => ((LoopCall.makes .eof t).bind fun _ => hclose).ite (makes_pure _)

theorem makes_processEvent (p : PacketEvent) (s : Loop) :
    Makes LoopCall.prog (processEvent p) s (processEventCalls p s) := by
  unfold processEvent processEventCalls
  cases p.answer with
  | nothing => exact makes_pure _
  | disconnect => exact makes_pure _
  | failed => exact makes_throw _
  | exit e => exact makes_throw _
  | packet b => exact (makes_pure _).ite (LoopCall.makes (.dispatch b p) s).of_discard

theorem makes_processPackets (l : List PacketEvent) (s : Loop) :
    Makes LoopCall.prog (processPackets l) s (processPacketsCalls l s) := by
  induction l generalizing s with
  | nil => exact makes_pure _
  | cons p l ih => exact (makes_processEvent p s).bind fun _ t => (ih t).ite (makes_pure _)

theorem makes_whenReady {m : LoopM Unit} {s : Loop} {calls : Calls} (watch : Bool)
    (hm : Makes LoopCall.prog m s calls) :
    Makes LoopCall.prog (whenReady watch m) s (whenReadyCalls watch calls) := hm.ite (makes_pure _)

theorem makes_mainLoopIteration (env : LoopEnv) (s : Loop) :
    Makes LoopCall.prog (mainLoopIteration env) s (mainLoopIterationCalls env s) := by
  have hreceive : ∀ watch0 t, Makes LoopCall.prog (receiveFromNetwork watch0 env.recv) t [] := by
    refine fun watch0 t => makes_nothing fun P => (keeps_reads _).bind fun _ => ?_
    refine (keeps_pure _).ite ((keeps_pure _).ite ?_)
    exact (keeps_check _).bind fun _ => keeps_pure _
  refine makes_reads_bind ((makes_pure _).ite (makes_reads_bind ?_))
  refine (makes_whenReady _ (makes_writeToChild _ s)).bind fun _ t => ?_
  refine (makes_whenReady _ (LoopCall.makes (.data _) t)).bind fun _ t => ?_
  refine (makes_checkChild _ t).bind fun _ t => ?_
  refine (makes_whenReady _ (LoopCall.makes (.send _) t)).bind fun _ t => ?_
  refine (hreceive _ t).bind fun _ t => (makes_pure _).ite ?_
  exact (makes_processPackets _ t).bind_last fun _ _ => makes_pure _

/-- **The main loop does nothing but its calls.** -/
theorem makes_mainLoop (envs : List LoopEnv) (s : Loop) :
    Makes LoopCall.prog (mainLoop envs) s (mainLoopCalls envs s) := by
  induction envs generalizing s with
  | nil => exact makes_pure _
  | cons env envs ih =>
    exact (makes_mainLoopIteration env s).bind fun _ t => (makes_pure _).ite (ih t)

/-! ## 8. What the loop does to the channel -/

/-- What every channel operation of the loop keeps. -/
structure KeptByChannel (P : ChannelState → Prop) : Prop where
  openChannel (user : Bytes) (id remotewindow maxpacket : UInt32) :
    Keeps P (channelOpen user id remotewindow maxpacket)
  execChannel (cmd : Option Bytes) (e : ExecEnv) : Keeps P (channelExec cmd e)
  put (buf : Bytes) : Keeps P (channelPut buf)
  puteof : Keeps P channelPuteof
  read (len : ℤ) (r : ReadResult) : Keeps P (channelRead len r)
  write (w : WriteResult) : Keeps P (channelWrite w)
  waitnohang : Keeps P channelWaitnohang
  incrementremotewindow (x : UInt32) : Keeps P (channelIncrementremotewindow x)
  incrementlocalwindow (x : UInt32) : Keeps P (channelIncrementlocalwindow x)

theorem KeptByAssignments.channel {P : Channel → Prop} (h : KeptByAssignments P) :
    KeptByChannel fun s => P s.channel where
  openChannel := h.keeps_channelOpen
  execChannel := h.keeps_channelExec
  put := h.keeps_channelPut
  puteof := h.keeps_channelPuteof
  read := h.keeps_channelRead
  write := h.keeps_channelWrite
  waitnohang := h.keeps_channelWaitnohang
  incrementremotewindow := h.keeps_channelIncrementremotewindow
  incrementlocalwindow := h.keeps_channelIncrementlocalwindow

section

variable {P : ChannelState → Prop}

theorem keeps_onChannel {α : Type} {m : ChannelM α} (h : Keeps P m) :
    Keeps (fun s => P s.chan) (onChannel m) := fun s hs => h s.chan hs

/-- Output leaves the channel as it is. -/
theorem keeps_chan_packetPut (p : Bytes) : Keeps (fun s => P s.chan) (packetPut p) := by
  refine (keeps_reads _).bind fun _ => Keeps.ite (keeps_modify fun _ h => h) ?_
  exact Keeps.bind (keeps_modify fun _ h => h) fun _ => keeps_throw _

theorem keeps_chan_packetSendall (ok : Bool) : Keeps (fun s => P s.chan) (packetSendall ok) :=
  KeptBySending.packetSendall (fun _ _ _ _ h => h) ok

theorem keeps_chan_sendEof : Keeps (fun s => P s.chan) packetChannelSendEof :=
  (keeps_reads _).bind fun _ => (keeps_pure _).ite ((keeps_reads _).bind fun _ =>
    (keeps_chan_packetPut _).bind fun _ => keeps_modify fun _ h => h)

theorem keeps_chan_sendClose (exitcode : UInt32) (ok : Bool × Bool) :
    Keeps (fun s => P s.chan) (packetChannelSendClose exitcode ok) := by
  refine keeps_chan_sendEof.bind fun _ => (keeps_reads _).bind fun _ => (keeps_pure _).ite ?_
  refine (keeps_reads _).bind fun _ => (keeps_chan_packetPut _).bind fun _ =>
    (keeps_chan_packetSendall _).bind fun _ => (keeps_pure _).ite ?_
  refine (keeps_chan_packetPut _).bind fun _ => (keeps_chan_packetSendall _).bind fun _ =>
    (keeps_pure _).ite ?_
  exact Keeps.bind (keeps_modify fun _ h => h) fun _ => keeps_pure _

theorem keeps_chan_rekey (r : RekeyEnv) : Keeps (fun s => P s.chan) (rekey r) :=
  (keeps_chan_packetPut _).bind fun _ => (keeps_chan_packetSendall _).bind fun _ =>
    (keeps_check _).bind fun _ => (keeps_check _).bind fun _ =>
    (keeps_chan_packetPut _).bind fun _ => (keeps_chan_packetPut _).bind fun _ =>
    (keeps_chan_packetSendall _).bind fun _ => (keeps_check _).bind fun _ => keeps_check _

theorem KeptByChannel.channelRequest (h : KeptByChannel P) (b : Bytes) (e : ExecEnv) :
    Keeps (fun s => P s.chan) (packetChannelRequest b e) := by
  have hexec : ∀ cmd e, Keeps (fun s : Loop => P s.chan) (execOrBug cmd e) :=
    fun cmd e => (keeps_onChannel (h.execChannel cmd e)).bind fun _ => keeps_check _
  refine (keeps_check _).bind fun _ => (keeps_check _).bind fun _ => (keeps_check _).bind fun _ =>
    (keeps_reads _).bind fun _ => (keeps_check _).bind fun _ => (keeps_check _).bind fun _ =>
    (keeps_check _).bind fun _ => (keeps_requestAccepted hexec _ _ _ _).bind fun _ => ?_
  exact (keeps_pure _).ite (keeps_chan_packetPut _)

theorem KeptByChannel.channelOpen (h : KeptByChannel P) (b : Bytes) :
    Keeps (fun s => P s.chan) (packetChannelOpen b) := by
  refine (keeps_check _).bind fun _ => (keeps_check _).bind fun _ => (keeps_check _).bind fun _ =>
    (keeps_check _).bind fun _ => (keeps_check _).bind fun _ => (keeps_check _).bind fun _ =>
    Keeps.ite ?_ (keeps_chan_packetPut _)
  exact (keeps_check _).bind fun _ => (keeps_reads _).bind fun _ =>
    (keeps_onChannel (h.openChannel _ _ _ _)).bind fun _ => keeps_chan_packetPut _

theorem KeptByChannel.dispatch (h : KeptByChannel P) (b : Bytes) (p : PacketEvent) :
    Keeps (fun s => P s.chan) (dispatch b p) := by
  have hthen : ∀ {m : LoopM Unit} (go : Bool), Keeps (fun s => P s.chan) m →
      Keeps (fun s => P s.chan) (m >>= fun _ => (pure go : LoopM Bool)) :=
    fun go hm => hm.bind fun _ => keeps_pure go
  refine Keeps.ite (hthen _ (h.channelOpen b)) (Keeps.ite (hthen _ (h.channelRequest b _)) ?_)
  refine Keeps.ite (hthen _ ?_) (Keeps.ite (keeps_pure _) (Keeps.ite (hthen _ ?_)
    (Keeps.ite (hthen _ ?_) (Keeps.ite (hthen _ ?_)
    (Keeps.ite (hthen _ (keeps_chan_rekey _)) ?_)))))
  · exact (keeps_channelHead _ _).bind fun _ => (keeps_check _).bind fun _ =>
      (keeps_check _).bind fun _ => keeps_onChannel (h.put _)
  · exact (keeps_channelHead _ _).bind fun _ => (keeps_check _).bind fun _ =>
      (keeps_check _).bind fun _ => keeps_onChannel (h.incrementremotewindow _)
  · exact (keeps_channelHead _ _).bind fun _ => (keeps_check _).bind fun _ =>
      keeps_onChannel h.puteof
  · exact (keeps_channelHead _ _).bind fun _ => (keeps_check _).bind fun _ =>
      keeps_chan_sendEof.bind fun _ => keeps_modify fun _ h => h
  · exact ((keeps_chan_packetPut _).bind fun _ => keeps_chan_packetSendall _).bind fun _ =>
      (keeps_check _).bind fun _ => keeps_pure _

/-- **What every channel operation keeps of the channel, every call of the loop keeps.** -/
theorem KeptByChannel.loopCall (h : KeptByChannel P) (c : LoopCall) :
    Keeps (fun s => P s.chan) c.prog := by
  cases c with
  | write w => exact (keeps_onChannel (h.write w)).bind fun _ => keeps_check _
  | adjust =>
    exact (keeps_reads _).bind fun _ => (keeps_pure _).ite ((keeps_pure _).ite
      ((keeps_onChannel (h.incrementlocalwindow _)).bind fun _ => keeps_chan_packetPut _))
  | data r =>
    exact (keeps_reads _).bind fun _ => (keeps_reads _).bind fun _ => Keeps.ite
      ((keeps_onChannel (h.read _ r)).bind fun _ => (keeps_pure _).ite
        ((keeps_reads _).bind fun _ => keeps_chan_packetPut _)) (keeps_pure _)
  | waitnohang => exact (keeps_onChannel h.waitnohang).bind fun _ => keeps_pure _
  | eof => exact keeps_chan_sendEof
  | close exitcode ok => exact (keeps_chan_sendClose exitcode ok).bind fun _ => keeps_pure _
  | send w =>
    refine Keeps.bind ((keeps_reads _).bind fun _ => Keeps.ite ?_ (keeps_pure _)) fun _ =>
      keeps_check _
    split
    · exact keeps_pure _
    · exact keeps_pure _
    · exact Keeps.bind (keeps_modify fun _ h => h) fun _ => keeps_pure _
  | dispatch b p => exact (h.dispatch b p).bind fun _ => keeps_pure _

/-- **The channel of the loop changes by channel operations only.** -/
theorem KeptByChannel.mainLoop (h : KeptByChannel P) (envs : List LoopEnv) :
    Keeps (fun s => P s.chan) (mainLoop envs) :=
  keeps_of_makes (makes_mainLoop envs) h.loopCall

end

end Glossh.Ssh
