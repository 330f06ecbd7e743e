/-
# Where a session runs out of memory

The handshake functions keep within the buffers' bounds, the first time and every other, so what is
left of `bug_nomem` is `packet_put`, which may find no room in `sendbuf`, and `channel_put`, which
may find none for the data of the client.  A session that ends in it ends in one of these.
-/
import Glossh.Ssh.HandshakeRoom

namespace Glossh.Ssh

open Bytes Prog

/-! ## 1. Calls that keep within the bounds

`LoopSafe` composes along the code of the main loop.  The channel operations do not touch `sendbuf`
or the login name, so what is asked of them is that they end in `bug_nomem` nowhere; for
`channel_put` that is false, and it is left out here. -/

section

variable {α β : Type}

theorem LoopSafe.bind {m : LoopM α} {f : α → LoopM β} (hm : LoopSafe m) (hf : ∀ a, LoopSafe (f a)) :
    LoopSafe (m >>= f) := Triple.bind hm hf

theorem LoopSafe.ite {c : Prop} [Decidable c] {m m' : LoopM α} (hm : LoopSafe m)
    (hm' : LoopSafe m') : LoopSafe (if c then m else m') := Triple.ite (fun _ => hm) fun _ => hm'

theorem loopSafe_pure (a : α) : LoopSafe (pure a : LoopM α) := triple_pure fun _ h => h

theorem loopSafe_reads (f : Loop → α) : LoopSafe (reads f) := ⟨fun _ h => h⟩

/-- An assignment that leaves the login name alone; `packet_auth` sets it. -/
theorem loopSafe_modify {f : Loop → Loop} (h : ∀ l, (f l).name = l.name) :
    LoopSafe (modify f : LoopM PUnit) := triple_modify fun l hl => by rw [h]; exact hl

theorem loopSafe_check {r : Except Exit α} (hr : r ≠ .error nomem) :
    LoopSafe (check r : LoopM α) := by
  constructor
  intro l hl
  cases r with
  | ok a => exact hl
  | error e => exact ⟨hl, fun he => absurd (congrArg Except.error he) hr⟩

/-- A channel operation that never ends in `bug_nomem` is safe in the loop. -/
theorem loopSafe_onChannel {m : ChannelM α} (h : Avoids nomem m) : LoopSafe (onChannel m) := by
  constructor
  intro l hl
  have hm := h l.chan
  rw [onChannel, exec_zoom]
  rcases hx : exec m l.chan with ⟨r, c⟩
  rw [hx] at hm
  cases r with
  | ok a => exact hl
  | error e => exact ⟨hl, fun he => absurd (congrArg Except.error he) hm⟩

/-- `die_fatal` is another exit. -/
theorem loopSafe_dieUnless (ok : Bool) (trouble : String) : LoopSafe (dieUnless ok trouble) := by
  refine loopSafe_check ?_
  split
  · exact ok_ne _
  · exact fun h => by cases h

end

/-- The checks of the channel code. -/
theorem avoids_bugIf (c : Channel → Bool) {errno : Errno} (h : errno ≠ .ENOMEM) :
    Avoids nomem (bugIf c errno) := by
  refine (avoids_reads _).bind fun bad => avoids_check ?_
  split
  · exact fun he => h (Exit.bug.inj (Except.error.inj he))
  · exact ok_ne _

/-- Opening and closing descriptors, and assignments. -/
theorem avoids_fdEvent (e : FdEvent) : Avoids nomem (fdEvent e) := avoids_modify _

theorem avoids_updateChannel (f : Channel → Channel) : Avoids nomem (updateChannel f) :=
  avoids_modify _

theorem avoids_closeFd0 : Avoids nomem closeFd0 :=
  (avoids_reads _).bind fun _ => (avoids_fdEvent _).bind fun _ => avoids_updateChannel _

theorem avoids_closeFd1 : Avoids nomem closeFd1 :=
  (avoids_reads _).bind fun _ => (avoids_fdEvent _).bind fun _ => avoids_updateChannel _

/-- `channel_open` checks the length of the login name, which `packet_auth` has checked already. -/
theorem avoids_channelOpen {user : Bytes} (huser : user.length ≤ LOGIN_NAME_MAX)
    (id remotewindow maxpacket : UInt32) :
    Avoids nomem (channelOpen user id remotewindow maxpacket) := by
  have hshort : decide (user.length > LOGIN_NAME_MAX) = false := decide_eq_false (by omega)
  have hlong : Avoids nomem (bugIf (fun _ => user.length > LOGIN_NAME_MAX) .ENOMEM) := by
    intro s
    simp only [bugIf, exec_reads_bind, hshort]
    exact ok_ne _
  refine (avoids_bugIf _ (by decide)).bind fun _ => (avoids_bugIf _ (by decide)).bind fun _ =>
    (avoids_bugIf _ (by decide)).bind fun _ => (avoids_bugIf _ (by decide)).bind fun _ =>
    (avoids_updateChannel _).bind fun _ => hlong.bind fun _ =>
    (avoids_updateChannel _).bind fun _ => avoids_pure _

/-- `socketpair_tcp` returns where a call of the operating system fails. -/
theorem avoids_socketpairTcp (e : SocketpairEnv) : Avoids nomem (socketpairTcp e) := by
  unfold socketpairTcp
  split
  · exact avoids_pure _
  · refine ((avoids_fdEvent _).bind fun _ => avoids_pure _).ite ?_
    split
    · exact (avoids_fdEvent _).bind fun _ => avoids_pure _
    · refine Avoids.ite ?_ ?_
      · exact (avoids_fdEvent _).bind fun _ => (avoids_fdEvent _).bind fun _ => avoids_pure _
      split
      · exact (avoids_fdEvent _).bind fun _ => (avoids_fdEvent _).bind fun _ => avoids_pure _
      · exact (avoids_fdEvent _).bind fun _ => avoids_pure _

/-- And `channel_exec` does, whichever call fails. -/
theorem avoids_channelExec (cmd : Option Bytes) (e : ExecEnv) :
    Avoids nomem (channelExec cmd e) := by
  refine (avoids_bugIf _ (by decide)).bind fun _ => (avoids_bugIf _ (by decide)).bind fun _ =>
    (avoids_socketpairTcp _).bind fun fdsIn => ?_
  split
  · exact avoids_pure _
  · refine (avoids_socketpairTcp _).bind fun fdsOut => ?_
    split
    · exact (avoids_fdEvent _).bind fun _ => (avoids_fdEvent _).bind fun _ => avoids_pure _
    · refine Avoids.ite ?_ ?_
      · exact (avoids_fdEvent _).bind fun _ => (avoids_fdEvent _).bind fun _ =>
          (avoids_fdEvent _).bind fun _ => (avoids_fdEvent _).bind fun _ => avoids_pure _
      · exact (avoids_fdEvent _).bind fun _ => (avoids_updateChannel _).bind fun _ => avoids_pure _

/-- The other operations of the channel: only `channel_put` is missing here. -/
theorem avoids_channelPuteof : Avoids nomem channelPuteof := by
  refine (avoids_bugIf _ (by decide)).bind fun _ => (avoids_bugIf _ (by decide)).bind fun _ =>
    (avoids_bugIf _ (by decide)).bind fun _ => (avoids_updateChannel _).bind fun _ => ?_
  exact (avoids_reads _).bind fun empty => avoids_closeFd0.ite (avoids_pure _)

theorem avoids_channelRead (len : ℤ) (r : ReadResult) : Avoids nomem (channelRead len r) := by
  refine (avoids_bugIf _ (by decide)).bind fun _ => (avoids_bugIf _ (by decide)).bind fun _ =>
    (avoids_bugIf _ (by decide)).bind fun _ => (avoids_bugIf _ (by decide)).bind fun _ =>
    (avoids_reads _).bind fun c => (avoids_pure _).ite ?_
  split
  · exact avoids_pure _
  · exact (avoids_fdEvent _).bind fun _ => (avoids_updateChannel _).bind fun _ => avoids_pure _
  · exact avoids_closeFd1.bind fun _ => avoids_pure _
  · exact avoids_closeFd1.bind fun _ => avoids_pure _

theorem avoids_channelWrite (w : WriteResult) : Avoids nomem (channelWrite w) := by
  refine (avoids_bugIf _ (by decide)).bind fun _ => (avoids_bugIf _ (by decide)).bind fun _ =>
    (avoids_bugIf _ (by decide)).bind fun _ => (avoids_reads _).bind fun c => (avoids_pure _).ite ?_
  split
  · exact avoids_pure _
  · exact avoids_closeFd0.bind fun _ => avoids_pure _
  · exact avoids_closeFd0.bind fun _ => avoids_pure _
  · refine (avoids_fdEvent _).bind fun _ => (avoids_updateChannel _).bind fun _ =>
      (avoids_reads _).bind fun done => Avoids.ite ?_ (avoids_pure _)
    exact avoids_closeFd0.bind fun _ => avoids_pure _

theorem avoids_channelWaitnohang : Avoids nomem channelWaitnohang :=
  (avoids_bugIf _ (by decide)).bind fun _ => (avoids_reads _).bind fun gone =>
    (avoids_pure _).ite ((avoids_updateChannel _).bind fun _ => avoids_pure _)

/-! ## 2. The main loop -/

/-- The write to the network takes from `sendbuf`. -/
theorem loopSafe_packetSend (w : WriteResult) : LoopSafe (packetSend w) := by
  refine (loopSafe_reads _).bind fun ready => LoopSafe.ite ?_ (loopSafe_pure _)
  split
  · exact loopSafe_pure _
  · exact loopSafe_pure _
  · exact (loopSafe_modify (by intro l; rfl)).bind fun _ => loopSafe_pure _

/-- What the loop sends goes through `packet_put`, which is all that can go wrong with it. -/
theorem loopSafe_sendWindowadjust : LoopSafe packetChannelSendWindowadjust := by
  refine (loopSafe_reads _).bind fun c => (loopSafe_pure _).ite ((loopSafe_pure _).ite ?_)
  exact (loopSafe_onChannel (avoids_updateChannel _)).bind fun _ => loopSafe_packetPut _

theorem loopSafe_sendData (r : ReadResult) : LoopSafe (packetChannelSendData r) := by
  refine (loopSafe_reads _).bind fun limit => (loopSafe_reads _).bind fun ready =>
    LoopSafe.ite ?_ (loopSafe_pure _)
  refine (loopSafe_onChannel (avoids_channelRead _ r)).bind fun x => (loopSafe_pure _).ite ?_
  exact (loopSafe_reads _).bind fun id => loopSafe_packetPut _

theorem loopSafe_sendEof : LoopSafe packetChannelSendEof :=
  (loopSafe_reads _).bind fun sent => (loopSafe_pure _).ite ((loopSafe_reads _).bind fun id =>
    (loopSafe_packetPut _).bind fun _ => loopSafe_modify (by intro l; rfl))

/-- Exit status and CLOSE. -/
theorem loopSafe_sendClose (exitcode : UInt32) (ok : Bool × Bool) :
    LoopSafe (packetChannelSendClose exitcode ok) := by
  refine loopSafe_sendEof.bind fun _ => (loopSafe_reads _).bind fun sent => (loopSafe_pure _).ite ?_
  refine (loopSafe_reads _).bind fun id => (loopSafe_packetPut _).bind fun _ =>
    (loopSafe_packetSendall _).bind fun sent => (loopSafe_pure _).ite ?_
  refine (loopSafe_packetPut _).bind fun _ => (loopSafe_packetSendall _).bind fun sent =>
    (loopSafe_pure _).ite ?_
  exact (loopSafe_modify (by intro l; rfl)).bind fun _ => loopSafe_pure _

/-- "check child". -/
theorem loopSafe_checkChild (closeSent : Bool × Bool) : LoopSafe (checkChild closeSent) := by
  refine (loopSafe_reads _).bind fun eof => LoopSafe.ite ?_ (loopSafe_pure _)
  refine (loopSafe_reads _).bind fun unset => (loopSafe_dieUnless _ _).bind fun _ =>
    (loopSafe_onChannel avoids_channelWaitnohang).bind fun status =>
    LoopSafe.ite ?_ (loopSafe_pure _)
  exact loopSafe_sendEof.bind fun _ => (loopSafe_sendClose _ _).bind fun ok =>
    loopSafe_dieUnless _ _

/-- "receive data from network". -/
theorem loopSafe_receive (watch0 received : Bool) :
    LoopSafe (receiveFromNetwork watch0 received) :=
  (loopSafe_reads _).bind fun _ => (loopSafe_pure _).ite ((loopSafe_pure _).ite
    ((loopSafe_dieUnless _ _).bind fun _ => loopSafe_pure _))

/-- An iteration up to "process packets". -/
theorem loopSafe_mainLoopIteration (env : LoopEnv) :
    LoopSafe (mainLoopIteration { env with packets := [] }) := by
  have hready : ∀ {m : LoopM Unit} (w : Bool), LoopSafe m → LoopSafe (whenReady w m) :=
    fun w hm => hm.ite (loopSafe_pure _)
  have hwrite : LoopSafe (writeToChild env.childWrite) :=
    (loopSafe_onChannel (avoids_channelWrite _)).bind fun ok => (loopSafe_dieUnless _ _).bind
      fun _ => loopSafe_sendWindowadjust
  have hsend : LoopSafe (sendToNetwork env.send) :=
    (loopSafe_packetSend _).bind fun ok => loopSafe_dieUnless _ _
  refine (loopSafe_reads _).bind fun finished => (loopSafe_pure _).ite ?_
  refine (loopSafe_reads _).bind fun w => (hready _ hwrite).bind fun _ =>
    (hready _ (loopSafe_sendData _)).bind fun _ => (loopSafe_checkChild _).bind fun _ =>
    (hready _ hsend).bind fun _ => (loopSafe_receive _ _).bind fun left => (loopSafe_pure _).ite ?_
  exact LoopSafe.bind (loopSafe_pure _) fun _ => loopSafe_pure _

/-- The head of a packet for the channel: its type and the number of the channel. -/
theorem loopSafe_channelHead (b : Bytes) (msg : UInt8) : LoopSafe (channelHead b msg) :=
  (loopSafe_check packetparserUint8_ne).bind fun _ => (loopSafe_check (require_ne _)).bind fun _ =>
    (loopSafe_check packetparserUint32_ne).bind fun _ => (loopSafe_reads _).bind fun _ =>
    (loopSafe_check (require_ne _)).bind fun _ => loopSafe_pure _

/-- A `CHANNEL_OPEN`: the name that `channel_open` is given is that of the login. -/
theorem loopSafe_channelOpen (b : Bytes) : LoopSafe (packetChannelOpen b) := by
  refine (loopSafe_check packetparserUint8_ne).bind fun ch => (loopSafe_check (require_ne _)).bind
    fun _ => (loopSafe_check packetparserString_ne).bind fun chan =>
    (loopSafe_check packetparserUint32_ne).bind fun id =>
    (loopSafe_check packetparserUint32_ne).bind fun remotewindow =>
    (loopSafe_check packetparserUint32_ne).bind fun maxpacket =>
    LoopSafe.ite ?_ (loopSafe_packetPut _)
  refine (loopSafe_check packetparserEnd_ne).bind fun _ => ⟨fun l hl => ?_⟩
  rw [exec_reads_bind]
  exact ((loopSafe_onChannel (avoids_channelOpen hl _ _ _)).bind fun w =>
    loopSafe_packetPut _).run l hl

/-- The four numbers of a terminal's size. -/
theorem skipSize_ne (b : Bytes) (pos : ℕ) : skipSize b pos ≠ .error nomem :=
  except_bind_ne packetparserUint32_ne fun _ _ => except_bind_ne packetparserUint32_ne fun _ _ =>
    except_bind_ne packetparserUint32_ne fun _ _ => except_bind_ne packetparserUint32_ne fun _ _ =>
    ok_ne _

/-- The request types: their arguments are parsed, and two of them start the interpreter. -/
theorem loopSafe_requestAccepted (b cmd : Bytes) (pos : ℕ) (e : ExecEnv) :
    LoopSafe (channelRequestAccepted b cmd pos e) := by
  have hstring : requestString b pos ≠ .error nomem :=
    except_bind_ne packetparserString_ne fun _ _ =>
      except_bind_ne packetparserEnd_ne fun _ _ => ok_ne _
  have henv : requestEnv b pos ≠ .error nomem :=
    except_bind_ne packetparserString_ne fun _ _ => except_bind_ne packetparserString_ne fun _ _ =>
      except_bind_ne packetparserEnd_ne fun _ _ => ok_ne _
  have hpty : requestPty b pos ≠ .error nomem :=
    except_bind_ne packetparserString_ne fun _ _ => except_bind_ne (skipSize_ne _ _) fun _ _ =>
      except_bind_ne packetparserString_ne fun _ _ => except_bind_ne packetparserEnd_ne fun _ _ =>
      ok_ne _
  have hwindow : requestWindowChange b pos ≠ .error nomem :=
    except_bind_ne (skipSize_ne _ _) fun _ _ => except_bind_ne packetparserEnd_ne fun _ _ => ok_ne _
  have hexec : ∀ c, LoopSafe (execOrBug c e) := by
    intro c
    refine (loopSafe_onChannel (avoids_channelExec c e)).bind fun ok => loopSafe_check ?_
    split
    · exact ok_ne _
    · exact fun h => by cases h
  refine LoopSafe.ite ((loopSafe_check hstring).bind fun p1 => (hexec _).bind fun _ =>
    loopSafe_pure _) ?_
  refine LoopSafe.ite ((loopSafe_check hstring).bind fun _ => loopSafe_pure _) ?_
  refine LoopSafe.ite ((loopSafe_check packetparserEnd_ne).bind fun _ => (hexec _).bind fun _ =>
    loopSafe_pure _) ?_
  refine LoopSafe.ite ((loopSafe_check henv).bind fun _ => loopSafe_pure _) ?_
  refine LoopSafe.ite ((loopSafe_check hpty).bind fun _ => loopSafe_pure _) ?_
  exact LoopSafe.ite ((loopSafe_check hwindow).bind fun _ => loopSafe_pure _) (loopSafe_pure _)

/-- A `CHANNEL_REQUEST`, with the answer it asks for. -/
theorem loopSafe_channelRequest (b : Bytes) (e : ExecEnv) :
    LoopSafe (packetChannelRequest b e) := by
  refine (loopSafe_check packetparserUint8_ne).bind fun ch => (loopSafe_check (require_ne _)).bind
    fun _ => (loopSafe_check packetparserUint32_ne).bind fun id => (loopSafe_reads _).bind
    fun ours => (loopSafe_check (require_ne _)).bind fun _ =>
    (loopSafe_check packetparserString_ne).bind fun cmd =>
    (loopSafe_check packetparserUint8_ne).bind fun wantreply => ?_
  exact (loopSafe_requestAccepted _ _ _ _).bind fun accepted => (loopSafe_pure _).ite
    (loopSafe_packetPut _)

/-- A packet that is neither data nor KEXINIT. -/
theorem loopSafe_dispatch {b : Bytes} (p : PacketEvent) (hdata : b.headD 0 ≠ SSH_MSG_CHANNEL_DATA)
    (hkexinit : b.headD 0 ≠ SSH_MSG_KEXINIT) : LoopSafe (dispatch b p) := by
  have hskip : ∀ {m : LoopM Unit}, LoopSafe m →
      LoopSafe (m >>= fun _ => (pure true : LoopM Bool)) :=
    fun hm => hm.bind fun _ => loopSafe_pure _
  unfold dispatch
  rw [if_neg hdata, if_neg hkexinit]
  refine (hskip (loopSafe_channelOpen b)).ite ((hskip (loopSafe_channelRequest b _)).ite ?_)
  refine (loopSafe_pure _).ite (LoopSafe.ite (hskip ?_) (LoopSafe.ite (hskip ?_) (LoopSafe.ite
    (hskip ?_) ?_)))
  · exact (loopSafe_channelHead _ _).bind fun pos => (loopSafe_check packetparserUint32_ne).bind
      fun len => (loopSafe_check packetparserEnd_ne).bind fun _ =>
      loopSafe_onChannel (avoids_updateChannel _)
  · exact (loopSafe_channelHead _ _).bind fun pos => (loopSafe_check packetparserEnd_ne).bind
      fun _ => loopSafe_onChannel avoids_channelPuteof
  · exact (loopSafe_channelHead _ _).bind fun pos => (loopSafe_check packetparserEnd_ne).bind
      fun _ => loopSafe_sendEof.bind fun _ => loopSafe_modify (by intro l; rfl)
  · exact ((loopSafe_packetPut _).bind fun _ => loopSafe_packetSendall _).bind fun sent =>
      (loopSafe_dieUnless _ _).bind fun _ => loopSafe_pure _

/-! ## 3. The session

A session logs the packets it handles.  `NomemExit` reads the last entry: only behind a packet with
data may `bug_nomem` come from the channel. -/

/-- The invariant; `bug_nomem` only where `packet_put` finds no room in `sendbuf`, or in
`channel_put`, when the last event is the packet with the data. -/
def NomemExit (e : Exit) (s : Tinysshd) : Prop :=
  s.Bounded ∧ (e = nomem → s.loop.refused ≠ [] ∨
    ∃ pre b, s.events = pre ++ [.dispatch b] ∧ b.headD 0 = SSH_MSG_CHANNEL_DATA)

/-- A session's functions. -/
def SessionSafe {α : Type} (m : SessionM α) : Prop :=
  Triple Tinysshd.Bounded m (fun _ => Tinysshd.Bounded) NomemExit

/-- What ends in `bug_nomem` for want of room in `sendbuf` does so in a session. -/
theorem Safe.session {α : Type} {m : SessionM α} (h : Safe m) : SessionSafe m :=
  h.exits fun _ _ h => ⟨h.1, fun he => .inl (h.2 he)⟩

/-- `channel_put` is reached with the data of the client only. -/
theorem triple_dispatchPacket {b : Bytes} (p : TurnPacket)
    (hkexinit : b.headD 0 ≠ SSH_MSG_KEXINIT) :
    Triple (fun s => s.Bounded ∧ ∃ pre, s.events = pre ++ [.dispatch b]) (dispatchPacket b p)
      (fun _ => Tinysshd.Bounded) NomemExit := by
  by_cases hdata : b.headD 0 = SSH_MSG_CHANNEL_DATA
  · have hkeeps : Keeps (fun s => s.Bounded ∧ ∃ pre, s.events = pre ++ [.dispatch b])
        (dispatchPacket b p) := by
      rintro s ⟨hs, hlast⟩
      -- `channel_put` changes the channel; the bounds do not speak of it.
      have hname : ∀ q : PacketEvent, Keeps (fun l => l.name.length ≤ LOGIN_NAME_MAX)
          (dispatch b q) := by
        intro q
        unfold dispatch
        rw [if_neg (by rw [hdata]; decide), if_neg (by rw [hdata]; decide), if_pos hdata]
        refine Keeps.bind ?_ fun _ => keeps_pure _
        exact (keeps_channelHead _ _).bind fun pos => (keeps_check _).bind fun _ =>
          (keeps_check _).bind fun _ => fun l hl => hl
      rw [dispatchPacket, exec_reads_bind, onLoop, exec_zoom]
      exact ⟨hs.frame (by intro x; cases x <;> rfl) hs.kex (hname _ s.loop hs.name_le), hlast⟩
    refine (hkeeps.triple ?_).post fun _ _ h => h.1
    rintro e s ⟨hs, pre, hlast⟩
    exact ⟨hs, fun _ => .inr ⟨pre, b, hlast, hdata⟩⟩
  · have hsafe : Safe (dispatchPacket b p) :=
      (safe_reads _).bind fun _ => safe_onLoop (loopSafe_dispatch _ hdata hkexinit)
    exact hsafe.session.pre fun _ h => h.1

/-- "process packets": the event of a packet is logged in front of its handler, so that it is the
last one where the handler ends the session. -/
theorem sessionSafe_sessionPackets (l : List TurnPacket) : SessionSafe (sessionPackets l) := by
  induction l with
  | nil => exact (safe_pure _).session
  | cons p l ih =>
    rw [sessionPackets]
    split
    · exact (safe_pure _).session
    · exact (safe_throw (by decide)).session
    · rename_i r _
      refine Triple.bind (safe_packetGetReceived (x := .b1) (le_refl _) 0 r).session fun ok => ?_
      refine Triple.ite (fun _ => (safe_pure _).session) fun _ => triple_reads_any fun b => ?_
      refine Triple.ite (fun _ => (safe_pure _).session) fun _ => ?_
      refine Triple.bind (Q := fun _ s => s.Bounded ∧ ∃ pre, s.events = pre ++ [.dispatch b])
        (triple_modify fun s h => ?_) fun _ => ?_
      · exact ⟨h.frame (by intro x; cases x <;> rfl) h.kex h.name_le, s.events, rfl⟩
      · refine Triple.ite (fun _ => triple_pure fun _ h => h.1) fun hkexinit => ?_
        exact Triple.bind (triple_dispatchPacket p hkexinit) fun go =>
          Triple.ite (fun _ => ih) fun _ => (safe_pure _).session

section

variable (P : Primitives)

/-- An iteration of the main loop, and the key exchange it may lead to. -/
theorem sessionSafe_turn (t : Turn) : SessionSafe (turn P t) := by
  refine Triple.bind (safe_onLoop (loopSafe_mainLoopIteration _)).session fun left =>
    Triple.ite (fun _ => (safe_pure _).session) fun _ => ?_
  refine Triple.bind (sessionSafe_sessionPackets _) fun again =>
    Triple.ite (fun _ => ?_) fun _ => (safe_pure _).session
  have harrivals : Safe (modify fun s : Tinysshd => { s with arrivals := t.arrivals }) :=
    safe_modify (by intro s x; cases x <;> rfl) (fun _ => rfl) fun _ => rfl
  exact (harrivals.bind fun _ => (safe_rekeying P t.kexdh).bind fun _ =>
    (safe_authentication P t.auth).bind fun _ => safe_pure _).session

/-- **The step of the main loop, over all its iterations.** -/
theorem sessionSafe_sessionLoop (l : List Turn) : SessionSafe (sessionLoop P l) := by
  induction l with
  | nil => exact (safe_pure _).session
  | cons t l ih =>
    exact Triple.bind (sessionSafe_turn P t) fun left =>
      Triple.ite (fun _ => (safe_pure _).session) fun _ => ih

/-- **A whole session**, from the algorithms to the end of the main loop. -/
theorem sessionSafe_tinysshd (env : TinysshdEnv) : SessionSafe (tinysshd P env) := by
  refine Triple.bind (safe_onKex (triple_startAlgorithms _)).session fun _ => ?_
  refine Triple.bind (safe_packetHelloSend _ _).session fun ok =>
    Triple.bind (safe_orDie ok _).session fun _ => ?_
  refine Triple.bind (safe_packetHelloReceive _).session fun ok =>
    Triple.bind (safe_orDie ok _).session fun _ => ?_
  refine Triple.bind (safe_packetKexSendAll _ _).session fun ok =>
    Triple.bind (safe_orDie ok _).session fun _ => ?_
  refine Triple.bind safe_packetKexReceiveAll.session fun ok =>
    Triple.bind (safe_orDie ok _).session fun _ => ?_
  refine Triple.bind (safe_rekeying P _).session fun _ => ?_
  refine Triple.bind (safe_authentication P _).session fun _ => ?_
  exact sessionSafe_sessionLoop P env.turns

end

/-! ## 4. Any number of sessions -/

/-- The buffers are empty when a session starts; the algorithms are as the last one left them. -/
theorem bounded_start {c : Sshcrypto} (hc : c.Bounded) (random : ℕ → Bool)
    (arrivals : List Arrival) : (tinysshdStart c random arrivals).Bounded where
  kex := ⟨hc, rfl, Nat.zero_le _⟩
  buf x := by
    cases x with
    | hellosend => exact ⟨rfl, Nat.zero_le _⟩
    | helloreceive => exact ⟨rfl, Nat.zero_le _⟩
    | kexrecv => exact ⟨rfl, Nat.zero_le _⟩
    | hashbuf => exact ⟨rfl, Nat.zero_le _⟩
    | b1 => exact ⟨rfl, Nat.zero_le _⟩
    | b2 => exact ⟨rfl, Nat.zero_le _⟩
  name_le := Nat.zero_le _

/-- A session that ran. -/
structure TinysshdRun where
  env : TinysshdEnv
  random : ℕ → Bool
  arrivals : List Arrival

/-- How it ran, from the algorithm state `c`. -/
def TinysshdRun.run (P : Primitives) (c : Sshcrypto) (r : TinysshdRun) :
    Except Exit Unit × Tinysshd :=
  exec (tinysshd P r.env) (tinysshdStart c r.random r.arrivals)

/-- The algorithm state that the session after `earlier` starts from. -/
def sshcryptoAfter (P : Primitives) (earlier : List TinysshdRun) : Sshcrypto :=
  earlier.foldl (fun c r => sshcryptoPurge (r.run P c).2.kex.crypto) bootSshcrypto

/-- One session keeps the bounds of the algorithms it starts with. -/
theorem TinysshdRun.bounded (P : Primitives) {c : Sshcrypto} (hc : c.Bounded) (r : TinysshdRun) :
    (r.run P c).2.Bounded ∧ ∀ e, (r.run P c).1 = .error e → NomemExit e (r.run P c).2 := by
  have h := (sessionSafe_tinysshd P r.env).run _ (bounded_start hc r.random r.arrivals)
  rw [TinysshdRun.run]
  rcases hx : exec (tinysshd P r.env) (tinysshdStart c r.random r.arrivals) with ⟨a, s⟩
  rw [hx] at h
  cases a with
  | ok _ => exact ⟨h, fun _ he => by cases he⟩
  | error e =>
    refine ⟨h.1, ?_⟩
    rintro e' ⟨⟩
    exact h

/-- And so does every number of them, one after another. -/
theorem sshcryptoAfter_bounded (P : Primitives) (earlier : List TinysshdRun) :
    (sshcryptoAfter P earlier).Bounded := by
  have hfold : ∀ c : Sshcrypto, c.Bounded → (earlier.foldl
      (fun c r => sshcryptoPurge (r.run P c).2.kex.crypto) c).Bounded := by
    induction earlier with
    | nil => exact fun _ hc => hc
    | cons r earlier ih => exact fun c hc => ih _ (r.bounded P hc).1.kex.crypto.sshcryptoPurge
  exact hfold _ .boot

/-- **The buffers of the handshake suffice.**  In every session, after any number of others and
whatever the client sends, no buffer is ever filled.  Where it ends in `bug_nomem` a packet found
no room in `sendbuf`, or `channel_put` was at work: the last event is then a packet with data, and
not the KEXINIT that every later key exchange begins with. -/
theorem handshake_room (P : Primitives) (earlier : List TinysshdRun) (r : TinysshdRun) :
    let x := r.run P (sshcryptoAfter P earlier)
    (∀ y : BufField, (y.get x.2).alloc = y.alloc ∧ (y.get x.2).data.length < y.alloc) ∧
    x.2.kex.kexsend.alloc = 1024 ∧ x.2.kex.kexsend.data.length < 1024 ∧
    (x.1 ≠ .error (.bug .ENOMEM) ∨ x.2.loop.refused ≠ [] ∨
      ∃ pre b, x.2.events = pre ++ [.dispatch b] ∧ b.headD 0 = SSH_MSG_CHANNEL_DATA) := by
  intro x
  obtain ⟨hbounded, hexit⟩ := r.bounded P (sshcryptoAfter_bounded P earlier)
  refine ⟨fun y => ⟨(hbounded.buf y).alloc_eq, ?_⟩, hbounded.kex.kexsend_alloc, ?_, ?_⟩
  · exact (hbounded.buf y).length_le.trans_lt y.limit_lt_alloc
  · exact hbounded.kex.kexsend_length.trans_lt (by decide)
  · by_cases hnomem : x.1 = .error (.bug .ENOMEM)
    · exact .inr ((hexit _ hnomem).2 rfl)
    · exact .inl hnomem

end Glossh.Ssh
