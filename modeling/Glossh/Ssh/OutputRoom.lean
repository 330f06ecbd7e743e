/-
# Room for the answers

`packet_channel_send_data` asks `packet_putisready` first; the other handlers put their answers
into `sendbuf` as they come, and a client that sends faster than it reads fills it.  An answer
that finds no room ends the session in `bug_nomem` (`refused`).

`Reply.fits` follows the lengths a handler puts through the buffer, from the state in front of
it.  A run whose calls all find that room never refuses anything; a client that provokes more than
the buffer holds within two reads ends its session.
-/
import Glossh.Lib.Run
import Glossh.Ssh.ChannelEnd
import Glossh.Ssh.OutputFlow

namespace Glossh.Ssh

open Bytes Prog

/-! ## 1. What a call answers -/

/-- What a handler does to `sendbuf`. -/
inductive Reply where
  /-- `packet_put` of a payload of `n` bytes. -/
  | put (n : ℕ)
  | sendall

/-- Every `packet_put` finds room, from `len` bytes in the buffer on and with these outcomes of
`randommod(2)`. -/
def Reply.fits : ℕ → (ℕ → Bool) → List Reply → Prop
  | _, _, [] => True
  | len, random, .put n :: l => len + 60 + sealedLength n (random 0) < SENDBUF_SIZE ∧
    fits (len + sealedLength n (random 0)) (fun i => random (i + 1)) l
  | _, random, .sendall :: l => fits 0 random l

/-- The answer to a `CHANNEL_OPEN`. -/
def openAnswer (b : Bytes) : List Reply :=
  match packetparserString b 1 with
  | .error _ => []
  | .ok chan => if slice b (chan.2 - chan.1) chan.1 = ascii "session" then [.put 17] else [.put 51]

/-- The answer to a `CHANNEL_REQUEST`, if one is wanted. -/
def requestAnswer (b : Bytes) : List Reply :=
  match packetparserString b 5 with
  | .error _ => []
  | .ok cmd =>
    match packetparserUint8 b cmd.2 with
    | .error _ => []
    | .ok wantreply => if wantreply.1 = 0 then [] else [.put 5]

/-- EOF is sent once. -/
def eofAnswer (s : Loop) : List Reply := if s.flageofsent then [] else [.put 5]

/-- The exit status and CLOSE. -/
def closeAnswer (s : Loop) : List Reply :=
  eofAnswer s ++ if s.flagclosesent then [] else [.put 25, .sendall, .put 5, .sendall]

/-- A window adjust where it is due. -/
def adjustAnswer (s : Loop) : List Reply :=
  if s.chan.channel.buf0.length > CHANNEL_BUFSIZE / 2 then []
  else if s.chan.channel.localwindow.toNat > CHANNEL_BUFSIZE / 2 then [] else [.put 9]

/-- KEXINIT, then the reply and NEWKEYS. -/
def rekeyAnswer (r : RekeyEnv) : List Reply :=
  .put (1 + r.kexsend.length) :: .sendall ::
    match r.reply with
    | .error _ => []
    | .ok reply => [.put (1 + reply.length), .put 1, .sendall]

/-- The answer to a packet. -/
def packetAnswer (b : Bytes) (p : PacketEvent) (s : Loop) : List Reply :=
  if b.headD 0 = SSH_MSG_CHANNEL_OPEN then openAnswer b
  else if b.headD 0 = SSH_MSG_CHANNEL_REQUEST then requestAnswer b
  else if b.headD 0 = SSH_MSG_CHANNEL_DATA then []
  else if b.headD 0 = SSH_MSG_CHANNEL_EXTENDED_DATA then []
  else if b.headD 0 = SSH_MSG_CHANNEL_WINDOW_ADJUST then []
  else if b.headD 0 = SSH_MSG_CHANNEL_EOF then []
  else if b.headD 0 = SSH_MSG_CHANNEL_CLOSE then eofAnswer s
  else if b.headD 0 = SSH_MSG_KEXINIT then rekeyAnswer p.rekey
  else [.put 5, .sendall]

namespace LoopCall

/-- What a call puts without asking `packet_putisready`. -/
def answer (s : Loop) : LoopCall → List Reply
  | .write _ => []
  | .adjust => adjustAnswer s
  | .data _ => []
  | .waitnohang => []
  | .eof => eofAnswer s
  | .close _ _ => closeAnswer s
  | .send _ => []
  | .dispatch b p => packetAnswer b p s

end LoopCall

/-- The state behind a call. -/
def loopCall (s : Loop) (c : LoopCall) : Option Loop := some (exec c.prog s).2

/-- In front of a call `sendbuf` has the room its answer takes. -/
def RoomFor (s : Loop) (c : LoopCall) : Prop := Reply.fits s.sendlen s.random (c.answer s)

/-! ## 2. Rules -/

/-- Nothing was refused, and there is room for what is to be put. -/
structure Roomy (l : List Reply) (s : Loop) : Prop where
  refused_eq : s.refused = []
  fits : Reply.fits s.sendlen s.random l

/-- Nothing was refused. -/
def NoneRefused (s : Loop) : Prop := s.refused = []

variable {α : Type} {l : List Reply}

theorem Roomy.noneRefused {s : Loop} (h : Roomy l s) : NoneRefused s := h.refused_eq

/-- **A put that was reckoned with finds room.** -/
theorem triple_packetPut {n : ℕ} {p : Bytes} (hp : p.length = n) :
    Triple (Roomy (.put n :: l)) (packetPut p) (fun _ => Roomy l) fun _ => NoneRefused := by
  constructor
  rintro s ⟨hrefused, hroom, hrest⟩
  have hput : s.hasRoom p.length = true := by
    rw [hp]
    exact decide_eq_true hroom
  rw [packetPut, exec_reads_bind, if_pos hput, exec_modify]
  refine ⟨hrefused, ?_⟩
  rw [Loop.sendlen, sendlen_append, hp]
  exact hrest

/-- `packet_sendall` empties the buffer or returns 0. -/
theorem triple_packetSendall (ok : Bool) : Triple (Roomy (.sendall :: l)) (packetSendall ok)
    (fun sent s => if sent then Roomy l s else NoneRefused s) fun _ => NoneRefused := by
  constructor
  rintro s ⟨hrefused, hrest⟩
  cases ok with
  | true => exact ⟨hrefused, hrest⟩
  | false => exact hrefused

theorem roomy_onChannel {m : ChannelM α} : Keeps (Roomy l) (onChannel m) :=
  fun _ h => ⟨h.refused_eq, h.fits⟩

theorem triple_onChannel {m : ChannelM α} :
    Triple (Roomy l) (onChannel m) (fun _ => Roomy l) fun _ => NoneRefused :=
  roomy_onChannel.triple fun _ _ h => h.noneRefused

/-- A check changes nothing. -/
theorem triple_roomy_check {r : Except Exit α} :
    Triple (Roomy l) (check r) (fun _ => Roomy l) fun _ => NoneRefused :=
  (keeps_check r).triple fun _ _ h => h.noneRefused

theorem triple_roomy_pure (a : α) :
    Triple (Roomy l) (pure a : LoopM α) (fun _ => NoneRefused) fun _ => NoneRefused :=
  triple_pure fun _ h => h.noneRefused

/-- A call whose answer is `answer`, put where there is room for it. -/
def Answers (answer : Loop → List Reply) (m : LoopM α) : Prop :=
  Triple (fun s => Roomy (answer s) s) m (fun _ => NoneRefused) fun _ => NoneRefused

theorem Answers.ite {c : Prop} [Decidable c] {answer answer' : Loop → List Reply}
    {m m' : LoopM α} (hm : Answers answer m) (hm' : Answers answer' m') :
    Answers (fun s => if c then answer s else answer' s) (if c then m else m') := by
  by_cases hc : c
  · simpa only [if_pos hc] using hm
  · simpa only [if_neg hc] using hm'

/-- The last put of a handler. -/
theorem triple_lastPut {n : ℕ} {p : Bytes} (hp : p.length = n) :
    Triple (Roomy [.put n]) (packetPut p) (fun _ => NoneRefused) fun _ => NoneRefused :=
  (triple_packetPut hp).post fun _ _ h => h.noneRefused

/-- A handler that puts nothing. -/
theorem answers_nil {m : LoopM α} (h : Keeps NoneRefused m) : Answers (fun _ => []) m :=
  (h.triple fun _ _ hs => hs).pre fun _ hs => hs.noneRefused

theorem keeps_none_onChannel {m : ChannelM α} : Keeps NoneRefused (onChannel m) := fun _ h => h

/-! ## 3. The handlers -/

theorem length_num32 (x : UInt32) : (num32 x).length = 4 := length_beBytes _ _

theorem answers_adjust : Answers adjustAnswer packetChannelSendWindowadjust := by
  refine triple_reads_bind fun c => Triple.ite (fun _ => ?_) fun hlen => ?_
  · exact triple_pure fun _ h => h.1.noneRefused
  refine Triple.ite (fun _ => ?_) fun hwindow => ?_
  · exact triple_pure fun _ h => h.1.noneRefused
  refine Triple.pre (Triple.bind triple_onChannel fun _ => triple_lastPut (n := 9) ?_) ?_
  · rw [List.length_cons, List.length_append, length_num32, length_num32]
  · rintro s ⟨h, rfl⟩
    rwa [adjustAnswer, if_neg hlen, if_neg hwindow] at h

/-- **Channel data asks for its room itself.** -/
theorem answers_data (r : ReadResult) : Answers (fun _ => []) (packetChannelSendData r) := by
  refine answers_nil ?_
  intro s h
  rw [packetChannelSendData, exec_reads_bind, exec_reads_bind]
  by_cases hready : s.putisready = true
  · rw [if_pos hready]
    have hlimit := dataLimit_le s.chan.channel.maxpacket.toNat
    rcases channelRead_cases ((dataLimit s.chan.channel.maxpacket.toNat : ℤ) - 9) r s.chan with
      ⟨e, he⟩ | ⟨d, -, hexec⟩ | ⟨x, hne, hlen, -, hexec⟩
    · rw [exec_bind, onChannel, exec_zoom, he]
      exact h
    · rw [exec_bind, onChannel, exec_zoom, hexec]
      exact h
    · have hL : PACKET_LIMIT = 4096 := rfl
      have hpos := List.length_pos_of_ne_nil hne
      have hroom : ({ s with chan := ⟨{ s.chan.channel with
          remotewindow := s.chan.channel.remotewindow - UInt32.ofNat x.length },
          .read s.chan.channel.fd1 x :: s.chan.io⟩ } : Loop).hasRoom (SSH_MSG_CHANNEL_DATA ::
            (num32 s.chan.channel.id ++ (num32 (UInt32.ofNat x.length) ++ x))).length = true := by
        refine hasRoom_of_putisready hready ?_
        rw [List.length_cons, List.length_append, List.length_append, length_num32, length_num32]
        omega
      rw [exec_bind, onChannel, exec_zoom, hexec]
      change NoneRefused (exec (if x = [] then _ else _) _).2
      rw [if_neg hne, exec_reads_bind, exec_packetPut hroom]
      exact h
  · rw [if_neg hready, exec_pure]
    exact h

/-- EOF, and what is put behind it. -/
theorem triple_sendEof (c : Bool) :
    Triple (fun s => Roomy (eofAnswer s ++ l) s ∧ s.flagclosesent = c) packetChannelSendEof
      (fun _ s => Roomy l s ∧ s.flagclosesent = c) fun _ => NoneRefused := by
  constructor
  rintro s ⟨h, hclose⟩
  rw [packetChannelSendEof, exec_reads_bind]
  by_cases hsent : s.flageofsent
  · rw [eofAnswer, if_pos hsent] at h
    rw [if_pos hsent, exec_pure]
    exact ⟨h, hclose⟩
  · rw [eofAnswer, if_neg hsent] at h
    obtain ⟨hrefused, hroom, hrest⟩ := h
    have hput : s.hasRoom (SSH_MSG_CHANNEL_EOF :: num32 s.chan.channel.id).length = true := by
      rw [List.length_cons, length_num32]
      exact decide_eq_true hroom
    rw [if_neg hsent, exec_reads_bind, exec_bind_ok (exec_packetPut hput), exec_modify]
    refine ⟨⟨hrefused, ?_⟩, hclose⟩
    rw [List.length_cons, length_num32]
    change Reply.fits ((s.sendbuf ++ [_]).map Prod.snd).sum _ l
    rw [sendlen_append]
    exact hrest

theorem answers_eof : Answers eofAnswer packetChannelSendEof := by
  constructor
  intro s h
  have hrun := (triple_sendEof (l := []) s.flagclosesent).run s ⟨by rwa [List.append_nil], rfl⟩
  exact hrun.mono (fun _ _ ht => ht.1.noneRefused) fun _ _ ht => ht

/-- What follows a `packet_sendall` that is not given up on. -/
theorem triple_sendall_or {ok : Bool} {a : α} {m : LoopM α}
    (hm : Triple (Roomy l) m (fun _ => NoneRefused) fun _ => NoneRefused) :
    Triple (Roomy (.sendall :: l))
      (packetSendall ok >>= fun sent => if ¬ sent = true then pure a else m)
      (fun _ => NoneRefused) fun _ => NoneRefused := by
  refine Triple.bind (triple_packetSendall ok) fun sent => ?_
  cases sent with
  | true => exact hm
  | false => exact triple_pure fun _ h => h

/-- What follows a `packet_sendall` that the session dies without. -/
theorem triple_sendall_die {ok : Bool} {trouble : String} {m : LoopM α}
    (hm : Triple (Roomy l) m (fun _ => NoneRefused) fun _ => NoneRefused) :
    Triple (Roomy (.sendall :: l))
      (packetSendall ok >>= fun sent => dieUnless sent trouble >>= fun _ => m)
      (fun _ => NoneRefused) fun _ => NoneRefused := by
  refine Triple.bind (triple_packetSendall ok) fun sent => ?_
  cases sent with
  | true => exact Triple.bind triple_roomy_check fun _ => hm
  | false => exact ⟨fun _ h => h⟩

theorem answers_close (exitcode : UInt32) (ok : Bool × Bool) :
    Answers closeAnswer (packetChannelSendClose exitcode ok) := by
  have hrest : ∀ c, Triple (fun s => Roomy (if c then [] else [.put 25, .sendall, .put 5, .sendall])
      s ∧ s.flagclosesent = c) (do
        let sent ← reads fun s => s.flagclosesent
        if sent then return true
        else do
          let id ← reads fun s => s.chan.channel.id
          packetPut (exitStatus id exitcode)
          let sent ← packetSendall ok.1
          if ¬ sent then return false
          else do
            packetPut (channelClose id)
            let sent ← packetSendall ok.2
            if ¬ sent then return false
            else do
              modify fun s => { s with flagclosesent := true }
              return true) (fun _ => NoneRefused) fun _ => NoneRefused := by
    intro c
    refine triple_reads_bind fun sent => Triple.ite (fun _ => ?_) fun hsent => ?_
    · exact triple_pure fun _ h => h.1.1.noneRefused
    refine Triple.pre (P := Roomy [.put 25, .sendall, .put 5, .sendall]) ?_ ?_
    · refine triple_reads_any fun id => Triple.bind (triple_packetPut ?_) fun _ =>
        triple_sendall_or (Triple.bind (triple_packetPut ?_) fun _ =>
          triple_sendall_or (Triple.bind (Q := fun _ => NoneRefused) ?_ fun _ => ?_))
      · rw [exitStatus, List.length_cons, List.length_append, List.length_append, length_sshString,
          List.length_cons, length_num32, length_num32]
        rfl
      · rw [channelClose, List.length_cons, length_num32]
      · exact triple_modify fun _ h => h.noneRefused
      · exact triple_pure fun _ h => h
    · rintro s ⟨⟨h, rfl⟩, rfl⟩
      rwa [if_neg hsent] at h
  constructor
  intro s h
  exact (Triple.bind (triple_sendEof s.flagclosesent) fun _ => hrest s.flagclosesent).run s ⟨h, rfl⟩

theorem answers_unimplemented (seq : UInt32) (sent : Bool) :
    Answers (fun _ => [.put 5, .sendall]) (packetUnimplemented seq sent) := by
  refine Triple.bind (triple_packetPut ?_) fun _ => ?_
  · rw [List.length_cons, length_num32]
  · refine (triple_packetSendall (l := []) sent).post ?_
    intro sent s h
    cases sent with
    | true => exact h.noneRefused
    | false => exact h

theorem answers_rekey (r : RekeyEnv) : Answers (fun _ => rekeyAnswer r) (rekey r) := by
  refine Triple.bind (triple_packetPut ?_) fun _ => triple_sendall_die (triple_check_bind ?_ ?_)
  · rw [List.length_cons, Nat.add_comm]
  · exact fun _ _ h => h.noneRefused
  intro reply hreply
  rw [hreply]
  refine Triple.bind (triple_packetPut ?_) fun _ => Triple.bind (triple_packetPut rfl) fun _ =>
    triple_sendall_die (triple_roomy_check.post fun _ _ h => h.noneRefused)
  rw [List.length_cons, Nat.add_comm]

theorem answers_recvData (b : Bytes) : Answers (fun _ => []) (packetChannelRecvData b) :=
  answers_nil ((keeps_channelHead _ _).bind fun _ => (keeps_check _).bind fun _ =>
    (keeps_check _).bind fun _ => keeps_none_onChannel)

theorem answers_recvWindowadjust (b : Bytes) :
    Answers (fun _ => []) (packetChannelRecvWindowadjust b) :=
  answers_nil ((keeps_channelHead _ _).bind fun _ => (keeps_check _).bind fun _ =>
    (keeps_check _).bind fun _ => keeps_none_onChannel)

theorem answers_recvEof (b : Bytes) : Answers (fun _ => []) (packetChannelRecvEof b) :=
  answers_nil ((keeps_channelHead _ _).bind fun _ => (keeps_check _).bind fun _ =>
    keeps_none_onChannel)

theorem answers_recvClose (b : Bytes) : Answers eofAnswer (packetChannelRecvClose b) := by
  have hkept : ∀ {β : Type} {m : LoopM β}, Keeps (fun s => Roomy (eofAnswer s) s) m →
      Triple (fun s => Roomy (eofAnswer s) s) m (fun _ s => Roomy (eofAnswer s) s)
        fun _ => NoneRefused := fun hm => hm.triple fun _ _ hs => hs.noneRefused
  refine (hkept (keeps_channelHead _ _)).bind fun _ => (hkept (keeps_check _)).bind fun _ => ?_
  exact Triple.bind answers_eof fun _ => triple_modify fun _ h => h

/-- The part of a `CHANNEL_OPEN` that decides between the two answers. -/
theorem answers_open (b : Bytes) : Answers (fun _ => openAnswer b) (packetChannelOpen b) := by
  refine triple_check_bind (fun _ _ h => h.noneRefused) fun ch hch => ?_
  refine triple_check_bind (fun _ _ h => h.noneRefused) fun _ _ => ?_
  refine triple_check_bind (fun _ _ h => h.noneRefused) fun chan hchan => ?_
  refine triple_check_bind (fun _ _ h => h.noneRefused) fun id _ => ?_
  refine triple_check_bind (fun _ _ h => h.noneRefused) fun remotewindow _ => ?_
  refine triple_check_bind (fun _ _ h => h.noneRefused) fun maxpacket _ => ?_
  rw [packetparserUint8_ok hch, Nat.zero_add] at hchan
  rw [openAnswer, hchan]
  refine Triple.ite (fun hsession => ?_) fun hsession => ?_
  · simp only [if_pos hsession]
    refine Triple.bind triple_roomy_check fun _ => triple_reads_any fun name =>
      Triple.bind triple_onChannel fun localwindow => triple_lastPut ?_
    simp only [List.length_cons, List.length_append, length_num32]
  · simp only [if_neg hsession]
    refine triple_lastPut ?_
    simp only [List.length_cons, List.length_append, length_num32, length_sshString]
    rfl

theorem answers_request (b : Bytes) (e : ExecEnv) :
    Answers (fun _ => requestAnswer b) (packetChannelRequest b e) := by
  refine triple_check_bind (fun _ _ h => h.noneRefused) fun ch hch => ?_
  refine triple_check_bind (fun _ _ h => h.noneRefused) fun _ _ => ?_
  refine triple_check_bind (fun _ _ h => h.noneRefused) fun id hid => ?_
  refine triple_reads_any fun ours => ?_
  refine triple_check_bind (fun _ _ h => h.noneRefused) fun _ _ => ?_
  refine triple_check_bind (fun _ _ h => h.noneRefused) fun cmd hcmd => ?_
  refine triple_check_bind (fun _ _ h => h.noneRefused) fun wantreply hwant => ?_
  rw [packetparserUint32_ok hid, packetparserUint8_ok hch] at hcmd
  rw [requestAnswer, hcmd]
  simp only [hwant]
  have hexec : ∀ cmd e, Keeps (Roomy (if wantreply.1 = 0 then [] else [.put 5]))
      (execOrBug cmd e) := fun cmd e => roomy_onChannel.bind fun _ => keeps_check _
  refine Triple.bind ((keeps_requestAccepted hexec _ _ _ _).triple fun _ _ h => h.noneRefused)
    fun accepted => ?_
  refine Triple.ite (fun _ => triple_roomy_pure _) fun hwanted => ?_
  rw [if_neg hwanted]
  refine triple_lastPut ?_
  rw [List.length_cons, length_num32]

/-- **A packet whose answer finds room refuses nothing.** -/
theorem answers_dispatch (b : Bytes) (p : PacketEvent) :
    Answers (packetAnswer b p) (dispatch b p) := by
  have hthen : ∀ {m : LoopM Unit} {answer : Loop → List Reply} (go : Bool), Answers answer m →
      Answers answer (m >>= fun _ => (pure go : LoopM Bool)) :=
    fun go hm => Triple.bind hm fun _ => triple_pure fun _ h => h
  unfold dispatch packetAnswer
  refine (hthen _ (answers_open b)).ite ?_
  refine (hthen _ (answers_request b _)).ite ?_
  refine (hthen _ (answers_recvData b)).ite ?_
  refine Answers.ite (triple_roomy_pure _) ?_
  refine (hthen _ (answers_recvWindowadjust b)).ite ?_
  refine (hthen _ (answers_recvEof b)).ite ?_
  refine (hthen _ (answers_recvClose b)).ite ?_
  refine (hthen _ (answers_rekey _)).ite ?_
  exact Triple.bind (answers_unimplemented _ _) fun _ =>
    ((keeps_check _).bind fun _ => keeps_pure _).triple fun _ _ h => h

theorem answers_send (w : WriteResult) : Answers (fun _ => []) (sendToNetwork w) :=
  answers_nil (KeptBySending.sendToNetwork (fun _ _ _ _ h => h) w)

/-- **One call**: where its answer finds room, nothing is refused. -/
theorem answers_call (c : LoopCall) : Answers (fun s => c.answer s) c.prog := by
  have hdrop : ∀ {β : Type} {m : LoopM β} {answer : Loop → List Reply}, Answers answer m →
      Answers answer (m >>= fun _ => (pure () : LoopM Unit)) :=
    fun hm => Triple.bind hm fun _ => triple_pure fun _ h => h
  cases c with
  | write w => exact answers_nil (keeps_none_onChannel.bind fun _ => keeps_check _)
  | adjust => exact answers_adjust
  | data r => exact answers_data r
  | waitnohang => exact hdrop (answers_nil keeps_none_onChannel)
  | eof => exact answers_eof
  | close exitcode ok => exact hdrop (answers_close exitcode ok)
  | send w => exact answers_send w
  | dispatch b p => exact hdrop (answers_dispatch b p)

/-! ## 4. Runs -/

/-- A run of the main loop is a run of the calls it makes: what holds of them, each in the state it
is made in, is what the run allows. -/
theorem mainLoop_calls {allowed : Loop → LoopCall → Prop} (envs : List LoopEnv) (s : Loop)
    (h : ∀ x ∈ mainLoopCalls envs s, allowed x.1 x.2) :
    Run loopCall allowed s (exec (mainLoop envs) s).2 := (makes_mainLoop envs s).run h

/-- A call that finds its room refuses nothing. -/
theorem noneRefused_call {s : Loop} {c : LoopCall} (hs : NoneRefused s) (hroom : RoomFor s c) :
    NoneRefused (exec c.prog s).2 := by
  have hrun := (answers_call c).run s ⟨hs, hroom⟩
  rcases hx : exec c.prog s with ⟨r, t⟩
  rw [hx] at hrun
  cases r with
  | ok a => exact hrun
  | error e => exact hrun

theorem noneRefused_start (name : Bytes) (random : ℕ → Bool) :
    NoneRefused (loopStart name random) := rfl

theorem noneRefused_run {s t : Loop} (hs : NoneRefused s) (hrun : Run loopCall RoomFor s t) :
    NoneRefused t := by
  refine hrun.invariant NoneRefused hs fun u c u' hu hroom hcall => ?_
  obtain rfl := (Option.some.inj hcall).symm
  exact noneRefused_call hu hroom

/-- **Nothing is refused in a run in which every answer finds its room**: from the state an
authorized session enters the loop with, whatever the calls, their order and the pace of the
network. -/
theorem loop_room (name : Bytes) (random : ℕ → Bool) (s : Loop)
    (hs : Run loopCall RoomFor (loopStart name random) s) : s.refused = [] :=
  noneRefused_run (noneRefused_start name random) hs

/-- **Nothing is refused by the main loop** while the answers to the calls it makes find their
room. -/
theorem mainLoop_room (envs : List LoopEnv) (name : Bytes) (random : ℕ → Bool)
    (hroom : ∀ x ∈ mainLoopCalls envs (loopStart name random), RoomFor x.1 x.2) :
    (exec (mainLoop envs) (loopStart name random)).2.refused = [] :=
  noneRefused_run (noneRefused_start name random) (mainLoop_calls envs _ hroom)

/-- The opening of a channel. -/
def sessionOpen : LoopCall :=
  .dispatch (SSH_MSG_CHANNEL_OPEN :: (sshString (ascii "session") ++ (num32 0 ++ (num32 2097152 ++
    num32 32768)))) (arrives [])

/-- An opened channel. -/
theorem loop_room_open : ∃ s, Run loopCall RoomFor (loopStart (ascii "admin") fun _ => false) s ∧
    s.put ≠ [] ∧ s.refused = [] := by
  have hroom : RoomFor (loopStart (ascii "admin") fun _ => false) sessionOpen :=
    ⟨by decide, trivial⟩
  have hopen : Run loopCall RoomFor (loopStart (ascii "admin") fun _ => false)
      (exec sessionOpen.prog (loopStart (ascii "admin") fun _ => false)).2 :=
    Run.start.next hroom rfl
  exact ⟨_, hopen, by decide +kernel, loop_room (ascii "admin") (fun _ => false) _ hopen⟩

/-- A `CHANNEL_OPEN` that is refused: 44 bytes on the wire, answered with 92. -/
def unknownOpen : Bytes :=
  SSH_MSG_CHANNEL_OPEN :: (sshString (ascii "x") ++ (num32 0 ++ (num32 1 ++ num32 1)))

/-- Two reads of 94 such packets each, while the network takes nothing. -/
def manyOpens : List LoopEnv :=
  [{ quietEnv with
      sendReady := false
      packets := List.replicate 94 (arrives unknownOpen) },
    { quietEnv with
      sendReady := false
      packets := List.replicate 94 (arrives unknownOpen) }]

/-- **A client that reads nothing for two iterations ends its session in `bug_nomem`.** -/
theorem manyOpens_refused :
    (exec (mainLoop manyOpens) (loopStart (ascii "admin") fun _ => false)).1 =
      .error (.bug .ENOMEM) ∧
    (exec (mainLoop manyOpens) (loopStart (ascii "admin") fun _ => false)).2.refused.length =
      1 := by
  have hrun : (match exec (mainLoop manyOpens) (loopStart (ascii "admin") fun _ => false) with
    | (.error (.bug .ENOMEM), s) => decide (s.refused.length = 1)
    | _ => false) = true := by decide +kernel
  revert hrun
  generalize exec (mainLoop manyOpens) (loopStart (ascii "admin") fun _ => false) = r
  intro hrun
  split at hrun
  · exact ⟨rfl, of_decide_eq_true hrun⟩
  · cases hrun

end Glossh.Ssh
