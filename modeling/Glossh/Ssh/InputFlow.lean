/-
# From the client to the shell

A client that sends only what it was granted, the messages on their way, and the server's
`channel_put`, `channel_write` and `packet_channel_send_windowadjust`.  Data and adjusts arrive in
any order.

`view` forgets all but the sizes: the window the server counts in 32 bits, the client's credit and
what is in flight are a `Credit`, and every step is one of its operations.  With the conservation
law the buffer has room for whatever arrives.

The window is above half of the buffer's size whenever the buffer is empty (`Granted`).  By the
conservation law that is credit which the client has, has used or is about to get: `input_flow`.
-/
import Glossh.Lib.Credit
import Glossh.Lib.Run
import Glossh.Ssh.MainLoop

namespace Glossh.Ssh

open Bytes Prog

/-! ## 1. The system -/

/-- The server, the client's credit, and the messages in flight. -/
structure InputSystem where
  server : Loop
  credit : ℕ
  data : List Bytes
  adjusts : List UInt32

inductive InputEvent where
  /-- The client sends data, within its credit. -/
  | clientSend (x : Bytes)
  /-- A WINDOW_ADJUST in flight reaches the client. -/
  | clientAdjust (i : ℕ)
  /-- Data in flight reaches `channel_put`. -/
  | deliver (i : ℕ)
  | exec (cmd : Option Bytes) (e : ExecEnv)
  /-- `channel_write`, and the adjust behind it. -/
  | write (w : WriteResult)
  | send (w : WriteResult)

/-- The number in a WINDOW_ADJUST. -/
def windowAdjustOf (p : Bytes) : Option UInt32 :=
  if p.headD 0 = SSH_MSG_CHANNEL_WINDOW_ADJUST then some (UInt32.ofNat (ofBe ((p.drop 5).take 4)))
  else none

/-- The adjusts the server put on its way to `t` are in flight. -/
def InputSystem.serverAt (s : InputSystem) (t : Loop) : InputSystem :=
  { s with
    server := t
    adjusts := s.adjusts ++ (t.put.drop s.server.put.length).filterMap windowAdjustOf }

/-- A step of the server that is not the end of the session. -/
def serverStep (s : InputSystem) (m : LoopM Unit) : Option InputSystem :=
  match exec m s.server with
  | (.ok _, t) => some (s.serverAt t)
  | (.error _, _) => none

def inputStep (s : InputSystem) : InputEvent → Option InputSystem
  | .clientSend x =>
    if x.length ≤ s.credit then
      some { s with credit := s.credit - x.length, data := s.data ++ [x] }
    else none
  | .clientAdjust i =>
    match s.adjusts[i]? with
    | none => none
    | some a => some { s with
        credit := s.credit + a.toNat
        adjusts := s.adjusts.eraseIdx i }
  | .deliver i =>
    match s.data[i]? with
    | none => none
    | some x => serverStep { s with data := s.data.eraseIdx i } (onChannel (channelPut x))
  | .exec cmd e => serverStep s (execOrBug cmd e)
  | .write w => serverStep s (writeToChild w)
  | .send w => serverStep s (sendToNetwork w)

/-- A channel that was just opened, its window told to the client. -/
def inputStart (server : Loop) (localwindow : UInt32) : InputSystem where
  server := server
  credit := localwindow.toNat
  data := []
  adjusts := []

namespace InputSystem

/-- `channel.len0`. -/
def len0 (s : InputSystem) : ℕ := s.server.chan.channel.buf0.length

/-- `channel.localwindow`. -/
def localwindow (s : InputSystem) : ℕ := s.server.chan.channel.localwindow.toNat

/-- The sizes. -/
def view (s : InputSystem) : Credit where
  window := s.localwindow
  credit := s.credit
  data := s.data.map List.length
  grants := s.adjusts.map UInt32.toNat

/-- The conservation law, and room in the buffer for the whole window. -/
structure Inv (s : InputSystem) : Prop where
  balanced : s.view.Balanced
  room : s.len0 + s.localwindow ≤ CHANNEL_BUFSIZE

end InputSystem

/-- An empty buffer has more than half of its size as a window; so has the buffer of a channel
without an interpreter, which empties it when it starts. -/
structure Granted (c : Channel) : Prop where
  window : 0 < c.buf0.length ∨ CHANNEL_BUFSIZE / 2 < c.localwindow.toNat
  idle : c.pid = 0 → CHANNEL_BUFSIZE / 2 < c.localwindow.toNat

/-! ## 2. What the server's steps do -/

/-- The number in a WINDOW_ADJUST is read back. -/
theorem windowAdjustOf_num32 (id plus : UInt32) :
    windowAdjustOf (SSH_MSG_CHANNEL_WINDOW_ADJUST :: (num32 id ++ num32 plus)) = some plus := by
  have hid : (num32 id).length = 4 := length_beBytes _ _
  have hplus : (num32 plus).length = 4 := length_beBytes _ _
  have hdrop : (num32 id ++ num32 plus).drop 4 = num32 plus := by
    rw [← hid, List.drop_left]
  rw [windowAdjustOf, List.headD_cons, if_pos rfl, List.drop_succ_cons, hdrop,
    List.take_of_length_le hplus.le, num32, ofBe_beBytes]
  exact congrArg some ((congrArg UInt32.ofNat (Nat.mod_eq_of_lt plus.toNat_lt)).trans
    UInt32.ofNat_toNat)

/-- Where the server put nothing. -/
theorem adjusts_serverAt {s : InputSystem} {t : Loop} (h : t.put = s.server.put) :
    (s.serverAt t).adjusts = s.adjusts := by
  rw [InputSystem.serverAt, h, List.drop_length]
  exact List.append_nil _

/-- Where it put an adjust. -/
theorem adjusts_serverAt_windowadjust {s : InputSystem} {t : Loop} {id plus : UInt32}
    (h : t.put = s.server.put ++
      [SSH_MSG_CHANNEL_WINDOW_ADJUST :: (num32 id ++ num32 plus)]) :
    (s.serverAt t).adjusts = s.adjusts ++ [plus] := by
  rw [InputSystem.serverAt, h, List.drop_left, List.filterMap_cons_some (windowAdjustOf_num32 _ _)]
  rfl

/-- Window and buffer as before or emptier, and no message put. -/
structure SameInput (s t : Loop) : Prop where
  window_eq : t.chan.channel.localwindow = s.chan.channel.localwindow
  length_le : t.chan.channel.buf0.length ≤ s.chan.channel.buf0.length
  put_eq : t.put = s.put

theorem sameInput_channel {s : Loop} {c : ChannelState}
    (hwindow : c.channel.localwindow = s.chan.channel.localwindow)
    (hlength : c.channel.buf0.length ≤ s.chan.channel.buf0.length) :
    SameInput s { s with chan := c } := ⟨hwindow, hlength, rfl⟩

theorem SameInput.inv {s : InputSystem} {t : Loop} (hsame : SameInput s.server t)
    (hinv : s.Inv) : (s.serverAt t).Inv := by
  obtain ⟨hwindow, hlength, hput⟩ := hsame
  obtain ⟨hbalanced, hroom⟩ := hinv
  have hlocal : t.chan.channel.localwindow.toNat = s.localwindow := congrArg UInt32.toNat hwindow
  constructor
  · rw [InputSystem.view, adjusts_serverAt hput]
    change Credit.Balanced ⟨t.chan.channel.localwindow.toNat, s.credit, s.data.map List.length,
      s.adjusts.map UInt32.toNat⟩
    rw [hlocal]
    exact hbalanced
  · have hlen : t.chan.channel.buf0.length ≤ s.len0 := hlength
    change t.chan.channel.buf0.length + t.chan.channel.localwindow.toNat ≤ CHANNEL_BUFSIZE
    omega

theorem serverStep_eq_some {s s' : InputSystem} {m : LoopM Unit} (h : serverStep s m = some s') :
    ∃ t, exec m s.server = (.ok (), t) ∧ s' = s.serverAt t := by
  rw [serverStep] at h
  split at h
  · rename_i u t hexec
    exact ⟨t, hexec, (Option.some.inj h).symm⟩
  · cases h

/-- The window is `w` and the buffer holds at most `n` bytes. -/
def WithinInput (w : UInt32) (n : ℕ) (c : ChannelState) : Prop :=
  c.channel.localwindow = w ∧ c.channel.buf0.length ≤ n

variable {w : UInt32} {n : ℕ}

/-- `channel_write` takes from the buffer and leaves the window alone. -/
theorem keeps_within_channelWrite (r : WriteResult) :
    Keeps (WithinInput w n) (channelWrite r) := by
  refine keeps_channelWrite_of (P := fun c => c.localwindow = w ∧ c.buf0.length ≤ n) ?_ ?_ r
  · exact fun _ h => h
  · rintro c k ⟨hw, hn⟩
    exact ⟨hw, (List.drop_sublist _ _).length_le.trans hn⟩

/-- An interpreter starts with an empty buffer. -/
theorem keeps_within_channelExec (cmd : Option Bytes) (e : ExecEnv) :
    Keeps (WithinInput w n) (channelExec cmd e) := by
  have hio : IgnoresIo (WithinInput w n) := fun _ _ _ _ h => h
  refine ((hio.triple_channelExec cmd e).post ?_).keeps
  rintro ok c (⟨-, h⟩ | ⟨-, d, fd0, fd1, h, -, -, -, hchannel⟩)
  · exact h
  · rw [WithinInput, hchannel]
    exact ⟨h.1, Nat.zero_le _⟩

theorem sameInput_onChannel {α : Type} {m : ChannelM α} {s t : Loop} {r : Except Exit α}
    (hm : ∀ w n, Keeps (WithinInput w n) m) (h : exec (onChannel m) s = (r, t)) :
    SameInput s t := by
  have hkept := hm s.chan.channel.localwindow s.chan.channel.buf0.length s.chan ⟨rfl, le_rfl⟩
  rw [onChannel, exec_zoom] at h
  obtain ⟨-, rfl⟩ := Prod.mk.inj h
  exact sameInput_channel hkept.1 hkept.2

theorem sameInput_exec {cmd : Option Bytes} {e : ExecEnv} {s t : Loop}
    (h : exec (execOrBug cmd e) s = (.ok (), t)) : SameInput s t := by
  rcases hx : exec (onChannel (channelExec cmd e)) s with ⟨r, u⟩
  have hsame := sameInput_onChannel (fun _ _ => keeps_within_channelExec cmd e) hx
  rw [execOrBug, exec_bind, hx] at h
  cases r with
  | error e => cases h
  | ok b =>
    obtain ⟨-, rfl⟩ := Prod.mk.inj h
    exact hsame

/-- The network takes what it takes from the queue. -/
theorem sameInput_send {r : WriteResult} {s t : Loop}
    (h : exec (sendToNetwork r) s = (.ok (), t)) : SameInput s t := by
  have hsame : KeptBySending (SameInput s) := fun _ _ _ hput hu =>
    ⟨hu.window_eq, hu.length_le, hput.trans hu.put_eq⟩
  have hkept := hsame.sendToNetwork r s ⟨rfl, le_rfl, rfl⟩
  rw [h] at hkept
  exact hkept

/-- **Everything `channel_put` can do**: a bug check that leaves the channel as it is, the last of
them for a buffer without room, or the data enters the buffer and leaves the window. -/
theorem channelPut_cases (x : Bytes) (c : ChannelState) :
    exec (channelPut x) c = (.error (.bug .EPROTO), c) ∨
      (c.channel.buf0.length + x.length > CHANNEL_BUFSIZE ∧
        exec (channelPut x) c = (.error (.bug .ENOMEM), c)) ∨
      (0 < c.channel.pid ∧ c.channel.buf0.length + x.length ≤ CHANNEL_BUFSIZE ∧
        exec (channelPut x) c = (.ok (), { c with
          channel := { c.channel with
            buf0 := c.channel.buf0 ++ x
            localwindow := c.channel.localwindow - UInt32.ofNat x.length } })) := by
  rw [channelPut, exec_bugIf_bind]
  split
  · exact .inl rfl
  rw [exec_bugIf_bind]
  split
  · exact .inl rfl
  rename_i hpid
  rw [exec_bugIf_bind]
  split
  · exact .inl rfl
  rw [exec_bugIf_bind]
  split
  · rename_i hfull
    exact .inr (.inl ⟨of_decide_eq_true hfull, rfl⟩)
  · rename_i hfits
    exact .inr (.inr ⟨Int.lt_of_not_ge (of_decide_eq_false (Bool.eq_false_iff.mpr hpid)),
      Nat.le_of_not_lt (of_decide_eq_false (Bool.eq_false_iff.mpr hfits)), rfl⟩)

theorem exec_incrementlocalwindow (x : UInt32) (s : Loop) :
    exec (onChannel (channelIncrementlocalwindow x)) s = (.ok (), { s with
      chan := { s.chan with
        channel := { s.chan.channel with
          localwindow := s.chan.channel.localwindow + x } } }) := rfl

theorem put_append (emitted : List Bytes) (q : List (Bytes × ℕ)) (x : Bytes) (k : ℕ) :
    emitted ++ (q ++ [(x, k)]).map Prod.fst = emitted ++ q.map Prod.fst ++ [x] := by
  rw [List.map_append, ← List.append_assoc]
  rfl

/-- **Everything `packet_channel_send_windowadjust` can do**: nothing above either half of the
buffer's size, or the window becomes what the buffer has left and the difference is put. -/
theorem sendWindowadjust_cases (s : Loop) :
    ((s.chan.channel.buf0.length > CHANNEL_BUFSIZE / 2 ∨
        s.chan.channel.localwindow.toNat > CHANNEL_BUFSIZE / 2) ∧
      exec packetChannelSendWindowadjust s = (.ok (), s)) ∨
    (s.hasRoom 9 = false ∧ ∃ e t, exec packetChannelSendWindowadjust s = (.error e, t)) ∨
    (s.chan.channel.buf0.length ≤ CHANNEL_BUFSIZE / 2 ∧ ∃ plus t,
      plus = UInt32.ofNat (CHANNEL_BUFSIZE - s.chan.channel.buf0.length) -
        s.chan.channel.localwindow ∧
      t.chan.channel.localwindow = s.chan.channel.localwindow + plus ∧
      t.chan.channel.buf0 = s.chan.channel.buf0 ∧ t.chan.channel.pid = s.chan.channel.pid ∧
      t.put = s.put ++ [SSH_MSG_CHANNEL_WINDOW_ADJUST :: (num32 s.chan.channel.id ++ num32 plus)] ∧
      exec packetChannelSendWindowadjust s = (.ok (), t)) := by
  rw [packetChannelSendWindowadjust, exec_reads_bind]
  split
  · rename_i hlen
    exact .inl ⟨.inl hlen, rfl⟩
  split
  · rename_i hwindow
    exact .inl ⟨.inr hwindow, rfl⟩
  rename_i hlen _
  refine .inr ?_
  let plus := UInt32.ofNat (CHANNEL_BUFSIZE - s.chan.channel.buf0.length) -
    s.chan.channel.localwindow
  change (_ ∧ ∃ e t, exec (onChannel (channelIncrementlocalwindow plus) >>= fun _ =>
    packetPut (SSH_MSG_CHANNEL_WINDOW_ADJUST :: (num32 s.chan.channel.id ++ num32 plus))) s =
      (.error e, t)) ∨ _
  rw [exec_bind_ok (exec_incrementlocalwindow plus s), packetPut, exec_reads_bind]
  split
  · refine .inr ⟨Nat.le_of_not_lt hlen, plus, _, rfl, ?_, ?_, ?_, ?_, rfl⟩
    · rfl
    · rfl
    · rfl
    · exact put_append _ _ _ _
  · rename_i hfull
    refine .inl ⟨?_, _, _, rfl⟩
    have hlen : (SSH_MSG_CHANNEL_WINDOW_ADJUST ::
        (num32 s.chan.channel.id ++ num32 plus)).length = 9 := by
      rw [List.length_cons, List.length_append, num32, num32, length_beBytes, length_beBytes]
    rw [hlen] at hfull
    exact Bool.eq_false_iff.mpr hfull

/-! ## 3. Every step keeps the law -/

namespace InputSystem

variable {s s' : InputSystem}

/-- Data in flight is within the window. -/
theorem Inv.length_le (h : s.Inv) {x : Bytes} (hx : x ∈ s.data) : x.length ≤ s.localwindow :=
  h.balanced.le_window (List.mem_map_of_mem hx)

end InputSystem

/-- The buffer has room for what arrives. -/
theorem channelPut_room {s : InputSystem} (hinv : s.Inv) {x : Bytes} (hx : x ∈ s.data) :
    s.len0 + x.length ≤ CHANNEL_BUFSIZE := by
  have hlen := hinv.length_le hx
  have hroom := hinv.room
  omega

theorem channelPut_ne_nomem {s : InputSystem} (hinv : s.Inv) {x : Bytes} (hx : x ∈ s.data) :
    (exec (onChannel (channelPut x)) s.server).1 ≠ .error (.bug .ENOMEM) := by
  have hroom := channelPut_room hinv hx
  rw [InputSystem.len0] at hroom
  rw [onChannel, exec_zoom]
  rcases channelPut_cases x s.server.chan with h | ⟨hfull, -⟩ | ⟨-, -, h⟩
  · rw [h]
    intro hbug
    cases hbug
  · omega
  · rw [h]
    intro hbug
    cases hbug

/-- Data reaches the buffer. -/
theorem deliver_inv {s s' : InputSystem} (hinv : s.Inv) {i : ℕ}
    (h : inputStep s (.deliver i) = some s') : s'.Inv := by
  rw [inputStep] at h
  split at h
  · cases h
  · rename_i x hx
    have hmem : x ∈ s.data := List.mem_of_getElem? hx
    have hlen : x.length ≤ s.server.chan.channel.localwindow.toNat := hinv.length_le hmem
    have hroom : s.server.chan.channel.buf0.length +
      s.server.chan.channel.localwindow.toNat ≤ CHANNEL_BUFSIZE := hinv.room
    rcases channelPut_cases x s.server.chan with hput | ⟨hfull, -⟩ | ⟨-, hfits, hput⟩
    · rw [serverStep, onChannel, exec_zoom, hput] at h
      cases h
    · omega
    · rw [serverStep, onChannel, exec_zoom, hput] at h
      have hs' := Option.some.inj h
      have hadjusts : s'.adjusts = s.adjusts := by
        rw [← hs']
        exact adjusts_serverAt rfl
      have hnat : (UInt32.ofNat x.length).toNat = x.length := by
        exact UInt32.toNat_ofNat_of_lt' (hlen.trans_lt s.server.chan.channel.localwindow.toNat_lt)
      have hwindow : (s.server.chan.channel.localwindow - UInt32.ofNat x.length).toNat =
          s.server.chan.channel.localwindow.toNat - x.length := by
        rw [UInt32.toNat_sub_of_le _ _ (UInt32.le_iff_toNat_le.mpr (by omega)), hnat]
      have hsizes : (s.data.map List.length)[i]? = some x.length := by
        rw [List.getElem?_map, hx]
        rfl
      constructor
      · rw [InputSystem.view, hadjusts, ← hs']
        change Credit.Balanced ⟨(s.server.chan.channel.localwindow -
          UInt32.ofNat x.length).toNat, s.credit, (s.data.eraseIdx i).map List.length,
          s.adjusts.map UInt32.toNat⟩
        rw [hwindow, ← List.eraseIdx_map]
        exact hinv.balanced.deliver hsizes
      · rw [← hs']
        change (s.server.chan.channel.buf0 ++ x).length + (s.server.chan.channel.localwindow -
          UInt32.ofNat x.length).toNat ≤ CHANNEL_BUFSIZE
        rw [List.length_append, hwindow]
        omega

/-- `channel_write`, and what it leaves to the adjust. -/
theorem writeToChild_ok {r : WriteResult} {s u : Loop}
    (h : exec (writeToChild r) s = (.ok (), u)) :
    ∃ t, SameInput s t ∧ exec packetChannelSendWindowadjust t = (.ok (), u) := by
  rcases hx : exec (onChannel (channelWrite r)) s with ⟨b, t⟩
  have hsame := sameInput_onChannel (fun _ _ => keeps_within_channelWrite r) hx
  rw [writeToChild, exec_bind, hx] at h
  cases b with
  | error e => cases h
  | ok ok =>
    cases ok with
    | true => exact ⟨t, hsame, h⟩
    | false => cases h

/-- The adjust makes the window what the buffer has left. -/
theorem windowadjust_toNat {len : ℕ} {window : UInt32} (h : len + window.toNat ≤ CHANNEL_BUFSIZE) :
    (UInt32.ofNat (CHANNEL_BUFSIZE - len) - window).toNat =
        CHANNEL_BUFSIZE - len - window.toNat ∧
      (window + (UInt32.ofNat (CHANNEL_BUFSIZE - len) - window)).toNat = CHANNEL_BUFSIZE - len := by
  have hsize : CHANNEL_BUFSIZE = 131072 := rfl
  have hnat : (UInt32.ofNat (CHANNEL_BUFSIZE - len)).toNat = CHANNEL_BUFSIZE - len :=
    UInt32.toNat_ofNat_of_lt' (Nat.lt_of_le_of_lt (Nat.sub_le _ _) (by decide))
  have hsub : (UInt32.ofNat (CHANNEL_BUFSIZE - len) - window).toNat =
      CHANNEL_BUFSIZE - len - window.toNat := by
    rw [UInt32.toNat_sub_of_le _ _ (UInt32.le_iff_toNat_le.mpr (by omega)), hnat]
  refine ⟨hsub, ?_⟩
  rw [UInt32.toNat_add, hsub, Nat.mod_eq_of_lt (by omega)]
  omega

/-- **The write and its adjust**: the law is kept, and an empty buffer leaves the client more than
half of it as a window. -/
theorem write_inv {s s' : InputSystem} (hinv : s.Inv) {r : WriteResult}
    (h : inputStep s (.write r) = some s') :
    s'.Inv ∧ (0 < s'.len0 ∨ CHANNEL_BUFSIZE / 2 < s'.localwindow) := by
  obtain ⟨u, hexec, rfl⟩ := serverStep_eq_some h
  obtain ⟨t, hsame, hadjust⟩ := writeToChild_ok hexec
  have hroom : t.chan.channel.buf0.length + t.chan.channel.localwindow.toNat ≤ CHANNEL_BUFSIZE :=
    (hsame.inv hinv).room
  rcases sendWindowadjust_cases t with ⟨habove, hsent⟩ | ⟨-, e, v, hsent⟩ |
      ⟨hlow, plus, v, hplus, hwindow, hbuf, -, hput, hsent⟩
  · rw [hsent] at hadjust
    obtain ⟨-, rfl⟩ := Prod.mk.inj hadjust
    refine ⟨hsame.inv hinv, ?_⟩
    rcases habove with hlen | hwindow
    · exact .inl (Nat.zero_lt_of_lt hlen)
    · exact .inr hwindow
  · rw [hsent] at hadjust
    cases hadjust
  · rw [hsent] at hadjust
    obtain ⟨-, rfl⟩ := Prod.mk.inj hadjust
    obtain ⟨hgrant, hfull⟩ := windowadjust_toNat hroom
    rw [← hplus] at hgrant hfull
    rw [← hwindow] at hfull
    have hgranted : (s.serverAt v).adjusts = s.adjusts ++ [plus] :=
      adjusts_serverAt_windowadjust (hput.trans (congrArg (· ++ _) hsame.put_eq))
    have hsum : v.chan.channel.localwindow.toNat = s.localwindow + plus.toNat := by
      have hsame_window : t.chan.channel.localwindow.toNat = s.localwindow :=
        congrArg UInt32.toNat hsame.window_eq
      omega
    refine ⟨⟨?_, ?_⟩, ?_⟩
    · rw [InputSystem.view, hgranted, List.map_append]
      change Credit.Balanced ⟨v.chan.channel.localwindow.toNat, s.credit, s.data.map List.length,
        s.adjusts.map UInt32.toNat ++ [plus.toNat]⟩
      rw [hsum]
      exact hinv.balanced.grant plus.toNat
    · change v.chan.channel.buf0.length + v.chan.channel.localwindow.toNat ≤ CHANNEL_BUFSIZE
      rw [hfull, hbuf]
      omega
    · change 0 < v.chan.channel.buf0.length ∨
        CHANNEL_BUFSIZE / 2 < v.chan.channel.localwindow.toNat
      rw [hfull, hbuf]
      have hsize : CHANNEL_BUFSIZE = 131072 := rfl
      omega

/-- **What one step keeps.** -/
theorem inputStep_inv {s s' : InputSystem} (hinv : s.Inv) (ev : InputEvent)
    (h : inputStep s ev = some s') : s'.Inv := by
  cases ev with
  | clientSend x =>
    rw [inputStep] at h
    split at h
    · rename_i hcredit
      obtain rfl := (Option.some.inj h).symm
      refine ⟨?_, hinv.room⟩
      change Credit.Balanced ⟨s.localwindow, s.credit - x.length, (s.data ++ [x]).map List.length,
        s.adjusts.map UInt32.toNat⟩
      rw [List.map_append]
      exact hinv.balanced.send hcredit
    · cases h
  | clientAdjust i =>
    rw [inputStep] at h
    split at h
    · cases h
    · rename_i a ha
      obtain rfl := (Option.some.inj h).symm
      refine ⟨?_, hinv.room⟩
      have hgrant : (s.adjusts.map UInt32.toNat)[i]? = some a.toNat := by
        rw [List.getElem?_map, ha]
        rfl
      change Credit.Balanced ⟨s.localwindow, s.credit + a.toNat, s.data.map List.length,
        (s.adjusts.eraseIdx i).map UInt32.toNat⟩
      rw [← List.eraseIdx_map]
      exact hinv.balanced.receive hgrant
  | deliver i => exact deliver_inv hinv h
  | exec cmd e =>
    obtain ⟨t, hexec, rfl⟩ := serverStep_eq_some h
    exact (sameInput_exec hexec).inv hinv
  | write r => exact (write_inv hinv h).1
  | send r =>
    obtain ⟨t, hexec, rfl⟩ := serverStep_eq_some h
    exact (sameInput_send hexec).inv hinv

/-! ## 4. An empty buffer has a window -/

theorem keeps_granted_channelExec (cmd : Option Bytes) (e : ExecEnv) :
    Keeps (fun c => Granted c.channel) (channelExec cmd e) := by
  have hio : IgnoresIo fun c => Granted c.channel := fun _ _ _ _ h => h
  refine ((hio.triple_channelExec cmd e).post ?_).keeps
  rintro ok c (⟨-, h⟩ | ⟨-, d, fd0, fd1, h, -, -, hpid, hchannel⟩)
  · exact h
  · rw [hchannel]
    exact ⟨.inr (h.idle hpid), (fun h => by cases h)⟩

/-- `channel_write` that returns has an interpreter, and leaves it. -/
theorem channelWrite_pid {r : WriteResult} {ok : Bool} {c d : ChannelState}
    (h : exec (channelWrite r) c = (.ok ok, d)) : 0 < d.channel.pid := by
  have hkept := keeps_channelWrite_of (P := fun x => x.pid = c.channel.pid) (fun _ h => h)
    (fun _ _ h => h) r c rfl
  rw [h] at hkept
  rw [channelWrite] at h
  obtain ⟨-, h⟩ := exec_bugIf_ok h
  obtain ⟨hpid, -⟩ := exec_bugIf_ok h
  have hpos : 0 < c.channel.pid := Int.lt_of_not_ge (of_decide_eq_false hpid)
  rwa [← hkept] at hpos

theorem writeToChild_pid {r : WriteResult} {s u : Loop}
    (h : exec (writeToChild r) s = (.ok (), u)) : 0 < u.chan.channel.pid := by
  rcases hx : exec (channelWrite r) s.chan with ⟨b, d⟩
  have hzoom : exec (onChannel (channelWrite r)) s = (b, { s with chan := d }) := by
    rw [onChannel, exec_zoom, hx]
  rw [writeToChild, exec_bind, hzoom] at h
  cases b with
  | error e => cases h
  | ok ok =>
    have hpid := channelWrite_pid hx
    cases ok with
    | false => cases h
    | true =>
      have hadjust : exec packetChannelSendWindowadjust { s with chan := d } = (.ok (), u) := h
      rcases sendWindowadjust_cases { s with chan := d } with ⟨-, hsent⟩ | ⟨-, e, v, hsent⟩ |
          ⟨-, plus, v, -, -, -, hsame, -, hsent⟩
      · rw [hsent] at hadjust
        obtain ⟨-, rfl⟩ := Prod.mk.inj hadjust
        exact hpid
      · rw [hsent] at hadjust
        cases hadjust
      · rw [hsent] at hadjust
        obtain ⟨-, rfl⟩ := Prod.mk.inj hadjust
        rw [hsame]
        exact hpid

/-- **What one step keeps.** -/
theorem inputStep_granted {s s' : InputSystem} (hinv : s.Inv)
    (hgranted : Granted s.server.chan.channel) (ev : InputEvent)
    (h : inputStep s ev = some s') : Granted s'.server.chan.channel := by
  cases ev with
  | clientSend x =>
    rw [inputStep] at h
    split at h
    · obtain rfl := (Option.some.inj h).symm
      exact hgranted
    · cases h
  | clientAdjust i =>
    rw [inputStep] at h
    split at h
    · cases h
    · obtain rfl := (Option.some.inj h).symm
      exact hgranted
  | deliver i =>
    rw [inputStep] at h
    split at h
    · cases h
    · rename_i x hx
      rcases channelPut_cases x s.server.chan with hput | ⟨-, hput⟩ | ⟨hpid, -, hput⟩
      · rw [serverStep, onChannel, exec_zoom, hput] at h
        cases h
      · rw [serverStep, onChannel, exec_zoom, hput] at h
        cases h
      · rw [serverStep, onChannel, exec_zoom, hput] at h
        obtain rfl := (Option.some.inj h).symm
        refine ⟨?_, fun hzero => absurd hzero (ne_of_gt hpid)⟩
        change 0 < (s.server.chan.channel.buf0 ++ x).length ∨
          CHANNEL_BUFSIZE / 2 < (s.server.chan.channel.localwindow - UInt32.ofNat x.length).toNat
        cases x with
        | nil =>
          have hzero : UInt32.ofNat 0 = 0 := rfl
          rw [List.append_nil, List.length_nil, hzero, UInt32.sub_zero]
          exact hgranted.window
        | cons b x =>
          rw [List.length_append, List.length_cons]
          exact .inl (by omega)
  | exec cmd e =>
    obtain ⟨t, hexec, rfl⟩ := serverStep_eq_some h
    have hkept : Keeps (fun u => Granted u.chan.channel) (execOrBug cmd e) :=
      Keeps.bind (fun u hu => keeps_granted_channelExec cmd e u.chan hu) fun _ => keeps_check _
    have hend := hkept s.server hgranted
    rw [hexec] at hend
    exact hend
  | write r =>
    have hwindow := (write_inv hinv h).2
    obtain ⟨t, hexec, rfl⟩ := serverStep_eq_some h
    exact ⟨hwindow, fun hzero => absurd hzero (ne_of_gt (writeToChild_pid hexec))⟩
  | send r =>
    obtain ⟨t, hexec, rfl⟩ := serverStep_eq_some h
    have hkept : KeptBySending fun u => Granted u.chan.channel := fun _ _ _ _ hu => hu
    have hend := hkept.sendToNetwork r s.server hgranted
    rw [hexec] at hend
    exact hend

/-! ## 5. A shell that takes everything -/

/-- An interpreter takes input: the checks of `channel_put` and `channel_write`. -/
structure TakesInput (c : Channel) : Prop where
  maxpacket : c.maxpacket ≠ 0
  pid : 0 < c.pid
  fd0 : c.fd0 ≠ -1

/-- Behind the three checks. -/
theorem TakesInput.exec_checks {c : ChannelState} (h : TakesInput c.channel) {α : Type}
    (g : ChannelM α) :
    exec (bugIf (fun c => c.maxpacket = 0) .EPROTO >>= fun _ =>
      bugIf (fun c => c.pid ≤ 0) .EPROTO >>= fun _ =>
      bugIf (fun c => c.fd0 = -1) .EPROTO >>= fun _ => g) c = exec g c := by
  rw [exec_bugIf_bind, if_neg (by simpa using h.maxpacket), exec_bugIf_bind,
    if_neg (by simpa using h.pid), exec_bugIf_bind, if_neg (by simpa using h.fd0)]

/-- Data that finds room is delivered. -/
theorem inputStep_deliver {s : InputSystem} {i : ℕ} {x : Bytes} (hx : s.data[i]? = some x)
    (htakes : TakesInput s.server.chan.channel) (hroom : s.len0 + x.length ≤ CHANNEL_BUFSIZE) :
    ∃ s', inputStep s (.deliver i) = some s' ∧ s'.server = { s.server with
        chan := { s.server.chan with
          channel := { s.server.chan.channel with
            buf0 := s.server.chan.channel.buf0 ++ x
            localwindow := s.server.chan.channel.localwindow - UInt32.ofNat x.length } } } ∧
      s'.credit = s.credit ∧ s'.data = s.data.eraseIdx i ∧ s'.adjusts = s.adjusts := by
  have hfits : ¬ s.server.chan.channel.buf0.length + x.length > CHANNEL_BUFSIZE :=
    Nat.not_lt.mpr hroom
  have hput : exec (channelPut x) s.server.chan = (.ok (), { s.server.chan with
      channel := { s.server.chan.channel with
        buf0 := s.server.chan.channel.buf0 ++ x
        localwindow := s.server.chan.channel.localwindow - UInt32.ofNat x.length } }) := by
    rw [channelPut, htakes.exec_checks, exec_bugIf_bind, if_neg (by simpa using hfits)]
    rfl
  refine ⟨({ s with data := s.data.eraseIdx i } : InputSystem).serverAt _, ?_, rfl, rfl, rfl, ?_⟩
  · simp only [inputStep, hx]
    rw [serverStep, onChannel, exec_zoom, hput]
  · exact adjusts_serverAt rfl

/-- The shell takes the whole buffer. -/
theorem channelWrite_all {c : ChannelState} (htakes : TakesInput c.channel)
    (heof : c.channel.remoteeof = false) {k : ℕ} (hk : c.channel.buf0.length = k + 1) :
    exec (channelWrite (.wrote (k + 1))) c = (.ok true,
      ⟨{ c.channel with buf0 := [] }, .wrote c.channel.fd0 c.channel.buf0 :: c.io⟩) := by
  have hall : c.channel.buf0.take (k + 1) = c.channel.buf0 ∧ c.channel.buf0.drop (k + 1) = [] :=
    ⟨List.take_of_length_le hk.le, List.drop_eq_nil_of_le hk.le⟩
  rw [channelWrite, htakes.exec_checks, exec_reads_bind, if_neg (by omega)]
  simp only [fdEvent, updateChannel, exec_modify_bind, exec_reads_bind, hall.1, hall.2, heof,
    Bool.false_and]
  rfl

/-- **Where the shell takes the whole buffer, the whole buffer is granted again**: the window is
full, and the client is told what it did not have of it. -/
theorem inputStep_writeAll {s : InputSystem} (htakes : TakesInput s.server.chan.channel)
    (heof : s.server.chan.channel.remoteeof = false) (hlen : 0 < s.len0)
    (hwindow : s.localwindow ≤ CHANNEL_BUFSIZE / 2) (hroom : s.server.hasRoom 9 = true) :
    ∃ s', inputStep s (.write (.wrote s.len0)) = some s' ∧ s'.len0 = 0 ∧
      s'.localwindow = CHANNEL_BUFSIZE ∧ s'.credit = s.credit ∧ s'.data = s.data ∧
      s'.adjusts = s.adjusts ++ [UInt32.ofNat (CHANNEL_BUFSIZE - s.localwindow)] := by
  obtain ⟨k, hk⟩ : ∃ k, s.len0 = k + 1 := ⟨s.len0 - 1, by omega⟩
  let c : ChannelState := ⟨{ s.server.chan.channel with buf0 := [] },
    .wrote s.server.chan.channel.fd0 s.server.chan.channel.buf0 :: s.server.chan.io⟩
  let t : Loop := { s.server with chan := c }
  have hwrite : exec (onChannel (channelWrite (.wrote s.len0))) s.server = (.ok true, t) := by
    rw [onChannel, exec_zoom, hk, channelWrite_all htakes heof hk]
  have hall : exec (writeToChild (.wrote s.len0)) s.server =
      exec packetChannelSendWindowadjust t := by
    rw [writeToChild, exec_bind_ok hwrite]
    rfl
  have hfits : 0 + t.chan.channel.localwindow.toNat ≤ CHANNEL_BUFSIZE := by
    rw [Nat.zero_add]
    exact hwindow.trans (Nat.div_le_self _ _)
  obtain ⟨hgrant, hfull⟩ := windowadjust_toNat hfits
  rw [Nat.sub_zero] at hgrant hfull
  rcases sendWindowadjust_cases t with ⟨habove, -⟩ | ⟨hno, -⟩ |
      ⟨-, plus, u, hplus, hu, hbuf, -, hput, hsent⟩
  · rcases habove with hbuf | habove
    · have hzero : t.chan.channel.buf0.length = 0 := rfl
      omega
    · exact absurd hwindow (Nat.not_le.mpr habove)
  · exact absurd (hroom.symm.trans hno) Bool.noConfusion
  · have hempty : t.chan.channel.buf0.length = 0 := rfl
    rw [hempty, Nat.sub_zero] at hplus
    refine ⟨s.serverAt u, ?_, ?_, ?_, rfl, rfl, ?_⟩
    · rw [inputStep, serverStep, hall, hsent]
    · exact congrArg List.length hbuf
    · rw [← hplus, ← hu] at hfull
      exact hfull
    · have hplus : plus = UInt32.ofNat (CHANNEL_BUFSIZE - s.localwindow) := by
        apply UInt32.toNat_inj.mp
        rw [hplus]
        exact hgrant.trans (UInt32.toNat_ofNat_of_lt' (Nat.lt_of_le_of_lt (Nat.sub_le _ _)
          (by decide))).symm
      rw [adjusts_serverAt_windowadjust hput, hplus]

/-! ## 6. From the opening of the channel on -/

/-- `channel_open` gives the client the whole empty buffer. -/
theorem inputStart_inv {name user : Bytes} {random : ℕ → Bool}
    {id remotewindow maxpacket w : UInt32} {s : Loop}
    (h : exec (onChannel (channelOpen user id remotewindow maxpacket))
      (loopStart name random) = (.ok w, s)) :
    (inputStart s w).Inv ∧ Granted (inputStart s w).server.chan.channel := by
  rcases hx : exec (channelOpen user id remotewindow maxpacket) (loopStart name random).chan with
    ⟨r, d⟩
  rw [onChannel, exec_zoom, hx] at h
  obtain ⟨rfl, rfl⟩ := Prod.mk.inj h
  obtain ⟨-, -, -, -, -, rfl, rfl⟩ := channelOpen_ok hx
  have hwindow : CHANNEL_BUFSIZE / 2 < (UInt32.ofNat CHANNEL_BUFSIZE).toNat := by decide
  refine ⟨⟨?_, ?_⟩, ⟨.inr hwindow, fun _ => hwindow⟩⟩
  · rfl
  · exact Nat.le_of_eq (Nat.zero_add _)

/-- **Flow control of the input**: behind every `channel_open` that returns, whatever the order in
which data and adjusts arrive, in every state, after a write as after any other step: buffer and
window fit into the buffer's size; the window is the client's credit and what is in flight; what
arrives is within the window and finds room; and where the buffer is empty, the client has more
than half of its size as credit, or used that much of it for data that is on its way, or is about
to get it. -/
theorem input_flow (name user : Bytes) (random : ℕ → Bool)
    (id remotewindow maxpacket w : UInt32) (start : Loop)
    (hopen : exec (onChannel (channelOpen user id remotewindow maxpacket))
      (loopStart name random) = (.ok w, start)) (s : InputSystem)
    (hs : Run inputStep (fun _ _ => True) (inputStart start w) s) :
    s.len0 + s.localwindow ≤ CHANNEL_BUFSIZE ∧
    s.localwindow =
      s.credit + (s.data.map List.length).sum + (s.adjusts.map UInt32.toNat).sum ∧
    (∀ x ∈ s.data, x.length ≤ s.localwindow ∧
      (exec (onChannel (channelPut x)) s.server).1 ≠ .error (.bug .ENOMEM)) ∧
    (0 < s.len0 ∨ CHANNEL_BUFSIZE / 2 < s.localwindow) ∧
    (s.len0 = 0 → CHANNEL_BUFSIZE / 2 <
      s.credit + (s.data.map List.length).sum + (s.adjusts.map UInt32.toNat).sum) := by
  obtain ⟨hinv, hgranted⟩ : s.Inv ∧ Granted s.server.chan.channel :=
    hs.invariant (fun s => s.Inv ∧ Granted s.server.chan.channel) (inputStart_inv hopen)
      fun s e s' h _ hstep => ⟨inputStep_inv h.1 e hstep, inputStep_granted h.1 h.2 e hstep⟩
  have hbalanced : s.localwindow =
      s.credit + (s.data.map List.length).sum + (s.adjusts.map UInt32.toNat).sum := hinv.balanced
  refine ⟨hinv.room, hbalanced, ?_, hgranted.window, ?_⟩
  · intro x hx
    exact ⟨hinv.length_le hx, channelPut_ne_nomem hinv hx⟩
  · intro hempty
    rcases hgranted.window with hlen | hwindow
    · exact absurd hempty (ne_of_gt hlen)
    · rw [← hbalanced]
      exact hwindow

/-- An opened channel in which the client sends 70000 bytes, the shell takes them all, and the
adjust for them comes back. -/
theorem input_flow_adjust : ∃ start s,
    exec (onChannel (channelOpen (ascii "admin") 7 5 4096))
      (loopStart (ascii "admin") fun _ => false) = (.ok 131072, start) ∧
    Run inputStep (fun _ _ => True) (inputStart start 131072) s ∧
    s.len0 = 0 ∧ s.credit = 61072 ∧ s.adjusts = [70000] ∧
    CHANNEL_BUFSIZE / 2 <
      s.credit + (s.data.map List.length).sum + (s.adjusts.map UInt32.toNat).sum := by
  obtain ⟨x, hx⟩ : ∃ x : Bytes, x.length = 70000 := ⟨_, List.length_replicate (a := 97)⟩
  have hopen : exec (onChannel (channelOpen (ascii "admin") 7 5 4096))
      (loopStart (ascii "admin") fun _ => false) = (.ok 131072,
        (exec (onChannel (channelOpen (ascii "admin") 7 5 4096))
          (loopStart (ascii "admin") fun _ => false)).2) := rfl
  generalize hstart : (exec (onChannel (channelOpen (ascii "admin") 7 5 4096))
    (loopStart (ascii "admin") fun _ => false)).2 = start at hopen
  -- The shell starts, and the client sends.
  obtain ⟨s₁, h₁, hchannel₁, hroom₁, hcredit₁, hdata₁, hadjusts₁⟩ :
      ∃ s₁, inputStep (inputStart start 131072) (.exec none workingSockets) = some s₁ ∧
        s₁.server.chan.channel = ⟨4096, 7, 131072, 5, [], 9999, 61, 64, -1, ascii "admin", false⟩ ∧
        s₁.server.hasRoom 9 = true ∧ s₁.credit = 131072 ∧ s₁.data = [] ∧ s₁.adjusts = [] := by
    subst hstart
    exact ⟨_, rfl, rfl, rfl, rfl, rfl, rfl⟩
  let s₂ : InputSystem := { s₁ with credit := s₁.credit - x.length, data := s₁.data ++ [x] }
  have h₂ : inputStep s₁ (.clientSend x) = some s₂ := by
    rw [inputStep, if_pos (by rw [hcredit₁, hx]; decide)]
  have hdata₂ : s₂.data[0]? = some x := by
    rw [show s₂.data = [x] from congrArg (· ++ [x]) hdata₁, List.getElem?_cons_zero]
  have htakes₂ : TakesInput s₂.server.chan.channel := by
    change TakesInput s₁.server.chan.channel
    rw [hchannel₁]
    exact ⟨(by decide), (by decide), (by decide)⟩
  -- The data arrives, and the shell takes it.
  obtain ⟨s₃, h₃, hserver₃, hcredit₃, hdata₃, hadjusts₃⟩ := inputStep_deliver hdata₂ htakes₂
    (by change s₁.server.chan.channel.buf0.length + x.length ≤ _; rw [hchannel₁, hx]; decide)
  have hchannel₃ : s₃.server.chan.channel = { s₁.server.chan.channel with
      buf0 := s₁.server.chan.channel.buf0 ++ x
      localwindow := s₁.server.chan.channel.localwindow - UInt32.ofNat x.length } := by
    rw [hserver₃]
  rw [hchannel₁, hx] at hchannel₃
  have hwindow₃ : s₃.localwindow = 61072 := by
    rw [InputSystem.localwindow, hchannel₃]
    rfl
  have hlen₃ : s₃.len0 = 70000 := by
    rw [InputSystem.len0, hchannel₃]
    exact hx
  obtain ⟨s₄, h₄, hlen₄, hwindow₄, hcredit₄, hdata₄, hadjusts₄⟩ :=
    inputStep_writeAll (s := s₃)
      (by rw [hserver₃]; exact ⟨htakes₂.maxpacket, htakes₂.pid, htakes₂.fd0⟩)
      (by rw [hchannel₃]) (by rw [hlen₃]; decide) (by rw [hwindow₃]; decide)
      (by rw [hserver₃]; exact hroom₁)
  have hrun : Run inputStep (fun _ _ => True) (inputStart start 131072) s₄ :=
    (((Run.start.next trivial h₁).next trivial h₂).next trivial h₃).next trivial h₄
  have hflow := input_flow (ascii "admin") (ascii "admin") (fun _ => false) 7 5 4096 131072 start
    hopen s₄ hrun
  refine ⟨start, s₄, hopen, hrun, hlen₄, ?_, ?_, hflow.2.2.2.2 hlen₄⟩
  · rw [hcredit₄, hcredit₃]
    change s₁.credit - x.length = 61072
    rw [hcredit₁, hx]
  · rw [hadjusts₄, hadjusts₃, hwindow₃]
    change s₁.adjusts ++ _ = _
    rw [hadjusts₁]
    rfl

end Glossh.Ssh
