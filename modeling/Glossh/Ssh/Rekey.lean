/-
# A rekey and its KEXINIT

The first KEXINIT of a client goes through `packet_kex_receive`, which parses it and sets
`kex_guess` and `kex_packet_follows`.  A later one is copied to `kexrecv` and the code jumps to
`rekeying`: nothing parses it, and `packet_kexdh` decides by what the first one left whether it
discards a packet.
-/
import Glossh.Ssh.AuthGate

namespace Glossh.Ssh

open Bytes Prog

/-! ## 1. How a KEXINIT is treated -/

/-- What `packet_kexdh` looks at before it discards a packet. -/
def KexState.skipsGuess (k : KexState) : Bool := k.kexPacketFollows ≠ 0 && k.kexGuess = 0

/-- What comes of a KEXINIT in `packet_kex_receive`: nothing where it is rejected, else whether
`packet_kexdh` discards a packet. -/
def initialTreatment (k : KexState) (b : Bytes) : Option Bool :=
  match exec (packetKexReceive (some b)) k with
  | (.ok true, k') => some k'.skipsGuess
  | _ => none

/-- A session that comes to `rekeying` from its main loop. -/
structure Rekey where
  /-- Where `packet_kex_receive` was, when it had its packet. -/
  before : KexState
  /-- The packet it had. -/
  first : Bytes
  /-- The session at `rekeying`. -/
  session : Tinysshd
  env : KexdhEnv

namespace Rekey

/-- The KEXINIT it comes with. -/
def kexinit (r : Rekey) : Bytes := r.session.b1.data

/-- What comes of that, up to the beginning of `packet_kexdh`. -/
def treatment (r : Rekey) : Option Bool :=
  match exec (answerKexinit r.env) r.session with
  | (.ok _, s) => some s.kex.skipsGuess
  | _ => none

/-- **A rekey obeys its own KEXINIT.**  Where it gets as far as `packet_kexdh`, `packet_kex_receive`
would have let the packet through, with the same decision. -/
def Obeys (r : Rekey) : Prop :=
  ∀ skip, r.treatment = some skip → initialTreatment r.before r.kexinit = some skip

end Rekey

/-! ## 2. The rekeys of a session -/

section

variable (P : Primitives)

/-- `main_tinysshd` up to where `packet_kex_receive` has a packet, if it gets one. -/
def awaitKexinit (env : TinysshdEnv) : SessionM Bool := do
  onKex (startAlgorithms env.session)
  let ok ← packetHelloSend env.logstring env.helloSent
  orDie ok "unable to send hello-string"
  let ok ← packetHelloReceive env.clientHello
  orDie ok "unable to receive hello-string"
  let ok ← packetKexSendAll env.kexdh.cookie env.kexdh.kexSent
  orDie ok "unable to send kex-message"
  packetGetall SSH_MSG_KEXINIT .kexrecv

/-- From there to the main loop. -/
def firstExchange (env : TinysshdEnv) (ok : Bool) : SessionM Unit := do
  let kexrecv ← reads fun s => if ok then some s.kexrecv.data else none
  let ok ← onKex (packetKexReceive kexrecv)
  orDie ok "unable to receive kex-message"
  rekeying P env.kexdh
  authentication P env.auth

/-- An iteration up to the end of "process packets": nothing where the loop is left before, else
whether the code goes to `rekeying`. -/
def turnPackets (t : Turn) : SessionM (Option Bool) := do
  let left ← onLoop (mainLoopIteration { t.env with packets := [] })
  if left then return none
  else do
    let again ← sessionPackets t.packets
    return some again

theorem keeps_turnPackets {Q : Tinysshd → Prop} [SteadyLoop Q] (t : Turn) :
    Keeps Q (turnPackets t) :=
  (keeps_onLoop_any _).bind fun _ => (keeps_pure _).ite
    ((keeps_sessionPackets _).bind fun _ => keeps_pure _)

/-- Where an iteration goes to `rekeying`, if it does. -/
def turnRekeys (t : Turn) (s : Tinysshd) : List (Tinysshd × KexdhEnv) :=
  match exec (turnPackets t) s with
  | (.ok (some true), u) => [({ u with arrivals := t.arrivals }, t.kexdh)]
  | _ => []

/-- The states in which a main loop goes to `rekeying`. -/
def loopRekeys : List Turn → Tinysshd → List (Tinysshd × KexdhEnv)
  | [], _ => []
  | t :: l, s =>
    turnRekeys t s ++
      match exec (turn P t) s with
      | (.ok false, u) => loopRekeys l u
      | _ => []

/-- The rekeys of a session, in order. -/
def sessionRekeys (env : TinysshdEnv) (s : Tinysshd) : List Rekey :=
  match exec (awaitKexinit env) s with
  | (.ok ok, t) =>
    match exec (firstExchange P env ok) t with
    | (.ok _, u) =>
      (loopRekeys P env.turns u).map fun r => ⟨t.kex, t.kexrecv.data, r.1, r.2⟩
    | _ => []
  | _ => []

/-- The session is made of its parts. -/
theorem tinysshd_eq (env : TinysshdEnv) :
    tinysshd P env = awaitKexinit env >>= fun ok => firstExchange P env ok >>= fun _ =>
      sessionLoop P env.turns := by
  simp only [tinysshd, awaitKexinit, firstExchange, packetKexReceiveAll, bind_assoc]

/-- An iteration from the end of "process packets" on. -/
def turnRekey (t : Turn) : Option Bool → SessionM Bool
  | none => return true
  | some false => return false
  | some true => do
    modify fun s => { s with arrivals := t.arrivals }
    rekeying P t.kexdh
    authentication P t.auth
    return false

theorem turn_eq (t : Turn) : turn P t = turnPackets t >>= turnRekey P t := by
  rw [turn, turnPackets, bind_assoc]
  refine congrArg _ (funext fun left => ?_)
  cases left with
  | true => rfl
  | false =>
    simp only [Bool.false_eq_true, if_false, bind_assoc, pure_bind]
    refine congrArg _ (funext fun again => ?_)
    cases again <;> rfl

end

/-! ## 3. What a rekey goes by -/

/-- The KEXINITs among what the `switch` had. -/
def kexinits (events : List SessionEvent) : List Bytes :=
  events.filterMap fun
    | .dispatch b => if b.headD 0 = SSH_MSG_KEXINIT then some b else none
    | _ => none

structure RekeyView where
  kexGuess : UInt8
  kexPacketFollows : UInt8
  kexinits : List Bytes

def Tinysshd.rekeyView (s : Tinysshd) : RekeyView :=
  ⟨s.kex.kexGuess, s.kex.kexPacketFollows, kexinits s.events⟩

instance steadyKex_rekeyView (v : RekeyView) : SteadyKex fun s => s.rekeyView = v where
  buf {x} _ b s h := by cases x <;> exact h
  loop _ _ _ h := h
  receivepacketid _ _ h := h
  arrivals _ _ _ h := h
  set x b s h := by cases x <;> exact h
  kexsend _ _ h := h
  keys _ _ h := h

/-- An exchange reads the flags and writes neither, and the event it adds is no packet. -/
theorem frame_rekeying (P : Primitives) (env : KexdhEnv) :
    Frame Tinysshd.rekeyView (rekeying P env) := by
  intro v
  refine keeps_rekeying P env (fun _ _ h => h) fun s hs => ?_
  rw [← hs]
  simp only [Tinysshd.rekeyView, kexinits, List.filterMap_append, List.filterMap_cons,
    List.filterMap_nil, List.append_nil]

theorem frame_authentication (P : Primitives) (env : AuthEnv) :
    Frame Tinysshd.rekeyView (authentication P env) := by
  intro v
  refine keeps_authentication P env fun l s hs => ?_
  rw [← hs]
  simp only [Tinysshd.rekeyView, kexinits, List.filterMap_append, List.filterMap_cons,
    List.filterMap_nil, List.append_nil]

/-! ## 4. The main loop -/

/-- `KexState.skipsGuess` of the session. -/
def RekeyView.skipsGuess (v : RekeyView) : Bool := v.kexPacketFollows ≠ 0 && v.kexGuess = 0

/-- With more KEXINITs. -/
def RekeyView.see (v : RekeyView) (l : List Bytes) : RekeyView :=
  { v with kexinits := v.kexinits ++ l }

@[simp] theorem RekeyView.see_nil (v : RekeyView) : v.see [] = v := by
  rw [RekeyView.see, List.append_nil]

theorem RekeyView.see_see (v : RekeyView) (l l' : List Bytes) :
    (v.see l).see l' = v.see (l ++ l') := by
  rw [RekeyView.see, RekeyView.see, RekeyView.see, List.append_assoc]

theorem frame_onLoop_rekey {α : Type} (m : LoopM α) : Frame Tinysshd.rekeyView (onLoop m) :=
  fun _ _ hs => hs

/-- **"process packets"** leaves the flags as they are, and the KEXINIT it ends with in `b1`. -/
theorem triple_sessionPackets (v : RekeyView) (l : List TurnPacket) :
    Triple (fun s => s.rekeyView = v) (sessionPackets l)
      (fun again s => s.rekeyView = if again then v.see [s.b1.data] else v)
      (fun _ s => s.rekeyView = v) := by
  have hexit : ∀ (e : Exit) (s : Tinysshd), s.rekeyView = v → s.rekeyView = v := fun _ _ h => h
  induction l with
  | nil => exact triple_pure fun s h => h
  | cons p l ih =>
    rw [sessionPackets]
    split
    · exact triple_pure fun s h => h
    · exact triple_throw fun s h => h
    · refine Triple.bind ((keeps_packetGetReceived_work .of_b1 _ _).triple hexit) fun ok =>
        Triple.ite (fun _ => triple_pure fun s h => h) fun _ => ?_
      refine triple_reads_bind fun b => Triple.ite (fun _ => triple_pure fun s h => h.1) fun _ => ?_
      by_cases hb : b.headD 0 = SSH_MSG_KEXINIT
      · rw [if_pos hb]
        refine Triple.bind (Q := fun _ (s : Tinysshd) => s.rekeyView = v.see [s.b1.data])
          (triple_modify ?_) fun _ => triple_pure fun s h => h
        rintro s ⟨rfl, rfl⟩
        simp only [Tinysshd.rekeyView, RekeyView.see, kexinits, List.filterMap_append,
          List.filterMap_cons, List.filterMap_nil, if_pos hb]
      · rw [if_neg hb]
        refine Triple.bind (Q := fun _ (s : Tinysshd) => s.rekeyView = v) (triple_modify ?_)
          fun _ => ?_
        · rintro s ⟨rfl, rfl⟩
          simp only [Tinysshd.rekeyView, kexinits, List.filterMap_append, List.filterMap_cons,
            List.filterMap_nil, if_neg hb, List.append_nil]
        · have hdispatch : Keeps (fun s => s.rekeyView = v) (dispatchPacket b p) :=
            (keeps_reads _).bind fun _ => frame_onLoop_rekey _ v
          exact Triple.bind (hdispatch.triple hexit) fun go =>
            Triple.ite (fun _ => ih) fun _ => triple_pure fun s h => h

theorem triple_turnPackets (v : RekeyView) (t : Turn) :
    Triple (fun s => s.rekeyView = v) (turnPackets t)
      (fun again s => s.rekeyView = if again = some true then v.see [s.b1.data] else v)
      (fun _ s => s.rekeyView = v) := by
  refine Triple.bind ((frame_onLoop_rekey _ v).triple fun _ _ h => h) fun left =>
    Triple.ite (fun _ => triple_pure fun s h => h) fun _ => ?_
  refine Triple.bind (triple_sessionPackets v t.packets) fun again => triple_pure fun s h => ?_
  cases again with
  | true => exact h
  | false => exact h

theorem frame_turnRekey (P : Primitives) (t : Turn) (again : Option Bool) :
    Frame Tinysshd.rekeyView (turnRekey P t again) := by
  intro v
  match again with
  | none => exact keeps_pure _
  | some false => exact keeps_pure _
  | some true =>
    exact Keeps.bind (keeps_modify fun _ h => h) fun _ => (frame_rekeying P _ v).bind fun _ =>
      (frame_authentication P _ v).bind fun _ => keeps_pure _

section

variable (P : Primitives)

theorem turn_rekeyView (t : Turn) (s : Tinysshd) :
    (exec (turn P t) s).2.rekeyView =
      s.rekeyView.see ((turnRekeys t s).map fun r => r.1.b1.data) := by
  have hpackets := (triple_turnPackets s.rekeyView t).run s rfl
  rw [turn_eq, exec_bind, turnRekeys]
  rcases hx : exec (turnPackets t) s with ⟨r, u⟩
  rw [hx] at hpackets
  match r with
  | .error e => exact hpackets.trans (RekeyView.see_nil _).symm
  | .ok none =>
    have hrest := frame_turnRekey P t none _ u rfl
    exact hrest.trans (hpackets.trans (RekeyView.see_nil _).symm)
  | .ok (some false) =>
    have hrest := frame_turnRekey P t (some false) _ u rfl
    exact hrest.trans (hpackets.trans (RekeyView.see_nil _).symm)
  | .ok (some true) =>
    have hrest := frame_turnRekey P t (some true) _ u rfl
    exact hrest.trans hpackets

/-- The KEXINITs that the main loop sees are those of its rekeys, in order; the flags stay. -/
theorem sessionLoop_rekeyView (l : List Turn) (s : Tinysshd) :
    (exec (sessionLoop P l) s).2.rekeyView =
      s.rekeyView.see ((loopRekeys P l s).map fun r => r.1.b1.data) := by
  induction l generalizing s with
  | nil => exact (RekeyView.see_nil _).symm
  | cons t l ih =>
    have hturn := turn_rekeyView P t s
    rw [sessionLoop, exec_bind, loopRekeys, List.map_append, ← RekeyView.see_see, ← hturn]
    rcases exec (turn P t) s with ⟨r, u⟩
    match r with
    | .error e => exact (RekeyView.see_nil _).symm
    | .ok true => exact (RekeyView.see_nil _).symm
    | .ok false => exact ih u

/-- Whoever comes to a rekey has authenticated, and the flags are those the loop began with. -/
theorem loopRekeys_session (l : List Turn) (s : Tinysshd) (h : Opened P s.gate) :
    ∀ r ∈ loopRekeys P l s, Opened P r.1.gate ∧ r.1.kex.skipsGuess = s.kex.skipsGuess := by
  induction l generalizing s with
  | nil => exact fun _ hr => by cases hr
  | cons t l ih =>
    intro r hr
    rcases List.mem_append.mp hr with hr | hr
    · have hu := keeps_turnPackets (Q := fun u => Opened P u.gate) t s h
      have hview := (triple_turnPackets s.rekeyView t).run s rfl
      rw [turnRekeys] at hr
      rcases hx : exec (turnPackets t) s with ⟨a, u⟩
      rw [hx] at hr hu hview
      match a with
      | .error e => cases hr
      | .ok none => cases hr
      | .ok (some false) => cases hr
      | .ok (some true) =>
        rw [List.mem_singleton.mp hr]
        exact ⟨hu, congrArg RekeyView.skipsGuess hview⟩
    · have hu := (triple_turn t).run s h
      have hview := turn_rekeyView P t s
      rcases hx : exec (turn P t) s with ⟨a, u⟩
      rw [hx] at hr hu hview
      match a with
      | .error e => cases hr
      | .ok true => cases hr
      | .ok false =>
        obtain ⟨hopened, hskips⟩ := ih u hu r hr
        exact ⟨hopened, hskips.trans (congrArg RekeyView.skipsGuess hview)⟩

/-! ## 5. The session -/

/-- What no call of the algorithm code changes is as it was when the client's KEXINIT has come. -/
theorem keeps_awaitKexinit {Q : Tinysshd → Prop} [SteadyKex Q] (env : TinysshdEnv)
    (hkex : ∀ {α : Type} (m : Prog KexState Exit α), Keeps Q (onKex m)) :
    Keeps Q (awaitKexinit env) :=
  (hkex _).bind fun _ => (keeps_packetHelloSend _ _).bind fun _ => (keeps_check _).bind
    fun _ => (keeps_packetHelloReceive _).bind fun _ => (keeps_check _).bind fun _ =>
    (keeps_packetKexSendAll _ _).bind fun _ => (keeps_check _).bind fun _ =>
    keeps_packetGetall_of (SteadyKex.set _) _

theorem frame_awaitKexinit (env : TinysshdEnv) : Frame Tinysshd.gate (awaitKexinit env) :=
  fun v => keeps_awaitKexinit env fun m => frame_onKex m v

/-- **The first exchange** is decided by the first KEXINIT, and so are the flags after it. -/
theorem triple_firstExchange (env : TinysshdEnv) (ok : Bool) (t : Tinysshd) :
    Triple (fun s => s = t ∧ Gated P s.gate) (firstExchange P env ok)
      (fun _ s => Opened P s.gate ∧
        initialTreatment t.kex t.kexrecv.data = some s.kex.skipsGuess) fun _ _ => True := by
  let Treated : RekeyView → Prop :=
    fun v => initialTreatment t.kex t.kexrecv.data = some v.skipsGuess
  refine triple_reads_eq (x := if ok then some t.kexrecv.data else none)
    (by rintro s ⟨rfl, -⟩; rfl) ?_
  refine Triple.bind (Q := fun ok s => Gated P s.gate ∧ (ok = true → Treated s.rekeyView))
    ⟨?_⟩ fun ok => ?_
  · rintro s ⟨rfl, hs⟩
    rw [onKex, exec_zoom]
    cases ok with
    | false => exact ⟨hs, fun h => by cases h⟩
    | true =>
      rcases hx : exec (packetKexReceive (some s.kexrecv.data)) s.kex with ⟨r, k⟩
      simp only [if_true, hx]
      cases r with
      | error e => trivial
      | ok a =>
        refine ⟨hs, ?_⟩
        rintro rfl
        change initialTreatment _ _ = some k.skipsGuess
        rw [initialTreatment, hx]
  · refine triple_check_bind (fun _ _ _ => trivial) fun _ hok => ?_
    have hok : ok = true := by
      cases ok with
      | false => cases hok
      | true => rfl
    have htreated : ∀ {m : SessionM Unit}, Frame Tinysshd.rekeyView m →
        Triple (fun u => Treated u.rekeyView) m (fun _ u => Treated u.rekeyView) fun _ _ => True :=
      fun h => (h.keeps Treated).triple fun _ _ _ => trivial
    refine ⟨fun s hs => ?_⟩
    let Before : Tinysshd → Prop :=
      fun u => (Gated P u.gate ∧ u.gate.flagauthorized = s.flagauthorized) ∧ Treated u.rekeyView
    let Between : Tinysshd → Prop :=
      fun u => ((Gated P u.gate ∧ u.gate.flagauthorized = s.flagauthorized) ∧
        u.gate.flagrekeying = true) ∧ Treated u.rekeyView
    have hrekeying := ((triple_rekeying P env.kexdh s.flagauthorized).pre
      fun u (h : Before u) => h.1).and ((htreated (frame_rekeying P env.kexdh)).pre
      fun u (h : Before u) => h.2)
    have hauth := ((triple_authentication P env.auth).pre
      fun u (h : Between u) => ⟨h.1.1.1, h.1.2⟩).and
      ((htreated (frame_authentication P env.auth)).pre fun u (h : Between u) => h.2)
    exact ((hrekeying.exits fun _ _ _ => trivial).bind fun _ =>
      hauth.exits fun _ _ _ => trivial).run s ⟨⟨hs.1, rfl⟩, hs.2 hok⟩

/-- Every rekey of a session comes after a first exchange, and with its flags. -/
theorem sessionRekeys_session (env : TinysshdEnv) (c : Sshcrypto) (random : ℕ → Bool)
    (arrivals : List Arrival) :
    ∀ r ∈ sessionRekeys P env (tinysshdStart c random arrivals),
      r.session.flagrekeying = true ∧
        initialTreatment r.before r.first = some r.session.kex.skipsGuess := by
  intro r hr
  have ht := (frame_awaitKexinit env).keeps (Gated P) _ (gated_start c random arrivals)
  rw [sessionRekeys] at hr
  rcases hx : exec (awaitKexinit env) (tinysshdStart c random arrivals) with ⟨ok, t⟩
  rw [hx] at hr ht
  cases ok with
  | error e => cases hr
  | ok ok =>
    have hu := (triple_firstExchange P env ok t).run t ⟨rfl, ht⟩
    rcases hy : exec (firstExchange P env ok) t with ⟨a, u⟩
    simp only [hy] at hr hu
    cases a with
    | error e => cases hr
    | ok a =>
      obtain ⟨x, hx, rfl⟩ := List.mem_map.mp hr
      obtain ⟨hopened, hskips⟩ := loopRekeys_session P env.turns u hu.1 x hx
      refine ⟨hopened.2.1, ?_⟩
      rw [hskips]
      exact hu.2

/-- **The rekeys of a session are the KEXINITs that its `switch` has**, in order. -/
theorem kexinits_tinysshd (env : TinysshdEnv) (c : Sshcrypto) (random : ℕ → Bool)
    (arrivals : List Arrival) :
    kexinits (exec (tinysshd P env) (tinysshdStart c random arrivals)).2.events =
      (sessionRekeys P env (tinysshdStart c random arrivals)).map Rekey.kexinit := by
  have hfirst : ∀ ok, Keeps (fun s => kexinits s.events = []) (firstExchange P env ok) := by
    intro ok
    have hframe : ∀ {m : SessionM Unit}, Frame Tinysshd.rekeyView m →
        Keeps (fun s => kexinits s.events = []) m := fun h => h.keeps fun v => v.kexinits = []
    exact (keeps_reads _).bind fun _ => Keeps.bind (fun s hs => hs) fun _ => (keeps_check _).bind
      fun _ => (hframe (frame_rekeying P _)).bind fun _ => hframe (frame_authentication P _)
  have ht : kexinits (exec (awaitKexinit env) (tinysshdStart c random arrivals)).2.events = [] :=
    (frame_awaitKexinit env).keeps (fun g => kexinits g.events = []) _ rfl
  rw [tinysshd_eq, exec_bind, sessionRekeys]
  rcases hx : exec (awaitKexinit env) (tinysshdStart c random arrivals) with ⟨ok, t⟩
  rw [hx] at ht
  cases ok with
  | error e => exact ht
  | ok ok =>
    have hu := hfirst ok t ht
    simp only [exec_bind]
    rcases hy : exec (firstExchange P env ok) t with ⟨a, u⟩
    rw [hy] at hu
    cases a with
    | error e => exact hu
    | ok a =>
      have hloop := congrArg RekeyView.kexinits (sessionLoop_rekeyView P env.turns u)
      simp only [List.map_map]
      refine hloop.trans ?_
      change kexinits u.events ++ _ = _
      rw [hu, List.nil_append]
      rfl

end

/-! ## 6. A KEXINIT that is answered -/

/-- `packet_put` has room for a payload of that length. -/
def Tinysshd.hasRoom (s : Tinysshd) (n : ℕ) : Bool :=
  if s.flagkeys then s.loop.hasRoom n
  else decide (s.loop.sendlen + 5 + n + (16 - (5 + n) % 8) < SENDBUF_SIZE)

/-- The client's KEXINIT fits into `kexrecv`; the server's own fits into `kexsend` and `sendbuf`
and can be sent. -/
def Rekey.answerable (r : Rekey) : Bool :=
  match (do let c ← r.session.kexrecv.purge; c.put r.kexinit),
    kexinitPacket r.session.kex.crypto r.env.cookie r.session.kex.kexsend with
  | .ok _, .ok b => r.session.hasRoom b.data.length && r.env.kexSent
  | _, _ => false

theorem packetPutAny_returns (payload : Bytes) (s : Tinysshd) :
    (exec (packetPutAny payload) s).1 =
      if s.hasRoom payload.length then .ok () else .error (.bug .ENOMEM) := by
  rw [packetPutAny, exec_reads_bind, onLoop, exec_zoom, Tinysshd.hasRoom]
  cases s.flagkeys with
  | true =>
    simp only [if_true, packetPut, exec_reads_bind]
    split
    · rfl
    · rfl
  | false =>
    simp only [Bool.false_eq_true, if_false, packetPutPlain, exec_reads_bind]
    split
    · rfl
    · rfl

theorem exec_run_ok {x : BufField} {f : Buf → Except Exit Buf} {s : Tinysshd} {b : Buf}
    (h : f (x.get s) = .ok b) : exec (x.run f) s = (.ok (), x.set b s) := by
  rw [BufField.run, exec_reads_bind, exec_check_bind h, exec_modify]

theorem exec_run_error {x : BufField} {f : Buf → Except Exit Buf} {s : Tinysshd} {e : Exit}
    (h : f (x.get s) = .error e) : exec (x.run f) s = (.error e, s) := by
  rw [BufField.run, exec_reads_bind, h]
  rfl

/-- It returns where the KEXINIT can be answered. -/
theorem Rekey.answerKexinit_returns (r : Rekey) (hflag : r.session.flagrekeying = true) :
    (exec (answerKexinit r.env) r.session).1 = .ok () ↔ r.answerable = true := by
  have hexit : ∀ e : Exit, (.error e : Except Exit Unit) = .ok () ↔ false = true := by
    intro e
    constructor
    · intro h
      cases h
    · intro h
      cases h
  rw [answerKexinit, exec_reads_bind, if_pos hflag, exec_reads_bind, Rekey.answerable]
  cases hc : (do let c ← r.session.kexrecv.purge; c.put r.kexinit) with
  | error e =>
    rw [exec_bind_error (exec_run_error hc)]
    exact hexit _
  | ok c =>
    let s : Tinysshd := BufField.kexrecv.set c r.session
    rw [exec_bind_ok (exec_run_ok hc), packetKexSendAll]
    cases hb : kexinitPacket r.session.kex.crypto r.env.cookie r.session.kex.kexsend with
    | error e =>
      have hsend : exec (onKex (packetKexSend r.env.cookie r.env.kexSent)) s = (.error e, s) := by
        rw [onKex, exec_zoom, exec_packetKexSend_error (s := s.kex) r.env.kexSent hb]
      rw [exec_bind_error (exec_bind_error hsend)]
      exact hexit _
    | ok b =>
      let t : Tinysshd := { s with kex := { s.kex with kexsend := b } }
      have hsend : exec (onKex (packetKexSend r.env.cookie r.env.kexSent)) s =
          (.ok r.env.kexSent, t) := by
        rw [onKex, exec_zoom, exec_packetKexSend (s := s.kex) r.env.kexSent hb]
      have hput : (exec (packetPutAny b.data) t).1 =
          if r.session.hasRoom b.data.length then .ok () else .error (.bug .ENOMEM) :=
        packetPutAny_returns b.data t
      have hpayload : t.kex.kexsend.data = b.data := rfl
      rw [bind_assoc, exec_bind_ok hsend, bind_assoc, exec_reads_bind, hpayload, bind_assoc]
      change _ ↔ (r.session.hasRoom b.data.length && r.env.kexSent) = true
      rcases hx : exec (packetPutAny b.data) t with ⟨a, u⟩
      rw [hx] at hput
      cases hroom : r.session.hasRoom b.data.length with
      | false =>
        rw [hroom] at hput
        cases hput
        rw [exec_bind_error hx]
        exact hexit _
      | true =>
        rw [hroom] at hput
        cases hput
        rw [exec_bind_ok hx]
        cases r.env.kexSent with
        | true => exact ⟨fun _ => rfl, fun _ => rfl⟩
        | false => exact hexit _

/-- **What comes of a later KEXINIT**: where it can be answered, the decision of the first
exchange. -/
theorem Rekey.treatment_eq (r : Rekey) (hflag : r.session.flagrekeying = true) :
    r.treatment = if r.answerable then some r.session.kex.skipsGuess else none := by
  have hframe : Frame Tinysshd.rekeyView (answerKexinit r.env) := fun _ => keeps_answerKexinit r.env
  have hreturns := r.answerKexinit_returns hflag
  rw [Rekey.treatment]
  rcases hx : exec (answerKexinit r.env) r.session with ⟨a, t⟩
  rw [hx] at hreturns
  cases a with
  | ok a =>
    have hskips : t.kex.skipsGuess = r.session.kex.skipsGuess :=
      congrArg RekeyView.skipsGuess (hframe.eq_of_exec hx)
    rw [if_pos (hreturns.mp rfl), ← hskips]
  | error e =>
    rw [if_neg]
    intro h
    cases hreturns.mpr h

/-! ## 7. When a rekey obeys its own KEXINIT -/

/-- **When a rekey obeys its own KEXINIT.**  In every session, whatever it starts from and whatever
the client sends: all its rekeys do so if and only if each KEXINIT that the server can answer is one
that `packet_kex_receive` would have treated as it treated the first. -/
theorem rekeys_obey_iff (P : Primitives) (env : TinysshdEnv) (c : Sshcrypto) (random : ℕ → Bool)
    (arrivals : List Arrival) :
    (∀ r ∈ sessionRekeys P env (tinysshdStart c random arrivals), r.Obeys) ↔
      ∀ r ∈ sessionRekeys P env (tinysshdStart c random arrivals), r.answerable = true →
        initialTreatment r.before r.kexinit = initialTreatment r.before r.first := by
  refine forall₂_congr fun r hr => ?_
  obtain ⟨hflag, hfirst⟩ := sessionRekeys_session P env c random arrivals r hr
  rw [Rekey.Obeys, r.treatment_eq hflag, hfirst]
  cases r.answerable with
  | false =>
    constructor
    · intro _ h
      cases h
    · intro _ skip h
      cases h
  | true => exact ⟨fun h _ => h _ rfl, fun h skip hskip => (h rfl).trans hskip⟩

/-- A payload of the client. -/
def clientPacket (b : Bytes) : Arrival :=
  if h : 0 < b.length ∧ b.length < PACKET_LIMIT then .packet ⟨b, h.1, h.2⟩ else .malformed

/-- A KEXINIT of a client that wants what there is and announces no guess. -/
def plainKexinit : Bytes :=
  SSH_MSG_KEXINIT :: List.replicate 16 0 ++ sshString (ascii "curve25519-sha256") ++
    sshString ed25519Name ++ sshString (ascii "chacha20-poly1305@openssh.com") ++
    sshString (ascii "chacha20-poly1305@openssh.com") ++ sshString (ascii "hmac-sha2-256") ++
    sshString (ascii "hmac-sha2-256") ++ sshString (ascii "none") ++ sshString (ascii "none") ++
    sshString [] ++ sshString [] ++ List.replicate 5 0

/-- A login with a key of 32 zeros. -/
def plainLogin : Bytes :=
  SSH_MSG_USERAUTH_REQUEST :: sshString (ascii "admin") ++ sshString (ascii "ssh-connection") ++
    sshString (ascii "publickey") ++ [1] ++ sshString ed25519Name ++
    sshString (sshString ed25519Name ++ sshString (List.replicate 32 0)) ++
    sshString (sshString ed25519Name ++ sshString (List.replicate 64 0))

/-- A hash, and a `sign_open` that accepts. -/
def plainPrimitives : Primitives := ⟨fun _ _ => Vector.replicate 64 0, fun _ _ => true⟩

def plainKexdh : KexdhEnv where
  cookie := Vector.replicate 16 0
  kexSent := true
  encs := [some (Vector.replicate 1071 0, Vector.replicate 64 1)]
  sm := some (Vector.replicate 64 0)
  replySent := true

def plainAuth : AuthEnv where
  serviceSent := true
  nvs _ := .line (ed25519Name ++ 0x20 :: keyString (Vector.replicate 32 0))
  replySent _ := true
  successSent := true

/-- An iteration in which the packet `b` arrives. -/
def plainTurn (b : Bytes) : Turn where
  env := ⟨true, true, true, false, false, .again, .again, (true, true), .again, true, []⟩
  packets := [⟨clientPacket b, ⟨⟨none, true, true, true, none, true, none⟩,
    ⟨none, true, true, true, none, true, none⟩, true, true, true⟩, true⟩]
  arrivals := []
  kexdh := plainKexdh
  auth := plainAuth

/-- A client that logs in and then sends `b`. -/
def loginThen (b : Bytes) : TinysshdEnv where
  loads _ := .loaded (List.replicate 32 0)
  logstring := Vector.replicate 8 0
  helloSent := true
  clientHello := ascii "SSH-2.0-client\n"
  kexdh := plainKexdh
  auth := plainAuth
  turns := [plainTurn b]

def loginArrivals : List Arrival :=
  [clientPacket plainKexinit,
    clientPacket (SSH_MSG_KEXDH_INIT :: sshString (List.replicate 32 0)),
    clientPacket [SSH_MSG_NEWKEYS],
    clientPacket (SSH_MSG_SERVICE_REQUEST :: sshString (ascii "ssh-userauth")),
    clientPacket plainLogin]

/-- **A later KEXINIT that is none** is answered, and the exchange goes on. -/
theorem rekey_takes_anything : ¬ ∀ (P : Primitives) (env : TinysshdEnv) (c : Sshcrypto)
    (random : ℕ → Bool) (arrivals : List Arrival),
    ∀ r ∈ sessionRekeys P env (tinysshdStart c random arrivals), r.Obeys := by
  intro h
  have hbyte : ((sessionRekeys plainPrimitives (loginThen [SSH_MSG_KEXINIT])
      (tinysshdStart bootSshcrypto (fun _ => false) loginArrivals)).any fun r =>
        r.treatment = some false && initialTreatment r.before r.kexinit = none) = true := by
    decide +kernel
  obtain ⟨r, hr, hboth⟩ := List.any_eq_true.mp hbyte
  simp only [Bool.and_eq_true, decide_eq_true_eq] at hboth
  have hobeys := h _ _ _ _ _ r hr
  cases hboth.2.symm.trans (hobeys false hboth.1)

end Glossh.Ssh
