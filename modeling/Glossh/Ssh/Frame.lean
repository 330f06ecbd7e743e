/-
# What the functions of a session leave alone

A result about a few fields of the session has to be carried past every function that does not
touch them.  Nearly all of the code goes through `b1` and `b2`, through `sendbuf` and through the
packets of the client, so a predicate that does not look there (`Steady`) survives it, whatever it
is about; the key exchange writes more (`SteadyKex`), and so does the main loop (`SteadyLoop`).

* `Frame get m`: the program leaves what `get` reads as it is, the predicate `get s = v`;
* `triple_packetGetall`: what `packet_getall` returns is a packet that the client sent;
* `keeps_kexdhEnd`, `keeps_packetAuth`, `keeps_sessionPackets`: the long stretches of code that
  only send and receive.
-/
import Glossh.Ssh.Tinysshd

namespace Glossh.Ssh

open Bytes Prog

/-! ## 1. What a predicate does not look at -/

/-- The buffers that everything goes through. -/
def BufField.Work (x : BufField) : Prop := x = hashbuf ∨ x = b1 ∨ x = b2

theorem BufField.Work.of_hashbuf : hashbuf.Work := .inl rfl

theorem BufField.Work.of_b1 : b1.Work := .inr (.inl rfl)

theorem BufField.Work.of_b2 : b2.Work := .inr (.inr rfl)

/-- What sending and receiving packets leaves as it is.  Packets are taken off the list of those
that are to come, so a predicate may bound that list. -/
class Steady (Q : Tinysshd → Prop) : Prop where
  buf {x : BufField} (hx : x.Work) (b : Buf) (s : Tinysshd) : Q s → Q (x.set b s)
  loop (l : Loop) (s : Tinysshd) : l.chan = s.loop.chan → Q s → Q { s with loop := l }
  receivepacketid (n : UInt32) (s : Tinysshd) : Q s → Q { s with receivepacketid := n }
  arrivals (l : List Arrival) (s : Tinysshd) :
    (∀ a ∈ l, a ∈ s.arrivals) → Q s → Q { s with arrivals := l }

/-- What the key exchange leaves as it is as well. -/
class SteadyKex (Q : Tinysshd → Prop) : Prop extends Steady Q where
  set (x : BufField) (b : Buf) (s : Tinysshd) : Q s → Q (x.set b s)
  kexsend (b : Buf) (s : Tinysshd) : Q s → Q { s with kex := { s.kex with kexsend := b } }
  keys (l : List Bytes) (s : Tinysshd) : Q s → Q { s with keys := l }

/-- What the main loop leaves as it is: the channel may become anything, and the packets that are
handled are noted. -/
class SteadyLoop (Q : Tinysshd → Prop) : Prop extends Steady Q where
  anyLoop (l : Loop) (s : Tinysshd) : Q s → Q { s with loop := l }
  dispatch (b : Bytes) (s : Tinysshd) : Q s → Q { s with events := s.events ++ [.dispatch b] }

/-- The client has nothing to send but packets of `l`. -/
def Tinysshd.Hears (l : List Arrival) (s : Tinysshd) : Prop := ∀ a ∈ s.arrivals, a ∈ l

theorem BufField.arrivals_set (x : BufField) (b : Buf) (s : Tinysshd) :
    (x.set b s).arrivals = s.arrivals := by
  cases x <;> rfl

instance steadyKex_hears (l : List Arrival) : SteadyKex (Tinysshd.Hears l) where
  buf {x} _ b s h := by
    rw [Tinysshd.Hears, x.arrivals_set]
    exact h
  loop _ _ _ h := h
  receivepacketid _ _ h := h
  arrivals _ _ hsub h := fun a ha => h a (hsub a ha)
  set x b s h := by
    rw [Tinysshd.Hears, x.arrivals_set]
    exact h
  kexsend _ _ h := h
  keys _ _ h := h

/-! ## 2. Views -/

/-- The program leaves what `get` reads as it is. -/
def Frame {V α : Type} (get : Tinysshd → V) (m : SessionM α) : Prop :=
  ∀ v, Keeps (fun s => get s = v) m

/-- **What the view satisfies, it satisfies afterwards.** -/
theorem Frame.keeps {V α : Type} {get : Tinysshd → V} {m : SessionM α} (h : Frame get m)
    (Q : V → Prop) : Keeps (fun s => Q (get s)) m := by
  intro s hs
  have hget := h (get s) s rfl
  change Q (get (exec m s).2)
  rw [hget]
  exact hs

/-- What a run that returned left. -/
theorem Frame.eq_of_exec {V α : Type} {get : Tinysshd → V} {m : SessionM α} (h : Frame get m)
    {s t : Tinysshd} {r : Except Exit α} (hx : exec m s = (r, t)) : get t = get s := by
  have hget := h (get s) s rfl
  rwa [hx] at hget

/-- **A view that is steady is so whatever is asked of it.** -/
theorem SteadyKex.of_view {V : Type} {get : Tinysshd → V} (h : ∀ v, SteadyKex fun s => get s = v)
    (R : V → Prop) : SteadyKex fun s => R (get s) := by
  have hsame {s t : Tinysshd} (heq : get t = get s) (hs : R (get s)) : R (get t) := by rwa [heq]
  exact {
    buf := fun hx b s => hsame ((h (get s)).buf hx b s rfl)
    loop := fun l s hl => hsame ((h (get s)).loop l s hl rfl)
    receivepacketid := fun n s => hsame ((h (get s)).receivepacketid n s rfl)
    arrivals := fun l s hl => hsame ((h (get s)).arrivals l s hl rfl)
    set := fun x b s => hsame ((h (get s)).set x b s rfl)
    kexsend := fun b s => hsame ((h (get s)).kexsend b s rfl)
    keys := fun l s => hsame ((h (get s)).keys l s rfl) }

/-! ## 3. Packets -/

section

variable {α : Type} {Q : Tinysshd → Prop}

/-- A call of `buf_*`. -/
theorem keeps_run {x : BufField} (hx : ∀ b s, Q s → Q (x.set b s))
    (f : Buf → Except Exit Buf) : Keeps Q (x.run f) :=
  (keeps_reads _).bind fun r => (keeps_check r).bind fun b => keeps_modify fun s => hx b s

/-- What is in a buffer after calls that say what they leave. -/
theorem triple_run {x : BufField} {f : Buf → Except Exit Buf} {R : Bytes → Prop}
    (hQ : Keeps Q (x.run f)) (hf : ∀ b b', f b = .ok b' → R b'.data) :
    Triple Q (x.run f) (fun _ s => Q s ∧ R (x.get s).data) fun _ s => Q s := by
  constructor
  intro s hs
  have hkept := hQ s hs
  rw [BufField.run, exec_reads_bind] at hkept ⊢
  cases hb : f (x.get s) with
  | error e => exact hs
  | ok b =>
    rw [hb, exec_check_bind rfl, exec_modify] at hkept
    rw [exec_check_bind rfl, exec_modify]
    refine ⟨hkept, ?_⟩
    rw [x.get_set, if_pos rfl]
    exact hf _ b hb

/-- `packet_get`, where it has a payload. -/
theorem keeps_packetGetReceived {x : BufField} (hx : ∀ b s, Q s → Q (x.set b s))
    (hid : ∀ (n : UInt32) (s : Tinysshd), Q s → Q { s with receivepacketid := n }) (t : UInt8)
    (r : Received) : Keeps Q (packetGetReceived t x r) := by
  refine (keeps_modify fun s => hid _ s).bind fun _ => (keeps_run hx _).bind fun _ =>
    (keeps_reads _).bind fun many => Keeps.ite (keeps_throw _) ?_
  exact (keeps_reads _).bind fun r => (keeps_check r).bind fun r => (keeps_run hx _).bind fun _ =>
    keeps_pure _

/-- What it leaves in the buffer, where it does not fail. -/
theorem triple_packetGetReceived_payload {x : BufField} (hx : ∀ b s, Q s → Q (x.set b s))
    (hid : ∀ (n : UInt32) (s : Tinysshd), Q s → Q { s with receivepacketid := n }) (t : UInt8)
    (r : Received) :
    Triple Q (packetGetReceived t x r)
      (fun ok s => Q s ∧ (ok = true → (x.get s).data = [] ∨ (x.get s).data = r.payload))
      fun _ s => Q s := by
  have hpurge (b b' : Buf) (h : (do let b ← b.purge; b.put r.payload) = .ok b') :
      b'.data = r.payload := (Buf.puts.put r.payload).of_purge h
  refine Triple.bind (Q := fun _ => Q) (triple_modify fun s => hid _ s) fun _ => ?_
  refine Triple.bind (triple_run (R := (· = r.payload)) (keeps_run hx _) hpurge) fun _ => ?_
  refine triple_reads_any fun many => Triple.ite (fun _ => triple_throw fun _ h => h.1)
    fun _ => ?_
  refine triple_reads_bind fun found => ⟨?_⟩
  rintro s ⟨⟨hs, hdata⟩, rfl⟩
  refine Triple.run (P := Q) ?_ s hs
  refine triple_check_bind (fun _ _ h => h) fun found hfound => ?_
  refine Triple.bind (triple_run (R := (· = found.2.data)) (keeps_run hx _) fun b b' h => ?_)
    fun _ => triple_pure fun t ht => ⟨ht.1, fun hok => ?_⟩
  · cases h
    rfl
  · have hfound : packetGetSwitch _ _ = .ok (found.1, found.2) := hfound
    rcases packetGetSwitch_cases hfound with
      ⟨hfalse, -⟩ | ⟨-, hnil, -⟩ | ⟨-, hsame, -⟩
    · rw [hfalse] at hok
      cases hok
    · exact .inl (ht.2.trans hnil)
    · exact .inr (ht.2.trans ((congrArg Buf.data hsame).trans hdata))

end

section

variable {α : Type} {Q : Tinysshd → Prop} [Steady Q]

/-- Calls that leave the channel alone. -/
theorem keeps_onLoop {m : LoopM α} (h : ∀ c, Keeps (fun l => l.chan = c) m) :
    Keeps Q (onLoop m) := by
  intro s hs
  have hchan := h s.loop.chan s.loop rfl
  rw [onLoop, exec_zoom]
  exact Steady.loop _ s hchan hs

theorem keeps_run_work {x : BufField} (hx : x.Work) (f : Buf → Except Exit Buf) :
    Keeps Q (x.run f) := keeps_run (Steady.buf hx) f

/-- Both forms of `packet_put` add to `sendbuf` or fail. -/
theorem keeps_packetPutAny (payload : Bytes) : Keeps Q (packetPutAny payload) := by
  refine (keeps_reads _).bind fun flagkeys => keeps_onLoop fun c => Keeps.ite ?_ ?_
  · refine (keeps_reads _).bind fun room => Keeps.ite (keeps_modify fun _ h => h) ?_
    exact (keeps_modify (by intro s h; exact h)).bind fun _ => keeps_throw _
  · refine (keeps_reads _).bind fun room => Keeps.ite (keeps_modify fun _ h => h) ?_
    exact (keeps_modify (by intro s h; exact h)).bind fun _ => keeps_throw _

theorem keeps_packetPutBuf (x : BufField) : Keeps Q (packetPutBuf x) :=
  (keeps_reads _).bind fun payload => keeps_packetPutAny payload

theorem keeps_packetSendall (ok : Bool) : Keeps Q (onLoop (packetSendall ok)) := by
  refine keeps_onLoop fun c => Keeps.ite ?_ (keeps_pure _)
  exact (keeps_modify (by intro s h; exact h)).bind fun _ => keeps_pure _

theorem keeps_packetGetReceived_work {x : BufField} (hx : x.Work) (t : UInt8) (r : Received) :
    Keeps Q (packetGetReceived t x r) :=
  keeps_packetGetReceived (Steady.buf hx) Steady.receivepacketid t r

/-- **A packet that `packet_getall` returns was sent by the client.** -/
theorem triple_packetGetall {x : BufField} (hx : ∀ b s, Q s → Q (x.set b s)) (t : UInt8)
    (l : List Arrival) :
    Triple (fun s => Q s ∧ s.Hears l) (packetGetall t x)
      (fun ok s => (Q s ∧ s.Hears l) ∧
        (ok = true → ∃ r, .packet r ∈ l ∧ (x.get s).data = r.payload))
      fun _ s => Q s ∧ s.Hears l := by
  have hset (k : List Arrival) (b : Buf) (s : Tinysshd) (h : Q s ∧ s.arrivals = k) :
      Q (x.set b s) ∧ (x.set b s).arrivals = k := ⟨hx b s h.1, (x.arrivals_set b s).trans h.2⟩
  have hid (k : List Arrival) (n : UInt32) (s : Tinysshd) (h : Q s ∧ s.arrivals = k) :
      Q { s with receivepacketid := n } ∧ s.arrivals = k := ⟨Steady.receivepacketid n s h.1, h.2⟩
  have hhears {k : List Arrival} (hk : ∀ a ∈ k, a ∈ l) (s : Tinysshd) (h : Q s ∧ s.arrivals = k) :
      Q s ∧ s.Hears l := ⟨h.1, by rw [Tinysshd.Hears, h.2]; exact hk⟩
  have hfalse {k : List Arrival} (hk : ∀ a ∈ k, a ∈ l) (s : Tinysshd)
      (h : Q s ∧ s.arrivals = k) : (Q s ∧ s.Hears l) ∧
        (false = true → ∃ r, .packet r ∈ l ∧ (x.get s).data = r.payload) :=
    ⟨hhears hk s h, fun h => by cases h⟩
  -- By induction on what is to come, of which the code has not taken anything yet.
  have hfrom (k : List Arrival) (hk : ∀ a ∈ k, a ∈ l) :
      Triple (fun s => Q s ∧ s.arrivals = k) (packetGetallFrom t x k)
        (fun ok s => (Q s ∧ s.Hears l) ∧
          (ok = true → ∃ r, .packet r ∈ l ∧ (x.get s).data = r.payload))
        fun _ s => Q s ∧ s.Hears l := by
    induction k with
    | nil => exact triple_pure (hfalse hk)
    | cons a k ih =>
      have hrest : ∀ b ∈ k, b ∈ l := fun b hb => hk b (List.mem_cons_of_mem a hb)
      have hstep : Triple (fun s => Q s ∧ s.arrivals = a :: k)
          (modify fun s => { s with arrivals := k } : SessionM PUnit)
          (fun _ s => Q s ∧ s.arrivals = k) fun _ s => Q s ∧ s.Hears l := by
        refine triple_modify fun s hs => ⟨Steady.arrivals k s (fun b hb => ?_) hs.1, rfl⟩
        rw [hs.2]
        exact List.mem_cons_of_mem a hb
      cases a with
      | closed => exact hstep.bind fun _ => triple_pure (hfalse hrest)
      | malformed => exact hstep.bind fun _ => triple_throw (hhears hrest)
      | packet r =>
        refine hstep.bind fun _ => ((triple_packetGetReceived_payload (hset k) (hid k) t r).exits
          fun _ => hhears hrest).bind fun ok =>
          Triple.ite (fun hok => ?_) fun _ => triple_pure fun s hs => hfalse hrest s hs.1
        refine triple_reads_bind fun dropped => Triple.ite
          (fun _ => (ih hrest).pre fun s hs => hs.1.1) fun hdropped => triple_pure ?_
        rintro s ⟨⟨hs, hdata⟩, rfl⟩
        refine ⟨hhears hrest s hs, fun _ => ⟨r, hk _ List.mem_cons_self, ?_⟩⟩
        rcases hdata hok with hnil | hpayload
        · exact absurd (decide_eq_true hnil) hdropped
        · exact hpayload
  have hpurge : Keeps (fun s => Q s ∧ s.Hears l) (x.run Buf.purge) :=
    keeps_run (fun b s h => ⟨hx b s h.1, (steadyKex_hears l).set x b s h.2⟩) _
  refine (hpurge.triple fun _ _ h => h).bind fun _ => triple_reads_bind fun k => ⟨?_⟩
  rintro s ⟨⟨hs, hears⟩, rfl⟩
  exact (hfrom s.arrivals hears).run s ⟨hs, rfl⟩

theorem keeps_packetGetall_of {x : BufField} (hx : ∀ b s, Q s → Q (x.set b s)) (t : UInt8) :
    Keeps Q (packetGetall t x) := by
  intro s hs
  have hrun := (triple_packetGetall hx t s.arrivals).run s ⟨hs, fun _ h => h⟩
  rcases hexec : exec (packetGetall t x) s with ⟨a, u⟩
  rw [hexec] at hrun
  cases a with
  | ok ok => exact hrun.1.1
  | error e => exact hrun.1

theorem keeps_packetGetall {x : BufField} (hx : x.Work) (t : UInt8) : Keeps Q (packetGetall t x) :=
  keeps_packetGetall_of (Steady.buf hx) t

/-- "drop packet", where the client guessed wrong. -/
theorem keeps_skipGuess : Keeps Q skipGuess :=
  (keeps_reads _).bind fun _ => (keeps_packetGetall .of_b1 _).ite (keeps_pure _)

/-- "receive newkeys". -/
theorem keeps_awaitNewkeys (fuel : ℕ) : Keeps Q (awaitNewkeys fuel) := by
  induction fuel with
  | zero => exact keeps_pure _
  | succ fuel ih =>
    refine (keeps_run_work .of_b2 _).bind fun _ => (keeps_packetGetall .of_b2 _).bind fun ok =>
      Keeps.ite ?_ (keeps_pure _)
    exact (keeps_reads _).bind fun newkeys => (keeps_pure _).ite ih

/-! ## 4. `packet_auth` -/

/-- The signature is checked in `b2`, the key in `b1`. -/
theorem keeps_verifyLogin (P : Primitives) (nvs : NvsLine) (name keyname : Bytes)
    (pk : Vector UInt8 32) (sig request : Bytes) :
    Keeps Q (verifyLogin P nvs name keyname pk sig request) := by
  refine (keeps_reads _).bind fun sessionid => (keeps_reads _).bind fun hashBytes =>
    (keeps_run_work .of_b2 _).bind fun _ => (keeps_reads _).bind fun sm =>
    (keeps_run_work .of_b1 _).bind fun _ => (keeps_reads _).bind fun tight =>
    (keeps_throw _).ite ((keeps_throw _).ite ?_)
  exact (keeps_run_work .of_b1 _).bind fun _ => (keeps_reads _).bind fun key =>
    (keeps_pure _).ite (keeps_pure _)

theorem keeps_publickeyTry (P : Primitives) (env : AuthEnv) (count : ℕ) (b : Bytes)
    (r : UserauthRequest) : Keeps Q (publickeyTry P env count b r) := by
  refine (keeps_check _).bind fun p => (keeps_reads _).bind fun row => ?_
  cases row with
  | none => exact keeps_pure _
  | some row =>
    refine (keeps_check _).bind fun pk => Keeps.ite ?_ ?_
    · exact (keeps_run_work .of_b1 _).bind fun _ => (keeps_packetPutBuf _).bind fun _ =>
        (keeps_packetSendall _).bind fun sent => keeps_pure _
    · exact (keeps_check _).bind fun sig =>
        (keeps_verifyLogin P _ _ _ _ _ _).bind fun l => keeps_pure _

theorem keeps_reject (env : AuthEnv) (count : ℕ) : Keeps Q (reject env count) :=
  (keeps_run_work .of_b1 _).bind fun _ => (keeps_packetPutBuf _).bind fun _ =>
    (keeps_packetSendall _).bind fun _ => keeps_pure _

/-- A request, with its answer; the user's name goes where the channel's name is. -/
theorem keeps_packetAuthTry (P : Primitives) (env : AuthEnv) (count : ℕ) :
    Keeps Q (packetAuthTry P env count) := by
  refine (keeps_packetGetall .of_b1 _).bind fun ok => (keeps_pure _).ite ?_
  refine (keeps_reads _).bind fun b => (keeps_check _).bind fun r =>
    (keeps_modify fun s => Steady.loop { s.loop with name := r.name } s rfl).bind fun _ => ?_
  refine ((keeps_publickeyTry P env count b r).ite (keeps_pure _)).bind fun t => ?_
  cases t with
  | none => exact keeps_reject env count
  | some t => exact keeps_pure _

theorem keeps_packetAuthLoop (P : Primitives) (env : AuthEnv) (left : ℕ) :
    Keeps Q (packetAuthLoop P env left) := by
  induction left with
  | zero => exact keeps_pure _
  | succ left ih =>
    refine (keeps_packetAuthTry P env _).bind fun t => ?_
    cases t with
    | again => exact ih
    | failed => exact keeps_pure _
    | authorized l =>
      exact (keeps_run_work .of_b1 _).bind fun _ => (keeps_packetPutBuf _).bind fun _ =>
        (keeps_packetSendall _).bind fun sent => keeps_pure _

/-- **`packet_auth` only sends and receives**: the flag is set by its caller. -/
theorem keeps_packetAuth (P : Primitives) (env : AuthEnv) : Keeps Q (packetAuth P env) := by
  refine (keeps_packetGetall .of_b1 _).bind fun ok => (keeps_pure _).ite ?_
  refine (keeps_reads _).bind fun r => (keeps_check _).bind fun _ =>
    (keeps_run_work .of_b1 _).bind fun _ => (keeps_packetPutBuf _).bind fun _ =>
    (keeps_packetSendall _).bind fun sent => ?_
  exact (keeps_packetAuthLoop P env 32).ite (keeps_pure _)

/-- "authentication + authorization" notes the login. -/
theorem keeps_authentication (P : Primitives) (env : AuthEnv)
    (hauth : ∀ (l : Login) (s : Tinysshd), Q s → Q { s with
      flagauthorized := true
      events := s.events ++ [.auth l] }) :
    Keeps Q (authentication P env) := by
  refine (keeps_reads _).bind fun done => (keeps_pure _).ite
    ((keeps_packetAuth P env).bind fun l => ?_)
  cases l with
  | none => exact keeps_throw _
  | some l => exact keeps_modify (hauth l)

end

/-! ## 5. Hello, KEXINIT and the key exchange -/

section

variable {Q : Tinysshd → Prop} [SteadyKex Q]

theorem keeps_run_any (x : BufField) (f : Buf → Except Exit Buf) : Keeps Q (x.run f) :=
  keeps_run (SteadyKex.set x) f

/-- `packet_kex_send` writes `kexsend`. -/
theorem keeps_packetKexSend (cookie : Vector UInt8 16) (sent : Bool) :
    Keeps Q (onKex (packetKexSend cookie sent)) := by
  intro s hs
  rw [onKex, exec_zoom, packetKexSend, exec_reads_bind]
  cases hpacket : kexinitPacket s.kex.crypto cookie s.kex.kexsend with
  | error e =>
    rw [exec_bind_error (exec_check _ _)]
    exact hs
  | ok b =>
    rw [exec_check_bind rfl, exec_modify_bind, exec_pure]
    exact SteadyKex.kexsend b s hs

theorem keeps_packetKexSendAll (cookie : Vector UInt8 16) (sent : Bool) :
    Keeps Q (packetKexSendAll cookie sent) :=
  (keeps_packetKexSend cookie sent).bind fun sent => (keeps_reads _).bind fun payload =>
    (keeps_packetPutAny payload).bind fun _ => keeps_packetSendall sent

theorem keeps_packetHelloSend (logstring : Vector UInt8 8) (sent : Bool) :
    Keeps Q (packetHelloSend logstring sent) := by
  refine (keeps_run_any _ _).bind fun _ => Keeps.ite ?_ (keeps_pure _)
  exact (keeps_run_any _ _).bind fun _ => keeps_pure _

theorem keeps_packetHelloReceive (client : Bytes) : Keeps Q (packetHelloReceive client) := by
  refine (keeps_reads _).bind fun alloc => ?_
  split
  · exact keeps_pure _
  · refine Keeps.ite (keeps_pure _) ?_
    exact (keeps_run_any _ _).bind fun _ => keeps_pure _

/-- The first time it does nothing. -/
theorem keeps_answerKexinit (env : KexdhEnv) : Keeps Q (answerKexinit env) := by
  refine (keeps_reads _).bind fun again => Keeps.ite ?_ (keeps_pure _)
  exact (keeps_reads _).bind fun b => (keeps_run_any _ _).bind fun _ =>
    (keeps_packetKexSendAll _ _).bind fun ok => keeps_check _

theorem keeps_deriveKeys (P : Primitives) (sharedsecret : Vector UInt8 64) (hash : Bytes)
    (l : List ℕ) : Keeps Q (deriveKeys P sharedsecret hash l) := by
  induction l with
  | nil => exact keeps_pure _
  | cons i l ih =>
    refine Keeps.bind ?_ fun _ => ih
    refine (keeps_reads _).bind fun g => (keeps_reads _).bind fun sessionid =>
      (keeps_run_any _ _).bind fun _ => (keeps_reads _).bind fun key =>
      (keeps_run_any _ _).bind fun _ => ?_
    exact keeps_modify fun s => SteadyKex.keys _ s

/-- "send server kex_ecdh_reply" to the end of `packet_kexdh`. -/
theorem keeps_kexdhEnd (P : Primitives) (env : KexdhEnv) (serverpk : Bytes)
    (sharedsecret : Vector UInt8 64) (hash : Bytes) (sm : Vector UInt8 64) :
    Keeps Q (do
      BufField.b1.run Buf.purge
      let pk ← reads fun s => hostKey s.kex.crypto
      BufField.b2.run (kexdhReply pk serverpk sm)
      packetPutBuf .b2
      BufField.b2.run (oneByteMessage SSH_MSG_NEWKEYS)
      packetPutBuf .b2
      let sent ← onLoop (packetSendall env.replySent)
      if !sent then return false
      else do
        let fuel ← reads fun s => s.arrivals.length + 1
        let newkeys ← awaitNewkeys fuel
        if !newkeys then return false
        else do
          deriveKeys P sharedsecret hash [0, 1, 2, 3, 4, 5]
          return true) := by
  refine (keeps_run_any _ _).bind fun _ => (keeps_reads _).bind fun pk =>
    (keeps_run_any _ _).bind fun _ => (keeps_packetPutBuf _).bind fun _ =>
    (keeps_run_any _ _).bind fun _ => (keeps_packetPutBuf _).bind fun _ =>
    (keeps_packetSendall _).bind fun sent => (keeps_pure _).ite ?_
  refine (keeps_reads _).bind fun fuel => (keeps_awaitNewkeys fuel).bind fun newkeys =>
    (keeps_pure _).ite ?_
  exact (keeps_deriveKeys P _ _ _).bind fun _ => keeps_pure _

/-- **`packet_kexdh`** writes one thing that may matter, the session id. -/
theorem keeps_packetKexdh (P : Primitives) (env : KexdhEnv)
    (hid : ∀ (hash : Bytes) (s : Tinysshd), Q s → Q { s with
      sessionid := if s.flagrekeying then s.sessionid else overwrite s.sessionid 0 hash
      flagrekeying := true }) :
    Keeps Q (packetKexdh P env) := by
  have hhash (clientpk serverpk : Bytes) (sharedsecret : Vector UInt8 64) :
      Keeps Q (exchangeHash P clientpk serverpk sharedsecret) := by
    refine keeps_get.bind fun s => (keeps_run_any _ _).bind fun _ => (keeps_reads _).bind fun g =>
      (keeps_reads _).bind fun hash => ?_
    exact (keeps_modify fun s => hid hash s).bind fun _ => keeps_pure _
  refine keeps_skipGuess.bind fun ok => (keeps_pure _).ite ?_
  refine (keeps_packetGetall .of_b1 _).bind fun ok => (keeps_pure _).ite ?_
  refine (keeps_reads _).bind fun g => (keeps_reads _).bind fun clientpk =>
    (keeps_check _).bind fun clientpk => (keeps_run_any _ _).bind fun _ => (keeps_check _).bind
    fun enc => (hhash _ _ _).bind fun hash => ?_
  cases env.sm with
  | none => exact keeps_pure _
  | some sm => exact keeps_kexdhEnd P env _ _ _ sm

/-- From `rekeying` on, the first time and every other. -/
theorem keeps_rekeying (P : Primitives) (env : KexdhEnv)
    (hid : ∀ (hash : Bytes) (s : Tinysshd), Q s → Q { s with
      sessionid := if s.flagrekeying then s.sessionid else overwrite s.sessionid 0 hash
      flagrekeying := true })
    (hend : ∀ s : Tinysshd, Q s → Q { s with
      flagkeys := true
      events := s.events ++ [.kexdh s.sessionid s.flagauthorized] }) :
    Keeps Q (rekeying P env) :=
  (keeps_answerKexinit env).bind fun _ => (keeps_packetKexdh P env hid).bind fun _ =>
    (keeps_check _).bind fun _ => keeps_modify hend

end

/-! ## 6. The main loop -/

section

variable {Q : Tinysshd → Prop} [SteadyLoop Q]

/-- What works on the loop's own state. -/
theorem keeps_onLoop_any {α : Type} (m : LoopM α) : Keeps Q (onLoop m) :=
  fun s hs => SteadyLoop.anyLoop _ s hs

/-- **"process packets"** receives, notes what it has, and hands it on. -/
theorem keeps_sessionPackets (l : List TurnPacket) : Keeps Q (sessionPackets l) := by
  induction l with
  | nil => exact keeps_pure _
  | cons p l ih =>
    rw [sessionPackets]
    split
    · exact keeps_pure _
    · exact keeps_throw _
    · refine (keeps_packetGetReceived_work .of_b1 _ _).bind fun ok => (keeps_pure _).ite
        ((keeps_reads _).bind fun b => (keeps_pure _).ite ?_)
      refine (keeps_modify fun s => SteadyLoop.dispatch b s).bind fun _ => (keeps_pure _).ite ?_
      exact ((keeps_reads _).bind fun _ => keeps_onLoop_any _).bind fun go => ih.ite (keeps_pure _)

end

end Glossh.Ssh
