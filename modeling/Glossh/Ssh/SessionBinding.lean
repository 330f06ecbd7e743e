/-
# A login belongs to one key exchange

What a client signs in a login is the session id and the request.  The session id is the hash of
the session's first exchange, and what is hashed there can be read back: so a signature that one
session accepted is accepted in another one only if the two had the same first exchange, cookies,
host key and public values included, or the hash collides.

* `keeps_sessionLoop_binding`: what the first exchange settled, the main loop leaves;
* `session_binding`: every login of every session is one over the hash of its first exchange;
* `login_binds_session`: a signed text that two sessions accept.
-/
import Glossh.Ssh.KeyExchange

namespace Glossh.Ssh

open Bytes Prog

/-! ## 1. What a login is bound to -/

/-- What the signature of a login is over. -/
def Login.signedText (l : Login) : Bytes := sshString (l.sessionid.take l.hashBytes) ++ l.request

def loginsOf (events : List SessionEvent) : List Login :=
  events.filterMap fun
    | .auth l => some l
    | _ => none

/-- The logins that a session accepted. -/
def Tinysshd.logins (s : Tinysshd) : List Login := loginsOf s.events

structure BindingView where
  flagauthorized : Bool
  flagrekeying : Bool
  sessionid : Bytes
  crypto : Sshcrypto
  logins : List Login

def Tinysshd.binding (s : Tinysshd) : BindingView :=
  ⟨s.flagauthorized, s.flagrekeying, s.sessionid, s.kex.crypto, s.logins⟩

instance steadyKex_binding (v : BindingView) : SteadyKex fun s => s.binding = v where
  buf {x} _ b s h := by cases x <;> exact h
  loop _ _ _ h := h
  receivepacketid _ _ h := h
  arrivals _ _ _ h := h
  set x b s h := by cases x <;> exact h
  kexsend _ _ h := h
  keys _ _ h := h

theorem logins_concat_other {e : SessionEvent} (he : ∀ l, e ≠ .auth l) (s : Tinysshd) :
    ({ s with events := s.events ++ [e] } : Tinysshd).logins = s.logins := by
  rw [Tinysshd.logins, loginsOf, List.filterMap_append]
  cases e with
  | auth l => exact absurd rfl (he l)
  | kexdh _ _ => exact List.append_nil _
  | dispatch _ => exact List.append_nil _

section

variable (P : Primitives)

/-- **The binding**: the session id is settled, and every login is one over it that the client
presented. -/
structure BindingView.Bound (arrivals : List Arrival) (sid : Bytes) (c : Sshcrypto)
    (v : BindingView) : Prop where
  flagrekeying : v.flagrekeying = true
  sessionid : v.sessionid = sid
  crypto : v.crypto = c
  login : ∀ l ∈ v.logins, l.Accepted P arrivals sid c.kex.hashBytes

/-! ## 2. Key exchanges -/

/-- What an exchange leaves alone: the id once there is one, and the rest at all times. -/
structure BindingView.Exchanged (v w : BindingView) : Prop where
  flagauthorized : w.flagauthorized = v.flagauthorized
  crypto : w.crypto = v.crypto
  logins : w.logins = v.logins
  again : v.flagrekeying = true → w.flagrekeying = true ∧ w.sessionid = v.sessionid

theorem BindingView.Exchanged.refl (v : BindingView) : v.Exchanged v :=
  ⟨rfl, rfl, rfl, fun h => ⟨h, rfl⟩⟩

/-- A later exchange leaves everything alone. -/
theorem BindingView.Exchanged.eq {v w : BindingView} (h : v.Exchanged w)
    (hagain : v.flagrekeying = true) : w = v := by
  obtain ⟨hflag, hid⟩ := h.again hagain
  cases v with
  | mk flagauthorized flagrekeying sessionid crypto logins =>
    cases w with
    | mk flagauthorized' flagrekeying' sessionid' crypto' logins' =>
      cases h.flagauthorized
      cases h.crypto
      cases h.logins
      cases hid
      cases hflag
      cases hagain
      rfl

theorem keeps_rekeying_exchanged (v : BindingView) (env : KexdhEnv) :
    Keeps (fun s => v.Exchanged s.binding) (rekeying P env) := by
  have := SteadyKex.of_view steadyKex_binding v.Exchanged
  refine keeps_rekeying P env (fun hash s hs => ?_) fun s hs => ?_
  · refine ⟨hs.flagauthorized, hs.crypto, hs.logins, fun hagain => ⟨rfl, ?_⟩⟩
    obtain ⟨hflag, hsame⟩ := hs.again hagain
    have hflag : s.flagrekeying = true := hflag
    have hwritten : (if s.flagrekeying then s.sessionid else overwrite s.sessionid 0 hash) =
        s.sessionid := if_pos hflag
    exact hwritten.trans hsame
  · have hlogins := logins_concat_other (e := .kexdh s.sessionid s.flagauthorized)
      (by intro l h; cases h) s
    exact ⟨hs.flagauthorized, hs.crypto, hlogins.trans hs.logins, hs.again⟩

/-! ## 3. The main loop -/

instance steadyLoop_binding (v : BindingView) : SteadyLoop fun s => s.binding = v where
  toSteady := (steadyKex_binding v).toSteady
  anyLoop _ _ h := h
  dispatch b s h := by
    have hlogins := logins_concat_other (e := .dispatch b) (by intro l h; cases h) s
    rw [Tinysshd.binding, hlogins]
    exact h

section

variable {v : BindingView} (hauth : v.flagauthorized = true) (hagain : v.flagrekeying = true)

include hauth in
/-- Who is authorized is not asked again. -/
theorem keeps_authentication_done (env : AuthEnv) :
    Keeps (fun s => s.binding = v) (authentication P env) := by
  intro s hs
  have hdone : s.flagauthorized = true := (congrArg BindingView.flagauthorized hs).trans hauth
  rw [authentication, exec_reads_bind, hdone]
  exact hs

include hauth hagain

/-- An iteration, with the exchange it may lead to. -/
theorem keeps_turn_binding (t : Turn) : Keeps (fun s => s.binding = v) (turn P t) := by
  have hrekeying : Keeps (fun s => s.binding = v) (rekeying P t.kexdh) := by
    rintro s rfl
    exact (keeps_rekeying_exchanged P s.binding t.kexdh s (.refl _)).eq hagain
  rw [turn_eq]
  refine (keeps_turnPackets t).bind fun again => ?_
  rcases again with _ | _ | _
  · exact keeps_pure _
  · exact keeps_pure _
  · exact Keeps.bind (keeps_modify fun _ hs => hs) fun _ => hrekeying.bind fun _ =>
      (keeps_authentication_done P hauth t.auth).bind fun _ => keeps_pure _

/-- **What is settled stays so**: no iteration of the main loop and no later exchange writes the
session id, selects other algorithms or lets anyone in. -/
theorem keeps_sessionLoop_binding (l : List Turn) :
    Keeps (fun s => s.binding = v) (sessionLoop P l) := by
  induction l with
  | nil => exact keeps_pure _
  | cons t l ih =>
    exact (keeps_turn_binding P hauth hagain t).bind fun left => (keeps_pure _).ite ih

end

/-! ## 4. Authentication -/

variable {arrivals : List Arrival} {sid : Bytes} {c : Sshcrypto}

/-- Whoever is let in presented the request in a packet that was still to come. -/
theorem triple_authentication_bound (env : AuthEnv) :
    Triple (fun s => s.binding.Bound P arrivals sid c ∧ s.Hears arrivals) (authentication P env)
      (fun _ s => s.binding.Bound P arrivals sid c ∧ s.flagauthorized = true)
      fun _ s => s.binding.Bound P arrivals sid c := by
  refine triple_reads_bind fun done => Triple.ite (fun hdone => triple_pure ?_) fun _ => ?_
  · rintro s ⟨hs, rfl⟩
    exact ⟨hs.1, hdone⟩
  refine Triple.bind (Q := fun l s => s.binding.Bound P arrivals sid c ∧ ∀ x, l = some x →
    x.Accepted P arrivals sid c.kex.hashBytes) ⟨?_⟩ fun l => ?_
  · rintro s ⟨⟨hs, hears⟩, -⟩
    have hsid : s.gate.sessionid = sid := hs.sessionid
    have hcrypto : s.kex.crypto = c := hs.crypto
    have hat (t : Tinysshd) (ht : t.At s.gate s.kex.crypto arrivals) :
        t.binding.Bound P arrivals sid c := by
      have hlogins : t.binding.logins = s.binding.logins :=
        congrArg (fun g : GateView => loginsOf g.events) ht.gate_eq
      exact ⟨(congrArg GateView.flagrekeying ht.gate_eq).trans hs.flagrekeying,
        (congrArg GateView.sessionid ht.gate_eq).trans hsid, ht.crypto_eq.trans hcrypto,
        by rw [hlogins]; exact hs.login⟩
    refine ((triple_packetAuth P s.gate s.kex.crypto arrivals env).run s
      ⟨rfl, rfl, hears⟩).mono (fun l t h => ⟨hat t h.1, ?_⟩) fun _ t h => hat t h
    rw [← hsid, ← hcrypto]
    exact h.2
  · cases l with
    | none => exact triple_throw fun s h => h.1
    | some l =>
      refine triple_modify fun s h => ⟨⟨h.1.flagrekeying, h.1.sessionid, h.1.crypto, ?_⟩, rfl⟩
      intro x hx
      have hlogins : ({ s with flagauthorized := true, events := s.events ++ [.auth l] } :
          Tinysshd).binding.logins = s.logins ++ [l] := List.filterMap_append
      rw [hlogins] at hx
      rcases List.mem_append.mp hx with hold | hnew
      · exact h.1.login x hold
      · rw [List.mem_singleton.mp hnew]
        exact h.2 l rfl

/-- With the main loop behind it. -/
theorem keeps_session_bound (env : TinysshdEnv) {u : Tinysshd}
    (hu : u.binding.Bound P arrivals sid c) (hears : u.Hears arrivals) :
    (exec (authentication P env.auth >>= fun _ => sessionLoop P env.turns) u).2.binding.Bound P
      arrivals sid c := by
  have hauth := (triple_authentication_bound P env.auth).run u ⟨hu, hears⟩
  rcases hx : exec (authentication P env.auth) u with ⟨a, t⟩
  rw [hx] at hauth
  cases a with
  | error e =>
    rw [exec_bind_error hx]
    exact hauth
  | ok _ =>
    obtain ⟨ht, hdone⟩ := hauth
    have hloop : (exec (sessionLoop P env.turns) t).2.binding = t.binding :=
      keeps_sessionLoop_binding P (v := t.binding) hdone ht.flagrekeying env.turns t rfl
    rw [exec_bind_ok hx, hloop]
    exact ht

/-! ## 5. Whole sessions -/

/-- The first exchange of a session: what it came from, and that its hash is the session id. -/
def FirstExchange (earlier : List TinysshdRun) (r : TinysshdRun) (x : Rfc4253.Exchange) : Prop :=
  ∃ t u, exec (beginSession r.env)
      (tinysshdStart (sshcryptoAfter P earlier) r.random r.arrivals) = (.ok (), t) ∧
    exec (rekeying P r.env.kexdh) t = (.ok (), u) ∧
    t.exchangeView.Makes t.arrivals r.env.kexdh x ∧ r.env.Lines x.vC x.vS ∧
    x.iS = t.kex.crypto.kexinit r.env.kexdh.cookie ∧
    u.sessionid.take t.kex.crypto.kex.hashBytes = t.kex.crypto.kex.sshcryptoHash P x.encode

/-- Up to the first exchange. -/
theorem keeps_beginSession {Q : Tinysshd → Prop} [SteadyKex Q] (env : TinysshdEnv)
    (hkex : ∀ {α : Type} (m : Prog KexState Exit α), Keeps Q (onKex m)) :
    Keeps Q (beginSession env) :=
  (keeps_awaitKexinit env hkex).bind fun _ => (keeps_reads _).bind fun _ => (hkex _).bind fun _ =>
    keeps_check _

/-- An exchange that fails is not recorded. -/
theorem triple_rekeying_events (env : KexdhEnv) :
    Triple (fun s => s.gate.events = []) (rekeying P env) (fun _ _ => True)
      fun _ s => s.gate.events = [] := by
  have := SteadyKex.of_view steadyKex_gate fun g => g.events = []
  refine ((keeps_answerKexinit env).triple fun _ _ h => h).bind fun _ =>
    ((keeps_packetKexdh P env fun _ _ h => h).triple fun _ _ h => h).bind fun ok => ?_
  exact triple_check_bind (fun _ _ h => h) fun _ _ => triple_modify fun _ _ => trivial

/-- **What a whole session keeps**: nothing came of it, or it had a first exchange, and its session
id, its exchanges and its logins are bound to that. -/
theorem session_bound (earlier : List TinysshdRun) (r : TinysshdRun) :
    let s := (r.run P (sshcryptoAfter P earlier)).2
    let g := s.kex.crypto.kex
    s.events = [] ∨ ∃ x, FirstExchange P earlier r x ∧
      s.sessionid.take g.hashBytes = g.sshcryptoHash P x.encode ∧
      ∀ l ∈ s.logins, l.Accepted P r.arrivals s.sessionid g.hashBytes := by
  intro s g
  let s₀ := tinysshdStart (sshcryptoAfter P earlier) r.random r.arrivals
  have hs : s = (exec (beginSession r.env >>= fun _ => (rekeying P r.env.kexdh >>= fun _ =>
      authentication P r.env.auth) >>= fun _ => sessionLoop P r.env.turns) s₀).2 := by
    rw [← tinysshd_eq_beginSession]
    rfl
  have hbegun := (triple_beginSession (sshcryptoAfter_bounded P earlier) r.env r.random
    r.arrivals).run s₀ rfl
  have hgate := keeps_beginSession (Q := fun s => s.gate = s₀.gate) r.env
    (fun m => frame_onKex m s₀.gate) s₀ rfl
  have hears := keeps_beginSession (Q := Tinysshd.Hears r.arrivals) r.env
    (fun _ _ h => h) s₀ fun _ h => h
  rcases hbegin : exec (beginSession r.env) s₀ with ⟨a, t⟩
  rw [hbegin] at hbegun hgate hears
  have hnone : t.gate.events = [] := congrArg GateView.events hgate
  cases a with
  | error e =>
    left
    rw [hs, exec_bind_error hbegin]
    exact hnone
  | ok _ =>
    have hbegun : t.exchangeView.Begun r.env := hbegun
    have hexchanged := keeps_rekeying_exchanged P t.binding r.env.kexdh t (.refl _)
    have hevents := (triple_rekeying_events P r.env.kexdh).run t hnone
    have hears := keeps_rekeying (Q := Tinysshd.Hears r.arrivals) P r.env.kexdh
      (fun _ _ h => h) (fun _ h => h) t hears
    rw [exec_bind_ok hbegin, bind_assoc] at hs
    rcases hfirst : exec (rekeying P r.env.kexdh) t with ⟨b, u⟩
    rw [hfirst] at hexchanged hevents hears
    cases b with
    | error e =>
      left
      rw [hs, exec_bind_error hfirst]
      exact hevents
    | ok _ =>
      right
      obtain ⟨x, hmakes, hC, hS, hiS, hid, -⟩ := exec_rekeying_first P hbegun hfirst
      obtain ⟨hready, hcrypto, -, -⟩ := settled_of_first P hbegun hfirst
      have hview : t.exchangeView.answered t.b1.data r.env.kexdh.cookie = t.exchangeView :=
        if_neg (by rw [hbegun.flagrekeying]; decide)
      rw [hview] at hmakes
      have hlogins : u.binding.logins = [] := by
        rw [hexchanged.logins]
        exact congrArg loginsOf hnone
      have hbound : u.binding.Bound P r.arrivals u.sessionid t.kex.crypto :=
        ⟨hready.flagrekeying, rfl, hcrypto, fun l hl => by
          rw [hlogins] at hl
          cases hl⟩
      have hend : s.binding.Bound P r.arrivals u.sessionid t.kex.crypto := by
        rw [hs, exec_bind_ok hfirst]
        exact keeps_session_bound P r.env hbound hears
      have hcrypto : s.kex.crypto = t.kex.crypto := hend.crypto
      have hkex : g = t.kex.crypto.kex := congrArg Sshcrypto.kex hcrypto
      have hsid : s.sessionid = u.sessionid := hend.sessionid
      refine ⟨x, ⟨t, u, hbegin, hfirst, hmakes, ?_, hiS, hid⟩, ?_, fun l hl => ?_⟩
      · rw [hC, hS]
        exact hbegun.lines
      · rw [hsid, hkex]
        exact hid
      · rw [hsid, hkex]
        exact hend.login l hl

/-- **Every login is one over the hash of the first exchange.**  In every session, after any number
of others: whoever was let in has sent, in one packet, a request signed by a key that the flash
memory authorizes, and what was signed begins with the hash of the lines, the KEXINITs, the host
key, the public values and the secret of the session's first exchange.  That hash is the session id
with which every later exchange ends, and the session. -/
theorem session_binding (earlier : List TinysshdRun) (r : TinysshdRun) :
    let s := (r.run P (sshcryptoAfter P earlier)).2
    let g := s.kex.crypto.kex
    s.events = [] ∨ ∃ x, FirstExchange P earlier r x ∧
      s.sessionid.take g.hashBytes = g.sshcryptoHash P x.encode ∧
      (∀ sessionid flagauthorized, .kexdh sessionid flagauthorized ∈ s.events →
        sessionid.take g.hashBytes = g.sshcryptoHash P x.encode) ∧
      ∀ l ∈ s.logins, (∃ p, .packet p ∈ r.arrivals ∧ l.PresentedBy p.payload) ∧
        l.key = keyString l.pk ∧ subprocessAuth l.nvs l.keyname l.key = 0 ∧
        P.signOpen (l.sig ++ (sshString (g.sshcryptoHash P x.encode) ++ l.request)) l.pk =
          true := by
  intro s g
  rcases session_bound P earlier r with hnone | ⟨x, hx, hid, hlogins⟩
  · exact .inl hnone
  · refine .inr ⟨x, hx, hid, fun sessionid flagauthorized hkexdh => ?_, fun l hl => ?_⟩
    · have hgated : Gated P s.gate := keeps_tinysshd r.env _ (gated_start _ r.random r.arrivals)
      rw [(hgated.exchange sessionid flagauthorized hkexdh).2]
      exact hid
    · obtain ⟨hverified, hpresented, hsid, hbytes⟩ := hlogins l hl
      refine ⟨hpresented, hverified.key_eq, hverified.subprocessAuth_eq, ?_⟩
      have hopen := hverified.signOpen_eq
      rw [hsid, hbytes, hid] at hopen
      exact hopen

/-- **A signature is good for one session.**  Where two sessions accept the same signed text, they
hash with the same function, and had the same first exchange or the two exchanges are a collision of
that function. -/
theorem login_binds_session {e₁ e₂ : List TinysshdRun} {r₁ r₂ : TinysshdRun} {l₁ l₂ : Login}
    (h₁ : l₁ ∈ (r₁.run P (sshcryptoAfter P e₁)).2.logins)
    (h₂ : l₂ ∈ (r₂.run P (sshcryptoAfter P e₂)).2.logins) (htext : l₁.signedText = l₂.signedText) :
    let g₁ := (r₁.run P (sshcryptoAfter P e₁)).2.kex.crypto.kex
    let g₂ := (r₂.run P (sshcryptoAfter P e₂)).2.kex.crypto.kex
    g₁.hash = g₂.hash ∧ g₁.hashBytes = g₂.hashBytes ∧
      ∃ x₁ x₂, FirstExchange P e₁ r₁ x₁ ∧ FirstExchange P e₂ r₂ x₂ ∧
        (x₁ = x₂ ∨ x₁.encode ≠ x₂.encode ∧
          g₁.sshcryptoHash P x₁.encode = g₁.sshcryptoHash P x₂.encode) := by
  intro g₁ g₂
  have hbound {e : List TinysshdRun} {r : TinysshdRun} {l : Login}
      (h : l ∈ (r.run P (sshcryptoAfter P e)).2.logins) :
      ∃ x, FirstExchange P e r x ∧ l.sessionid.take l.hashBytes =
        (r.run P (sshcryptoAfter P e)).2.kex.crypto.kex.sshcryptoHash P x.encode := by
    rcases session_bound P e r with hnone | ⟨x, hx, hid, hlogins⟩
    · rw [Tinysshd.logins, hnone] at h
      cases h
    · obtain ⟨-, -, hsid, hbytes⟩ := hlogins l h
      exact ⟨x, hx, by rw [hsid, hbytes]; exact hid⟩
  obtain ⟨x₁, hx₁, hhash₁⟩ := hbound h₁
  obtain ⟨x₂, hx₂, hhash₂⟩ := hbound h₂
  have hg₁ : g₁.Bounded := (r₁.bounded P (sshcryptoAfter_bounded P e₁)).1.kex.crypto.kex
  have hg₂ : g₂.Bounded := (r₂.bounded P (sshcryptoAfter_bounded P e₂)).1.kex.crypto.kex
  have hlen {g : KexGlobals} (hg : g.Bounded) (m : Bytes) :
      (g.sshcryptoHash P m).length < 256 ^ 4 := by
    rw [length_sshcryptoHash P hg]
    exact hg.hashBytes_le.trans_lt (by decide)
  -- The text begins with the two hashes, as strings.
  have hsame := (Rfc4253.string_append_inj (by rw [hhash₁]; exact hlen hg₁ _)
    (by rw [hhash₂]; exact hlen hg₂ _) htext).1
  rw [hhash₁, hhash₂] at hsame
  have hbytes : g₁.hashBytes = g₂.hashBytes := by
    have hlength := congrArg List.length hsame
    rwa [length_sshcryptoHash P hg₁, length_sshcryptoHash P hg₂] at hlength
  have hhash : g₁.hash = g₂.hash := hg₁.hash_eq hg₂ hbytes
  refine ⟨hhash, hbytes, x₁, x₂, hx₁, hx₂, ?_⟩
  by_cases hencode : x₁.encode = x₂.encode
  · obtain ⟨_, _, -, -, hmakes₁, -⟩ := hx₁
    obtain ⟨_, _, -, -, hmakes₂, -⟩ := hx₂
    exact .inl (Rfc4253.Exchange.encode_inj hmakes₁.fits hmakes₂.fits hencode)
  · refine .inr ⟨hencode, hsame.trans ?_⟩
    rw [KexGlobals.sshcryptoHash, KexGlobals.sshcryptoHash, ← hhash, ← hbytes]

end

/-- The cookie of a session is in its first exchange, so that the same exchange is one of the same
cookie. -/
theorem FirstExchange.cookie_eq {P : Primitives} {e₁ e₂ : List TinysshdRun} {r₁ r₂ : TinysshdRun}
    {x : Rfc4253.Exchange} (h₁ : FirstExchange P e₁ r₁ x) (h₂ : FirstExchange P e₂ r₂ x) :
    r₁.env.kexdh.cookie = r₂.env.kexdh.cookie := by
  obtain ⟨t₁, -, -, -, -, -, hiS₁, -⟩ := h₁
  obtain ⟨t₂, -, -, -, -, -, hiS₂, -⟩ := h₂
  have hkexinit := hiS₁.symm.trans hiS₂
  rw [Sshcrypto.kexinit, Sshcrypto.kexinit, kexinitBytes, kexinitBytes] at hkexinit
  have hcookies := List.append_inj_right hkexinit rfl
  have hlength : r₁.env.kexdh.cookie.toList.length = r₂.env.kexdh.cookie.toList.length := by
    rw [Vector.length_toList, Vector.length_toList]
  exact Vector.toList_inj.mp (List.append_inj_left hcookies hlength)

/-- The session of a client that logs in, with that cookie of the server. -/
def loginRun (cookie : Vector UInt8 16) : TinysshdRun where
  env := { loginThen [] with kexdh := { plainKexdh with cookie } }
  random _ := false
  arrivals := loginArrivals

/-- What it accepts after power-up, where the hash is always the same. -/
def loginRunLogins (cookie : Vector UInt8 16) : List Login :=
  ((loginRun cookie).run plainPrimitives (sshcryptoAfter plainPrimitives [])).2.logins

/-- A login that is presented again after the next power-up: with the constant hash it is accepted,
although the cookies differ, and the two exchanges are the collision. -/
theorem login_binds_session_replay :
    let c₁ := Vector.replicate 16 0
    let c₂ := Vector.replicate 16 1
    ∃ l₁ ∈ loginRunLogins c₁, ∃ l₂ ∈ loginRunLogins c₂, l₁.signedText = l₂.signedText ∧
      ∃ x₁ x₂, FirstExchange plainPrimitives [] (loginRun c₁) x₁ ∧
        FirstExchange plainPrimitives [] (loginRun c₂) x₂ ∧ x₁.encode ≠ x₂.encode ∧
        let g := ((loginRun c₁).run plainPrimitives
          (sshcryptoAfter plainPrimitives [])).2.kex.crypto.kex
        g.sshcryptoHash plainPrimitives x₁.encode = g.sshcryptoHash plainPrimitives x₂.encode := by
  intro c₁ c₂
  have hlength : (loginRunLogins c₁).length = 1 := by decide +kernel
  have htexts : (loginRunLogins c₁).map Login.signedText =
      (loginRunLogins c₂).map Login.signedText := by decide +kernel
  obtain ⟨l₁, hl₁⟩ := List.length_eq_one_iff.mp hlength
  have hmem : l₁.signedText ∈ (loginRunLogins c₂).map Login.signedText := by
    rw [← htexts, hl₁]
    exact List.mem_singleton_self _
  obtain ⟨l₂, h₂, htext⟩ := List.mem_map.mp hmem
  have h₁ : l₁ ∈ loginRunLogins c₁ := by
    rw [hl₁]
    exact List.mem_singleton_self _
  obtain ⟨-, -, x₁, x₂, hx₁, hx₂, hsame⟩ :=
    login_binds_session plainPrimitives h₁ h₂ htext.symm
  refine ⟨l₁, h₁, l₂, h₂, htext.symm, x₁, x₂, hx₁, hx₂, ?_⟩
  rcases hsame with rfl | hcollision
  · exact absurd (hx₁.cookie_eq hx₂) (by decide)
  · exact hcollision

end Glossh.Ssh
