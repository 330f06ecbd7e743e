/-
# No channel without authentication

Of the state of a session only a few fields decide what a client may do: `flagauthorized`,
`flagrekeying`, `sessionid`, the channel, and the record of what the session came to.  Nearly
every function leaves all of them alone (`Frame`); `packet_kexdh` writes `sessionid` the first
time, `packet_auth` returns what it verified, and `main_tinysshd` itself does the rest.

The invariant speaks of those fields alone.  It is carried through the program, whose exits may come
anywhere.
-/
import Glossh.Ssh.Frame

namespace Glossh.Ssh

open Bytes Prog

/-! ## 1. What a login consists of -/

/-- The text of a key in the line of the flash memory. -/
def keyString (pk : Vector UInt8 32) : Bytes :=
  base64Chars ([0, 0, 0, 11] ++ ed25519Name ++ [0, 0, 0, 32] ++ pk.toList) 0 0 ++
    List.replicate ((4 - (base64Chars ([0, 0, 0, 11] ++ ed25519Name ++ [0, 0, 0, 32] ++
      pk.toList) 0 0).length % 4) % 4) 0x3d

/-- The payload holds the whole request: the name, the key and the signature. -/
def Login.PresentedBy (l : Login) (payload : Bytes) : Prop :=
  ∃ r p pos sig n, parseUserauthRequest payload = .ok r ∧ r.name = l.name ∧
    r.method = ascii "publickey" ∧ parsePublickeyRequest payload r.pos = .ok p ∧
    p.flagsignature = true ∧ parsePublickeyBlob payload p.pos = .ok (l.pk, pos) ∧
    parseSignatureBlob payload pos = .ok (sig, l.request) ∧ l.sig = sig.toList.take n

/-- The request and its signature fit together as one payload.  That the client sent this payload is
in `Login.Accepted`. -/
def Login.Presented (l : Login) : Prop := ∃ payload, l.PresentedBy payload

/-- The key signed the session id and the request, and the flash memory authorizes it. -/
structure Login.Verified (P : Primitives) (l : Login) : Prop where
  presented : l.Presented
  signOpen_eq : P.signOpen (l.sig ++ (sshString (l.sessionid.take l.hashBytes) ++ l.request)) l.pk =
    true
  key_eq : l.key = keyString l.pk
  subprocessAuth_eq : subprocessAuth l.nvs l.keyname l.key = 0

/-- What `packet_auth` returns with, where `arrivals` are the packets to come: the request is in one
of them, and what was signed begins with that many bytes of the session id. -/
structure Login.Accepted (P : Primitives) (arrivals : List Arrival) (sessionid : Bytes)
    (hashBytes : ℕ) (l : Login) : Prop where
  verified : l.Verified P
  presented : ∃ r, .packet r ∈ arrivals ∧ l.PresentedBy r.payload
  sessionid_eq : l.sessionid = sessionid
  hashBytes_eq : l.hashBytes = hashBytes

/-! ## 2. The fields that matter -/

structure GateView where
  flagauthorized : Bool
  flagrekeying : Bool
  sessionid : Bytes
  events : List SessionEvent
  chan : ChannelState

def Tinysshd.gate (s : Tinysshd) : GateView :=
  ⟨s.flagauthorized, s.flagrekeying, s.sessionid, s.events, s.loop.chan⟩

theorem BufField.gate_set (x : BufField) (b : Buf) (s : Tinysshd) : (x.set b s).gate = s.gate := by
  cases x <;> rfl

theorem BufField.crypto_set (x : BufField) (b : Buf) (s : Tinysshd) :
    (x.set b s).kex.crypto = s.kex.crypto := by
  cases x <;> rfl

theorem gate_loop {l : Loop} {s : Tinysshd} (h : l.chan = s.loop.chan) :
    ({ s with loop := l } : Tinysshd).gate = s.gate := by
  change (⟨_, _, _, _, l.chan⟩ : GateView) = _
  rw [h]
  rfl

instance steadyKex_gate (v : GateView) : SteadyKex fun s => s.gate = v where
  buf {x} _ b s h := (x.gate_set b s).trans h
  loop _ _ hchan h := (gate_loop hchan).trans h
  receivepacketid _ _ h := h
  arrivals _ _ _ h := h
  set x b s h := (x.gate_set b s).trans h
  kexsend _ _ h := h
  keys _ _ h := h

theorem frame_onKex {α : Type} (m : Prog KexState Exit α) : Frame Tinysshd.gate (onKex m) :=
  fun _ _ hs => hs

theorem frame_packetKexReceiveAll : Frame Tinysshd.gate packetKexReceiveAll := fun v =>
  (keeps_packetGetall_of (SteadyKex.set _) _).bind fun _ => (keeps_reads _).bind fun _ =>
    frame_onKex _ v

/-- A state of which the fields that matter, the algorithms and the packets to come are known. -/
structure Tinysshd.At (v : GateView) (c : Sshcrypto) (l : List Arrival) (s : Tinysshd) : Prop where
  gate_eq : s.gate = v
  crypto_eq : s.kex.crypto = c
  hears : s.Hears l

instance steady_at (v : GateView) (c : Sshcrypto) (l : List Arrival) :
    Steady (Tinysshd.At v c l) where
  buf {x} hx b s h := ⟨(x.gate_set b s).trans h.gate_eq, (x.crypto_set b s).trans h.crypto_eq,
    Steady.buf hx b s h.hears⟩
  loop _ _ hchan h := ⟨(gate_loop hchan).trans h.gate_eq, h.crypto_eq, h.hears⟩
  receivepacketid _ _ h := ⟨h.gate_eq, h.crypto_eq, h.hears⟩
  arrivals l s hl h := ⟨h.gate_eq, h.crypto_eq, Steady.arrivals l s hl h.hears⟩

/-! ## 3. `packet_kexdh` -/

section

variable (P : Primitives)

/-- After "session id": the id is as it was, unless there was none. -/
structure Exchanged (v g : GateView) : Prop where
  flagauthorized_eq : g.flagauthorized = v.flagauthorized
  flagrekeying_of : v.flagrekeying = true → g.flagrekeying = true
  events_eq : g.events = v.events
  chan_eq : g.chan = v.chan
  sessionid_eq : v.flagrekeying = true → g.sessionid = v.sessionid

theorem Exchanged.refl (v : GateView) : Exchanged v v :=
  ⟨rfl, fun h => h, rfl, rfl, fun _ => rfl⟩

/-- "create hash", "session id". -/
theorem triple_exchangeHash (v : GateView) (clientpk serverpk : Bytes)
    (sharedsecret : Vector UInt8 64) :
    Triple (fun s => s.gate = v) (exchangeHash P clientpk serverpk sharedsecret)
      (fun _ s => Exchanged v s.gate ∧ s.gate.flagrekeying = true)
      (fun _ s => Exchanged v s.gate) := by
  have hexit : ∀ (e : Exit) (s : Tinysshd), s.gate = v → Exchanged v s.gate := by
    rintro e s rfl
    exact Exchanged.refl _
  refine Triple.bind (Keeps.triple keeps_get hexit) fun s => ?_
  refine Triple.bind ((keeps_run_any _ _).triple hexit) fun _ => ?_
  refine triple_reads_any fun g => triple_reads_any fun hash => ?_
  refine Triple.bind (Q := fun _ (s : Tinysshd) => Exchanged v s.gate ∧ s.gate.flagrekeying = true)
    (triple_modify ?_) fun _ => triple_pure fun _ h => h
  rintro s rfl
  refine ⟨⟨rfl, fun _ => rfl, rfl, rfl, ?_⟩, rfl⟩
  intro hagain
  exact if_pos hagain

/-- **`packet_kexdh`** authorizes nobody and touches no channel; the session id it leaves alone once
there is one. -/
theorem triple_packetKexdh (v : GateView) (env : KexdhEnv) :
    Triple (fun s => s.gate = v) (packetKexdh P env)
      (fun ok s => Exchanged v s.gate ∧ (ok = true → s.gate.flagrekeying = true))
      (fun _ s => Exchanged v s.gate) := by
  have hexit : ∀ (e : Exit) (s : Tinysshd), s.gate = v → Exchanged v s.gate := by
    rintro e s rfl
    exact Exchanged.refl _
  have hfalse : ∀ s : Tinysshd, s.gate = v →
      Exchanged v s.gate ∧ (false = true → s.gate.flagrekeying = true) := by
    rintro s rfl
    exact ⟨Exchanged.refl _, fun h => by cases h⟩
  refine Triple.bind (keeps_skipGuess.triple hexit) fun ok =>
    Triple.ite (fun _ => triple_pure hfalse) fun _ => ?_
  refine Triple.bind ((keeps_packetGetall .of_b1 _).triple hexit) fun ok =>
    Triple.ite (fun _ => triple_pure hfalse) fun _ => ?_
  refine triple_reads_any fun g => triple_reads_any fun clientpk => triple_check_bind hexit
    fun clientpk _ => ?_
  refine Triple.bind ((keeps_run_any _ _).triple hexit) fun _ => triple_check_bind hexit
    fun enc _ => ?_
  refine Triple.bind (triple_exchangeHash P v _ _ _) fun hash => ?_
  -- From here on nothing is written that matters.
  have hrest : ∀ {α : Type} {m : SessionM α}, Frame Tinysshd.gate m → Keeps (fun s : Tinysshd =>
      Exchanged v s.gate ∧ s.gate.flagrekeying = true) m :=
    fun h => h.keeps fun g => Exchanged v g ∧ g.flagrekeying = true
  cases env.sm with
  | none => exact triple_pure fun s h => ⟨h.1, fun hok => by cases hok⟩
  | some sm =>
    exact ((hrest fun _ => keeps_kexdhEnd P env _ _ _ sm).triple fun _ _ h => h.1).post
      fun ok s h => ⟨h.1, fun _ => h.2⟩

end

/-! ## 4. `packet_auth` -/

/-- What the signature is checked against: the session id, as a string, and the request. -/
theorem signedMessage_data {sig sessionid request : Bytes} {b b' : Buf}
    (h : signedMessage sig sessionid request b = .ok b') :
    b'.data = sig ++ (sshString sessionid ++ request) := by
  have hputs := (Buf.puts.put sig).bind
    ((Buf.puts.putStringLen sessionid).bind (Buf.puts.put request))
  rw [signedMessage] at h
  exact hputs.of_purge h

/-- No digit is a zero byte. -/
theorem b64char_ne_zero (x : UInt64) : b64char x ≠ 0 := by
  have hall : ∀ i < 64, (ascii
      "ABCDEFGHIJKLMNOPQRSTUVWXYZabcdefghijklmnopqrstuvwxyz0123456789+/").getD i 0 ≠ 0 := by
    decide +kernel
  refine hall _ ?_
  rw [UInt64.toNat_and]
  exact Nat.lt_succ_of_le Nat.and_le_right

/-- None of the characters is the zero byte that ends the text. -/
theorem base64Digits_ne_zero (v : UInt64) (fuel bits : ℕ) :
    ∀ c ∈ (base64Digits v fuel bits).1, c ≠ 0 := by
  induction fuel generalizing bits with
  | zero => exact fun c hc => by cases hc
  | succ fuel ih =>
    rw [base64Digits]
    split
    · intro c hc
      rcases List.mem_cons.mp hc with rfl | hc
      · exact b64char_ne_zero _
      · exact ih _ c hc
    · exact fun c hc => by cases hc

theorem base64Chars_ne_zero (l : Bytes) (v : UInt64) (bits : ℕ) :
    ∀ c ∈ base64Chars l v bits, c ≠ 0 := by
  induction l generalizing v bits with
  | nil =>
    rw [base64Chars]
    split
    · intro c hc
      obtain rfl := List.mem_singleton.mp hc
      exact b64char_ne_zero _
    · exact fun c hc => by cases hc
  | cons x l ih =>
    intro c hc
    rw [base64Chars] at hc
    rcases List.mem_append.mp hc with hc | hc
    · exact base64Digits_ne_zero _ _ _ c hc
    · exact ih _ _ c hc

/-- The text `subprocess_auth` compares, up to its zero byte. -/
theorem keyText_data {pk : Vector UInt8 32} {b b' : Buf} (h : keyText pk b = .ok b') :
    b'.data.takeWhile (· ≠ 0) = keyString pk := by
  obtain ⟨c, hc, hrest⟩ := except_bind_ok h
  have hnil : c.data = [] := by
    rw [Buf.purge] at hc
    split at hc
    · cases hc
      rfl
    · cases hc
  obtain ⟨d, hd, hzero⟩ := except_bind_ok hrest
  obtain ⟨e, he, hpadding⟩ := except_bind_ok hd
  have hchars := (Buf.put_ok he).1
  have hpadded := (Buf.put_ok hpadding).1
  have hlast := (Buf.put_ok hzero).1
  have hdata : b'.data = keyString pk ++ [0] := by
    rw [hlast, hpadded, hchars, hnil]
    rfl
  have hne : ∀ c ∈ keyString pk, c ≠ 0 := by
    intro c hc
    rcases List.mem_append.mp hc with hc | hc
    · exact base64Chars_ne_zero _ _ _ c hc
    · rw [(List.mem_replicate.mp hc).2]
      decide
  rw [hdata, List.takeWhile_append_of_pos (by simpa using hne)]
  simp

section

variable (P : Primitives) (v : GateView) (c : Sshcrypto) (l : List Arrival)

/-- What `packet_auth` and its parts return: nothing, or a login that was accepted. -/
def LoginPost (x : Option Login) (s : Tinysshd) : Prop :=
  s.At v c l ∧ ∀ y, x = some y → y.Accepted P l v.sessionid c.kex.hashBytes

theorem loginPost_none {s : Tinysshd} (h : s.At v c l) : LoginPost P v c l none s :=
  ⟨h, fun _ hx => by cases hx⟩

/-- "authenticate user - verify signature", "authorize user". -/
theorem triple_verifyLogin (nvs : NvsLine) (name keyname : Bytes) (pk : Vector UInt8 32)
    (sig request : Bytes) (hpresented : ∀ key sessionid hashBytes, ∃ r, .packet r ∈ l ∧
      Login.PresentedBy ⟨name, keyname, key, pk, sig, sessionid, hashBytes, request, nvs⟩
        r.payload) :
    Triple (Tinysshd.At v c l) (verifyLogin P nvs name keyname pk sig request)
      (LoginPost P v c l) fun _ => Tinysshd.At v c l := by
  have hexit : ∀ (e : Exit) (s : Tinysshd), s.At v c l → s.At v c l := fun _ _ h => h
  refine triple_reads_eq (x := v.sessionid) (fun s hs => by rw [← hs.gate_eq]; rfl) ?_
  refine triple_reads_eq (x := c.kex.hashBytes) (fun s hs => by rw [hs.crypto_eq]) ?_
  refine Triple.bind (triple_run (R := fun x => x = _) (keeps_run_work .of_b2 _) fun b b' h =>
    signedMessage_data h) fun _ => ?_
  refine triple_reads_eq (fun s hs => hs.2) ?_
  refine Triple.pre (P := Tinysshd.At v c l) ?_ fun s h => h.1
  refine Triple.bind ((keeps_run_work .of_b1 _).triple hexit) fun _ => triple_reads_any
    fun tight => ?_
  refine Triple.ite (fun _ => triple_throw fun _ h => h) fun _ => ?_
  refine Triple.ite (fun _ => triple_throw fun _ h => h) fun hopen => ?_
  refine Triple.bind (triple_run (R := fun x => x.takeWhile (· ≠ 0) = _)
    (keeps_run_work .of_b1 _) fun b b' h => keyText_data h) fun _ => ?_
  refine triple_reads_eq (fun s hs => hs.2) ?_
  refine Triple.ite (fun hauth => triple_pure ?_) fun _ => triple_pure ?_
  · rintro s ⟨hs, -⟩
    refine ⟨hs, ?_⟩
    rintro x ⟨⟩
    have hopen : P.signOpen (sig ++ (sshString (v.sessionid.take c.kex.hashBytes) ++ request)) pk =
        true := by
      simpa using hopen
    obtain ⟨r, hr, hby⟩ := hpresented (keyString pk) v.sessionid c.kex.hashBytes
    exact ⟨⟨⟨r.payload, hby⟩, hopen, rfl, hauth⟩, ⟨r, hr, hby⟩, rfl, rfl⟩
  · rintro s ⟨hs, -⟩
    exact loginPost_none P v c l hs

/-- `LoginPost` of a request. -/
def TryPost (t : AuthTry) (s : Tinysshd) : Prop :=
  s.At v c l ∧ ∀ y, t = .authorized y → y.Accepted P l v.sessionid c.kex.hashBytes

/-- An answer is sent, and the client may try again. -/
theorem triple_answered {α : Type} {R : α → Tinysshd → Prop} {f : Buf → Except Exit Buf}
    (sent : Bool) {g : Bool → α} (h : ∀ b s, s.At v c l → R (g b) s) :
    Triple (Tinysshd.At v c l)
      (do
        BufField.b1.run f
        packetPutBuf .b1
        let ok ← onLoop (packetSendall sent)
        return g ok) R fun _ => Tinysshd.At v c l := by
  have hexit : ∀ (e : Exit) (s : Tinysshd), s.At v c l → s.At v c l := fun _ _ h => h
  refine Triple.bind ((keeps_run_work .of_b1 _).triple hexit) fun _ =>
    Triple.bind ((keeps_packetPutBuf _).triple hexit) fun _ =>
    Triple.bind ((keeps_packetSendall _).triple hexit) fun ok => triple_pure fun s hs => h ok s hs

/-- A request with the method "publickey", in a packet of the client. -/
theorem triple_publickeyTry (env : AuthEnv) (count : ℕ) {p : Received} {r : UserauthRequest}
    (hp : .packet p ∈ l) (hr : parseUserauthRequest p.payload = .ok r)
    (hmethod : r.method = ascii "publickey") :
    Triple (Tinysshd.At v c l) (publickeyTry P env count p.payload r)
      (fun t s => s.At v c l ∧ ∀ x, t = some x → TryPost P v c l x s)
      fun _ => Tinysshd.At v c l := by
  have hexit : ∀ (e : Exit) (s : Tinysshd), s.At v c l → s.At v c l := fun _ _ h => h
  have hnone : ∀ s : Tinysshd, s.At v c l →
      s.At v c l ∧ ∀ x, none = some x → TryPost P v c l x s :=
    fun s h => ⟨h, fun _ hx => by cases hx⟩
  refine triple_check_bind hexit fun q hq => triple_reads_any fun row => ?_
  cases row with
  | none => exact triple_pure hnone
  | some row =>
    refine triple_check_bind hexit fun pk hpk => Triple.ite (fun _ => ?_) fun hflag => ?_
    · -- Only asked whether the key would do.
      refine triple_answered v c l _ fun sent s h => ⟨h, ?_⟩
      rintro x ⟨⟩
      refine ⟨h, fun y hy => ?_⟩
      cases sent with
      | false => cases hy
      | true => cases hy
    · refine triple_check_bind hexit fun sig hsig => ?_
      have hpresented : ∀ key sessionid hashBytes, ∃ r', .packet r' ∈ l ∧ Login.PresentedBy ⟨r.name,
          row.name.getD [], key, pk.1, sig.1.toList.take row.signBytes, sessionid, hashBytes, sig.2,
          env.nvs count⟩ r'.payload :=
        fun _ _ _ => ⟨p, hp, r, q, pk.2, sig.1, row.signBytes, hr, rfl, hmethod, hq,
          by simpa using hflag, hpk, hsig, rfl⟩
      refine Triple.bind (triple_verifyLogin P v c l _ _ _ _ _ _ hpresented) fun x =>
        triple_pure fun s h => ⟨h.1, ?_⟩
      intro t ht
      obtain ⟨y, hy, rfl⟩ := Option.map_eq_some_iff.mp ht
      refine ⟨h.1, ?_⟩
      rintro z ⟨⟩
      exact h.2 y hy

/-- **One request**: whoever is let in by it has sent it in one packet, and was accepted. -/
theorem triple_packetAuthTry (env : AuthEnv) (count : ℕ) :
    Triple (Tinysshd.At v c l) (packetAuthTry P env count) (TryPost P v c l)
      fun _ => Tinysshd.At v c l := by
  have hexit : ∀ (e : Exit) (s : Tinysshd), s.At v c l → s.At v c l := fun _ _ h => h
  have hreject : Triple (Tinysshd.At v c l) (reject env count) (TryPost P v c l)
      fun _ => Tinysshd.At v c l := by
    refine triple_answered v c l _ fun sent s h => ⟨h, fun y hy => ?_⟩
    cases sent with
    | false => cases hy
    | true => cases hy
  refine Triple.bind (((triple_packetGetall (Steady.buf .of_b1) SSH_MSG_USERAUTH_REQUEST l).pre
    fun s h => ⟨h, h.hears⟩).exits fun _ _ h => h.1) fun ok =>
    Triple.ite (fun _ => ?_) fun hok => ?_
  · exact triple_pure fun s h => ⟨h.1.1, fun _ hx => by cases hx⟩
  -- What is in `b1` is the payload of a packet.
  refine triple_reads_bind fun b => ⟨?_⟩
  rintro s ⟨⟨⟨hs, -⟩, hpayload⟩, rfl⟩
  obtain ⟨p, hp, hdata⟩ := hpayload (by simpa using hok)
  have hdata : s.b1.data = p.payload := hdata
  rw [hdata]
  refine Triple.run (P := Tinysshd.At v c l) ?_ s hs
  refine triple_check_bind hexit fun r hr => ?_
  refine Triple.bind (Q := fun _ => Tinysshd.At v c l)
    (triple_modify fun s h => Steady.loop { s.loop with name := r.name } s rfl h) fun _ => ?_
  refine Triple.bind (Q := fun t s => s.At v c l ∧ ∀ x, t = some x → TryPost P v c l x s)
    (Triple.ite (fun hmethod => triple_publickeyTry P v c l env count hp hr hmethod)
      fun _ => triple_pure fun s h => ⟨h, fun _ hx => by cases hx⟩) fun t => ?_
  cases t with
  | none => exact hreject.pre fun s h => h.1
  | some t => exact triple_pure fun s h => h.2 t rfl

/-- At most 32 requests. -/
theorem triple_packetAuthLoop (env : AuthEnv) (left : ℕ) :
    Triple (Tinysshd.At v c l) (packetAuthLoop P env left) (LoginPost P v c l)
      fun _ => Tinysshd.At v c l := by
  induction left with
  | zero => exact triple_pure fun s h => loginPost_none P v c l h
  | succ left ih =>
    refine Triple.bind (triple_packetAuthTry P v c l env _) fun t => ?_
    cases t with
    | again => exact ih.pre fun s h => h.1
    | failed => exact triple_pure fun s h => loginPost_none P v c l h.1
    | authorized y =>
      refine Triple.pre (triple_of_fact fun haccepted => ?_) fun s h => ⟨h.1, h.2 y rfl⟩
      refine triple_answered v c l _ fun sent s h => ⟨h, fun x hx => ?_⟩
      cases sent with
      | false => cases hx
      | true =>
        cases hx
        exact haccepted

/-- **`packet_auth` returns 1 only with a login that was verified under the session id**, and that
one of the packets to come holds. -/
theorem triple_packetAuth (env : AuthEnv) :
    Triple (Tinysshd.At v c l) (packetAuth P env) (LoginPost P v c l)
      fun _ => Tinysshd.At v c l := by
  have hexit : ∀ (e : Exit) (s : Tinysshd), s.At v c l → s.At v c l := fun _ _ h => h
  refine Triple.bind ((keeps_packetGetall .of_b1 _).triple hexit) fun ok =>
    Triple.ite (fun _ => triple_pure fun s h => loginPost_none P v c l h) fun _ => ?_
  refine triple_reads_any fun r => triple_check_bind hexit fun _ _ => ?_
  refine Triple.bind ((keeps_run_work .of_b1 _).triple hexit) fun _ =>
    Triple.bind ((keeps_packetPutBuf _).triple hexit) fun _ =>
    Triple.bind ((keeps_packetSendall _).triple hexit) fun sent => ?_
  exact Triple.ite (fun _ => triple_packetAuthLoop P v c l env 32)
    fun _ => triple_pure fun s h => loginPost_none P v c l h

end

/-! ## 5. The invariant -/

/-- Where an event stands after one more came. -/
theorem append_cons_snoc {α : Type} {l pre post : List α} {x y : α}
    (h : l ++ [y] = pre ++ x :: post) :
    pre = l ∧ x = y ∧ post = [] ∨ ∃ post', post = post' ++ [y] ∧ l = pre ++ x :: post' := by
  rcases List.eq_nil_or_concat post with rfl | ⟨post', z, rfl⟩
  · left
    obtain ⟨hl, hx⟩ := List.append_inj' h rfl
    exact ⟨hl.symm, (List.singleton_inj.mp hx).symm, rfl⟩
  · right
    have hsplit : l ++ [y] = (pre ++ x :: post') ++ [z] := by
      rw [h, List.concat_eq_append, List.append_assoc, List.cons_append]
    obtain ⟨hl, hy⟩ := List.append_inj' hsplit rfl
    exact ⟨post', by rw [List.concat_eq_append, List.singleton_inj.mp hy], hl⟩

section

variable (P : Primitives)

/-- **The gate.**  Until somebody is authorized the channel is as `channel_init` left it, and key
exchanges are all that happened. -/
structure Gated (g : GateView) : Prop where
  closed : g.flagauthorized = false →
    g.chan = ⟨Channel.init, []⟩ ∧ ∀ x ∈ g.events, ∃ sessionid, x = .kexdh sessionid false
  opened : g.flagauthorized = true → ∃ l, .auth l ∈ g.events
  login : ∀ l, .auth l ∈ g.events →
    g.flagrekeying = true ∧ l.Verified P ∧ l.sessionid = g.sessionid
  exchange : ∀ sessionid flagauthorized, .kexdh sessionid flagauthorized ∈ g.events →
    g.flagrekeying = true ∧ sessionid = g.sessionid
  gated : ∀ pre b post, g.events = pre ++ .dispatch b :: post → ∃ l, .auth l ∈ pre
  kept : ∀ pre l post, g.events = pre ++ .auth l :: post →
    ∀ sessionid flagauthorized, .kexdh sessionid flagauthorized ∈ post → flagauthorized = true

/-- What the main loop runs with. -/
def Opened (g : GateView) : Prop := Gated P g ∧ g.flagrekeying = true ∧ g.flagauthorized = true

variable {P}

theorem gated_start (c : Sshcrypto) (random : ℕ → Bool) (arrivals : List Arrival) :
    Gated P (tinysshdStart c random arrivals).gate where
  closed _ := ⟨rfl, fun _ hx => by cases hx⟩
  opened h := by cases h
  login _ h := by cases h
  exchange _ _ h := by cases h
  gated pre _ _ h := by cases pre <;> cases h
  kept pre _ _ h := by cases pre <;> cases h

/-- The session id is written before anything happened. -/
theorem Gated.of_exchanged {v g : GateView} (h : Gated P v) (hx : Exchanged v g) : Gated P g where
  closed hflag := by
    rw [hx.chan_eq, hx.events_eq]
    exact h.closed (hx.flagauthorized_eq.symm.trans hflag)
  opened hflag := by
    rw [hx.events_eq]
    exact h.opened (hx.flagauthorized_eq.symm.trans hflag)
  login l hl := by
    rw [hx.events_eq] at hl
    obtain ⟨hflag, hverified, hid⟩ := h.login l hl
    exact ⟨hx.flagrekeying_of hflag, hverified, hid.trans (hx.sessionid_eq hflag).symm⟩
  exchange sessionid flagauthorized hk := by
    rw [hx.events_eq] at hk
    obtain ⟨hflag, hid⟩ := h.exchange sessionid flagauthorized hk
    exact ⟨hx.flagrekeying_of hflag, hid.trans (hx.sessionid_eq hflag).symm⟩
  gated := by
    rw [hx.events_eq]
    exact h.gated
  kept := by
    rw [hx.events_eq]
    exact h.kept

/-- A key exchange ends. -/
theorem Gated.kexdh {g : GateView} (h : Gated P g) (hflag : g.flagrekeying = true) :
    Gated P { g with events := g.events ++ [.kexdh g.sessionid g.flagauthorized] } where
  closed hclosed := by
    refine ⟨(h.closed hclosed).1, fun x hx => ?_⟩
    rcases List.mem_append.mp hx with hx | hx
    · exact (h.closed hclosed).2 x hx
    · have hflag : g.flagauthorized = false := hclosed
      refine ⟨g.sessionid, ?_⟩
      rw [List.mem_singleton.mp hx, hflag]
  opened hopened := by
    obtain ⟨l, hl⟩ := h.opened hopened
    exact ⟨l, List.mem_append_left _ hl⟩
  login l hl := by
    rcases List.mem_append.mp hl with hl | hl
    · exact h.login l hl
    · cases List.mem_singleton.mp hl
  exchange sessionid flagauthorized hk := by
    rcases List.mem_append.mp hk with hk | hk
    · exact h.exchange sessionid flagauthorized hk
    · cases List.mem_singleton.mp hk
      exact ⟨hflag, rfl⟩
  gated pre b post hpre := by
    rcases append_cons_snoc hpre with ⟨-, heq, -⟩ | ⟨post', -, hold⟩
    · cases heq
    · exact h.gated pre b post' hold
  kept pre l post hpre sessionid flagauthorized hk := by
    rcases append_cons_snoc hpre with ⟨-, heq, -⟩ | ⟨post', rfl, hold⟩
    · cases heq
    · rcases List.mem_append.mp hk with hk | hk
      · exact h.kept pre l post' hold sessionid flagauthorized hk
      · cases List.mem_singleton.mp hk
        -- Without the flag nobody would have been authorized.
        by_contra hclosed
        have hmem : .auth l ∈ g.events := by
          rw [hold]
          exact List.mem_append_right _ List.mem_cons_self
        obtain ⟨_, hx⟩ := (h.closed (eq_false_of_ne_true hclosed)).2 _ hmem
        cases hx

/-- Somebody is authorized. -/
theorem Gated.auth {g : GateView} {l : Login} (h : Gated P g) (hflag : g.flagrekeying = true)
    (hl : l.Verified P ∧ l.sessionid = g.sessionid) :
    Opened P { g with flagauthorized := true, events := g.events ++ [.auth l] } := by
  refine ⟨⟨fun hclosed => (by cases hclosed), fun _ => ⟨l, by simp⟩, ?_, ?_, ?_, ?_⟩, hflag, rfl⟩
  · intro x hx
    rcases List.mem_append.mp hx with hx | hx
    · exact h.login x hx
    · cases List.mem_singleton.mp hx
      exact ⟨hflag, hl⟩
  · intro sessionid flagauthorized hk
    rcases List.mem_append.mp hk with hk | hk
    · exact h.exchange sessionid flagauthorized hk
    · cases List.mem_singleton.mp hk
  · intro pre b post hpre
    rcases append_cons_snoc hpre with ⟨-, heq, -⟩ | ⟨post', -, hold⟩
    · cases heq
    · exact h.gated pre b post' hold
  · intro pre x post hpre sessionid flagauthorized hk
    rcases append_cons_snoc hpre with ⟨-, -, rfl⟩ | ⟨post', rfl, hold⟩
    · cases hk
    · rcases List.mem_append.mp hk with hk | hk
      · exact h.kept pre x post' hold sessionid flagauthorized hk
      · cases List.mem_singleton.mp hk

/-- The `switch` has a packet. -/
theorem Opened.dispatch {g : GateView} (h : Opened P g) (b : Bytes) :
    Opened P { g with events := g.events ++ [.dispatch b] } := by
  obtain ⟨h, hflag, hauth⟩ := h
  obtain ⟨l, hl⟩ := h.opened hauth
  have hmem : ∀ x, x ∈ g.events ++ [.dispatch b] → x ≠ .dispatch b → x ∈ g.events := by
    intro x hx hne
    rcases List.mem_append.mp hx with hx | hx
    · exact hx
    · exact absurd (List.mem_singleton.mp hx) hne
  refine ⟨⟨fun hclosed => ?_, fun _ => ⟨l, List.mem_append_left _ hl⟩, ?_, ?_, ?_, ?_⟩, hflag,
    hauth⟩
  · cases hauth.symm.trans hclosed
  · exact fun x hx => h.login x (hmem _ hx (by simp))
  · exact fun sessionid flagauthorized hk => h.exchange _ _ (hmem _ hk (by simp))
  · intro pre c post hpre
    rcases append_cons_snoc hpre with ⟨rfl, -, -⟩ | ⟨post', -, hold⟩
    · exact ⟨l, hl⟩
    · exact h.gated pre c post' hold
  · intro pre x post hpre sessionid flagauthorized hk
    rcases append_cons_snoc hpre with ⟨-, heq, -⟩ | ⟨post', rfl, hold⟩
    · cases heq
    · rcases List.mem_append.mp hk with hk | hk
      · exact h.kept pre x post' hold sessionid flagauthorized hk
      · cases List.mem_singleton.mp hk

/-- Once somebody is authorized, anything may be done to the channel. -/
theorem Opened.chan {g : GateView} (h : Opened P g) (c : ChannelState) :
    Opened P { g with chan := c } := by
  obtain ⟨h, hflag, hauth⟩ := h
  refine ⟨⟨fun hclosed => ?_, h.opened, h.login, h.exchange, h.gated, h.kept⟩, hflag, hauth⟩
  cases hauth.symm.trans hclosed

/-! ## 6. The session -/

variable (P)

/-- From `rekeying` on, the first time and every other. -/
theorem triple_rekeying (env : KexdhEnv) (a : Bool) :
    Triple (fun s => Gated P s.gate ∧ s.gate.flagauthorized = a) (rekeying P env)
      (fun _ s => (Gated P s.gate ∧ s.gate.flagauthorized = a) ∧ s.gate.flagrekeying = true)
      (fun _ s => Gated P s.gate) := by
  have hexit : ∀ (e : Exit) (s : Tinysshd), Gated P s.gate ∧ s.gate.flagauthorized = a →
      Gated P s.gate := fun _ _ h => h.1
  have hframe : Frame Tinysshd.gate (answerKexinit env) := fun _ => keeps_answerKexinit env
  have hanswer := hframe.keeps fun g => Gated P g ∧ g.flagauthorized = a
  refine Triple.bind (hanswer.triple hexit) fun _ => ?_
  refine Triple.bind (Q := fun ok s => (Gated P s.gate ∧ s.gate.flagauthorized = a) ∧
    (ok = true → s.gate.flagrekeying = true)) ⟨fun s hs => ?_⟩ fun ok => ?_
  · refine ((triple_packetKexdh P s.gate env).run s rfl).mono (fun ok t h => ?_) fun _ t h => ?_
    · exact ⟨⟨hs.1.of_exchanged h.1, h.1.flagauthorized_eq.trans hs.2⟩, h.2⟩
    · exact hs.1.of_exchanged h
  · refine triple_check_bind (fun e s h => hexit e s h.1) fun _ hok => triple_modify fun s h => ?_
    cases ok with
    | false => cases hok
    | true => exact ⟨⟨h.1.1.kexdh (h.2 rfl), h.1.2⟩, h.2 rfl⟩

/-- After "authentication + authorization" somebody is authorized. -/
theorem triple_authentication (env : AuthEnv) :
    Triple (fun s => Gated P s.gate ∧ s.gate.flagrekeying = true) (authentication P env)
      (fun _ s => Opened P s.gate) (fun _ s => Gated P s.gate) := by
  refine triple_reads_bind fun done => Triple.ite (fun hdone => triple_pure ?_) fun _ => ?_
  · rintro s ⟨⟨h, hflag⟩, rfl⟩
    exact ⟨h, hflag, hdone⟩
  · refine Triple.bind (Q := fun l s => (Gated P s.gate ∧ s.gate.flagrekeying = true) ∧
      ∀ x, l = some x → x.Verified P ∧ x.sessionid = s.gate.sessionid) ⟨fun s hs => ?_⟩
      fun l => ?_
    · refine ((triple_packetAuth P s.gate s.kex.crypto s.arrivals env).run s
        ⟨rfl, rfl, fun _ h => h⟩).mono (fun l t h => ?_) fun _ t h => ?_
      · rw [h.1.gate_eq]
        exact ⟨hs.1, fun x hx => ⟨(h.2 x hx).verified, (h.2 x hx).sessionid_eq⟩⟩
      · rw [h.gate_eq]
        exact hs.1.1
    · cases l with
      | none => exact triple_throw fun s h => h.1.1
      | some l => exact triple_modify fun s h => h.1.1.auth h.1.2 (h.2 l rfl)

variable {P}

instance steadyLoop_opened : SteadyLoop fun s => Opened P s.gate where
  toSteady := (SteadyKex.of_view steadyKex_gate (Opened P)).toSteady
  anyLoop l _ h := h.chan l.chan
  dispatch b _ h := h.dispatch b

/-- An iteration, with the key exchange it may lead to. -/
theorem triple_turn (t : Turn) :
    Triple (fun s => Opened P s.gate) (turn P t) (fun _ s => Opened P s.gate)
      (fun _ s => Gated P s.gate) := by
  have hexit : ∀ (e : Exit) (s : Tinysshd), Opened P s.gate → Gated P s.gate := fun _ _ h => h.1
  refine Triple.bind ((keeps_onLoop_any _).triple hexit) fun left =>
    Triple.ite (fun _ => triple_pure fun _ h => h) fun _ => ?_
  refine Triple.bind ((keeps_sessionPackets _).triple hexit) fun again =>
    Triple.ite (fun _ => ?_) fun _ => triple_pure fun _ h => h
  refine Triple.bind (Q := fun _ (s : Tinysshd) => Opened P s.gate) (triple_modify fun _ h => h)
    fun _ => ?_
  refine Triple.bind ((triple_rekeying P t.kexdh true).pre fun s h => ⟨h.1, h.2.2⟩) fun _ => ?_
  refine Triple.bind ((triple_authentication P t.auth).pre fun s h => ⟨h.1.1, h.2⟩) fun _ => ?_
  exact triple_pure fun _ h => h

/-- The main loop, with all its rekeys. -/
theorem triple_sessionLoop (l : List Turn) :
    Triple (fun s => Opened P s.gate) (sessionLoop P l) (fun _ s => Gated P s.gate)
      (fun _ s => Gated P s.gate) := by
  induction l with
  | nil => exact triple_pure fun _ h => h.1
  | cons t l ih =>
    refine Triple.bind (triple_turn t) fun left => Triple.ite (fun _ => ?_) fun _ => ih
    exact triple_pure fun _ h => h.1

/-- Up to the first key exchange nothing is written that matters; before the loop somebody has to be
authorized. -/
theorem keeps_tinysshd (env : TinysshdEnv) :
    Keeps (fun s => Gated P s.gate) (tinysshd P env) := by
  have hframe : ∀ {α : Type} {m : SessionM α}, Frame Tinysshd.gate m → Triple (fun s : Tinysshd =>
      Gated P s.gate) m (fun _ s => Gated P s.gate) (fun _ s => Gated P s.gate) :=
    fun h => (h.keeps (Gated P)).triple fun _ _ h => h
  refine Triple.keeps ?_
  refine (hframe (frame_onKex _)).bind fun _ => ?_
  refine (hframe fun _ => keeps_packetHelloSend _ _).bind fun _ => ?_
  refine (hframe fun _ => keeps_check _).bind fun _ => ?_
  refine (hframe fun _ => keeps_packetHelloReceive _).bind fun _ => ?_
  refine (hframe fun _ => keeps_check _).bind fun _ => ?_
  refine (hframe fun _ => keeps_packetKexSendAll _ _).bind fun _ => ?_
  refine (hframe fun _ => keeps_check _).bind fun _ => ?_
  refine (hframe frame_packetKexReceiveAll).bind fun _ => ?_
  refine (hframe fun _ => keeps_check _).bind fun _ => ?_
  constructor
  intro s hs
  refine Triple.run (P := fun t => Gated P t.gate ∧ t.gate.flagauthorized = s.flagauthorized) ?_ s
    ⟨hs, rfl⟩
  refine (triple_rekeying P env.kexdh _).bind fun _ => ?_
  refine ((triple_authentication P env.auth).pre fun t h => ⟨h.1.1, h.2⟩).bind fun _ => ?_
  exact triple_sessionLoop env.turns

end

/-- **No channel without authentication.**  In every session, from whatever algorithm state it
starts and whatever the client sends: in front of every packet that the main loop handles stands a
login that was verified, under the session id that the session has; without a login the channel is
as `channel_init` left it.  Every key exchange ended with that same session id, and those after the
login found `flagauthorized` set. -/
theorem authentication_gate (P : Primitives) (env : TinysshdEnv) (c : Sshcrypto)
    (random : ℕ → Bool) (arrivals : List Arrival) :
    let s := (exec (tinysshd P env) (tinysshdStart c random arrivals)).2
    (∀ pre b post, s.events = pre ++ .dispatch b :: post →
      ∃ l, .auth l ∈ pre ∧ l.Verified P ∧ l.sessionid = s.sessionid) ∧
    ((∀ l, .auth l ∉ s.events) → s.loop.chan = ⟨Channel.init, []⟩) ∧
    (∀ sessionid flagauthorized, .kexdh sessionid flagauthorized ∈ s.events →
      sessionid = s.sessionid) ∧
    ∀ pre l post, s.events = pre ++ .auth l :: post → s.flagauthorized = true ∧
      ∀ sessionid flagauthorized, .kexdh sessionid flagauthorized ∈ post →
        flagauthorized = true := by
  intro s
  have h : Gated P s.gate := keeps_tinysshd env _ (gated_start c random arrivals)
  refine ⟨?_, ?_, ?_, ?_⟩
  -- In front of a packet that is handled.
  · intro pre b post hpre
    obtain ⟨l, hl⟩ := h.gated pre b post hpre
    have hmem : .auth l ∈ s.gate.events := by
      change _ ∈ s.events
      rw [hpre]
      exact List.mem_append_left _ hl
    obtain ⟨-, hverified, hid⟩ := h.login l hmem
    exact ⟨l, hl, hverified, hid⟩
  -- Nobody was let in, so that the flag was never set.
  · intro hnone
    cases hflag : s.flagauthorized with
    | false => exact (h.closed hflag).1
    | true =>
      obtain ⟨l, hl⟩ := h.opened hflag
      exact absurd hl (hnone l)
  · exact fun sessionid flagauthorized hk => (h.exchange sessionid flagauthorized hk).2
  · intro pre l post hpre
    refine ⟨?_, h.kept pre l post hpre⟩
    by_contra hflag
    have hmem : .auth l ∈ s.events := by
      rw [hpre]
      exact List.mem_append_right _ List.mem_cons_self
    obtain ⟨_, hx⟩ := (h.closed (eq_false_of_ne_true hflag)).2 _ hmem
    cases hx

end Glossh.Ssh
