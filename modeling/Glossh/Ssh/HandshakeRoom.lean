/-
# Room in the buffers of the handshake

Each buffer of a session has a bound on what is ever in it, below its allocation (`BufField.limit`,
`BufField.alloc`): what `getln` accepts, what fits into a packet, and what the code puts together
from these.  `hashbuf` comes closest, with the client's KEXINIT in it and both keys of the largest
key exchange.

A handshake function may still end in `bug_nomem`: `packet_put` copies its packet to `sendbuf`,
which is not part of this.  `refused` tells that apart.
-/
import Glossh.Ssh.KexRoom
import Glossh.Ssh.Tinysshd

namespace Glossh.Ssh

open Bytes Prog Buf

/-! ## 1. The bounds -/

namespace BufField

/-- The sizes in `tinyssh-config.h`. -/
def alloc : BufField → ℕ
  | hellosend => 256
  | helloreceive => 256
  | kexrecv => 8192
  | hashbuf => 8192
  | b1 => GLOBAL_BSIZE
  | b2 => GLOBAL_BSIZE

/-- What is ever in the buffer. -/
def limit : BufField → ℕ
  | hellosend => 26
  | helloreceive => 254
  | kexrecv => 4095
  -- Two hello lines, two KEXINITs, the host key, both keys, the secret.
  | hashbuf => 30 + 258 + 4099 + 254 + 55 + 1194 + 1075 + 68
  | b1 => 4095
  -- A signature, the session id, a request.
  | b2 => 64 + 68 + 4095

theorem limit_lt_alloc (x : BufField) : x.limit < x.alloc := by
  cases x with
  | hellosend => decide
  | helloreceive => decide
  | kexrecv => decide
  | hashbuf => decide
  | b1 => decide
  | b2 => decide

theorem alloc_le (x : BufField) : x.alloc ≤ BUF_MAX := by
  cases x with
  | hellosend => decide
  | helloreceive => decide
  | kexrecv => decide
  | hashbuf => decide
  | b1 => decide
  | b2 => decide

theorem set_kex (x : BufField) (b : Buf) (s : Tinysshd) : (x.set b s).kex = s.kex := by
  cases x <;> rfl

theorem set_loop (x : BufField) (b : Buf) (s : Tinysshd) : (x.set b s).loop = s.loop := by
  cases x <;> rfl

end BufField

/-- The buffer is as long as it ever gets, at most. -/
structure BufField.Within (x : BufField) (b : Buf) : Prop where
  alloc_eq : b.alloc = x.alloc
  length_le : b.data.length ≤ x.limit

/-- A buffer within its bounds is one that `buf.c` accepts. -/
theorem BufField.Within.ok {x : BufField} {b : Buf} (h : x.Within b) : b.Ok := by
  have hlt := x.limit_lt_alloc
  have hmax := x.alloc_le
  have halloc := h.alloc_eq
  have hlength := h.length_le
  exact ⟨by omega, by omega⟩

/-- **The invariant of a session.** -/
structure Tinysshd.Bounded (s : Tinysshd) : Prop where
  kex : s.kex.Bounded
  buf : ∀ x : BufField, x.Within (x.get s)
  name_le : s.loop.name.length ≤ LOGIN_NAME_MAX

/-- A step that leaves the buffers alone. -/
theorem Tinysshd.Bounded.frame {s t : Tinysshd} (h : s.Bounded)
    (hbuf : ∀ x : BufField, x.get t = x.get s)
    (hkex : t.kex.Bounded) (hname : t.loop.name.length ≤ LOGIN_NAME_MAX) : t.Bounded :=
  ⟨hkex, fun x => by rw [hbuf]; exact h.buf x, hname⟩

/-! ## 2. What is put together

The messages of the handshake are put together in `b1`, `b2` and `hashbuf`, each behind a
`buf_purge`: the bound of a message is the sum of the bounds of its parts. -/

/-- A sequence of calls that purges the buffer and leaves at most `n` bytes in it. -/
def Writes (f : Buf → Except Exit Buf) (n : ℕ) : Prop :=
  ∀ b : Buf, b.Ok → n < b.alloc → ∃ y : Bytes, y.length ≤ n ∧ f b = .ok { b with data := y }

/-- Nearly everything is put together behind a `buf_purge`. -/
theorem Writes.of_purge {f : Buf → Except Exit Buf} {n : ℕ} (hf : AppendsUpTo f n) :
    Writes (fun b => b.purge >>= f) n := by
  intro b hb hn
  have hempty : Buf.Ok { b with data := [] } := ⟨by simp only [List.length_nil]; omega, hb.alloc_le⟩
  obtain ⟨y, hy, hput⟩ := hf { b with data := [] } hempty (by simp only [List.length_nil]; omega)
  refine ⟨y, hy, ?_⟩
  simp only [hb.purge]
  exact hput

/-- An empty buffer. -/
theorem writes_purge : Writes Buf.purge 0 := fun _ hb _ => ⟨[], le_refl 0, hb.purge⟩

theorem writes_put {x : Bytes} {n : ℕ} (hn : x.length ≤ n) :
    Writes (fun b => b.purge >>= fun b => b.put x) n := .of_purge (upTo_put hn)

theorem writes_oneByteMessage (u : UInt8) : Writes (oneByteMessage u) 1 :=
  .of_purge (upTo_putNum8 u)

/-- The hello line: the version, a blank, what `log_string` gives and the end of the line. -/
theorem writes_helloLine (logstring : Vector UInt8 8) : Writes (helloLine logstring) 26 := by
  have hversion : (ascii "SSH-2.0-tinyssh").length ≤ 15 := by decide
  have hblank : (ascii " ").length ≤ 1 := by decide
  have hlog : logstring.toList.length ≤ 8 := Vector.length_toList.le
  exact .of_purge ((upTo_put hversion).bind ((upTo_put hblank).bind ((upTo_put hlog).bind
    (upTo_put (n := 2) (le_refl 2)))))

/-- The shared secret, as an integer of 32 bytes or as a string of 64. -/
theorem upTo_putkemkey (fn : Option Fn) (sharedsecret : Vector UInt8 64) :
    AppendsUpTo (putkemkey fn sharedsecret) 68 := by
  have hstring : AppendsUpTo (fun b => b.putStringLen sharedsecret.toList) 68 :=
    upTo_putStringLen Vector.length_toList.le
  unfold putkemkey
  split
  · exact (upTo_putSharedsecret sharedsecret.toList 32).mono (by omega)
  · exact hstring

/-- What a key is derived from: the secret, the hash, and a letter with the session id. -/
theorem writes_keyInput (fn : Option Fn) (sharedsecret : Vector UInt8 64) {hash rest : Bytes}
    (hhash : hash.length ≤ 64) (hrest : rest.length ≤ 65) :
    Writes (keyInput fn sharedsecret hash rest) (68 + (64 + 65)) :=
  .of_purge ((upTo_putkemkey fn sharedsecret).bind ((upTo_put hhash).bind (upTo_put hrest)))

/-- KEXDH_REPLY: the host key, the server's share and the signature. -/
theorem writes_kexdhReply (pk : Vector UInt8 32) {serverpk : Bytes} (sm : Vector UInt8 64)
    (hserverpk : serverpk.length ≤ 1071) :
    Writes (kexdhReply pk serverpk sm) (1 + (55 + (4 + 1071 + 87))) :=
  .of_purge ((upTo_putNum8 _).bind ((upTo_ed25519Putsignpk pk).bind
    ((upTo_putStringLen hserverpk).bind (upTo_ed25519Putsignature sm))))

/-- The answer to a login without a signature. -/
theorem writes_pkOk {name : Bytes} (pk : Vector UInt8 32) (hname : name.length ≤ 11) :
    Writes (pkOk name pk) (1 + (4 + 11 + 55)) :=
  .of_purge ((upTo_putNum8 _).bind ((upTo_putStringLen hname).bind (upTo_ed25519Putsignpk pk)))

/-- The answer to a login that is refused. -/
theorem writes_userauthFailure : Writes userauthFailure (1 + (4 + 9 + 1)) := by
  have hmethods : (ascii "publickey").length ≤ 9 := by decide
  exact .of_purge ((upTo_putNum8 _).bind ((upTo_putStringLen hmethods).bind (upTo_putNum8 0)))

/-- What a login is signed over, behind its signature. -/
theorem writes_signedMessage {sig sessionid request : Bytes} (hsig : sig.length ≤ 64)
    (hsessionid : sessionid.length ≤ 64) (hrequest : request.length ≤ 4095) :
    Writes (signedMessage sig sessionid request) (64 + (4 + 64 + 4095)) :=
  .of_purge ((upTo_put hsig).bind ((upTo_putStringLen hsessionid).bind (upTo_put hrequest)))

/-- The key of a login as the text that is looked up. -/
theorem writes_keyText (pk : Vector UInt8 32) : Writes (keyText pk) (71 + 1) :=
  .of_purge ((upTo_ed25519Putsignpkbase64 pk).bind (upTo_putNum8 0))

/-- **The largest of them**: everything that the hash is taken of. -/
theorem Tinysshd.Bounded.writes_hashInput {s : Tinysshd} (h : s.Bounded) {clientpk serverpk : Bytes}
    (sharedsecret : Vector UInt8 64) (hclientpk : clientpk.length ≤ 1190)
    (hserverpk : serverpk.length ≤ 1071) :
    Writes (hashInput s clientpk serverpk sharedsecret) BufField.hashbuf.limit := by
  have hreceive : s.helloreceive.data.length ≤ 254 := (h.buf .helloreceive).length_le
  have hsend : s.hellosend.data.length ≤ 26 := (h.buf .hellosend).length_le
  have hkexrecv : s.kexrecv.data.length ≤ 4095 := (h.buf .kexrecv).length_le
  have hbody := (upTo_putStringLen hreceive).bind ((upTo_putStringLen hsend).bind
    ((upTo_putStringLen hkexrecv).bind ((upTo_putStringLen h.kex.kexsend_length).bind
    ((upTo_ed25519Putsignpk (hostKey s.kex.crypto)).bind ((upTo_putStringLen hclientpk).bind
    ((upTo_putStringLen hserverpk).bind
    (upTo_putkemkey s.kex.crypto.kex.bufPutkemkey sharedsecret)))))))
  exact .of_purge (hbody.mono (by decide))

/-! ## 3. Handshake functions

`Safe` is the step lemma of the file: from a state within the bounds a function returns to such a
state, or it exits from one, and where that exit is `bug_nomem` a packet was refused before. -/

/-- The invariant; `bug_nomem` only after `packet_put` found no room in `sendbuf`. -/
def OnlyRefused (e : Exit) (s : Tinysshd) : Prop :=
  s.Bounded ∧ (e = nomem → s.loop.refused ≠ [])

/-- The function keeps within the bounds. -/
def Safe {α : Type} (m : SessionM α) : Prop :=
  Triple Tinysshd.Bounded m (fun _ => Tinysshd.Bounded) OnlyRefused

section

variable {α β : Type}

/-- `Safe` goes along with the code: a sequence, a choice, and the single steps below. -/
theorem Safe.bind {m : SessionM α} {f : α → SessionM β} (hm : Safe m) (hf : ∀ a, Safe (f a)) :
    Safe (m >>= f) := Triple.bind hm hf

theorem Safe.ite {c : Prop} [Decidable c] {m m' : SessionM α} (hm : Safe m) (hm' : Safe m') :
    Safe (if c then m else m') := Triple.ite (fun _ => hm) fun _ => hm'

theorem safe_pure (a : α) : Safe (pure a : SessionM α) := triple_pure fun _ h => h

/-- The exits that are no `bug_nomem`. -/
theorem safe_throw {e : Exit} (he : e ≠ nomem) : Safe (throw e : SessionM α) :=
  triple_throw fun _ h => ⟨h, fun h' => absurd h' he⟩

theorem safe_reads (f : Tinysshd → α) : Safe (reads f) := ⟨fun _ h => h⟩

/-- An assignment to other fields. -/
theorem safe_modify {f : Tinysshd → Tinysshd} (hbuf : ∀ s x, BufField.get x (f s) = x.get s)
    (hkex : ∀ s, (f s).kex = s.kex) (hname : ∀ s, (f s).loop.name = s.loop.name) :
    Safe (modify f : SessionM PUnit) :=
  triple_modify fun s h => h.frame (hbuf s) (by rw [hkex]; exact h.kex)
    (by rw [hname]; exact h.name_le)

/-- What was read is known to come from a state within the bounds. -/
theorem safe_reads_bind {f : Tinysshd → β} {g : β → SessionM α}
    (h : ∀ s, s.Bounded → Safe (g (f s))) : Safe (reads f >>= g) := by
  refine triple_reads_bind fun b => ⟨?_⟩
  rintro s ⟨hs, rfl⟩
  exact (h s hs).run s hs

/-- A check that passes hands on what it found. -/
theorem safe_check_bind {r : Except Exit β} {g : β → SessionM α} (hr : r ≠ .error nomem)
    (h : ∀ b, r = .ok b → Safe (g b)) : Safe (check r >>= g) := by
  constructor
  intro s hs
  cases r with
  | ok b => exact (h b rfl).run s hs
  | error e => exact ⟨hs, fun he => absurd (congrArg Except.error he) hr⟩

theorem safe_check {r : Except Exit α} (hr : r ≠ .error nomem) : Safe (check r : SessionM α) := by
  constructor
  intro s hs
  cases r with
  | ok a => exact hs
  | error e => exact ⟨hs, fun he => absurd (congrArg Except.error he) hr⟩

/-- Calls on a buffer that leave it within its bounds. -/
theorem safe_run (x : BufField) {f : Buf → Except Exit Buf}
    (hf : ∀ b : Buf, x.Within b → ∃ c : Buf, x.Within c ∧ f b = .ok c) : Safe (x.run f) := by
  constructor
  intro s hs
  obtain ⟨c, hc, hfc⟩ := hf _ (hs.buf x)
  rw [BufField.run, exec_reads_bind, exec_check_bind hfc, exec_modify]
  refine ⟨by rw [x.set_kex]; exact hs.kex, fun y => ?_, by rw [x.set_loop]; exact hs.name_le⟩
  -- The other buffers are not touched.
  rw [x.get_set]
  split
  · rename_i hy
    rw [hy]
    exact hc
  · exact hs.buf y

/-- A buffer that is put together anew. -/
theorem safe_run_writes (x : BufField) {f : Buf → Except Exit Buf} {n : ℕ} (hf : Writes f n)
    (hn : n ≤ x.limit) : Safe (x.run f) := by
  refine safe_run x fun b hb => ?_
  have hlt := x.limit_lt_alloc
  have halloc := hb.alloc_eq
  obtain ⟨y, hy, hfb⟩ := hf b hb.ok (by omega)
  exact ⟨{ b with data := y }, ⟨halloc, hy.trans hn⟩, hfb⟩

/-- A call of the algorithm code. -/
theorem safe_onKex {m : Prog KexState Exit α} (h : Triple KexState.Bounded m
    (fun _ => KexState.Bounded) fun e s => s.Bounded ∧ e ≠ nomem) : Safe (onKex m) := by
  constructor
  intro s hs
  have hm := h.run s.kex hs.kex
  rw [onKex, exec_zoom]
  rcases hx : exec m s.kex with ⟨r, k⟩
  rw [hx] at hm
  have hbuf : ∀ x, BufField.get x { s with kex := k } = x.get s := by
    intro x
    cases x <;> rfl
  cases r with
  | ok a => exact hs.frame hbuf hm hs.name_le
  | error e => exact ⟨hs.frame hbuf hm.1 hs.name_le, fun he => absurd he hm.2⟩

/-- A call of the code that works on the channel and on `sendbuf`. -/
theorem safe_onLoop {m : LoopM α} (h : Triple (fun l => l.name.length ≤ LOGIN_NAME_MAX) m
    (fun _ l => l.name.length ≤ LOGIN_NAME_MAX)
    fun e l => l.name.length ≤ LOGIN_NAME_MAX ∧ (e = nomem → l.refused ≠ [])) :
    Safe (onLoop m) := by
  constructor
  intro s hs
  have hm := h.run s.loop hs.name_le
  rw [onLoop, exec_zoom]
  rcases hx : exec m s.loop with ⟨r, l⟩
  rw [hx] at hm
  have hbuf : ∀ x, BufField.get x { s with loop := l } = x.get s := by
    intro x
    cases x <;> rfl
  cases r with
  | ok a => exact hs.frame hbuf hs.kex hm
  | error e => exact ⟨hs.frame hbuf hs.kex hm.1, hm.2⟩

end

/-- The code that works on the channel and on `sendbuf`. -/
def LoopSafe {α : Type} (m : LoopM α) : Prop :=
  Triple (fun l => l.name.length ≤ LOGIN_NAME_MAX) m (fun _ l => l.name.length ≤ LOGIN_NAME_MAX)
    fun e l => l.name.length ≤ LOGIN_NAME_MAX ∧ (e = nomem → l.refused ≠ [])

/-- A packet that finds no room is noted before the session ends. -/
theorem loopSafe_putOrRefuse {room : Loop → Bool} {put : Loop → Loop} (payload : Bytes)
    (hput : ∀ l, (put l).name = l.name) : LoopSafe (do
      let room ← reads room
      if room then modify put
      else do
        modify fun l : Loop => { l with refused := l.refused ++ [payload] }
        throw nomem) := by
  refine triple_reads_any fun room => Triple.ite (fun _ => triple_modify fun l h => ?_) fun _ => ?_
  · rw [hput l]
    exact h
  refine Triple.bind (Q := fun _ l => l.name.length ≤ LOGIN_NAME_MAX ∧ l.refused ≠ [])
    (triple_modify fun l h => ⟨h, ?_⟩) fun _ => triple_throw fun l h => ⟨h.1, fun _ => h.2⟩
  exact List.append_ne_nil_of_right_ne_nil _ (List.cons_ne_nil _ _)

/-- `packet_put`, with keys and without. -/
theorem loopSafe_packetPut (payload : Bytes) : LoopSafe (packetPut payload) :=
  loopSafe_putOrRefuse payload fun _ => rfl

theorem loopSafe_packetPutPlain (payload : Bytes) : LoopSafe (packetPutPlain payload) :=
  loopSafe_putOrRefuse payload fun _ => rfl

/-- `packet_sendall` empties `sendbuf` or fails. -/
theorem loopSafe_packetSendall (ok : Bool) : LoopSafe (packetSendall ok) := by
  refine Triple.ite (fun _ => ?_) fun _ => triple_pure fun _ h => h
  exact Triple.bind (Q := fun _ l => l.name.length ≤ LOGIN_NAME_MAX) (triple_modify fun _ h => h)
    fun _ => triple_pure fun _ h => h

/-- Which of the two is called depends on `flagkeys`. -/
theorem safe_packetPutAny (payload : Bytes) : Safe (packetPutAny payload) := by
  refine (safe_reads _).bind fun flagkeys => ?_
  cases flagkeys with
  | true => exact safe_onLoop (loopSafe_packetPut payload)
  | false => exact safe_onLoop (loopSafe_packetPutPlain payload)

theorem safe_packetPutBuf (x : BufField) : Safe (packetPutBuf x) :=
  (safe_reads _).bind fun payload => safe_packetPutAny payload

theorem safe_packetSendall (ok : Bool) : Safe (onLoop (packetSendall ok)) :=
  safe_onLoop (loopSafe_packetSendall ok)

/-! ## 4. `packet_get`

A payload has less than `PACKET_LIMIT` bytes, and every buffer that a packet is read into has at
least that limit. -/

/-- The `switch` of `packet_get_`. -/
theorem packetGetSwitch_ne {t : UInt8} {b : Buf} : packetGetSwitch t b ≠ .error nomem := by
  have hpurge : (b.purge).map (fun b => (true, b)) ≠ .error nomem := by
    unfold Buf.purge
    split
    · exact ok_ne _
    · exact fun h => by cases h
  unfold packetGetSwitch
  split
  · exact ok_ne _
  · split
    · exact hpurge
    · split
      · exact hpurge
      · split
        · exact bugProto_ne
        · exact ok_ne _

/-- The `switch` hands a buffer on or purges it. -/
theorem packetGetSwitch_within {x : BufField} {t : UInt8} {b : Buf} {r : Bool × Buf}
    (hb : x.Within b) (h : packetGetSwitch t b = .ok r) : x.Within r.2 := by
  have hpurge : (b.purge).map (fun b => (true, b)) = .ok r → x.Within r.2 := by
    intro h
    rw [hb.ok.purge] at h
    cases h
    exact ⟨hb.alloc_eq, Nat.zero_le _⟩
  unfold packetGetSwitch at h
  split at h
  · cases h
    exact hb
  · split at h
    · exact hpurge h
    · split at h
      · exact hpurge h
      · split at h
        · cases h
        · cases h
          exact hb

section

variable {x : BufField} (hx : 4095 ≤ x.limit)
include hx

/-- The payload of a packet fits. -/
theorem safe_packetGetReceived (t : UInt8) (r : Received) : Safe (packetGetReceived t x r) := by
  have hL : PACKET_LIMIT = 4096 := rfl
  have hlt := r.lt_limit
  refine Safe.bind (safe_modify (by intro s x; cases x <;> rfl) (fun _ => rfl) fun _ => rfl)
    fun _ => ?_
  refine (safe_run_writes x (writes_put (n := 4095) (by omega)) hx).bind fun _ => ?_
  refine (safe_reads _).bind fun many => (safe_throw (by decide)).ite ?_
  refine safe_reads_bind fun s hs => safe_check_bind packetGetSwitch_ne fun r hr => ?_
  have hr' := packetGetSwitch_within (hs.buf x) hr
  exact (safe_run x fun _ _ => ⟨r.2, hr', rfl⟩).bind fun _ => safe_pure _

/-- Packets that are ignored are followed by the next; the induction is on what arrives. -/
theorem safe_packetGetallFrom (t : UInt8) (l : List Arrival) : Safe (packetGetallFrom t x l) := by
  have harrivals : ∀ l : List Arrival, Safe (modify fun s : Tinysshd => { s with arrivals := l }) :=
    fun _ => safe_modify (by intro s x; cases x <;> rfl) (fun _ => rfl) fun _ => rfl
  induction l with
  | nil => exact safe_pure _
  | cons a l ih =>
    cases a with
    | closed => exact (harrivals l).bind fun _ => safe_pure _
    | malformed => exact (harrivals l).bind fun _ => safe_throw (by decide)
    | packet r =>
      refine (harrivals l).bind fun _ => (safe_packetGetReceived hx t r).bind fun ok =>
        Safe.ite ?_ (safe_pure _)
      exact (safe_reads _).bind fun dropped => ih.ite (safe_pure _)

/-- `packet_getall` purges its buffer first. -/
theorem safe_packetGetall (t : UInt8) : Safe (packetGetall t x) :=
  (safe_run_writes x writes_purge (Nat.zero_le _)).bind fun _ => (safe_reads _).bind fun l =>
    safe_packetGetallFrom hx t l

end

/-! ## 5. Hello and KEXINIT -/

/-- The hello line is sent, and kept without the end of the line. -/
theorem safe_packetHelloSend (logstring : Vector UInt8 8) (sent : Bool) :
    Safe (packetHelloSend logstring sent) := by
  refine (safe_run_writes .hellosend (writes_helloLine logstring) (le_refl _)).bind fun _ =>
    Safe.ite ?_ (safe_pure _)
  refine Safe.bind (safe_run .hellosend fun b hb =>
    ⟨{ b with data := b.data.take (b.data.length - 2) }, ⟨hb.alloc_eq, ?_⟩, rfl⟩)
    fun _ => safe_pure _
  exact (List.length_take_le' _ _).trans hb.length_le

/-- A line that was accepted ends in a newline, in front of the last byte of the space. -/
theorem getln_some {xmax : ℕ} {x l line : Bytes} (h : getln xmax x l = some line) :
    line.length < xmax ∧ line.getLastD 0 = 0x0a := by
  induction l generalizing x with
  | nil => cases h
  | cons ch l ih =>
    rw [getln] at h
    split at h
    · cases h
    · rename_i hroom
      generalize (if ch = 0 then (0x0a : UInt8) else ch) = c at h
      dsimp only at h
      split at h
      · rename_i hnewline
        cases h
        refine ⟨?_, by rw [List.getLastD_concat, hnewline]⟩
        rw [List.length_append, List.length_singleton]
        omega
      · exact ih h

/-- Taking off a last byte makes nothing longer. -/
theorem length_stripLast_le (c : UInt8) (x : Bytes) : (stripLast c x).length ≤ x.length := by
  unfold stripLast
  split
  · rw [List.length_dropLast]
    omega
  · exact le_refl _

/-- Without its newline the line has two bytes fewer than the space. -/
theorem length_helloLine_le {xmax : ℕ} {client line : Bytes}
    (h : getln xmax [] client = some line) :
    (stripLast 0x0d (stripLast 0x0a line)).length ≤ xmax - 2 := by
  obtain ⟨hlen, hlast⟩ := getln_some h
  have hstrip : (stripLast 0x0a line).length ≤ xmax - 2 := by
    rw [stripLast, if_pos hlast, List.length_dropLast]
    omega
  exact (length_stripLast_le _ _).trans hstrip

/-- The client's line, as long as `getln` lets it be. -/
theorem safe_packetHelloReceive (client : Bytes) : Safe (packetHelloReceive client) := by
  refine safe_reads_bind fun s hs => ?_
  have halloc : s.helloreceive.alloc = 256 := (hs.buf .helloreceive).alloc_eq
  rw [halloc]
  split
  · exact safe_pure _
  · rename_i line hline
    refine (safe_pure _).ite (Safe.bind (safe_run .helloreceive fun b hb =>
      ⟨{ b with data := stripLast 0x0d (stripLast 0x0a line) }, ⟨hb.alloc_eq, ?_⟩, rfl⟩)
      fun _ => safe_pure _)
    exact length_helloLine_le hline

/-- KEXINIT, from the tables to the network. -/
theorem safe_packetKexSendAll (cookie : Vector UInt8 16) (sent : Bool) :
    Safe (packetKexSendAll cookie sent) :=
  (safe_onKex (triple_packetKexSend cookie sent)).bind fun sent => (safe_reads _).bind
    fun payload => (safe_packetPutAny payload).bind fun _ => safe_packetSendall sent

theorem safe_packetKexReceiveAll : Safe packetKexReceiveAll :=
  (safe_packetGetall (x := .kexrecv) (le_refl _) _).bind fun _ => (safe_reads _).bind
    fun kexrecv => safe_onKex (triple_packetKexReceive kexrecv)

theorem safe_orDie (ok : Bool) (trouble : String) : Safe (orDie ok trouble) := by
  refine safe_check ?_
  split
  · exact ok_ne _
  · exact fun h => by cases h

/-- "rekeying": what came into `b1` fits into `kexrecv`. -/
theorem safe_answerKexinit (env : KexdhEnv) : Safe (answerKexinit env) := by
  refine (safe_reads _).bind fun again => Safe.ite ?_ (safe_pure _)
  refine safe_reads_bind fun s hs => ?_
  refine (safe_run_writes .kexrecv (writes_put (hs.buf .b1).length_le) (le_refl _)).bind fun _ => ?_
  exact (safe_packetKexSendAll _ _).bind fun ok => safe_orDie ok _

/-! ## 6. `packet_kexdh` -/

/-- Where `sshcrypto_enc` fails, that is a protocol error. -/
theorem encLoop_ne (n : ℕ) (l : List (Option (Vector UInt8 1071 × Vector UInt8 64))) :
    encLoop n l ≠ .error nomem := by
  induction l with
  | nil => exact bugProto_ne
  | cons r l ih =>
    cases r with
    | none => exact bugProto_ne
    | some r =>
      rw [encLoop]
      split
      · exact ih
      · exact ok_ne _

theorem require_ne (c : Bool) : require c ≠ .error nomem := by
  cases c with
  | true => exact ok_ne _
  | false => exact bugProto_ne

theorem length_slice_le (x : Bytes) (off n : ℕ) : (slice x off n).length ≤ n :=
  List.length_take_le _ _

/-- KEXDH_INIT carries one string, of the length of the algorithm's public keys. -/
theorem parseKexdhInit_ne (n : ℕ) (b : Bytes) : parseKexdhInit n b ≠ .error nomem :=
  except_bind_ne packetparserUint8_ne fun _ _ => except_bind_ne (require_ne _) fun _ _ =>
    except_bind_ne packetparserUint32_ne fun _ _ => except_bind_ne (require_ne _) fun _ _ =>
    except_bind_ne packetparserSkip_ne fun _ _ => except_bind_ne packetparserEnd_ne fun _ _ =>
    ok_ne _

/-- That length is checked. -/
theorem parseKexdhInit_length {n : ℕ} {b clientpk : Bytes} (h : parseKexdhInit n b = .ok clientpk) :
    clientpk.length ≤ n := by
  obtain ⟨ch, -, h⟩ := except_bind_ok h
  obtain ⟨_, -, h⟩ := except_bind_ok h
  obtain ⟨len, -, h⟩ := except_bind_ok h
  obtain ⟨_, -, h⟩ := except_bind_ok h
  obtain ⟨pos, -, h⟩ := except_bind_ok h
  obtain ⟨_, -, h⟩ := except_bind_ok h
  cases h
  exact length_slice_le _ _ _

section

variable (P : Primitives)

/-- A guess of the client that was wrong is read and forgotten. -/
theorem safe_skipGuess : Safe skipGuess :=
  (safe_reads _).bind fun _ => (safe_packetGetall (x := .b1) (le_refl _) _).ite (safe_pure _)

/-- Everything in front of NEWKEYS is read into `b2`; the induction is on what may still arrive. -/
theorem safe_awaitNewkeys (fuel : ℕ) : Safe (awaitNewkeys fuel) := by
  induction fuel with
  | zero => exact safe_pure _
  | succ fuel ih =>
    refine (safe_run_writes .b2 writes_purge (Nat.zero_le _)).bind fun _ =>
      (safe_packetGetall (x := .b2) (by decide) 0).bind fun ok => Safe.ite ?_ (safe_pure _)
    exact (safe_reads _).bind fun newkeys => (safe_pure _).ite ih

/-- A key: the hash of one input, extended by the hash of a second. -/
theorem safe_deriveKey (sharedsecret : Vector UInt8 64) {hash : Bytes} (hhash : hash.length ≤ 64)
    (i : ℕ) : Safe (deriveKey P sharedsecret hash i) := by
  refine safe_reads_bind fun s hs => ?_
  have hbytes := hs.kex.crypto.kex.hashBytes_le
  refine safe_reads_bind fun t _ => ?_
  -- The letter and the session id; the second input has the first hash in their place.
  have hfirst :
      (UInt8.ofNat (65 + i) :: t.sessionid.take s.kex.crypto.kex.hashBytes).length ≤ 65 := by
    rw [List.length_cons, List.length_take]
    omega
  refine (safe_run_writes .b1 (writes_keyInput _ sharedsecret hhash hfirst) (by decide)).bind
    fun _ => ?_
  refine safe_reads_bind fun u _ => ?_
  have hsecond : ((P.hash s.kex.crypto.kex.hash u.b1.data).toList.take
      s.kex.crypto.kex.hashBytes).length ≤ 65 := by
    rw [List.length_take]
    omega
  refine (safe_run_writes .b1 (writes_keyInput _ sharedsecret hhash hsecond) (by decide)).bind
    fun _ => ?_
  exact safe_modify (by intro s x; cases x <;> rfl) (fun _ => rfl) fun _ => rfl

/-- All six. -/
theorem safe_deriveKeys (sharedsecret : Vector UInt8 64) {hash : Bytes} (hhash : hash.length ≤ 64)
    (l : List ℕ) : Safe (deriveKeys P sharedsecret hash l) := by
  induction l with
  | nil => exact safe_pure _
  | cons i l ih => exact (safe_deriveKey P sharedsecret hhash i).bind fun _ => ih

/-- "create hash", "session id". -/
theorem triple_hashRoom {clientpk serverpk : Bytes} (sharedsecret : Vector UInt8 64)
    (hclientpk : clientpk.length ≤ 1190) (hserverpk : serverpk.length ≤ 1071) :
    Triple Tinysshd.Bounded (exchangeHash P clientpk serverpk sharedsecret)
      (fun hash s => s.Bounded ∧ hash.length ≤ 64) OnlyRefused := by
  constructor
  intro s hs
  rw [exchangeHash, exec_bind_ok (exec_get s)]
  have hinput := hs.writes_hashInput sharedsecret hclientpk hserverpk
  refine Triple.run (Triple.bind (safe_run_writes .hashbuf hinput (le_refl _)) fun _ => ?_) s hs
  refine triple_reads_any fun g => triple_reads_bind fun hash => ?_
  refine Triple.bind (Q := fun _ s => s.Bounded ∧ hash.length ≤ 64) (triple_modify ?_)
    fun _ => triple_pure fun _ h => h
  rintro t ⟨ht, rfl⟩
  refine ⟨ht.frame (by intro x; cases x <;> rfl) ht.kex ht.name_le, ?_⟩
  rw [List.length_take, Vector.length_toList]
  omega

/-- **`packet_kexdh`.** -/
theorem safe_packetKexdh (env : KexdhEnv) : Safe (packetKexdh P env) := by
  refine safe_skipGuess.bind fun ok => (safe_pure _).ite ?_
  refine (safe_packetGetall (x := .b1) (le_refl _) _).bind fun ok => (safe_pure _).ite ?_
  refine safe_reads_bind fun s hs => safe_reads_bind fun t _ => ?_
  have hsizes := hs.kex.crypto.kex
  refine safe_check_bind (parseKexdhInit_ne _ _) fun clientpk hparse => ?_
  have hclientpk := (parseKexdhInit_length hparse).trans hsizes.kemPublickeybytes_le
  refine (safe_run_writes .b1 writes_purge (Nat.zero_le _)).bind fun _ => ?_
  refine safe_check_bind (encLoop_ne _ _) fun enc _ => ?_
  have hserverpk : (enc.1.toList.take s.kex.crypto.kex.kemCiphertextbytes).length ≤ 1071 :=
    (List.length_take_le _ _).trans hsizes.kemCiphertextbytes_le
  refine Triple.bind (triple_hashRoom P enc.2 hclientpk hserverpk) fun hash => ⟨?_⟩
  rintro u ⟨hu, hhash⟩
  refine Triple.run (P := Tinysshd.Bounded) (Q := fun _ => Tinysshd.Bounded) ?_ u hu
  cases env.sm with
  | none => exact safe_pure _
  | some sm =>
    refine Safe.bind (safe_run_writes .b1 writes_purge (Nat.zero_le _)) fun _ => ?_
    refine (safe_reads _).bind fun pk => ?_
    refine (safe_run_writes .b2 (writes_kexdhReply pk sm hserverpk) (by decide)).bind fun _ => ?_
    refine (safe_packetPutBuf .b2).bind fun _ => ?_
    refine (safe_run_writes .b2 (writes_oneByteMessage _) (by decide)).bind fun _ => ?_
    refine (safe_packetPutBuf .b2).bind fun _ => (safe_packetSendall _).bind fun sent =>
      (safe_pure _).ite ?_
    refine (safe_reads _).bind fun fuel => (safe_awaitNewkeys fuel).bind fun newkeys =>
      (safe_pure _).ite ?_
    exact (safe_deriveKeys P enc.2 hhash _).bind fun _ => safe_pure _

/-! ## 7. `packet_auth` -/

/-- The parsers of `packet_auth`: a service, a login, and its key and signature. -/
theorem parseServiceRequest_ne (b : Bytes) : parseServiceRequest b ≠ .error nomem :=
  except_bind_ne packetparserUint8_ne fun _ _ => except_bind_ne (require_ne _) fun _ _ =>
    except_bind_ne packetparserString_ne fun _ _ => except_bind_ne (require_ne _) fun _ _ =>
    except_bind_ne packetparserEnd_ne fun _ _ => ok_ne _

theorem parseUserauthRequest_ne (b : Bytes) : parseUserauthRequest b ≠ .error nomem :=
  except_bind_ne packetparserUint8_ne fun _ _ => except_bind_ne (require_ne _) fun _ _ =>
    except_bind_ne packetparserUint32_ne fun _ _ => except_bind_ne (require_ne _) fun _ _ =>
    except_bind_ne packetparserSkip_ne fun _ _ => except_bind_ne packetparserString_ne fun _ _ =>
    except_bind_ne (require_ne _) fun _ _ => except_bind_ne packetparserString_ne fun _ _ => ok_ne _

/-- A condition that was required holds. -/
theorem require_ok {c : Bool} {u : Unit} (h : require c = .ok u) : c = true := by
  cases c with
  | true => rfl
  | false => cases h

/-- The name fits into `packet.name`. -/
theorem parseUserauthRequest_name {b : Bytes} {r : UserauthRequest}
    (h : parseUserauthRequest b = .ok r) : r.name.length ≤ LOGIN_NAME_MAX := by
  obtain ⟨ch, -, h⟩ := except_bind_ok h
  obtain ⟨_, -, h⟩ := except_bind_ok h
  obtain ⟨len, -, h⟩ := except_bind_ok h
  obtain ⟨_, hlen, h⟩ := except_bind_ok h
  obtain ⟨pos, -, h⟩ := except_bind_ok h
  obtain ⟨service, -, h⟩ := except_bind_ok h
  obtain ⟨_, -, h⟩ := except_bind_ok h
  obtain ⟨method, -, h⟩ := except_bind_ok h
  cases h
  have hlt := of_decide_eq_true (require_ok hlen)
  exact (length_slice_le _ _ _).trans (by omega)

theorem parsePublickeyRequest_ne (b : Bytes) (pos : ℕ) :
    parsePublickeyRequest b pos ≠ .error nomem :=
  except_bind_ne packetparserUint8_ne fun _ _ => except_bind_ne packetparserString_ne fun _ _ =>
    except_bind_ne (require_ne _) fun _ _ => ok_ne _

theorem parseEd25519_ne (n : ℕ) (x : Bytes) : parseEd25519 n x ≠ .error nomem := by
  refine except_bind_ne packetparserString_ne fun name _ => ?_
  split
  · exact ok_ne _
  · refine except_bind_ne packetparserUint32_ne fun len _ => ?_
    split
    · exact ok_ne _
    · exact except_bind_ne packetparserSkip_ne fun _ _ => except_bind_ne packetparserEnd_ne
        fun _ _ => ok_ne _

theorem parsePublickeyBlob_ne (b : Bytes) (pos : ℕ) : parsePublickeyBlob b pos ≠ .error nomem := by
  refine except_bind_ne packetparserString_ne fun blob _ => except_bind_ne (parseEd25519_ne _ _)
    fun pk _ => ?_
  cases pk with
  | none => exact bugProto_ne
  | some pk => exact ok_ne _

theorem parseSignatureBlob_ne (b : Bytes) (pos : ℕ) : parseSignatureBlob b pos ≠ .error nomem := by
  refine except_bind_ne packetparserString_ne fun blob _ => except_bind_ne (parseEd25519_ne _ _)
    fun sig _ => ?_
  cases sig with
  | none => exact bugProto_ne
  | some sig => exact except_bind_ne packetparserEnd_ne fun _ _ => ok_ne _

/-- What was signed is a part of the packet. -/
theorem parseSignatureBlob_length {b : Bytes} {pos : ℕ} {r : Vector UInt8 64 × Bytes}
    (h : parseSignatureBlob b pos = .ok r) : r.2.length ≤ b.length := by
  obtain ⟨blob, -, h⟩ := except_bind_ok h
  obtain ⟨sig, -, h⟩ := except_bind_ok h
  cases sig with
  | none => cases h
  | some sig =>
    obtain ⟨_, -, h⟩ := except_bind_ok h
    cases h
    exact List.length_take_le' _ _

/-- The key type of a login is a row of the table. -/
theorem findClientKey_mem {algorithm : Bytes} {l : List SshcryptoKey} {r : SshcryptoKey}
    (h : findClientKey algorithm l = some r) : r ∈ l := by
  induction l with
  | nil => cases h
  | cons r' l ih =>
    rw [findClientKey] at h
    split at h
    · cases h
    · split at h
      · cases h
        exact List.mem_cons_self
      · exact List.mem_cons_of_mem r' (ih h)

/-- "authenticate user - verify signature", "authorize user". -/
theorem safe_verifyLogin (nvs : NvsLine) (name keyname : Bytes) (pk : Vector UInt8 32)
    {sig request : Bytes} (hsig : sig.length ≤ 64) (hrequest : request.length ≤ 4095) :
    Safe (verifyLogin P nvs name keyname pk sig request) := by
  refine (safe_reads _).bind fun sessionid => safe_reads_bind fun s hs => ?_
  have hsessionid : (sessionid.take s.kex.crypto.kex.hashBytes).length ≤ 64 :=
    (List.length_take_le _ _).trans hs.kex.crypto.kex.hashBytes_le
  refine (safe_run_writes .b2 (writes_signedMessage hsig hsessionid hrequest) (le_refl _)).bind
    fun _ => safe_reads_bind fun t ht => ?_
  have hsm : t.b2.data.length ≤ BufField.b2.limit := (ht.buf .b2).length_le
  refine (safe_run_writes .b1 writes_purge (Nat.zero_le _)).bind fun _ => ?_
  refine safe_reads_bind fun u hu => ?_
  -- `b1` has room for the message that is checked.
  have htight : decide (u.b1.alloc ≤ t.b2.data.length) = false := by
    have halloc : u.b1.alloc = 8192 := (hu.buf .b1).alloc_eq
    have hlimit : BufField.b2.limit = 4227 := rfl
    rw [decide_eq_false_iff_not]
    omega
  rw [htight, if_neg Bool.false_ne_true]
  refine (safe_throw (by decide)).ite ?_
  refine (safe_run_writes .b1 (writes_keyText pk) (by decide)).bind fun _ => ?_
  exact (safe_reads _).bind fun key => (safe_pure _).ite (safe_pure _)

/-- A login with a key: the type, the key, and the signature if there is one. -/
theorem safe_publickeyTry (env : AuthEnv) (count : ℕ) {b : Bytes} (hb : b.length ≤ 4095)
    (r : UserauthRequest) : Safe (publickeyTry P env count b r) := by
  refine safe_check_bind (parsePublickeyRequest_ne _ _) fun p _ => safe_reads_bind fun s hs => ?_
  cases hrow : (findClientKey p.algorithm s.kex.crypto.keys).filter SshcryptoKey.complete with
  | none => exact safe_pure _
  | some row =>
    have hname : (row.name.getD []).length ≤ 11 := by
      have hmem := findClientKey_mem (Option.filter_eq_some_iff.mp hrow).1
      have hle : (row.name.getD []).length + 1 ≤ 12 :=
        (le_nameRoom hmem).trans hs.kex.crypto.keys_le
      omega
    refine safe_check_bind (parsePublickeyBlob_ne _ _) fun pk _ => Safe.ite ?_ ?_
    · refine (safe_run_writes .b1 (writes_pkOk pk.1 hname) (by decide)).bind fun _ => ?_
      exact (safe_packetPutBuf .b1).bind fun _ => (safe_packetSendall _).bind fun sent =>
        safe_pure _
    · refine safe_check_bind (parseSignatureBlob_ne _ _) fun sig hparse => ?_
      have hsig : (sig.1.toList.take row.signBytes).length ≤ 64 := by
        rw [List.length_take, Vector.length_toList]
        omega
      have hrequest := (parseSignatureBlob_length hparse).trans hb
      exact (safe_verifyLogin P _ _ _ _ hsig hrequest).bind fun l => safe_pure _

/-- A refused login is answered. -/
theorem safe_reject (env : AuthEnv) (count : ℕ) : Safe (reject env count) :=
  (safe_run_writes .b1 writes_userauthFailure (by decide)).bind fun _ =>
    (safe_packetPutBuf .b1).bind fun _ => (safe_packetSendall _).bind fun sent => safe_pure _

/-- One attempt: the name goes to `packet.name`, where `channel_open` finds it. -/
theorem safe_packetAuthTry (env : AuthEnv) (count : ℕ) : Safe (packetAuthTry P env count) := by
  refine (safe_packetGetall (x := .b1) (le_refl _) _).bind fun ok => (safe_pure _).ite ?_
  refine safe_reads_bind fun s hs => safe_check_bind (parseUserauthRequest_ne _) fun r hr => ?_
  have hb : s.b1.data.length ≤ 4095 := (hs.buf .b1).length_le
  have hname :
      Safe (modify fun s : Tinysshd => { s with loop := { s.loop with name := r.name } }) :=
    triple_modify fun t ht =>
      ht.frame (by intro x; cases x <;> rfl) ht.kex (parseUserauthRequest_name hr)
  refine hname.bind fun _ => ?_
  refine ((safe_publickeyTry P env count hb r).ite (safe_pure _)).bind fun t => ?_
  cases t with
  | none => exact safe_reject env count
  | some t => exact safe_pure _

/-- The attempts; the induction is on how many are left. -/
theorem safe_packetAuthLoop (env : AuthEnv) (left : ℕ) : Safe (packetAuthLoop P env left) := by
  induction left with
  | zero => exact safe_pure _
  | succ left ih =>
    refine (safe_packetAuthTry P env _).bind fun t => ?_
    cases t with
    | again => exact ih
    | failed => exact safe_pure _
    | authorized l =>
      refine (safe_run_writes .b1 (writes_oneByteMessage _) (by decide)).bind fun _ => ?_
      exact (safe_packetPutBuf .b1).bind fun _ => (safe_packetSendall _).bind fun sent =>
        safe_pure _

/-- **`packet_auth`.**  The service request becomes its own answer, with one byte changed. -/
theorem safe_packetAuth (env : AuthEnv) : Safe (packetAuth P env) := by
  refine (safe_packetGetall (x := .b1) (le_refl _) _).bind fun ok => (safe_pure _).ite ?_
  refine safe_reads_bind fun s _ => safe_check_bind (parseServiceRequest_ne _) fun _ _ => ?_
  refine Safe.bind (safe_run .b1 fun b hb =>
    ⟨{ b with data := b.data.set 0 SSH_MSG_SERVICE_ACCEPT }, ⟨hb.alloc_eq, ?_⟩, rfl⟩) fun _ => ?_
  · rw [List.length_set]
    exact hb.length_le
  · exact (safe_packetPutBuf .b1).bind fun _ => (safe_packetSendall _).bind fun sent =>
      (safe_packetAuthLoop P env 32).ite (safe_pure _)

/-! ## 8. From `rekeying` to the main loop -/

/-- From `rekeying` to `communication is encrypted`. -/
theorem safe_rekeying (env : KexdhEnv) : Safe (rekeying P env) := by
  refine (safe_answerKexinit env).bind fun _ => (safe_packetKexdh P env).bind fun ok =>
    (safe_orDie ok _).bind fun _ => ?_
  exact safe_modify (by intro s x; cases x <;> rfl) (fun _ => rfl) fun _ => rfl

/-- A session logs in once. -/
theorem safe_authentication (env : AuthEnv) : Safe (authentication P env) := by
  refine (safe_reads _).bind fun done => (safe_pure _).ite ?_
  refine (safe_packetAuth P env).bind fun l => ?_
  cases l with
  | none => exact safe_throw fun h => by cases h
  | some l => exact safe_modify (by intro s x; cases x <;> rfl) (fun _ => rfl) fun _ => rfl

end

end Glossh.Ssh
