/-
# What a key exchange yields

Every exchange of a session, the first and those the client asks for later, goes through
`packet_kexdh`.  It collects what was sent and received into `hashbuf`, hashes it, keeps the first
hash as the session id and derives six keys.

* `triple_packetKexdh_keys`: what a run that returns 1 hashed and derived, as RFC 4253 has it;
* `session_keys`: so it is in every exchange of every session, with the hash of the first exchange
  as the session id of all of them.
-/
import Glossh.Lib.Rfc4253
import Glossh.Ssh.HandshakeRoom
import Glossh.Ssh.Parsing
import Glossh.Ssh.Rekey
import Glossh.Ssh.SessionRoom

namespace Glossh.Ssh

open Bytes Prog Buf

/-! ## 1. What is put -/

/-- The blob of an ed25519 key or signature. -/
def ed25519Blob (x : Bytes) : Bytes := sshString ed25519Name ++ sshString x

/-- `ed25519_putsignpk` and `ed25519_putsignature`: the name of the algorithm and the bytes, as one
string. -/
theorem puts_putEd25519 (x : Bytes) :
    Puts (putEd25519 x) (sshString (ed25519Blob x)) := by
  have hname : ed25519Name.length = 11 := by decide
  have hlen : (ed25519Blob x).length = x.length + ed25519Name.length + 8 := by
    rw [ed25519Blob, List.length_append, length_sshString, length_sshString]
    omega
  have hput := (puts.putLength (x.length + ed25519Name.length + 8)).bind
    ((puts.putStringLen ed25519Name).bind (puts.putStringLen x))
  rw [← hlen] at hput
  exact hput

/-- What `buf_putsharedsecret` puts behind the length. -/
def sharedsecretBytes (x : Bytes) (len : ℕ) : Bytes :=
  let pos := ((x.take len).takeWhile (· = 0)).length
  if (x.getD pos 0) &&& 0x80 ≠ 0 then 0 :: slice x pos (len - pos) else slice x pos (len - pos)

/-- A number of RFC 4251, unless all its bytes are zero. -/
theorem puts_putSharedsecret {x : Bytes} {len : ℕ} (hlen : len ≤ x.length) :
    Puts (fun b => b.putSharedsecret x len) (sshString (sharedsecretBytes x len)) := by
  have hpos : ((x.take len).takeWhile (· = 0)).length ≤ len :=
    ((List.takeWhile_prefix _).length_le).trans (List.length_take_le _ _)
  simp only [Buf.putSharedsecret, sharedsecretBytes]
  generalize ((x.take len).takeWhile (· = 0)).length = pos at hpos ⊢
  have hslice : (slice x pos (len - pos)).length = len - pos := length_slice (by omega)
  split
  · have hput := (puts.putLength (len - pos + 1)).bind
      ((puts.putNum8 0).bind (puts.put (slice x pos (len - pos))))
    simpa only [sshString, List.length_cons, hslice, List.singleton_append] using hput
  · have hput := (puts.putLength (len - pos)).bind
      (puts.put (slice x pos (len - pos)))
    simpa only [sshString, hslice] using hput

theorem ofBe_zero_cons (l : Bytes) : ofBe (0 :: l) = ofBe l := by
  rw [ofBe, List.reverse_cons, ofLe_append]
  simp [ofLe, ofBe]

/-- Zero bytes in front count for nothing. -/
theorem ofBe_dropWhile (l : Bytes) : ofBe (l.dropWhile (· = 0)) = ofBe l := by
  induction l with
  | nil => rfl
  | cons b l ih =>
    by_cases hb : b = 0
    · rw [List.dropWhile_cons, if_pos (decide_eq_true hb), ih, hb, ofBe_zero_cons]
    · rw [List.dropWhile_cons, if_neg (by simpa using hb)]

/-- **It is an integer of RFC 4251**, unless all bytes are zero. -/
theorem sharedsecretBytes_eq {x : Bytes} {len : ℕ} (hx : ∃ b ∈ x.take len, b ≠ 0) :
    sshString (sharedsecretBytes x len) = Rfc4253.mpint (ofBe (x.take len)) := by
  have hsplit := List.takeWhile_append_dropWhile (p := (· = 0)) (l := x.take len)
  have hdrop : slice x ((x.take len).takeWhile (· = 0)).length
      (len - ((x.take len).takeWhile (· = 0)).length) = (x.take len).dropWhile (· = 0) := by
    have hdrop' : (x.take len).drop ((x.take len).takeWhile (· = 0)).length =
        (x.take len).dropWhile (· = 0) :=
      (congrArg (List.drop _) hsplit).symm.trans List.drop_left
    rw [slice, ← List.drop_take, hdrop']
  -- The first byte that is not zero is where the code looks for the sign.
  obtain ⟨a, l, hrest⟩ : ∃ a l, (x.take len).dropWhile (· = 0) = a :: l := by
    obtain ⟨b, hb, hne⟩ := hx
    cases h : (x.take len).dropWhile (· = 0) with
    | nil => exact absurd (by simpa using List.dropWhile_eq_nil_iff.mp h b hb) hne
    | cons a l => exact ⟨a, l, rfl⟩
  have ha : a ≠ 0 := by
    have hhead := List.head_dropWhile_not (· = (0 : UInt8)) (l := x.take len) (by rw [hrest]; simp)
    simpa [hrest] using hhead
  have hget : x.getD ((x.take len).takeWhile (· = 0)).length 0 = a := by
    have hcons := congrArg List.head? hdrop
    rw [hrest, slice, List.head?_cons, List.head?_take, List.head?_drop] at hcons
    split at hcons
    · cases hcons
    · rw [List.getD_eq_getElem?_getD, hcons, Option.getD_some]
  have hmag : Rfc4253.magnitude (ofBe (x.take len)) = a :: l := by
    rw [← ofBe_dropWhile, hrest]
    exact Rfc4253.magnitude_ofBe (a :: l) ha
  simp only [sharedsecretBytes, hget, hdrop, hrest, Rfc4253.mpint, hmag, List.headD_cons]
  rfl

/-- What `sshcrypto_buf_putkemkey` puts. -/
def kemKey (fn : Option Fn) (sharedsecret : Vector UInt8 64) : Bytes :=
  match fn with
  | some .curve25519_putkemkey => sshString (sharedsecretBytes sharedsecret.toList 32)
  | _ => sshString sharedsecret.toList

theorem kemKey_string {fn : Option Fn} (h : fn ≠ some .curve25519_putkemkey)
    (sharedsecret : Vector UInt8 64) : kemKey fn sharedsecret = sshString sharedsecret.toList := by
  unfold kemKey
  split
  · exact absurd rfl h
  · rfl

theorem puts_putkemkey (fn : Option Fn) (sharedsecret : Vector UInt8 64) :
    Puts (putkemkey fn sharedsecret) (kemKey fn sharedsecret) := by
  by_cases h : fn = some .curve25519_putkemkey
  · rw [h]
    exact puts_putSharedsecret (by simp)
  · have hput : putkemkey fn sharedsecret = fun b => b.putStringLen sharedsecret.toList := by
      funext b
      unfold putkemkey
      split
      · exact absurd rfl h
      · rfl
    rw [hput, kemKey_string h]
    exact puts.putStringLen _

/-- The KEXINIT for a state of the algorithms. -/
def Sshcrypto.kexinit (c : Sshcrypto) (cookie : Vector UInt8 16) : Bytes :=
  kexinitBytes cookie (nameList c.kexs) (nameList c.keys) (nameList c.ciphers)

/-- **`packet_kex_send`** puts that together, where it gets through. -/
theorem kexinitPacket_data {c : Sshcrypto} {cookie : Vector UInt8 16} {b b' : Buf}
    (h : kexinitPacket c cookie b = .ok b') : b'.data = c.kexinit cookie := by
  obtain ⟨body, hputs, hpacket⟩ := kexinitPacket_composes puts c cookie
  rw [hpacket] at h
  exact hputs.of_purge h

/-- What is hashed for a key: the secret, the hash of the exchange, and `rest`. -/
theorem keyInput_data {fn : Option Fn} {sharedsecret : Vector UInt8 64} {hash rest : Bytes}
    {b b' : Buf} (h : keyInput fn sharedsecret hash rest b = .ok b') :
    b'.data = kemKey fn sharedsecret ++ (hash ++ rest) :=
  ((puts_putkemkey fn sharedsecret).bind ((puts.put hash).bind (puts.put rest))).of_purge h

/-! ## 2. What the rest of the session leaves alone -/

/-- What an exchange finds: the lines, the KEXINITs, the algorithms, the session id, the number of
keys. -/
structure ExchangeView where
  hellosend : Bytes
  helloreceive : Bytes
  kexrecv : Bytes
  kexsend : Bytes
  crypto : Sshcrypto
  flagrekeying : Bool
  sessionid : Bytes
  keysLength : ℕ

def Tinysshd.exchangeView (s : Tinysshd) : ExchangeView :=
  ⟨s.hellosend.data, s.helloreceive.data, s.kexrecv.data, s.kex.kexsend.data, s.kex.crypto,
    s.flagrekeying, s.sessionid, s.keys.length⟩

/-- The exchange that "create hash" puts into `hashbuf`. -/
def ExchangeView.exchange (w : ExchangeView) (clientpk serverpk : Bytes)
    (sharedsecret : Vector UInt8 64) : Rfc4253.Exchange where
  vC := w.helloreceive
  vS := w.hellosend
  iC := w.kexrecv
  iS := w.kexsend
  kS := ed25519Blob (hostKey w.crypto).toList
  qC := clientpk
  qS := serverpk
  k := kemKey w.crypto.kex.bufPutkemkey sharedsecret

/-- What "create hash" hashes is the encoding of the exchange. -/
theorem hashInput_data {s : Tinysshd} {clientpk serverpk : Bytes} {sharedsecret : Vector UInt8 64}
    {b b' : Buf} (h : hashInput s clientpk serverpk sharedsecret b = .ok b') :
    b'.data = (s.exchangeView.exchange clientpk serverpk sharedsecret).encode := by
  have hpk : Puts (ed25519Putsignpk (hostKey s.kex.crypto))
      (sshString (ed25519Blob (hostKey s.kex.crypto).toList)) :=
    puts_putEd25519 _
  have hputs := (puts.putStringLen s.helloreceive.data).bind
    ((puts.putStringLen s.hellosend.data).bind ((puts.putStringLen s.kexrecv.data).bind
    ((puts.putStringLen s.kex.kexsend.data).bind (hpk.bind ((puts.putStringLen clientpk).bind
    ((puts.putStringLen serverpk).bind
    (puts_putkemkey s.kex.crypto.kex.bufPutkemkey sharedsecret)))))))
  exact hputs.of_purge h

/-- What was put as a string has a length that four bytes can hold. -/
theorem length_lt_of_putStringLen {b b' : Buf} {x : Bytes} (h : b.putStringLen x = .ok b') :
    x.length < 256 ^ 4 := by
  obtain ⟨c, -, hput⟩ := except_bind_ok h
  rw [Buf.put] at hput
  split at hput
  · rename_i hsane
    simp only [Bool.and_eq_true, decide_eq_true_eq] at hsane
    exact hsane.2.trans_lt (by decide)
  · cases hput

/-- Where it does, every part has a length that was checked. -/
theorem hashInput_fits {s : Tinysshd} {clientpk serverpk : Bytes} {sharedsecret : Vector UInt8 64}
    {b b' : Buf} (h : hashInput s clientpk serverpk sharedsecret b = .ok b') :
    (s.exchangeView.exchange clientpk serverpk sharedsecret).Fits := by
  obtain ⟨_, -, h⟩ := except_bind_ok h
  obtain ⟨_, hvC, h⟩ := except_bind_ok h
  obtain ⟨_, hvS, h⟩ := except_bind_ok h
  obtain ⟨_, hiC, h⟩ := except_bind_ok h
  obtain ⟨_, hiS, h⟩ := except_bind_ok h
  obtain ⟨_, -, h⟩ := except_bind_ok h
  obtain ⟨_, hqC, h⟩ := except_bind_ok h
  obtain ⟨_, hqS, -⟩ := except_bind_ok h
  refine ⟨length_lt_of_putStringLen hvC, length_lt_of_putStringLen hvS,
    length_lt_of_putStringLen hiC, length_lt_of_putStringLen hiS, ?_,
    length_lt_of_putStringLen hqC, length_lt_of_putStringLen hqS⟩
  have hblob : (ed25519Blob (hostKey s.kex.crypto).toList).length = 51 := by
    simp only [ed25519Blob, List.length_append, length_sshString, Vector.length_toList]
    rfl
  exact hblob.trans_lt (by decide)

instance steadyLoop_exchangeView (w : ExchangeView) :
    SteadyLoop fun s => s.exchangeView = w where
  buf hx b s h := by rcases hx with rfl | rfl | rfl <;> exact h
  loop _ _ _ h := h
  receivepacketid _ _ h := h
  arrivals _ _ _ h := h
  anyLoop _ _ h := h
  dispatch _ _ h := h

/-- Authentication leaves it alone. -/
theorem ExchangeView.frame_authentication (P : Primitives) (env : AuthEnv) :
    Frame Tinysshd.exchangeView (authentication P env) := fun _ =>
  keeps_authentication P env fun _ _ h => h

/-! ## 3. What the client sends -/

/-- In an exchange whose client has nothing to send but the packets of `l`. -/
structure Tinysshd.Hearing (w : ExchangeView) (l : List Arrival) (s : Tinysshd) : Prop where
  view_eq : s.exchangeView = w
  hears : s.Hears l

instance steady_hearing (w : ExchangeView) (l : List Arrival) : Steady (Tinysshd.Hearing w l) where
  buf hx b s h := ⟨Steady.buf (Q := fun s => s.exchangeView = w) hx b s h.view_eq,
    Steady.buf hx b s h.hears⟩
  loop _ _ _ h := ⟨h.view_eq, h.hears⟩
  receivepacketid _ _ h := ⟨h.view_eq, h.hears⟩
  arrivals l s hl h := ⟨h.view_eq, Steady.arrivals l s hl h.hears⟩

/-- `triple_packetGetall` in an exchange. -/
theorem triple_packetGetall_hearing {w : ExchangeView} {l : List Arrival} {x : BufField}
    (hx : x.Work) (t : UInt8) :
    Triple (Tinysshd.Hearing w l) (packetGetall t x)
      (fun ok s => s.Hearing w l ∧
        (ok = true → ∃ r, .packet r ∈ l ∧ (x.get s).data = r.payload)) fun _ _ => True := by
  have hget := triple_packetGetall (Q := fun s => s.exchangeView = w) (Steady.buf hx) t l
  refine ((hget.pre fun s hs => ⟨hs.view_eq, hs.hears⟩).post fun ok s hs => ?_).exits
    fun _ _ _ => trivial
  exact ⟨⟨hs.1.1, hs.1.2⟩, hs.2⟩

/-- **SSH_MSG_KEXDH_INIT** holds one string, of the length that is asked for. -/
theorem parseKexdhInit_ok {n : ℕ} {b q : Bytes} (h : parseKexdhInit n b = .ok q) :
    b = SSH_MSG_KEXDH_INIT :: sshString q ∧ q.length = n := by
  obtain ⟨ch, hch, h⟩ := except_bind_ok h
  obtain ⟨_, htype, h⟩ := except_bind_ok h
  obtain ⟨len, hlen, h⟩ := except_bind_ok h
  obtain ⟨_, hn, h⟩ := except_bind_ok h
  obtain ⟨pos, hpos, h⟩ := except_bind_ok h
  obtain ⟨stop, hstop, h⟩ := except_bind_ok h
  cases h
  have hstring : packetparserString b ch.2 = .ok (n, pos) := by
    rw [packetparserString, hlen]
    change (packetparserSkip b len.2 len.1.toNat >>= _) = _
    rw [of_decide_eq_true (require_ok hn), hpos]
    rfl
  obtain ⟨hmax, hone, rfl⟩ := packetparserUint8_iff.mp hch
  obtain ⟨-, -, rfl⟩ := packetparserUint32_iff.mp hlen
  obtain ⟨-, hend, hbytes⟩ := packetparserString_iff.mp hstring
  obtain ⟨-, hall, -⟩ := packetparserEnd_iff.mp hstop
  simp only at hend hbytes hall htype ⊢
  obtain ⟨c, b, rfl⟩ : ∃ c b', b = c :: b' := by
    cases b with
    | nil => exact absurd hone (by simp)
    | cons c b => exact ⟨c, b, rfl⟩
  have hc : c = SSH_MSG_KEXDH_INIT := of_decide_eq_true (require_ok htype)
  rw [List.length_cons] at hall
  have hrest : slice (c :: b) (0 + 1) (4 + n) = b := by
    rw [slice, List.drop_succ_cons, List.drop_zero, List.take_of_length_le]
    omega
  rw [hrest] at hbytes
  subst hc
  exact ⟨congrArg (SSH_MSG_KEXDH_INIT :: ·) hbytes.2,
    length_slice (by rw [List.length_cons]; omega)⟩

/-- What `sshcrypto_enc` gave in the end. -/
theorem encLoop_ok {n : ℕ} {l : List (Option (Vector UInt8 1071 × Vector UInt8 64))}
    {r : Vector UInt8 1071 × Vector UInt8 64} (h : encLoop n l = .ok r) :
    some r ∈ l ∧ (n = 32 → r.2.toList.headD 0 ≠ 0) := by
  induction l with
  | nil => cases h
  | cons a l ih =>
    cases a with
    | none => cases h
    | some a =>
      rw [encLoop] at h
      split at h
      · obtain ⟨hmem, hhead⟩ := ih h
        exact ⟨List.mem_cons_of_mem _ hmem, hhead⟩
      · rename_i hcond
        cases h
        exact ⟨List.mem_cons_self, fun hn hzero => hcond ⟨hzero, hn⟩⟩

/-! ## 4. One exchange -/

section

variable (P : Primitives)

/-- `sshcrypto_hash`, up to the length of its hash. -/
def KexGlobals.sshcryptoHash (g : KexGlobals) (m : Bytes) : Bytes :=
  (P.hash g.hash m).toList.take g.hashBytes

/-- The six keys of RFC 4253 §7.2, in the length of two hashes each. -/
def KexGlobals.keys (g : KexGlobals) (k h sid : Bytes) : List Bytes :=
  (List.range 6).map fun i =>
    Rfc4253.keyStream (g.sshcryptoHash P) k h sid (UInt8.ofNat (65 + i)) 2

/-- **A key is two hashes long**: the first is over the letter and the session id, the second over the
first. -/
theorem triple_deriveKey (w : ExchangeView) (ks : List Bytes) (sharedsecret : Vector UInt8 64)
    (hash : Bytes) (i : ℕ) :
    Triple (fun s => s.exchangeView = w ∧ s.keys = ks) (deriveKey P sharedsecret hash i)
      (fun _ s => s.exchangeView = w ∧ s.keys = ks.set i
        (Rfc4253.keyStream (w.crypto.kex.sshcryptoHash P)
          (kemKey w.crypto.kex.bufPutkemkey sharedsecret) hash
          (w.sessionid.take w.crypto.kex.hashBytes) (UInt8.ofNat (65 + i)) 2))
      fun _ _ => True := by
  have hkept (f : Buf → Except Exit Buf) :
      Keeps (fun s => s.exchangeView = w ∧ s.keys = ks) (BufField.b1.run f) := by
    refine (keeps_reads _).bind fun r => (keeps_check r).bind fun b => keeps_modify ?_
    rintro s ⟨hs, hkeys⟩
    exact ⟨hs, hkeys⟩
  refine triple_reads_eq (x := w.crypto.kex) (by rintro s ⟨rfl, -⟩; rfl) ?_
  refine triple_reads_eq (x := w.sessionid.take w.crypto.kex.hashBytes)
    (by rintro s ⟨rfl, -⟩; rfl) ?_
  -- The buffer is made twice, with another rest behind the hash.
  have hrun (rest : Bytes) : Triple (fun s => s.exchangeView = w ∧ s.keys = ks)
      (BufField.b1.run (keyInput w.crypto.kex.bufPutkemkey sharedsecret hash rest))
      (fun _ s => (s.exchangeView = w ∧ s.keys = ks) ∧
        s.b1.data = kemKey w.crypto.kex.bufPutkemkey sharedsecret ++ (hash ++ rest))
      fun _ _ => True :=
    (triple_run (R := (· = kemKey w.crypto.kex.bufPutkemkey sharedsecret ++ (hash ++ rest)))
      (hkept _) fun b b' h => keyInput_data h).exits fun _ _ _ => trivial
  refine (hrun _).bind fun _ => ?_
  refine triple_reads_eq (x := w.crypto.kex.sshcryptoHash P (kemKey w.crypto.kex.bufPutkemkey
    sharedsecret ++ (hash ++ (UInt8.ofNat (65 + i) :: w.sessionid.take w.crypto.kex.hashBytes))))
    (fun s hs => by rw [KexGlobals.sshcryptoHash, ← hs.2]) ?_
  refine Triple.bind ((hrun _).pre fun s hs => hs.1) fun _ => triple_modify ?_
  rintro s ⟨⟨hs, hkeys⟩, hdata⟩
  refine ⟨?_, ?_⟩
  · rw [← hs]
    simp only [Tinysshd.exchangeView, List.length_set]
  · have hstream : Rfc4253.keyStream (w.crypto.kex.sshcryptoHash P)
        (kemKey w.crypto.kex.bufPutkemkey sharedsecret) hash
        (w.sessionid.take w.crypto.kex.hashBytes) (UInt8.ofNat (65 + i)) 2 =
      w.crypto.kex.sshcryptoHash P (kemKey w.crypto.kex.bufPutkemkey sharedsecret ++ (hash ++
        (UInt8.ofNat (65 + i) :: w.sessionid.take w.crypto.kex.hashBytes))) ++
      w.crypto.kex.sshcryptoHash P s.b1.data := by
      rw [hdata]
      simp only [Rfc4253.keyStream, List.append_assoc, List.singleton_append]
    rw [hstream, ← hkeys]
    rfl

/-- The turns of the loop over the keys. -/
theorem triple_deriveKeys (w : ExchangeView) (sharedsecret : Vector UInt8 64) (hash : Bytes)
    (l : List ℕ) (ks : List Bytes) :
    Triple (fun s => s.exchangeView = w ∧ s.keys = ks) (deriveKeys P sharedsecret hash l)
      (fun _ s => s.exchangeView = w ∧ s.keys = l.foldl (fun ks i => ks.set i
        (Rfc4253.keyStream (w.crypto.kex.sshcryptoHash P)
          (kemKey w.crypto.kex.bufPutkemkey sharedsecret) hash
          (w.sessionid.take w.crypto.kex.hashBytes) (UInt8.ofNat (65 + i)) 2)) ks)
      fun _ _ => True := by
  induction l generalizing ks with
  | nil => exact triple_pure fun _ h => h
  | cons i l ih => exact (triple_deriveKey P w ks sharedsecret hash i).bind fun _ => ih _

/-- **"key derivation"** is that of RFC 4253. -/
theorem triple_deriveAll (w : ExchangeView) (hw : w.keysLength = 6)
    (sharedsecret : Vector UInt8 64) (hash : Bytes) :
    Triple (fun s => s.exchangeView = w) (deriveKeys P sharedsecret hash [0, 1, 2, 3, 4, 5])
      (fun _ s => s.exchangeView = w ∧ s.keys = w.crypto.kex.keys P
        (kemKey w.crypto.kex.bufPutkemkey sharedsecret) hash
        (w.sessionid.take w.crypto.kex.hashBytes)) fun _ _ => True := by
  refine ⟨fun s hs => ?_⟩
  refine ((triple_deriveKeys P w sharedsecret hash [0, 1, 2, 3, 4, 5] s.keys).run s
    ⟨hs, rfl⟩).mono ?_ fun _ _ _ => trivial
  rintro - t ⟨ht, hkeys⟩
  refine ⟨ht, hkeys.trans ?_⟩
  have hlen : s.keys.length = 6 := (congrArg ExchangeView.keysLength hs).trans hw
  obtain ⟨a, b, c, d, e, f, hlist⟩ : ∃ a b c d e f, s.keys = [a, b, c, d, e, f] := by
    match s.keys, hlen with
    | [a, b, c, d, e, f], _ => exact ⟨a, b, c, d, e, f, rfl⟩
  rw [hlist]
  rfl

/-- After "session id". -/
def ExchangeView.hashed (w : ExchangeView) (hash : Bytes) : ExchangeView :=
  { w with
    sessionid := if w.flagrekeying then w.sessionid else overwrite w.sessionid 0 hash
    flagrekeying := true }

/-- A state that is only looked at. -/
theorem triple_get_bind {α : Type} {Q : Tinysshd → Prop} {f : Tinysshd → SessionM α}
    {R : α → Tinysshd → Prop} {E : Exit → Tinysshd → Prop}
    (h : ∀ b, Q b → Triple (fun s => Q s ∧ s = b) (f b) R E) : Triple Q (get >>= f) R E := by
  constructor
  intro s hs
  rw [exec_bind, exec_get]
  exact (h s hs).run s ⟨hs, rfl⟩

/-- **"create hash", "session id"**. -/
theorem triple_exchangeHash_view (w : ExchangeView) (clientpk serverpk : Bytes)
    (sharedsecret : Vector UInt8 64) :
    let hash := w.crypto.kex.sshcryptoHash P (w.exchange clientpk serverpk sharedsecret).encode
    Triple (fun s => s.exchangeView = w) (exchangeHash P clientpk serverpk sharedsecret)
      (fun h s => (w.exchange clientpk serverpk sharedsecret).Fits ∧ h = hash ∧
        s.exchangeView = w.hashed hash) fun _ _ => True := by
  intro hash
  refine triple_get_bind fun u hu => ?_
  have hrun : Triple (fun s => s.exchangeView = w)
      (BufField.hashbuf.run (hashInput u clientpk serverpk sharedsecret))
      (fun _ s => s.exchangeView = w ∧ (w.exchange clientpk serverpk sharedsecret).Fits ∧
        s.hashbuf.data = (w.exchange clientpk serverpk sharedsecret).encode) fun _ _ => True := by
    refine (triple_run (x := .hashbuf)
      (R := fun d => (w.exchange clientpk serverpk sharedsecret).Fits ∧
        d = (w.exchange clientpk serverpk sharedsecret).encode)
      (keeps_run_work .of_hashbuf _) fun b b' h => ?_).exits fun _ _ _ => trivial
    rw [← hu]
    exact ⟨hashInput_fits h, hashInput_data h⟩
  refine Triple.bind (hrun.pre fun s hs => hs.1) fun _ => ?_
  refine triple_reads_eq (x := w.crypto.kex) (by rintro s ⟨rfl, -⟩; rfl) ?_
  refine triple_reads_eq (x := hash) (fun s hs => ?_) ?_
  · rw [hs.2.2]
    rfl
  · refine Triple.bind (Q := fun _ s => (w.exchange clientpk serverpk sharedsecret).Fits ∧
      s.exchangeView = w.hashed hash) (triple_modify ?_)
      fun _ => triple_pure fun s hs => ⟨hs.1, rfl, hs.2⟩
    rintro s ⟨rfl, hfits, -⟩
    exact ⟨hfits, rfl⟩

/-- What an exchange comes from: what the two sides had sent each other, a KEXDH_INIT of the client
and a result of `sshcrypto_enc`. -/
structure ExchangeView.Makes (w : ExchangeView) (l : List Arrival) (env : KexdhEnv)
    (x : Rfc4253.Exchange) : Prop where
  fits : x.Fits
  vC : x.vC = w.helloreceive
  vS : x.vS = w.hellosend
  iC : x.iC = w.kexrecv
  iS : x.iS = w.kexsend
  kS : x.kS = ed25519Blob (hostKey w.crypto).toList
  qC_length : x.qC.length = w.crypto.kex.kemPublickeybytes
  qC : ∃ r, .packet r ∈ l ∧ r.payload = SSH_MSG_KEXDH_INIT :: sshString x.qC
  secret : ∃ serverpk sharedsecret, some (serverpk, sharedsecret) ∈ env.encs ∧
    x.qS = serverpk.toList.take w.crypto.kex.kemCiphertextbytes ∧
    (w.crypto.kex.bufPutkemkey = some .curve25519_putkemkey →
      w.crypto.kex.kemPublickeybytes = 32 →
        x.k = Rfc4253.mpint (ofBe (sharedsecret.toList.take 32))) ∧
    (w.crypto.kex.bufPutkemkey ≠ some .curve25519_putkemkey →
      x.k = Rfc4253.string sharedsecret.toList)

theorem ExchangeView.makes_exchange {w : ExchangeView} {l : List Arrival} {env : KexdhEnv}
    {clientpk : Bytes} {enc : Vector UInt8 1071 × Vector UInt8 64}
    (hlen : clientpk.length = w.crypto.kex.kemPublickeybytes)
    (hinit : ∃ r, .packet r ∈ l ∧ r.payload = SSH_MSG_KEXDH_INIT :: sshString clientpk)
    (henc : encLoop w.crypto.kex.kemPublickeybytes env.encs = .ok enc)
    (hfits : (w.exchange clientpk (enc.1.toList.take w.crypto.kex.kemCiphertextbytes) enc.2).Fits) :
    w.Makes l env (w.exchange clientpk
      (enc.1.toList.take w.crypto.kex.kemCiphertextbytes) enc.2) where
  fits := hfits
  vC := rfl
  vS := rfl
  iC := rfl
  iS := rfl
  kS := rfl
  qC_length := hlen
  qC := hinit
  secret := by
    obtain ⟨hmem, hhead⟩ := encLoop_ok henc
    refine ⟨enc.1, enc.2, hmem, rfl, fun hfn hn => ?_, fun hfn => kemKey_string hfn enc.2⟩
    have hkey : kemKey w.crypto.kex.bufPutkemkey enc.2 =
        sshString (sharedsecretBytes enc.2.toList 32) := by
      rw [hfn]
      rfl
    refine hkey.trans (sharedsecretBytes_eq ⟨enc.2.toList.headD 0, ?_, hhead hn⟩)
    have hlength : enc.2.toList.length = 64 := Vector.length_toList
    cases hlist : enc.2.toList with
    | nil => rw [hlist] at hlength; cases hlength
    | cons a m => exact List.mem_cons_self

/-- **`packet_kexdh`**, where it returns 1, has made an exchange, hashed it, and derived the keys
from the hash. -/
theorem triple_packetKexdh_keys (w : ExchangeView) (hw : w.keysLength = 6) (l : List Arrival)
    (env : KexdhEnv) :
    Triple (Tinysshd.Hearing w l) (packetKexdh P env)
      (fun ok s => ok = true → ∃ x, w.Makes l env x ∧
        let hash := w.crypto.kex.sshcryptoHash P x.encode
        s.exchangeView = w.hashed hash ∧ s.keys = w.crypto.kex.keys P x.k hash
          ((w.hashed hash).sessionid.take w.crypto.kex.hashBytes)) fun _ _ => True := by
  have hskip : Triple (Tinysshd.Hearing w l) skipGuess (fun _ => Tinysshd.Hearing w l)
      fun _ _ => True := by
    refine triple_reads_any fun skip => Triple.ite (fun _ => ?_) fun _ => triple_pure fun _ h => h
    exact (triple_packetGetall_hearing .of_b1 _).post fun _ _ h => h.1
  refine hskip.bind fun ok => Triple.ite (fun _ => triple_pure fun _ _ h => by cases h) fun _ => ?_
  refine (triple_packetGetall_hearing .of_b1 SSH_MSG_KEXDH_INIT).bind fun ok =>
    Triple.ite (fun _ => triple_pure fun _ _ h => by cases h) fun hok => ?_
  refine triple_reads_eq (x := w.crypto.kex) (fun s hs => by rw [← hs.1.view_eq]; rfl) ?_
  refine triple_reads_bind fun parsed => ⟨?_⟩
  rintro s ⟨⟨hs, hpayload⟩, rfl⟩
  obtain ⟨r, hr, hdata⟩ := hpayload (by simpa using hok)
  have hdata : s.b1.data = r.payload := hdata
  refine Triple.run (P := fun s => s.exchangeView = w) ?_ s hs.view_eq
  refine triple_check_bind (fun _ _ _ => trivial) fun clientpk hparse => ?_
  obtain ⟨hmessage, hlen⟩ := parseKexdhInit_ok hparse
  have hkept {α : Type} {m : SessionM α} {v : ExchangeView}
      (h : Keeps (fun s => s.exchangeView = v) m) :
      Triple (fun s => s.exchangeView = v) m (fun _ s => s.exchangeView = v) fun _ _ => True :=
    h.triple fun _ _ _ => trivial
  refine (hkept (keeps_run_work .of_b1 _)).bind fun _ =>
    triple_check_bind (fun _ _ _ => trivial) fun enc henc => ?_
  refine (triple_exchangeHash_view P w clientpk _ enc.2).bind fun hash => ⟨?_⟩
  rintro u ⟨hfits, rfl, hu⟩
  have hmakes := w.makes_exchange hlen ⟨r, hr, by rw [← hdata, hmessage]⟩ henc hfits
  generalize hx : w.exchange clientpk (enc.1.toList.take w.crypto.kex.kemCiphertextbytes) enc.2 = x
    at hu hmakes ⊢
  have hk : x.k = kemKey w.crypto.kex.bufPutkemkey enc.2 := by rw [← hx]; rfl
  -- The keys are derived last, from the view that the hash left.
  refine Triple.run (P := fun s => s.exchangeView = w.hashed (w.crypto.kex.sshcryptoHash P
    x.encode)) ?_ u hu
  generalize hv : w.hashed (w.crypto.kex.sshcryptoHash P x.encode) = v
  cases env.sm with
  | none => exact triple_pure fun _ _ h => by cases h
  | some sm =>
    refine (hkept (keeps_run_work .of_b1 _)).bind fun _ => triple_reads_any fun pk =>
      (hkept (keeps_run_work .of_b2 _)).bind fun _ => (hkept (keeps_packetPutBuf _)).bind fun _ =>
      (hkept (keeps_run_work .of_b2 _)).bind fun _ => (hkept (keeps_packetPutBuf _)).bind fun _ =>
      (hkept (keeps_packetSendall _)).bind fun sent =>
      Triple.ite (fun _ => triple_pure fun _ _ h => by cases h) fun _ => ?_
    refine triple_reads_any fun fuel => (hkept (keeps_awaitNewkeys _)).bind
      fun newkeys => Triple.ite (fun _ => triple_pure fun _ _ h => by cases h) fun _ => ?_
    have hlength : v.keysLength = 6 := by rw [← hv]; exact hw
    refine (triple_deriveAll P v hlength enc.2 _).bind fun _ => triple_pure fun t ht _ => ?_
    have hkex : v.crypto = w.crypto := by rw [← hv]; rfl
    refine ⟨x, hmakes, ht.1.trans hv.symm, ht.2.trans ?_⟩
    rw [hkex, hk, hv]

/-! ## 5. From `rekeying` on -/

/-- The view with which `packet_kexdh` begins, where the code comes to `rekeying` with `b` in
`b1`. -/
def ExchangeView.answered (w : ExchangeView) (b : Bytes) (cookie : Vector UInt8 16) :
    ExchangeView :=
  if w.flagrekeying then { w with kexrecv := b, kexsend := w.crypto.kexinit cookie } else w

/-- `packet_kex_send` leaves the KEXINIT it sent in `kexsend`. -/
theorem triple_packetKexSend_view (w : ExchangeView) (l : List Arrival)
    (cookie : Vector UInt8 16) (sent : Bool) :
    Triple (Tinysshd.Hearing w l) (packetKexSendAll cookie sent)
      (fun _ => Tinysshd.Hearing { w with kexsend := w.crypto.kexinit cookie } l)
      fun _ _ => True := by
  refine Triple.bind
    (Q := fun _ => Tinysshd.Hearing { w with kexsend := w.crypto.kexinit cookie } l)
    ⟨fun s hs => ?_⟩ fun sent => triple_reads_any fun payload => ?_
  · rw [onKex, exec_zoom]
    cases hb : kexinitPacket s.kex.crypto cookie s.kex.kexsend with
    | error e =>
      rw [exec_packetKexSend_error sent hb]
      trivial
    | ok b =>
      have hdata := kexinitPacket_data hb
      rw [exec_packetKexSend sent hb]
      refine ⟨?_, hs.hears⟩
      rw [← hs.view_eq]
      simp only [Tinysshd.exchangeView, hdata]
  · exact ((keeps_packetPutAny payload).triple fun _ _ _ => trivial).bind fun _ =>
      (keeps_packetSendall _).triple fun _ _ _ => trivial

/-- A later KEXINIT of the client is answered by one of the server. -/
theorem triple_answerKexinit_view (w : ExchangeView) (l : List Arrival)
    (b : Bytes) (env : KexdhEnv) :
    Triple (fun s => s.Hearing w l ∧ s.b1.data = b) (answerKexinit env)
      (fun _ => Tinysshd.Hearing (w.answered b env.cookie) l) fun _ _ => True := by
  refine triple_reads_eq (x := w.flagrekeying) (fun s hs => by rw [← hs.1.view_eq]; rfl) ?_
  rw [ExchangeView.answered]
  refine Triple.ite (fun hagain => ?_) fun hagain => triple_pure fun s hs => ?_
  · rw [if_pos hagain]
    refine triple_reads_eq (x := b) (fun s hs => hs.2) ?_
    have hcopy : Triple (fun s => s.Hearing w l ∧ s.b1.data = b)
        (BufField.kexrecv.run fun c => do let c ← c.purge; c.put b)
        (fun _ => Tinysshd.Hearing { w with kexrecv := b } l) fun _ _ => True := by
      refine triple_reads_bind fun r => triple_check_bind (fun _ _ _ => trivial) fun c hc =>
        triple_modify ?_
      rintro s ⟨⟨hs, -⟩, rfl⟩
      have hdata : c.data = b := (puts.put b).of_purge hc
      refine ⟨?_, hs.hears⟩
      rw [← hs.view_eq, ← hdata]
      rfl
    refine hcopy.bind fun _ => (triple_packetKexSend_view { w with kexrecv := b } l env.cookie
      env.kexSent).bind fun ok => ?_
    exact ⟨fun s hs => by
      cases ok with
      | true => exact hs
      | false => trivial⟩
  · rw [if_neg hagain]
    exact hs.1

/-- **From `rekeying` to "communication is encrypted"**: an exchange, and the keys of it. -/
theorem triple_rekeying_keys (w : ExchangeView) (hlen : w.keysLength = 6) (l : List Arrival)
    (b : Bytes) (env : KexdhEnv) :
    Triple (fun s => s.Hearing w l ∧ s.b1.data = b) (rekeying P env)
      (fun _ s => ∃ x, (w.answered b env.cookie).Makes l env x ∧
        let hash := w.crypto.kex.sshcryptoHash P x.encode
        s.exchangeView = (w.answered b env.cookie).hashed hash ∧ s.keys = w.crypto.kex.keys P x.k
          hash ((w.hashed hash).sessionid.take w.crypto.kex.hashBytes)) fun _ _ => True := by
  obtain ⟨hcrypto, hkeys, hid⟩ : (w.answered b env.cookie).crypto = w.crypto ∧
      (w.answered b env.cookie).keysLength = w.keysLength ∧
      ∀ hash, ((w.answered b env.cookie).hashed hash).sessionid = (w.hashed hash).sessionid := by
    rw [ExchangeView.answered]
    split
    · exact ⟨rfl, rfl, fun _ => rfl⟩
    · exact ⟨rfl, rfl, fun _ => rfl⟩
  have hkexdh := triple_packetKexdh_keys P (w.answered b env.cookie) (hkeys.trans hlen) l env
  refine (triple_answerKexinit_view w l b env).bind fun _ => hkexdh.bind fun ok => ?_
  refine triple_check_bind (fun _ _ _ => trivial) fun _ hok => triple_modify fun s hs => ?_
  have hok : ok = true := by
    cases ok with
    | false => cases hok
    | true => rfl
  obtain ⟨x, hmakes, hview, hderived⟩ := hs hok
  rw [hcrypto, hid] at hderived
  rw [hcrypto] at hview
  exact ⟨x, hmakes, hview, hderived⟩

/-! ## 6. The main loop -/

/-- Without the KEXINITs, which every exchange brings anew. -/
def ExchangeView.settled (w : ExchangeView) : ExchangeView :=
  { w with kexrecv := [], kexsend := [] }

/-- A view after the first exchange. -/
structure ExchangeView.Ready (w : ExchangeView) : Prop where
  keysLength : w.keysLength = 6
  flagrekeying : w.flagrekeying = true

/-- A later exchange settles nothing anew. -/
theorem triple_rekeying_settled (v : ExchangeView) (hv : v.Ready) (env : KexdhEnv) :
    Triple (fun s => s.exchangeView.settled = v) (rekeying P env)
      (fun _ s => s.exchangeView.settled = v) fun _ _ => True := by
  constructor
  rintro s rfl
  refine ((triple_rekeying_keys P s.exchangeView hv.keysLength s.arrivals s.b1.data
    env).run s ⟨⟨rfl, fun _ h => h⟩, rfl⟩).mono ?_ fun _ _ _ => trivial
  rintro - t ⟨x, -, ht, -⟩
  have hagain : s.exchangeView.flagrekeying = true := hv.flagrekeying
  rw [ht, ExchangeView.answered, if_pos hagain]
  simp only [ExchangeView.hashed, hagain, if_true, ExchangeView.settled]

/-- An iteration leaves what the first exchange settled. -/
theorem triple_turn_settled (v : ExchangeView) (hv : v.Ready) (t : Turn) :
    Triple (fun s => s.exchangeView.settled = v) (turn P t)
      (fun _ s => s.exchangeView.settled = v) fun _ _ => True := by
  have hkept {α : Type} {m : SessionM α} (h : Frame Tinysshd.exchangeView m) :
      Triple (fun s => s.exchangeView.settled = v) m (fun _ s => s.exchangeView.settled = v)
        fun _ _ => True :=
    (h.keeps fun w => w.settled = v).triple fun _ _ _ => trivial
  rw [turn_eq]
  refine (hkept fun w => keeps_turnPackets t).bind fun again => ?_
  match again with
  | none => exact triple_pure fun _ h => h
  | some false => exact triple_pure fun _ h => h
  | some true =>
    refine Triple.bind (Q := fun _ (s : Tinysshd) => s.exchangeView.settled = v)
      (triple_modify fun _ h => h) fun _ => (triple_rekeying_settled P v hv t.kexdh).bind fun _ =>
      (hkept (ExchangeView.frame_authentication P t.auth)).bind fun _ => triple_pure fun _ h => h

/-- **Every exchange of the main loop** finds what the first one settled. -/
theorem loopRekeys_settled (l : List Turn) (s : Tinysshd) (hs : s.exchangeView.settled.Ready) :
    ∀ r ∈ loopRekeys P l s, r.1.exchangeView.settled = s.exchangeView.settled := by
  induction l generalizing s with
  | nil => exact fun _ hr => by cases hr
  | cons t l ih =>
    intro r hr
    rcases List.mem_append.mp hr with hr | hr
    · have hu := keeps_turnPackets (Q := fun u => u.exchangeView = s.exchangeView) t s rfl
      rw [turnRekeys] at hr
      rcases hx : exec (turnPackets t) s with ⟨a, u⟩
      rw [hx] at hr hu
      rcases a with e | _ | _ | _
      · cases hr
      · cases hr
      · cases hr
      · rw [List.mem_singleton.mp hr]
        exact congrArg ExchangeView.settled hu
    · have hu := (triple_turn_settled P s.exchangeView.settled hs t).run s rfl
      rcases hx : exec (turn P t) s with ⟨a, u⟩
      rw [hx] at hr hu
      rcases a with e | _ | _
      · cases hr
      · have hu : u.exchangeView.settled = s.exchangeView.settled := hu
        rw [← hu] at hs ⊢
        exact ih u hs r hr
      · cases hr

/-! ## 7. Up to the first exchange -/

/-- `main_tinysshd` up to where it first comes to `rekeying`. -/
def beginSession (env : TinysshdEnv) : SessionM Unit := do
  let ok ← awaitKexinit env
  let kexrecv ← reads fun s => if ok then some s.kexrecv.data else none
  let ok ← onKex (packetKexReceive kexrecv)
  orDie ok "unable to receive kex-message"

/-- The session is that, the first exchange with authentication, and the main loop. -/
theorem tinysshd_eq_beginSession (env : TinysshdEnv) :
    tinysshd P env = beginSession env >>= fun _ =>
      (rekeying P env.kexdh >>= fun _ => authentication P env.auth) >>= fun _ =>
        sessionLoop P env.turns := by
  simp only [tinysshd_eq, beginSession, firstExchange, bind_assoc]

/-- What nothing writes before the first exchange. -/
structure Tinysshd.Early (s : Tinysshd) : Prop where
  kex : s.kex.Bounded
  keys : s.keys.length = 6
  flagrekeying : s.flagrekeying = false
  sessionid : s.sessionid.length = 64

/-- The lines that the two sides sent, without their ends. -/
structure TinysshdEnv.Lines (env : TinysshdEnv) (vC vS : Bytes) : Prop where
  vC : ∃ line, getln 256 [] env.clientHello = some line ∧ vC = stripLast 0x0d (stripLast 0x0a line)
  vS : vS = ascii "SSH-2.0-tinyssh " ++ env.logstring.toList

theorem keeps_run_early {Q : Tinysshd → Prop} (x : BufField) (f : Buf → Except Exit Buf)
    (hQ : ∀ b s, Q s → Q (x.set b s)) :
    Keeps (fun s => s.Early ∧ Q s) (x.run f) := by
  refine (keeps_reads _).bind fun r => (keeps_check r).bind fun b => keeps_modify ?_
  rintro s ⟨hs, hq⟩
  refine ⟨?_, hQ b s hq⟩
  cases x <;> exact ⟨hs.kex, hs.keys, hs.flagrekeying, hs.sessionid⟩

/-- `packet_hello_send`. -/
theorem triple_packetHelloSend_line (env : TinysshdEnv) :
    Triple (fun s => s.Early ∧ s.helloreceive.alloc = 256)
      (packetHelloSend env.logstring env.helloSent)
      (fun ok s => ok = true → s.Early ∧ s.helloreceive.alloc = 256 ∧
        s.hellosend.data = ascii "SSH-2.0-tinyssh " ++ env.logstring.toList) fun _ _ => True := by
  have hname : ascii "SSH-2.0-tinyssh " = ascii "SSH-2.0-tinyssh" ++ ascii " " := by decide
  have hputs := (puts.put (ascii "SSH-2.0-tinyssh")).bind ((puts.put (ascii " ")).bind
    ((puts.put env.logstring.toList).bind (puts.put [0x0d, 0x0a])))
  have hline : Triple (fun s => s.Early ∧ s.helloreceive.alloc = 256)
      (BufField.hellosend.run (helloLine env.logstring))
      (fun _ s => (s.Early ∧ s.helloreceive.alloc = 256) ∧ s.hellosend.data =
        ascii "SSH-2.0-tinyssh " ++ env.logstring.toList ++ [0x0d, 0x0a]) fun _ _ => True := by
    refine (triple_run (x := .hellosend) (R := (· = _))
      (keeps_run_early .hellosend _ fun _ _ h => h) fun b b' h => ?_).exits fun _ _ _ => trivial
    rw [hputs.of_purge h, hname]
    simp only [List.append_assoc]
  refine hline.bind fun _ => Triple.ite (fun _ => ?_) fun _ => triple_pure fun _ _ h => by cases h
  refine Triple.bind (Q := fun _ s => s.Early ∧ s.helloreceive.alloc = 256 ∧
    s.hellosend.data = ascii "SSH-2.0-tinyssh " ++ env.logstring.toList) ?_
    fun _ => triple_pure fun _ h _ => h
  refine triple_reads_bind fun r => triple_check_bind (fun _ _ _ => trivial) fun b hb =>
    triple_modify ?_
  rintro s ⟨⟨⟨hs, halloc⟩, hdata⟩, rfl⟩
  cases hb
  refine ⟨⟨hs.kex, hs.keys, hs.flagrekeying, hs.sessionid⟩, halloc, ?_⟩
  change s.hellosend.data.take (s.hellosend.data.length - 2) = _
  rw [hdata, List.length_append]
  exact List.take_left

/-- `packet_hello_receive`. -/
theorem triple_packetHelloReceive_line (env : TinysshdEnv) (vS : Bytes) :
    Triple (fun s => s.Early ∧ s.helloreceive.alloc = 256 ∧ s.hellosend.data = vS)
      (packetHelloReceive env.clientHello)
      (fun ok s => ok = true → s.Early ∧ s.hellosend.data = vS ∧
        ∃ line, getln 256 [] env.clientHello = some line ∧
          s.helloreceive.data = stripLast 0x0d (stripLast 0x0a line)) fun _ _ => True := by
  refine triple_reads_eq (x := 256) (fun s hs => hs.2.1) ?_
  split
  · exact triple_pure fun _ _ h => by cases h
  · rename_i line hline
    refine Triple.ite (fun _ => triple_pure fun _ _ h => by cases h) fun _ => ?_
    refine Triple.bind (Q := fun _ s => s.Early ∧ s.hellosend.data = vS ∧
      s.helloreceive.data = stripLast 0x0d (stripLast 0x0a line)) ?_
      fun _ => triple_pure fun s hs _ => ⟨hs.1, hs.2.1, line, hline, hs.2.2⟩
    refine triple_reads_bind fun r => triple_check_bind (fun _ _ _ => trivial) fun b hb =>
      triple_modify ?_
    rintro s ⟨⟨hs, -, hsend⟩, rfl⟩
    cases hb
    exact ⟨⟨hs.kex, hs.keys, hs.flagrekeying, hs.sessionid⟩, hsend, rfl⟩

/-- The view with which a session comes to its first exchange. -/
structure ExchangeView.Begun (env : TinysshdEnv) (w : ExchangeView) : Prop where
  crypto : w.crypto.Bounded
  keysLength : w.keysLength = 6
  flagrekeying : w.flagrekeying = false
  sessionid : w.sessionid.length = 64
  lines : env.Lines w.helloreceive w.hellosend
  kexsend : w.kexsend = w.crypto.kexinit env.kexdh.cookie

/-- Only the names of the tables go into a KEXINIT, and `packet_kex_receive` leaves the tables. -/
theorem keeps_packetKexReceive_kexinit (cookie : Vector UInt8 16) (kexrecv : Option Bytes) :
    Keeps (fun k => k.crypto.Bounded ∧ k.kexsend.data = k.crypto.kexinit cookie)
      (packetKexReceive kexrecv) := by
  refine keeps_packetKexReceive (keeps_sshcryptoKexSelect (fun _ _ h => h) ?_)
    (keeps_sshcryptoKeySelect ?_) (keeps_sshcryptoCipherSelect ?_) (fun _ _ h => h) kexrecv
  · rintro k l i row ⟨h, hsent⟩ hfound
    exact ⟨⟨h.rows row (selectLoop_mem hfound), h.rows, h.kexs_le, h.keys_le, h.ciphers_le⟩, hsent⟩
  · rintro k l i row ⟨h, hsent⟩ -
    exact ⟨⟨h.kex, h.rows, h.kexs_le, h.keys_le, h.ciphers_le⟩, hsent⟩
  · rintro k l i row ⟨h, hsent⟩ -
    exact ⟨⟨h.kex, h.rows, h.kexs_le, h.keys_le, h.ciphers_le⟩, hsent⟩

theorem orDie_ok {ok : Bool} {trouble : String} {u : Unit}
    (h : (if ok then .ok () else .error (.dieFatal trouble) : Except Exit Unit) = .ok u) :
    ok = true := by
  cases ok with
  | true => rfl
  | false => cases h

instance steady_begun (env : TinysshdEnv) : Steady fun s => s.exchangeView.Begun env where
  buf hx b s h := by rcases hx with rfl | rfl | rfl <;> exact h
  loop _ _ _ h := h
  receivepacketid _ _ h := h
  arrivals _ _ _ h := h

/-- Up to the client's KEXINIT: the lines are there, and the own KEXINIT was sent. -/
theorem triple_awaitKexinit_begun {c : Sshcrypto} (hc : c.Bounded) (env : TinysshdEnv)
    (random : ℕ → Bool) (arrivals : List Arrival) :
    Triple (fun s => s = tinysshdStart c random arrivals) (awaitKexinit env)
      (fun _ s => s.exchangeView.Begun env) fun _ _ => True := by
  have hstart : Triple (fun s => s = tinysshdStart c random arrivals)
      (onKex (startAlgorithms env.session)) (fun _ s => s.Early ∧ s.helloreceive.alloc = 256)
      fun _ _ => True := by
    constructor
    rintro s rfl
    have hm := (triple_startAlgorithms env.session).run _
      (bounded_start hc random arrivals).kex
    rw [onKex, exec_zoom]
    rcases hx : exec (startAlgorithms env.session) (tinysshdStart c random arrivals).kex with ⟨r, k⟩
    rw [hx] at hm
    cases r with
    | error e => trivial
    | ok a => exact ⟨⟨hm, rfl, rfl, rfl⟩, rfl⟩
  have hget : Keeps (fun s => s.exchangeView.Begun env) (packetGetall SSH_MSG_KEXINIT .kexrecv) :=
    keeps_packetGetall_of (fun _ s hs => ⟨hs.crypto, hs.keysLength, hs.flagrekeying, hs.sessionid,
      hs.lines, hs.kexsend⟩) _
  refine hstart.bind fun _ => (triple_packetHelloSend_line env).bind fun ok =>
    triple_check_bind (fun _ _ _ => trivial) fun _ hok => ?_
  refine Triple.bind ((triple_packetHelloReceive_line env
    (ascii "SSH-2.0-tinyssh " ++ env.logstring.toList)).pre fun s hs => hs (orDie_ok hok))
    fun ok => triple_check_bind (fun _ _ _ => trivial) fun _ hok => ⟨fun s hs => ?_⟩
  obtain ⟨hearly, hsend, line, hline, hreceive⟩ := hs (orDie_ok hok)
  refine Triple.run (P := Tinysshd.Hearing s.exchangeView s.arrivals) ?_ s ⟨rfl, fun _ h => h⟩
  refine (triple_packetKexSend_view s.exchangeView s.arrivals env.kexdh.cookie
    env.kexdh.kexSent).bind fun sent => triple_check_bind (fun _ _ _ => trivial) fun _ _ => ?_
  refine (hget.triple fun _ _ _ => trivial).pre fun t ht => ?_
  rw [ht.view_eq]
  exact ⟨hearly.kex.crypto, hearly.keys, hearly.flagrekeying, hearly.sessionid,
    ⟨⟨line, hline, hreceive⟩, hsend⟩, rfl⟩

/-- **A session that gets to its first exchange** has the lines of both sides and has sent its
KEXINIT. -/
theorem triple_beginSession {c : Sshcrypto} (hc : c.Bounded) (env : TinysshdEnv)
    (random : ℕ → Bool) (arrivals : List Arrival) :
    Triple (fun s => s = tinysshdStart c random arrivals) (beginSession env)
      (fun _ s => s.exchangeView.Begun env) fun _ _ => True := by
  have hreceive (kexrecv : Option Bytes) : Keeps (fun s => s.exchangeView.Begun env)
      (onKex (packetKexReceive kexrecv)) := by
    intro s hs
    obtain ⟨hcrypto, hsent⟩ := keeps_packetKexReceive_kexinit env.kexdh.cookie kexrecv s.kex
      ⟨hs.crypto, hs.kexsend⟩
    exact ⟨hcrypto, hs.keysLength, hs.flagrekeying, hs.sessionid, hs.lines, hsent⟩
  refine (triple_awaitKexinit_begun hc env random arrivals).bind fun ok => triple_reads_any
    fun kexrecv => ((hreceive kexrecv).triple fun _ _ _ => trivial).bind fun ok => ?_
  exact (keeps_check _).triple fun _ _ _ => trivial

/-! ## 8. Every exchange of a session -/

/-- The states in which a session comes to `rekeying`, the first time and then from its main
loop. -/
def sessionExchanges (env : TinysshdEnv) (s : Tinysshd) : List (Tinysshd × KexdhEnv) :=
  match exec (beginSession env) s with
  | (.ok _, t) => (t, env.kexdh) ::
    match exec (rekeying P env.kexdh >>= fun _ => authentication P env.auth) t with
    | (.ok _, u) => loopRekeys P env.turns u
    | _ => []
  | _ => []

theorem length_sshcryptoHash {g : KexGlobals} (hg : g.Bounded) (m : Bytes) :
    (g.sshcryptoHash P m).length = g.hashBytes := by
  have hle := hg.hashBytes_le
  rw [KexGlobals.sshcryptoHash, List.length_take, Vector.length_toList]
  omega

/-- The first exchange hash becomes the session id. -/
theorem ExchangeView.Begun.sessionid_hashed {env : TinysshdEnv} {w : ExchangeView}
    (h : w.Begun env) (m : Bytes) :
    (w.hashed (w.crypto.kex.sshcryptoHash P m)).sessionid.take w.crypto.kex.hashBytes =
      w.crypto.kex.sshcryptoHash P m := by
  have hlen := length_sshcryptoHash P h.crypto.kex m
  rw [ExchangeView.hashed, h.flagrekeying]
  generalize w.crypto.kex.sshcryptoHash P m = hash at hlen ⊢
  rw [← hlen]
  simp only [Bool.false_eq_true, if_false, overwrite, List.take_zero, List.nil_append]
  exact List.take_left

/-- `triple_rekeying_keys` of one run. -/
theorem exec_rekeying_keys {s t : Tinysshd} {env : KexdhEnv} (hlen : s.keys.length = 6)
    (h : exec (rekeying P env) s = (.ok (), t)) :
    ∃ x, (s.exchangeView.answered s.b1.data env.cookie).Makes s.arrivals env x ∧
      t.exchangeView = (s.exchangeView.answered s.b1.data env.cookie).hashed
        (s.kex.crypto.kex.sshcryptoHash P x.encode) ∧
      t.keys = s.kex.crypto.kex.keys P x.k (s.kex.crypto.kex.sshcryptoHash P x.encode)
        ((s.exchangeView.hashed (s.kex.crypto.kex.sshcryptoHash P x.encode)).sessionid.take
          s.kex.crypto.kex.hashBytes) := by
  have hrun := (triple_rekeying_keys P s.exchangeView hlen s.arrivals s.b1.data env).run s
    ⟨⟨rfl, fun _ h => h⟩, rfl⟩
  rw [h] at hrun
  exact hrun

/-- The first exchange. -/
theorem exec_rekeying_first {s t : Tinysshd} {env : TinysshdEnv} (hs : s.exchangeView.Begun env)
    (h : exec (rekeying P env.kexdh) s = (.ok (), t)) :
    let w := s.exchangeView.answered s.b1.data env.kexdh.cookie
    let g := s.kex.crypto.kex
    ∃ x, w.Makes s.arrivals env.kexdh x ∧ x.vC = s.helloreceive.data ∧ x.vS = s.hellosend.data ∧
      x.iS = s.kex.crypto.kexinit env.kexdh.cookie ∧
      t.sessionid.take g.hashBytes = g.sshcryptoHash P x.encode ∧
      t.keys = g.keys P x.k (g.sshcryptoHash P x.encode) (t.sessionid.take g.hashBytes) := by
  intro w g
  have hanswered : s.exchangeView.answered s.b1.data env.kexdh.cookie = s.exchangeView :=
    if_neg (by rw [hs.flagrekeying]; decide)
  have hw : w = s.exchangeView := hanswered
  obtain ⟨x, hmakes, hview, hkeys⟩ := exec_rekeying_keys P hs.keysLength h
  have hid : t.sessionid = (s.exchangeView.hashed (g.sshcryptoHash P x.encode)).sessionid := by
    rw [hanswered] at hview
    exact congrArg ExchangeView.sessionid hview
  have hmakes : w.Makes s.arrivals env.kexdh x := hmakes
  refine ⟨x, hmakes, ?_, ?_, ?_, ?_, ?_⟩
  · rw [hmakes.vC, hw]
    rfl
  · rw [hmakes.vS, hw]
    rfl
  · rw [hmakes.iS, hw]
    exact hs.kexsend
  · rw [hid]
    exact hs.sessionid_hashed P x.encode
  · rw [hid]
    exact hkeys

/-- A later exchange. -/
theorem exec_rekeying_later {s t : Tinysshd} {env : KexdhEnv} (hs : s.exchangeView.settled.Ready)
    (h : exec (rekeying P env) s = (.ok (), t)) :
    let w := s.exchangeView.answered s.b1.data env.cookie
    let g := s.kex.crypto.kex
    ∃ x, w.Makes s.arrivals env x ∧ x.vC = s.helloreceive.data ∧ x.vS = s.hellosend.data ∧
      x.iS = s.kex.crypto.kexinit env.cookie ∧
      t.keys = g.keys P x.k (g.sshcryptoHash P x.encode) (s.sessionid.take g.hashBytes) := by
  intro w g
  have hagain : s.exchangeView.flagrekeying = true := hs.flagrekeying
  have hw : w = { s.exchangeView with
      kexrecv := s.b1.data, kexsend := s.kex.crypto.kexinit env.cookie } := if_pos hagain
  obtain ⟨x, hmakes, -, hkeys⟩ := exec_rekeying_keys P hs.keysLength h
  have hmakes : w.Makes s.arrivals env x := hmakes
  refine ⟨x, hmakes, ?_, ?_, ?_, ?_⟩
  · rw [hmakes.vC, hw]
    rfl
  · rw [hmakes.vS, hw]
    rfl
  · rw [hmakes.iS, hw]
  · rw [ExchangeView.hashed, hagain] at hkeys
    exact hkeys

/-- What the first exchange leaves for the main loop. -/
theorem settled_of_first {s t : Tinysshd} {env : TinysshdEnv} (hs : s.exchangeView.Begun env)
    (h : exec (rekeying P env.kexdh) s = (.ok (), t)) :
    t.exchangeView.settled.Ready ∧ t.kex.crypto = s.kex.crypto ∧
      t.helloreceive.data = s.helloreceive.data ∧ t.hellosend.data = s.hellosend.data := by
  obtain ⟨x, -, ht, -⟩ := exec_rekeying_keys P hs.keysLength h
  have hfirst : s.exchangeView.flagrekeying = false := hs.flagrekeying
  rw [ExchangeView.answered, if_neg (by rw [hfirst]; decide)] at ht
  have hcrypto : t.kex.crypto = s.kex.crypto := congrArg ExchangeView.crypto ht
  refine ⟨⟨?_, ?_⟩, hcrypto, congrArg ExchangeView.helloreceive ht,
    congrArg ExchangeView.hellosend ht⟩
  · rw [ht]
    exact hs.keysLength
  · rw [ht]
    rfl

/-- **The keys of every exchange are those of RFC 4253.**  In every session, after any number of
others: whatever exchange gets through, the first or a later one, hashes the two hello lines, the
two KEXINITs of this exchange, the host key, the public value of a KEXDH_INIT that the client sent,
and a result of `sshcrypto_enc`; its six keys are derived from that hash with the hash of the first
exchange as the session id. -/
theorem session_keys (earlier : List TinysshdRun) (r : TinysshdRun) :
    let s := tinysshdStart (sshcryptoAfter P earlier) r.random r.arrivals
    let exchanges := sessionExchanges P r.env s
    ∃ sid vC vS, (exchanges ≠ [] → r.env.Lines vC vS) ∧
      ∀ e ∈ exchanges, ∀ t, exec (rekeying P e.2) e.1 = (.ok (), t) →
        let w := e.1.exchangeView.answered e.1.b1.data e.2.cookie
        let g := e.1.kex.crypto.kex
        ∃ x, w.Makes e.1.arrivals e.2 x ∧ x.vC = vC ∧ x.vS = vS ∧
          x.iS = e.1.kex.crypto.kexinit e.2.cookie ∧
          (exchanges.head? = some e → sid = g.sshcryptoHash P x.encode) ∧
          t.keys = g.keys P x.k (g.sshcryptoHash P x.encode) sid := by
  intro s exchanges
  have hbegun := (triple_beginSession (sshcryptoAfter_bounded P earlier) r.env r.random
    r.arrivals).run s rfl
  have hexchanges : exchanges = sessionExchanges P r.env s := rfl
  clear_value exchanges
  rw [sessionExchanges] at hexchanges
  rcases hbegin : exec (beginSession r.env) s with ⟨a, t⟩
  rw [hbegin] at hbegun hexchanges
  cases a with
  | error e =>
    exact ⟨[], [], [], fun h => absurd hexchanges h, fun e he => by rw [hexchanges] at he; cases he⟩
  | ok a =>
    have hbegun : t.exchangeView.Begun r.env := hbegun
    let sid := (exec (rekeying P r.env.kexdh) t).2.sessionid.take t.kex.crypto.kex.hashBytes
    refine ⟨sid, t.helloreceive.data, t.hellosend.data, fun _ => hbegun.lines, fun e he u hu => ?_⟩
    rw [hexchanges] at he ⊢
    by_cases hfirst : e = (t, r.env.kexdh)
    · subst hfirst
      obtain ⟨x, hmakes, hC, hS, hiS, hid, hkeys⟩ := exec_rekeying_first P hbegun hu
      have hsid : sid = u.sessionid.take t.kex.crypto.kex.hashBytes := by
        simp only [sid, hu]
      exact ⟨x, hmakes, hC, hS, hiS, fun _ => hsid.trans hid, by rw [hsid]; exact hkeys⟩
    · have hlater := (List.mem_cons.mp he).resolve_left hfirst
      rcases hrest : exec (rekeying P r.env.kexdh >>= fun _ => authentication P r.env.auth) t with
        ⟨b, v⟩
      rw [hrest] at hlater
      cases b with
      | error e' => cases hlater
      | ok b =>
        -- The first exchange went through, and authentication left its view as it was.
        rw [exec_bind] at hrest
        rcases hrun : exec (rekeying P r.env.kexdh) t with ⟨c, t'⟩
        rw [hrun] at hrest
        cases c with
        | error e' => cases hrest
        | ok c =>
          obtain ⟨hready, hcrypto, hC, hS⟩ := settled_of_first P hbegun hrun
          have hauth : v.exchangeView = t'.exchangeView :=
            (ExchangeView.frame_authentication P r.env.auth).eq_of_exec hrest
          have hsettled := loopRekeys_settled P r.env.turns v (by rw [hauth]; exact hready) e hlater
          rw [hauth] at hsettled
          obtain ⟨x, hmakes, hxC, hxS, hiS, hkeys⟩ := exec_rekeying_later P
            (by rw [hsettled]; exact hready) hu
          have hsid : sid = t'.sessionid.take t.kex.crypto.kex.hashBytes := by
            simp only [sid, hrun]
          have hid : e.1.sessionid = t'.sessionid := congrArg ExchangeView.sessionid hsettled
          have hkex : e.1.kex.crypto = t.kex.crypto :=
            (congrArg ExchangeView.crypto hsettled).trans hcrypto
          refine ⟨x, hmakes, hxC.trans ((congrArg ExchangeView.helloreceive hsettled).trans hC),
            hxS.trans ((congrArg ExchangeView.hellosend hsettled).trans hS), hiS, fun h => ?_, ?_⟩
          · exact absurd (Option.some.inj h).symm hfirst
          · rw [hkeys, hid, hsid, hkex]

end

end Glossh.Ssh
