/-
# Sessions one after the other

What a session of `main_tinysshd` does with the algorithm tables: `global_init` checks them, the
start of `main_tinysshd` enables their rows and reads the public keys, `packet_kex_send` offers
the enabled names, `packet_kex_receive` selects from the client's.  Nothing after that writes a
table or a selection until `global_die` calls `global_purge`, wherever the session ends.  Only
then does the next session start, in the same address space.

The first session starts from the tables as they are linked.  Every later one starts from purged
tables, and from then on the algorithm state never changes again.
-/
import Glossh.Lib.Region
import Glossh.Ssh.Messages
import Glossh.Ssh.Sshcrypto

namespace Glossh.Ssh

open Bytes AlgRow Prog

/-! ## 1. The algorithm state -/

/-- The globals of the selected key exchange. -/
structure KexGlobals where
  name : Option Bytes
  enc : Option Fn
  kemPublickeybytes : ℕ
  kemCiphertextbytes : ℕ
  kemBytes : ℕ
  hash : Option Fn
  hashBytes : ℕ
  bufPutkemkey : Option Fn
deriving DecidableEq

/-- The globals of the selected host key; `signPublickey` points into a row of the table. -/
structure KeyGlobals where
  name : Option Bytes
  sign : Option Fn
  signPublickey : Option ℕ
  signPublickeybytes : ℕ
  signSecretkeybytes : ℕ
  signBytes : ℕ
  signSecretkeyfilename : Option Bytes
  bufPutsignature : Option Fn
  bufPutsignpk : Option Fn
deriving DecidableEq

/-- The globals of the selected cipher. -/
structure CipherGlobals where
  name : Option Bytes
  streamXor : Option Fn
  auth : Option Fn
  streamKeybytes : ℕ
  cipherBlockbytes : ℕ
  authBytes : ℕ
  packetGet : Option Fn
  packetPut : Option Fn
deriving DecidableEq

def KexGlobals.ofRow (row : SshcryptoKex) : KexGlobals where
  name := row.name
  enc := row.enc
  kemPublickeybytes := row.kemPublickeybytes
  kemCiphertextbytes := row.kemCiphertextbytes
  kemBytes := row.kemBytes
  hash := row.hash
  hashBytes := row.hashBytes
  bufPutkemkey := row.bufPutkemkey

def KeyGlobals.ofRow (i : ℕ) (row : SshcryptoKey) : KeyGlobals where
  name := row.name
  sign := row.sign
  signPublickey := some i
  signPublickeybytes := row.signPublickeybytes
  signSecretkeybytes := row.signSecretkeybytes
  signBytes := row.signBytes
  signSecretkeyfilename := row.signSecretkeyfilename
  bufPutsignature := row.bufPutsignature
  bufPutsignpk := row.bufPutsignpk

def CipherGlobals.ofRow (row : SshcryptoCipher) : CipherGlobals where
  name := row.name
  streamXor := row.streamXor
  auth := row.auth
  streamKeybytes := row.streamKeybytes
  cipherBlockbytes := row.cipherBlockbytes
  authBytes := row.authBytes
  packetGet := row.packetGet
  packetPut := row.packetPut

/-- Tables and selections: globals, none of them `__thread`. -/
structure Sshcrypto where
  kexs : List SshcryptoKex
  keys : List SshcryptoKey
  ciphers : List SshcryptoCipher
  kex : KexGlobals
  key : KeyGlobals
  cipher : CipherGlobals
deriving DecidableEq

/-- As linked. -/
def bootSshcrypto : Sshcrypto where
  kexs := sshcryptoKexs
  keys := sshcryptoKeys
  ciphers := sshcryptoCiphers
  kex := ⟨none, none, 0, 0, 0, none, 0, none⟩
  key := ⟨none, none, none, 0, 0, 0, none, none, none⟩
  cipher := ⟨none, none, none, 0, 0, 0, none, none⟩

/-- `sshcrypto_init`: the sizes of the named rows against the arrays that hold them. -/
def sshcryptoInit (c : Sshcrypto) : Except Exit Unit :=
  if (c.kexs.takeWhile fun r => r.name.isSome).any fun r =>
      r.kemPublickeybytes > 1190 || r.kemCiphertextbytes > 1071 || r.kemBytes > 64 ||
        r.hashBytes > 64 then bugInval
  else if (c.keys.takeWhile fun r => r.name.isSome).any fun r =>
      r.signPublickeybytes > 32 || r.signSecretkeybytes > 64 || r.signBytes > 64 ||
        (r.name.getD []).length + 1 > 12 then bugInval
  else if (c.ciphers.takeWhile fun r => r.name.isSome).any fun r => r.streamKeybytes > 128 then
    bugInval
  else .ok ()

/-- `sshcrypto_purge`, the part of `global_purge` that concerns this state. -/
def sshcryptoPurge (c : Sshcrypto) : Sshcrypto :=
  { c with
    kexs := purgeRows c.kexs
    keys := purgeRows c.keys
    ciphers := purgeRows c.ciphers }

/-! ## 2. The start of a session -/

/-- The algorithm state, and what a key exchange keeps in `struct tinyssh_packet`. -/
structure KexState where
  crypto : Sshcrypto
  kexsend : Buf
  kexGuess : UInt8
  kexPacketFollows : UInt8

/-- `cryptotypeselected`. -/
def cryptotypeselected : UInt32 := sshcrypto_TYPENEWCRYPTO ||| sshcrypto_TYPEPQCRYPTO

/-- The four loops that enable the rows of the selected types. -/
def enableAlgorithms (c : Sshcrypto) : Sshcrypto :=
  { c with
    keys := forRows (fun r => { r with
        signFlagclient := r.signFlagclient ||| (r.cryptotype &&& cryptotypeselected) })
      (forRows (fun r => { r with
        signFlagserver := r.signFlagserver ||| (r.cryptotype &&& cryptotypeselected) }) c.keys)
    kexs := forRows (fun r => { r with
        flagenabled := r.flagenabled ||| (r.cryptotype &&& cryptotypeselected) }) c.kexs
    ciphers := forRows (fun r => { r with
        flagenabled := r.flagenabled ||| (r.cryptotype &&& cryptotypeselected) }) c.ciphers }

/-- What `load` of a public key comes to. -/
inductive LoadAnswer where
  | loaded (pk : Bytes)
  /-- -1 with ENOENT. -/
  | absent
  /-- -1 with another `errno`. -/
  | failed

/-- The loop that reads the public keys, from row `i` on: how it ends, and the table. -/
def readPublicKeys (loads : ℕ → LoadAnswer) :
    ℕ → List SshcryptoKey → Except Exit Unit × List SshcryptoKey
  | _, [] => (.ok (), [])
  | i, r :: t =>
    match r.name with
    | none => (.ok (), r :: t)
    | some _ =>
      if r.signFlagserver = 0 then
        ((readPublicKeys loads (i + 1) t).1, r :: (readPublicKeys loads (i + 1) t).2)
      else
        match loads i with
        | .loaded pk =>
          ((readPublicKeys loads (i + 1) t).1,
            { r with signPublickey := pk } :: (readPublicKeys loads (i + 1) t).2)
        | .absent =>
          ((readPublicKeys loads (i + 1) t).1,
            { r with signFlagserver := 0 } :: (readPublicKeys loads (i + 1) t).2)
        | .failed =>
          (.error (.dieFatal "unable to read public key from file"),
            { r with signFlagserver := 0 } :: t)

/-! ## 3. KEXINIT -/

/-- The packet that `packet_kex_send` puts together in `kexsend`. -/
def kexinitPacket (c : Sshcrypto) (cookie : Vector UInt8 16) (b : Buf) : Except Exit Buf := do
  let b ← b.purge
  let b ← b.putNum8 SSH_MSG_KEXINIT
  let b ← b.put cookie.toList
  let b ← putNames c.kexs b
  let b ← putNames c.keys b
  let b ← putNames c.ciphers b
  let b ← putNames c.ciphers b
  let b ← b.putStringLen (ascii "hmac-sha2-256")
  let b ← b.putStringLen (ascii "hmac-sha2-256")
  let b ← b.putStringLen (ascii "none")
  let b ← b.putStringLen (ascii "none")
  let b ← b.putStringLen []
  let b ← b.putStringLen []
  let b ← b.putNum8 0
  b.putNum32 0

/-- `packet_kex_send`; `sent` is what `packet_sendall` returns. -/
def packetKexSend (cookie : Vector UInt8 16) (sent : Bool) : Prog KexState Exit Bool := do
  let r ← reads fun s => kexinitPacket s.crypto cookie s.kexsend
  let b ← check r
  modify fun s => { s with kexsend := b }
  return sent

/-- `if (buf[len] != 0) bug_proto();` -/
def checkTerminated (next : UInt8) : Except Exit Unit := if next ≠ 0 then bugProto else .ok ()

/-- `sshcrypto_kex_select` on the list `buf`, behind which stands the byte `next`. -/
def sshcryptoKexSelect (buf : Bytes) (next : UInt8) : Prog KexState Exit Bool := do
  let selected ← reads fun s => s.crypto.kex.name.isSome
  if selected then return true
  else do
    check (checkTerminated next)
    let r ← reads fun s => selectLoop s.crypto.kexs 1 (stringparserItems buf)
    modify fun s => { s with kexGuess := r.1 }
    match r.2 with
    | none => return false
    | some (_, row) => do
      modify fun s => { s with crypto := { s.crypto with kex := .ofRow row } }
      return true

/-- `sshcrypto_key_select`. -/
def sshcryptoKeySelect (buf : Bytes) (next : UInt8) : Prog KexState Exit Bool := do
  let selected ← reads fun s => s.crypto.key.name.isSome
  if selected then return true
  else do
    check (checkTerminated next)
    let r ← reads fun s => selectLoop s.crypto.keys 1 (stringparserItems buf)
    match r.2 with
    | none => return false
    | some (i, row) => do
      modify fun s => { s with crypto := { s.crypto with key := .ofRow i row } }
      return true

/-- `sshcrypto_cipher_select`. -/
def sshcryptoCipherSelect (buf : Bytes) (next : UInt8) : Prog KexState Exit Bool := do
  let selected ← reads fun s => s.crypto.cipher.name.isSome
  if selected then return true
  else do
    check (checkTerminated next)
    let r ← reads fun s => selectLoop s.crypto.ciphers 1 (stringparserItems buf)
    match r.2 with
    | none => return false
    | some (_, row) => do
      modify fun s => { s with crypto := { s.crypto with cipher := .ofRow row } }
      return true

/-- `sshcrypto_cipher_macselect`. -/
def sshcryptoCipherMacselect (_buf : Bytes) (next : UInt8) : Prog KexState Exit Bool := do
  check (checkTerminated next)
  return true

/-- A name list of the packet handed to a selection: what it returns, and the position behind the
list. -/
def selectNames (b : Bytes) (pos : ℕ) (select : Bytes → UInt8 → Prog KexState Exit Bool) :
    Prog KexState Exit (Bool × ℕ) := do
  let r ← check (packetparserString b pos)
  let ok ← select (slice b (r.2 - r.1) r.1) (b.getD r.2 0)
  return (ok, r.2)

/-- The lists of the packet that are only stepped over, and its end. -/
def kexReceiveTail (b : Bytes) (pos : ℕ) : Except Exit UInt8 := do
  let (_, pos) ← packetparserString b pos
  let (_, pos) ← packetparserString b pos
  let (_, pos) ← packetparserString b pos
  let (_, pos) ← packetparserString b pos
  let (_, pos) ← packetparserString b pos
  let (ch, pos) ← packetparserUint8 b pos
  let (_, pos) ← packetparserUint32 b pos
  let _ ← packetparserEnd b pos
  return ch

/-- `packet_kex_receive` on the packet that `packet_getall` delivered, if it did. -/
def packetKexReceive (kexrecv : Option Bytes) : Prog KexState Exit Bool :=
  match kexrecv with
  | none => return false
  | some b => do
    let r ← check (packetparserUint8 b 0)
    if r.1 ≠ SSH_MSG_KEXINIT then throw (.bug .EPROTO)
    else do
      let pos ← check (packetparserSkip b r.2 16)
      let r ← selectNames b pos sshcryptoKexSelect
      if r.1 = false then return false
      else do
        let r ← selectNames b r.2 sshcryptoKeySelect
        if r.1 = false then return false
        else do
          let r ← selectNames b r.2 sshcryptoCipherSelect
          if r.1 = false then return false
          else do
            let skipped ← check (packetparserString b r.2)
            let r ← selectNames b skipped.2 sshcryptoCipherMacselect
            if r.1 = false then return false
            else do
              let ch ← check (kexReceiveTail b r.2)
              modify fun s => { s with kexPacketFollows := ch }
              return true

/-! ## 4. Sessions -/

/-- What the environment brings to a session: the answers of `load`, whether the hello strings
and KEXINIT could be exchanged, the random cookie, and the client's KEXINIT if one arrives. -/
structure SessionEnv where
  loads : ℕ → LoadAnswer
  helloSent : Bool
  helloReceived : Bool
  cookie : Vector UInt8 16
  kexSent : Bool
  clientKexinit : Option Bytes

/-- `global_init`, the loops that enable the algorithms, and the public keys. -/
def startAlgorithms (env : SessionEnv) : Prog KexState Exit Unit := do
  let r ← reads fun s => sshcryptoInit s.crypto
  check r
  modify fun s => { s with crypto := enableAlgorithms s.crypto }
  let r ← reads fun s => readPublicKeys env.loads 0 s.crypto.keys
  modify fun s => { s with crypto := { s.crypto with keys := r.2 } }
  check r.1

/-- "send and receive hello", "send and receive kex". -/
def exchangeKexinit (env : SessionEnv) : Prog KexState Exit Unit :=
  if env.helloSent = false then throw (.dieFatal "unable to send hello-string")
  else if env.helloReceived = false then throw (.dieFatal "unable to receive hello-string")
  else do
    let ok ← packetKexSend env.cookie env.kexSent
    if ok = false then throw (.dieFatal "unable to send kex-message")
    else do
      let ok ← packetKexReceive env.clientKexinit
      if ok = false then throw (.dieFatal "unable to receive kex-message") else return ()

/-- `main_tinysshd` up to the end of `packet_kex_receive`.  The rest of the session reads the
algorithm state only. -/
def mainTinysshd (env : SessionEnv) : Prog KexState Exit Unit := do
  startAlgorithms env
  exchangeKexinit env

/-- A session's state before it starts: `struct tinyssh_packet` is its own. -/
def sessionStart (c : Sshcrypto) : KexState where
  crypto := c
  kexsend := ⟨[], 1024⟩
  kexGuess := 0
  kexPacketFollows := 0

/-- How a session that starts from `c` gets through its key exchange messages. -/
def session (env : SessionEnv) (c : Sshcrypto) : Except Exit Unit × KexState :=
  exec (mainTinysshd env) (sessionStart c)

/-- The algorithm state a session leaves behind: whatever ended it went through `global_die`. -/
def endSession (c : Sshcrypto) (env : SessionEnv) : Sshcrypto :=
  sshcryptoPurge (session env c).2.crypto

/-- The algorithm state that the session after `earlier` starts from. -/
def afterSessions (earlier : List SessionEnv) : Sshcrypto :=
  earlier.foldl endSession bootSshcrypto

/-! ## 5. What a session keeps of the algorithm state -/

/-- Each table as any number of sessions leaves it. -/
structure TablesWhole (c : Sshcrypto) : Prop where
  kexs : Whole c.kexs
  keys : Whole c.keys
  ciphers : Whole c.ciphers

structure TablesPurged (c : Sshcrypto) : Prop where
  kexs : Purged c.kexs
  keys : Purged c.keys
  ciphers : Purged c.ciphers

theorem sshcryptoPurge_purged {c : Sshcrypto} (h : TablesWhole c) :
    TablesPurged (sshcryptoPurge c) :=
  ⟨purgeRows_purged h.kexs, purgeRows_purged h.keys, purgeRows_purged h.ciphers⟩

/-- A purge of purged tables changes nothing. -/
theorem sshcryptoPurge_of_purged {c : Sshcrypto} (h : TablesPurged c) : sshcryptoPurge c = c := by
  rw [sshcryptoPurge, purgeRows, purgeRows, purgeRows, forRows_of_purged _ h.kexs,
    forRows_of_purged _ h.keys, forRows_of_purged _ h.ciphers]

theorem TablesWhole.enableAlgorithms {c : Sshcrypto} (h : TablesWhole c) :
    TablesWhole (enableAlgorithms c) := by
  constructor
  · exact Whole.forRows (by intro r; rfl) h.kexs
  · exact Whole.forRows (by intro r; rfl) (Whole.forRows (by intro r; rfl) h.keys)
  · exact Whole.forRows (by intro r; rfl) h.ciphers

theorem enableAlgorithms_of_purged {c : Sshcrypto} (h : TablesPurged c) :
    enableAlgorithms c = c := by
  rw [enableAlgorithms, forRows_of_purged _ h.kexs, forRows_of_purged _ h.ciphers,
    forRows_of_purged _ h.keys, forRows_of_purged _ h.keys]

theorem readPublicKeys_of_purged (loads : ℕ → LoadAnswer) (i : ℕ) {t : List SshcryptoKey}
    (h : Purged t) : readPublicKeys loads i t = (.ok (), t) := by
  cases t with
  | nil => rfl
  | cons r t =>
    have hname : r.name = none := by rw [h r (List.mem_cons_self ..)]; rfl
    rw [readPublicKeys, hname]

/-- Reading the public keys leaves the names alone. -/
theorem readPublicKeys_named (loads : ℕ → LoadAnswer) (i : ℕ) {t : List SshcryptoKey}
    (h : Named t) : Named (readPublicKeys loads i t).2 := by
  induction t generalizing i with
  | nil => exact h
  | cons r t ih =>
    have htail : Named t := fun r' hr' => h r' (List.mem_cons_of_mem r hr')
    obtain ⟨n, hn⟩ := h r (List.mem_cons_self ..)
    have hcons : ∀ (r' : SshcryptoKey) (t' : List SshcryptoKey), r'.name = some n → Named t' →
        Named (r' :: t') := by
      intro r' t' hr' ht' x hx
      rcases List.mem_cons.mp hx with rfl | hmem
      · exact ⟨n, hr'⟩
      · exact ht' x hmem
    have hname : r.name = some n := hn
    rw [readPublicKeys, hname]
    by_cases hflag : r.signFlagserver = 0
    · rw [if_pos hflag]
      exact hcons _ _ hname (ih (i + 1) htail)
    · rw [if_neg hflag]
      cases loads i with
      | loaded pk => exact hcons _ _ rfl (ih (i + 1) htail)
      | absent => exact hcons _ _ rfl (ih (i + 1) htail)
      | failed => exact hcons _ _ rfl htail

theorem readPublicKeys_whole (loads : ℕ → LoadAnswer) (i : ℕ) {t : List SshcryptoKey}
    (h : Whole t) : Whole (readPublicKeys loads i t).2 := by
  rcases h with hn | hp
  · exact .inl (readPublicKeys_named loads i hn)
  · rw [readPublicKeys_of_purged loads i hp]
    exact .inr hp

/-! ## 6. What `packet_kex_receive` keeps -/

section

variable {P : KexState → Prop}

theorem keeps_selectNames {select : Bytes → UInt8 → Prog KexState Exit Bool}
    (hselect : ∀ buf next, Keeps P (select buf next)) (b : Bytes) (pos : ℕ) :
    Keeps P (selectNames b pos select) :=
  (keeps_check _).bind fun _ => (hselect _ _).bind fun _ => keeps_pure _

/-- The packet's own fields aside, `packet_kex_receive` writes what the selections write. -/
theorem keeps_packetKexReceive (hkex : ∀ buf next, Keeps P (sshcryptoKexSelect buf next))
    (hkey : ∀ buf next, Keeps P (sshcryptoKeySelect buf next))
    (hcipher : ∀ buf next, Keeps P (sshcryptoCipherSelect buf next))
    (hfollows : ∀ s ch, P s → P { s with kexPacketFollows := ch }) (kexrecv : Option Bytes) :
    Keeps P (packetKexReceive kexrecv) := by
  cases kexrecv with
  | none => exact keeps_pure false
  | some b =>
    have hmac : ∀ buf next, Keeps P (sshcryptoCipherMacselect buf next) :=
      fun _ _ => (keeps_check _).bind fun _ => keeps_pure _
    refine (keeps_check _).bind fun _ => (keeps_throw _).ite ?_
    refine (keeps_check _).bind fun _ => (keeps_selectNames hkex _ _).bind fun _ => ?_
    refine (keeps_pure _).ite ((keeps_selectNames hkey _ _).bind fun _ => ?_)
    refine (keeps_pure _).ite ((keeps_selectNames hcipher _ _).bind fun _ => ?_)
    refine (keeps_pure _).ite ((keeps_check _).bind fun _ => ?_)
    refine (keeps_selectNames hmac _ _).bind fun _ => (keeps_pure _).ite ?_
    exact (keeps_check _).bind fun ch =>
      (keeps_modify fun s hs => hfollows s ch hs).bind fun _ => keeps_pure _

end

section

variable {P : KexState → Prop}

/-- A selection writes the guess flag, and the globals of a row it found. -/
theorem keeps_sshcryptoKexSelect (hguess : ∀ s g, P s → P { s with kexGuess := g })
    (hrow : ∀ s l i row, P s → (selectLoop s.crypto.kexs 1 l).2 = some (i, row) →
      P { s with crypto := { s.crypto with kex := .ofRow row } }) (buf : Bytes) (next : UInt8) :
    Keeps P (sshcryptoKexSelect buf next) := by
  refine (keeps_reads _).bind fun selected => (keeps_pure _).ite ?_
  refine (keeps_check _).bind fun _ => keeps_reads_bind fun s hs => ?_
  rw [exec_modify_bind]
  have hs' := hguess s (selectLoop s.crypto.kexs 1 (stringparserItems buf)).1 hs
  split
  · exact hs'
  · rename_i i row hfound
    rw [exec_modify_bind]
    exact hrow _ _ i row hs' hfound

theorem keeps_sshcryptoKeySelect
    (hrow : ∀ s l i row, P s → (selectLoop s.crypto.keys 1 l).2 = some (i, row) →
      P { s with crypto := { s.crypto with key := .ofRow i row } }) (buf : Bytes) (next : UInt8) :
    Keeps P (sshcryptoKeySelect buf next) := by
  refine (keeps_reads _).bind fun selected => (keeps_pure _).ite ?_
  refine (keeps_check _).bind fun _ => keeps_reads_bind fun s hs => ?_
  split
  · exact hs
  · rename_i i row hfound
    rw [exec_modify_bind]
    exact hrow s _ i row hs hfound

theorem keeps_sshcryptoCipherSelect
    (hrow : ∀ s l i row, P s → (selectLoop s.crypto.ciphers 1 l).2 = some (i, row) →
      P { s with crypto := { s.crypto with cipher := .ofRow row } }) (buf : Bytes)
    (next : UInt8) : Keeps P (sshcryptoCipherSelect buf next) := by
  refine (keeps_reads _).bind fun selected => (keeps_pure _).ite ?_
  refine (keeps_check _).bind fun _ => keeps_reads_bind fun s hs => ?_
  split
  · exact hs
  · rename_i i row hfound
    rw [exec_modify_bind]
    exact hrow s _ i row hs hfound

/-- What the steps of a session before KEXINIT keep, the whole session keeps. -/
theorem keeps_mainTinysshd (env : SessionEnv)
    (henable : ∀ s, P s → P { s with crypto := enableAlgorithms s.crypto })
    (hread : ∀ s, P s → P { s with crypto :=
      { s.crypto with keys := (readPublicKeys env.loads 0 s.crypto.keys).2 } })
    (hsend : ∀ s b, P s → P { s with kexsend := b })
    (hreceive : Keeps P (packetKexReceive env.clientKexinit)) : Keeps P (mainTinysshd env) := by
  have hkexSend : Keeps P (packetKexSend env.cookie env.kexSent) :=
    (keeps_reads _).bind fun _ => (keeps_check _).bind fun b =>
      (keeps_modify fun s hs => hsend s b hs).bind fun _ => keeps_pure _
  have hstart : Keeps P (startAlgorithms env) := by
    refine (keeps_reads _).bind fun _ => (keeps_check _).bind fun _ => ?_
    refine (keeps_modify henable).bind fun _ => keeps_reads_bind fun s hs => ?_
    rw [exec_modify_bind]
    exact hread s hs
  refine hstart.bind fun _ => (keeps_throw _).ite ((keeps_throw _).ite ?_)
  refine hkexSend.bind fun _ => (keeps_throw _).ite ?_
  exact hreceive.bind fun _ => (keeps_throw _).ite (keeps_pure _)

end

/-- Whole tables stay whole through a session. -/
theorem keeps_whole (env : SessionEnv) :
    Keeps (fun s => TablesWhole s.crypto) (mainTinysshd env) := by
  refine keeps_mainTinysshd env (fun _ h => h.enableAlgorithms) ?_ (fun _ _ h => h) ?_
  · intro s h
    exact ⟨h.kexs, readPublicKeys_whole env.loads 0 h.keys, h.ciphers⟩
  · refine keeps_packetKexReceive (keeps_sshcryptoKexSelect (fun _ _ h => h) ?_)
      (keeps_sshcryptoKeySelect ?_) (keeps_sshcryptoCipherSelect ?_) (fun _ _ h => h) _
    · exact fun _ _ _ _ h _ => ⟨h.kexs, h.keys, h.ciphers⟩
    · exact fun _ _ _ _ h _ => ⟨h.kexs, h.keys, h.ciphers⟩
    · exact fun _ _ _ _ h _ => ⟨h.kexs, h.keys, h.ciphers⟩

/-- **With purged tables a session writes neither table nor selection.** -/
theorem keeps_purged {c : Sshcrypto} (hc : TablesPurged c) (env : SessionEnv) :
    Keeps (fun s => s.crypto = c) (mainTinysshd env) := by
  refine keeps_mainTinysshd env ?_ ?_ (fun _ _ h => h) ?_
  · rintro s rfl
    exact enableAlgorithms_of_purged hc
  · rintro s rfl
    rw [readPublicKeys_of_purged env.loads 0 hc.keys]
  · refine keeps_packetKexReceive (keeps_sshcryptoKexSelect (fun _ _ h => h) ?_)
      (keeps_sshcryptoKeySelect ?_) (keeps_sshcryptoCipherSelect ?_) (fun _ _ h => h) _
    · rintro s l i row rfl hfound
      rw [selectLoop_of_purged hc.kexs] at hfound
      cases hfound
    · rintro s l i row rfl hfound
      rw [selectLoop_of_purged hc.keys] at hfound
      cases hfound
    · rintro s l i row rfl hfound
      rw [selectLoop_of_purged hc.ciphers] at hfound
      cases hfound

/-- A session that finds purged tables ends with the selections it found: those the first session
made, or none. -/
theorem session_crypto_purged {c : Sshcrypto} (hc : TablesPurged c) (env : SessionEnv) :
    (session env c).2.crypto = c :=
  keeps_purged hc env (sessionStart c) rfl

/-! ## 7. The KEXINIT a session sends -/

/-- The KEXINIT of RFC 4253 §7.1 with these name lists and nothing else on offer. -/
def kexinitBytes (cookie : Vector UInt8 16) (kexs keys ciphers : Bytes) : Bytes :=
  [SSH_MSG_KEXINIT] ++ (cookie.toList ++ (sshString kexs ++ (sshString keys ++
    (sshString ciphers ++ (sshString ciphers ++ (sshString (ascii "hmac-sha2-256") ++
    (sshString (ascii "hmac-sha2-256") ++ (sshString (ascii "none") ++ (sshString (ascii "none") ++
    (sshString [] ++ (sshString [] ++ ([0] ++ beBytes 4 0))))))))))))

/-- What `packet_kex_send` puts behind `buf_purge`. -/
theorem kexinitPacket_composes {R : (Buf → Except Exit Buf) → Bytes → Prop} (h : Buf.Composes R)
    (c : Sshcrypto) (cookie : Vector UInt8 16) : ∃ body : Buf → Except Exit Buf,
      R body (kexinitBytes cookie (nameList c.kexs) (nameList c.keys) (nameList c.ciphers)) ∧
      ∀ b, kexinitPacket c cookie b = b.purge >>= body := by
  have hciphers := putNames_composes h c.ciphers
  have hmac := h.putStringLen (ascii "hmac-sha2-256")
  have hnone := h.putStringLen (ascii "none")
  have hlanguages := h.putStringLen []
  have hend := h.bind (h.putNum8 0) (h.putNum32 0)
  have htail := h.bind hmac (h.bind hmac (h.bind hnone (h.bind hnone
    (h.bind hlanguages (h.bind hlanguages hend)))))
  have hlists := h.bind (putNames_composes h c.kexs) (h.bind (putNames_composes h c.keys)
    (h.bind hciphers (h.bind hciphers htail)))
  exact ⟨_, h.bind (h.putNum8 SSH_MSG_KEXINIT) (h.bind (h.put cookie.toList) hlists), fun _ => rfl⟩

/-- **`packet_kex_send` offers the enabled names of the tables.** -/
theorem kexinitPacket_eq (c : Sshcrypto) (cookie : Vector UInt8 16) {b : Buf} (hb : b.Ok)
    (hroom : (nameList c.kexs).length + (nameList c.keys).length +
      2 * (nameList c.ciphers).length + 200 < b.alloc) :
    kexinitPacket c cookie b = .ok
      { b with
        data := kexinitBytes cookie (nameList c.kexs) (nameList c.keys) (nameList c.ciphers) } := by
  obtain ⟨body, happends, hpacket⟩ := kexinitPacket_composes Buf.appends c cookie
  have hempty : Buf.Ok { b with data := [] } := ⟨by simp only [List.length_nil]; omega, hb.alloc_le⟩
  have hmac : (ascii "hmac-sha2-256").length = 13 := by decide
  have hnone : (ascii "none").length = 4 := by decide
  have hput := happends { b with data := [] } hempty (by
    simp only [kexinitBytes, List.length_append, length_sshString, List.length_singleton,
      List.length_nil, Vector.length_toList, length_beBytes, hmac, hnone]
    omega)
  rw [hpacket, hb.purge]
  exact hput

theorem exec_packetKexSend {s : KexState} {cookie : Vector UInt8 16} {b : Buf} (sent : Bool)
    (h : kexinitPacket s.crypto cookie s.kexsend = .ok b) :
    exec (packetKexSend cookie sent) s = (.ok sent, { s with kexsend := b }) := by
  rw [packetKexSend, exec_reads_bind, exec_check_bind h, exec_modify_bind, exec_pure]

theorem exec_packetKexSend_error {s : KexState} {cookie : Vector UInt8 16} {e : Exit} (sent : Bool)
    (h : kexinitPacket s.crypto cookie s.kexsend = .error e) :
    exec (packetKexSend cookie sent) s = (.error e, s) := by
  rw [packetKexSend, exec_reads_bind, h]
  rfl

/-- What a session has in front of it when it reaches KEXINIT. -/
structure SessionEnv.Reaches (env : SessionEnv) : Prop where
  hello_sent : env.helloSent = true
  hello_received : env.helloReceived = true
  loaded : ∀ i, ∃ pk, env.loads i = .loaded pk

/-- The tables of a session once its public keys are read. -/
def startedSshcrypto (c : Sshcrypto) (env : SessionEnv) : Sshcrypto :=
  { enableAlgorithms c with keys := (readPublicKeys env.loads 0 (enableAlgorithms c).keys).2 }

/-- The state in which the hello strings are exchanged. -/
def startedState (c : Sshcrypto) (env : SessionEnv) : KexState :=
  { sessionStart c with crypto := startedSshcrypto c env }

theorem exec_startAlgorithms {c : Sshcrypto} {env : SessionEnv} (hinit : sshcryptoInit c = .ok ())
    (hread : (readPublicKeys env.loads 0 (enableAlgorithms c).keys).1 = .ok ()) :
    exec (startAlgorithms env) (sessionStart c) = (.ok (), startedState c env) := by
  have hinit' : sshcryptoInit (sessionStart c).crypto = .ok () := hinit
  rw [startAlgorithms, exec_reads_bind, exec_check_bind hinit', exec_modify_bind, exec_reads_bind,
    exec_modify_bind, exec_check]
  exact congrArg (·, startedState c env) hread

/-- A session that reaches KEXINIT sends the enabled names of the tables it has by then. -/
theorem session_kexsend {c : Sshcrypto} {env : SessionEnv} (h : env.Reaches)
    (hinit : sshcryptoInit c = .ok ())
    (hread : (readPublicKeys env.loads 0 (enableAlgorithms c).keys).1 = .ok ())
    (hroom : (nameList (startedSshcrypto c env).kexs).length +
      (nameList (startedSshcrypto c env).keys).length +
      2 * (nameList (startedSshcrypto c env).ciphers).length + 200 < 1024) :
    (session env c).2.kexsend.data =
      kexinitBytes env.cookie (nameList (startedSshcrypto c env).kexs)
        (nameList (startedSshcrypto c env).keys) (nameList (startedSshcrypto c env).ciphers) := by
  have hstart : Buf.Ok ⟨[], 1024⟩ := ⟨by decide, by decide⟩
  have hpacket := kexinitPacket_eq (startedSshcrypto c env) env.cookie hstart hroom
  have hsend := exec_packetKexSend (s := startedState c env) env.kexSent hpacket
  -- The rest of the session leaves `kexsend` as it is.
  have hreceive : ∀ b : Buf, Keeps (fun s => s.kexsend = b) (packetKexReceive env.clientKexinit) :=
    fun b => keeps_packetKexReceive
      (keeps_sshcryptoKexSelect (fun _ _ h => h) fun _ _ _ _ h _ => h)
      (keeps_sshcryptoKeySelect fun _ _ _ _ h _ => h)
      (keeps_sshcryptoCipherSelect fun _ _ _ _ h _ => h) (fun _ _ h => h) _
  rw [session, mainTinysshd, exec_bind_ok (exec_startAlgorithms hinit hread), exchangeKexinit,
    if_neg (by rw [h.hello_sent]; decide), if_neg (by rw [h.hello_received]; decide),
    exec_bind_ok hsend]
  exact congrArg Buf.data ((keeps_throw _).ite ((hreceive _).bind fun _ =>
    (keeps_throw _).ite (keeps_pure _)) _ rfl)

/-! ## 8. From the first session on -/

theorem bootSshcrypto_whole : TablesWhole bootSshcrypto := by
  refine ⟨.inl ?_, .inl ?_, .inl ?_⟩
  · intro r hr
    simp only [bootSshcrypto, sshcryptoKexs, List.mem_cons, List.not_mem_nil, or_false] at hr
    rcases hr with rfl | rfl | rfl <;> exact ⟨_, rfl⟩
  · intro r hr
    rw [List.mem_singleton.mp hr]
    exact ⟨_, rfl⟩
  · intro r hr
    rw [List.mem_singleton.mp hr]
    exact ⟨_, rfl⟩

/-- A session leaves purged tables behind. -/
theorem endSession_purged {c : Sshcrypto} (h : TablesWhole c) (env : SessionEnv) :
    TablesPurged (endSession c env) :=
  sshcryptoPurge_purged (keeps_whole env (sessionStart c) h)

/-- The second session and every later one leave the algorithm state as they found it. -/
theorem endSession_of_purged {c : Sshcrypto} (h : TablesPurged c) (env : SessionEnv) :
    endSession c env = c := by
  rw [endSession, session_crypto_purged h env, sshcryptoPurge_of_purged h]

/-- **The algorithm state of every later session is what the first session left.** -/
theorem afterSessions_cons (env : SessionEnv) (later : List SessionEnv) :
    afterSessions (env :: later) = endSession bootSshcrypto env := by
  have hfirst := endSession_purged bootSshcrypto_whole env
  rw [afterSessions, List.foldl_cons]
  induction later with
  | nil => rfl
  | cons e later ih => rw [List.foldl_cons, endSession_of_purged hfirst e, ih]

theorem afterSessions_purged (env : SessionEnv) (later : List SessionEnv) :
    TablesPurged (afterSessions (env :: later)) := by
  rw [afterSessions_cons]
  exact endSession_purged bootSshcrypto_whole env

/-! ## 9. Does a session start like the first one? -/

/-- The names the first session offers. -/
def firstKexs : Bytes :=
  ascii "curve25519-sha256,curve25519-sha256@libssh.org,sntrup761x25519-sha512@openssh.com"

@[inherit_doc firstKexs]
def firstKeys : Bytes := ascii "ssh-ed25519"

@[inherit_doc firstKexs]
def firstCiphers : Bytes := ascii "chacha20-poly1305@openssh.com"

theorem nameList_boot_kexs : nameList (enableAlgorithms bootSshcrypto).kexs = firstKexs := by
  decide +kernel

theorem nameList_boot_ciphers :
    nameList (enableAlgorithms bootSshcrypto).ciphers = firstCiphers := by
  decide +kernel

/-- The host key is offered once it is loaded, whatever it is. -/
theorem readPublicKeys_boot {loads : ℕ → LoadAnswer} {pk : Bytes} (h : loads 0 = .loaded pk) :
    (readPublicKeys loads 0 (enableAlgorithms bootSshcrypto).keys).1 = .ok () ∧
      nameList (readPublicKeys loads 0 (enableAlgorithms bootSshcrypto).keys).2 = firstKeys := by
  have hkeys : (enableAlgorithms bootSshcrypto).keys = sshcryptoKeys.map fun r =>
      { r with signFlagserver := 2, signFlagclient := 2 } := by decide +kernel
  rw [hkeys]
  simp only [sshcryptoKeys, List.map_cons, List.map_nil, readPublicKeys, h]
  exact ⟨rfl, rfl⟩

/-- **What the first session offers**, whatever its environment. -/
theorem session_kexsend_boot {env : SessionEnv} (h : env.Reaches) :
    (session env bootSshcrypto).2.kexsend.data =
      kexinitBytes env.cookie firstKexs firstKeys firstCiphers := by
  obtain ⟨pk, hpk⟩ := h.loaded 0
  obtain ⟨hread, hkeys⟩ := readPublicKeys_boot hpk
  have hinit : sshcryptoInit bootSshcrypto = .ok () := by decide +kernel
  have hstarted : nameList (startedSshcrypto bootSshcrypto env).keys = firstKeys := hkeys
  have hsent := session_kexsend h hinit hread (by
    rw [hstarted]
    change (nameList (enableAlgorithms bootSshcrypto).kexs).length + _ +
      2 * (nameList (enableAlgorithms bootSshcrypto).ciphers).length + _ < _
    rw [nameList_boot_kexs, nameList_boot_ciphers]
    decide)
  rw [hsent, hstarted]
  exact congrArg₂ (fun k c => kexinitBytes env.cookie k firstKeys c) nameList_boot_kexs
    nameList_boot_ciphers

/-- `sshcrypto_init` finds no row to check in purged tables. -/
theorem sshcryptoInit_of_purged {c : Sshcrypto} (hc : TablesPurged c) :
    sshcryptoInit c = .ok () := by
  have hkexs := takeWhile_of_purged hc.kexs
  have hkeys := takeWhile_of_purged hc.keys
  have hciphers := takeWhile_of_purged hc.ciphers
  change c.kexs.takeWhile (fun r => r.name.isSome) = [] at hkexs
  change c.keys.takeWhile (fun r => r.name.isSome) = [] at hkeys
  change c.ciphers.takeWhile (fun r => r.name.isSome) = [] at hciphers
  rw [sshcryptoInit, hkexs, hkeys, hciphers]
  rfl

/-- **With purged tables a session offers nothing.** -/
theorem session_kexsend_purged {c : Sshcrypto} (hc : TablesPurged c) {env : SessionEnv}
    (h : env.Reaches) :
    (session env c).2.kexsend.data = kexinitBytes env.cookie [] [] [] := by
  have hread := readPublicKeys_of_purged env.loads 0 hc.keys
  have hstarted : startedSshcrypto c env = c := by
    rw [startedSshcrypto, enableAlgorithms_of_purged hc, hread]
  have hkexs : nameList c.kexs = [] := by rw [nameList, enabledNames_of_purged hc.kexs, joinNames]
  have hkeys : nameList c.keys = [] := by rw [nameList, enabledNames_of_purged hc.keys, joinNames]
  have hciphers : nameList c.ciphers = [] := by
    rw [nameList, enabledNames_of_purged hc.ciphers, joinNames]
  have hsent := session_kexsend h (sshcryptoInit_of_purged hc)
    (by rw [enableAlgorithms_of_purged hc, hread])
    (by rw [hstarted, hkexs, hkeys, hciphers]; decide)
  rw [hsent, hstarted, hkexs, hkeys, hciphers]

/-- The algorithm selections in force. -/
def KexState.selected (s : KexState) : KexGlobals × KeyGlobals × CipherGlobals :=
  (s.crypto.kex, s.crypto.key, s.crypto.cipher)

/-- A session that starts from `c` starts like the first one. -/
structure StartsFresh (c : Sshcrypto) : Prop where
  kexs_eq : c.kexs = sshcryptoKexs
  keys_eq : c.keys = sshcryptoKeys
  ciphers_eq : c.ciphers = sshcryptoCiphers
  none_selected : c.kex.name = none ∧ c.key.name = none ∧ c.cipher.name = none
  /-- It offers lists that are not empty, and the ones the first session offered. -/
  offers : ∀ env : SessionEnv, env.Reaches → ∃ kexs keys ciphers : Bytes,
    kexs ≠ [] ∧ keys ≠ [] ∧ ciphers ≠ [] ∧
      (session env c).2.kexsend.data = kexinitBytes env.cookie kexs keys ciphers ∧
      (session env bootSshcrypto).2.kexsend.data = kexinitBytes env.cookie kexs keys ciphers
  /-- It selects what a first session would select from the same KEXINIT. -/
  selects : ∀ env : SessionEnv,
    (session env c).2.selected = (session env bootSshcrypto).2.selected

/-- **A session starts like the first one exactly when it is the first one**, for every sequence
of earlier sessions. -/
theorem startsFresh_iff (earlier : List SessionEnv) :
    StartsFresh (afterSessions earlier) ↔ earlier = [] := by
  constructor
  · intro hfresh
    cases earlier with
    | nil => rfl
    | cons env later =>
      have hpurged := (afterSessions_purged env later).kexs
      rw [hfresh.kexs_eq] at hpurged
      exact absurd hpurged (not_purged_of_named rfl)
  · rintro rfl
    refine ⟨rfl, rfl, rfl, ⟨rfl, rfl, rfl⟩, ?_, fun _ => rfl⟩
    intro env h
    exact ⟨firstKexs, firstKeys, firstCiphers, List.cons_ne_nil _ _, List.cons_ne_nil _ _,
      List.cons_ne_nil _ _, session_kexsend_boot h, session_kexsend_boot h⟩

/-- A client that offers what the server supports. -/
def typicalSession : SessionEnv where
  loads _ := .loaded (List.replicate 32 1)
  helloSent := true
  helloReceived := true
  cookie := Vector.replicate 16 2
  kexSent := true
  clientKexinit := some (kexinitBytes (Vector.replicate 16 3) firstKexs firstKeys firstCiphers)

/-- **The second session offers three empty lists.** -/
theorem second_session_offers_nothing :
    (session typicalSession (afterSessions [typicalSession])).2.kexsend.data =
        kexinitBytes typicalSession.cookie [] [] [] ∧
      ¬ StartsFresh (afterSessions [typicalSession]) := by
  have hpurged := afterSessions_purged typicalSession []
  constructor
  · exact session_kexsend_purged hpurged ⟨rfl, rfl, fun _ => ⟨_, rfl⟩⟩
  · intro hfresh
    have hkexs := hpurged.kexs
    rw [hfresh.kexs_eq] at hkexs
    exact not_purged_of_named rfl hkexs

end Glossh.Ssh
