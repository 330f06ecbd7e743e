/-
# A session of `main_tinysshd`

The whole function: the hello lines, the first key exchange, authentication, the main loop, and the
key exchanges the client asks for in it.  Those enter the code again at `rekeying`, in front of
authentication, and the flags set the first time decide what is skipped.

The client appears as the payloads that `packet_get_` delivers, whatever they are; a list that
ends is a connection that ends.  Random values, `read`, `write` and the flash memory are part of
the environment, the hash functions and `sign_open` are parameters.  `events` records what the
session came to, in order.
-/
import Glossh.Ssh.PacketGet
import Glossh.Ssh.Session
import Glossh.Ssh.Userauth

namespace Glossh.Ssh

open Bytes Prog

/-! ## 1. The state -/

/-- A payload that `packet_get_` put into a buffer. -/
structure Received where
  payload : Bytes
  pos : 0 < payload.length
  lt_limit : payload.length < PACKET_LIMIT

/-- What was delivered is one. -/
def Delivers.received {b b' : Buf} {x : Bytes} (h : Delivers b b' x) : Received :=
  ⟨x, h.pos, h.lt_limit⟩

/-- What the calls of `packet_get_` meet, as far as something comes of them. -/
inductive Arrival where
  | packet (r : Received)
  /-- `packet_get_` ends the session, which it does with EPROTO only (`packetGetAny_arrives`). -/
  | malformed
  /-- `packet_recv` returns 0. -/
  | closed

/-- **A call of `packet_get_` is an arrival, or brings nothing**: it puts a payload into the buffer,
ends the session, or leaves the buffer as it was. -/
theorem packetGetAny_arrives {C : SshPacket.Cipher} {flagkeys : Bool} {p : TinysshPacket} {b : Buf}
    (hp : p.InSpace) (hb : b.Ok) (hroom : b.data.length + PACKET_LIMIT ≤ b.alloc) :
    packetGetAny C flagkeys p b = .error (.bug .EPROTO) ∨
      ∃ q b', packetGetAny C flagkeys p b = .ok (q, b') ∧
        (b' = b ∨ ∃ r : Received, b' = { b with data := b.data ++ r.payload }) := by
  cases hget : packetGetAny C flagkeys p b with
  | error e => exact .inl (by rw [packetGetAny_error hb hroom hget])
  | ok x =>
    obtain ⟨q, b'⟩ := x
    refine .inr ⟨q, b', rfl, ?_⟩
    rcases (packetGetAny_cases hp hget).2 with ⟨hsame, -⟩ | ⟨x, hx⟩
    · exact .inl hsame
    · exact .inr ⟨hx.received, hx.buf_eq⟩

/-- What `packet_auth` accepted: the request without its signature, and what was compared. -/
structure Login where
  name : Bytes
  keyname : Bytes
  key : Bytes
  pk : Vector UInt8 32
  sig : Bytes
  /-- `packet.sessionid`, of which `sshcrypto_hash_bytes` are used. -/
  sessionid : Bytes
  hashBytes : ℕ
  request : Bytes
  nvs : NvsLine

inductive SessionEvent where
  /-- `packet_kexdh` returned 1. -/
  | kexdh (sessionid : Bytes) (flagauthorized : Bool)
  /-- `packet_auth` returned 1. -/
  | auth (l : Login)
  /-- The `switch` of the main loop has a packet. -/
  | dispatch (b : Bytes)

/-- `struct tinyssh_packet`, `b1` and `b2`, the algorithm state, the channel, and the client. -/
structure Tinysshd where
  kex : KexState
  loop : Loop
  hellosend : Buf
  helloreceive : Buf
  kexrecv : Buf
  hashbuf : Buf
  b1 : Buf
  b2 : Buf
  flagkeys : Bool
  flagauthorized : Bool
  flagrekeying : Bool
  receivepacketid : UInt32
  sessionid : Bytes
  /-- `clientnonce`, `servernonce`, `clientkey`, `serverkey`, `clientmackey`, `servermackey`. -/
  keys : List Bytes
  arrivals : List Arrival
  events : List SessionEvent

abbrev SessionM := Prog Tinysshd Exit

/-- The functions that are linked in. -/
structure Primitives where
  /-- The array `hash` after the call. -/
  hash : Option Fn → Bytes → Vector UInt8 64
  /-- `sign_open` returns 0. -/
  signOpen : Bytes → Vector UInt8 32 → Bool

/-- A call of the algorithm code. -/
def onKex {α : Type} (m : Prog KexState Exit α) : SessionM α :=
  zoom (fun s => s.kex) (fun k s => { s with kex := k }) m

/-- A call of the code that works on the channel and on `sendbuf`. -/
def onLoop {α : Type} (m : LoopM α) : SessionM α :=
  zoom (fun s => s.loop) (fun l s => { s with loop := l }) m

/-- The session's buffers, apart from those with a model of their own. -/
inductive BufField where
  | hellosend
  | helloreceive
  | kexrecv
  | hashbuf
  | b1
  | b2
deriving DecidableEq

namespace BufField

def get : BufField → Tinysshd → Buf
  | hellosend, s => s.hellosend
  | helloreceive, s => s.helloreceive
  | kexrecv, s => s.kexrecv
  | hashbuf, s => s.hashbuf
  | b1, s => s.b1
  | b2, s => s.b2

def set : BufField → Buf → Tinysshd → Tinysshd
  | hellosend, b, s => { s with hellosend := b }
  | helloreceive, b, s => { s with helloreceive := b }
  | kexrecv, b, s => { s with kexrecv := b }
  | hashbuf, b, s => { s with hashbuf := b }
  | b1, b, s => { s with b1 := b }
  | b2, b, s => { s with b2 := b }

theorem get_set (x y : BufField) (b : Buf) (s : Tinysshd) :
    y.get (x.set b s) = if y = x then b else y.get s := by
  cases x with
  | hellosend => cases y <;> rfl
  | helloreceive => cases y <;> rfl
  | kexrecv => cases y <;> rfl
  | hashbuf => cases y <;> rfl
  | b1 => cases y <;> rfl
  | b2 => cases y <;> rfl

/-- Calls of `buf_*` on the buffer. -/
def run (x : BufField) (f : Buf → Except Exit Buf) : SessionM Unit := do
  let r ← reads fun s => f (x.get s)
  let b ← check r
  modify (x.set b)

end BufField

/-! ## 2. Packets -/

/-- `packet_put_plain_`. -/
def packetPutPlain (payload : Bytes) : LoopM Unit := do
  let padding := 16 - (5 + payload.length) % 8
  let room ← reads fun s => decide (s.sendlen + 5 + payload.length + padding < SENDBUF_SIZE)
  if room then
    modify fun s => { s with sendbuf := s.sendbuf ++ [(payload, 5 + payload.length + padding)] }
  else do
    modify fun s => { s with refused := s.refused ++ [payload] }
    throw (.bug .ENOMEM)

/-- `packet_put`. -/
def packetPutAny (payload : Bytes) : SessionM Unit := do
  let flagkeys ← reads fun s => s.flagkeys
  onLoop (if flagkeys then packetPut payload else packetPutPlain payload)

/-- `packet_put` of a buffer. -/
def packetPutBuf (x : BufField) : SessionM Unit := do
  let payload ← reads fun s => (x.get s).data
  packetPutAny payload

/-- `packet_get` where `packet_get_` delivers a payload. -/
def packetGetReceived (t : UInt8) (x : BufField) (r : Received) : SessionM Bool := do
  modify fun s => { s with receivepacketid := s.receivepacketid + 1 }
  x.run fun b => do
    let b ← b.purge
    b.put r.payload
  let many ← reads fun s =>
    !s.flagauthorized && decide (s.receivepacketid.toNat > PACKET_UNAUTHENTICATED_MESSAGES)
  if many then throw (.bug .EPROTO)
  else do
    let r ← reads fun s => packetGetSwitch t (x.get s)
    let r ← check r
    x.run fun _ => .ok r.2
    return r.1

/-- `packet_getall` for a packet of type `t`, or any if that is 0. -/
def packetGetallFrom (t : UInt8) (x : BufField) : List Arrival → SessionM Bool
  | [] => return false
  | .closed :: l => do
    modify fun s => { s with arrivals := l }
    return false
  | .malformed :: l => do
    modify fun s => { s with arrivals := l }
    throw (.bug .EPROTO)
  | .packet r :: l => do
    modify fun s => { s with arrivals := l }
    let ok ← packetGetReceived t x r
    if ok then do
      let dropped ← reads fun s => decide ((x.get s).data = [])
      if dropped then packetGetallFrom t x l else return true
    else return false

@[inherit_doc packetGetallFrom]
def packetGetall (t : UInt8) (x : BufField) : SessionM Bool := do
  x.run Buf.purge
  let l ← reads fun s => s.arrivals
  packetGetallFrom t x l

/-! ## 3. Hello and KEXINIT -/

/-- The puts of `packet_hello_send`; `logstring` is what `log_string` returns. -/
def helloLine (logstring : Vector UInt8 8) (b : Buf) : Except Exit Buf := do
  let b ← b.purge
  let b ← b.put (ascii "SSH-2.0-tinyssh")
  let b ← b.put (ascii " ")
  let b ← b.put logstring.toList
  b.put [0x0d, 0x0a]

/-- `packet_hello_send`. -/
def packetHelloSend (logstring : Vector UInt8 8) (sent : Bool) : SessionM Bool := do
  BufField.hellosend.run (helloLine logstring)
  if sent then do
    BufField.hellosend.run fun b => .ok { b with data := b.data.take (b.data.length - 2) }
    return true
  else return false

/-- `getln`: the line with its newline, `x` of which was read.  A zero byte counts as newline. -/
def getln (xmax : ℕ) : Bytes → Bytes → Option Bytes
  | _, [] => none
  | x, ch :: l =>
    if x.length ≥ xmax - 1 then none
    else
      let ch := if ch = 0 then 0x0a else ch
      if ch = 0x0a then some (x ++ [ch]) else getln xmax (x ++ [ch]) l

/-- `if (b->buf[b->len - 1] == c) --(b->len);` -/
def stripLast (c : UInt8) (x : Bytes) : Bytes := if x.getLastD 0 = c then x.dropLast else x

/-- `packet_hello_receive`, where the client begins with the bytes `client`. -/
def packetHelloReceive (client : Bytes) : SessionM Bool := do
  let alloc ← reads fun s => s.helloreceive.alloc
  match getln alloc [] client with
  | none => return false
  | some line =>
    if line.length < 6 then return false
    else do
      let line := stripLast 0x0d (stripLast 0x0a line)
      BufField.helloreceive.run fun b => .ok { b with data := line }
      return line.take 4 = ascii "SSH-"

/-- `packet_kex_send`. -/
def packetKexSendAll (cookie : Vector UInt8 16) (sent : Bool) : SessionM Bool := do
  let sent ← onKex (packetKexSend cookie sent)
  let payload ← reads fun s => s.kex.kexsend.data
  packetPutAny payload
  onLoop (packetSendall sent)

/-- `packet_kex_receive`. -/
def packetKexReceiveAll : SessionM Bool := do
  let ok ← packetGetall SSH_MSG_KEXINIT .kexrecv
  let kexrecv ← reads fun s => if ok then some s.kexrecv.data else none
  onKex (packetKexReceive kexrecv)

/-! ## 4. `packet_kexdh` -/

/-- What a key exchange meets. -/
structure KexdhEnv where
  cookie : Vector UInt8 16
  kexSent : Bool
  /-- The results of `sshcrypto_enc`: `serverpk` and `sharedsecret`, if it returns 0.  After the
  last of them it fails. -/
  encs : List (Option (Vector UInt8 1071 × Vector UInt8 64))
  /-- The signature, if `subprocess_sign` returns 0. -/
  sm : Option (Vector UInt8 64)
  replySent : Bool

/-- SSH_MSG_KEXDH_INIT: `clientpk`. -/
def parseKexdhInit (publickeybytes : ℕ) (b : Bytes) : Except Exit Bytes := do
  let ch ← packetparserUint8 b 0
  require (ch.1 = SSH_MSG_KEXDH_INIT)
  let len ← packetparserUint32 b ch.2
  require (len.1.toNat = publickeybytes)
  let pos ← packetparserSkip b len.2 publickeybytes
  let _ ← packetparserEnd b pos
  return slice b len.2 publickeybytes

/-- "generate key and compute shared secret". -/
def encLoop (publickeybytes : ℕ) : List (Option (Vector UInt8 1071 × Vector UInt8 64)) →
    Except Exit (Vector UInt8 1071 × Vector UInt8 64)
  | some r :: l =>
    if r.2.toList.headD 0 = 0 ∧ publickeybytes = 32 then encLoop publickeybytes l else .ok r
  | _ => bugProto

/-- `sshcrypto_buf_putkemkey`. -/
def putkemkey (fn : Option Fn) (sharedsecret : Vector UInt8 64) (b : Buf) : Except Exit Buf :=
  match fn with
  | some .curve25519_putkemkey => b.putSharedsecret sharedsecret.toList 32
  | _ => b.putStringLen sharedsecret.toList

/-- `sshcrypto_sign_publickey`. -/
def hostKey (c : Sshcrypto) : Vector UInt8 32 :=
  toVector 32 (match c.key.signPublickey with
    | none => []
    | some i => ((c.keys[i]?).map fun r => r.signPublickey).getD [])

/-- "create hash": the puts into `hashbuf`. -/
def hashInput (s : Tinysshd) (clientpk serverpk : Bytes) (sharedsecret : Vector UInt8 64)
    (b : Buf) : Except Exit Buf := do
  let b ← b.purge
  let b ← b.putStringLen s.helloreceive.data
  let b ← b.putStringLen s.hellosend.data
  let b ← b.putStringLen s.kexrecv.data
  let b ← b.putStringLen s.kex.kexsend.data
  let b ← ed25519Putsignpk (hostKey s.kex.crypto) b
  let b ← b.putStringLen clientpk
  let b ← b.putStringLen serverpk
  putkemkey s.kex.crypto.kex.bufPutkemkey sharedsecret b

/-- "send server kex_ecdh_reply". -/
def kexdhReply (pk : Vector UInt8 32) (serverpk : Bytes) (sm : Vector UInt8 64) (b : Buf) :
    Except Exit Buf := do
  let b ← b.purge
  let b ← b.putNum8 SSH_MSG_KEXDH_REPLY
  let b ← ed25519Putsignpk pk b
  let b ← b.putStringLen serverpk
  ed25519Putsignature sm b

/-- A buffer with one byte in it. -/
def oneByteMessage (u : UInt8) (b : Buf) : Except Exit Buf := do
  let b ← b.purge
  b.putNum8 u

/-- What a key is derived from: the letter and the session id the first time, the key so far the
second. -/
def keyInput (fn : Option Fn) (sharedsecret : Vector UInt8 64) (hash rest : Bytes) (b : Buf) :
    Except Exit Buf := do
  let b ← b.purge
  let b ← putkemkey fn sharedsecret b
  let b ← b.put hash
  b.put rest

section

variable (P : Primitives)

/-- "receive new keys": the packets up to NEWKEYS.  `fuel` is more than the packets there are. -/
def awaitNewkeys : ℕ → SessionM Bool
  | 0 => return false
  | fuel + 1 => do
    BufField.b2.run Buf.purge
    let ok ← packetGetall 0 .b2
    if ok then do
      let newkeys ← reads fun s => decide (s.b2.data.headD 0 = SSH_MSG_NEWKEYS)
      if newkeys then return true else awaitNewkeys fuel
    else return false

/-- "key derivation": the key number `i`. -/
def deriveKey (sharedsecret : Vector UInt8 64) (hash : Bytes) (i : ℕ) : SessionM Unit := do
  let g ← reads fun s => s.kex.crypto.kex
  let sessionid ← reads fun s => s.sessionid.take g.hashBytes
  BufField.b1.run (keyInput g.bufPutkemkey sharedsecret hash (UInt8.ofNat (65 + i) :: sessionid))
  let key ← reads fun s => (P.hash g.hash s.b1.data).toList.take g.hashBytes
  -- one extend
  BufField.b1.run (keyInput g.bufPutkemkey sharedsecret hash key)
  modify fun s => { s with
    keys := s.keys.set i (key ++ (P.hash g.hash s.b1.data).toList.take g.hashBytes) }

def deriveKeys (sharedsecret : Vector UInt8 64) (hash : Bytes) : List ℕ → SessionM Unit
  | [] => return ()
  | i :: l => do
    deriveKey P sharedsecret hash i
    deriveKeys sharedsecret hash l

/-- "create hash", "session id". -/
def exchangeHash (clientpk serverpk : Bytes) (sharedsecret : Vector UInt8 64) :
    SessionM Bytes := do
  let s ← get
  BufField.hashbuf.run (hashInput s clientpk serverpk sharedsecret)
  let g ← reads fun s => s.kex.crypto.kex
  let hash ← reads fun s => (P.hash g.hash s.hashbuf.data).toList.take g.hashBytes
  modify fun s => { s with
    sessionid := if s.flagrekeying then s.sessionid else overwrite s.sessionid 0 hash
    flagrekeying := true }
  return hash

/-- The packet that a client with a wrong guess sends first. -/
def skipGuess : SessionM Bool := do
  let skip ← reads fun s => s.kex.kexPacketFollows ≠ 0 && s.kex.kexGuess = 0
  if skip then packetGetall SSH_MSG_KEXDH_INIT .b1 else return true

/-- `packet_kexdh`. -/
def packetKexdh (env : KexdhEnv) : SessionM Bool := do
  let ok ← skipGuess
  if !ok then return false
  else do
    let ok ← packetGetall SSH_MSG_KEXDH_INIT .b1
    if !ok then return false
    else do
      let g ← reads fun s => s.kex.crypto.kex
      let clientpk ← reads fun s => parseKexdhInit g.kemPublickeybytes s.b1.data
      let clientpk ← check clientpk
      BufField.b1.run Buf.purge
      let enc ← check (encLoop g.kemPublickeybytes env.encs)
      let serverpk := enc.1.toList.take g.kemCiphertextbytes
      let hash ← exchangeHash P clientpk serverpk enc.2
      match env.sm with
      | none => return false
      | some sm => do
        BufField.b1.run Buf.purge
        let pk ← reads fun s => hostKey s.kex.crypto
        BufField.b2.run (kexdhReply pk serverpk sm)
        packetPutBuf .b2
        BufField.b2.run (oneByteMessage SSH_MSG_NEWKEYS)
        packetPutBuf .b2
        let sent ← onLoop (packetSendall env.replySent)
        if !sent then return false
        else do
          let fuel ← reads fun s => s.arrivals.length + 1
          let newkeys ← awaitNewkeys fuel
          if !newkeys then return false
          else do
            deriveKeys P enc.2 hash [0, 1, 2, 3, 4, 5]
            return true

/-! ## 5. `packet_auth` -/

/-- What authentication meets; the functions take the number of the try. -/
structure AuthEnv where
  serviceSent : Bool
  nvs : ℕ → NvsLine
  replySent : ℕ → Bool
  successSent : Bool

/-- How a request ends. -/
inductive AuthTry where
  /-- It was answered. -/
  | again
  /-- `packet_auth` returns 0. -/
  | failed
  | authorized (l : Login)

/-- SSH_MSG_USERAUTH_PK_OK. -/
def pkOk (name : Bytes) (pk : Vector UInt8 32) (b : Buf) : Except Exit Buf := do
  let b ← b.purge
  let b ← b.putNum8 SSH_MSG_USERAUTH_PK_OK
  let b ← b.putStringLen name
  ed25519Putsignpk pk b

/-- SSH_MSG_USERAUTH_FAILURE. -/
def userauthFailure (b : Buf) : Except Exit Buf := do
  let b ← b.purge
  let b ← b.putNum8 SSH_MSG_USERAUTH_FAILURE
  let b ← b.putStringLen (ascii "publickey")
  b.putNum8 0

/-- What the signature is checked on. -/
def signedMessage (sig sessionid request : Bytes) (b : Buf) : Except Exit Buf := do
  let b ← b.purge
  let b ← b.put sig
  let b ← b.putStringLen sessionid
  b.put request

/-- The key as `subprocess_auth` compares it. -/
def keyText (pk : Vector UInt8 32) (b : Buf) : Except Exit Buf := do
  let b ← b.purge
  let b ← ed25519Putsignpkbase64 pk b
  b.putNum8 0

/-- "'publickey' ... with signature". -/
def verifyLogin (nvs : NvsLine) (name keyname : Bytes) (pk : Vector UInt8 32)
    (sig request : Bytes) : SessionM (Option Login) := do
  let sessionid ← reads fun s => s.sessionid
  let hashBytes ← reads fun s => s.kex.crypto.kex.hashBytes
  BufField.b2.run (signedMessage sig (sessionid.take hashBytes) request)
  let sm ← reads fun s => s.b2.data
  BufField.b1.run Buf.purge
  let tight ← reads fun s => decide (s.b1.alloc ≤ sm.length)
  if tight then throw (.bug .ENOMEM)
  else if !P.signOpen sm pk then throw .bugAsIs
  else do
    BufField.b1.run (keyText pk)
    let key ← reads fun s => s.b1.data.takeWhile (· ≠ 0)
    if subprocessAuth nvs keyname key = 0 then
      return some ⟨name, keyname, key, pk, sig, sessionid, hashBytes, request, nvs⟩
    else return none

/-- A request with the method "publickey": `none` where it is rejected. -/
def publickeyTry (env : AuthEnv) (count : ℕ) (b : Bytes) (r : UserauthRequest) :
    SessionM (Option AuthTry) := do
  let p ← check (parsePublickeyRequest b r.pos)
  let row ← reads fun s =>
    (findClientKey p.algorithm s.kex.crypto.keys).filter SshcryptoKey.complete
  match row with
  | none => return none
  | some row => do
    let keyname := row.name.getD []
    let pk ← check (parsePublickeyBlob b p.pos)
    if !p.flagsignature then do
      BufField.b1.run (pkOk keyname pk.1)
      packetPutBuf .b1
      let sent ← onLoop (packetSendall (env.replySent count))
      return some (if sent then .again else .failed)
    else do
      let sig ← check (parseSignatureBlob b pk.2)
      let l ← verifyLogin P (env.nvs count) r.name keyname pk.1 (sig.1.toList.take row.signBytes)
        sig.2
      return l.map .authorized

/-- "reject". -/
def reject (env : AuthEnv) (count : ℕ) : SessionM AuthTry := do
  BufField.b1.run userauthFailure
  packetPutBuf .b1
  let sent ← onLoop (packetSendall (env.replySent count))
  return if sent then .again else .failed

/-- "receive userauth request" and its answer. -/
def packetAuthTry (env : AuthEnv) (count : ℕ) : SessionM AuthTry := do
  let ok ← packetGetall SSH_MSG_USERAUTH_REQUEST .b1
  if !ok then return .failed
  else do
    let b ← reads fun s => s.b1.data
    let r ← check (parseUserauthRequest b)
    modify fun s => { s with loop := { s.loop with name := r.name } }
    let t ← (if r.method = ascii "publickey" then publickeyTry P env count b r else pure none)
    match t with
    | some t => return t
    | none => reject env count

/-- The loop over the tries, of which `left` are left. -/
def packetAuthLoop (env : AuthEnv) : ℕ → SessionM (Option Login)
  | 0 => return none
  | left + 1 => do
    let t ← packetAuthTry P env (31 - left)
    match t with
    | .again => packetAuthLoop env left
    | .failed => return none
    | .authorized l => do
      BufField.b1.run (oneByteMessage SSH_MSG_USERAUTH_SUCCESS)
      packetPutBuf .b1
      let sent ← onLoop (packetSendall env.successSent)
      return if sent then some l else none

/-- `packet_auth`: what it accepted, if it returns 1. -/
def packetAuth (env : AuthEnv) : SessionM (Option Login) := do
  let ok ← packetGetall SSH_MSG_SERVICE_REQUEST .b1
  if !ok then return none
  else do
    let r ← reads fun s => parseServiceRequest s.b1.data
    check r
    BufField.b1.run fun b => .ok { b with data := b.data.set 0 SSH_MSG_SERVICE_ACCEPT }
    packetPutBuf .b1
    let sent ← onLoop (packetSendall env.serviceSent)
    if sent then packetAuthLoop P env 32 else return none

/-! ## 6. `main_tinysshd` -/

/-- `if (!ok) die_fatal(trouble, 0, 0);` -/
def orDie (ok : Bool) (trouble : String) : SessionM Unit :=
  check (if ok then .ok () else .error (.dieFatal trouble))

/-- "rekeying": the client's KEXINIT is in `b1`. -/
def answerKexinit (env : KexdhEnv) : SessionM Unit := do
  let again ← reads fun s => s.flagrekeying
  if again then do
    let b ← reads fun s => s.b1.data
    BufField.kexrecv.run fun c => do
      let c ← c.purge
      c.put b
    let ok ← packetKexSendAll env.cookie env.kexSent
    orDie ok "unable to send kex-message"
  else return ()

/-- From `rekeying` to "communication is encrypted". -/
def rekeying (env : KexdhEnv) : SessionM Unit := do
  answerKexinit env
  let ok ← packetKexdh P env
  orDie ok "unable to process kexdh"
  modify fun s => { s with
    flagkeys := true
    events := s.events ++ [.kexdh s.sessionid s.flagauthorized] }

/-- "authentication + authorization". -/
def authentication (env : AuthEnv) : SessionM Unit := do
  let done ← reads fun s => s.flagauthorized
  if done then return ()
  else do
    let l ← packetAuth P env
    match l with
    | none => throw (.dieFatal "authentication failed")
    | some l => modify fun s => { s with flagauthorized := true, events := s.events ++ [.auth l] }

/-- A packet in the main loop, with what its handling needs. -/
structure TurnPacket where
  arrival : Arrival
  exec : ExecEnv
  sent : Bool

/-- The `switch` on a packet that is not KEXINIT. -/
def dispatchPacket (b : Bytes) (p : TurnPacket) : SessionM Bool := do
  let receivepacketid ← reads fun s => s.receivepacketid
  onLoop (dispatch b {
    answer := .packet b
    exec := p.exec
    rekey := ⟨[], true, .ok [], true, .ok ()⟩
    receivepacketid := receivepacketid
    sent := p.sent })

/-- "process packets": whether the code goes to `rekeying`. -/
def sessionPackets : List TurnPacket → SessionM Bool
  | [] => return false
  | p :: l =>
    match p.arrival with
    | .closed => return false
    | .malformed => throw (.bug .EPROTO)
    | .packet r => do
      let ok ← packetGetReceived 0 .b1 r
      -- Where it returns 0, `errno` is 0.
      if !ok then return false
      else do
        let b ← reads fun s => s.b1.data
        if b.length < 1 then return false
        else do
          modify fun s => { s with events := s.events ++ [.dispatch b] }
          if b.headD 0 = SSH_MSG_KEXINIT then return true
          else do
            let go ← dispatchPacket b p
            if go then sessionPackets l else return false

/-- What an iteration of the main loop meets, the key exchange it may lead to included.  The
packets are those of `packets`, not those of `env`. -/
structure Turn where
  env : LoopEnv
  packets : List TurnPacket
  arrivals : List Arrival
  kexdh : KexdhEnv
  auth : AuthEnv

/-- An iteration: whether the loop is left. -/
def turn (t : Turn) : SessionM Bool := do
  -- Up to "process packets".
  let left ← onLoop (mainLoopIteration { t.env with packets := [] })
  if left then return true
  else do
    let again ← sessionPackets t.packets
    if again then do
      modify fun s => { s with arrivals := t.arrivals }
      rekeying P t.kexdh
      authentication P t.auth
      return false
    else return false

def sessionLoop : List Turn → SessionM Unit
  | [] => return ()
  | t :: l => do
    let left ← turn P t
    if left then return () else sessionLoop l

/-- What a session meets. -/
structure TinysshdEnv where
  loads : ℕ → LoadAnswer
  logstring : Vector UInt8 8
  helloSent : Bool
  /-- What the client sends, up to its first packet. -/
  clientHello : Bytes
  kexdh : KexdhEnv
  auth : AuthEnv
  turns : List Turn

/-- What the start of the algorithms needs of it. -/
def TinysshdEnv.session (env : TinysshdEnv) : SessionEnv where
  loads := env.loads
  helloSent := env.helloSent
  helloReceived := true
  cookie := env.kexdh.cookie
  kexSent := env.kexdh.kexSent
  clientKexinit := none

/-- `main_tinysshd`. -/
def tinysshd (env : TinysshdEnv) : SessionM Unit := do
  onKex (startAlgorithms env.session)
  let ok ← packetHelloSend env.logstring env.helloSent
  orDie ok "unable to send hello-string"
  let ok ← packetHelloReceive env.clientHello
  orDie ok "unable to receive hello-string"
  let ok ← packetKexSendAll env.kexdh.cookie env.kexdh.kexSent
  orDie ok "unable to send kex-message"
  let ok ← packetKexReceiveAll
  orDie ok "unable to receive kex-message"
  rekeying P env.kexdh
  authentication P env.auth
  sessionLoop P env.turns

end

/-- The state after `global_init`, in a session that starts from the algorithm state `c`. -/
def tinysshdStart (c : Sshcrypto) (random : ℕ → Bool) (arrivals : List Arrival) : Tinysshd where
  kex := sessionStart c
  loop := loopStart [] random
  hellosend := ⟨[], 256⟩
  helloreceive := ⟨[], 256⟩
  kexrecv := ⟨[], 8192⟩
  hashbuf := ⟨[], 8192⟩
  b1 := ⟨[], GLOBAL_BSIZE⟩
  b2 := ⟨[], GLOBAL_BSIZE⟩
  flagkeys := false
  flagauthorized := false
  flagrekeying := false
  receivepacketid := 0
  sessionid := List.replicate 64 0
  keys := List.replicate 6 []
  arrivals := arrivals
  events := []

end Glossh.Ssh
