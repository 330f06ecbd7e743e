/-
# Who may log in: `port_auth.c`, the encodings of a key, and a user's request

The encodings of ed25519 keys and signatures as `sshcrypto_key_ed25519.c` puts and parses them, the
line of the flash memory that names the one key that is authorized, and the parts of
SSH_MSG_USERAUTH_REQUEST up to the signature.

Each sequence of `buf_put*` appends a string of known length; that is all its callers need.
-/
import Glossh.Ssh.MainLoop
import Glossh.Ssh.Sshcrypto

namespace Glossh.Ssh

open Bytes

/-! ## 1. Puts -/

/-- `b64chars[x & 63]`. -/
def b64char (x : UInt64) : UInt8 :=
  (ascii "ABCDEFGHIJKLMNOPQRSTUVWXYZabcdefghijklmnopqrstuvwxyz0123456789+/").getD (x &&& 63).toNat 0

/-- The inner loop of `buf_putbase64`, which takes six of the `bits` bits of `v` at a time while
there are more than six.  `fuel` is the number of bits to begin with. -/
def base64Digits (v : UInt64) : ℕ → ℕ → Bytes × ℕ
  | 0, bits => ([], bits)
  | fuel + 1, bits =>
    if bits > 6 then
      let r := base64Digits v fuel (bits - 6)
      (b64char (v >>> UInt64.ofNat (bits - 6)) :: r.1, r.2)
    else ([], bits)

/-- The characters of `buf_putbase64` in front of its padding. -/
def base64Chars : Bytes → UInt64 → ℕ → Bytes
  | [], v, bits => if bits ≠ 0 then [b64char (v <<< UInt64.ofNat (6 - bits))] else []
  | x :: l, v, bits =>
    let v := (v <<< 8) + UInt64.ofNat x.toNat
    let r := base64Digits v (bits + 8) (bits + 8)
    r.1 ++ base64Chars l v r.2

/-- The last loop of `buf_putbase64`: the buffer's length becomes a multiple of four. -/
def putPadding (b : Buf) : Except Exit Buf :=
  b.put (List.replicate ((4 - b.data.length % 4) % 4) 0x3d)

/-- `buf_putbase64`. -/
def Buf.putBase64 (b : Buf) (x : Bytes) : Except Exit Buf := do
  let b ← b.put (base64Chars x 0 0)
  putPadding b

/-- `buf_putsharedsecret` of the first `len` bytes of the array `x`, as a number without leading
zero bytes. -/
def Buf.putSharedsecret (b : Buf) (x : Bytes) (len : ℕ) : Except Exit Buf := do
  let pos := ((x.take len).takeWhile (· = 0)).length
  if (x.getD pos 0) &&& 0x80 ≠ 0 then do
    let b ← b.putNum32 (UInt32.ofNat (len - pos + 1))
    let b ← b.putNum8 0
    b.put (slice x pos (len - pos))
  else do
    let b ← b.putNum32 (UInt32.ofNat (len - pos))
    b.put (slice x pos (len - pos))

def ed25519Name : Bytes := ascii "ssh-ed25519"

/-- `ed25519_putsignature` and `ed25519_putsignpk` of `len` bytes. -/
def putEd25519 (x : Bytes) (b : Buf) : Except Exit Buf := do
  let b ← b.putNum32 (UInt32.ofNat (x.length + ed25519Name.length + 8))
  let b ← b.putStringLen ed25519Name
  b.putStringLen x

/-- `ed25519_putsignature`. -/
def ed25519Putsignature (sm : Vector UInt8 64) : Buf → Except Exit Buf := putEd25519 sm.toList

/-- `ed25519_putsignpk`. -/
def ed25519Putsignpk (pk : Vector UInt8 32) : Buf → Except Exit Buf := putEd25519 pk.toList

/-- `ed25519_putsignpkbase64`. -/
def ed25519Putsignpkbase64 (pk : Vector UInt8 32) (b : Buf) : Except Exit Buf :=
  b.putBase64 ([0, 0, 0, 11] ++ ed25519Name ++ [0, 0, 0, 32] ++ pk.toList)

/-! ## 2. Parsing -/

/-- `ed25519_parsesignpk` and `ed25519_parsesignature`, which differ in the length they insist
on. -/
def parseEd25519 (n : ℕ) (x : Bytes) : Except Exit (Option (Vector UInt8 n)) := do
  let name ← packetparserString x 0
  if slice x (name.2 - name.1) name.1 ≠ ed25519Name then return none
  else do
    let len ← packetparserUint32 x name.2
    if len.1.toNat ≠ n then return none
    else do
      let pos ← packetparserSkip x len.2 n
      let _ ← packetparserEnd x pos
      return some (toVector n (slice x len.2 n))

/-- `ed25519_parsesignpk`. -/
def ed25519Parsesignpk : Bytes → Except Exit (Option (Vector UInt8 32)) := parseEd25519 32

/-- `ed25519_parsesignature`. -/
def ed25519Parsesignature : Bytes → Except Exit (Option (Vector UInt8 64)) := parseEd25519 64

/-- SSH_MSG_SERVICE_REQUEST for "ssh-userauth". -/
def parseServiceRequest (b : Bytes) : Except Exit Unit := do
  let ch ← packetparserUint8 b 0
  require (ch.1 = SSH_MSG_SERVICE_REQUEST)
  let service ← packetparserString b ch.2
  require (slice b (service.2 - service.1) service.1 = ascii "ssh-userauth")
  let _ ← packetparserEnd b service.2

/-- A request up to its method. -/
structure UserauthRequest where
  name : Bytes
  method : Bytes
  pos : ℕ

/-- From the type of the message to the method. -/
def parseUserauthRequest (b : Bytes) : Except Exit UserauthRequest := do
  let ch ← packetparserUint8 b 0
  require (ch.1 = SSH_MSG_USERAUTH_REQUEST)
  let len ← packetparserUint32 b ch.2
  -- `len >= sizeof packet.name` ends the session.
  require (len.1.toNat < LOGIN_NAME_MAX + 1)
  let pos ← packetparserSkip b len.2 len.1.toNat
  let service ← packetparserString b pos
  require (slice b (service.2 - service.1) service.1 = ascii "ssh-connection")
  let method ← packetparserString b service.2
  return ⟨slice b len.2 len.1.toNat, slice b (method.2 - method.1) method.1, method.2⟩

/-- "publickey" up to the name of the key's algorithm. -/
structure PublickeyRequest where
  flagsignature : Bool
  algorithm : Bytes
  pos : ℕ

def parsePublickeyRequest (b : Bytes) (pos : ℕ) : Except Exit PublickeyRequest := do
  let flagsignature ← packetparserUint8 b pos
  let algorithm ← packetparserString b flagsignature.2
  require (b.getD algorithm.2 0 = 0)
  return ⟨flagsignature.1 ≠ 0, slice b (algorithm.2 - algorithm.1) algorithm.1, algorithm.2⟩

/-- The public key blob: the key, and the position behind the blob. -/
def parsePublickeyBlob (b : Bytes) (pos : ℕ) : Except Exit (Vector UInt8 32 × ℕ) := do
  let blob ← packetparserString b pos
  let pk ← ed25519Parsesignpk (slice b (blob.2 - blob.1) blob.1)
  match pk with
  | none => bugProto
  | some pk => return (pk, blob.2)

/-- The signature blob, which ends the packet: the signature, and the packet without the blob. -/
def parseSignatureBlob (b : Bytes) (pos : ℕ) : Except Exit (Vector UInt8 64 × Bytes) := do
  let blob ← packetparserString b pos
  let sig ← ed25519Parsesignature (slice b (blob.2 - blob.1) blob.1)
  match sig with
  | none => bugProto
  | some sig => do
    let _ ← packetparserEnd b blob.2
    return (sig, b.take (b.length - (blob.1 + 4)))

/-- The loop over `sshcrypto_keys`: the first row for clients with that name. -/
def findClientKey (algorithm : Bytes) : List SshcryptoKey → Option SshcryptoKey
  | [] => none
  | r :: t =>
    match r.name with
    | none => none
    | some n =>
      if r.signFlagclient ≠ 0 ∧ algorithm = n then some r else findClientKey algorithm t

/-- The row has every function that is needed. -/
def SshcryptoKey.complete (r : SshcryptoKey) : Bool :=
  r.signOpen.isSome && r.parsesignpk.isSome && r.bufPutsignpk.isSome &&
    r.bufPutsignpkbase64.isSome && r.parsesignature.isSome

/-! ## 3. `port_auth.c` -/

/-- `findnameandkey` on the line `x`, which ends at its first zero byte. -/
def findnameandkey (keyname key x : Bytes) : Bool :=
  if !keyname.isPrefixOf x then false
  else if (x.drop keyname.length).headD 0 ≠ 0x20 then false
  else
    let x := x.drop (keyname.length + 1)
    if !key.isPrefixOf x then false
    else [0x20, 0x0a, 0x0d, 0].contains ((x.drop key.length).headD 0)

/-- What the flash memory holds as "authorized_key". -/
inductive NvsLine where
  /-- `nvs_open` fails. -/
  | closed
  | line (x : Bytes)
  /-- `nvs_get_str` fails: no entry, or one that does not fit. -/
  | failed

/-- `subprocess_auth`. -/
def subprocessAuth (nvs : NvsLine) (keyname key : Bytes) : ℤ :=
  match nvs with
  | .closed => -1
  | .failed => 111
  | .line x => if findnameandkey keyname key x then 0 else 111

/-! ## 4. What is put -/

namespace Buf

/-- A sequence of calls that appends `x` if it returns. -/
def Puts (f : Buf → Except Exit Buf) (x : Bytes) : Prop :=
  ∀ b b' : Buf, f b = .ok b' → b'.data = b.data ++ x

theorem Puts.bind {f g : Buf → Except Exit Buf} {x y : Bytes} (hf : Puts f x) (hg : Puts g y) :
    Puts (fun b => f b >>= g) (x ++ y) := by
  intro b b' h
  obtain ⟨c, hc, hb'⟩ := Prog.except_bind_ok h
  rw [hg c b' hb', hf b c hc, List.append_assoc]

theorem puts : Composes Puts where
  put x := by
    intro b b' h
    rw [(put_ok h).1]
  nil := by
    intro b b' h
    cases h
    exact (List.append_nil _).symm
  bind := Puts.bind

/-- Into a buffer that was purged. -/
theorem Puts.of_purge {f : Buf → Except Exit Buf} {x : Bytes} (hf : Puts f x) {b b' : Buf}
    (h : (b.purge >>= f) = .ok b') : b'.data = x := by
  obtain ⟨c, hc, hb'⟩ := Prog.except_bind_ok h
  rw [purge] at hc
  split at hc
  · cases hc
    exact hf _ b' hb'
  · cases hc

end Buf

/-! ## 5. The lengths of what is put -/

namespace Buf

/-- A sequence of calls that appends at most `n` bytes where there is room for them. -/
def AppendsUpTo (f : Buf → Except Exit Buf) (n : ℕ) : Prop :=
  ∀ b : Buf, b.Ok → b.data.length + n < b.alloc →
    ∃ x : Bytes, x.length ≤ n ∧ f b = .ok { b with data := b.data ++ x }

theorem Appends.upTo {f : Buf → Except Exit Buf} {x : Bytes} {n : ℕ} (h : Appends f x)
    (hn : x.length ≤ n) : AppendsUpTo f n :=
  fun b hb hroom => ⟨x, hn, h b hb (by omega)⟩

theorem AppendsUpTo.bind {f g : Buf → Except Exit Buf} {m n : ℕ} (hf : AppendsUpTo f m)
    (hg : AppendsUpTo g n) : AppendsUpTo (fun b => f b >>= g) (m + n) := by
  intro b hb hroom
  obtain ⟨x, hx, hfb⟩ := hf b hb (by omega)
  have hok := hb.append (x := x) (by omega)
  obtain ⟨y, hy, hgb⟩ := hg _ hok (by simp only [List.length_append]; omega)
  refine ⟨x ++ y, by rw [List.length_append]; omega, ?_⟩
  simp only [hfb]
  change g { b with data := b.data ++ x } = _
  rw [hgb, List.append_assoc]

theorem AppendsUpTo.mono {f : Buf → Except Exit Buf} {m n : ℕ} (h : AppendsUpTo f m) (hmn : m ≤ n) :
    AppendsUpTo f n := by
  intro b hb hroom
  obtain ⟨x, hx, hfb⟩ := h b hb (by omega)
  exact ⟨x, by omega, hfb⟩

theorem AppendsUpTo.ite {c : Prop} [Decidable c] {f g : Buf → Except Exit Buf} {n : ℕ}
    (hf : AppendsUpTo f n) (hg : AppendsUpTo g n) :
    AppendsUpTo (fun b => if c then f b else g b) n := by
  intro b hb hroom
  by_cases hc : c
  · simpa only [if_pos hc] using hf b hb hroom
  · simpa only [if_neg hc] using hg b hb hroom

theorem upTo_put {x : Bytes} {n : ℕ} (hn : x.length ≤ n) : AppendsUpTo (fun b => b.put x) n :=
  (appends.put x).upTo hn

theorem upTo_putNum8 (u : UInt8) : AppendsUpTo (fun b => b.putNum8 u) 1 :=
  (appends.putNum8 u).upTo (le_refl 1)

theorem upTo_putNum32 (x : UInt32) : AppendsUpTo (fun b => b.putNum32 x) 4 :=
  (appends.putNum32 x).upTo (by rw [length_beBytes])

theorem upTo_putStringLen {x : Bytes} {n : ℕ} (hn : x.length ≤ n) :
    AppendsUpTo (fun b => b.putStringLen x) (4 + n) :=
  (appends.putStringLen x).upTo (by rw [length_sshString]; omega)

end Buf

open Buf

/-- Every bit goes into a digit or is left. -/
theorem length_base64Digits (v : UInt64) (fuel bits : ℕ) :
    6 * (base64Digits v fuel bits).1.length + (base64Digits v fuel bits).2 = bits := by
  induction fuel generalizing bits with
  | zero => simp only [base64Digits, List.length_nil, Nat.mul_zero, Nat.zero_add]
  | succ fuel ih =>
    rw [base64Digits]
    split
    · have hrest := ih (bits - 6)
      simp only [List.length_cons]
      omega
    · simp only [List.length_nil, Nat.mul_zero, Nat.zero_add]

theorem length_base64Chars (l : Bytes) (v : UInt64) (bits : ℕ) :
    6 * (base64Chars l v bits).length ≤ 8 * l.length + bits + 5 := by
  induction l generalizing v bits with
  | nil =>
    rw [base64Chars]
    split
    · simp only [List.length_singleton, List.length_nil]
      omega
    · simp only [List.length_nil, Nat.mul_zero, Nat.zero_le]
  | cons x l ih =>
    have hdigits := length_base64Digits ((v <<< 8) + UInt64.ofNat x.toNat) (bits + 8) (bits + 8)
    have hrest := ih ((v <<< 8) + UInt64.ofNat x.toNat)
      (base64Digits ((v <<< 8) + UInt64.ofNat x.toNat) (bits + 8) (bits + 8)).2
    simp only [base64Chars, List.length_append, List.length_cons]
    omega

theorem upTo_putPadding : AppendsUpTo putPadding 3 := by
  intro b hb hroom
  have hlen : (List.replicate ((4 - b.data.length % 4) % 4) (0x3d : UInt8)).length ≤ 3 := by
    rw [List.length_replicate]
    omega
  exact ⟨_, hlen, hb.put (by omega)⟩

theorem upTo_putSharedsecret (x : Bytes) (len : ℕ) :
    AppendsUpTo (fun b => b.putSharedsecret x len) (5 + len) := by
  have hslice : (slice x ((x.take len).takeWhile (· = 0)).length
      (len - ((x.take len).takeWhile (· = 0)).length)).length ≤ len := by
    rw [slice, List.length_take]
    omega
  refine AppendsUpTo.ite ?_ ?_
  · exact ((upTo_putNum32 _).bind ((upTo_putNum8 0).bind (upTo_put hslice))).mono (by omega)
  · exact ((upTo_putNum32 _).bind (upTo_put hslice)).mono (by omega)

theorem upTo_putEd25519 {x : Bytes} {n : ℕ} (hn : x.length ≤ n) :
    AppendsUpTo (putEd25519 x) (23 + n) := by
  have hname : ed25519Name.length ≤ 11 := by decide
  exact ((upTo_putNum32 _).bind ((upTo_putStringLen hname).bind (upTo_putStringLen hn))).mono
    (by omega)

theorem upTo_ed25519Putsignpk (pk : Vector UInt8 32) : AppendsUpTo (ed25519Putsignpk pk) 55 :=
  upTo_putEd25519 (Vector.length_toList).le

theorem upTo_ed25519Putsignature (sm : Vector UInt8 64) :
    AppendsUpTo (ed25519Putsignature sm) 87 :=
  upTo_putEd25519 (Vector.length_toList).le

theorem upTo_ed25519Putsignpkbase64 (pk : Vector UInt8 32) :
    AppendsUpTo (ed25519Putsignpkbase64 pk) 71 := by
  have hchars : (base64Chars ([0, 0, 0, 11] ++ ed25519Name ++ [0, 0, 0, 32] ++ pk.toList) 0
      0).length ≤ 68 := by
    have hlen := length_base64Chars ([0, 0, 0, 11] ++ ed25519Name ++ [0, 0, 0, 32] ++ pk.toList) 0 0
    have hname : ed25519Name.length = 11 := by decide
    simp only [List.length_append, List.length_cons, List.length_nil, hname,
      Vector.length_toList] at hlen
    omega
  exact (upTo_put hchars).bind upTo_putPadding

end Glossh.Ssh
