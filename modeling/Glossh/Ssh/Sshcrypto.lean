/-
# `sshcrypto.c` and its tables: key exchanges, host keys, ciphers

Three static tables, each ended by a row whose name is NULL, and the globals that hold the
algorithm selected from each.  The loops over a table (`forRows`, `findRow`, `putNames`) are the
same for all three and stop at the first row without a name.

`sshcrypto_purge` zeroes the rows themselves.  A table is `Purged` when every row is zero, and
then no loop enters it again; the globals of a selection are not touched by it.
-/
import Glossh.Lib.Prog
import Glossh.Ssh.Packetparser

namespace Glossh.Ssh

open Bytes

/-! ## 1. The tables -/

/-- The functions the tables name. -/
inductive Fn where
  | curve25519_enc
  | curve25519_putkemkey
  | crypto_kem_sntrup761x25519_enc
  | sntrup761x25519_putkemkey
  | crypto_hash_sha256
  | crypto_hash_sha512
  | crypto_sign_ed25519
  | crypto_sign_ed25519_open
  | crypto_sign_ed25519_keypair
  | ed25519_putsignature
  | ed25519_putsignpk
  | ed25519_putsignpkbase64
  | ed25519_parsesignature
  | ed25519_parsesignpk
  | crypto_stream_chacha20_xor
  | crypto_onetimeauth_poly1305
  | chachapoly_packet_put
  | chachapoly_packet_get
deriving DecidableEq

def sshcrypto_TYPENEWCRYPTO : UInt32 := 2
def sshcrypto_TYPEPQCRYPTO : UInt32 := 4

/-- `struct sshcrypto_kex`; a pointer that is NULL is `none`. -/
structure SshcryptoKex where
  name : Option Bytes
  enc : Option Fn
  kemPublickeybytes : ℕ
  kemCiphertextbytes : ℕ
  kemBytes : ℕ
  hash : Option Fn
  hashBytes : ℕ
  bufPutkemkey : Option Fn
  cryptotype : UInt32
  flagenabled : UInt32
deriving DecidableEq

/-- `struct sshcrypto_key`. -/
structure SshcryptoKey where
  name : Option Bytes
  sign : Option Fn
  signOpen : Option Fn
  signKeypair : Option Fn
  signPublickey : Bytes
  signPublickeybytes : ℕ
  signSecretkeybytes : ℕ
  signBytes : ℕ
  signPublickeyfilename : Option Bytes
  signSecretkeyfilename : Option Bytes
  cryptotype : UInt32
  signFlagserver : UInt32
  signFlagclient : UInt32
  bufPutsignature : Option Fn
  bufPutsignpk : Option Fn
  bufPutsignpkbase64 : Option Fn
  parsesignature : Option Fn
  parsesignpk : Option Fn
deriving DecidableEq

/-- `struct sshcrypto_cipher`. -/
structure SshcryptoCipher where
  name : Option Bytes
  streamXor : Option Fn
  auth : Option Fn
  streamKeybytes : ℕ
  cipherBlockbytes : ℕ
  authBytes : ℕ
  packetPut : Option Fn
  packetGet : Option Fn
  cryptotype : UInt32
  flagenabled : UInt32
deriving DecidableEq

def curve25519Row (name : String) : SshcryptoKex where
  name := some (ascii name)
  enc := some .curve25519_enc
  kemPublickeybytes := 32
  kemCiphertextbytes := 32
  kemBytes := 32
  hash := some .crypto_hash_sha256
  hashBytes := 32
  bufPutkemkey := some .curve25519_putkemkey
  cryptotype := sshcrypto_TYPENEWCRYPTO
  flagenabled := 0

/-- `sshcrypto_kexs`, without its last row. -/
def sshcryptoKexs : List SshcryptoKex :=
  [curve25519Row "curve25519-sha256", curve25519Row "curve25519-sha256@libssh.org",
    { name := some (ascii "sntrup761x25519-sha512@openssh.com")
      enc := some .crypto_kem_sntrup761x25519_enc
      kemPublickeybytes := 1190
      kemCiphertextbytes := 1071
      kemBytes := 64
      hash := some .crypto_hash_sha512
      hashBytes := 64
      bufPutkemkey := some .sntrup761x25519_putkemkey
      cryptotype := sshcrypto_TYPEPQCRYPTO
      flagenabled := 0 }]

/-- `sshcrypto_keys`, without its last row. -/
def sshcryptoKeys : List SshcryptoKey :=
  [{ name := some (ascii "ssh-ed25519")
     sign := some .crypto_sign_ed25519
     signOpen := some .crypto_sign_ed25519_open
     signKeypair := some .crypto_sign_ed25519_keypair
     signPublickey := List.replicate 32 0
     signPublickeybytes := 32
     signSecretkeybytes := 64
     signBytes := 64
     signPublickeyfilename := some (ascii "ed25519.pk")
     signSecretkeyfilename := some (ascii ".ed25519.sk")
     cryptotype := sshcrypto_TYPENEWCRYPTO
     signFlagserver := 0
     signFlagclient := 0
     bufPutsignature := some .ed25519_putsignature
     bufPutsignpk := some .ed25519_putsignpk
     bufPutsignpkbase64 := some .ed25519_putsignpkbase64
     parsesignature := some .ed25519_parsesignature
     parsesignpk := some .ed25519_parsesignpk }]

/-- `sshcrypto_ciphers`, without its last row. -/
def sshcryptoCiphers : List SshcryptoCipher :=
  [{ name := some (ascii "chacha20-poly1305@openssh.com")
     streamXor := some .crypto_stream_chacha20_xor
     auth := some .crypto_onetimeauth_poly1305
     streamKeybytes := 64
     cipherBlockbytes := 8
     authBytes := 16
     packetPut := some .chachapoly_packet_put
     packetGet := some .chachapoly_packet_get
     cryptotype := sshcrypto_TYPENEWCRYPTO ||| sshcrypto_TYPEPQCRYPTO
     flagenabled := 0 }]

/-! ## 2. The loops over a table -/

/-- What the loops use of a row: its name, the flag they test, and the row `purge` leaves. -/
class AlgRow (α : Type) where
  name : α → Option Bytes
  enabled : α → Bool
  zero : α
  name_zero : name zero = none

instance algRowKex : AlgRow SshcryptoKex where
  name r := r.name
  enabled r := r.flagenabled ≠ 0
  zero := ⟨none, none, 0, 0, 0, none, 0, none, 0, 0⟩
  name_zero := rfl

/-- The server's own keys: the flag is `sign_flagserver`. -/
instance algRowKey : AlgRow SshcryptoKey where
  name r := r.name
  enabled r := r.signFlagserver ≠ 0
  zero := ⟨none, none, none, none, List.replicate 32 0, 0, 0, 0, none, none, 0, 0, 0, none, none,
    none, none, none⟩
  name_zero := rfl

instance algRowCipher : AlgRow SshcryptoCipher where
  name r := r.name
  enabled r := r.flagenabled ≠ 0
  zero := ⟨none, none, none, 0, 0, 0, none, none, 0, 0⟩
  name_zero := rfl

section

variable {α : Type} [AlgRow α]

open AlgRow

/-- `for (i = 0; t[i].name; ++i) t[i] = f(t[i])`. -/
def forRows (f : α → α) : List α → List α
  | [] => []
  | r :: t =>
    match name r with
    | none => r :: t
    | some _ => f r :: forRows f t

/-- `for (i = 0; t[i].name; ++i) purge(&t[i], sizeof t[i])`. -/
def purgeRows (t : List α) : List α := forRows (fun _ => zero) t

/-- The inner loop of the selections: the first enabled row called `x`, with its index. -/
def findRow (x : Bytes) : ℕ → List α → Option (ℕ × α)
  | _, [] => none
  | i, r :: t =>
    match name r with
    | none => none
    | some n => if enabled r && x = n then some (i, r) else findRow x (i + 1) t

/-- The outer loop of the selections over the client's names: the guess flag and the row. -/
def selectLoop (t : List α) : UInt8 → List Bytes → UInt8 × Option (ℕ × α)
  | guess, [] => (guess, none)
  | guess, x :: xs =>
    match findRow x 0 t with
    | some r => (guess, some r)
    | none => selectLoop t 0 xs

/-- The names of the enabled rows. -/
def enabledNames : List α → List Bytes
  | [] => []
  | r :: t =>
    match name r with
    | none => []
    | some n => if enabled r then n :: enabledNames t else enabledNames t

/-- The first loop of `sshcrypto_*_put`: the length of the list, `j` names so far. -/
def namesLength : ℕ → ℕ → List Bytes → ℕ
  | _, len, [] => len
  | j, len, n :: ns => namesLength (j + 1) ((if j ≠ 0 then len + 1 else len) + n.length) ns

/-- The second loop: the names with commas between them. -/
def putNamesLoop : ℕ → List Bytes → Buf → Except Exit Buf
  | _, [], b => .ok b
  | j, n :: ns, b => do
    let b ← if j ≠ 0 then b.put [comma] else .ok b
    let b ← b.put n
    putNamesLoop (j + 1) ns b

/-- `sshcrypto_kex_put`, `sshcrypto_key_put` and `sshcrypto_cipher_put` on their tables. -/
def putNames (t : List α) (b : Buf) : Except Exit Buf := do
  let b ← b.putNum32 (UInt32.ofNat (namesLength 0 0 (enabledNames t)))
  putNamesLoop 0 (enabledNames t) b

/-- Names with commas between them, `j` names before them. -/
def joinNames : ℕ → List Bytes → Bytes
  | _, [] => []
  | j, n :: ns => (if j ≠ 0 then [comma] else []) ++ (n ++ joinNames (j + 1) ns)

/-- The list a table is offered as. -/
def nameList (t : List α) : Bytes := joinNames 0 (enabledNames t)

theorem namesLength_eq (j len : ℕ) (ns : List Bytes) :
    namesLength j len ns = len + (joinNames j ns).length := by
  induction ns generalizing j len with
  | nil => rfl
  | cons n ns ih =>
    rw [namesLength, ih, joinNames, List.length_append, List.length_append]
    by_cases hj : j ≠ 0
    · rw [if_pos hj, if_pos hj, List.length_singleton]
      omega
    · rw [if_neg hj, if_neg hj, List.length_nil]
      omega

section

variable {R : (Buf → Except Exit Buf) → Bytes → Prop} (h : Buf.Composes R)
include h

theorem putNamesLoop_composes (j : ℕ) (ns : List Bytes) :
    R (putNamesLoop j ns) (joinNames j ns) := by
  induction ns generalizing j with
  | nil => exact h.nil
  | cons n ns ih =>
    have hrest := h.bind (h.put n) (ih (j + 1))
    by_cases hj : j ≠ 0
    · have hall := h.bind (h.put [comma]) hrest
      simpa only [putNamesLoop, joinNames, if_pos hj] using hall
    · have hall := h.bind h.nil hrest
      simpa only [putNamesLoop, joinNames, if_neg hj] using hall

/-- A table is offered as the string of its enabled names. -/
theorem putNames_composes (t : List α) : R (putNames t) (sshString (nameList t)) := by
  have hlen : namesLength 0 0 (enabledNames t) = (nameList t).length := by
    rw [namesLength_eq, Nat.zero_add, nameList]
  have hput := h.bind (h.putLength (namesLength 0 0 (enabledNames t)))
    (putNamesLoop_composes h 0 (enabledNames t))
  rwa [show beBytes 4 (namesLength 0 0 (enabledNames t)) ++ joinNames 0 (enabledNames t) =
    sshString (nameList t) by rw [hlen]; rfl] at hput

end

/-! ## 3. Whole and purged tables -/

/-- Every row has a name. -/
def Named (t : List α) : Prop := ∀ r ∈ t, ∃ n, name r = some n

/-- Every row was zeroed. -/
def Purged (t : List α) : Prop := ∀ r ∈ t, r = zero

/-- A table as any number of sessions leaves it. -/
def Whole (t : List α) : Prop := Named t ∨ Purged t

/-- No loop enters a purged table. -/
theorem forRows_of_purged (f : α → α) {t : List α} (h : Purged t) : forRows f t = t := by
  cases t with
  | nil => rfl
  | cons r t =>
    have hname : name r = none := by rw [h r (List.mem_cons_self ..), name_zero]
    rw [forRows, hname]

theorem takeWhile_of_purged {t : List α} (h : Purged t) :
    t.takeWhile (fun r => (name r).isSome) = [] := by
  cases t with
  | nil => rfl
  | cons r t =>
    have hname : name r = none := by rw [h r (List.mem_cons_self ..), name_zero]
    rw [List.takeWhile_cons, hname]
    rfl

theorem findRow_of_purged (x : Bytes) (i : ℕ) {t : List α} (h : Purged t) :
    findRow x i t = none := by
  cases t with
  | nil => rfl
  | cons r t =>
    have hname : name r = none := by rw [h r (List.mem_cons_self ..), name_zero]
    rw [findRow, hname]

theorem enabledNames_of_purged {t : List α} (h : Purged t) : enabledNames t = [] := by
  cases t with
  | nil => rfl
  | cons r t =>
    have hname : name r = none := by rw [h r (List.mem_cons_self ..), name_zero]
    rw [enabledNames, hname]

/-- Nothing can be selected from a purged table. -/
theorem selectLoop_of_purged {t : List α} (h : Purged t) (guess : UInt8) (l : List Bytes) :
    (selectLoop t guess l).2 = none := by
  induction l generalizing guess with
  | nil => rfl
  | cons x xs ih => rw [selectLoop, findRow_of_purged x 0 h, ih]

/-- A loop that leaves the names alone keeps a table whole. -/
theorem Named.forRows {f : α → α} (hf : ∀ r, name (f r) = name r) {t : List α} (h : Named t) :
    Named (forRows f t) := by
  induction t with
  | nil => exact h
  | cons r t ih =>
    obtain ⟨n, hn⟩ := h r (List.mem_cons_self ..)
    have ht := ih fun r' hr' => h r' (List.mem_cons_of_mem r hr')
    rw [Ssh.forRows, hn]
    intro r' hr'
    rcases List.mem_cons.mp hr' with rfl | hmem
    · exact ⟨n, by rw [hf, hn]⟩
    · exact ht r' hmem

theorem Whole.forRows {f : α → α} (hf : ∀ r, name (f r) = name r) {t : List α} (h : Whole t) :
    Whole (forRows f t) := by
  rcases h with hn | hp
  · exact .inl (hn.forRows hf)
  · rw [forRows_of_purged f hp]
    exact .inr hp

/-- **After its purge a table is zero throughout.** -/
theorem purgeRows_purged {t : List α} (h : Whole t) : Purged (purgeRows t) := by
  rcases h with hn | hp
  · induction t with
    | nil => exact fun _ hr => absurd hr List.not_mem_nil
    | cons r t ih =>
      obtain ⟨n, hname⟩ := hn r (List.mem_cons_self ..)
      have ht := ih fun r' hr' => hn r' (List.mem_cons_of_mem r hr')
      rw [purgeRows, Ssh.forRows, hname]
      intro r' hr'
      rcases List.mem_cons.mp hr' with rfl | hmem
      · rfl
      · exact ht r' hmem
  · rw [purgeRows, forRows_of_purged _ hp]
    exact hp

/-- A table with a name in it is not purged. -/
theorem not_purged_of_named {r : α} {t : List α} {n : Bytes} (hn : name r = some n) :
    ¬ Purged (r :: t) := by
  intro hp
  rw [hp r (List.mem_cons_self ..), name_zero] at hn
  cases hn

end

end Glossh.Ssh
