/-
# What a KEXINIT and the algorithms can come to

The tables only ever lose names, so the lists that are offered are never longer than those of the
tables as they are linked, and whatever is selected has the sizes of one of their rows.  That
bounds `kexsend`, and the keys and hashes of `packet_kexdh`, in the first session and in every
later one.
-/
import Mathlib.Algebra.BigOperators.Group.List.Basic
import Mathlib.Algebra.Ring.Nat
import Glossh.Ssh.Session

namespace Glossh.Ssh

open Bytes AlgRow Prog

/-! ## 1. Names

`nameRoom` of a table bounds the list that is offered of it, and no loop over the rows makes it
larger: purging zeroes rows, and enabling and reading keys leave the names. -/

section

variable {α : Type} [AlgRow α]

/-- The bytes of all names, with a comma for each. -/
def nameRoom (t : List α) : ℕ := (t.map fun r => ((name r).getD []).length + 1).sum

theorem nameRoom_cons (r : α) (t : List α) :
    nameRoom (r :: t) = ((name r).getD []).length + 1 + nameRoom t := by
  rw [nameRoom, List.map_cons, List.sum_cons, nameRoom]

/-- A comma is put in front of every name but the first, so one for each is enough. -/
theorem length_joinNames (j : ℕ) (ns : List Bytes) :
    (joinNames j ns).length ≤ (ns.map fun n => n.length + 1).sum := by
  induction ns generalizing j with
  | nil => exact le_refl 0
  | cons n ns ih =>
    have hrest := ih (j + 1)
    have hcomma : (if j ≠ 0 then [comma] else []).length ≤ 1 := by
      split
      · exact le_refl 1
      · exact Nat.zero_le 1
    rw [joinNames, List.length_append, List.length_append, List.map_cons, List.sum_cons]
    omega

/-- The list that is offered. -/
theorem length_nameList_le (t : List α) : (nameList t).length ≤ nameRoom t := by
  have hnames : ((enabledNames t).map fun n => n.length + 1).sum ≤ nameRoom t := by
    induction t with
    | nil => exact le_refl 0
    | cons r t ih =>
      rw [nameRoom_cons, enabledNames]
      cases hn : name r with
      | none => exact Nat.zero_le _
      | some n =>
        dsimp only
        split
        · rw [List.map_cons, List.sum_cons, Option.getD_some]
          omega
        · omega
  exact (length_joinNames 0 _).trans hnames

/-- A single name is bounded by the table it stands in. -/
theorem le_nameRoom {t : List α} {r : α} (h : r ∈ t) :
    ((name r).getD []).length + 1 ≤ nameRoom t := by
  induction t with
  | nil => cases h
  | cons r' t ih =>
    rw [nameRoom_cons]
    rcases List.mem_cons.mp h with rfl | h
    · omega
    · have hrest := ih h
      omega

/-- A loop over the rows that lengthens no name. -/
theorem nameRoom_forRows {f : α → α}
    (hf : ∀ r, ((name (f r)).getD []).length ≤ ((name r).getD []).length) (t : List α) :
    nameRoom (forRows f t) ≤ nameRoom t := by
  induction t with
  | nil => exact le_refl _
  | cons r t ih =>
    rw [forRows]
    cases hn : name r with
    | none => exact le_refl _
    | some n =>
      have hr := hf r
      simp only [nameRoom_cons]
      omega

/-- Purging takes names away. -/
theorem nameRoom_purgeRows (t : List α) : nameRoom (purgeRows t) ≤ nameRoom t := by
  refine nameRoom_forRows (fun r => ?_) t
  rw [name_zero]
  exact Nat.zero_le _

/-- What the loops write, all rows satisfy. -/
theorem forall_forRows {p : α → Prop} {f : α → α} (hf : ∀ r, p r → p (f r)) {t : List α}
    (h : ∀ r ∈ t, p r) : ∀ r ∈ forRows f t, p r := by
  induction t with
  | nil => exact h
  | cons r t ih =>
    rw [forRows]
    cases hn : name r with
    | none => exact h
    | some n =>
      intro x hx
      rcases List.mem_cons.mp hx with rfl | hx
      · exact hf r (h r List.mem_cons_self)
      · exact ih (fun r' hr' => h r' (List.mem_cons_of_mem r hr')) x hx

/-- A row that is found is one of the table. -/
theorem findRow_mem {x : Bytes} {i : ℕ} {t : List α} {found : ℕ × α}
    (h : findRow x i t = some found) : found.2 ∈ t := by
  induction t generalizing i with
  | nil => cases h
  | cons r t ih =>
    rw [findRow] at h
    split at h
    · cases h
    · split at h
      · cases h
        exact List.mem_cons_self
      · exact List.mem_cons_of_mem r (ih h)

/-- What is selected is a row of the table. -/
theorem selectLoop_mem {t : List α} {guess : UInt8} {l : List Bytes} {found : ℕ × α}
    (h : (selectLoop t guess l).2 = some found) : found.2 ∈ t := by
  induction l generalizing guess with
  | nil => cases h
  | cons x xs ih =>
    rw [selectLoop] at h
    split at h
    · rename_i r hr
      cases h
      exact findRow_mem hr
    · exact ih h

end

/-- Host keys are read into the rows of the table; the names stay, wherever the loop ends. -/
theorem nameRoom_readPublicKeys (loads : ℕ → LoadAnswer) (i : ℕ) (t : List SshcryptoKey) :
    nameRoom (readPublicKeys loads i t).2 = nameRoom t := by
  have hcons : ∀ (r r' : SshcryptoKey) (t t' : List SshcryptoKey), r'.name = r.name →
      nameRoom t' = nameRoom t → nameRoom (r' :: t') = nameRoom (r :: t) := by
    intro r r' t t' hname ht
    have hsame : name r' = name r := hname
    rw [nameRoom_cons, nameRoom_cons, ht, hsame]
  induction t generalizing i with
  | nil => rfl
  | cons r t ih =>
    rw [readPublicKeys]
    split
    · rfl
    · split
      · exact hcons r r _ _ rfl (ih _)
      · split
        · exact hcons r _ _ _ rfl (ih _)
        · exact hcons r _ _ _ rfl (ih _)
        · exact hcons r _ _ _ rfl rfl

/-! ## 2. Sizes -/

/-- The sizes of the largest key exchange, and the hash functions with theirs.  A purged row has
none. -/
structure KexGlobals.Bounded (g : KexGlobals) : Prop where
  kemPublickeybytes_le : g.kemPublickeybytes ≤ 1190
  kemCiphertextbytes_le : g.kemCiphertextbytes ≤ 1071
  hashBytes_le : g.hashBytes ≤ 64
  hash : g.hash = none ∧ g.hashBytes = 0 ∨ g.hash = some .crypto_hash_sha256 ∧ g.hashBytes = 32 ∨
    g.hash = some .crypto_hash_sha512 ∧ g.hashBytes = 64

/-- A hash function is known by the length of its hashes. -/
theorem KexGlobals.Bounded.hash_eq {g g' : KexGlobals} (h : g.Bounded) (h' : g'.Bounded)
    (hbytes : g.hashBytes = g'.hashBytes) : g.hash = g'.hash := by
  rcases h.hash with ⟨hg, hn⟩ | ⟨hg, hn⟩ | ⟨hg, hn⟩ <;>
    rcases h'.hash with ⟨hg', hn'⟩ | ⟨hg', hn'⟩ | ⟨hg', hn'⟩ <;>
    first
      | exact hg.trans hg'.symm
      | omega

/-- The algorithm state as any number of sessions leaves it. -/
structure Sshcrypto.Bounded (c : Sshcrypto) : Prop where
  kex : c.kex.Bounded
  rows : ∀ r ∈ c.kexs, (KexGlobals.ofRow r).Bounded
  kexs_le : nameRoom c.kexs ≤ 82
  keys_le : nameRoom c.keys ≤ 12
  ciphers_le : nameRoom c.ciphers ≤ 30

namespace Sshcrypto.Bounded

/-- The tables as they are linked. -/
theorem boot : bootSshcrypto.Bounded where
  kex := ⟨by decide, by decide, by decide, .inl ⟨rfl, rfl⟩⟩
  rows := by
    intro r hr
    simp only [bootSshcrypto, sshcryptoKexs, List.mem_cons, List.not_mem_nil, or_false] at hr
    rcases hr with rfl | rfl | rfl
    · exact ⟨by decide, by decide, by decide, .inr (.inl ⟨rfl, rfl⟩)⟩
    · exact ⟨by decide, by decide, by decide, .inr (.inl ⟨rfl, rfl⟩)⟩
    · exact ⟨by decide, by decide, by decide, .inr (.inr ⟨rfl, rfl⟩)⟩
  kexs_le := by decide
  keys_le := by decide
  ciphers_le := by decide

variable {c : Sshcrypto}

/-- `sshcrypto_init` sets flags. -/
theorem enableAlgorithms (h : c.Bounded) : (enableAlgorithms c).Bounded where
  kex := h.kex
  rows := forall_forRows (fun _ hr => ⟨hr.1, hr.2, hr.3, hr.4⟩) h.rows
  kexs_le := (nameRoom_forRows (by intro r; exact le_refl _) _).trans h.kexs_le
  keys_le := (nameRoom_forRows (by intro r; exact le_refl _) _).trans
    ((nameRoom_forRows (by intro r; exact le_refl _) _).trans h.keys_le)
  ciphers_le := (nameRoom_forRows (by intro r; exact le_refl _) _).trans h.ciphers_le

/-- The host keys have a place of their own in each row. -/
theorem readPublicKeys (h : c.Bounded) (loads : ℕ → LoadAnswer) :
    Bounded { c with keys := (readPublicKeys loads 0 c.keys).2 } where
  kex := h.kex
  rows := h.rows
  kexs_le := h.kexs_le
  keys_le := (nameRoom_readPublicKeys loads 0 c.keys).le.trans h.keys_le
  ciphers_le := h.ciphers_le

/-- The end of a session zeroes rows; the selected algorithms are left as they were. -/
theorem sshcryptoPurge (h : c.Bounded) : (sshcryptoPurge c).Bounded where
  kex := h.kex
  rows := forall_forRows (fun _ _ => ⟨Nat.zero_le _, Nat.zero_le _, Nat.zero_le _,
    .inl ⟨rfl, rfl⟩⟩) h.rows
  kexs_le := (nameRoom_purgeRows _).trans h.kexs_le
  keys_le := (nameRoom_purgeRows _).trans h.keys_le
  ciphers_le := (nameRoom_purgeRows _).trans h.ciphers_le

end Sshcrypto.Bounded

/-! ## 3. `kexsend` -/

/-- The fixed part of a KEXINIT and three lists, the last of them twice. -/
theorem length_kexinitBytes (cookie : Vector UInt8 16) (kexs keys ciphers : Bytes) :
    (kexinitBytes cookie kexs keys ciphers).length =
      96 + kexs.length + keys.length + 2 * ciphers.length := by
  have hmac : (ascii "hmac-sha2-256").length = 13 := by decide
  have hnone : (ascii "none").length = 4 := by decide
  simp only [kexinitBytes, List.length_append, length_sshString, List.length_singleton,
    List.length_nil, Vector.length_toList, length_beBytes, hmac, hnone]
  omega

/-- The algorithm state of a session, and the KEXINIT it sent. -/
structure KexState.Bounded (s : KexState) : Prop where
  crypto : s.crypto.Bounded
  kexsend_alloc : s.kexsend.alloc = 1024
  kexsend_length : s.kexsend.data.length ≤ 250

/-- `kexsend` has room for every KEXINIT. -/
theorem KexState.Bounded.kexinitPacket {s : KexState} (h : s.Bounded) (cookie : Vector UInt8 16) :
    ∃ y : Bytes, y.length ≤ 250 ∧
      kexinitPacket s.crypto cookie s.kexsend = .ok { s.kexsend with data := y } := by
  have hkexs := (length_nameList_le s.crypto.kexs).trans h.crypto.kexs_le
  have hkeys := (length_nameList_le s.crypto.keys).trans h.crypto.keys_le
  have hciphers := (length_nameList_le s.crypto.ciphers).trans h.crypto.ciphers_le
  have halloc := h.kexsend_alloc
  have hlength := h.kexsend_length
  have hB : BUF_MAX = 1073741824 := rfl
  have hok : s.kexsend.Ok := ⟨by omega, by omega⟩
  refine ⟨_, ?_, kexinitPacket_eq s.crypto cookie hok (by omega)⟩
  rw [length_kexinitBytes]
  omega

/-- `bug_nomem`. -/
abbrev nomem : Exit := .bug .ENOMEM

/-- So `packet_kex_send` never ends in `bug_nomem`. -/
theorem triple_packetKexSend (cookie : Vector UInt8 16) (sent : Bool) :
    Triple KexState.Bounded (packetKexSend cookie sent) (fun _ => KexState.Bounded)
      (fun e s => s.Bounded ∧ e ≠ nomem) := by
  constructor
  intro s hs
  obtain ⟨y, hy, hpacket⟩ := hs.kexinitPacket cookie
  rw [exec_packetKexSend sent hpacket]
  exact ⟨hs.crypto, hs.kexsend_alloc, hy⟩

/-! ## 4. The packets of the client

None of this code allocates, so `bug_nomem` is not among its exits.  That is stated as `≠` for the
parsers, which do not work on a state, and as `Avoids` for the programs. -/

section

variable {α : Type} {b : Bytes} {pos : ℕ}

theorem bugProto_ne : (bugProto : Except Exit α) ≠ .error nomem := by
  intro h
  cases h

theorem bugInval_ne : (bugInval : Except Exit α) ≠ .error nomem := by
  intro h
  cases h

theorem ok_ne (a : α) : (.ok a : Except Exit α) ≠ .error nomem := by
  intro h
  cases h

/-- The parsers read, and what they read is either there or a protocol error. -/
theorem packetparserUint8_ne : packetparserUint8 b pos ≠ .error nomem := by
  unfold packetparserUint8
  split
  · split
    · exact bugProto_ne
    · exact ok_ne _
  · exact bugInval_ne

theorem packetparserUint32_ne : packetparserUint32 b pos ≠ .error nomem := by
  unfold packetparserUint32
  split
  · split
    · exact bugProto_ne
    · exact ok_ne _
  · exact bugInval_ne

theorem packetparserSkip_ne {n : ℕ} : packetparserSkip b pos n ≠ .error nomem := by
  unfold packetparserSkip
  split
  · split
    · exact bugProto_ne
    · exact ok_ne _
  · exact bugInval_ne

theorem packetparserEnd_ne : packetparserEnd b pos ≠ .error nomem := by
  unfold packetparserEnd
  split
  · split
    · exact bugProto_ne
    · exact ok_ne _
  · exact bugInval_ne

theorem packetparserString_ne : packetparserString b pos ≠ .error nomem :=
  except_bind_ne packetparserUint32_ne fun _ _ => except_bind_ne packetparserSkip_ne fun _ _ =>
    ok_ne _

end

/-- The lists of a KEXINIT that are skipped. -/
theorem kexReceiveTail_ne (b : Bytes) (pos : ℕ) : kexReceiveTail b pos ≠ .error nomem := by
  refine except_bind_ne packetparserString_ne fun _ _ => except_bind_ne packetparserString_ne
    fun _ _ => except_bind_ne packetparserString_ne fun _ _ => except_bind_ne packetparserString_ne
    fun _ _ => except_bind_ne packetparserString_ne fun _ _ => ?_
  exact except_bind_ne packetparserUint8_ne fun _ _ => except_bind_ne packetparserUint32_ne
    fun _ _ => except_bind_ne packetparserEnd_ne fun _ _ => ok_ne _

/-- A list that is not terminated is a protocol error too. -/
theorem checkTerminated_ne (next : UInt8) : checkTerminated next ≠ .error nomem := by
  unfold checkTerminated
  split
  · exact bugProto_ne
  · exact ok_ne _

/-- The three selections of a KEXINIT share the way to their list. -/
theorem avoids_selectNames {select : Bytes → UInt8 → Prog KexState Exit Bool}
    (h : ∀ buf next, Avoids nomem (select buf next)) (b : Bytes) (pos : ℕ) :
    Avoids nomem (selectNames b pos select) :=
  (avoids_check packetparserString_ne).bind fun _ => (h _ _).bind fun _ => avoids_pure _

/-- Whatever the client's KEXINIT is. -/
theorem avoids_packetKexReceive (kexrecv : Option Bytes) :
    Avoids nomem (packetKexReceive kexrecv) := by
  have hkex : ∀ buf next, Avoids nomem (sshcryptoKexSelect buf next) := by
    intro buf next
    refine (avoids_reads _).bind fun _ => (avoids_pure _).ite ?_
    refine (avoids_check (checkTerminated_ne next)).bind fun _ => (avoids_reads _).bind fun _ =>
      (avoids_modify _).bind fun _ => ?_
    split
    · exact avoids_pure _
    · exact (avoids_modify _).bind fun _ => avoids_pure _
  have hkey : ∀ buf next, Avoids nomem (sshcryptoKeySelect buf next) := by
    intro buf next
    refine (avoids_reads _).bind fun _ => (avoids_pure _).ite ?_
    refine (avoids_check (checkTerminated_ne next)).bind fun _ => (avoids_reads _).bind fun _ => ?_
    split
    · exact avoids_pure _
    · exact (avoids_modify _).bind fun _ => avoids_pure _
  have hcipher : ∀ buf next, Avoids nomem (sshcryptoCipherSelect buf next) := by
    intro buf next
    refine (avoids_reads _).bind fun _ => (avoids_pure _).ite ?_
    refine (avoids_check (checkTerminated_ne next)).bind fun _ => (avoids_reads _).bind fun _ => ?_
    split
    · exact avoids_pure _
    · exact (avoids_modify _).bind fun _ => avoids_pure _
  have hmac : ∀ buf next, Avoids nomem (sshcryptoCipherMacselect buf next) :=
    fun _ next => (avoids_check (checkTerminated_ne next)).bind fun _ => avoids_pure _
  cases kexrecv with
  | none => exact avoids_pure _
  | some b =>
    refine (avoids_check packetparserUint8_ne).bind fun _ => (avoids_throw (by decide)).ite ?_
    refine (avoids_check packetparserSkip_ne).bind fun _ => (avoids_selectNames hkex _ _).bind
      fun _ => (avoids_pure _).ite ?_
    refine (avoids_selectNames hkey _ _).bind fun _ => (avoids_pure _).ite ?_
    refine (avoids_selectNames hcipher _ _).bind fun _ => (avoids_pure _).ite ?_
    refine (avoids_check packetparserString_ne).bind fun _ => (avoids_selectNames hmac _ _).bind
      fun _ => (avoids_pure _).ite ?_
    exact (avoids_check (kexReceiveTail_ne _ _)).bind fun _ => (avoids_modify _).bind fun _ =>
      avoids_pure _

/-- **Whatever KEXINIT arrives**, the selected algorithms are rows of the tables, with the sizes of
such. -/
theorem triple_packetKexReceive (kexrecv : Option Bytes) :
    Triple KexState.Bounded (packetKexReceive kexrecv) (fun _ => KexState.Bounded)
      (fun e s => s.Bounded ∧ e ≠ nomem) := by
  refine (avoids_packetKexReceive kexrecv).triple ?_
  refine keeps_packetKexReceive (keeps_sshcryptoKexSelect ?_ ?_) (keeps_sshcryptoKeySelect ?_)
    (keeps_sshcryptoCipherSelect ?_) ?_ kexrecv
  · exact fun _ _ h => ⟨h.crypto, h.kexsend_alloc, h.kexsend_length⟩
  · intro s l i row h hfound
    have hrow := h.crypto.rows row (selectLoop_mem hfound)
    exact ⟨⟨hrow, h.crypto.rows, h.crypto.kexs_le, h.crypto.keys_le, h.crypto.ciphers_le⟩,
      h.kexsend_alloc, h.kexsend_length⟩
  · exact fun _ _ _ _ h _ => ⟨⟨h.crypto.kex, h.crypto.rows, h.crypto.kexs_le, h.crypto.keys_le,
      h.crypto.ciphers_le⟩, h.kexsend_alloc, h.kexsend_length⟩
  · exact fun _ _ _ _ h _ => ⟨⟨h.crypto.kex, h.crypto.rows, h.crypto.kexs_le, h.crypto.keys_le,
      h.crypto.ciphers_le⟩, h.kexsend_alloc, h.kexsend_length⟩
  · exact fun _ _ h => ⟨h.crypto, h.kexsend_alloc, h.kexsend_length⟩

/-- A host key that cannot be read ends the session with a message of its own. -/
theorem readPublicKeys_ne (loads : ℕ → LoadAnswer) (i : ℕ) (t : List SshcryptoKey) :
    (readPublicKeys loads i t).1 ≠ .error nomem := by
  induction t generalizing i with
  | nil => exact ok_ne _
  | cons r t ih =>
    rw [readPublicKeys]
    split
    · exact ok_ne _
    · split
      · exact ih _
      · split
        · exact ih _
        · exact ih _
        · exact fun h => by cases h

theorem sshcryptoInit_ne (c : Sshcrypto) : sshcryptoInit c ≠ .error nomem := by
  unfold sshcryptoInit
  split
  · exact bugInval_ne
  · split
    · exact bugInval_ne
    · split
      · exact bugInval_ne
      · exact ok_ne _

/-- The start of a session: flags and host keys. -/
theorem triple_startAlgorithms (env : SessionEnv) :
    Triple KexState.Bounded (startAlgorithms env) (fun _ => KexState.Bounded)
      (fun e s => s.Bounded ∧ e ≠ nomem) := by
  constructor
  intro s hs
  have hinit := sshcryptoInit_ne s.crypto
  rw [startAlgorithms, exec_reads_bind]
  cases h : sshcryptoInit s.crypto with
  | error e =>
    rw [exec_bind_error (exec_check _ _)]
    rw [h] at hinit
    exact ⟨hs, fun he => hinit (congrArg Except.error he)⟩
  | ok _ =>
    have hread := readPublicKeys_ne env.loads 0 (enableAlgorithms s.crypto).keys
    have hbounded := hs.crypto.enableAlgorithms.readPublicKeys env.loads
    rw [exec_check_bind rfl, exec_modify_bind, exec_reads_bind, exec_modify_bind, exec_check]
    dsimp only
    cases hr : (readPublicKeys env.loads 0 (enableAlgorithms s.crypto).keys).1 with
    | error e =>
      rw [hr] at hread
      exact ⟨⟨hbounded, hs.kexsend_alloc, hs.kexsend_length⟩,
        fun he => hread (congrArg Except.error he)⟩
    | ok _ => exact ⟨hbounded, hs.kexsend_alloc, hs.kexsend_length⟩

end Glossh.Ssh
