/-
# `port_load.c`: the host key pair in NVS

`load` as the program it is between its NVS calls: each call hands its answer to the rest of the
function.  Sessions run such programs against one flash memory, one NVS call at a time, in any
order, with calls that fail and with power losses; what a result assumes of the environment is a
condition on the steps of the run.

A session that has loaded a public key and later loads the secret key signs with it.  The two
belong together when they are the halves of one `KeyPair`: the secret key that
`crypto_sign_ed25519_keypair` writes ends with the public key.

`Stage.exec_cases` says what one call of a session does, wherever it is in `load`.
-/
import Glossh.Lib.Bytes
import Glossh.Lib.Run

namespace Glossh.Ssh

/-! ## 1. `load` -/

/-- The two entries of the namespace "ssh". -/
inductive NvsKey where
  | ed25519Pk
  | ed25519Sk
deriving DecidableEq

/-- What `crypto_sign_ed25519_keypair` writes: the secret key ends with the public key. -/
structure KeyPair where
  pk : Vector UInt8 32
  sk : Vector UInt8 64
  sk_pk : sk.toList.drop 32 = pk.toList

/-- The half of a pair that is stored under a key. -/
def KeyPair.blob (kp : KeyPair) : NvsKey → Bytes
  | .ed25519Pk => kp.pk.toList
  | .ed25519Sk => kp.sk.toList

/-- What `nvs_get_blob` reports. -/
inductive GetBlob where
  | found (blob : Bytes)
  | notFound
  | failed

/-- A call of `load` up to its next NVS call.  It is done with the bytes written to `x`, or with
-1. -/
inductive Load where
  | done (x : Option Bytes)
  | initNvs (k : Bool → Load)
  | nvsOpen (k : Bool → Load)
  | nvsGetBlob (key : NvsKey) (size : ℕ) (k : GetBlob → Load)
  | keypair (k : Option KeyPair → Load)
  | nvsSetBlob (key : NvsKey) (blob : Bytes) (k : Bool → Load)

/-- The key pair is generated and both halves are stored.  The two errors are only looked at for
a warning. -/
def loadStoreSk (key : NvsKey) (xlen : ℕ) (kp : KeyPair) : Load :=
  .nvsSetBlob .ed25519Sk kp.sk.toList fun _ => .done (some ((kp.blob key).take xlen))

@[inherit_doc loadStoreSk]
def loadStorePk (key : NvsKey) (xlen : ℕ) (kp : KeyPair) : Load :=
  .nvsSetBlob .ed25519Pk kp.pk.toList fun _ => loadStoreSk key xlen kp

/-- The branch `ESP_ERR_NVS_NOT_FOUND`. -/
def loadGenerate (key : NvsKey) (xlen : ℕ) : Load :=
  .keypair fun
    | none => .done none
    | some kp => loadStorePk key xlen kp

/-- `load` from `nvs_get_blob` on. -/
def loadBlob (key : NvsKey) (xlen : ℕ) : Load :=
  .nvsGetBlob key xlen fun
    | .found blob => .done (some blob)
    | .notFound => loadGenerate key xlen
    | .failed => .done none

/-- The NVS key of a file name. -/
def nvsKeyOf (fn : String) : Option NvsKey :=
  if fn = "ed25519.pk" then some .ed25519Pk
  else if fn = ".ed25519.sk" then some .ed25519Sk
  else none

/-- `load` from `nvs_open` on. -/
def loadOpen (fn : String) (xlen : ℕ) : Load :=
  .nvsOpen fun
    | true =>
      match nvsKeyOf fn with
      | some key => loadBlob key xlen
      | none => .done none
    | false => .done none

/-- `load`. -/
def load (fn : String) (xlen : ℕ) : Load :=
  .initNvs fun
    | true => loadOpen fn xlen
    | false => .done none

/-! ## 2. The flash memory -/

/-- The flash memory: the blobs, and the static variable of `init_nvs`. -/
structure Flash where
  blob : NvsKey → Option Bytes
  initialized : Bool

/-- The flash memory of a new chip. -/
def Flash.empty : Flash := { blob := fun _ => none, initialized := false }

/-- How a call turns out.  `erased` is an `nvs_flash_init` that finds no free pages or a new
version, whereupon `init_nvs` erases the flash and calls it again; with `erasedFail` the second call
fails. -/
inductive Answer where
  | ok
  | fail
  | erased
  | erasedFail
  | pair (kp : KeyPair)

/-- Storing a blob. -/
def Flash.set (f : Flash) (key : NvsKey) (blob : Bytes) : Flash :=
  { f with blob := fun k => if k = key then some blob else f.blob k }

/-- What `nvs_get_blob` reports when it does not fail. -/
def Flash.get (f : Flash) (key : NvsKey) (size : ℕ) : GetBlob :=
  match f.blob key with
  | none => .notFound
  | some blob => if blob.length ≤ size then .found blob else .failed

/-- One call of a program against the flash memory. -/
def Load.exec (f : Flash) : Load → Answer → Option (Flash × Load)
  | .initNvs k, a =>
    if f.initialized then some (f, k true)
    else
      match a with
      | .ok => some ({ f with initialized := true }, k true)
      | .erased => some ({ blob := fun _ => none, initialized := true }, k true)
      | .erasedFail => some ({ blob := fun _ => none, initialized := false }, k false)
      | .fail => some (f, k false)
      | .pair _ => none
  | .nvsOpen k, .ok => some (f, k true)
  | .nvsOpen k, .fail => some (f, k false)
  | .nvsGetBlob key size k, .ok => some (f, k (f.get key size))
  | .nvsGetBlob _ _ k, .fail => some (f, k .failed)
  | .keypair k, .pair kp => some (f, k (some kp))
  | .keypair k, .fail => some (f, k none)
  | .nvsSetBlob key blob k, .ok => some (f.set key blob, k true)
  | .nvsSetBlob _ _ k, .fail => some (f, k false)
  | _, _ => none

/-! ## 3. Sessions -/

/-- A session: the call of `load` it is in, the public key it has loaded and the secret key it
has loaded after it. -/
structure Session where
  call : Option (NvsKey × Load)
  pk : Option Bytes
  sk : Option Bytes

def Session.fresh : Session := { call := none, pk := none, sk := none }

/-- The file names of `sshcrypto_keys`. -/
def fileName : NvsKey → String
  | .ed25519Pk => "ed25519.pk"
  | .ed25519Sk => ".ed25519.sk"

/-- The lengths of `sshcrypto_keys`. -/
def fileBytes : NvsKey → ℕ
  | .ed25519Pk => 32
  | .ed25519Sk => 64

/-- A session enters `load`: `main_tinysshd` for its public key, `subprocess_sign` for the secret
key.  What it loads it does not have any more. -/
def Session.enter (s : Session) (key : NvsKey) : Session :=
  { call := some (key, load (fileName key) (fileBytes key))
    pk := if key = .ed25519Pk then none else s.pk
    sk := none }

/-- A session leaves `load`. -/
def Session.leave (s : Session) (key : NvsKey) (x : Option Bytes) : Session :=
  { call := none
    pk := if key = .ed25519Pk then x else s.pk
    sk := if key = .ed25519Sk then x else s.sk }

/-- The device: its flash memory and its sessions. -/
structure Device (S : Type) where
  flash : Flash
  session : S → Session

/-- A device that starts, with the flash memory it has. -/
def Device.boot (S : Type) (f : Flash) : Device S :=
  { flash := f, session := fun _ => .fresh }

/-- What happens on the device. -/
inductive Event (S : Type) where
  | enter (s : S) (key : NvsKey)
  | call (s : S) (a : Answer)
  | leave (s : S)
  | hangUp (s : S)
  | powerLoss

/-- One step of the device. -/
def Device.step {S : Type} [DecidableEq S] (d : Device S) : Event S → Option (Device S)
  | .enter s key =>
    match (d.session s).call with
    | none => some { d with session := Function.update d.session s ((d.session s).enter key) }
    | some _ => none
  | .call s a =>
    match (d.session s).call with
    | none => none
    | some (key, p) =>
      (p.exec d.flash a).map fun (f, p') =>
        { flash := f
          session := Function.update d.session s { d.session s with call := some (key, p') } }
  | .leave s =>
    match (d.session s).call with
    | some (key, .done x) =>
      some { d with session := Function.update d.session s ((d.session s).leave key x) }
    | _ => none
  | .hangUp s =>
    match (d.session s).call with
    | none => some { d with session := Function.update d.session s .fresh }
    | some _ => none
  | .powerLoss => some (.boot S { d.flash with initialized := false })

/-! ## 4. What one call can do -/

/-- Where a session is in `load`. -/
inductive Stage where
  | entered
  | opening
  | reading
  | generating
  | storingPk (kp : KeyPair)
  | storingSk (kp : KeyPair)
  | returning (x : Option Bytes)

/-- What is left of `load` there. -/
def Stage.prog (key : NvsKey) : Stage → Load
  | entered => load (fileName key) (fileBytes key)
  | opening => loadOpen (fileName key) (fileBytes key)
  | reading => loadBlob key (fileBytes key)
  | generating => loadGenerate key (fileBytes key)
  | storingPk kp => loadStorePk key (fileBytes key) kp
  | storingSk kp => loadStoreSk key (fileBytes key) kp
  | returning x => .done x

/-- One call of a session that is in `load`. -/
inductive StageStep (key : NvsKey) (f : Flash) : Stage → Answer → Flash → Stage → Prop
  | initDone {a : Answer} : f.initialized = true → StageStep key f .entered a f .opening
  | initOk : f.initialized = false →
    StageStep key f .entered .ok { f with initialized := true } .opening
  | initErased : f.initialized = false →
    StageStep key f .entered .erased { blob := fun _ => none, initialized := true } .opening
  | initErasedFail : f.initialized = false → StageStep key f .entered .erasedFail
      { blob := fun _ => none, initialized := false } (.returning none)
  | initFail : f.initialized = false → StageStep key f .entered .fail f (.returning none)
  | openOk : StageStep key f .opening .ok f .reading
  | openFail : StageStep key f .opening .fail f (.returning none)
  | getFound {b : Bytes} : f.blob key = some b →
    StageStep key f .reading .ok f (.returning (some b))
  | getLong : StageStep key f .reading .ok f (.returning none)
  | getNotFound : f.blob key = none → StageStep key f .reading .ok f .generating
  | getFail : StageStep key f .reading .fail f (.returning none)
  | pair (kp : KeyPair) : StageStep key f .generating (.pair kp) f (.storingPk kp)
  | pairFail : StageStep key f .generating .fail f (.returning none)
  | setPk {kp : KeyPair} :
    StageStep key f (.storingPk kp) .ok (f.set .ed25519Pk kp.pk.toList) (.storingSk kp)
  | setPkFail {kp : KeyPair} : StageStep key f (.storingPk kp) .fail f (.storingSk kp)
  | setSk {kp : KeyPair} :
    StageStep key f (.storingSk kp) .ok (f.set .ed25519Sk kp.sk.toList)
      (.returning (some (kp.blob key)))
  | setSkFail {kp : KeyPair} :
    StageStep key f (.storingSk kp) .fail f (.returning (some (kp.blob key)))

theorem nvsKeyOf_fileName (key : NvsKey) : nvsKeyOf (fileName key) = some key := by
  cases key <;> simp [nvsKeyOf, fileName]

/-- A whole half of the pair is handed out. -/
theorem take_blob (kp : KeyPair) (key : NvsKey) :
    (kp.blob key).take (fileBytes key) = kp.blob key := by
  cases key <;> exact List.take_of_length_le (by simp [KeyPair.blob, fileBytes])

/-- **What one call of `load` does**, wherever the session is in it. -/
theorem Stage.exec_cases {key : NvsKey} {st : Stage} {f f' : Flash} {a : Answer} {p' : Load}
    (h : (st.prog key).exec f a = some (f', p')) :
    ∃ st' : Stage, p' = st'.prog key ∧ StageStep key f st a f' st' := by
  cases st with
  | entered =>
    simp only [Stage.prog, load, Load.exec] at h
    split at h
    · rename_i hinit
      cases h
      exact ⟨.opening, rfl, .initDone hinit⟩
    · rename_i hinit
      have hinit' : f.initialized = false := Bool.eq_false_iff.mpr hinit
      cases a with
      | ok => cases h; exact ⟨.opening, rfl, .initOk hinit'⟩
      | erased => cases h; exact ⟨.opening, rfl, .initErased hinit'⟩
      | erasedFail => cases h; exact ⟨.returning none, rfl, .initErasedFail hinit'⟩
      | fail => cases h; exact ⟨.returning none, rfl, .initFail hinit'⟩
      | pair kp => cases h
  | opening =>
    cases a with
    | ok =>
      simp only [Stage.prog, loadOpen, Load.exec, nvsKeyOf_fileName] at h
      cases h
      exact ⟨.reading, rfl, .openOk⟩
    | fail => cases h; exact ⟨.returning none, rfl, .openFail⟩
    | erased => cases h
    | erasedFail => cases h
    | pair kp => cases h
  | reading =>
    cases a with
    | ok =>
      simp only [Stage.prog, loadBlob, Load.exec, Flash.get] at h
      cases hblob : f.blob key with
      | none =>
        rw [hblob] at h
        cases h
        exact ⟨.generating, rfl, .getNotFound hblob⟩
      | some b =>
        rw [hblob] at h
        by_cases hlen : b.length ≤ fileBytes key
        · simp only [hlen, if_true] at h
          cases h
          exact ⟨.returning (some b), rfl, .getFound hblob⟩
        · simp only [hlen, if_false] at h
          cases h
          exact ⟨.returning none, rfl, .getLong⟩
    | fail => cases h; exact ⟨.returning none, rfl, .getFail⟩
    | erased => cases h
    | erasedFail => cases h
    | pair kp => cases h
  | generating =>
    cases a with
    | pair kp => cases h; exact ⟨.storingPk kp, rfl, .pair kp⟩
    | fail => cases h; exact ⟨.returning none, rfl, .pairFail⟩
    | ok => cases h
    | erased => cases h
    | erasedFail => cases h
  | storingPk kp =>
    cases a with
    | ok => cases h; exact ⟨.storingSk kp, rfl, .setPk⟩
    | fail => cases h; exact ⟨.storingSk kp, rfl, .setPkFail⟩
    | erased => cases h
    | erasedFail => cases h
    | pair kp => cases h
  | storingSk kp =>
    have htake := take_blob kp key
    cases a with
    | ok =>
      cases h
      exact ⟨.returning (some (kp.blob key)), by rw [htake]; rfl, .setSk⟩
    | fail =>
      cases h
      exact ⟨.returning (some (kp.blob key)), by rw [htake]; rfl, .setSkFail⟩
    | erased => cases h
    | erasedFail => cases h
    | pair kp => cases h
  | returning x => cases a <;> cases h

/-! ## 5. Keys that belong together -/

/-- The two blobs are the halves of one generated pair. -/
def Match (pk sk : Bytes) : Prop := ∃ kp : KeyPair, kp.pk.toList = pk ∧ kp.sk.toList = sk

theorem match_pair (kp : KeyPair) : Match kp.pk.toList kp.sk.toList := ⟨kp, rfl, rfl⟩

section

variable {S : Type}

/-- **What a session signs with belongs to the public key it has loaded.** -/
def Device.Consistent (d : Device S) : Prop :=
  ∀ s pk sk, (d.session s).pk = some pk → (d.session s).sk = some sk → Match pk sk

variable [DecidableEq S]

/-- A call of `load` changes neither the keys of its session nor the other sessions. -/
theorem update_call (session : S → Session) (s s' : S) (c : Option (NvsKey × Load)) :
    (Function.update session s { session s with call := c } s').pk = (session s').pk ∧
      (Function.update session s { session s with call := c } s').sk = (session s').sk := by
  by_cases h : s' = s
  · subst h
    simp
  · simp [Function.update_of_ne h]

/-- What a call does to the device. -/
theorem Device.step_call {d d' : Device S} {s : S} {a : Answer} {key : NvsKey} {st : Stage}
    (hc : (d.session s).call = some (key, st.prog key)) (h : d.step (.call s a) = some d') :
    ∃ f st', StageStep key d.flash st a f st' ∧
      d' = { flash := f
             session := Function.update d.session s
               { d.session s with call := some (key, st'.prog key) } } := by
  simp only [Device.step, hc] at h
  obtain ⟨⟨f, p'⟩, hexec, rfl⟩ := Option.map_eq_some_iff.mp h
  obtain ⟨st', rfl, hstep⟩ := Stage.exec_cases hexec
  exact ⟨f, st', hstep, rfl⟩

/-- What leaving `load` does to the device. -/
theorem Device.step_leave {d d' : Device S} {s : S} (h : d.step (.leave s) = some d') :
    ∃ key x, (d.session s).call = some (key, .done x) ∧
      d' = { d with session := Function.update d.session s ((d.session s).leave key x) } := by
  simp only [Device.step] at h
  split at h
  · rename_i key x hc
    cases h
    exact ⟨key, x, hc, rfl⟩
  · cases h

end

/-- What a program waits for. -/
def Load.readsBlob : Load → Option NvsKey
  | .nvsGetBlob key _ _ => some key
  | _ => none

/-- A program that is about to store the secret key. -/
def Load.storesSk : Load → Bool
  | .nvsSetBlob .ed25519Sk _ _ => true
  | _ => false

/-- A program that is generating a pair: between `ESP_ERR_NVS_NOT_FOUND` and the store of the
secret key. -/
def Load.generates : Load → Bool
  | .keypair _ => true
  | .nvsSetBlob _ _ _ => true
  | _ => false

/-- A pair of constant blobs. -/
def constPair (b : UInt8) : KeyPair where
  pk := Vector.replicate 32 b
  sk := Vector.replicate 64 b
  sk_pk := rfl

end Glossh.Ssh
