/-
# Memory at the start of a session

`global_init` makes three allocations: the two `global_bspace` of 8192 bytes and
`struct tinyssh_packet`, which takes most of the memory of a connection.  None of them is looked at
where it is made.  The buffers are found missing at their first use, since every `buf_*` function
checks `!b->buf`; `packet`, which is `*packet_ptr`, is used without a check.

The functions between `global_init` and the first use of both buffers are modelled by what they do
with these three pointers.  Later ones need no model: the pointers stay as they are until
`global_purge`.
-/
import Glossh.Lib.Prog
import Glossh.Ssh.Buf

namespace Glossh.Ssh

open Prog

/-! ## 1. The pointers -/

/-- The pointers of a session, `none` for NULL, and the blocks that are allocated. -/
structure Globals where
  packetPtr : Option ℕ
  globalBspace1 : Option ℕ
  globalBspace2 : Option ℕ
  /-- `b1.buf` and `b2.buf`. -/
  b1 : Option ℕ
  b2 : Option ℕ
  blocks : List ℕ
deriving DecidableEq

namespace Globals

/-- A new task: its thread-local pointers are NULL. -/
def fresh : Globals := ⟨none, none, none, none, none, []⟩

end Globals

/-- How the start of a session ends early. -/
inductive StartExit where
  /-- `global_die`. -/
  | globalDie
  /-- An access through NULL, which resets the device. -/
  | nullAccess
deriving DecidableEq

abbrev StartM := Prog Globals StartExit

/-- `malloc`, where `ok` says whether there is memory: a block of its own. -/
def mallocBlock (ok : Bool) : StartM (Option ℕ) :=
  if ok then do
    let block ← reads fun g => g.blocks.length
    modify fun g => { g with blocks := block :: g.blocks }
    return some block
  else return none

/-- `if (p) { free(p); p = NULL; }` -/
def freeIfSet (p : Globals → Option ℕ) (clear : Globals → Globals) : StartM Unit := do
  let block ← reads p
  match block with
  | none => return ()
  | some block => modify fun g => clear { g with blocks := g.blocks.filter (· ≠ block) }

/-- `packet_purge`. -/
def packetPurge : StartM Unit := freeIfSet (·.packetPtr) fun g => { g with packetPtr := none }

/-- `global_purge`. -/
def globalPurge : StartM Unit := do
  packetPurge
  freeIfSet (·.globalBspace1) fun g => { g with globalBspace1 := none }
  freeIfSet (·.globalBspace2) fun g => { g with globalBspace2 := none }

/-- `global_die`. -/
def globalDie : StartM Unit := do
  globalPurge
  throw .globalDie

/-- A use of `packet`. -/
def usePacket : StartM Unit := do
  let set ← reads fun g => g.packetPtr.isSome
  if set then return () else throw .nullAccess

/-- A `buf_*` call on `b1` or `b2`: `!b->buf` is `bug_inval`. -/
def bufCall (b : Globals → Option ℕ) : StartM Unit := do
  let set ← reads fun g => (b g).isSome
  if set then return () else globalDie

/-- An access through `b->buf`. -/
def useBuf (b : Globals → Option ℕ) : StartM Unit := do
  let set ← reads fun g => (b g).isSome
  if set then return () else throw .nullAccess

/-- What may end the session with `die_fatal` or a bug. -/
def orGlobalDie (ok : Bool) : StartM Unit := if ok then return () else globalDie

/-! ## 2. The start of a session -/

/-- What the start meets. -/
structure StartEnv where
  /-- The allocations of `global_bspace1`, `global_bspace2` and `packet_ptr`. -/
  bspace1Ok : Bool
  bspace2Ok : Bool
  packetOk : Bool
  /-- Every public key that is there could be read. -/
  keysRead : Bool
  helloSent : Bool
  helloReceived : Bool
  kexSent : Bool
  kexReceived : Bool
  /-- A first packet follows that was guessed wrong. -/
  follows : Bool
  guessReceived : Bool
  kexdhReceived : Bool
  signed : Bool
deriving DecidableEq

/-- `packet_init`. -/
def packetInitPtr (ok : Bool) : StartM Unit := do
  let block ← mallocBlock ok
  modify fun g => { g with packetPtr := block }
  match block with
  | none => return ()
  | some _ => usePacket

/-- `global_init`, and the initialization of `b1` and `b2` behind it. -/
def globalInit (env : StartEnv) : StartM Unit := do
  let block ← mallocBlock env.bspace1Ok
  modify fun g => { g with globalBspace1 := block }
  let block ← mallocBlock env.bspace2Ok
  modify fun g => { g with globalBspace2 := block }
  packetInitPtr env.packetOk
  modify fun g => { g with b1 := g.globalBspace1, b2 := g.globalBspace2 }

/-- `packet_hello_send`. -/
def packetHelloSendPtr (env : StartEnv) : StartM Unit := do
  usePacket
  orGlobalDie env.helloSent

/-- `packet_hello_receive`. -/
def packetHelloReceivePtr (env : StartEnv) : StartM Unit := do
  usePacket
  orGlobalDie env.helloReceived

/-- `packet_kex_send`. -/
def packetKexSendPtr (env : StartEnv) : StartM Unit := do
  usePacket
  orGlobalDie env.kexSent

/-- `packet_kex_receive`. -/
def packetKexReceivePtr (env : StartEnv) : StartM Unit := do
  usePacket
  orGlobalDie env.kexReceived

/-- `packet_getall` into `b`, which begins with `buf_purge`, and so does each `packet_get`. -/
def packetGetallPtr (b : Globals → Option ℕ) (ok : Bool) : StartM Unit := do
  bufCall b
  usePacket
  orGlobalDie ok

/-- A packet that was guessed wrong is taken. -/
def skipGuessPtr (env : StartEnv) : StartM Unit :=
  if env.follows then do
    bufCall (·.b1)
    packetGetallPtr (·.b1) env.guessReceived
  else return ()

/-- `packet_kexdh` up to the calls of `buf_purge` on both buffers. -/
def packetKexdhPtr (env : StartEnv) : StartM Unit := do
  usePacket
  skipGuessPtr env
  bufCall (·.b1)
  packetGetallPtr (·.b1) env.kexdhReceived
  -- `packetparser_uint8(b1->buf, b1->len, pos, &ch)` and what follows it.
  useBuf (·.b1)
  bufCall (·.b1)
  usePacket
  orGlobalDie env.signed
  bufCall (·.b1)
  bufCall (·.b2)

/-- `main_tinysshd` from the hello strings up to there. -/
def afterKeys (env : StartEnv) : StartM Unit := do
  packetHelloSendPtr env
  packetHelloReceivePtr env
  packetKexSendPtr env
  packetKexReceivePtr env
  -- `if (packet.flagrekeying == 1)`, which it is not.
  usePacket
  packetKexdhPtr env

/-- `main_tinysshd` up to there. -/
def mainTinysshdStart (env : StartEnv) : StartM Unit := do
  globalInit env
  -- "read public keys"
  orGlobalDie env.keysRead
  afterKeys env

/-- What becomes of a session. -/
inductive SessionStart where
  /-- `longjmp` to `ssh_session_task`, which closes the client's socket, with these blocks still
  allocated. -/
  | closed (blocks : List ℕ)
  | reset
  | goesOn (g : Globals)
deriving DecidableEq

/-- `ssh_session_task`. -/
def sshSessionTask (env : StartEnv) : SessionStart :=
  match exec (mainTinysshdStart env) Globals.fresh with
  | (.error .globalDie, g) => .closed g.blocks
  | (.error .nullAccess, _) => .reset
  | (.ok (), g) => .goesOn g

/-- An allocation that failed ends the session and nothing else: everything was released and the
socket is closed.  Where none failed the session may go on, with its three pointers set. -/
def MemoryContained (env : StartEnv) : Prop :=
  sshSessionTask env = .closed [] ∨
    (env.bspace1Ok ∧ env.bspace2Ok ∧ env.packetOk) ∧ ∃ g, sshSessionTask env = .goesOn g ∧
      g.packetPtr.isSome ∧ g.b1.isSome ∧ g.b2.isSome

/-! ## 3. What each function does -/

/-- Every block that is allocated is one that `global_purge` releases. -/
def Globals.Owned (g : Globals) : Prop :=
  ∀ block ∈ g.blocks, g.packetPtr = some block ∨ g.globalBspace1 = some block ∨
    g.globalBspace2 = some block

/-- The session ended, with everything released. -/
def Released (e : StartExit) (g : Globals) : Prop := e = .globalDie ∧ g.blocks = []

section

variable {g : Globals}

/-- Every block that is allocated is in one of these pointers. -/
def OwnedBy (ps : List (Globals → Option ℕ)) (g : Globals) : Prop :=
  ∀ block ∈ g.blocks, ∃ p ∈ ps, p g = some block

/-- **`free`** leaves the blocks of the other pointers. -/
theorem triple_freeIfSet {E : StartExit → Globals → Prop} {p : Globals → Option ℕ}
    {ps : List (Globals → Option ℕ)} {clear : Globals → Globals}
    (hblocks : ∀ g, (clear g).blocks = g.blocks)
    (hsame : ∀ q ∈ ps, ∀ g blocks, q (clear { g with blocks := blocks }) = q g) :
    Triple (OwnedBy (p :: ps)) (freeIfSet p clear) (fun _ => OwnedBy ps) E := by
  refine triple_reads_bind fun x => ?_
  cases x with
  | none =>
    refine triple_pure ?_
    rintro g ⟨hg, hnull⟩ block hblock
    obtain ⟨q, hq, h⟩ := hg block hblock
    rcases List.mem_cons.mp hq with rfl | hq
    · rw [hnull] at h
      cases h
    · exact ⟨q, hq, h⟩
  | some x =>
    refine triple_modify ?_
    rintro g ⟨hg, hx⟩ block hblock
    rw [hblocks] at hblock
    obtain ⟨hmem, hne⟩ := List.mem_filter.mp hblock
    obtain ⟨q, hq, h⟩ := hg block hmem
    rcases List.mem_cons.mp hq with rfl | hq
    · rw [hx] at h
      exact absurd (Option.some.inj h).symm (of_decide_eq_true hne)
    · exact ⟨q, hq, (hsame q hq _ _).trans h⟩

/-- **`global_die` releases every block**: one pointer after the other owns nothing any more. -/
theorem triple_globalDie {Q : Unit → Globals → Prop} :
    Triple Globals.Owned globalDie Q Released := by
  have hpacket : Triple (OwnedBy [(·.packetPtr), (·.globalBspace1), (·.globalBspace2)]) packetPurge
      (fun _ => OwnedBy [(·.globalBspace1), (·.globalBspace2)]) Released := by
    refine triple_freeIfSet (fun _ => rfl) ?_
    simp
  have hbspace1 : Triple (OwnedBy [(·.globalBspace1), (·.globalBspace2)])
      (freeIfSet (·.globalBspace1) fun g => { g with globalBspace1 := none })
      (fun _ => OwnedBy [(·.globalBspace2)]) Released := by
    refine triple_freeIfSet (fun _ => rfl) ?_
    simp
  have hbspace2 : Triple (OwnedBy [(·.globalBspace2)])
      (freeIfSet (·.globalBspace2) fun g => { g with globalBspace2 := none })
      (fun _ => OwnedBy []) Released := triple_freeIfSet (fun _ => rfl) fun _ h => by cases h
  have hdie : Triple (OwnedBy []) (throw .globalDie : StartM Unit) Q Released := by
    refine triple_throw fun g hg => ⟨rfl, List.eq_nil_iff_forall_not_mem.mpr fun block hblock => ?_⟩
    obtain ⟨p, hp, -⟩ := hg block hblock
    cases hp
  refine ((hpacket.bind fun _ => hbspace1.bind fun _ => hbspace2).bind fun _ => hdie).pre ?_
  intro g hg block hblock
  rcases hg block hblock with h | h | h
  · exact ⟨_, List.mem_cons_self, h⟩
  · exact ⟨_, List.mem_cons_of_mem _ List.mem_cons_self, h⟩
  · exact ⟨_, List.mem_cons_of_mem _ (List.mem_cons_of_mem _ List.mem_cons_self), h⟩

theorem triple_usePacket {E : StartExit → Globals → Prop} (h : g.packetPtr.isSome = true) :
    Triple (· = g) usePacket (fun _ s => s = g) E :=
  triple_reads_eq (x := true) (by rintro s rfl; exact h) (triple_pure fun _ hs => hs)

theorem triple_useBuf {E : StartExit → Globals → Prop} {b : Globals → Option ℕ}
    (h : (b g).isSome = true) : Triple (· = g) (useBuf b) (fun _ s => s = g) E :=
  triple_reads_eq (x := true) (by rintro s rfl; exact h) (triple_pure fun _ hs => hs)

/-- **A `buf_*` call returns only for a buffer that is there.** -/
theorem triple_bufCall (h : g.Owned) (b : Globals → Option ℕ) :
    Triple (· = g) (bufCall b) (fun _ s => s = g ∧ (b g).isSome = true) Released := by
  cases hb : (b g).isSome with
  | true =>
    exact triple_reads_eq (x := true) (by rintro s rfl; exact hb)
      (triple_pure fun _ hs => ⟨hs, rfl⟩)
  | false =>
    refine triple_reads_eq (x := false) (by rintro s rfl; exact hb) ?_
    exact triple_globalDie.pre (by rintro s rfl; exact h)

theorem triple_orGlobalDie (h : g.Owned) (ok : Bool) :
    Triple (· = g) (orGlobalDie ok) (fun _ s => s = g) Released := by
  cases ok with
  | true => exact triple_pure fun _ hs => hs
  | false => exact triple_globalDie.pre (by rintro s rfl; exact h)

variable (howned : g.Owned) (hpacket : g.packetPtr.isSome = true)

include howned hpacket

/-- A function that uses `packet` and may end the session. -/
theorem triple_usePacket_orGlobalDie (ok : Bool) :
    Triple (· = g) (usePacket >>= fun _ => orGlobalDie ok) (fun _ s => s = g) Released :=
  (triple_usePacket hpacket).bind fun _ => triple_orGlobalDie howned ok

theorem triple_packetGetallPtr (b : Globals → Option ℕ) (ok : Bool) :
    Triple (· = g) (packetGetallPtr b ok) (fun _ s => s = g) Released :=
  (triple_bufCall howned b).bind fun _ => triple_of_fact fun _ =>
    triple_usePacket_orGlobalDie howned hpacket ok

/-- **`packet_kexdh` finds out about both buffers** before it looks into them. -/
theorem triple_packetKexdhPtr (env : StartEnv) :
    Triple (· = g) (packetKexdhPtr env)
      (fun _ s => s = g ∧ g.b1.isSome = true ∧ g.b2.isSome = true) Released := by
  have hskip : Triple (· = g) (skipGuessPtr env) (fun _ s => s = g) Released := by
    refine Triple.ite (fun _ => ?_) fun _ => triple_pure fun _ hs => hs
    exact (triple_bufCall howned _).bind fun _ => triple_of_fact fun _ =>
      triple_packetGetallPtr howned hpacket _ _
  refine (triple_usePacket hpacket).bind fun _ => hskip.bind fun _ => ?_
  refine (triple_bufCall howned _).bind fun _ => triple_of_fact fun hb1 => ?_
  refine (triple_packetGetallPtr howned hpacket _ _).bind fun _ => ?_
  refine (triple_useBuf hb1).bind fun _ => ?_
  refine (triple_bufCall howned _).bind fun _ => triple_of_fact fun _ => ?_
  refine (triple_usePacket hpacket).bind fun _ => (triple_orGlobalDie howned _).bind fun _ => ?_
  refine (triple_bufCall howned _).bind fun _ => triple_of_fact fun _ => ?_
  exact (triple_bufCall howned _).post fun _ s hs => ⟨hs.1, hb1, hs.2⟩

/-- **With `packet` allocated the start returns with both buffers, or everything is released.** -/
theorem triple_afterKeys (env : StartEnv) :
    Triple (· = g) (afterKeys env)
      (fun _ s => s = g ∧ g.b1.isSome = true ∧ g.b2.isSome = true) Released := by
  refine (triple_usePacket_orGlobalDie howned hpacket _).bind fun _ => ?_
  refine (triple_usePacket_orGlobalDie howned hpacket _).bind fun _ => ?_
  refine (triple_usePacket_orGlobalDie howned hpacket _).bind fun _ => ?_
  refine (triple_usePacket_orGlobalDie howned hpacket _).bind fun _ => ?_
  refine (triple_usePacket hpacket).bind fun _ => ?_
  exact triple_packetKexdhPtr howned hpacket env

end

/-- Without it the hello string is not even written. -/
theorem exec_afterKeys_null {g : Globals} (h : g.packetPtr.isSome = false) (env : StartEnv) :
    exec (afterKeys env) g = (.error .nullAccess, g) := by
  have huse : exec usePacket g = (.error .nullAccess, g) := by
    rw [usePacket, exec_reads_bind, h]
    rfl
  exact exec_bind_error (exec_bind_error huse)

/-- What `global_init` leaves. -/
theorem globalInit_spec (env : StartEnv) : ∃ g, exec (globalInit env) Globals.fresh = (.ok (), g) ∧
    g.Owned ∧ g.packetPtr.isSome = env.packetOk ∧ g.b1.isSome = env.bspace1Ok ∧
      g.b2.isSome = env.bspace2Ok := by
  obtain ⟨bspace1Ok, bspace2Ok, packetOk, -⟩ := env
  cases bspace1Ok <;> cases bspace2Ok <;> cases packetOk <;>
    exact ⟨_, rfl, by unfold Globals.Owned; decide, rfl, rfl, rfl⟩

/-! ## 4. When running out of memory ends one session only -/

/-- **Memory that runs out ends only the session that hit it, unless it is the memory of
`struct tinyssh_packet`** and the session gets to its hello string. -/
theorem memoryContained_iff (env : StartEnv) :
    MemoryContained env ↔ env.packetOk = true ∨ env.keysRead = false := by
  obtain ⟨g, hinit, howned, hpacket, hb1, hb2⟩ := globalInit_spec env
  have hstart : exec (mainTinysshdStart env) Globals.fresh =
      exec (orGlobalDie env.keysRead >>= fun _ => afterKeys env) g := exec_bind_ok hinit
  have hreset : env.packetOk = false → env.keysRead = true → sshSessionTask env = .reset := by
    intro hnull hread
    have hkeys : exec (orGlobalDie env.keysRead) g = (.ok (), g) := by
      rw [hread]
      rfl
    have hexec : exec (mainTinysshdStart env) Globals.fresh = (.error .nullAccess, g) := by
      rw [hstart, exec_bind_ok hkeys, exec_afterKeys_null (hpacket.trans hnull)]
    simp only [sshSessionTask, hexec]
  constructor
  · intro h
    by_contra hnot
    obtain ⟨hnull, hread⟩ := not_or.mp hnot
    have hend := hreset (Bool.eq_false_iff.mpr hnull) (Bool.not_eq_false _ ▸ hread)
    rcases h with h | ⟨-, t, h, -⟩
    · rw [hend] at h
      cases h
    · rw [hend] at h
      cases h
  · intro h
    have hrun : Triple (· = g) (orGlobalDie env.keysRead >>= fun _ => afterKeys env)
        (fun _ s => s = g ∧ env.packetOk = true ∧ g.b1.isSome = true ∧ g.b2.isSome = true)
        Released := by
      rcases h with hok | hread
      · refine (triple_orGlobalDie howned _).bind fun _ => ?_
        exact (triple_afterKeys howned (hpacket.trans hok) env).post fun _ s hs =>
          ⟨hs.1, hok, hs.2⟩
      · -- The keys end the session before `packet` is used.
        rw [hread]
        refine Triple.bind (Q := fun _ _ => False) ?_ fun _ => ⟨fun _ hs => hs.elim⟩
        exact triple_globalDie.pre (by rintro s rfl; exact howned)
    have hpost := hrun.run g rfl
    rw [← hstart] at hpost
    rcases hexec : exec (mainTinysshdStart env) Globals.fresh with ⟨r, s⟩
    rw [hexec] at hpost
    cases r with
    | error e =>
      obtain ⟨rfl, hblocks⟩ := hpost
      refine .inl ?_
      simp only [sshSessionTask, hexec, hblocks]
    | ok u =>
      obtain ⟨rfl, hok, h1, h2⟩ := hpost
      refine .inr ⟨⟨hb1.symm.trans h1, hb2.symm.trans h2, hok⟩, s, ?_, hpacket.trans hok, h1, h2⟩
      simp only [sshSessionTask, hexec]

/-- A session for which only the two buffers could be allocated, with its keys read. -/
def packetOutOfMemory : StartEnv where
  bspace1Ok := true
  bspace2Ok := true
  packetOk := false
  keysRead := true
  helloSent := true
  helloReceived := true
  kexSent := true
  kexReceived := true
  follows := false
  guessReceived := true
  kexdhReceived := true
  signed := true

/-- It resets the device at `packet_hello_send`. -/
theorem packetOutOfMemory_reset : sshSessionTask packetOutOfMemory = .reset ∧
    ¬ MemoryContained packetOutOfMemory := by
  have hreset : sshSessionTask packetOutOfMemory = .reset := by decide
  refine ⟨hreset, ?_⟩
  rintro (h | ⟨-, t, h, -⟩)
  · rw [hreset] at h
    cases h
  · rw [hreset] at h
    cases h

end Glossh.Ssh
