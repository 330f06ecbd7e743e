/-
# Which descriptors a session uses

tinyssh takes 0 and 1 for its connection.  On the device they are the console that all tasks share,
so `tinyssh-config.h` replaces `read`, `write` and `poll` by functions that put `tinyssh_conn_fd` in
their place.  `close` and `fcntl` it leaves alone: `blocking_disable` of the start of
`main_tinysshd` and the `close` in `getln` reach the console.

The places that take a descriptor are few, and each is modelled by the calls it makes, in the
code's numbering; `redirect` then does what the macros do.
-/
import Glossh.Ssh.Channel

namespace Glossh.Ssh

open Bytes

/-! ## 1. The macros -/

/-- A system call on descriptors, and what `socketpair_tcp` obtains. -/
inductive FdCall where
  | read (fd : ℤ)
  | write (fd : ℤ)
  | poll (fds : List ℤ)
  | close (fd : ℤ)
  | fcntl (fd : ℤ)
  | socketpair (fd0 fd1 : ℤ)
deriving DecidableEq

/-- `tinyssh_read`, `tinyssh_write` and `tinyssh_poll`. -/
def redirect (conn : ℤ) : FdCall → FdCall
  | .read fd => .read (if fd = 0 then conn else fd)
  | .write fd => .write (if fd = 1 then conn else fd)
  | .poll fds => .poll (fds.map fun fd => if fd = 0 ∨ fd = 1 then conn else fd)
  | c => c

/-- What a call is made on. -/
def FdCall.fds : FdCall → List ℤ
  | .read fd => [fd]
  | .write fd => [fd]
  | .poll fds => fds
  | .close fd => [fd]
  | .fcntl fd => [fd]
  | .socketpair _ _ => []

/-- Every call is made on the connection, on what `socketpair_tcp` obtained before, or on
descriptor 2. -/
def Redirected (conn : ℤ) : List ℤ → List FdCall → Prop
  | _, [] => True
  | owned, .socketpair fd0 fd1 :: l => Redirected conn (fd0 :: fd1 :: owned) l
  | owned, c :: l =>
    (∀ fd ∈ (redirect conn c).fds, fd = conn ∨ fd ∈ owned ∨ fd = 2) ∧ Redirected conn owned l

/-! ## 2. The places -/

/-- `blocking_disable`. -/
def blockingDisable (fd : ℤ) : List FdCall := [.fcntl fd, .fcntl fd]

/-- `open_cwd` of the port. -/
def openCwd : ℤ := 999

/-- `main_tinysshd` up to the hello strings; `loaded` says whether the public keys could be read. -/
def mainStart (loaded : Bool) : List FdCall :=
  blockingDisable 0 ++ blockingDisable 1 ++ blockingDisable 2 ++
    if loaded then [.close openCwd] else []

/-- `writeall`, on what its writes come to. -/
def writeall (fd : ℤ) : List WriteResult → List FdCall
  | [] => []
  | .wrote _ :: l => .write fd :: writeall fd l
  | .again :: l => .write fd :: .poll [fd] :: writeall fd l
  | .failed :: _ => [.write fd]

/-- `getln` with `room` bytes left in front of the last one, on what its reads of one byte come to:
whether there is a line, and the calls. -/
def getlnCalls (fd : ℤ) : ℕ → List ReadResult → Bool × List FdCall
  | 0, _ => (false, [])
  | _ + 1, [] => (false, [.read fd])
  | room + 1, r :: l =>
    match r.upTo 1 with
    | .again =>
      let rest := getlnCalls fd (room + 1) l
      (rest.1, .read fd :: .poll [fd] :: rest.2)
    | .data x =>
      if x = [0x0a] ∨ x = [0] then (true, [.read fd])
      else
        let rest := getlnCalls fd room l
        (rest.1, .read fd :: rest.2)
    | .eof => (false, [.read fd, .close fd])
    | .failed => (false, [.read fd, .close fd])

/-- What comes after the hello strings. -/
inductive LaterCall where
  /-- `packet_recv`. -/
  | recv
  /-- The `poll` of `packet_getall`. -/
  | wait
  /-- `packet_send`. -/
  | send
  /-- `packet_sendall`. -/
  | sendall (l : List WriteResult)
  /-- The `poll` of the main loop, on what it watches. -/
  | watch (watch1 watch0 : Bool) (children : List ℤ)
  /-- `socketpair_tcp` in `channel_exec`. -/
  | socketpair (fd0 fd1 : ℤ)
  /-- The channel code. -/
  | child (e : FdEvent)
  /-- A message of `log.c`. -/
  | log (l : List WriteResult)

def LaterCall.calls : LaterCall → List FdCall
  | .recv => [.read 0]
  | .wait => [.poll [0]]
  | .send => [.write 1]
  | .sendall l => writeall 1 l
  | .watch watch1 watch0 children =>
    [.poll ((if watch1 then [1] else []) ++ (if watch0 then [0] else []) ++ children)]
  | .socketpair fd0 fd1 => [.socketpair fd0 fd1]
  | .child (.read fd _) => [.read fd]
  | .child (.wrote fd _) => [.write fd]
  | .child (.closed fd) => [.close fd]
  | .child (.started _ _ _) => []
  | .log l => writeall 2 l

/-- What a session meets. -/
structure DescriptorRun where
  conn : ℤ
  log : List WriteResult
  loaded : Bool
  helloSend : List WriteResult
  helloReceive : List ReadResult
  later : List LaterCall

/-- From the hello strings on. -/
def DescriptorRun.afterStart (r : DescriptorRun) : List FdCall :=
  if r.loaded then
    let hello := getlnCalls 0 255 r.helloReceive
    writeall 1 r.helloSend ++ hello.2 ++
      if hello.1 then r.later.flatMap LaterCall.calls else []
  else []

/-- The calls of `main_tinysshd`, and the `close` of `ssh_session_task`. -/
def DescriptorRun.calls (r : DescriptorRun) : List FdCall :=
  writeall 2 r.log ++ (mainStart r.loaded ++ (r.afterStart ++ [.close r.conn]))

/-- A call that does not read, close or reconfigure the console. -/
def FdCall.sparesConsole : FdCall → Bool
  | .read fd => fd ≠ 0 ∧ fd ≠ 1
  | .close fd => fd ≠ 0 ∧ fd ≠ 1
  | .fcntl fd => fd ≠ 0 ∧ fd ≠ 1
  | .write _ => true
  | .poll _ => true
  | .socketpair _ _ => true

/-! ## 3. What is redirected -/

section

variable {conn : ℤ} {owned : List ℤ}

/-- What is written to 1 goes to the connection, what is written to 2 is the log. -/
theorem redirected_writeall {fd : ℤ} (hfd : fd = 1 ∨ fd = 2) (l : List WriteResult) :
    Redirected conn owned (writeall fd l) := by
  have hwrite : ∀ x ∈ (redirect conn (.write fd)).fds, x = conn ∨ x ∈ owned ∨ x = 2 := by
    rintro x hx
    obtain rfl := List.mem_singleton.mp hx
    rcases hfd with rfl | rfl
    · exact .inl (if_pos rfl)
    · exact .inr (.inr (if_neg (by decide)))
  have hpoll : ∀ x ∈ (redirect conn (.poll [fd])).fds, x = conn ∨ x ∈ owned ∨ x = 2 := by
    rintro x hx
    obtain rfl := List.mem_singleton.mp hx
    rcases hfd with rfl | rfl
    · exact .inl (if_pos (.inr rfl))
    · exact .inr (.inr (if_neg (by decide)))
  induction l with
  | nil => trivial
  | cons w l ih =>
    cases w with
    | wrote n => exact ⟨hwrite, ih⟩
    | again => exact ⟨hwrite, hpoll, ih⟩
    | failed => exact ⟨hwrite, trivial⟩

/-- **The packet code uses the connection only**, and the main loop what the channel holds. -/
theorem redirected_packets {c : LaterCall}
    (h : c = .recv ∨ c = .wait ∨ c = .send ∨ (∃ l, c = .sendall l) ∨
      ∃ watch1 watch0, c = .watch watch1 watch0 owned) : Redirected conn owned c.calls := by
  rcases h with rfl | rfl | rfl | ⟨l, rfl⟩ | ⟨watch1, watch0, rfl⟩
  · refine ⟨fun x hx => .inl (List.mem_singleton.mp hx), ?_⟩
    trivial
  · refine ⟨fun x hx => .inl (List.mem_singleton.mp hx), ?_⟩
    trivial
  · refine ⟨fun x hx => .inl (List.mem_singleton.mp hx), ?_⟩
    trivial
  · exact redirected_writeall (.inl rfl) l
  · refine ⟨?_, trivial⟩
    intro x hx
    obtain ⟨fd, hfd, rfl⟩ := List.mem_map.mp hx
    split
    · exact .inl rfl
    · rename_i hne
      rcases List.mem_append.mp hfd with hfd | hfd
      · -- 0 and 1 are the connection.
        exfalso
        apply hne
        rcases List.mem_append.mp hfd with hfd | hfd
        · split at hfd
          · exact .inr (List.mem_singleton.mp hfd)
          · cases hfd
        · split at hfd
          · exact .inl (List.mem_singleton.mp hfd)
          · cases hfd
      · exact .inr (.inl hfd)

/-- A log message obtains nothing. -/
theorem Redirected.of_writeall {fd : ℤ} {l : List WriteResult} {calls : List FdCall}
    (h : Redirected conn owned (writeall fd l ++ calls)) : Redirected conn owned calls := by
  induction l with
  | nil => exact h
  | cons w l ih =>
    cases w with
    | wrote n => exact ih h.2
    | again => exact ih h.2.2
    | failed => exact h.2

end

/-! ## 4. What is not -/

/-- **A client that goes away inside its line makes `getln` close the descriptor it was given.** -/
theorem getlnCalls_disconnect (fd : ℤ) {room : ℕ} {x : Bytes} (hroom : x.length < room)
    (hline : ∀ b ∈ x, b ≠ 0x0a ∧ b ≠ 0) {r : ReadResult} (hr : r = .eof ∨ r = .failed)
    (l : List ReadResult) : getlnCalls fd room (x.map (fun b => .data [b]) ++ r :: l) =
      (false, x.map (fun _ => .read fd) ++ [.read fd, .close fd]) := by
  induction x generalizing room with
  | nil =>
    obtain ⟨room, rfl⟩ := Nat.exists_eq_add_of_lt hroom
    rcases hr with rfl | rfl
    · simp only [List.map_nil, List.nil_append, List.length_nil, Nat.zero_add, getlnCalls,
        ReadResult.upTo]
    · simp only [List.map_nil, List.nil_append, List.length_nil, Nat.zero_add, getlnCalls,
        ReadResult.upTo]
  | cons b x ih =>
    cases room with
    | zero => cases hroom
    | succ room =>
      have hrest := ih (Nat.lt_of_succ_lt_succ hroom) fun a ha =>
        hline a (List.mem_cons_of_mem _ ha)
      have hb := hline b List.mem_cons_self
      have hne : ¬ ([b] = [0x0a] ∨ [b] = [0]) := by
        simp only [List.cons.injEq, and_true, not_or]
        exact hb
      have hread : ReadResult.upTo 1 (.data [b]) = .data [b] := by
        exact ReadResult.upTo_data (List.cons_ne_nil _ _) (Nat.le_refl 1)
      simp only [List.map_cons, List.cons_append, getlnCalls, hread, if_neg hne, hrest]

theorem not_redirected (r : DescriptorRun) : ¬ Redirected r.conn [] r.calls := by
  intro h
  have hstart : Redirected r.conn [] (mainStart r.loaded ++ (r.afterStart ++ [.close r.conn])) :=
    h.of_writeall
  -- 0 and 1 cannot both be the connection.
  have h0 : (0 : ℤ) = r.conn ∨ (0 : ℤ) ∈ [] ∨ (0 : ℤ) = 2 := hstart.1 0 List.mem_cons_self
  have h1 : (1 : ℤ) = r.conn ∨ (1 : ℤ) ∈ [] ∨ (1 : ℤ) = 2 := hstart.2.2.1 1 List.mem_cons_self
  simp only [List.not_mem_nil, false_or] at h0 h1
  omega

/-- **No session keeps to its own descriptors**: each begins by switching 0, 1 and 2, which are the
console's, to non-blocking. -/
theorem not_contained (r : DescriptorRun) :
    ¬ Redirected r.conn [] r.calls ∧ ¬ ∀ c ∈ r.calls, (redirect r.conn c).sparesConsole := by
  refine ⟨not_redirected r, ?_⟩
  intro h
  have hmem : FdCall.fcntl 0 ∈ r.calls := by
    simp only [DescriptorRun.calls, mainStart, blockingDisable, List.mem_append, List.mem_cons,
      true_or, or_true]
  cases h _ hmem

/-- A client that goes away before its hello line. -/
def earlyDisconnect : DescriptorRun where
  conn := 54
  log := []
  loaded := true
  helloSend := [.wrote 20]
  helloReceive := [.eof]
  later := []

/-- The console is switched to non-blocking and its input is closed. -/
theorem earlyDisconnect_calls : earlyDisconnect.calls = [.fcntl 0, .fcntl 0, .fcntl 1, .fcntl 1,
      .fcntl 2, .fcntl 2, .close 999, .write 1, .read 0, .close 0, .close 54] ∧
    ¬ (Redirected 54 [] earlyDisconnect.calls ∧
      ∀ c ∈ earlyDisconnect.calls, (redirect 54 c).sparesConsole) :=
  ⟨rfl, fun h => not_redirected earlyDisconnect h.1⟩

end Glossh.Ssh
