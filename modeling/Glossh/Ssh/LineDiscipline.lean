/-
# The line discipline of `interpreter_task`

The interactive loop at the level of its C variables: `buffer`, 256 bytes that each line starts
with zeros in, and `buf_len`.  A character is appended or ends the line, backspace takes one away,
and the line is compared with the names of the commands by `strcmp`.  `Interpreter.recv` is one
turn around the inner loop; `interpret_log` connects it with `interpreterTask`.

What a line discipline is for is `commandsOf`: the complete lines of the stream, each edited, those
that are not empty compared whole.  The code follows it until one of two things happens
(`Fits`).  The inner loop also ends when the buffer is full, and then what is in it is taken for a
line; and `strcmp` takes a name for the whole line when a zero byte follows it.
-/
import Glossh.Lib.Text
import Glossh.Ssh.Interpreter
import Mathlib.Data.List.GetD

namespace Glossh.Ssh

open Bytes Text

/-! ## 1. The commands -/

/-- What a line is compared with. -/
inductive Command where
  | help
  | status
  | reboot
  | exit
  | unknown
deriving DecidableEq

namespace Command

/-- "Process command": the comparisons in their order. -/
def ofLine (s : Bytes) : Command :=
  if s = ascii "help" ∨ s = ascii "?" then .help
  else if s = ascii "status" then .status
  else if s = ascii "reboot" then .reboot
  else if s = ascii "exit" then .exit
  else .unknown

/-- The loop is not entered again: `break`, and `esp_restart`, which does not return. -/
def stops : Command → Bool
  | .exit | .reboot => true
  | _ => false

def names : List Bytes := [ascii "help", ascii "?", ascii "status", ascii "reboot", ascii "exit"]

theorem ofLine_eq_unknown_iff (s : Bytes) : ofLine s = .unknown ↔ s ∉ names := by
  simp only [names, List.mem_cons, List.not_mem_nil, or_false, not_or]
  unfold ofLine
  constructor
  · intro h
    split at h
    · cases h
    · rename_i h1
      split at h
      · cases h
      · rename_i h2
        split at h
        · cases h
        · rename_i h3
          split at h
          · cases h
          · rename_i h4
            obtain ⟨h0, h1⟩ := not_or.mp h1
            exact ⟨h0, h1, h2, h3, h4⟩
  · rintro ⟨h1, h2, h3, h4, h5⟩
    rw [if_neg (not_or.mpr ⟨h1, h2⟩), if_neg h3, if_neg h4, if_neg h5]

theorem zero_notMem_names : ∀ n ∈ names, 0 ∉ n := by decide +kernel

/-- **`strcmp` misreads a line exactly when a name with its zero begins it.** -/
theorem ofLine_cstr_ne_iff (l : Bytes) :
    ofLine (cstr l) ≠ ofLine l ↔ ∃ n ∈ names, n ++ [0] <+: l := by
  constructor
  · intro h
    rcases (cstr_eq_iff (zero_notMem_cstr l)).mp rfl with heq | hprefix
    · exact absurd (congrArg ofLine heq.symm) h
    · refine ⟨cstr l, ?_, hprefix⟩
      by_contra hname
      have hl : l ∉ names := by
        intro hl
        obtain ⟨rest, hrest⟩ := hprefix
        refine zero_notMem_names l hl ?_
        rw [← hrest]
        simp
      exact h (((ofLine_eq_unknown_iff _).mpr hname).trans ((ofLine_eq_unknown_iff _).mpr hl).symm)
  · rintro ⟨n, hn, hprefix⟩ heq
    have hcstr : cstr l = n := (cstr_eq_iff (zero_notMem_names n hn)).mpr (Or.inr hprefix)
    have hl : l ∉ names := by
      intro hl
      obtain ⟨rest, hrest⟩ := hprefix
      refine zero_notMem_names l hl ?_
      rw [← hrest]
      simp
    rw [hcstr, (ofLine_eq_unknown_iff l).mpr hl, ofLine_eq_unknown_iff] at heq
    exact heq hn

end Command

/-! ## 2. The loop -/

/-- `char buffer[256]` and `int buf_len`. -/
structure LineBuffer where
  buffer : Bytes
  bufLen : ℤ
deriving DecidableEq

namespace LineBuffer

/-- `buf_len = 0; memset(buffer, 0, sizeof(buffer));` -/
def clear : LineBuffer := ⟨List.replicate LINE_BUF 0, 0⟩

/-- `buffer[buf_len++] = c;` -/
def push (b : LineBuffer) (c : UInt8) : LineBuffer :=
  ⟨b.buffer.set b.bufLen.toNat c, b.bufLen + 1⟩

/-- `buffer[--buf_len] = '\0';` -/
def pop (b : LineBuffer) : LineBuffer :=
  ⟨b.buffer.set (b.bufLen - 1).toNat 0, b.bufLen - 1⟩

/-- "Trim trailing carriage return / newlines", at most `fuel` of them. -/
def trim : ℕ → LineBuffer → LineBuffer
  | 0, b => b
  | fuel + 1, b =>
    let c := b.buffer.getD (b.bufLen - 1).toNat 0
    if b.bufLen > 0 ∧ (c = 13 ∨ c = 10) then trim fuel b.pop else b

end LineBuffer

/-- The task in front of a `recv`, or where the loop was left. -/
structure Interpreter where
  line : LineBuffer
  running : Bool
  /-- The buffers that were compared with the names. -/
  acted : List LineBuffer
  /-- What the task did. -/
  log : List TaskEvent
deriving DecidableEq

namespace Interpreter

/-- The prompt and an empty line. -/
def again (s : Interpreter) : Interpreter :=
  { s with line := .clear, log := s.log ++ [prompt] }

/-- From "Trim trailing carriage return / newlines" to the next line. -/
def act (info : SystemInfo) (s : Interpreter) : Interpreter :=
  let line := s.line.trim LINE_BUF
  if line.bufLen = 0 then again { s with line := line }
  else
    let s : Interpreter := { s with line := line, acted := s.acted ++ [line] }
    let cmd := cstr line.buffer
    match Command.ofLine cmd with
    | .exit => { s with running := false, log := s.log ++ [.sent (ascii "\r\nGoodbye!\r\n")] }
    | .reboot => { s with running := false, log := s.log ++ runCommand info (ascii "\r\n") cmd }
    | _ => again { s with log := s.log ++ runCommand info (ascii "\r\n") cmd }

/-- `while (buf_len < (int)sizeof(buffer) - 1)`. -/
def more (info : SystemInfo) (s : Interpreter) : Interpreter :=
  if s.line.bufLen < (LINE_BUF : ℤ) - 1 then s else act info s

/-- "Read a line from client": one character, and what follows up to the next `recv`. -/
def recv (info : SystemInfo) (s : Interpreter) (c : UInt8) : Interpreter :=
  if s.running then
    let s : Interpreter := { s with log := s.log ++ [.received c, .sent [c]] }
    if c = 13 ∨ c = 10 then act info s
    else if c = 127 ∨ c = 8 then
      if s.line.bufLen > 0 then
        more info { s with line := s.line.pop, log := s.log ++ [.sent [32, 8]] }
      else more info s
    else more info { s with line := s.line.push c }
  else s

/-- In front of the first `recv`. -/
def start : Interpreter := { line := .clear, running := true, acted := [], log := [prompt] }

/-- The commands that were acted on. -/
def commands (s : Interpreter) : List Command :=
  s.acted.map fun b => Command.ofLine (cstr b.buffer)

end Interpreter

/-- The task when the bytes `input` have been received. -/
def interpret (info : SystemInfo) (input : Bytes) : Interpreter :=
  input.foldl (Interpreter.recv info) .start

/-! ## 3. What a line discipline is for -/

/-- A line end. -/
def isEnd (c : UInt8) : Bool := c = 13 || c = 10

/-- A backspace. -/
def isErase (c : UInt8) : Bool := c = 127 || c = 8

/-- The line that is not complete yet, edited. -/
def pending (input : Bytes) : Bytes := edit isErase (openLine isEnd input)

/-- The complete lines, edited. -/
def editedLines (input : Bytes) : List Bytes :=
  (completeLines isEnd input).map (edit isErase)

/-- Each line that is not empty, compared whole. -/
def lineCommands (input : Bytes) : List Command :=
  ((editedLines input).filter (· ≠ [])).map Command.ofLine

/-- Nothing is read behind the command that stops. -/
def untilStop : List Command → List Command
  | [] => []
  | c :: l => if c.stops then [c] else c :: untilStop l

/-- The commands in the stream. -/
def commandsOf (input : Bytes) : List Command := untilStop (lineCommands input)

/-- One of them stops the interpreter. -/
def stopsIn (input : Bytes) : Bool := (lineCommands input).any Command.stops

/-- The line that is being typed leaves room in the buffer, and in no complete line does a zero byte
follow the name of a command at the front. -/
structure Fits (input : Bytes) : Prop where
  pending_lt : (pending input).length < LINE_BUF - 1
  no_zero : ∀ l ∈ editedLines input, ∀ n ∈ Command.names, ¬ n ++ [0] <+: l

/-- So it is after every character up to the command that stops. -/
def Orderly (input : Bytes) : Prop :=
  ∀ p c, p ++ [c] <+: input → stopsIn p = true ∨ Fits (p ++ [c])

/-- The buffer is whole, and zero from `buf_len` on. -/
structure LineBuffer.Terminated (b : LineBuffer) : Prop where
  length_eq : b.buffer.length = LINE_BUF
  nonneg : 0 ≤ b.bufLen
  le : b.bufLen ≤ (LINE_BUF : ℤ) - 1
  zero : ∀ i : ℕ, b.bufLen ≤ i → b.buffer.getD i 0 = 0

/-- After the bytes `input` the task acted on the commands in them and on nothing else, and its
buffer is in order, as it was at every comparison. -/
structure Disciplined (info : SystemInfo) (input : Bytes) : Prop where
  commands_eq : (interpret info input).commands = commandsOf input
  line : (interpret info input).line.Terminated
  acted : ∀ b ∈ (interpret info input).acted, b.Terminated

/-! ## 4. What the buffer holds -/

/-- The buffer holds the line `l`, and zeros behind it. -/
structure LineBuffer.Holds (b : LineBuffer) (l : Bytes) : Prop where
  buffer_eq : b.buffer = l ++ List.replicate (LINE_BUF - l.length) 0
  bufLen_eq : b.bufLen = l.length
  length_lt : l.length < LINE_BUF
  no_end : ∀ c ∈ l, isEnd c = false

namespace LineBuffer

theorem holds_clear : clear.Holds [] :=
  ⟨rfl, rfl, by decide, fun c hc => by cases hc⟩

variable {b : LineBuffer} {l : Bytes}

theorem Holds.push (h : b.Holds l) (hlt : l.length < LINE_BUF - 1) {c : UInt8}
    (hc : isEnd c = false) : (b.push c).Holds (l ++ [c]) := by
  have hzeros : LINE_BUF - l.length = LINE_BUF - (l ++ [c]).length + 1 := by
    rw [List.length_append, List.length_singleton]
    omega
  refine ⟨?_, ?_, ?_, ?_⟩
  · rw [LineBuffer.push, h.buffer_eq, h.bufLen_eq, Int.toNat_natCast, hzeros, List.replicate_succ,
      List.set_append_right _ _ (le_refl _), Nat.sub_self, List.set_cons_zero, List.append_assoc,
      List.singleton_append]
  · rw [LineBuffer.push, h.bufLen_eq, List.length_append, List.length_singleton]
    push_cast
    rfl
  · rw [List.length_append, List.length_singleton]
    omega
  · intro x hx
    rcases List.mem_append.mp hx with hx | hx
    · exact h.no_end x hx
    · rw [List.mem_singleton.mp hx, hc]

theorem Holds.pop (h : b.Holds l) (hne : l ≠ []) : b.pop.Holds l.dropLast := by
  obtain ⟨t, c, rfl⟩ := List.eq_nil_or_concat' l |>.resolve_left hne
  have hlt := h.length_lt
  rw [List.length_append, List.length_singleton] at hlt
  have hzeros : LINE_BUF - t.length = LINE_BUF - (t ++ [c]).length + 1 := by
    rw [List.length_append, List.length_singleton]
    omega
  have hlen : b.bufLen - 1 = t.length := by
    rw [h.bufLen_eq, List.length_append, List.length_singleton]
    push_cast
    omega
  rw [List.dropLast_concat]
  refine ⟨?_, hlen, by omega, fun x hx => h.no_end x (List.mem_append_left _ hx)⟩
  rw [LineBuffer.pop, hlen, Int.toNat_natCast, h.buffer_eq, List.append_assoc,
    List.set_append_right _ _ (le_refl _), Nat.sub_self, List.singleton_append, List.set_cons_zero,
    hzeros, List.replicate_succ]

/-- **The buffer is a string in memory**: `buf_len` is in range, and a zero follows. -/
theorem Holds.terminated (h : b.Holds l) : b.Terminated := by
  have hlt := h.length_lt
  refine ⟨?_, ?_, ?_, ?_⟩
  · rw [h.buffer_eq, List.length_append, List.length_replicate]
    omega
  · rw [h.bufLen_eq]
    exact Int.natCast_nonneg _
  · rw [h.bufLen_eq]
    omega
  · intro i hi
    rw [h.bufLen_eq, Nat.cast_le] at hi
    rw [h.buffer_eq, List.getD_append_right _ _ _ _ hi, List.getD_eq_getElem?_getD,
      List.getElem?_replicate]
    split <;> rfl

/-- There is nothing to trim: no line end gets into the buffer. -/
theorem Holds.trim_eq (h : b.Holds l) (fuel : ℕ) : b.trim fuel = b := by
  cases fuel with
  | zero => rfl
  | succ fuel =>
    refine if_neg ?_
    rintro ⟨hpos, hc⟩
    obtain ⟨t, c, rfl⟩ := List.eq_nil_or_concat' l |>.resolve_left (by
      rintro rfl
      rw [h.bufLen_eq] at hpos
      exact absurd hpos (by decide))
    have hlen : (b.bufLen - 1).toNat = t.length := by
      rw [h.bufLen_eq, List.length_append, List.length_singleton]
      push_cast
      omega
    have hget : b.buffer.getD (b.bufLen - 1).toNat 0 = c := by
      rw [h.buffer_eq, hlen, List.append_assoc, List.getD_append_right _ _ _ _ (le_refl _),
        Nat.sub_self]
      rfl
    have hend := h.no_end c (List.mem_append_right _ List.mem_cons_self)
    rw [hget] at hc
    rcases hc with rfl | rfl
    · exact absurd hend (by decide)
    · exact absurd hend (by decide)

/-- What `strcmp` sees. -/
theorem Holds.cstr_eq (h : b.Holds l) : cstr b.buffer = cstr l := by
  rw [h.buffer_eq, cstr_append_zeros]

theorem Holds.bufLen_eq_zero_iff (h : b.Holds l) : b.bufLen = 0 ↔ l = [] := by
  rw [h.bufLen_eq, Nat.cast_eq_zero, List.length_eq_zero_iff]

end LineBuffer

/-! ## 5. One turn of the loop -/

/-- What the task says to a line. -/
def answer (info : SystemInfo) (l : Bytes) : List TaskEvent :=
  if Command.ofLine (cstr l) = .exit then [.sent (ascii "\r\nGoodbye!\r\n")]
  else runCommand info (ascii "\r\n") (cstr l)

namespace Interpreter

variable {info : SystemInfo} {s : Interpreter} {l : Bytes}

/-- A line that is complete, as far as the code is concerned. -/
theorem act_of_holds (info : SystemInfo) (h : s.line.Holds l) :
    s.act info =
      if l = [] then s.again
      else if (Command.ofLine (cstr l)).stops then
        { s with running := false, acted := s.acted ++ [s.line], log := s.log ++ answer info l }
      else again { s with acted := s.acted ++ [s.line], log := s.log ++ answer info l } := by
  unfold act answer
  simp only [h.trim_eq, h.cstr_eq, h.bufLen_eq_zero_iff]
  split
  · rfl
  · -- The conditions are decided by hand: left to `rfl`, the texts would be compared.
    cases Command.ofLine (cstr l) with
    | exit => rw [if_pos (by decide), if_pos rfl]
    | reboot => rw [if_pos (by decide), if_neg (by decide)]
    | help => rw [if_neg (by decide), if_neg (by decide)]
    | status => rw [if_neg (by decide), if_neg (by decide)]
    | unknown => rw [if_neg (by decide), if_neg (by decide)]

/-- The echo of a character. -/
def echo (s : Interpreter) (c : UInt8) : Interpreter :=
  { s with log := s.log ++ [.received c, .sent [c]] }

theorem recv_stopped (h : s.running = false) (c : UInt8) : s.recv info c = s := by
  rw [recv, h]
  rfl

theorem recv_end (h : s.running = true) {c : UInt8} (hc : isEnd c = true) :
    s.recv info c = (s.echo c).act info := by
  have hc' : c = 13 ∨ c = 10 := by simpa [isEnd] using hc
  rw [recv, if_pos h]
  exact if_pos hc'

/-- A backspace, which leaves room. -/
theorem recv_erase (h : s.running = true) (hl : s.line.Holds l) (hlt : l.length < LINE_BUF - 1)
    {c : UInt8} (hend : isEnd c = false) (hc : isErase c = true) :
    s.recv info c =
      if l = [] then s.echo c
      else { s with line := s.line.pop, log := (s.echo c).log ++ [.sent [32, 8]] } := by
  have hend' : ¬(c = 13 ∨ c = 10) := by simpa [isEnd] using hend
  have hc' : c = 127 ∨ c = 8 := by simpa [isErase] using hc
  have hroom : s.line.bufLen < (LINE_BUF : ℤ) - 1 := by
    rw [hl.bufLen_eq]
    omega
  rw [recv, if_pos h]
  simp only [if_neg hend', if_pos hc']
  by_cases hnil : l = []
  · have hzero : ¬ s.line.bufLen > 0 := by
      rw [hl.bufLen_eq, hnil]
      decide
    rw [if_neg hzero, if_pos hnil]
    exact if_pos hroom
  · have hpos : s.line.bufLen > 0 := by
      rw [hl.bufLen_eq]
      exact_mod_cast List.length_pos_of_ne_nil hnil
    rw [if_pos hpos, if_neg hnil]
    refine if_pos ?_
    change s.line.bufLen - 1 < _
    omega

/-- Any other character: it may fill the buffer. -/
theorem recv_char (h : s.running = true) (hl : s.line.Holds l) {c : UInt8}
    (hend : isEnd c = false) (hc : isErase c = false) :
    s.recv info c =
      if l.length + 1 < LINE_BUF - 1 then { s.echo c with line := s.line.push c }
      else act info { s.echo c with line := s.line.push c } := by
  have hend' : ¬(c = 13 ∨ c = 10) := by simpa [isEnd] using hend
  have hc' : ¬(c = 127 ∨ c = 8) := by simpa [isErase] using hc
  rw [recv, if_pos h]
  simp only [if_neg hend', if_neg hc']
  change (if s.line.bufLen + 1 < (LINE_BUF : ℤ) - 1 then _ else _) = _
  by_cases hroom : l.length + 1 < LINE_BUF - 1
  · rw [if_pos hroom, if_pos (by rw [hl.bufLen_eq]; omega)]
    rfl
  · rw [if_neg hroom, if_neg (by rw [hl.bufLen_eq]; omega)]
    rfl

end Interpreter

/-! ## 6. The stream one character longer -/

section

variable (p : Bytes) {c : UInt8}

theorem pending_concat_of_end (h : isEnd c = true) : pending (p ++ [c]) = [] := by
  rw [pending, openLine_concat_of_sep h, edit_nil]

theorem pending_concat (h : isEnd c = false) :
    pending (p ++ [c]) = if isErase c then (pending p).dropLast else pending p ++ [c] := by
  rw [pending, openLine_concat h, edit_concat, pending]

theorem editedLines_concat_of_end (h : isEnd c = true) :
    editedLines (p ++ [c]) = editedLines p ++ [pending p] := by
  rw [editedLines, completeLines_concat_of_sep h, List.map_append, editedLines, pending,
    List.map_singleton]

theorem editedLines_concat (h : isEnd c = false) : editedLines (p ++ [c]) = editedLines p := by
  rw [editedLines, completeLines_concat h, editedLines]

/-- A line end makes a command of the line, unless it is empty. -/
theorem lineCommands_concat_of_end (h : isEnd c = true) :
    lineCommands (p ++ [c]) =
      lineCommands p ++ if pending p = [] then [] else [Command.ofLine (pending p)] := by
  rw [lineCommands, editedLines_concat_of_end p h, List.filter_append, List.map_append,
    lineCommands]
  by_cases hnil : pending p = []
  · rw [if_pos hnil, hnil]
    rfl
  · rw [if_neg hnil, List.filter_singleton, decide_eq_true hnil]
    rfl

theorem lineCommands_concat (h : isEnd c = false) : lineCommands (p ++ [c]) = lineCommands p := by
  rw [lineCommands, editedLines_concat p h, lineCommands]

end

theorem untilStop_eq {l : List Command} (h : l.any Command.stops = false) : untilStop l = l := by
  induction l with
  | nil => rfl
  | cons c l ih =>
    rw [List.any_cons, Bool.or_eq_false_iff] at h
    rw [untilStop, h.1, if_neg Bool.false_ne_true, ih h.2]

/-- Nothing counts behind the command that stops. -/
theorem untilStop_append {l : List Command} (h : l.any Command.stops = true) (m : List Command) :
    untilStop (l ++ m) = untilStop l := by
  induction l with
  | nil => cases h
  | cons c l ih =>
    rw [List.cons_append, untilStop, untilStop]
    by_cases hc : c.stops = true
    · rw [if_pos hc, if_pos hc]
    · rw [List.any_cons, eq_false_of_ne_true hc, Bool.false_or] at h
      rw [if_neg hc, if_neg hc, ih h]

/-- The command that stops counts itself. -/
theorem untilStop_concat {l : List Command} (h : l.any Command.stops = false) (c : Command) :
    untilStop (l ++ [c]) = l ++ [c] := by
  induction l with
  | nil =>
    rw [List.nil_append, untilStop, untilStop]
    split <;> rfl
  | cons x l ih =>
    rw [List.any_cons, Bool.or_eq_false_iff] at h
    rw [List.cons_append, untilStop, h.1, if_neg Bool.false_ne_true, ih h.2]

/-- Once stopped, the interpreter stays so. -/
theorem stopsIn_concat {p : Bytes} (h : stopsIn p = true) (c : UInt8) :
    stopsIn (p ++ [c]) = true ∧ commandsOf (p ++ [c]) = commandsOf p := by
  rw [stopsIn, commandsOf, commandsOf]
  by_cases hc : isEnd c = true
  · rw [lineCommands_concat_of_end p hc]
    refine ⟨?_, untilStop_append h _⟩
    rw [List.any_append, show (lineCommands p).any Command.stops = true from h, Bool.true_or]
  · rw [lineCommands_concat p (eq_false_of_ne_true hc)]
    exact ⟨h, rfl⟩

theorem commandsOf_eq {p : Bytes} (h : stopsIn p = false) : commandsOf p = lineCommands p :=
  untilStop_eq h

/-! ## 7. Every run keeps the buffer in order -/

theorem interpret_concat (info : SystemInfo) (p : Bytes) (c : UInt8) :
    interpret info (p ++ [c]) = (interpret info p).recv info c := by
  rw [interpret, List.foldl_append]
  rfl

namespace Interpreter

/-- The buffer holds some line, with room for a character while the task runs. -/
structure Sound (s : Interpreter) : Prop where
  holds : ∃ l, s.line.Holds l ∧ (s.running = true → l.length < LINE_BUF - 1)
  acted : ∀ b ∈ s.acted, b.Terminated

theorem sound_start : start.Sound :=
  ⟨⟨[], LineBuffer.holds_clear, fun _ => by decide⟩, fun b hb => by cases hb⟩

variable {info : SystemInfo} {s : Interpreter} {l : Bytes}

theorem sound_again {s : Interpreter} (h : ∀ b ∈ s.acted, b.Terminated) : s.again.Sound :=
  ⟨⟨[], LineBuffer.holds_clear, fun _ => by decide⟩, h⟩

theorem sound_act (hl : s.line.Holds l) (h : ∀ b ∈ s.acted, b.Terminated) :
    (s.act info).Sound := by
  have hacted : ∀ b ∈ s.acted ++ [s.line], b.Terminated := by
    intro b hb
    rcases List.mem_append.mp hb with hb | hb
    · exact h b hb
    · rw [List.mem_singleton.mp hb]
      exact hl.terminated
  rw [act_of_holds info hl]
  split
  · exact sound_again h
  · split
    · exact ⟨⟨l, hl, fun hrun => by cases hrun⟩, hacted⟩
    · exact sound_again hacted

theorem Sound.recv (h : s.Sound) (c : UInt8) : (s.recv info c).Sound := by
  obtain ⟨⟨l, hl, hroom⟩, hacted⟩ := h
  cases hrun : s.running with
  | false =>
    rw [recv_stopped hrun]
    exact ⟨⟨l, hl, hroom⟩, hacted⟩
  | true =>
    have hlt := hroom hrun
    by_cases hend : isEnd c = true
    · rw [recv_end hrun hend]
      exact sound_act (s := s.echo c) hl hacted
    · have hend := eq_false_of_ne_true hend
      by_cases herase : isErase c = true
      · rw [recv_erase hrun hl hlt hend herase]
        split
        · exact ⟨⟨l, hl, fun _ => hlt⟩, hacted⟩
        · rename_i hne
          refine ⟨⟨l.dropLast, hl.pop hne, fun _ => ?_⟩, hacted⟩
          rw [List.length_dropLast]
          omega
      · rw [recv_char hrun hl hend (eq_false_of_ne_true herase)]
        have hpush := hl.push hlt hend
        split
        · rename_i hroom'
          refine ⟨⟨l ++ [c], hpush, fun _ => ?_⟩, hacted⟩
          rwa [List.length_append]
        · exact sound_act (s := { s.echo c with line := s.line.push c }) hpush hacted

end Interpreter

/-- **`buf_len` stays in range and the buffer terminated**, whatever is received. -/
theorem sound_interpret (info : SystemInfo) (p : Bytes) : (interpret info p).Sound := by
  induction p using List.reverseRecOn with
  | nil => exact Interpreter.sound_start
  | append_singleton p c ih =>
    rw [interpret_concat]
    exact ih.recv c

/-! ## 8. The task and its buffer -/

/-- `esp_restart` does not return. -/
def upToRestart : List TaskEvent → List TaskEvent
  | [] => []
  | e :: l => if e = .restart then [e] else e :: upToRestart l

theorem upToRestart_append {l : List TaskEvent} (h : .restart ∉ l) (m : List TaskEvent) :
    upToRestart (l ++ m) = l ++ upToRestart m := by
  induction l with
  | nil => rfl
  | cons e l ih =>
    have he : e ≠ .restart := fun he => h (he ▸ List.mem_cons_self)
    rw [List.cons_append, upToRestart, if_neg he, ih fun hl => h (List.mem_cons_of_mem _ hl),
      List.cons_append]

/-- A command that restarts nothing. -/
theorem restart_notMem_runCommand (info : SystemInfo) (lead : Bytes) {cmd : Bytes}
    (h : Command.ofLine cmd ≠ .reboot) : .restart ∉ runCommand info lead cmd := by
  unfold Command.ofLine at h
  unfold runCommand
  split at h
  · rename_i hcmd
    rw [if_pos hcmd]
    simp
  · rename_i hcmd
    rw [if_neg hcmd]
    split at h
    · rename_i hcmd
      rw [if_pos hcmd]
      simp
    · rename_i hcmd
      rw [if_neg hcmd]
      split at h
      · exact absurd rfl h
      · rename_i hcmd
        rw [if_neg hcmd]
        simp

theorem Command.ofLine_eq_exit_iff (s : Bytes) : Command.ofLine s = .exit ↔ s = ascii "exit" := by
  constructor
  · intro h
    unfold Command.ofLine at h
    split at h
    · cases h
    · split at h
      · cases h
      · split at h
        · cases h
        · split at h
          · rename_i hcmd
            exact hcmd
          · cases h
  · rintro rfl
    decide +kernel

theorem Command.ofLine_eq_reboot {s : Bytes} (h : Command.ofLine s = .reboot) :
    s = ascii "reboot" := by
  unfold Command.ofLine at h
  split at h
  · cases h
  · split at h
    · cases h
    · split at h
      · rename_i hcmd
        exact hcmd
      · split at h
        · cases h
        · cases h

theorem upToRestart_reboot (info : SystemInfo) (lead : Bytes) (m : List TaskEvent) :
    upToRestart (runCommand info lead (ascii "reboot") ++ m) =
      runCommand info lead (ascii "reboot") := by
  obtain ⟨x, hx⟩ : ∃ x, runCommand info lead (ascii "reboot") =
      [.sent x, .delay 500, .restart] := by
    refine ⟨lead ++ ascii "Rebooting ESP32...\r\n", ?_⟩
    unfold runCommand
    rw [if_neg (by decide +kernel), if_neg (by decide +kernel), if_pos rfl]
  rw [hx]
  rfl

/-- A line without line ends in it as `interpreterTask` processes it. -/
theorem upToRestart_processLine (info : SystemInfo) {l : Bytes} (h : ∀ c ∈ l, isEnd c = false)
    (next : List TaskEvent) :
    upToRestart (processLine info l next) =
      if l = [] then prompt :: upToRestart next
      else if (Command.ofLine (cstr l)).stops then answer info l
      else answer info l ++ prompt :: upToRestart next := by
  have htrim : trimLine l = l := by
    rw [trimLine]
    rcases List.eq_nil_or_concat' l with rfl | ⟨t, c, rfl⟩
    · rfl
    · have hc : ¬(c = 13 ∨ c = 10) := by
        simpa [isEnd] using h c (List.mem_append_right _ List.mem_cons_self)
      rw [List.reverse_append, List.reverse_singleton, List.singleton_append,
        List.dropWhile_cons_of_neg (by simpa using hc), List.reverse_cons, List.reverse_reverse]
  unfold processLine answer
  rw [htrim, show l.takeWhile (· ≠ 0) = cstr l from rfl]
  have hexit_iff := Command.ofLine_eq_exit_iff (cstr l)
  by_cases hnil : l = []
  · rw [if_pos (by rw [hnil]; rfl), if_pos hnil]
    rfl
  · rw [if_neg (by rwa [List.length_eq_zero_iff]), if_neg hnil]
    by_cases hexit : Command.ofLine (cstr l) = .exit
    · rw [if_pos (hexit_iff.mp hexit), if_pos hexit, hexit,
        show Command.exit.stops = true from rfl, if_pos rfl, upToRestart,
        if_neg TaskEvent.noConfusion, upToRestart]
    · rw [if_neg fun h => hexit (hexit_iff.mpr h), if_neg hexit]
      by_cases hreboot : Command.ofLine (cstr l) = .reboot
      · rw [hreboot, Command.ofLine_eq_reboot hreboot, upToRestart_reboot,
          show Command.reboot.stops = true from rfl, if_pos rfl]
      · have hstops : (Command.ofLine (cstr l)).stops = false := by
          cases hc : Command.ofLine (cstr l) with
          | exit => exact absurd hc hexit
          | reboot => exact absurd hc hreboot
          | help => rfl
          | status => rfl
          | unknown => rfl
        rw [hstops, upToRestart_append (restart_notMem_runCommand info _ hreboot),
          if_neg Bool.false_ne_true, upToRestart, if_neg TaskEvent.noConfusion]

namespace Interpreter

/-- What the task did, with the end of the connection if it was still reading. -/
def trace (s : Interpreter) : List TaskEvent := s.log ++ if s.running then [.ended] else []

variable {info : SystemInfo} {s : Interpreter} {l : Bytes}

theorem foldl_recv_stopped (h : s.running = false) (input : Bytes) :
    input.foldl (recv info) s = s := by
  induction input with
  | nil => rfl
  | cons c input ih => rw [List.foldl_cons, recv_stopped h, ih]

/-- The rest of a run behind a line that was acted on. -/
theorem trace_act (hl : s.line.Holds l) (hrun : s.running = true) {input : Bytes}
    (ih : ∀ t : Interpreter, t.line.Holds [] → t.running = true →
      (input.foldl (recv info) t).trace = t.log ++ upToRestart (readLines info [] input)) :
    (input.foldl (recv info) (s.act info)).trace =
      s.log ++ upToRestart (processLine info l (readLines info [] input)) := by
  rw [act_of_holds info hl, upToRestart_processLine info hl.no_end]
  by_cases hnil : l = []
  · rw [if_pos hnil, if_pos hnil, ih s.again LineBuffer.holds_clear hrun, again,
      List.append_assoc]
    rfl
  · rw [if_neg hnil, if_neg hnil]
    by_cases hstops : (Command.ofLine (cstr l)).stops = true
    · rw [if_pos hstops, if_pos hstops, foldl_recv_stopped rfl, trace, if_neg Bool.false_ne_true,
        List.append_nil]
    · rw [if_neg hstops, if_neg hstops,
        ih (again { s with acted := s.acted ++ [s.line], log := s.log ++ answer info l })
          LineBuffer.holds_clear hrun, again]
      simp only [List.append_assoc]
      rfl

/-- **The loop over the buffer does what the loop over the list does.**  The induction is on what
is still to come. -/
theorem trace_foldl_recv (input : Bytes) : ∀ {s : Interpreter} {l : Bytes}, s.line.Holds l →
    l.length < LINE_BUF - 1 → s.running = true →
    (input.foldl (recv info) s).trace = s.log ++ upToRestart (readLines info l input) := by
  induction input with
  | nil =>
    intro s l hl hlt hrun
    rw [List.foldl_nil, trace, if_pos hrun]
    rfl
  | cons c input ih =>
    intro s l hl hlt hrun
    have hecho : ∀ m : List TaskEvent,
        s.log ++ upToRestart (.received c :: .sent [c] :: m) = (s.echo c).log ++ upToRestart m := by
      intro m
      rw [echo, List.append_assoc]
      rfl
    have hnext : ∀ t : Interpreter, t.line.Holds [] → t.running = true →
        (input.foldl (recv info) t).trace = t.log ++ upToRestart (readLines info [] input) :=
      fun t ht => ih ht (by decide)
    rw [List.foldl_cons, readLines, hecho]
    by_cases hend : isEnd c = true
    · have hc : c = 13 ∨ c = 10 := by simpa [isEnd] using hend
      rw [if_pos hc, recv_end hrun hend]
      exact trace_act (s := s.echo c) hl hrun hnext
    · have hc : ¬(c = 13 ∨ c = 10) := by simpa [isEnd] using hend
      have hend := eq_false_of_ne_true hend
      rw [if_neg hc]
      by_cases herase : isErase c = true
      · have hc : c = 127 ∨ c = 8 := by simpa [isErase] using herase
        rw [if_pos hc, recv_erase hrun hl hlt hend herase]
        by_cases hnil : l = []
        · rw [if_pos hnil, if_neg (by rw [hnil]; decide)]
          exact ih (s := s.echo c) hl hlt hrun
        · have hlen : l.dropLast.length < LINE_BUF - 1 := by
            rw [List.length_dropLast]
            omega
          have hrest := ih
            (s := { s with line := s.line.pop, log := (s.echo c).log ++ [.sent [32, 8]] })
            (hl.pop hnil) hlen hrun
          rw [if_neg hnil, if_pos (List.length_pos_of_ne_nil hnil), hrest, List.append_assoc]
          rfl
      · have hc : ¬(c = 127 ∨ c = 8) := by simpa [isErase] using herase
        have hpush := hl.push hlt hend
        rw [if_neg hc, recv_char hrun hl hend (eq_false_of_ne_true herase)]
        by_cases hroom : l.length + 1 < LINE_BUF - 1
        · have hrest := ih (s := { s.echo c with line := s.line.push c }) hpush
            (by rwa [List.length_append]) hrun
          rw [if_pos hroom, if_pos hroom, hrest]
        · rw [if_neg hroom, if_neg hroom]
          exact trace_act (s := { s.echo c with line := s.line.push c }) hpush hrun hnext

end Interpreter

/-- **The task without a command is the loop over its buffer.** -/
theorem interpret_log (info : SystemInfo) {args : InterpreterArgs} (h : args.cmd = none)
    (input : Bytes) :
    upToRestart (interpreterTask info args input) =
      [.freed .args, .sent (ascii "\r\n=== Welcome to ESP32 SSH Config Server (TinySSH) ===\r\n"),
        .sent (ascii "Type 'help' or '?' for available commands.\r\n")] ++
        (interpret info input).trace := by
  rw [interpret, Interpreter.trace_foldl_recv input LineBuffer.holds_clear (by decide) rfl,
    interpreterTask, h]
  generalize ascii "\r\n=== Welcome to ESP32 SSH Config Server (TinySSH) ===\r\n" = x
  generalize ascii "Type 'help' or '?' for available commands.\r\n" = y
  rfl

/-! ## 9. While the stream is in order -/

/-- The task is where the stream says. -/
structure Follows (info : SystemInfo) (p : Bytes) : Prop where
  commands_eq : (interpret info p).commands = commandsOf p
  running_eq : (interpret info p).running = !stopsIn p
  line : stopsIn p = false →
    (interpret info p).line.Holds (pending p) ∧ (pending p).length < LINE_BUF - 1

theorem follows_nil (info : SystemInfo) : Follows info [] :=
  ⟨rfl, rfl, fun _ => ⟨LineBuffer.holds_clear, by decide⟩⟩

variable {info : SystemInfo} {p : Bytes}

/-- Behind the command that stops nothing happens. -/
theorem Follows.stopped (h : Follows info p) (hstop : stopsIn p = true) (c : UInt8) :
    Follows info (p ++ [c]) := by
  have hrun : (interpret info p).running = false := by rw [h.running_eq, hstop]; rfl
  have hrecv : (interpret info p).recv info c = interpret info p :=
    Interpreter.recv_stopped hrun c
  obtain ⟨hstop', hcommands⟩ := stopsIn_concat hstop c
  refine ⟨?_, ?_, fun hno => absurd hstop' (by rw [hno]; decide)⟩
  · rw [interpret_concat, hrecv, h.commands_eq, hcommands]
  · rw [interpret_concat, hrecv, hrun, hstop']
    rfl

/-- A character into a line with room for it. -/
theorem Follows.extend (h : Follows info p) (hstop : stopsIn p = false) {c : UInt8}
    (hend : isEnd c = false) (hlt : (pending (p ++ [c])).length < LINE_BUF - 1) :
    Follows info (p ++ [c]) := by
  have hrun : (interpret info p).running = true := by rw [h.running_eq, hstop]; rfl
  obtain ⟨hl, hroom⟩ := h.line hstop
  have hstop' : stopsIn (p ++ [c]) = false := by
    rw [stopsIn, lineCommands_concat p hend]
    exact hstop
  have hcommands : commandsOf (p ++ [c]) = commandsOf p := by
    rw [commandsOf, lineCommands_concat p hend, commandsOf]
  have key : (interpret info (p ++ [c])).acted = (interpret info p).acted ∧
      (interpret info (p ++ [c])).running = true ∧
      (interpret info (p ++ [c])).line.Holds (pending (p ++ [c])) := by
    rw [pending_concat p hend] at hlt ⊢
    rw [interpret_concat]
    by_cases herase : isErase c = true
    · rw [if_pos herase, Interpreter.recv_erase hrun hl hroom hend herase]
      split
      · rename_i hnil
        refine ⟨rfl, hrun, ?_⟩
        rw [hnil] at hl ⊢
        exact hl
      · rename_i hne
        exact ⟨rfl, hrun, hl.pop hne⟩
    · rw [if_neg herase, List.length_append, List.length_singleton] at hlt
      rw [if_neg herase, Interpreter.recv_char hrun hl hend (eq_false_of_ne_true herase),
        if_pos hlt]
      exact ⟨rfl, hrun, hl.push hroom hend⟩
  obtain ⟨hacted, hrunning, hholds⟩ := key
  refine ⟨?_, by rw [hrunning, hstop']; rfl, fun _ => ⟨hholds, hlt⟩⟩
  rw [Interpreter.commands, hacted, hcommands]
  exact h.commands_eq

/-- A line end: the commands so far, and the running flag. -/
theorem Follows.ended (h : Follows info p) (hstop : stopsIn p = false) {c : UInt8}
    (hend : isEnd c = true) :
    let cmd := if pending p = [] then [] else [Command.ofLine (cstr (pending p))]
    (interpret info (p ++ [c])).commands = lineCommands p ++ cmd ∧
      (interpret info (p ++ [c])).running = !cmd.any Command.stops ∧
      (cmd.any Command.stops = false → (interpret info (p ++ [c])).line = .clear) := by
  intro cmd
  have hrun : (interpret info p).running = true := by rw [h.running_eq, hstop]; rfl
  obtain ⟨hl, -⟩ := h.line hstop
  have hcommands := h.commands_eq
  rw [commandsOf_eq hstop] at hcommands
  have hact := Interpreter.act_of_holds (s := (interpret info p).echo c) info hl
  rw [interpret_concat, Interpreter.recv_end hrun hend, hact, ← hcommands]
  by_cases hnil : pending p = []
  · have hcmd : cmd = [] := if_pos hnil
    rw [hcmd, if_pos hnil, List.append_nil]
    exact ⟨rfl, hrun, fun _ => rfl⟩
  · have hcmd : cmd = [Command.ofLine (cstr (pending p))] := if_neg hnil
    have hbuffer := hl.cstr_eq
    rw [hcmd, if_neg hnil, List.any_cons, List.any_nil, Bool.or_false]
    cases hs : (Command.ofLine (cstr (pending p))).stops with
    | true =>
      rw [if_pos rfl]
      refine ⟨?_, rfl, fun hno => by cases hno⟩
      simp only [Interpreter.commands, Interpreter.echo, List.map_append, List.map_singleton,
        hbuffer]
    | false =>
      rw [if_neg Bool.false_ne_true]
      refine ⟨?_, hrun, fun _ => rfl⟩
      simp only [Interpreter.commands, Interpreter.again, Interpreter.echo, List.map_append,
        List.map_singleton, hbuffer]

/-- The commands of a stream that a line end completes. -/
theorem commandsOf_concat_of_end (hstop : stopsIn p = false) {c : UInt8} (hend : isEnd c = true) :
    commandsOf (p ++ [c]) =
        lineCommands p ++ (if pending p = [] then [] else [Command.ofLine (pending p)]) ∧
      stopsIn (p ++ [c]) =
        (if pending p = [] then [] else [Command.ofLine (pending p)]).any Command.stops := by
  rw [commandsOf, stopsIn, lineCommands_concat_of_end p hend, List.any_append,
    show (lineCommands p).any Command.stops = false from hstop, Bool.false_or]
  refine ⟨?_, rfl⟩
  by_cases hnil : pending p = []
  · rw [if_pos hnil, List.append_nil]
    exact untilStop_eq hstop
  · rw [if_neg hnil]
    exact untilStop_concat hstop _

/-- **One character further**: if the stream still fits, the code follows it. -/
theorem Follows.step (h : Follows info p) {c : UInt8}
    (hfits : stopsIn p = true ∨ Fits (p ++ [c])) : Follows info (p ++ [c]) := by
  cases hstop : stopsIn p with
  | true => exact h.stopped hstop c
  | false =>
    have hfits : Fits (p ++ [c]) := hfits.resolve_left (by rw [hstop]; decide)
    cases hend : isEnd c with
    | false => exact h.extend hstop hend hfits.pending_lt
    | true =>
      have hsame : Command.ofLine (cstr (pending p)) = Command.ofLine (pending p) := by
        by_contra hne
        obtain ⟨n, hn, hprefix⟩ := (Command.ofLine_cstr_ne_iff _).mp hne
        refine hfits.no_zero (pending p) ?_ n hn hprefix
        rw [editedLines_concat_of_end p hend]
        exact List.mem_append_right _ List.mem_cons_self
      obtain ⟨hcommands, hrunning, hclear⟩ := h.ended hstop hend
      obtain ⟨hspec, hstop'⟩ := commandsOf_concat_of_end hstop hend
      rw [hsame] at hcommands hrunning hclear
      refine ⟨hcommands.trans hspec.symm, hrunning.trans (by rw [hstop']), fun hno => ?_⟩
      rw [hclear (hstop'.symm.trans hno), pending_concat_of_end p hend]
      exact ⟨LineBuffer.holds_clear, by decide⟩

/-- **Where the stream ceases to fit, the commands differ.** -/
theorem Follows.fits_of_commands (h : Follows info p) (hfits : Fits p) {c : UInt8}
    (hcommands : (interpret info (p ++ [c])).commands = commandsOf (p ++ [c])) :
    stopsIn p = true ∨ Fits (p ++ [c]) := by
  cases hstop : stopsIn p with
  | true => exact Or.inl rfl
  | false =>
    refine Or.inr ?_
    cases hend : isEnd c with
    | true =>
      refine ⟨by rw [pending_concat_of_end p hend]; decide, ?_⟩
      rw [editedLines_concat_of_end p hend]
      intro l hl n hn hprefix
      rcases List.mem_append.mp hl with hl | hl
      · exact hfits.no_zero l hl n hn hprefix
      · -- the line that was completed last was compared with that name
        rw [List.mem_singleton.mp hl] at hprefix
        have hne : pending p ≠ [] := by
          intro hnil
          rw [hnil] at hprefix
          exact absurd (List.prefix_nil.mp hprefix) (by simp)
        have heq := (h.ended hstop hend).1.symm.trans
          (hcommands.trans (commandsOf_concat_of_end hstop hend).1)
        rw [if_neg hne, if_neg hne] at heq
        have hsame := List.head_eq_of_cons_eq (List.append_cancel_left heq)
        exact (Command.ofLine_cstr_ne_iff _).mpr ⟨n, hn, hprefix⟩ hsame
    | false =>
      refine ⟨?_, fun l hl => hfits.no_zero l (by rwa [← editedLines_concat p hend])⟩
      have hlt := hfits.pending_lt
      by_contra hfull
      rw [pending_concat p hend] at hfull
      by_cases herase : isErase c = true
      · rw [if_pos herase, List.length_dropLast] at hfull
        omega
      · -- the full buffer is taken for a line
        have hrun : (interpret info p).running = true := by rw [h.running_eq, hstop]; rfl
        obtain ⟨hl, hroom⟩ := h.line hstop
        rw [if_neg herase, List.length_append, List.length_singleton] at hfull
        have hact := Interpreter.act_of_holds
          (s := { (interpret info p).echo c with line := (interpret info p).line.push c }) info
          (hl.push hroom hend)
        rw [if_neg (by simp)] at hact
        have hlen : (interpret info (p ++ [c])).commands.length =
            (interpret info p).commands.length + 1 := by
          rw [interpret_concat, Interpreter.recv_char hrun hl hend (eq_false_of_ne_true herase),
            if_neg hfull, hact]
          split <;>
          · simp only [Interpreter.commands, Interpreter.again, Interpreter.echo, List.length_map,
              List.length_append, List.length_singleton]
        rw [hcommands, h.commands_eq, commandsOf, commandsOf, lineCommands_concat p hend] at hlen
        omega

/-! ## 10. The whole stream -/

/-- **The interpreter follows the line discipline exactly on orderly streams.**  Whatever is
received, the buffer stays in order; and at every moment the commands acted on are those of the
complete lines if and only if, up to the command that stops, no line ever fills the buffer and no
line has a zero byte behind the name of a command. -/
theorem lineDiscipline_iff_orderly (info : SystemInfo) (input : Bytes) :
    (∀ p, p <+: input → Disciplined info p) ↔ Orderly input := by
  constructor
  · intro h
    have key : ∀ p, p <+: input → Follows info p ∧ (stopsIn p = true ∨ Fits p) ∧
        ∀ q c, q ++ [c] <+: p → stopsIn q = true ∨ Fits (q ++ [c]) := by
      intro p
      induction p using List.reverseRecOn with
      | nil =>
        intro _
        refine ⟨follows_nil info, Or.inr ⟨by decide, fun l hl => by cases hl⟩, fun q c hq => ?_⟩
        exact absurd (List.prefix_nil.mp hq) (by simp)
      | append_singleton p c ih =>
        intro hp
        obtain ⟨hfollows, hfits, hbefore⟩ := ih ((List.prefix_append p [c]).trans hp)
        have hnext : stopsIn p = true ∨ Fits (p ++ [c]) := by
          rcases hfits with hstop | hfits
          · exact Or.inl hstop
          · exact hfollows.fits_of_commands hfits (h _ hp).commands_eq
        refine ⟨hfollows.step hnext, hnext.imp_left fun hstop => (stopsIn_concat hstop c).1, ?_⟩
        intro q x hq
        rcases List.prefix_concat_iff.mp hq with heq | hq
        · obtain ⟨rfl, hx⟩ := List.append_inj' heq rfl
          rw [List.head_eq_of_cons_eq hx]
          exact hnext
        · exact hbefore q x hq
    exact fun p c hp => (key _ hp).2.2 p c (List.prefix_refl _)
  · intro h
    have key : ∀ p, p <+: input → Follows info p := by
      intro p
      induction p using List.reverseRecOn with
      | nil => exact fun _ => follows_nil info
      | append_singleton p c ih =>
        exact fun hp => (ih ((List.prefix_append p [c]).trans hp)).step (h p c hp)
    intro p hp
    have hsound := sound_interpret info p
    obtain ⟨l, hl, -⟩ := hsound.holds
    exact ⟨(key p hp).commands_eq, hl.terminated, hsound.acted⟩

/-- A line of 255 characters and "reboot" behind them: the chip is restarted, though the stream has
one line only and it names no command. -/
theorem lineDiscipline_fragment :
    ¬ ∀ p, p <+: List.replicate 255 120 ++ ascii "reboot\r" → Disciplined ⟨0, 1, []⟩ p := by
  intro h
  have hcommands := (h _ (List.prefix_refl _)).commands_eq
  have hcode : (interpret ⟨0, 1, []⟩ (List.replicate 255 120 ++ ascii "reboot\r")).commands =
      [.unknown, .reboot] := by decide +kernel
  have hspec : commandsOf (List.replicate 255 120 ++ ascii "reboot\r") = [.unknown] := by
    decide +kernel
  rw [hcode, hspec] at hcommands
  cases hcommands

/-- The same with a zero byte: what follows it is not compared. -/
example : (interpret ⟨0, 1, []⟩ (ascii "reboot" ++ [0] ++ ascii "s?\r")).commands = [.reboot] ∧
    commandsOf (ascii "reboot" ++ [0] ++ ascii "s?\r") = [.unknown] := by decide +kernel

end Glossh.Ssh
