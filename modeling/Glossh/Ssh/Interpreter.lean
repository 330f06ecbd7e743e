/-
# `interpreter_task`: the shell of a session

The task that `channel_exec` starts.  With a command it runs that one; without one it reads lines
from the session, with echo and backspace, and runs each.  Either way it comes to `cleanup`, where
it closes its two descriptors, unless a `reboot` restarts the chip.

A task is the list of what it has still to do.  What `recv` will bring it is an argument: the bytes
in front of the first `recv` that returns 0 or fails.
-/
import Glossh.Ssh.Channel

namespace Glossh.Ssh

open Bytes

/-! ## 1. The task -/

/-- `struct interpreter_args`. -/
structure InterpreterArgs where
  readFd : ℤ
  writeFd : ℤ
  cmd : Option Bytes
deriving DecidableEq

/-- What `channel_exec` allocates for the task: the structure, and the copy of the command. -/
inductive Block where
  | args
  | cmd
deriving DecidableEq

/-- What the task does. -/
inductive TaskEvent where
  | sent (x : Bytes)
  | received (c : UInt8)
  /-- A `recv` that returns 0 or fails. -/
  | ended
  /-- `vTaskDelay`, in milliseconds. -/
  | delay (ms : ℕ)
  /-- `esp_restart`. -/
  | restart
  | freed (b : Block)
deriving DecidableEq

/-- What "status" reports. -/
structure SystemInfo where
  freeHeap : ℕ
  cores : ℕ
  idfVersion : Bytes

def STATUS_BUF : ℕ := 128

def LINE_BUF : ℕ := 256

/-- The text of "status", in a buffer of `STATUS_BUF` bytes with its zero. -/
def statusText (info : SystemInfo) (lead : Bytes) : Bytes :=
  (lead ++ ascii "System Status:\r\n  Free Heap: " ++ ascii (toString info.freeHeap) ++
    ascii " bytes\r\n  Chip Cores: " ++ ascii (toString info.cores) ++
    ascii "\r\n  IDF Version: " ++ info.idfVersion ++ ascii "\r\n").take (STATUS_BUF - 1)

/-- One command; in the loop the first text has a line end in front. -/
def runCommand (info : SystemInfo) (lead cmd : Bytes) : List TaskEvent :=
  if cmd = ascii "help" ∨ cmd = ascii "?" then
    [.sent (lead ++ ascii "Available commands:\r\n"),
      .sent (ascii "  help | ?        Show this help message\r\n"),
      .sent (ascii "  status          Show ESP32 system status\r\n"),
      .sent (ascii "  reboot          Reboot the ESP32 chip\r\n"),
      .sent (ascii "  exit            Disconnect the session\r\n")]
  else if cmd = ascii "status" then [.sent (statusText info lead)]
  else if cmd = ascii "reboot" then
    [.sent (lead ++ ascii "Rebooting ESP32...\r\n"), .delay 500, .restart]
  else [.sent (lead ++ ascii "Unknown command. Type 'help' for options.\r\n")]

def prompt : TaskEvent := .sent (ascii "\r\nesp32> ")

/-- "Trim trailing carriage return / newlines". -/
def trimLine (line : Bytes) : Bytes :=
  (line.reverse.dropWhile fun c => c = 13 ∨ c = 10).reverse

/-- "Process command"; `next` is what the loop goes on with. -/
def processLine (info : SystemInfo) (line : Bytes) (next : List TaskEvent) : List TaskEvent :=
  if (trimLine line).length = 0 then prompt :: next
  else if (trimLine line).takeWhile (· ≠ 0) = ascii "exit" then [.sent (ascii "\r\nGoodbye!\r\n")]
  else runCommand info (ascii "\r\n") ((trimLine line).takeWhile (· ≠ 0)) ++ prompt :: next

/-- "Read a line from client", and the loop around it; `buffer` is what the line has so far. -/
def readLines (info : SystemInfo) : Bytes → Bytes → List TaskEvent
  | _, [] => [.ended]
  | buffer, c :: input =>
    .received c :: .sent [c] ::
      (if c = 13 ∨ c = 10 then processLine info buffer (readLines info [] input)
      else if c = 127 ∨ c = 8 then
        if buffer.length > 0 then .sent [32, 8] :: readLines info buffer.dropLast input
        else readLines info buffer input
      else if buffer.length + 1 < LINE_BUF - 1 then readLines info (buffer ++ [c]) input
      else processLine info (buffer ++ [c]) (readLines info [] input))

/-- `interpreter_task` up to `cleanup`. -/
def interpreterTask (info : SystemInfo) (args : InterpreterArgs) (input : Bytes) :
    List TaskEvent :=
  .freed .args :: match args.cmd with
    | some cmd => runCommand info [] cmd ++ [.freed .cmd]
    | none =>
      [.sent (ascii "\r\n=== Welcome to ESP32 SSH Config Server (TinySSH) ===\r\n"),
        .sent (ascii "Type 'help' or '?' for available commands.\r\n"), prompt] ++
        readLines info [] input

/-- A task: what it does up to `cleanup`, and the descriptors it has not closed. -/
structure Task where
  args : InterpreterArgs
  todo : List TaskEvent
  fds : List ℤ

/-- `xTaskCreate` of `interpreter_task`. -/
def Task.create (info : SystemInfo) (args : InterpreterArgs) (input : Bytes) : Task where
  args := args
  todo := interpreterTask info args input
  fds := [args.readFd, args.writeFd]

/-! ## 2. What it frees -/

/-- The blocks that are freed. -/
def freedBlocks (l : List TaskEvent) : List Block :=
  l.filterMap fun e => match e with
    | .freed b => some b
    | _ => none

@[simp] theorem freedBlocks_nil : freedBlocks [] = [] := rfl

@[simp] theorem freedBlocks_freed (b : Block) (l : List TaskEvent) :
    freedBlocks (.freed b :: l) = b :: freedBlocks l := rfl

@[simp] theorem freedBlocks_sent (x : Bytes) (l : List TaskEvent) :
    freedBlocks (.sent x :: l) = freedBlocks l := rfl

@[simp] theorem freedBlocks_received (c : UInt8) (l : List TaskEvent) :
    freedBlocks (.received c :: l) = freedBlocks l := rfl

@[simp] theorem freedBlocks_append (l l' : List TaskEvent) :
    freedBlocks (l ++ l') = freedBlocks l ++ freedBlocks l' := List.filterMap_append

@[simp] theorem freedBlocks_prompt (l : List TaskEvent) :
    freedBlocks (prompt :: l) = freedBlocks l := rfl

@[simp] theorem freedBlocks_runCommand (info : SystemInfo) (lead cmd : Bytes) :
    freedBlocks (runCommand info lead cmd) = [] := by
  unfold runCommand
  split
  · rfl
  · split
    · rfl
    · split <;> rfl

theorem freedBlocks_processLine (info : SystemInfo) (line : Bytes) {next : List TaskEvent}
    (h : freedBlocks next = []) : freedBlocks (processLine info line next) = [] := by
  unfold processLine
  split
  · rw [freedBlocks_prompt, h]
  · split
    · rfl
    · rw [freedBlocks_append, freedBlocks_runCommand, freedBlocks_prompt, h, List.nil_append]

theorem freedBlocks_readLines (info : SystemInfo) (buffer input : Bytes) :
    freedBlocks (readLines info buffer input) = [] := by
  induction input generalizing buffer with
  | nil => rfl
  | cons c input ih =>
    rw [readLines, freedBlocks_received, freedBlocks_sent]
    split
    · exact freedBlocks_processLine info buffer (ih [])
    · split
      · split
        · exact ih _
        · exact ih buffer
      · split
        · exact ih _
        · exact freedBlocks_processLine info _ (ih [])

/-- **The task frees what it was given**, each block once. -/
theorem freedBlocks_interpreterTask (info : SystemInfo) (args : InterpreterArgs) (input : Bytes) :
    freedBlocks (interpreterTask info args input) =
      .args :: (if args.cmd.isSome then [.cmd] else []) := by
  unfold interpreterTask
  cases args.cmd with
  | some cmd => simp
  | none => simp [freedBlocks_readLines]

end Glossh.Ssh
