/-! The console: `getch` and `read` of `KernelIO`, as one reader drives them. -/

namespace AtOS

/-- The byte of a backspace. -/
def backspaceByte : UInt8 := 8

/-- The byte of a newline. -/
def newlineByte : UInt8 := 10

/-- The byte of a carriage return. -/
def returnByte : UInt8 := 13

/-- The byte of a space. -/
def spaceByte : UInt8 := 32

/-- The byte of a delete. -/
def deleteByte : UInt8 := 127

/-- `KernelIO`: whether its mutex is taken, and the bytes its device has sent. -/
structure KernelIo where
  locked : Bool
  sent : List UInt8
  deriving DecidableEq

/-- What stops a reader at the mutex of the console. -/
inductive IoStop where
  /-- The mutex is taken, and with a single reader nobody else is there to release it. -/
  | deadlock
  /-- The panic of a release without an acquire. -/
  | unlocked
  deriving DecidableEq

/-- `acquire` on the mutex of the console. -/
def KernelIo.acquire (io : KernelIo) : Except IoStop KernelIo :=
  if io.locked then .error .deadlock else .ok { io with locked := true }

/-- `release` on the mutex of the console. -/
def KernelIo.release (io : KernelIo) : Except IoStop KernelIo :=
  if io.locked then .ok { io with locked := false } else .error .unlocked

/-- `write_byte`. -/
def KernelIo.writeByte (io : KernelIo) (c : UInt8) : KernelIo :=
  { io with sent := io.sent ++ [c] }

/-- What a call of `getch` comes to: a byte, or the next poll if the listed ones are all made. -/
inductive Getch where
  | returned (c : UInt8) (io : KernelIo) (polls : List (Option UInt8))
  | polling (io : KernelIo)
  deriving DecidableEq

/--
The loops of `getch`, from a poll on.

The list holds what the polls to come find, one entry for each call of `poll_byte`.
-/
def KernelIo.getchLoop (io : KernelIo) : List (Option UInt8) → Except IoStop Getch
  | [] => .ok (.polling io)
  | none :: polls => do
    let io ← io.release
    -- The reader sleeps on the channel of the UART here.
    let io ← io.acquire
    io.getchLoop polls
  | some c :: polls => do
    if c = backspaceByte ∨ c = deleteByte then
      return .returned c (← io.release) polls
    else if c = returnByte then
      let io := io.writeByte newlineByte
      return .returned newlineByte (← io.release) polls
    else if c = newlineByte then
      let io ← io.release
      -- The outer loop starts again.
      let io ← io.acquire
      io.getchLoop polls
    else
      let io := io.writeByte c
      return .returned c (← io.release) polls

/-- `getch`. -/
def KernelIo.getch (io : KernelIo) (polls : List (Option UInt8)) : Except IoStop Getch := do
  let io ← io.acquire
  io.getchLoop polls

/-- `8 ' ' 8`, under the mutex: a character is erased from the screen. -/
def KernelIo.erase (io : KernelIo) : Except IoStop KernelIo := do
  let io ← io.acquire
  let io := io.writeByte backspaceByte
  let io := io.writeByte spaceByte
  let io := io.writeByte backspaceByte
  io.release

/-- What a call of `read` comes to: a length, or the next poll if the listed ones are all made. -/
inductive Reading where
  | returned (r : Nat) (buf : List UInt8) (io : KernelIo) (polls : List (Option UInt8))
  | polling (r : Nat) (buf : List UInt8) (io : KernelIo)
  deriving DecidableEq

/--
The loop of `read`, from its test on.

A pass takes at least one poll, so more passes than polls are never needed.
-/
def readLoop : Nat → Nat → List UInt8 → KernelIo → List (Option UInt8) → Except IoStop Reading
  | 0, r, buf, io, _ => .ok (.polling r buf io)
  | passes + 1, r, buf, io, polls => do
    if r < buf.length then
      match ← io.getch polls with
      | .polling io => return .polling r buf io
      | .returned c io polls =>
        if c = backspaceByte ∨ c = deleteByte then
          if r > 0 then
            readLoop passes (r - 1) buf (← io.erase) polls
          else
            readLoop passes r buf io polls
        else
          let buf := buf.set r c
          if c = newlineByte then
            return .returned (r + 1) buf io polls
          else
            readLoop passes (r + 1) buf io polls
    else
      return .returned r buf io polls

/-- `read`: the line a single reader gets into its buffer. -/
def KernelIo.read (io : KernelIo) (buf : List UInt8) (polls : List (Option UInt8)) :
    Except IoStop Reading :=
  readLoop (polls.length + 1) 0 buf io polls

end AtOS
