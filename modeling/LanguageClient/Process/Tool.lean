import LanguageClient.Host
import LanguageClient.Process.Supervision

/-!
# Small programs

A few programs that are there on every system, as children that can be supervised:
programs that end at once, one that repeats its arguments, one that copies its input,
and one that sleeps.  They do all that they can do as soon as they can do it.
-/

namespace LanguageClient

/-- What a program does while it runs. -/
inductive Activity where
  /-- Copies its input, as it is. -/
  | copy
  /-- Copies its input with a number before every line; `line` is the number of the next one. -/
  | number (line : Nat) (atStart : Bool)
  | sleep
deriving DecidableEq

/-- A running program, or one that has ended. -/
structure Tool where
  activity : Activity
  /-- Output that has not been read. -/
  output : Bytes
  exitCode : Option Int

namespace Tool

def finished (output : Bytes) (exitCode : Int) : Tool := ⟨.sleep, output, some exitCode⟩

def running (activity : Activity) : Tool := ⟨activity, [], none⟩

def bytesOf (t : Text) : Bytes :=
  match Utf8.encodeName t with
  | .ok bytes => bytes
  | .error _ => []

/-- The number of a line in six columns, and a tab. -/
def lineMark (line : Nat) : Bytes :=
  let digits := Text.ofNat line
  bytesOf (List.replicate (6 - digits.length) (CodePoint.ofChar ' ') ++ digits ++
    [CodePoint.ofChar '\t'])

/-- Copies bytes with a number before every line. -/
def numbered (line : Nat) (atStart : Bool) : Bytes → Bytes × Nat × Bool
  | [] => ([], line, atStart)
  | b :: rest =>
    let mark := if atStart then lineMark line else []
    let (copied, last) := numbered (if atStart then line + 1 else line) (b == 0x0A) rest
    (mark ++ b :: copied, last)

/-- The program that a name and arguments stand for. -/
def ofCommand? (program : Text) (arguments : List Text) : Option Tool :=
  let isName (s : String) : Bool := Text.ofString s = program
  if isName "true" then some (finished [] 0)
  else if isName "false" then some (finished [] 1)
  else if isName "echo" then
    let line := Text.join [CodePoint.ofChar ' ']
    some (match arguments with
      | first :: rest =>
        if first = Text.ofString "-n" then finished (bytesOf (line rest)) 0
        else finished (bytesOf (line arguments) ++ [0x0A]) 0
      | [] => finished [0x0A] 0)
  else if isName "cat" then
    match arguments with
    | [] => some (running .copy)
    | option :: _ =>
      if option = Text.ofString "-n" then some (running (.number 1 true))
      else if option = Text.ofString "-" then some (running .copy)
      else some (finished
        (bytesOf (program ++ Text.ofString ": " ++ option ++
          Text.ofString ": No such file or directory\n")) 1)
  else if isName "sleep" then
    if arguments = [Text.ofString "0"] then some (finished [] 0) else some (running .sleep)
  else none

def write (bytes : Bytes) (t : Tool) : WriteOutcome × Tool :=
  if t.exitCode.isSome then (.broken, t)
  else match t.activity with
    | .copy => (.accepted, { t with output := t.output ++ bytes })
    | .number line atStart =>
      let (copied, line, atStart) := numbered line atStart bytes
      (.accepted, { t with activity := .number line atStart, output := t.output ++ copied })
    | .sleep => (.accepted, t)

/-- Reads what the program has written. -/
def read (limit : Nat) (t : Tool) : ReadOutcome × Tool :=
  if t.output.isEmpty then (if t.exitCode.isSome then .ended else .wouldBlock, t)
  else (.data (t.output.take limit), { t with output := t.output.drop limit })

/-- Ends with an exit code, unless the program has ended. -/
def finish (exitCode : Int) (t : Tool) : Tool := { t with exitCode := some (t.exitCode.getD exitCode) }

/-- Goes on as long as the program runs of its own accord. -/
def runOut (t : Tool) : Tool :=
  match t.activity with
  | .sleep => t.finish 0
  | _ => t

/-- At the end of its input a program that copies ends. -/
def endInput (t : Tool) : Tool :=
  match t.activity with
  | .sleep => t
  | _ => t.finish 0

instance : Child Tool where
  write := write
  read := read
  hasOutput t := !t.output.isEmpty || t.exitCode.isSome
  closeInput t := (true, t.endInput)
  closeOutput t := (true, t)
  poll t := (t.exitCode, t)
  terminate := finish (-15)
  kill := finish (-9)
  pause t := t
  reap t := (true, t)

end Tool

/-- A host that has the small programs. -/
structure ToolHost where
  /-- Paths of programs are looked up here. -/
  files : Files
  workingDirectory : Text
  nextProcessId : Nat
  /-- Why the output of programs cannot be made to return at once. -/
  obstacle : Option SystemError

namespace ToolHost

def start (command : Text) (h : ToolHost) : StartOutcome (Supervised Tool) × ToolHost :=
  if command.any (·.val == 0) then (.impossible .embeddedNul, h)
  else
    let program := command.words.headD []
    match Tool.ofCommand? program (command.words.drop 1) with
    | none => (.ofMissing h.files h.workingDirectory program, h)
    | some tool =>
      let process := Supervised.attach tool command.words
      let next := { h with nextProcessId := h.nextProcessId + 1 }
      match h.obstacle with
      | none => (.started h.nextProcessId process, next)
      | some e => (.unusable h.nextProcessId process e, next)

instance : Host ToolHost (Supervised Tool) := ⟨start⟩

end ToolHost

end LanguageClient
