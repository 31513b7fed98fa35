import LanguageClient.Text.Quoted

/-!
# Errors of the operating system

What the system reports when a file or a pipe cannot be used: a code, and the path
that was meant when there is one.
-/

namespace LanguageClient

/-- The codes that can be met. -/
inductive SystemCode where
  | noEntry
  | inputOutput
  | badDescriptor
  | permissionDenied
  | fileExists
  | notADirectory
  | isADirectory
  | brokenPipe
  | nameTooLong
deriving DecidableEq

namespace SystemCode

def number : SystemCode → Nat
  | noEntry => 2
  | inputOutput => 5
  | badDescriptor => 9
  | permissionDenied => 13
  | fileExists => 17
  | notADirectory => 20
  | isADirectory => 21
  | brokenPipe => 32
  | nameTooLong => 36

def text : SystemCode → Text
  | noEntry => "No such file or directory"
  | inputOutput => "Input/output error"
  | badDescriptor => "Bad file descriptor"
  | permissionDenied => "Permission denied"
  | fileExists => "File exists"
  | notADirectory => "Not a directory"
  | isADirectory => "Is a directory"
  | brokenPipe => "Broken pipe"
  | nameTooLong => "File name too long"

end SystemCode

structure SystemError where
  code : SystemCode
  path : Option Text
deriving DecidableEq

/-- The message has the number, the wording and the path. -/
def SystemError.message (e : SystemError) : Text :=
  "[Errno " ++ Text.ofNat e.code.number ++ "] " ++ e.code.text ++
    (match e.path with
      | some path => Text.ofString ": " ++ Quoted.text path
      | none => [])

end LanguageClient
