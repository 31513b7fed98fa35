import LanguageClient.Fault

/-!
# Severities

A diagnostic may carry a number for how severe it is.  Four numbers have names; the
number may be written with a fraction of zero.
-/

namespace LanguageClient

inductive Severity where
  | error
  | warning
  | info
  | hint
deriving DecidableEq

namespace Severity

/-- The number that stands for a severity. -/
def number : Severity → Nat
  | error => 1
  | warning => 2
  | info => 3
  | hint => 4

def name : Severity → Text
  | error => "Error"
  | warning => "Warning"
  | info => "Info"
  | hint => "Hint"

def all : List Severity := [error, warning, info, hint]

/-- The severity that a value stands for.  A list or an object cannot be looked up. -/
def ofJson? (v : Json) : Except Fault (Option Severity) :=
  match v with
  | .arr _ | .obj _ => .error .wrongKind
  | v => .ok (all.find? fun s => v.same (.int s.number))

/-- How the severity of a diagnostic is named. -/
def nameOf : Option Json → Except Fault Text
  | none | some .null => .ok "Unknown"
  | some v => do
    match ← ofJson? v with
    | some s => return s.name
    | none => return "Unknown " ++ v.worded

end Severity

end LanguageClient
