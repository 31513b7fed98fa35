import LanguageClient.Json.Basic

/-!
# The journal

What happens on a connection is kept in a journal that is only ever appended to:
remarks for the log, and every message that went out or came in.  A trace of the
traffic is made from the journal afterwards, so making one cannot change what
happens.
-/

namespace LanguageClient

inductive Level where
  | debug
  | info
  | warning
  | error
deriving DecidableEq

namespace Level

def name : Level → Text
  | debug => "DEBUG"
  | info => "INFO"
  | warning => "WARNING"
  | error => "ERROR"

end Level

inductive Direction where
  | send
  | receive
deriving DecidableEq

namespace Direction

def name : Direction → Text
  | send => "send"
  | receive => "receive"

end Direction

inductive Entry where
  /-- A remark for the log. -/
  | remark (level : Level) (text : Text)
  /-- A message was written in full, or read in full. -/
  | traffic (direction : Direction) (message : Members)

/-- What happened, in order. -/
abbrev Journal := List Entry

end LanguageClient
