import LanguageClient.Rpc.Connection

/-!
# Requests and responses

A request is answered by the response that carries its id.  While a response is
awaited, whatever else the server says is kept for later; a response nobody waits
for is dropped with a remark.  Every operation makes at most one wait.
-/

namespace LanguageClient.Connection

variable {σ : Type} [Peer σ]

/-- Waits until a message can be read, at most as long as the connection's timeout. -/
def awaitOutput : Exchange σ Unit := do
  let c ← get
  if Frame.isReady c.buffer then return
  let (readiness, peer) := Peer.await c.pollTimeout c.peer
  set { c with peer := peer }
  match readiness with
  | .ready => return
  | .quiet => Attempt.fail .timeout
  | .interrupted => Attempt.fault .interrupted
  | .closed => Attempt.fault .closedWatch

/-- One poll cycle: a wait, and at most one message. -/
def readOne : Exchange σ Members := do
  awaitOutput
  match ← readNext.outcome with
  | .ok message => return message
  | .error .wouldBlock => Attempt.fail .timeout
  | .error e => Attempt.fail e

/-- The id of a response; none counts as null. -/
def responseId (message : Members) : Json := (message.get? "id").getD .null

/-- One poll cycle for the response to a request. -/
def receive (id : Json) : Exchange σ Members := do
  let message ← readOne
  if message.has "method" then
    modify fun c => { c with inbox := c.inbox ++ [message] }
    Attempt.fail .noResponse
  let answered := responseId message
  if answered.same id then return message
  remark .warning ("Received response for unknown request ID: " ++ answered.worded ++
    " (waiting for " ++ id.worded ++ ")")
  Attempt.fail (.unsolicited answered)

/-- Writes a request and makes one poll cycle for its response. -/
def call (id : Json) (method : Text) (params : Json) : Exchange σ Members := do
  request id method params
  receive id

/-- Repeats poll cycles for a response, at most `cycles` of them, as long as that may help. -/
def keepReceiving (id : Json) : (cycles : Nat) → Except RpcError Members → Exchange σ Members
  | 0, last => Attempt.ofExcept .failed last
  | cycles + 1, last =>
    match last with
    | .ok message => return message
    | .error e =>
      if e.isRetryable then do keepReceiving id cycles (← (receive id).outcome)
      else Attempt.fail e

/-- Writes a request once and makes at most `cycles` poll cycles for its response. -/
def callRepeatedly (cycles : Nat) (id : Json) (method : Text) (params : Json) :
    Exchange σ Members := do
  keepReceiving id (cycles - 1) (← (call id method params).outcome)

/-- The next notification or request of the server: the first one kept, or else what one poll cycle
brings.  Nothing means that nothing arrived in time, or that a late response was dropped. -/
def next : Exchange σ (Option Members) := do
  let c ← get
  match c.inbox with
  | message :: rest =>
    set { c with inbox := rest }
    return some message
  | [] =>
    match ← readOne.outcome with
    | .error .timeout => return none
    | .error e => Attempt.fail e
    | .ok message =>
      if message.has "method" then return some message
      remark .warning ("Dropping late response for request ID: " ++ (responseId message).worded)
      return none

end LanguageClient.Connection
