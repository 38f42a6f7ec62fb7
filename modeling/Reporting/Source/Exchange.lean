import Reporting.Source.Feed

/-!
# Source/Exchange — a channel in use

Senders put items into a channel while one call after another runs a definition on it.  A call checks
its definition and looks at its token before it opens the stream; the one that gets a stream takes items
out as it finds them, and gives the receiver up in the end.  `Exchange.Step` tells what may happen next.
-/

namespace Reporting

/-- A call that runs a definition on a channel. -/
structure Call where
  engine : Engine
  definition : Definition
  token : Token

/-- A call with an open stream: its plan and what it has taken in. -/
structure Reader where
  call : Call
  plan : Plan
  intake : Intake

/-- A channel, and what has been done with it so far. -/
structure Exchange where
  channel : Channel
  /-- The items that have been sent, in order. -/
  sent : List Item := []
  /-- The call that has an open stream. -/
  reader : Option Reader := none
  /-- The calls that have come to an end, in order. -/
  calls : List Call := []
  /-- What came of each of them. -/
  runs : List Run := []

namespace Exchange

/-- A new channel that nothing has been done with. -/
def start (buffer : Nat) : Exchange := { channel := .new buffer }

/-- What may happen next. -/
inductive Step : Exchange → Exchange → Prop
  /-- Those who hold senders do something, which may be sending an item. -/
  | feed {c c' : Channel} {sent items : List Item} {reader : Option Reader} {calls : List Call}
      {runs : List Run} (hfeed : Feed.Step ⟨c, items⟩ ⟨c', []⟩) :
      Step ⟨c, sent, reader, calls, runs⟩ ⟨c', sent ++ items, reader, calls, runs⟩
  /-- The definition of a call is wrong. -/
  | reject {c : Channel} {sent : List Item} {calls : List Call} {runs : List Run} {call : Call}
      {error : ReportError} (hrejected : call.engine.validate call.definition = .error error) :
      Step ⟨c, sent, none, calls, runs⟩
        ⟨c, sent, none, calls ++ [call], runs ++ [⟨.error error, 0, 0⟩]⟩
  /-- A call has been called off before it starts. -/
  | cancel {c : Channel} {sent : List Item} {calls : List Call} {runs : List Run} {call : Call}
      {p : Plan} (haccepted : call.engine.validate call.definition = .ok p)
      (hset : call.token ⟨.filtering, 0, 0⟩ = true) :
      Step ⟨c, sent, none, calls, runs⟩
        ⟨c, sent, none, calls ++ [call], runs ++ [⟨.error .cancelled, 0, 0⟩]⟩
  /-- There is no stream for a call. -/
  | miss {c : Channel} {sent : List Item} {calls : List Call} {runs : List Run} {call : Call}
      {p : Plan} {cause : SourceError} (haccepted : call.engine.validate call.definition = .ok p)
      (hclear : call.token ⟨.filtering, 0, 0⟩ = false) (hopen : c.openStream = .error cause) :
      Step ⟨c, sent, none, calls, runs⟩
        ⟨c, sent, none, calls ++ [call], runs ++ [⟨.error (.sourceUnavailable cause), 1, 0⟩]⟩
  /-- A call is handed the receiver. -/
  | opened {c c' : Channel} {sent : List Item} {calls : List Call} {runs : List Run} {call : Call}
      {p : Plan} (haccepted : call.engine.validate call.definition = .ok p)
      (hclear : call.token ⟨.filtering, 0, 0⟩ = false) (hopen : c.openStream = .ok c') :
      Step ⟨c, sent, none, calls, runs⟩ ⟨c', sent, some ⟨call, p, {}⟩, calls, runs⟩
  /-- An item is taken in. -/
  | take {c c' : Channel} {sent : List Item} {calls : List Call} {runs : List Run} {call : Call}
      {p : Plan} {s s' : Intake} {item : Item} (hnext : c.next = (.item item, c'))
      (haccept : s.accept p call.engine.maxWorkingSet item = .ok s') :
      Step ⟨c, sent, some ⟨call, p, s⟩, calls, runs⟩ ⟨c', sent, some ⟨call, p, s'⟩, calls, runs⟩
  /-- An item ends a call. -/
  | fail {c c' : Channel} {sent : List Item} {calls : List Call} {runs : List Run} {call : Call}
      {p : Plan} {s : Intake} {item : Item} {error : ReportError}
      (hnext : c.next = (.item item, c'))
      (haccept : s.accept p call.engine.maxWorkingSet item = .error error) :
      Step ⟨c, sent, some ⟨call, p, s⟩, calls, runs⟩
        ⟨c'.close, sent, none, calls ++ [call], runs ++ [⟨.error error, 1, s.pulled + 1⟩]⟩
  /-- The stream ends, and the call concludes. -/
  | finish {c c' : Channel} {sent : List Item} {calls : List Call} {runs : List Run} {call : Call}
      {p : Plan} {s : Intake} (hnext : c.next = (.ended, c')) :
      Step ⟨c, sent, some ⟨call, p, s⟩, calls, runs⟩
        ⟨c', sent, none, calls ++ [call], runs ++ [⟨Engine.conclude p call.token s, 1, s.pulled⟩]⟩

end Exchange

/-- Runs calls one after another on a channel whose senders are gone. -/
def Channel.executeAll (c : Channel) : List Call → List Run × Channel
  | [] => ([], c)
  | call :: rest =>
    let (run, c) := c.execute call.engine call.definition call.token
    let (runs, c) := executeAll c rest
    (run :: runs, c)

end Reporting
