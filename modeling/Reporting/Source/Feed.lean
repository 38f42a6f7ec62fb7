import Reporting.Source.Channel

/-!
# Source/Feed — channels that are fed while a run reads them

The buffer of a channel may have less room than there are items, so items are sent while others are
taken out.  Whoever holds a sender sends the next item once there is room for it, makes another
sender or drops one, and the run takes items out as it finds them; nobody knows what the others are
about to do.  `Engine.Attends` tells what may come of a run on a channel, whichever way all this is
interleaved.
-/

namespace Reporting

/-- A channel, and the items that are still to be sent into it, in order. -/
structure Feed where
  channel : Channel
  pending : List Item

namespace Feed

/-- A new channel, with all items still to be sent. -/
def start (buffer : Nat) (items : List Item) : Feed := ⟨Channel.new buffer, items⟩

/-- The items that are in the buffer or still to be sent, in order. -/
def items (f : Feed) : List Item := f.channel.queue ++ f.pending

/-- What those do who hold senders. -/
inductive Step : Feed → Feed → Prop
  /-- The next item is sent. -/
  | send {c c' : Channel} {sender : Nat} {item : Item} {rest : List Item}
      (hsend : c.send sender item = (.accepted, c')) : Step ⟨c, item :: rest⟩ ⟨c', rest⟩
  /-- There is another sender. -/
  | clone {c c' : Channel} {sender new : Nat} {pending : List Item}
      (hclone : c.clone sender = (some new, c')) : Step ⟨c, pending⟩ ⟨c', pending⟩
  /-- There is a sender less. -/
  | drop {c c' : Channel} {sender : Nat} {pending : List Item}
      (hdrop : c.drop sender = (true, c')) : Step ⟨c, pending⟩ ⟨c', pending⟩

end Feed

/-- What may come of taking in the items of an open stream while they are being sent, and how many
are taken.  A run that ends early leaves the others alone; one that takes in everything goes on until
all items have been sent and all senders are gone. -/
inductive Intake.Drains (p : Plan) (bound : Option Nat) :
    Intake → Feed → Except ReportError Intake × Nat → Prop
  | step {s : Intake} {f f' : Feed} {result : Except ReportError Intake × Nat}
      (hstep : f.Step f') (hrest : Drains p bound s f' result) : Drains p bound s f result
  /-- An item is taken in. -/
  | take {s s' : Intake} {c c' : Channel} {item : Item} {pending : List Item}
      {result : Except ReportError Intake × Nat} (hnext : c.next = (.item item, c'))
      (haccept : s.accept p bound item = .ok s') (hrest : Drains p bound s' ⟨c', pending⟩ result) :
      Drains p bound s ⟨c, pending⟩ result
  /-- An item ends the run. -/
  | fail {s : Intake} {c c' : Channel} {item : Item} {pending : List Item} {error : ReportError}
      (hnext : c.next = (.item item, c')) (haccept : s.accept p bound item = .error error) :
      Drains p bound s ⟨c, pending⟩ (.error error, s.pulled + 1)
  | ended {s : Intake} {c c' : Channel} (hnext : c.next = (.ended, c')) :
      Drains p bound s ⟨c, []⟩ (.ok s, s.pulled)

/-- What may come of a run on a channel that is being fed, also before its stream is opened. -/
inductive Engine.Attends (e : Engine) (d : Definition) (token : Token) : Feed → Run → Prop
  | step {f f' : Feed} {run : Run} (hstep : f.Step f') (hrest : Attends e d token f' run) :
      Attends e d token f run
  | rejected {f : Feed} {error : ReportError} (hrejected : e.validate d = .error error) :
      Attends e d token f ⟨.error error, 0, 0⟩
  | ran {c : Channel} {pending : List Item} {p : Plan}
      {takeIn : Channel → Except ReportError Intake × Nat} (haccepted : e.validate d = .ok p)
      (hdrains : ∀ opened, c.openStream = .ok opened →
        Intake.Drains p e.maxWorkingSet {} ⟨opened, pending⟩ (takeIn opened)) :
      Attends e d token ⟨c, pending⟩ (runPlan p c.openStream takeIn token)

end Reporting
