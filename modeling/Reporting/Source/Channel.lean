import Reporting.Run.Engine

/-!
# Source/Channel — records handed over as they arise

Senders put items into a buffer and one receiver takes them out in order.  The receiver is handed
out once.  When it is gone, sending fails; when all senders are gone and the buffer is empty, the
stream ends.
-/

namespace Reporting

/-- Where the receiving end of a channel is. -/
inductive Receiver
  /-- Not handed out yet. -/
  | held
  /-- With an open stream. -/
  | streaming
  /-- Given up. -/
  | gone
  deriving DecidableEq, Repr

/-- A channel. -/
structure Channel where
  capacity : Nat
  queue : List Item
  /-- For each sender whether it is still there. -/
  senders : List Bool
  receiver : Receiver

/-- What comes of sending. -/
inductive Sending
  /-- The item is in the buffer. -/
  | accepted
  /-- There is nobody to receive it. -/
  | refused
  /-- The buffer is full. -/
  | waiting
  /-- There is no such sender. -/
  | noSender
  deriving DecidableEq, Repr

/-- What comes of receiving. -/
inductive Receiving
  | item (i : Item)
  /-- The buffer is empty, but there are senders. -/
  | waiting
  /-- The stream has ended. -/
  | ended
  /-- There is no open stream. -/
  | closed

namespace Channel

/-- A channel with one sender.  It has room for at least one item. -/
def new (buffer : Nat) : Channel := ⟨max buffer 1, [], [true], .held⟩

/-- Whether a sender is there. -/
def hasSender (c : Channel) (sender : Nat) : Bool := c.senders.getD sender false

/-- Sends an item. -/
def send (c : Channel) (sender : Nat) (item : Item) : Sending × Channel :=
  if !c.hasSender sender then (.noSender, c)
  else if c.receiver = .gone then (.refused, c)
  else if c.capacity ≤ c.queue.length then (.waiting, c)
  else (.accepted, { c with queue := c.queue ++ [item] })

/-- Makes another sender, and tells its number. -/
def clone (c : Channel) (sender : Nat) : Option Nat × Channel :=
  if c.hasSender sender then (some c.senders.length, { c with senders := c.senders ++ [true] })
  else (none, c)

/-- Drops a sender, and tells whether it was there. -/
def drop (c : Channel) (sender : Nat) : Bool × Channel :=
  if c.hasSender sender then (true, { c with senders := c.senders.set sender false })
  else (false, c)

/-- Drops all senders. -/
def dropAll (c : Channel) : Channel := { c with senders := c.senders.map fun _ => false }

/-- Hands out the receiver. -/
def openStream (c : Channel) : Except SourceError Channel :=
  match c.receiver with
  | .held => .ok { c with receiver := .streaming }
  | _ => .error .exhausted

/-- Takes the next item.  A stream that has ended is closed. -/
def next (c : Channel) : Receiving × Channel :=
  match c.receiver with
  | .streaming =>
    match c.queue with
    | item :: rest => (.item item, { c with queue := rest })
    | [] => if c.senders.any id then (.waiting, c) else (.ended, { c with receiver := .gone })
  | _ => (.closed, c)

/-- Gives up the receiver and what is in the buffer, if a stream is open. -/
def close (c : Channel) : Channel :=
  if c.receiver = .streaming then { c with receiver := .gone, queue := [] } else c

/-- A channel that items have been sent into and whose senders are gone. -/
def ofItems (items : List Item) : Channel :=
  (items.foldl (fun c item => (c.send 0 item).2) (new items.length)).dropAll

/-- The items of an open stream until it ends, at most as many as the fuel says. -/
def take : Nat → Channel → Stream
  | 0, _ => .done
  | fuel + 1, c =>
    match c.next with
    | (.item item, c) => .next item (take fuel c)
    | _ => .done

/-- The stream of a channel whose senders are gone. -/
def stream (c : Channel) : Except SourceError Stream :=
  match c.openStream with
  | .ok opened => .ok (take opened.queue.length opened)
  | .error e => .error e

/-! ## Channels that have been filled -/

/-- Items for which there is room go to the end of the buffer. -/
theorem foldl_send {c : Channel} {items : List Item} (hsender : c.hasSender 0)
    (hreceiver : c.receiver ≠ .gone) (hroom : c.queue.length + items.length ≤ c.capacity) :
    items.foldl (fun c item => (c.send 0 item).2) c = { c with queue := c.queue ++ items } := by
  induction items generalizing c with
  | nil => simp
  | cons item rest ih =>
    have hfree : ¬ c.capacity ≤ c.queue.length := by
      simp only [List.length_cons] at hroom
      omega
    have hsend : (c.send 0 item).2 = { c with queue := c.queue ++ [item] } := by
      simp [send, hsender, hreceiver, hfree]
    rw [List.foldl_cons, hsend, ih]
    · simp
    · exact hsender
    · exact hreceiver
    · simp only [List.length_append, List.length_cons, List.length_nil] at hroom ⊢
      omega

/-- A channel that has been filled holds the items and waits for its stream to be opened. -/
theorem ofItems_eq (items : List Item) :
    ofItems items = ⟨max items.length 1, items, [false], .held⟩ := by
  have := @foldl_send (new items.length) items rfl (by simp [new])
    (by simp only [new, List.length_nil]; omega)
  simp only [ofItems, this]
  simp [dropAll, new]

/-- A stream yields what is in the buffer. -/
theorem take_length {c : Channel} (h : c.receiver = .streaming) :
    take c.queue.length c = Stream.ofList c.queue := by
  obtain ⟨capacity, queue, senders, receiver⟩ := c
  subst h
  induction queue with
  | nil => rfl
  | cons item rest ih => simp [take, next, Stream.ofList, ih]

/-- **A filled channel yields its items in the order in which they were sent.** -/
theorem stream_ofItems (items : List Item) :
    (ofItems items).stream = .ok (Stream.ofList items) := by
  simp only [stream, ofItems_eq, openStream]
  exact congrArg Except.ok
    (take_length (c := ⟨max items.length 1, items, [false], .streaming⟩) rfl)

/-! ## Running -/

/-- Runs a definition on a channel whose senders are gone.  A run that opened the stream gives it up
in the end. -/
def execute (c : Channel) (e : Engine) (d : Definition) (token : Token) : Run × Channel :=
  let run := e.executeStream d c.stream token
  if run.opened = 0 then (run, c)
  else
    match c.openStream with
    | .ok opened => (run, opened.close)
    | .error _ => (run, c)

end Channel

end Reporting
