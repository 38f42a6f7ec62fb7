import Mathlib.Logic.Relation
import Reporting.Proofs.Run.Arrival
import Reporting.Source.Exchange

/-!
# Proofs/Run/SingleUse — a channel serves one call

A call that is refused has not asked for the stream; the first one that asks is handed the receiver, and
there is none for those after it.  So the state of the receiver tells what has become of the items:
while it is held they are all in the buffer, while there is a stream they have been taken in or are in
the buffer, and when it is gone one call has been run on them (`Exchange.Sound`).  That is so at the
start, and whatever senders and calls do keeps it so (`Exchange.Sound.step`).
-/

namespace Reporting

/-! ## What calls come to -/

namespace Call

/-- Why a call does not ask for the stream: its definition is wrong, or it has been called off before
it starts. -/
def refusal? (call : Call) : Option ReportError :=
  match call.engine.validate call.definition with
  | .error error => some error
  | .ok _ => if call.token ⟨.filtering, 0, 0⟩ then some .cancelled else none

/-- What comes of a call on items that are there. -/
def run (call : Call) (items : List Item) : Run :=
  call.engine.execute call.definition (.ok items) call.token

/-- What comes of a call on a channel that has been used. -/
def afterwards (call : Call) : Run :=
  match call.refusal? with
  | some error => ⟨.error error, 0, 0⟩
  | none => ⟨.error (.sourceUnavailable .exhausted), 1, 0⟩

/-- What comes of calls, one after another, on a channel that these items are sent into.  The first call
that asks for the stream is run on them. -/
def answers (items : List Item) : List Call → List Run
  | [] => []
  | call :: rest =>
    match call.refusal? with
    | some error => ⟨.error error, 0, 0⟩ :: answers items rest
    | none => call.run items :: rest.map afterwards

variable {call : Call} {calls : List Call} {items : List Item} {p : Plan} {error : ReportError}

theorem refusal?_eq_none_iff : call.refusal? = none ↔
    ∃ p, call.engine.validate call.definition = .ok p ∧ call.token ⟨.filtering, 0, 0⟩ = false := by
  unfold refusal?
  cases call.engine.validate call.definition <;> simp

theorem refusal?_of_rejected (h : call.engine.validate call.definition = .error error) :
    call.refusal? = some error := by
  rw [refusal?, h]

theorem refusal?_of_cancelled (haccepted : call.engine.validate call.definition = .ok p)
    (hset : call.token ⟨.filtering, 0, 0⟩ = true) : call.refusal? = some .cancelled := by
  rw [refusal?, haccepted]
  exact if_pos hset

theorem afterwards_of_refused (h : call.refusal? = some error) :
    call.afterwards = ⟨.error error, 0, 0⟩ := by
  rw [afterwards, h]

theorem afterwards_of_asking (h : call.refusal? = none) :
    call.afterwards = ⟨.error (.sourceUnavailable .exhausted), 1, 0⟩ := by
  rw [afterwards, h]

/-- A call that is refused comes to the same on any source. -/
theorem execute_of_refused (h : call.refusal? = some error) (source : Except SourceError (List Item)) :
    call.engine.execute call.definition source call.token = ⟨.error error, 0, 0⟩ := by
  unfold refusal? at h
  split at h
  · rename_i hrejected
    cases h
    rw [Engine.execute, hrejected]
  · rename_i haccepted
    split at h
    · cases h
      exact (Engine.execute_of_validate haccepted source call.token).trans (if_pos ‹_›)
    · cases h

/-- A call that is not refused finds out whether its source can be opened. -/
theorem execute_of_asking (h : call.refusal? = none) (cause : SourceError) :
    call.engine.execute call.definition (.error cause) call.token =
      ⟨.error (.sourceUnavailable cause), 1, 0⟩ := by
  obtain ⟨p, haccepted, hclear⟩ := refusal?_eq_none_iff.1 h
  rw [Engine.execute_of_validate haccepted, Engine.runPlan, hclear]
  rfl

/-- A call that is not refused takes in the items and concludes. -/
theorem run_of_accepted (haccepted : call.engine.validate call.definition = .ok p)
    (hclear : call.token ⟨.filtering, 0, 0⟩ = false) : call.run items =
      match Intake.acceptAll p call.engine.maxWorkingSet {} items with
      | (.error error, pulled) => ⟨.error error, 1, pulled⟩
      | (.ok s, pulled) => ⟨Engine.conclude p call.token s, 1, pulled⟩ := by
  rw [run, Engine.execute_of_validate haccepted, Engine.runPlan, hclear]
  rfl

theorem opened_run (h : call.refusal? = none) (items : List Item) : (call.run items).opened = 1 := by
  obtain ⟨p, haccepted, hclear⟩ := refusal?_eq_none_iff.1 h
  rw [run_of_accepted haccepted hclear]
  split <;> rfl

/-- Calls that are refused leave the items to those that follow. -/
theorem answers_append_of_refused (h : ∀ call ∈ calls, call.refusal? ≠ none) (more : List Call) :
    answers items (calls ++ more) = calls.map afterwards ++ answers items more := by
  induction calls with
  | nil => rfl
  | cons call rest ih =>
    obtain ⟨hcall, hrest⟩ := List.forall_mem_cons.1 h
    obtain ⟨error, hrefused⟩ := Option.ne_none_iff_exists'.1 hcall
    rw [List.cons_append, answers, hrefused, List.map_cons, afterwards_of_refused hrefused,
      List.cons_append, ih hrest]

theorem answers_of_refused (h : ∀ call ∈ calls, call.refusal? ≠ none) :
    answers items calls = calls.map afterwards := by
  have hanswers := @answers_append_of_refused calls items h []
  rwa [List.append_nil, answers, List.append_nil] at hanswers

/-- Calls that follow one that was not refused find nothing. -/
theorem answers_append_of_asked (h : ∃ call ∈ calls, call.refusal? = none) (more : List Call) :
    answers items (calls ++ more) = answers items calls ++ more.map afterwards := by
  induction calls with
  | nil => simp at h
  | cons call rest ih =>
    rw [List.cons_append, answers, answers]
    cases hrefusal : call.refusal? with
    | none => rw [List.map_append]; rfl
    | some error =>
      have hrest : ∃ later ∈ rest, later.refusal? = none := by
        refine ((List.exists_mem_cons_iff _ call rest).1 h).resolve_left ?_
        rw [hrefusal]
        nofun
      exact congrArg (_ :: ·) (ih hrest)

end Call

/-! ## Calls on a channel whose senders are gone -/

namespace Channel

variable {c : Channel} {call : Call} {calls : List Call} {error : ReportError}

theorem execute_of_refused (h : call.refusal? = some error) :
    c.execute call.engine call.definition call.token = (⟨.error error, 0, 0⟩, c) := by
  have hrun := call.execute_of_refused h (c.stream.map Stream.toList)
  rw [← Engine.executeStream_eq_execute] at hrun
  simp only [execute, hrun, if_true]

/-- A channel whose receiver is held has a stream of what is in the buffer. -/
theorem stream_of_held (hheld : c.receiver = .held) : c.stream = .ok (.ofList c.queue) := by
  rw [stream, openStream_eq_ok_iff.2 ⟨hheld, rfl⟩]
  exact congrArg Except.ok (take_length (c := { c with receiver := .streaming }) rfl)

/-- **The call that is handed the receiver is run on what is in the buffer**, and uses the channel up
whatever comes of it. -/
theorem execute_of_held (hheld : c.receiver = .held) (h : call.refusal? = none) :
    c.execute call.engine call.definition call.token =
      (call.run c.queue, { c with queue := [], receiver := .gone }) := by
  have hrun : call.engine.executeStream call.definition c.stream call.token = call.run c.queue := by
    rw [stream_of_held hheld, Engine.executeStream_ofList]
    rfl
  have hopened : ¬ (call.run c.queue).opened = 0 := by simp [Call.opened_run h]
  simp only [execute, hrun, if_neg hopened, openStream_eq_ok_iff.2 ⟨hheld, rfl⟩]
  rfl

theorem execute_of_not_held (hreceiver : c.receiver ≠ .held) (h : call.refusal? = none) :
    c.execute call.engine call.definition call.token =
      (⟨.error (.sourceUnavailable .exhausted), 1, 0⟩, c) := by
  have hopen : c.openStream = .error .exhausted := openStream_eq_error_iff.2 ⟨hreceiver, rfl⟩
  have hrun : call.engine.executeStream call.definition c.stream call.token =
      ⟨.error (.sourceUnavailable .exhausted), 1, 0⟩ := by
    rw [Engine.executeStream_eq_execute, stream, hopen]
    exact call.execute_of_asking h .exhausted
  simp only [execute, hrun, hopen]
  rfl

/-- A channel that has been used stays as it is. -/
theorem executeAll_of_not_held (hreceiver : c.receiver ≠ .held) (calls : List Call) :
    c.executeAll calls = (calls.map Call.afterwards, c) := by
  induction calls with
  | nil => rfl
  | cons call rest ih =>
    rw [executeAll, List.map_cons]
    cases h : call.refusal? with
    | none =>
      simp only [execute_of_not_held hreceiver h, ih, Call.afterwards_of_asking h]
    | some error => simp only [execute_of_refused h, ih, Call.afterwards_of_refused h]

theorem fst_executeAll (hheld : c.receiver = .held) (calls : List Call) :
    (c.executeAll calls).1 = Call.answers c.queue calls := by
  induction calls with
  | nil => rfl
  | cons call rest ih =>
    rw [executeAll, Call.answers]
    cases h : call.refusal? with
    | none =>
      have hspent : ({ c with queue := [], receiver := .gone } : Channel).receiver ≠ .held := nofun
      simp only [execute_of_held hheld h, executeAll_of_not_held hspent]
    | some error => simp only [execute_of_refused h, ih]

/-- **Calls that are refused leave a channel as it is.** -/
theorem snd_executeAll (h : ∀ call ∈ calls, call.refusal? ≠ none) : (c.executeAll calls).2 = c := by
  induction calls with
  | nil => rfl
  | cons call rest ih =>
    obtain ⟨hcall, hrest⟩ := List.forall_mem_cons.1 h
    obtain ⟨error, hrefused⟩ := Option.ne_none_iff_exists'.1 hcall
    rw [executeAll]
    simp only [execute_of_refused hrefused]
    exact ih hrest

end Channel

/-! ## Senders and calls at once -/

/-- Nothing is sent when there is nobody to receive it. -/
theorem Feed.Step.eq_nil_of_gone {c c' : Channel} {items : List Item} (h : Feed.Step ⟨c, items⟩ ⟨c', []⟩)
    (hgone : c.receiver = .gone) : items = [] := by
  cases h with
  | send hsend =>
    rw [Channel.send, hgone] at hsend
    split at hsend <;> cases hsend
  | clone => rfl
  | drop => rfl

namespace Exchange

/-- Whether one state of an exchange may lead to another. -/
abbrev Reaches : Exchange → Exchange → Prop := Relation.ReflTransGen Step

/-- What the state of the receiver tells of the items and the calls. -/
inductive Sound : Exchange → Prop
  /-- All calls were refused, and all items are in the buffer. -/
  | held {c : Channel} {sent : List Item} {calls : List Call} {runs : List Run}
      (hreceiver : c.receiver = .held) (hqueue : c.queue = sent)
      (hrefused : ∀ call ∈ calls, call.refusal? ≠ none) (hruns : runs = calls.map Call.afterwards) :
      Sound ⟨c, sent, none, calls, runs⟩
  /-- The first call that was not refused has taken in some items, and the others are in the buffer. -/
  | streaming {c : Channel} {sent : List Item} {call : Call} {p : Plan} {s : Intake}
      {calls : List Call} {runs : List Run} (taken : List Item)
      (hreceiver : c.receiver = .streaming) (hsent : taken ++ c.queue = sent)
      (haccepted : call.engine.validate call.definition = .ok p)
      (hclear : call.token ⟨.filtering, 0, 0⟩ = false)
      (htaken : Intake.acceptAll p call.engine.maxWorkingSet {} taken = (.ok s, s.pulled))
      (hrefused : ∀ call ∈ calls, call.refusal? ≠ none) (hruns : runs = calls.map Call.afterwards) :
      Sound ⟨c, sent, some ⟨call, p, s⟩, calls, runs⟩
  /-- A call has been run on the items. -/
  | gone {c : Channel} {sent : List Item} {calls : List Call} {runs : List Run}
      (hreceiver : c.receiver = .gone) (hasked : ∃ call ∈ calls, call.refusal? = none)
      (hruns : runs = Call.answers sent calls) : Sound ⟨c, sent, none, calls, runs⟩

variable {x y : Exchange} {c c' : Channel} {sent items : List Item} {reader : Option Reader}
  {calls : List Call} {runs : List Run} {call : Call} {p : Plan} {s s' : Intake} {item : Item}
  {error : ReportError}

theorem sound_start (buffer : Nat) : (start buffer).Sound := .held rfl rfl nofun rfl

/-! ### What one step preserves -/

namespace Sound

/-- Senders put items at the end of the buffer as long as there may be somebody to receive them. -/
theorem feed (h : Sound ⟨c, sent, reader, calls, runs⟩) (hfeed : Feed.Step ⟨c, items⟩ ⟨c', []⟩) :
    Sound ⟨c', sent ++ items, reader, calls, runs⟩ := by
  have hreceiver : c'.receiver = c.receiver := hfeed.receiver_eq
  have hqueue : c'.queue = c.queue ++ items := by simpa [Feed.items] using hfeed.items_eq
  cases h with
  | held hheld hsent hrefused hruns =>
    exact .held (hreceiver.trans hheld) (hqueue.trans (congrArg (· ++ items) hsent)) hrefused hruns
  | streaming taken hstreaming hsent haccepted hclear htaken hrefused hruns =>
    refine .streaming taken (hreceiver.trans hstreaming) ?_ haccepted hclear htaken hrefused hruns
    rw [hqueue, ← List.append_assoc, hsent]
  | gone hgone hasked hruns =>
    obtain rfl := hfeed.eq_nil_of_gone hgone
    rw [List.append_nil]
    exact .gone (hreceiver.trans hgone) hasked hruns

/-- A call that is refused changes nothing. -/
theorem refuse (h : Sound ⟨c, sent, none, calls, runs⟩) (hrefused : call.refusal? = some error) :
    Sound ⟨c, sent, none, calls ++ [call], runs ++ [⟨.error error, 0, 0⟩]⟩ := by
  have hrun : [call].map Call.afterwards = [⟨.error error, 0, 0⟩] := by
    rw [List.map_singleton, Call.afterwards_of_refused hrefused]
  cases h with
  | held hheld hsent hall hruns =>
    refine .held hheld hsent (List.forall_mem_append.2 ⟨hall, ?_⟩)
      (by rw [List.map_append, hrun, hruns])
    rw [List.forall_mem_singleton, hrefused]
    nofun
  | gone hgone hasked hruns =>
    refine .gone hgone ?_ (by rw [Call.answers_append_of_asked hasked, hrun, hruns])
    obtain ⟨asking, hmem, hasking⟩ := hasked
    exact ⟨asking, List.mem_append_left _ hmem, hasking⟩

/-- There is no second stream. -/
theorem miss {cause : SourceError} (h : Sound ⟨c, sent, none, calls, runs⟩)
    (hasking : call.refusal? = none) (hopen : c.openStream = .error cause) :
    Sound ⟨c, sent, none, calls ++ [call], runs ++ [⟨.error (.sourceUnavailable cause), 1, 0⟩]⟩ := by
  obtain ⟨hnotHeld, rfl⟩ := Channel.openStream_eq_error_iff.1 hopen
  cases h with
  | held hheld => exact absurd hheld hnotHeld
  | gone hgone hasked hruns =>
    refine .gone hgone ⟨call, List.mem_append_right _ List.mem_cons_self, hasking⟩ ?_
    rw [Call.answers_append_of_asked hasked, hruns, List.map_singleton,
      Call.afterwards_of_asking hasking]

/-- The receiver is handed out once, and the stream begins with what is in the buffer. -/
theorem opened (h : Sound ⟨c, sent, none, calls, runs⟩)
    (haccepted : call.engine.validate call.definition = .ok p)
    (hclear : call.token ⟨.filtering, 0, 0⟩ = false) (hopen : c.openStream = .ok c') :
    Sound ⟨c', sent, some ⟨call, p, {}⟩, calls, runs⟩ := by
  obtain ⟨hheld, rfl⟩ := Channel.openStream_eq_ok_iff.1 hopen
  cases h with
  | held _ hsent hrefused hruns =>
    exact .streaming [] rfl hsent haccepted hclear rfl hrefused hruns
  | gone hgone => cases hheld.symm.trans hgone

/-- A call that has read its stream to the end, or has failed on it, has been run on the items. -/
theorem served {c' : Channel} {run : Run} (hgone : c'.receiver = .gone)
    (hasking : call.refusal? = none) (hrun : run = call.run sent)
    (hrefused : ∀ call ∈ calls, call.refusal? ≠ none) (hruns : runs = calls.map Call.afterwards) :
    Sound ⟨c', sent, none, calls ++ [call], runs ++ [run]⟩ := by
  refine .gone hgone ⟨call, List.mem_append_right _ List.mem_cons_self, hasking⟩ ?_
  rw [Call.answers_append_of_refused hrefused, Call.answers, hasking, hruns, hrun, List.map_nil]

/-- What is taken in goes from the front of the buffer to the end of what has been taken. -/
theorem take (h : Sound ⟨c, sent, some ⟨call, p, s⟩, calls, runs⟩) (hnext : c.next = (.item item, c'))
    (haccept : s.accept p call.engine.maxWorkingSet item = .ok s') :
    Sound ⟨c', sent, some ⟨call, p, s'⟩, calls, runs⟩ := by
  obtain ⟨rest, hqueue, rfl⟩ := Channel.eq_of_next_item hnext
  cases h with
  | streaming taken hstreaming hsent haccepted hclear htaken hrefused hruns =>
    refine .streaming (taken ++ [item]) hstreaming ?_ haccepted hclear ?_ hrefused hruns
    · rw [← hsent, hqueue]
      exact List.append_assoc taken [item] rest
    · rw [Intake.acceptAll_append htaken, Intake.acceptAll, haccept]
      rfl

/-- A call that an item ends has been run on the items, whatever comes after that item. -/
theorem fail (h : Sound ⟨c, sent, some ⟨call, p, s⟩, calls, runs⟩) (hnext : c.next = (.item item, c'))
    (haccept : s.accept p call.engine.maxWorkingSet item = .error error) :
    Sound ⟨c'.close, sent, none, calls ++ [call], runs ++ [⟨.error error, 1, s.pulled + 1⟩]⟩ := by
  obtain ⟨rest, hqueue, rfl⟩ := Channel.eq_of_next_item hnext
  cases h with
  | streaming taken hstreaming hsent haccepted hclear htaken hrefused hruns =>
    refine served ?_ (Call.refusal?_eq_none_iff.2 ⟨p, haccepted, hclear⟩) ?_ hrefused hruns
    · rw [Channel.close, if_pos hstreaming]
    · rw [Call.run_of_accepted haccepted hclear, ← hsent, Intake.acceptAll_append htaken, hqueue,
        Intake.acceptAll, haccept]

/-- A call whose stream has ended has been run on the items. -/
theorem finish (h : Sound ⟨c, sent, some ⟨call, p, s⟩, calls, runs⟩) (hnext : c.next = (.ended, c')) :
    Sound ⟨c', sent, none, calls ++ [call],
      runs ++ [⟨Engine.conclude p call.token s, 1, s.pulled⟩]⟩ := by
  cases h with
  | streaming taken hstreaming hsent haccepted hclear htaken hrefused hruns =>
    refine served (Channel.receiver_eq_of_next_ended hnext)
      (Call.refusal?_eq_none_iff.2 ⟨p, haccepted, hclear⟩) ?_ hrefused hruns
    rw [Call.run_of_accepted haccepted hclear, ← hsent, Channel.queue_eq_nil_of_next_ended hnext,
      List.append_nil, htaken]

/-- **Whatever happens, the state of the receiver keeps its meaning.** -/
theorem step (h : x.Sound) (hstep : x.Step y) : y.Sound := by
  cases hstep with
  | feed hfeed => exact h.feed hfeed
  | reject hrejected => exact h.refuse (Call.refusal?_of_rejected hrejected)
  | cancel haccepted hset => exact h.refuse (Call.refusal?_of_cancelled haccepted hset)
  | miss haccepted hclear hopen =>
    exact h.miss (Call.refusal?_eq_none_iff.2 ⟨_, haccepted, hclear⟩) hopen
  | opened haccepted hclear hopen => exact h.opened haccepted hclear hopen
  | take hnext haccept => exact h.take hnext haccept
  | fail hnext haccept => exact h.fail hnext haccept
  | finish hnext => exact h.finish hnext

/-! ### What a whole exchange preserves -/

theorem reaches (h : x.Sound) (hreaches : x.Reaches y) : y.Sound := by
  induction hreaches with
  | refl => exact h
  | tail _ hstep ih => exact ih.step hstep

theorem runs_eq_answers (h : x.Sound) (hreader : x.reader = none) :
    x.runs = Call.answers x.sent x.calls := by
  cases h with
  | held _ _ hrefused hruns => exact hruns.trans (Call.answers_of_refused hrefused).symm
  | streaming => cases hreader
  | gone _ _ hruns => exact hruns

theorem intact (h : x.Sound) (hreader : x.reader = none)
    (hrefused : ∀ call ∈ x.calls, call.refusal? ≠ none) :
    x.channel.receiver = .held ∧ x.channel.queue = x.sent := by
  cases h with
  | held hheld hqueue => exact ⟨hheld, hqueue⟩
  | streaming => cases hreader
  | gone _ hasked =>
    obtain ⟨asking, hmem, hasking⟩ := hasked
    exact absurd hasking (hrefused asking hmem)

end Sound

/-! ## No call is left waiting -/

/-- Those who hold senders may let go of them all. -/
theorem exists_reaches_senderless (c : Channel) (sent : List Item) (reader : Option Reader)
    (calls : List Call) (runs : List Run) : ∃ senders : List Bool, senders.any id = false ∧
      Reaches ⟨c, sent, reader, calls, runs⟩ ⟨{ c with senders }, sent, reader, calls, runs⟩ := by
  -- The induction is on how many senders there are.
  induction hcount : c.senders.count true generalizing c with
  | zero =>
    refine ⟨c.senders, ?_, .refl⟩
    simpa using List.count_eq_zero.1 hcount
  | succ n ih =>
    have hmem : true ∈ c.senders := List.count_pos_iff.1 (hcount ▸ Nat.succ_pos n)
    obtain ⟨sender, hlt, hsender⟩ := List.mem_iff_getElem.1 hmem
    have hthere : c.hasSender sender = true := by
      simp [Channel.hasSender, hlt, hsender]
    have hdrop : c.drop sender = (true, { c with senders := c.senders.set sender false }) := by
      rw [Channel.drop, if_pos hthere]
    have hless : (c.senders.set sender false).count true = n := by
      simp [List.count_set hlt, hsender, hcount]
    obtain ⟨senders, hnone, hreaches⟩ := ih { c with senders := c.senders.set sender false } hless
    have hstep : Step ⟨c, sent, reader, calls, runs⟩ _ := .feed (.drop hdrop)
    rw [List.append_nil] at hstep
    exact ⟨senders, hnone, .head hstep hreaches⟩

/-- A call comes to the end of a stream whose senders are gone, or fails on it. -/
theorem exists_reaches_read {capacity : Nat} {senders : List Bool} (hnone : senders.any id = false)
    (queue : List Item) (s : Intake) : ∃ y,
      Reaches ⟨⟨capacity, queue, senders, .streaming⟩, sent, some ⟨call, p, s⟩, calls, runs⟩ y ∧
        y.reader = none ∧ y.sent = sent ∧ y.calls = calls ++ [call] := by
  induction queue generalizing s with
  | nil =>
    have hnext : Channel.next ⟨capacity, [], senders, .streaming⟩ =
        (.ended, ⟨capacity, [], senders, .gone⟩) := by
      simp [Channel.next, hnone]
    exact ⟨_, .single (.finish hnext), rfl, rfl, rfl⟩
  | cons item rest ih =>
    have hnext : Channel.next ⟨capacity, item :: rest, senders, .streaming⟩ =
        (.item item, ⟨capacity, rest, senders, .streaming⟩) := rfl
    cases haccept : s.accept p call.engine.maxWorkingSet item with
    | error error => exact ⟨_, .single (.fail hnext haccept), rfl, rfl, rfl⟩
    | ok s' =>
      obtain ⟨y, hreaches, hrest⟩ := ih s'
      exact ⟨y, .head (.take hnext haccept) hreaches, hrest⟩

/-- **A call comes to an end** on any channel that no other call is reading. -/
theorem exists_reaches_call (hreader : x.reader = none) (call : Call) :
    ∃ y, x.Reaches y ∧ y.reader = none ∧ y.sent = x.sent ∧ y.calls = x.calls ++ [call] := by
  obtain ⟨c, sent, reader, calls, runs⟩ := x
  obtain rfl : reader = none := hreader
  cases hvalidate : call.engine.validate call.definition with
  | error error => exact ⟨_, .single (.reject hvalidate), rfl, rfl, rfl⟩
  | ok p =>
    cases htoken : call.token ⟨.filtering, 0, 0⟩ with
    | true => exact ⟨_, .single (.cancel hvalidate htoken), rfl, rfl, rfl⟩
    | false =>
      cases hopen : c.openStream with
      | error cause => exact ⟨_, .single (.miss hvalidate htoken hopen), rfl, rfl, rfl⟩
      | ok c' =>
        have hstreaming : c'.receiver = .streaming :=
          (Channel.openStream_eq_ok_iff.1 hopen).2 ▸ rfl
        obtain ⟨senders, hnone, hreaches⟩ :=
          exists_reaches_senderless c' sent (some ⟨call, p, {}⟩) calls runs
        rw [hstreaming] at hreaches
        obtain ⟨y, hread, hy⟩ := @exists_reaches_read sent calls runs call p c'.capacity senders hnone
          c'.queue {}
        exact ⟨y, .head (.opened hvalidate htoken hopen) (hreaches.trans hread), hy⟩

theorem exists_reaches_calls (hreader : x.reader = none) (calls : List Call) :
    ∃ y, x.Reaches y ∧ y.reader = none ∧ y.sent = x.sent ∧ y.calls = x.calls ++ calls := by
  induction calls generalizing x with
  | nil => exact ⟨x, .refl, hreader, rfl, (List.append_nil x.calls).symm⟩
  | cons call rest ih =>
    obtain ⟨y, hcall, hidle, hsent, hcalls⟩ := exists_reaches_call hreader call
    obtain ⟨z, hrest, hdone, hsame, hmore⟩ := ih hidle
    refine ⟨z, hcall.trans hrest, hdone, hsame.trans hsent, ?_⟩
    rw [hmore, hcalls, List.append_assoc, List.singleton_append]

/-! ## One use -/

/-- What is true of a channel between calls. -/
structure UsedOnce (x : Exchange) : Prop where
  /-- The first call that was not refused has been run on all items in the order in which they were
  sent, and those after it have found the channel used. -/
  runs : x.runs = Call.answers x.sent x.calls
  /-- As long as all calls have been refused, the items are in the buffer. -/
  intact : (∀ call ∈ x.calls, call.refusal? ≠ none) →
    x.channel.receiver = .held ∧ x.channel.queue = x.sent
  /-- More calls can be made, whichever they are, and all come to an end. -/
  more : ∀ calls, ∃ y, x.Reaches y ∧ y.reader = none ∧ y.sent = x.sent ∧ y.calls = x.calls ++ calls

/-- **A channel is used by exactly one call.**  Whatever calls are made on a new channel, with any
definitions, engines and tokens, and whatever is sent into it meanwhile: those that are refused leave the
items in it, the first other one is run on all items in order, and to those after it the stream has been
consumed, whatever came of the one that consumed it.  The same is so of calls on a channel that has been
filled. -/
theorem used_once :
    (∀ buffer x, (start buffer).Reaches x → x.reader = none → x.UsedOnce) ∧
    (∀ (c : Channel) (calls : List Call), c.receiver = .held →
      (c.executeAll calls).1 = Call.answers c.queue calls ∧
      ((∀ call ∈ calls, call.refusal? ≠ none) → (c.executeAll calls).2 = c)) ∧
    SourceError.exhausted.message = "record stream already consumed" := by
  refine ⟨fun buffer x hreaches hreader => ?_, fun c calls hheld => ?_, rfl⟩
  · have hsound : x.Sound := (sound_start buffer).reaches hreaches
    exact {
      runs := hsound.runs_eq_answers hreader
      intact := hsound.intact hreader
      more := exists_reaches_calls hreader }
  · exact ⟨Channel.fst_executeAll hheld calls, Channel.snd_executeAll⟩

/-- Calls on sales: one asks for a field that there is not, one has been called off, one may hold a
single record, and one may hold all. -/
def callsOnSales : List Call :=
  [⟨⟨.sales, none⟩, { Definition.salesByCity with fields := ["budget"] }, .clear⟩,
    ⟨⟨.sales, none⟩, .salesByCity, .set⟩,
    ⟨⟨.sales, some 1⟩, .salesByCity, .clear⟩,
    ⟨⟨.sales, none⟩, .salesByCity, .clear⟩]

/-- The sales go to the third call, which has no room for them, and there are none for the fourth; so it
is also when they are sent into a channel with a buffer for one item. -/
theorem used_once_sales :
    ((Channel.ofItems Item.sales).executeAll callsOnSales).1.map Run.outcome =
      [.error (.unknownField "budget"), .error .cancelled, .error (.workingSetExceeded 1),
        .error (.sourceUnavailable .exhausted)] ∧
    ∃ x, (start 1).Reaches x ∧ x.sent = [.record [("city", .string "Rome")]] ∧
      x.calls = callsOnSales ∧ x.runs.map Run.opened = [0, 0, 1, 1] := by
  have hheld : (Channel.ofItems Item.sales).receiver = .held := by rw [Channel.ofItems_eq]
  have hruns := (used_once.2.1 (Channel.ofItems Item.sales) callsOnSales hheld).1
  refine ⟨by rw [hruns, Channel.ofItems_eq]; rfl, ?_⟩
  have hsend : (Channel.new 1).send 0 (.record [("city", .string "Rome")]) =
      (.accepted, ⟨1, [.record [("city", .string "Rome")]], [true], .held⟩) := rfl
  have hsent : (start 1).Reaches _ := .single (.feed (.send hsend))
  obtain ⟨x, hcalled, hreader, hsame, hcalls⟩ := (used_once.1 1 _ hsent rfl).more callsOnSales
  have hx := used_once.1 1 x (hsent.trans hcalled) hreader
  refine ⟨x, hsent.trans hcalled, hsame, hcalls, ?_⟩
  rw [hx.runs, hsame, hcalls]
  rfl

end Exchange

end Reporting
