import Reporting.Proofs.Run.Interruption
import Reporting.Source.Feed

/-!
# Proofs/Run/Arrival — it makes no difference how items arrive

Items that are all there, items as they arrive, and items that are sent through a channel of any size
while the run takes them out come to the same run.  What senders do keeps the items in the buffer
followed by those still to be sent (`Feed.Step.items_eq`), and a run takes in nothing else
(`Intake.Drains.eq_acceptAll`); nor can the channel keep a run from ending (`Intake.drains_acceptAll`).
-/

namespace Reporting

variable {p : Plan} {bound : Option Nat} {s : Intake} {d : Definition} {token : Token}

/-! ## Streams -/

namespace Engine

/-- What a source holds may be read in another form before a run or by it. -/
theorem runPlan_map {σ τ : Type} (f : σ → τ) (source : Except SourceError σ)
    (takeIn : τ → Except ReportError Intake × Nat) (token : Token) :
    runPlan p (source.map f) takeIn token = runPlan p source (takeIn ∘ f) token := by
  cases source <;> rfl

/-- **A run on a stream is a run on what arrives.** -/
theorem executeStream_eq_execute (e : Engine) (d : Definition) (source : Except SourceError Stream)
    (token : Token) :
    e.executeStream d source token = e.execute d (source.map Stream.toList) token := by
  rw [executeStream, execute]
  cases e.validate d with
  | error error => rfl
  | ok p =>
    have hdrain : Intake.drain p e.maxWorkingSet {} =
        Intake.acceptAll p e.maxWorkingSet {} ∘ Stream.toList :=
      funext (Intake.drain_eq_acceptAll {})
    dsimp only
    rw [runPlan_map, hdrain]

/-- A run on items that arrive one by one is a run on them. -/
theorem executeStream_ofList (e : Engine) (d : Definition) (items : List Item) (token : Token) :
    e.executeStream d (.ok (.ofList items)) token = e.execute d (.ok items) token := by
  rw [executeStream_eq_execute, Except.map, Stream.toList_ofList]

end Engine

/-! ## What a channel does -/

namespace Channel

variable {c c' : Channel} {item : Item}

theorem eq_of_send_accepted {sender : Nat} (h : c.send sender item = (.accepted, c')) :
    c' = { c with queue := c.queue ++ [item] } := by
  rw [send] at h
  repeat' split at h
  all_goals cases h
  rfl

theorem eq_of_clone {sender new : Nat} (h : c.clone sender = (some new, c')) :
    c' = { c with senders := c.senders ++ [true] } := by
  rw [clone] at h
  split at h
  all_goals cases h
  rfl

theorem eq_of_drop {sender : Nat} (h : c.drop sender = (true, c')) :
    c' = { c with senders := c.senders.set sender false } := by
  rw [drop] at h
  split at h
  all_goals cases h
  rfl

/-- The receiver is handed out where it is held. -/
theorem openStream_eq_ok_iff :
    c.openStream = .ok c' ↔ c.receiver = .held ∧ { c with receiver := .streaming } = c' := by
  rw [openStream]
  cases c.receiver <;> simp

theorem openStream_eq_error_iff {cause : SourceError} :
    c.openStream = .error cause ↔ c.receiver ≠ .held ∧ cause = .exhausted := by
  rw [openStream]
  cases c.receiver <;> simp [eq_comm]

/-- What is taken is the first item of the buffer. -/
theorem eq_of_next_item (h : c.next = (.item item, c')) :
    ∃ rest, c.queue = item :: rest ∧ c' = { c with queue := rest } := by
  rw [next] at h
  split at h
  · split at h
    · rename_i hqueue
      cases h
      exact ⟨_, hqueue, rfl⟩
    · split at h <;> cases h
  · cases h

/-- A stream has ended only if its buffer is empty. -/
theorem queue_eq_nil_of_next_ended (h : c.next = (.ended, c')) : c.queue = [] := by
  rw [next] at h
  split at h
  · split at h
    · cases h
    · assumption
  · cases h

/-- A stream that has ended gives the receiver up. -/
theorem receiver_eq_of_next_ended (h : c.next = (.ended, c')) : c'.receiver = .gone := by
  rw [next] at h
  split at h
  · split at h
    · cases h
    · split at h <;> cases h
      rfl
  · cases h

end Channel

/-! ## What senders do -/

namespace Feed

variable {f f' : Feed}

/-- **Sending loses nothing, repeats nothing, and keeps the order.** -/
theorem Step.items_eq (h : f.Step f') : f'.items = f.items := by
  cases h with
  | send hsend =>
    rw [items, items, Channel.eq_of_send_accepted hsend]
    exact List.append_assoc _ _ _
  | clone hclone => rw [items, items, Channel.eq_of_clone hclone]
  | drop hdrop => rw [items, items, Channel.eq_of_drop hdrop]

/-- Senders have no hold on the receiver. -/
theorem Step.receiver_eq (h : f.Step f') : f'.channel.receiver = f.channel.receiver := by
  cases h with
  | send hsend => rw [Channel.eq_of_send_accepted hsend]
  | clone hclone => rw [Channel.eq_of_clone hclone]
  | drop hdrop => rw [Channel.eq_of_drop hdrop]

end Feed

/-! ## What a run takes in -/

namespace Intake

/-- **Whatever comes of an open stream comes of the items sent into it**, in their order. -/
theorem Drains.eq_acceptAll {f : Feed} {result : Except ReportError Intake × Nat}
    (h : Drains p bound s f result) : result = s.acceptAll p bound f.items := by
  induction h with
  | step hstep _ ih => rw [ih, hstep.items_eq]
  | take hnext haccept _ ih =>
    obtain ⟨rest, hqueue, rfl⟩ := Channel.eq_of_next_item hnext
    rw [ih, Feed.items, Feed.items, hqueue, List.cons_append, acceptAll, haccept]
  | fail hnext haccept =>
    obtain ⟨rest, hqueue, rfl⟩ := Channel.eq_of_next_item hnext
    rw [Feed.items, hqueue, List.cons_append, acceptAll, haccept]
  | ended hnext =>
    rw [Feed.items, Channel.queue_eq_nil_of_next_ended hnext]
    rfl

/-- **A stream can be fed to its end** through a buffer with room for one item. -/
theorem drains_acceptAll (s : Intake) (items : List Item) {capacity : Nat} (hroom : 0 < capacity) :
    Drains p bound s ⟨⟨capacity, [], [true], .streaming⟩, items⟩ (s.acceptAll p bound items) := by
  induction items generalizing s with
  | nil =>
    have hdrop : Channel.drop ⟨capacity, [], [true], .streaming⟩ 0 =
        (true, ⟨capacity, [], [false], .streaming⟩) := rfl
    exact .step (.drop hdrop) (.ended rfl)
  | cons item rest ih =>
    have hfree : ¬ capacity ≤ 0 := Nat.not_le.2 hroom
    have hsend : Channel.send ⟨capacity, [], [true], .streaming⟩ 0 item =
        (.accepted, ⟨capacity, [item], [true], .streaming⟩) := by
      simp [Channel.send, Channel.hasSender, hfree]
    refine .step (.send hsend) ?_
    rw [acceptAll]
    cases haccept : s.accept p bound item with
    | error error => exact .fail rfl haccept
    | ok s' => exact .take rfl haccept (ih s')

end Intake

/-! ## Runs -/

/-- A run on a channel whose senders are gone is one on its stream. -/
theorem Channel.fst_execute (c : Channel) (e : Engine) (d : Definition) (token : Token) :
    (c.execute e d token).1 = e.executeStream d c.stream token := by
  simp only [execute]
  split
  · rfl
  · split <;> rfl

namespace Engine

/-- **Whatever comes of a run on a channel is what comes of one on the items sent into it.** -/
theorem Attends.eq_execute {e : Engine} {f : Feed} {run : Run} (h : e.Attends d token f run)
    (hheld : f.channel.receiver = .held) : run = e.execute d (.ok f.items) token := by
  induction h with
  | step hstep _ ih => rw [ih (hstep.receiver_eq.trans hheld), hstep.items_eq]
  | rejected hrejected => rw [execute, hrejected]
  | @ran c pending p takeIn haccepted hdrains =>
    have hopen : c.openStream = .ok { c with receiver := .streaming } := by
      rw [Channel.openStream, hheld]
    have htaken := (hdrains _ hopen).eq_acceptAll
    rw [execute, haccepted, hopen]
    simp only [runPlan, htaken]
    rfl

/-- A run on a new channel comes to an end. -/
theorem attends_execute (e : Engine) (d : Definition) (token : Token) (buffer : Nat)
    (items : List Item) : e.Attends d token (.start buffer items) (e.execute d (.ok items) token) := by
  rw [execute]
  cases hvalidate : e.validate d with
  | error error => exact .rejected hvalidate
  | ok p =>
    change e.Attends d token _ (runPlan p (Channel.new buffer).openStream
      (fun _ => Intake.acceptAll p e.maxWorkingSet {} items) token)
    refine .ran hvalidate ?_
    rintro _ ⟨⟩
    exact Intake.drains_acceptAll {} items (Nat.lt_of_lt_of_le Nat.zero_lt_one (Nat.le_max_right _ _))

/-- **A run does not depend on how its items arrive.**  The outcome, how often the source is opened
and how many items it yields are the same whether the items are there from the start, arrive one by
one, have been sent into a channel before the run, or are sent into one with a buffer of any size, by
any number of senders, while it goes on. -/
theorem same_run_of_items (e : Engine) (d : Definition) (token : Token) (items : List Item) :
    e.executeStream d (.ok (.ofList items)) token = e.execute d (.ok items) token ∧
      ((Channel.ofItems items).execute e d token).1 = e.execute d (.ok items) token ∧
      ∀ buffer run, e.Attends d token (.start buffer items) run ↔
        run = e.execute d (.ok items) token := by
  have hstream : e.executeStream d (.ok (.ofList items)) token = e.execute d (.ok items) token := by
    rw [executeStream_eq_execute]
    exact congrArg (fun arrived => e.execute d (.ok arrived) token) (Stream.toList_ofList items)
  refine ⟨hstream, ?_, fun buffer run => ⟨fun h => h.eq_execute rfl, ?_⟩⟩
  · rw [Channel.fst_execute, Channel.stream_ofItems, hstream]
  · rintro rfl
    exact attends_execute e d token buffer items

end Engine

end Reporting
