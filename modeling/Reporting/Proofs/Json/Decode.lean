import Reporting.Json.Decode
import Reporting.Proofs.Chain

/-!
# Proofs/Json/Decode — what decoders yield

A property of decoded data follows the way the data is put together.  A decoder that yields things
with a property does so under `optional` and `list`, and a record keeps a property if it starts with
it and none of its slots breaks it (`Shape.yields`).
-/

namespace Reporting.Json

variable {α σ : Type} {decode : Decoder α} {q : α → Prop} {keep : σ → Prop}

/-- Whether all that a decoder yields has a property. -/
def Decoder.Yields (decode : Decoder α) (q : α → Prop) : Prop :=
  ∀ origin node a, decode origin node = .ok a → q a

namespace Decode

theorem yields_optional (h : Decoder.Yields decode q) :
    Decoder.Yields (optional decode) fun o => ∀ a ∈ o, q a := by
  intro origin node o ho
  unfold optional at ho
  split at ho
  · cases ho
    exact nofun
  · obtain ⟨a, ha, rfl⟩ := map_eq_ok_iff.1 ho
    rintro b ⟨⟩
    exact h origin _ a ha

theorem forall_of_items (h : Decoder.Yields decode q) {origin : Origin} {nodes : List Node}
    {xs : List α} (hxs : items decode origin nodes = .ok xs) : ∀ x ∈ xs, q x := by
  induction nodes generalizing xs with
  | nil =>
    cases hxs
    exact nofun
  | cons node rest ih =>
    obtain ⟨a, ha, hxs⟩ := bind_eq_ok_iff.1 hxs
    obtain ⟨more, hmore, hxs⟩ := bind_eq_ok_iff.1 hxs
    cases hxs
    exact List.forall_mem_cons.2 ⟨h origin node a ha, ih hmore⟩

theorem yields_list (h : Decoder.Yields decode q) :
    Decoder.Yields (list decode) fun xs => ∀ x ∈ xs, q x := by
  intro origin node xs hxs
  unfold list at hxs
  split at hxs
  · obtain ⟨result, hresult, hxs⟩ := bind_eq_ok_iff.1 hxs
    obtain ⟨-, -, hxs⟩ := bind_eq_ok_iff.1 hxs
    cases hxs
    exact forall_of_items h hresult
  · cases hxs

end Decode

/-! ## Records -/

/-- Whether reading a member keeps a property of the record. -/
def Slot.Keeps (slot : Slot σ) (keep : σ → Prop) : Prop :=
  ∀ origin node record record', slot.read origin node record = .ok record' →
    keep record → keep record'

theorem Slot.keeps_of_read {slot : Slot σ} {set : α → σ → σ}
    (hslot : ∀ origin node record,
      slot.read origin node record = (decode origin node).map fun a => set a record)
    (h : Decoder.Yields decode q) (hset : ∀ a record, q a → keep record → keep (set a record)) :
    slot.Keeps keep := by
  intro origin node record record' hread hrecord
  obtain ⟨a, ha, rfl⟩ := map_eq_ok_iff.1 (hslot origin node record ▸ hread)
  exact hset a record (h origin node a ha) hrecord

theorem Slot.keeps_mandatory {name : String} {set : α → σ → σ} (h : Decoder.Yields decode q)
    (hset : ∀ a record, q a → keep record → keep (set a record)) :
    (Slot.mandatory name decode set).Keeps keep :=
  keeps_of_read (fun _ _ _ => rfl) h hset

theorem Slot.keeps_optional {name : String} {set : α → σ → σ} (h : Decoder.Yields decode q)
    (hset : ∀ a record, q a → keep record → keep (set a record)) :
    (Slot.optional name decode set).Keeps keep :=
  keeps_of_read (fun _ _ _ => rfl) h hset

/-- Of what a decoder yields nothing need be known. -/
theorem Decoder.yields_true (decode : Decoder α) : Yields decode fun _ => True :=
  fun _ _ _ _ => trivial

namespace Shape

theorem keeps_readMembers {slots : List (Slot σ)} (h : ∀ slot ∈ slots, slot.Keeps keep)
    {origin : Origin} {members : List (Node × Node)} {seen seen' : List String} {record record' : σ}
    (hread : readMembers slots origin members seen record = .ok (seen', record'))
    (hrecord : keep record) : keep record' := by
  induction members generalizing seen record with
  | nil =>
    cases hread
    exact hrecord
  | cons member rest ih =>
    rw [readMembers] at hread
    split at hread
    · cases hread
    · split at hread
      · obtain ⟨-, -, hread⟩ := bind_eq_ok_iff.1 hread
        exact ih hread hrecord
      · rename_i slot hslot
        split at hread
        · cases hread
        · obtain ⟨next, hnext, hread⟩ := bind_eq_ok_iff.1 hread
          exact ih hread (h slot (List.mem_of_find?_eq_some hslot) _ _ _ _ hnext hrecord)

theorem keeps_readItems {slots : List (Slot σ)} (h : ∀ slot ∈ slots, slot.Keeps keep)
    {origin : Origin} {nodes : List Node} {stop : Option Flaw} {record record' : σ}
    (hread : readItems origin slots nodes stop record = .ok record') (hrecord : keep record) :
    keep record' := by
  induction slots generalizing nodes record with
  | nil =>
    cases nodes with
    | nil =>
      obtain ⟨-, -, hread⟩ := bind_eq_ok_iff.1 hread
      cases hread
      exact hrecord
    | cons node rest =>
      rw [readItems] at hread
      split at hread
      · cases hread
        exact hrecord
      · cases hread
  | cons slot slots ih =>
    cases nodes with
    | nil =>
      obtain ⟨-, -, hread⟩ := bind_eq_ok_iff.1 hread
      obtain ⟨-, -, hread⟩ := bind_eq_ok_iff.1 hread
      cases hread
      exact hrecord
    | cons node rest =>
      obtain ⟨next, hnext, hread⟩ := bind_eq_ok_iff.1 hread
      exact ih (fun s hs => h s (List.mem_cons_of_mem slot hs)) hread
        (h slot List.mem_cons_self _ _ _ _ hnext hrecord)

/-- **A record has what it starts with and what no member takes away.** -/
theorem yields {shape : Shape σ} (hstart : keep shape.start)
    (h : ∀ slot ∈ shape.slots, slot.Keeps keep) : Decoder.Yields shape.decode keep := by
  intro origin node record hrecord
  unfold decode at hrecord
  split at hrecord
  · obtain ⟨⟨seen, result⟩, hread, hrecord⟩ := bind_eq_ok_iff.1 hrecord
    obtain ⟨-, -, hrecord⟩ := bind_eq_ok_iff.1 hrecord
    obtain ⟨-, -, hrecord⟩ := bind_eq_ok_iff.1 hrecord
    cases hrecord
    exact keeps_readMembers h hread hstart
  · exact keeps_readItems h hrecord hstart
  · cases hrecord

end Shape

end Reporting.Json
