import Mathlib.Data.List.Nodup
import Reporting.Json.Decode
import Reporting.Proofs.Chain
import Reporting.Proofs.Json.Text

/-!
# Proofs/Json/Record — data that is read back

A decoder reads a thing back if it yields that thing from its document (`Decoder.Reads`).  It does so
for names, lists and records if it does for what they are made of.  A record is written with its
members in the order of its slots, some of the optional ones left out; `Fills` says that such members
lead from the record that the shape starts with to the one that was written, and then that record is
read back (`Shape.decode_of_fills`).
-/

namespace Reporting.Json

variable {α σ : Type} {decode : Decoder α} {json : α → Json} {a : α}

/-- Whether a decoder reads a thing back from its document, wherever that comes from. -/
def Decoder.Reads (decode : Decoder α) (json : α → Json) (a : α) : Prop :=
  ∀ origin, decode origin (Node.ofJson (json a)) = .ok a

/-- **What is read back from a document is read back from any text that spells it**, if that does not
nest too deep. -/
theorem decodeText_of_spells (h : decode.Reads json a) {text : String} (hspells : Spells text (json a))
    (hdepth : (json a).depth ≤ maxDepth) : decodeText decode text = .ok a := by
  rw [decodeText, Node.ofText_of_spells hspells hdepth]
  dsimp only
  rw [h .text]
  rfl

/-- What is looked for is found, if nothing else answers to it. -/
theorem find?_eq_some_of_unique {p : α → Bool} {xs : List α} (hmem : a ∈ xs) (h : p a)
    (hunique : ∀ b ∈ xs, p b → b = a) : xs.find? p = some a := by
  cases heq : xs.find? p with
  | none => exact absurd h (List.find?_eq_none.1 heq a hmem)
  | some b => rw [hunique b (List.mem_of_find?_eq_some heq) (List.find?_some heq)]

/-! ## Values and lists -/

namespace Decode

theorem reads_string (s : String) : Decoder.Reads string .string s := fun _ => rfl

theorem reads_bool (b : Bool) : Decoder.Reads bool .bool b := fun _ => rfl

/-- A count of 64 bits is read back. -/
theorem reads_count {n : Nat} (h : n < UInt64.size) : Decoder.Reads count .ofNat n := by
  intro origin
  have hfits : Number.Fits n := Number.fits_natCast h
  rw [ofNat, ofInt, dif_pos hfits, Node.ofJson, count, natural, if_pos (by omega), Int.toNat_natCast]

/-- **A choice is read back from its name**, if all have different names. -/
theorem reads_oneOf {choices : List α} {name : α → String} (hnames : (choices.map name).Nodup)
    (hmem : a ∈ choices) : Decoder.Reads (oneOf choices name) (fun a => .string (name a)) a := by
  intro origin
  have hfind := find?_eq_some_of_unique (p := fun choice => name choice == name a) hmem
    (beq_self_eq_true _) fun _ hb heq => List.inj_on_of_nodup_map hnames hb hmem (eq_of_beq heq)
  rw [Node.ofJson, oneOf, named, hfind]

theorem items_ofItems {origin : Origin} {xs : List α} (h : ∀ x ∈ xs, decode.Reads json x) :
    items decode origin (Node.ofItems (xs.map json)) = .ok xs := by
  induction xs with
  | nil => rfl
  | cons x xs ih =>
    obtain ⟨hx, hxs⟩ := List.forall_mem_cons.1 h
    rw [List.map_cons, Node.ofItems, items, hx origin, ih hxs]
    rfl

/-- **A list is read back** if its items are. -/
theorem reads_list {xs : List α} (h : ∀ x ∈ xs, decode.Reads json x) :
    Decoder.Reads (list decode) (fun xs => .array (xs.map json)) xs := by
  intro origin
  rw [Node.ofJson, list, items_ofItems h]
  rfl

/-- What is there is read back where nothing need be. -/
theorem optional_ofJson (h : decode.Reads json a) (hnull : json a ≠ .null) (origin : Origin) :
    optional decode origin (Node.ofJson (json a)) = .ok (some a) := by
  have ha := h origin
  unfold optional
  split
  · rename_i heq
    cases hj : json a <;> rw [hj] at heq <;> first | exact absurd hj hnull | cases heq
  · rw [ha]
    rfl

end Decode

/-! ## Depth -/

theorem depth_ofInt (n : Int) : (ofInt n).depth = 0 := by
  rw [ofInt]
  split <;> rfl

theorem depth_ofFloat (x : Float) : (ofFloat x).depth = 0 := by
  rw [ofFloat]
  split <;> rfl

theorem depth_array_le {n : Nat} {items : List Json} (h : ∀ item ∈ items, item.depth ≤ n) :
    (array items).depth ≤ n + 1 := by
  rw [depth]
  refine Nat.succ_le_succ ?_
  induction items with
  | nil => exact Nat.zero_le n
  | cons item items ih =>
    obtain ⟨hitem, hitems⟩ := List.forall_mem_cons.1 h
    exact Nat.max_le.2 ⟨hitem, ih hitems⟩

theorem depth_array_map_le {n : Nat} {xs : List α} (h : ∀ x ∈ xs, (json x).depth ≤ n) :
    (array (xs.map json)).depth ≤ n + 1 :=
  depth_array_le (List.forall_mem_map.2 h)

theorem depth_object_le {n : Nat} {members : List (String × Json)}
    (h : ∀ m ∈ members, m.2.depth ≤ n) :
    (object members).depth ≤ n + 1 := by
  rw [depth]
  refine Nat.succ_le_succ ?_
  induction members with
  | nil => exact Nat.zero_le n
  | cons m members ih =>
    obtain ⟨hm, hmembers⟩ := List.forall_mem_cons.1 h
    exact Nat.max_le.2 ⟨hm, ih hmembers⟩

/-! ## Keeping -/

mutual

/-- What comes from a document can be kept. -/
theorem Node.exists_toJson (j : Json) : ∃ again, (ofJson j).toJson = .ok again := by
  match j with
  | .null | .bool _ | .number _ | .string _ => exact ⟨_, rfl⟩
  | .array items =>
    obtain ⟨again, h⟩ := exists_toItems items
    exact ⟨_, bind_eq_ok_iff.2 ⟨again, h, rfl⟩⟩
  | .object members =>
    obtain ⟨again, h⟩ := exists_toMembers members
    exact ⟨_, bind_eq_ok_iff.2 ⟨again, h, rfl⟩⟩

theorem Node.exists_toItems (items : List Json) :
    ∃ again, toItems (ofItems items) = .ok again := by
  match items with
  | [] => exact ⟨_, rfl⟩
  | item :: rest =>
    obtain ⟨first, hfirst⟩ := exists_toJson item
    obtain ⟨again, h⟩ := exists_toItems rest
    exact ⟨_, bind_eq_ok_iff.2 ⟨first, hfirst, bind_eq_ok_iff.2 ⟨again, h, rfl⟩⟩⟩

theorem Node.exists_toMembers (members : List (String × Json)) :
    ∃ again, toMembers (ofMembers members) = .ok again := by
  match members with
  | [] => exact ⟨_, rfl⟩
  | (name, value) :: rest =>
    obtain ⟨first, hfirst⟩ := exists_toJson value
    obtain ⟨again, h⟩ := exists_toMembers rest
    exact ⟨_, bind_eq_ok_iff.2 ⟨name, rfl, bind_eq_ok_iff.2 ⟨first, hfirst,
      bind_eq_ok_iff.2 ⟨again, h, rfl⟩⟩⟩⟩

end

/-! ## Records -/

/-- Whether members in the order of some slots, where optional ones may be left out, lead from a
record to another. -/
inductive Fills : List (Slot σ) → List (String × Json) → σ → σ → Prop
  | nil (record : σ) : Fills [] [] record record
  | member {slot : Slot σ} {slots : List (Slot σ)} {value : Json} {members : List (String × Json)}
      {before between after : σ}
      (read : ∀ origin, slot.read origin (Node.ofJson value) before = .ok between)
      (rest : Fills slots members between after) :
      Fills (slot :: slots) ((slot.name, value) :: members) before after
  | absent {slot : Slot σ} {slots : List (Slot σ)} {members : List (String × Json)}
      {before after : σ} (optional : slot.required = false)
      (rest : Fills slots members before after) : Fills (slot :: slots) members before after

namespace Fills

variable {slots : List (Slot σ)} {members : List (String × Json)} {before after : σ}

theorem mandatory {name : String} {set : α → σ → σ} (h : decode.Reads json a)
    (rest : Fills slots members (set a before) after) :
    Fills (Slot.mandatory name decode set :: slots) ((name, json a) :: members) before after :=
  member (fun origin => map_eq_ok_iff.2 ⟨a, h origin, rfl⟩) rest

theorem optional {name : String} {set : α → σ → σ} (h : decode.Reads json a)
    (rest : Fills slots members (set a before) after) :
    Fills (Slot.optional name decode set :: slots) ((name, json a) :: members) before after :=
  member (fun origin => map_eq_ok_iff.2 ⟨a, h origin, rfl⟩) rest

end Fills

/-- A slot is found under its name, if no other has that. -/
theorem Slot.find?_name {slots : List (Slot σ)} (h : (slots.map Slot.name).Nodup) {slot : Slot σ}
    (hmem : slot ∈ slots) : (slots.find? fun other => other.name == slot.name) = some slot :=
  find?_eq_some_of_unique hmem (beq_self_eq_true _) fun _ hother heq =>
    List.inj_on_of_nodup_map h hother hmem (eq_of_beq heq)

/-- **Members in the order of the slots are read one by one**, and none is missing in the end. -/
theorem Fills.readMembers {slots all : List (Slot σ)} {members : List (String × Json)}
    {before after : σ} (h : Fills slots members before after) (origin : Origin) {seen : List String}
    (hfind : ∀ slot ∈ slots, (all.find? fun other => other.name == slot.name) = some slot)
    (hnames : (slots.map Slot.name).Nodup) (hseen : ∀ slot ∈ slots, slot.name ∉ seen) :
    ∃ seen', Shape.readMembers all origin (Node.ofMembers members) seen before = .ok (seen', after) ∧
      (∀ name ∈ seen, name ∈ seen') ∧ ∀ slot ∈ slots, slot.required → slot.name ∈ seen' := by
  induction h generalizing seen with
  | nil record => exact ⟨seen, rfl, fun _ h => h, nofun⟩
  | @member slot slots value members before between after read rest ih =>
    obtain ⟨hslot, hslots⟩ := List.nodup_cons.1 hnames
    obtain ⟨hfirst, hothers⟩ := List.forall_mem_cons.1 hfind
    obtain ⟨hnew, hnews⟩ := List.forall_mem_cons.1 hseen
    have hseen' : ∀ other ∈ slots, other.name ∉ slot.name :: seen := by
      intro other hother hmem
      rcases List.mem_cons.1 hmem with heq | hmem
      · exact hslot (heq ▸ List.mem_map_of_mem hother)
      · exact hnews other hother hmem
    obtain ⟨seen', hread, hkept, hrequired⟩ := ih hothers hslots hseen'
    refine ⟨seen', ?_, fun name hname => hkept name (List.mem_cons_of_mem _ hname),
      List.forall_mem_cons.2 ⟨fun _ => hkept _ List.mem_cons_self, hrequired⟩⟩
    have hcontains : seen.contains slot.name = false := by simpa using hnew
    rw [Node.ofMembers, Shape.readMembers]
    dsimp only [Node.nameText]
    rw [hfirst]
    dsimp only
    rw [hcontains, if_neg Bool.false_ne_true, read origin]
    exact hread
  | @absent slot slots members before after optional rest ih =>
    obtain ⟨-, hslots⟩ := List.nodup_cons.1 hnames
    obtain ⟨seen', hread, hkept, hrequired⟩ := ih (List.forall_mem_cons.1 hfind).2 hslots
      (List.forall_mem_cons.1 hseen).2
    refine ⟨seen', hread, hkept, List.forall_mem_cons.2 ⟨fun h => ?_, hrequired⟩⟩
    cases optional.symm.trans h

/-- **A record is read back from members that fill its slots.** -/
theorem Shape.decode_of_fills {shape : Shape σ} {members : List (String × Json)} {record : σ}
    (hnames : (shape.slots.map Slot.name).Nodup) (h : Fills shape.slots members shape.start record)
    (origin : Origin) : shape.decode origin (Node.ofJson (.object members)) = .ok record := by
  obtain ⟨seen, hread, -, hrequired⟩ := h.readMembers origin
    (fun slot hslot => Slot.find?_name hnames hslot) hnames fun _ _ => List.not_mem_nil
  have hmissing : checkMissing shape.slots seen = .ok () := by
    have hnone : (shape.slots.find? fun slot => slot.required && !seen.contains slot.name) = none :=
      List.find?_eq_none.2 fun slot hslot hbad => by
        rw [Bool.and_eq_true, Bool.not_eq_true', List.contains_eq_mem, decide_eq_false_iff_not] at hbad
        exact hbad.2 (hrequired slot hslot hbad.1)
    rw [checkMissing, hnone]
  exact bind_eq_ok_iff.2 ⟨_, hread, bind_eq_ok_iff.2 ⟨(), rfl, bind_eq_ok_iff.2 ⟨(), hmissing, rfl⟩⟩⟩

end Reporting.Json
