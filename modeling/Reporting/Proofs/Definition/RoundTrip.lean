import Reporting.Proofs.Definition.ReadBack

/-!
# Proofs/Definition/RoundTrip — requests survive being sent

A request nests but a few containers, so its text is read back as a whole
(`Json.decodeText_of_spells`).
-/

namespace Reporting

/-! ## Depth -/

open Json

variable {α : Type} {n : Nat} {json : α → Json}

theorem depth_le_of_mem_optionalMember {name : String} {x : Option α}
    (h : ∀ a, (json a).depth ≤ n) : ∀ m ∈ optionalMember name json x, m.2.depth ≤ n := by
  cases x with
  | none => exact nofun
  | some a => exact List.forall_mem_singleton.2 (h a)

theorem depth_stringsJson (xs : List String) : (stringsJson xs).depth ≤ 1 :=
  depth_array_map_le fun _ _ => Nat.le_refl 0

theorem Value.depth_wire (v : Value) : v.wire.depth ≤ 1 := by
  have hcontent : v.content.depth = 0 := by
    cases v with
    | number x => exact depth_ofFloat x
    | _ => rfl
  refine depth_object_le ?_
  simp [hcontent, depth]

theorem Operand.depth_json (o : Operand) : o.json.depth ≤ 2 := by
  cases o with
  | one v => exact Nat.le_succ_of_le v.depth_wire
  | many vs => exact depth_array_map_le fun v _ => v.depth_wire

theorem Clause.depth_json (c : Clause) : c.json.depth ≤ 3 := by
  refine depth_object_le ?_
  simp only [List.forall_mem_append, List.forall_mem_cons, depth]
  exact ⟨⟨⟨Nat.zero_le 2, Nat.zero_le 2, nofun⟩,
    depth_le_of_mem_optionalMember Operand.depth_json⟩,
    depth_le_of_mem_optionalMember fun v => Nat.le_succ_of_le v.depth_wire⟩

theorem Definition.depth_json (d : Definition) : d.json.depth ≤ 5 := by
  have hstrings : ∀ xs, (stringsJson xs).depth ≤ 4 := fun xs =>
    Nat.le_trans (depth_stringsJson xs) (by decide)
  refine depth_object_le ?_
  simp only [List.forall_mem_append, List.forall_mem_cons]
  refine ⟨⟨⟨hstrings _, ?_, ?_, hstrings _, ?_, nofun⟩, ?_⟩, ?_, nofun⟩
  · exact depth_array_map_le fun c _ => c.depth_json
  · exact depth_array_map_le fun k _ => Nat.le_add_left 1 2
  · exact depth_array_map_le fun a _ => Nat.le_add_left 1 2
  · exact depth_le_of_mem_optionalMember fun n => Nat.le_trans (Nat.le_of_eq (depth_ofInt n)) (by decide)
  · exact Nat.le_trans (Nat.le_of_eq (depth_ofInt d.offset)) (by decide)

theorem ScheduledReport.depth_json (s : ScheduledReport) : s.json.depth ≤ 6 := by
  refine depth_object_le ?_
  simp only [List.forall_mem_cons, depth]
  exact ⟨s.definition.depth_json, Nat.zero_le 5,
    Nat.le_trans (depth_stringsJson s.recipients) (by decide), Nat.zero_le 5, nofun⟩

theorem Field.depth_json (f : Field) : f.json.depth ≤ 2 := by
  refine depth_object_le ?_
  simp only [List.forall_mem_append, List.forall_mem_cons, depth]
  refine ⟨⟨by simp, ?_⟩, ?_⟩
  · split
    · exact nofun
    · exact List.forall_mem_singleton.2 (depth_stringsJson f.enumValues)
  · split
    · exact List.forall_mem_singleton.2 (Nat.zero_le 1)
    · exact nofun

/-! ## Requests -/

/-- Whether a thing is read back from the text of its document, and written to the same text again. -/
structure Json.RoundTrips (decode : Decoder α) (json : α → Json) (a : α) : Prop where
  read : decodeText decode (json a).compact = .ok a
  /-- Whatever is read has that text and that hash. -/
  write : ∀ b, decodeText decode (json a).compact = .ok b →
    (json b).compact = (json a).compact ∧ (json b).hash = (json a).hash

theorem Json.roundTrips_of_reads {decode : Decoder α} {a : α} (h : decode.Reads json a)
    (hdepth : (json a).depth ≤ maxDepth) : RoundTrips decode json a := by
  have hread := decodeText_of_spells h (spells_compact (json a)) hdepth
  refine ⟨hread, fun b hb => ?_⟩
  rw [hread] at hb
  cases hb
  exact ⟨rfl, rfl⟩

/-- **Requests survive being sent.**  Definitions whose numbers are real, the scheduled reports on them,
fields, and sets of operands of any length are read back from their canonical text as what they were,
and written to that text again. -/
theorem roundTrips_of_portable :
    (∀ d : Definition, d.Portable → RoundTrips Definition.decode Definition.json d) ∧
    (∀ s : ScheduledReport, s.definition.Portable →
      RoundTrips ScheduledReport.decode ScheduledReport.json s) ∧
    (∀ f : Field, RoundTrips Field.decode Field.json f) ∧
    (∀ vs : List Value, (∀ v ∈ vs, v.IsReal) →
      RoundTrips Operand.decode Operand.json (.many vs)) := by
  refine ⟨fun d hd => ?_, fun s hs => ?_, fun f => ?_, fun vs hvs => ?_⟩
  · exact roundTrips_of_reads (Definition.reads_decode hd) (Nat.le_trans d.depth_json (by decide))
  · exact roundTrips_of_reads (ScheduledReport.reads_decode hs)
      (Nat.le_trans s.depth_json (by decide))
  · exact roundTrips_of_reads f.reads_decode (Nat.le_trans f.depth_json (by decide))
  · exact roundTrips_of_reads (Operand.reads_decode (o := .many vs) hvs)
      (Nat.le_trans (Operand.depth_json _) (by decide))

/-- The negative zero and the leap second at the end of 2016: values that are easily lost. -/
def Value.fragile : List Value :=
  [.number (Double.ofMagnitude true 0),
    .date ⟨1483228799, 1500000000, by decide, by decide, by decide⟩]

/-- The definition of the sales that are of one of the fragile values. -/
def Definition.fragileSales : Definition where
  fields := ["amount"]
  filters := [.compareSet "amount" .isIn Value.fragile]
  limit := some 10

/-- The fragile values survive, in a definition, in a scheduled report and as a set of two. -/
theorem roundTrips_fragileSales : Definition.fragileSales.Portable ∧
    Json.decodeText Definition.decode Definition.fragileSales.canonical = .ok .fragileSales ∧
    Json.decodeText ScheduledReport.decode
      (ScheduledReport.mk .fragileSales .daily ["a@b.c"] .json).canonical =
        .ok ⟨.fragileSales, .daily, ["a@b.c"], .json⟩ ∧
    Json.decodeText Operand.decode (Operand.many Value.fragile).json.compact =
      .ok (.many Value.fragile) := by
  have hreal : ∀ v ∈ Value.fragile, v.IsReal := by
    refine List.forall_mem_cons.2 ⟨?_, List.forall_mem_singleton.2 trivial⟩
    show Double.isFinite (Double.ofMagnitude true 0)
    decide
  have hclause : (Clause.compareSet "amount" .isIn Value.fragile).IsReal := by
    refine ⟨fun o ho => ?_, fun v hv => ?_⟩
    · cases ho
      exact hreal
    · cases hv
  have hportable : Definition.fragileSales.Portable :=
    ⟨List.forall_mem_singleton.2 hclause, by decide, by decide⟩
  obtain ⟨hdefinition, hscheduled, -, hset⟩ := roundTrips_of_portable
  exact ⟨hportable, (hdefinition _ hportable).read, (hscheduled _ hportable).read,
    (hset _ hreal).read⟩

end Reporting
