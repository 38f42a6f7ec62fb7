import Reporting.Field
import Reporting.Proofs.Definition.Wire
import Reporting.Proofs.Json.Record
import Reporting.Proofs.Time.RoundTrip
import Reporting.Schedule

/-!
# Proofs/Definition/ReadBack — requests that are read back

The decoders of requests yield what a document was made from: names, operands, and the records that
consist of them.  An operand is tried as a value first, and a set of values could be mistaken for the
array form of one; `Value.decode_set` says that it never is.
-/

namespace Reporting

open Json (Decoder Node Origin)

/-! ## Names -/

theorem FieldType.reads_decode (t : FieldType) :
    Decoder.Reads decode (fun t => .string t.name) t :=
  Json.Decode.reads_oneOf (by decide) t.mem_all

theorem Operator.reads_decode (o : Operator) : Decoder.Reads decode (fun o => .string o.name) o :=
  Json.Decode.reads_oneOf (by decide) (by cases o <;> decide)

theorem Reduction.reads_decode (f : Reduction) : Decoder.Reads decode (fun f => .string f.name) f :=
  Json.Decode.reads_oneOf (by decide) (by cases f <;> decide)

theorem Direction.reads_decode (d : Direction) : Decoder.Reads decode (fun d => .string d.name) d :=
  Json.Decode.reads_oneOf (by decide) (by cases d <;> decide)

theorem Cadence.reads_decode (c : Cadence) : Decoder.Reads decode (fun c => .string c.name) c :=
  Json.Decode.reads_oneOf (by decide) (by cases c <;> decide)

theorem ExportFormat.reads_decode (f : ExportFormat) :
    Decoder.Reads decode (fun f => .string f.name) f :=
  Json.Decode.reads_oneOf (by decide) (by cases f <;> decide)

/-! ## Operands -/

namespace Value

variable {v : Value}

theorem decodeInstant_string {origin : Origin} {s : String} {t : Time.Instant}
    (h : Time.Instant.ofWire? s = some t) : decodeInstant origin (.string s) = .ok t := by
  rw [decodeInstant, Json.Decode.string]
  refine bind_eq_ok_iff.2 ⟨s, rfl, ?_⟩
  rw [h]

/-- **What stands behind a type is read back by it**, numbers bit for bit. -/
theorem decodeContent_content (h : v.IsReal) (origin : Origin) :
    decodeContent v.type origin (Node.ofJson v.content) = .ok v := by
  cases v with
  | text s => rfl
  | enum s => rfl
  | bool b => rfl
  | number x =>
    have hx : Double.isFinite x := h
    rw [content, Json.ofFloat, dif_pos hx]
    rfl
  | date t =>
    have ht : decodeInstant origin (.string t.wireText) = .ok t :=
      decodeInstant_string t.ofWire?_wireText
    rw [type, content, Node.ofJson, decodeContent, ht]
    rfl

theorem takeMembers_type {origin : Origin} {node : Node} {rest : List (Node × Node)}
    {progress : Progress} : takeMembers origin ((.string "type", node) :: rest) progress =
      takeType origin node progress >>= takeMembers origin rest := rfl

theorem takeMembers_value {origin : Origin} {node : Node} {rest : List (Node × Node)}
    {progress : Progress} : takeMembers origin ((.string "value", node) :: rest) progress =
      takeContent origin node progress >>= takeMembers origin rest := rfl

theorem reads_decode (h : v.IsReal) : Decoder.Reads decode wire v := by
  intro origin
  have htype : takeType origin (.string v.type.name) .nothing = .ok (.typed v.type) :=
    map_eq_ok_iff.2 ⟨v.type, v.type.reads_decode origin, rfl⟩
  have hcontent : takeContent origin (Node.ofJson v.content) (.typed v.type) = .ok (.whole v) :=
    map_eq_ok_iff.2 ⟨v, decodeContent_content h origin, rfl⟩
  have hmembers : takeMembers origin [(.string "type", .string v.type.name),
      (.string "value", Node.ofJson v.content)] .nothing = .ok (.whole v) := by
    rw [takeMembers_type, htype]
    exact takeMembers_value.trans (by rw [hcontent]; rfl)
  exact bind_eq_ok_iff.2 ⟨.whole v, hmembers, bind_eq_ok_iff.2 ⟨(), rfl, rfl⟩⟩

/-- **A set of values is no value**, however many there are: where a value has its type, a set has a
value, which has no type's name for its own. -/
theorem decode_set (origin : Origin) (vs : List Value) :
    ∃ fault, decode origin (Node.ofJson (.array (vs.map wire))) = .error fault := by
  have htype : ∀ v : Value, FieldType.decode origin (Node.ofJson v.wire) =
      .error (.unknownName "type") := fun _ => rfl
  match vs with
  | [] => exact ⟨.missing "type", rfl⟩
  | [v] => exact ⟨.unknownName "type", bind_eq_error_iff.2 (.inl (htype v))⟩
  | v :: w :: more => exact ⟨.unknownName "type", bind_eq_error_iff.2 (.inl (htype v))⟩

end Value

theorem Value.keep_ofJson (j : Json) : keep (Node.ofJson j) = .ok (Node.ofJson j) := by
  obtain ⟨again, h⟩ := Node.exists_toJson j
  rw [keep, h]

/-- **An operand is read back as what it was**, a value or a set of values. -/
theorem Operand.reads_decode {o : Operand} (h : ∀ v ∈ o.values, v.IsReal) :
    Decoder.Reads decode json o := by
  intro origin
  refine bind_eq_ok_iff.2 ⟨Node.ofJson o.json, Value.keep_ofJson _, ?_⟩
  cases o with
  | one v =>
    have hv : Value.decode .kept (Node.ofJson (one v).json) = .ok v :=
      Value.reads_decode (h v (List.mem_singleton.2 rfl)) .kept
    rw [hv]
  | many vs =>
    obtain ⟨fault, hfault⟩ := Value.decode_set .kept vs
    have hvs : Json.Decode.list Value.decode .kept (Node.ofJson (many vs).json) = .ok vs :=
      Json.Decode.reads_list (fun v hv => Value.reads_decode (h v hv)) .kept
    rw [show Value.decode .kept (Node.ofJson (many vs).json) = .error fault from hfault, hvs]

/-! ## Records -/

theorem Json.Fills.optionalMember {α σ : Type} {decode : Decoder α} {json : α → Json} {name : String}
    {set : Option α → σ → σ} {slots : List (Json.Slot σ)} {members : List (String × Json)}
    {before after : σ} {x : Option α} (h : ∀ a ∈ x, decode.Reads json a)
    (hnull : ∀ a ∈ x, json a ≠ .null) (hnone : set none before = before)
    (rest : Fills slots members (set x before) after) :
    Fills (.optional name (Json.Decode.optional decode) set :: slots)
      (Reporting.optionalMember name json x ++ members) before after := by
  cases x with
  | none => exact .absent rfl (hnone ▸ rest)
  | some a =>
    exact .member (fun origin => map_eq_ok_iff.2
      ⟨some a, Json.Decode.optional_ofJson (h a rfl) (hnull a rfl) origin, rfl⟩) rest

theorem Operand.json_ne_null (o : Operand) : o.json ≠ .null := by
  cases o <;> exact nofun

theorem Clause.reads_decode {c : Clause} (h : c.IsReal) : Decoder.Reads shape.decode json c := by
  refine Json.Shape.decode_of_fills (by decide) ?_
  refine .mandatory (Json.Decode.reads_string c.fieldId) ?_
  refine .mandatory c.operator.reads_decode ?_
  refine .optionalMember (fun o ho => Operand.reads_decode (h.operand o ho))
    (fun o _ => o.json_ne_null) rfl ?_
  rw [← List.append_nil (optionalMember "valueEnd" Value.wire c.valueEnd)]
  exact .optionalMember (fun v hv => Value.reads_decode (h.upper v hv)) (fun _ _ => nofun) rfl
    (.nil c)

theorem SortKey.reads_decode (k : SortKey) : Decoder.Reads shape.decode json k := by
  refine Json.Shape.decode_of_fills (by decide) ?_
  refine .mandatory (Json.Decode.reads_string k.fieldId) ?_
  exact .optional k.direction.reads_decode (.nil k)

theorem Aggregation.reads_decode (a : Aggregation) : Decoder.Reads shape.decode json a := by
  refine Json.Shape.decode_of_fills (by decide) ?_
  refine .mandatory (Json.Decode.reads_string a.fieldId) ?_
  refine .mandatory a.function.reads_decode ?_
  exact .mandatory (Json.Decode.reads_string a.target) (.nil a)

theorem reads_strings (xs : List String) :
    Decoder.Reads (Json.Decode.list Json.Decode.string) stringsJson xs :=
  Json.Decode.reads_list fun s _ => Json.Decode.reads_string s

/-- Whether a definition can be written: its numbers are real, and 64 bits hold its counts. -/
structure Definition.Portable (d : Definition) : Prop where
  isReal : d.IsReal
  limit_lt : ∀ n ∈ d.limit, n < UInt64.size
  offset_lt : d.offset < UInt64.size

theorem Json.ofNat_ne_null {n : Nat} (h : n < UInt64.size) : Json.ofNat n ≠ .null := by
  rw [ofNat, ofInt, dif_pos (Number.fits_natCast h)]
  intro hnull
  cases hnull

/-- **A definition is read back from its document.** -/
theorem Definition.reads_decode {d : Definition} (h : d.Portable) : Decoder.Reads decode json d := by
  refine Json.Shape.decode_of_fills (by decide) ?_
  refine .optional (reads_strings d.fields) ?_
  refine .optional (Json.Decode.reads_list fun c hc => Clause.reads_decode (h.isReal c hc)) ?_
  refine .optional (Json.Decode.reads_list fun k _ => k.reads_decode) ?_
  refine .optional (reads_strings d.groupBy) ?_
  refine .optional (Json.Decode.reads_list fun a _ => a.reads_decode) ?_
  refine .optionalMember (fun n hn => Json.Decode.reads_count (h.limit_lt n hn))
    (fun n hn => Json.ofNat_ne_null (h.limit_lt n hn)) rfl ?_
  exact .optional (Json.Decode.reads_count h.offset_lt) (.nil d)

theorem ScheduledReport.reads_decode {s : ScheduledReport} (h : s.definition.Portable) :
    Decoder.Reads decode json s := by
  refine Json.Shape.decode_of_fills (by decide) ?_
  refine .mandatory (Definition.reads_decode h) ?_
  refine .mandatory s.cadence.reads_decode ?_
  refine .mandatory (reads_strings s.recipients) ?_
  exact .mandatory s.exportFormat.reads_decode (.nil s)

theorem Field.reads_decode (f : Field) : Decoder.Reads decode json f := by
  obtain ⟨id, name, type, entity, filterable, sortable, groupable, enumValues, unit⟩ := f
  refine Json.Shape.decode_of_fills (by decide) ?_
  refine .mandatory (Json.Decode.reads_string id) ?_
  refine .mandatory (Json.Decode.reads_string name) ?_
  refine .mandatory type.reads_decode ?_
  refine .mandatory (Json.Decode.reads_string entity) ?_
  refine .optional (Json.Decode.reads_bool filterable) ?_
  refine .optional (Json.Decode.reads_bool sortable) ?_
  refine .optional (Json.Decode.reads_bool groupable) ?_
  have hunit : Json.Fills [.optional "unit" (Json.Decode.optional Json.Decode.string)
        fun x (f : Field) => { f with unit := x }]
      (optionalMember "unit" .string unit ++ [])
      ⟨id, name, type, entity, filterable, sortable, groupable, enumValues, none⟩
      ⟨id, name, type, entity, filterable, sortable, groupable, enumValues, unit⟩ :=
    .optionalMember (fun s _ => Json.Decode.reads_string s) (fun _ _ => nofun) rfl (.nil _)
  rw [List.append_nil] at hunit
  cases enumValues with
  | nil => exact .absent rfl (by cases unit <;> exact hunit)
  | cons first more =>
    exact .optional (reads_strings (first :: more)) (by cases unit <;> exact hunit)

end Reporting
