import ScriptScan.Proofs.Decoding
import ScriptScan.Proofs.Records

namespace ScriptScan

namespace Token

def fields (t : Token) : List (String × Json.Value) :=
  [("kind", .string t.kind.name), ("lexeme", .string t.lexeme), ("line", .number t.span.line),
    ("column", .number t.span.column)] ++
  match t.kind with
  | .number value format => [("value", .string value.text), ("format", .string format.name)]
  | _ => []

end Token

namespace Listing

namespace Record

def numberOfFields? (fields : List (String × Json.Value)) : Option (Option Number) :=
  match fields.lookup "value", fields.lookup "format" with
  | none, none => some none
  | some (.string value), some (.string format) => some (some ⟨value, format⟩)
  | _, _ => none

def ofJson? : Json.Value → Option Record
  | .object fields => do
      let .string kind ← fields.lookup "kind" | none
      let .string lexeme ← fields.lookup "lexeme" | none
      let .number line ← fields.lookup "line" | none
      let .number column ← fields.lookup "column" | none
      return ⟨kind, lexeme, line.num.toNat, column.num.toNat, ← numberOfFields? fields⟩
  | _ => none

theorem values_json (t : Token) : (ofToken t).json.values = t.fields := by
  cases hkind : t.kind <;>
    simp [ofToken, json, numberOf?, numberFields, Json.Object.values, Json.Scalar.value,
      Token.fields, hkind]

theorem ofJson?_fields (t : Token) : ofJson? (.object t.fields) = some (ofToken t) := by
  cases hkind : t.kind <;>
    simp [ofJson?, numberOfFields?, Token.fields, hkind, List.lookup_cons, ofToken, numberOf?]

end Record

theorem render_json (source : String) (showEof : Bool) :
    render .json showEof (scan source).tokens =
      Json.arrayText ((records showEof (scan source).tokens).map Record.json) ++ "\n" := rfl

theorem getLast?_arrayText (objects : List Json.Object) :
    (Json.arrayText objects).toList.getLast? = some ']' := by
  rw [Json.arrayText]
  split
  · rfl
  · rw [String.toList_append, List.getLast?_append]
    rfl

variable {source source' : String} {showEof showEof' : Bool}

theorem decode?_records :
    Json.decode? (Json.arrayText ((records showEof (scan source).tokens).map Record.json)) =
      some (.array ((if showEof then (scan source).tokens else (scan source).words).map
        fun t => .object t.fields)) := by
  rw [Json.decode?_arrayText, records_scan, List.map_map, List.map_map]
  simp only [Function.comp_def, Record.values_json]

theorem map_ofJson?_fields (tokens : List Token) :
    (tokens.map fun t => Json.Value.object t.fields).map Record.ofJson? =
      (tokens.map Record.ofToken).map some := by
  rw [List.map_map, List.map_map]
  exact List.map_congr_left fun t _ => Record.ofJson?_fields t

theorem records_of_json (h : render .json showEof (scan source).tokens =
    render .json showEof' (scan source').tokens) :
    records showEof (scan source).tokens = records showEof' (scan source').tokens := by
  rw [render_json, render_json, String.append_left_inj] at h
  have hvalue := congrArg Json.decode? h
  rw [decode?_records, decode?_records, Option.some_inj, Json.Value.array.injEq] at hvalue
  have hread := congrArg (List.map Record.ofJson?) hvalue
  rw [map_ofJson?_fields, map_ofJson?_fields] at hread
  rw [records_scan, records_scan]
  exact List.map_injective_iff.mpr (Option.some_injective Record) hread

/-- A listing as JSON is one array, with an object for each token that is listed, and then a line
feed. The objects stand for the records that the lines of the listing as text stand for, so two
listings are equal as JSON exactly if they are equal as text. -/
theorem json_listing_decodes (source : String) (showEof : Bool) :
    let listed := if showEof then (scan source).tokens else (scan source).words
    ∃ body, render .json showEof (scan source).tokens = body ++ "\n" ∧
      body.toList.getLast? = some ']' ∧
      Json.decode? body = some (.array (listed.map fun t => .object t.fields)) ∧
      (∃ lines, (render .text showEof (scan source).tokens).toList.splitOn '\n' = lines ++ [[]] ∧
        (listed.map fun t => .object t.fields).map Record.ofJson? = lines.map Record.ofLine? ∧
        lines.map Record.ofLine? = (listed.map Record.ofToken).map some) ∧
      ∀ source' showEof',
        render .json showEof (scan source).tokens = render .json showEof' (scan source').tokens ↔
          render .text showEof (scan source).tokens =
            render .text showEof' (scan source').tokens := by
  intro listed
  have hlegible := legible_records showEof (scan source).tokens
  have hlisted : records showEof (scan source).tokens = listed.map Record.ofToken :=
    records_scan source showEof
  have hlines := map_ofLine?_text hlegible
  refine ⟨_, render_json source showEof, getLast?_arrayText _, decode?_records,
    ⟨_, splitOn_textOf hlegible, ?_, ?_⟩, ?_⟩
  · rw [hlines, hlisted, map_ofJson?_fields]
  · rw [hlines, hlisted]
  · intro source' showEof'
    constructor
    · intro hjson
      exact congrArg textOf (records_of_json hjson)
    · intro htext
      exact congrArg jsonOf (textOf_inj hlegible (legible_records showEof' _) htext)

end Listing

end ScriptScan
