/-
# Reports are read as they are written

The text of a JSON report is read as the verdicts that it reports.  Going down, a report is
a text, its value, and the values of the records in it:

| what | is read back |
| --- | --- |
| a text of a value that nests little and has only words as numbers | always |
| a record | if its fields are some of the declared ones, in their order |
| a field that is left out | as nothing, which is why it was left out |
| a location | if its line and column are words of 32 bits |

Locations have no larger lines and columns: they are counted in such words.
-/

import DependencyUse.Proofs.Json.Value
import DependencyUse.Report.Format
import Mathlib.Data.List.Nodup

namespace DependencyUse

open Json (Value Record)

/-! ### Lists and records -/

namespace Json

/-- The value of the first field of a name. -/
def field? (fields : List (String × Value)) (name : String) : Option Value :=
  (fields.find? fun f => f.1 == name).map Prod.snd

@[simp] theorem field?_nil (name : String) : field? [] name = none := rfl

@[simp] theorem field?_cons (f : String × Value) (fs : List (String × Value)) (name : String) :
    field? (f :: fs) name = if f.1 = name then some f.2 else field? fs name := by
  by_cases h : f.1 = name <;> simp [field?, h]

@[simp] theorem field?_append (fs gs : List (String × Value)) (name : String) :
    field? (fs ++ gs) name = (field? fs name).or (field? gs name) := by
  induction fs with
  | nil => rfl
  | cons f fs ih => by_cases h : f.1 = name <;> simp [h, ih]

@[simp] theorem field?_optionalField {α : Type} (declared : String) (encode : α → Value)
    (value : Option α) (name : String) :
    field? (optionalField declared encode value) name
      = if declared = name then value.map encode else none := by
  cases value <;> simp [optionalField]

@[simp] theorem field?_listField {α : Type} (declared : String) (encode : α → Value)
    (values : List α) (name : String) :
    field? (listField declared encode values) name
      = if declared = name ∧ values ≠ [] then some (.array (values.map encode)) else none := by
  cases values <;> simp [listField]

/-- Some of the fields of these names, in their order. -/
def FieldsOf (names : List String) (fields : List (String × Value)) : Prop :=
  (fields.map Prod.fst).Sublist names

theorem fieldsOf_names (fields : List (String × Value)) :
    FieldsOf (fields.map Prod.fst) fields :=
  List.Sublist.refl _

theorem FieldsOf.append {ns ms : List String} {fs gs : List (String × Value)}
    (h : FieldsOf ns fs) (h' : FieldsOf ms gs) : FieldsOf (ns ++ ms) (fs ++ gs) := by
  rw [FieldsOf, List.map_append]
  exact List.Sublist.append h h'

theorem fieldsOf_optionalField {α : Type} (name : String) (encode : α → Value)
    (value : Option α) : FieldsOf [name] (optionalField name encode value) := by
  cases value <;> simp [FieldsOf, optionalField]

theorem fieldsOf_listField {α : Type} (name : String) (encode : α → Value) (values : List α) :
    FieldsOf [name] (listField name encode values) := by
  cases values <;> simp [FieldsOf, listField]

theorem get?_map {values : String → Option Value} {names : List String} {name : String}
    (hname : name ∈ names) (positional : Bool) :
    Record.get? ⟨names.map fun n => (n, values n), positional⟩ name = values name := by
  have hfind : (names.find? fun n => n == name) = some name := by
    induction names with
    | nil => cases hname
    | cons n names ih => grind
  rw [Record.get?, List.find?_map]
  show ((((names.find? fun n => n == name).map _).map Prod.snd).join) = _
  rw [hfind]
  rfl

/-- **An object with some of the declared fields, in their order, is a record** with the
values of its fields. -/
theorem exists_record?_object {names : List String} {fields : List (String × Value)}
    (hfields : FieldsOf names fields) (hnames : names.Nodup) :
    ∃ r : Record, (Value.object fields).record? names = some r ∧
      ∀ name ∈ names, r.get? name = field? fields name := by
  have honce : (names.all fun name => (fields.filter fun f => f.1 == name).length ≤ 1) = true := by
    rw [List.all_eq_true]
    intro name _
    have hcount : (fields.map Prod.fst).count name ≤ 1 :=
      List.nodup_iff_count_le_one.1 (List.Sublist.nodup hfields hnames) name
    rw [List.count_eq_countP, List.countP_map, List.countP_eq_length_filter] at hcount
    exact decide_eq_true hcount
  exact ⟨_, if_pos honce, fun name hname => get?_map hname false⟩

theorem list?_map {α : Type} {encode : α → Value} {decode : Value → Option α} {xs : List α}
    (h : ∀ x ∈ xs, decode (encode x) = some x) :
    Value.list? decode (.array (xs.map encode)) = some xs := by
  rw [Value.list?]
  induction xs with
  | nil => rfl
  | cons x xs ih =>
    rw [List.map_cons, List.mapM_cons, h x List.mem_cons_self,
      ih fun y hy => h y (List.mem_cons_of_mem x hy)]
    rfl

@[simp] theorem list?_strings (texts : List String) :
    Value.list? Value.string? (.strings texts) = some texts :=
  list?_map fun _ _ => rfl

namespace Record

variable {α : Type} {r : Record} {name : String} {encode : α → Value} {decode : Value → Option α}

theorem required_eq_some {v : Value} {a : α} (hget : r.get? name = some v)
    (h : decode v = some a) : r.required name decode = some a := by
  rw [required, hget, Option.bind_some, h]

theorem withDefault_eq_some {v : Value} {a missing : α} (hget : r.get? name = some v)
    (h : decode v = some a) : r.withDefault name missing decode = some a := by
  rw [withDefault, hget]
  exact h

/-- A value that is left out if there is none reads as it was. -/
theorem optional_eq_some {value : Option α} (hget : r.get? name = value.map encode)
    (h : ∀ a ∈ value, (encode a).option? decode = some (some a)) :
    r.optional name decode = some value := by
  rw [optional, hget]
  cases value with
  | none => rfl
  | some a => exact h a rfl

/-- A list that is left out if it is empty reads as it was. -/
theorem listDefault_eq_some {values : List α}
    (hget : r.get? name = if values ≠ [] then some (.array (values.map encode)) else none)
    (h : ∀ x ∈ values, decode (encode x) = some x) :
    r.withDefault name [] (Value.list? decode) = some values := by
  cases values with
  | nil =>
    rw [withDefault, hget]
    rfl
  | cons x xs => exact withDefault_eq_some hget (list?_map h)

end Record

theorem writable_array_map {α : Type} {encode : α → Value} {levels : Nat} {xs : List α}
    (h : ∀ x ∈ xs, (encode x).Writable levels) :
    (Value.array (xs.map encode)).Writable (levels + 1) :=
  .array (by simpa using h)

theorem writable_strings (levels : Nat) (texts : List String) :
    (Value.strings texts).Writable (levels + 1) :=
  writable_array_map fun text _ => .string text

theorem writable_optionalField {α : Type} {name : String} {encode : α → Value} {levels : Nat}
    {value : Option α} (h : ∀ a ∈ value, (encode a).Writable levels) :
    ∀ f ∈ optionalField name encode value, f.2.Writable levels := by
  cases value with
  | none => simp [optionalField]
  | some a => simpa [optionalField] using h

theorem writable_listField {α : Type} {name : String} {encode : α → Value} {levels : Nat}
    {values : List α} (h : ∀ x ∈ values, (encode x).Writable levels) :
    ∀ f ∈ listField name encode values, f.2.Writable (levels + 1) := by
  cases values with
  | nil => simp [listField]
  | cons x xs =>
    have harray := writable_array_map h
    simpa [listField] using harray

end Json

/-! ### Components -/

namespace Vulnerability

theorem ofJson?_toJson (v : Vulnerability) : ofJson? v.toJson = some v := by
  obtain ⟨r, hr, hget⟩ :
      ∃ r, v.toJson.record? ["id", "severity", "affectedFunctions"] = some r ∧ _ :=
    Json.exists_record?_object
      (((Json.fieldsOf_names [("id", .string v.id)]).append
        (Json.fieldsOf_optionalField "severity" .string v.severity)).append
        (Json.fieldsOf_listField "affectedFunctions" .string v.affectedFunctions))
      (by simp)
  have hid : r.get? "id" = some (.string v.id) := by simp [hget]
  have hseverity : r.get? "severity" = v.severity.map .string := by simp [hget]
  have haffected : r.get? "affectedFunctions" = if v.affectedFunctions ≠ [] then
      some (.array (v.affectedFunctions.map .string)) else none := by simp [hget]
  rw [ofJson?]
  refine Option.bind_eq_some_iff.2 ⟨r, hr, ?_⟩
  refine Option.bind_eq_some_iff.2 ⟨_, Record.required_eq_some hid rfl, ?_⟩
  refine Option.bind_eq_some_iff.2 ⟨_, Record.optional_eq_some hseverity fun _ _ => rfl, ?_⟩
  exact Option.bind_eq_some_iff.2 ⟨_, Record.listDefault_eq_some haffected fun _ _ => rfl, rfl⟩

theorem writable_toJson (levels : Nat) (v : Vulnerability) : v.toJson.Writable (levels + 2) := by
  refine .object ?_
  simp only [List.forall_mem_append, List.forall_mem_singleton]
  exact ⟨⟨.string _, Json.writable_optionalField fun _ _ => .string _⟩,
    Json.writable_listField fun _ _ => .string _⟩

end Vulnerability

namespace Component

theorem ofJson?_toJson (c : Component) : ofJson? c.toJson = some c := by
  obtain ⟨r, hr, hget⟩ :
      ∃ r, c.toJson.record? ["name", "version", "ecosystem", "vulnerabilities"] = some r ∧ _ :=
    Json.exists_record?_object
      (((Json.fieldsOf_names [("name", .string c.name), ("version", .string c.version)]).append
        (Json.fieldsOf_optionalField "ecosystem" .string c.ecosystem)).append
        (Json.fieldsOf_listField "vulnerabilities" Vulnerability.toJson c.vulnerabilities))
      (by simp)
  have hname : r.get? "name" = some (.string c.name) := by simp [hget]
  have hversion : r.get? "version" = some (.string c.version) := by simp [hget]
  have hecosystem : r.get? "ecosystem" = c.ecosystem.map .string := by simp [hget]
  have hvulnerabilities : r.get? "vulnerabilities" = if c.vulnerabilities ≠ [] then
      some (.array (c.vulnerabilities.map Vulnerability.toJson)) else none := by simp [hget]
  rw [ofJson?]
  refine Option.bind_eq_some_iff.2 ⟨r, hr, ?_⟩
  refine Option.bind_eq_some_iff.2 ⟨_, Record.required_eq_some hname rfl, ?_⟩
  refine Option.bind_eq_some_iff.2 ⟨_, Record.withDefault_eq_some hversion rfl, ?_⟩
  refine Option.bind_eq_some_iff.2 ⟨_, Record.optional_eq_some hecosystem fun _ _ => rfl, ?_⟩
  exact Option.bind_eq_some_iff.2
    ⟨_, Record.listDefault_eq_some hvulnerabilities fun v _ => v.ofJson?_toJson, rfl⟩

theorem writable_toJson (levels : Nat) (c : Component) : c.toJson.Writable (levels + 4) := by
  refine .object ?_
  simp only [List.forall_mem_append, List.forall_mem_cons]
  exact ⟨⟨⟨.string _, .string _, by simp⟩, Json.writable_optionalField fun _ _ => .string _⟩,
    Json.writable_listField fun v _ => v.writable_toJson levels⟩

end Component

/-! ### Locations -/

namespace Location

/-- Line and column are words. -/
def InRange (l : Location) : Prop :=
  l.line < limit ∧ l.column < limit

theorem ofJson?_toJson {l : Location} (h : l.InRange) : ofJson? l.toJson = some l := by
  obtain ⟨r, hr, hget⟩ :
      ∃ r, l.toJson.record? ["file", "line", "column", "snippet"] = some r ∧ _ :=
    Json.exists_record?_object (Json.fieldsOf_names _) (by simp)
  have hfile : r.get? "file" = some l.file.toJson := by simp [hget]
  have hline : r.get? "line" = some (.nat l.line) := by simp [hget]
  have hcolumn : r.get? "column" = some (.nat l.column) := by simp [hget]
  have hsnippet : r.get? "snippet" = some (.string l.snippet) := by simp [hget]
  rw [ofJson?]
  refine Option.bind_eq_some_iff.2 ⟨r, hr, ?_⟩
  refine Option.bind_eq_some_iff.2 ⟨_, Record.required_eq_some hfile rfl, ?_⟩
  refine Option.bind_eq_some_iff.2 ⟨_, Record.required_eq_some hline (if_pos h.1), ?_⟩
  refine Option.bind_eq_some_iff.2 ⟨_, Record.required_eq_some hcolumn (if_pos h.2), ?_⟩
  exact Option.bind_eq_some_iff.2 ⟨_, Record.required_eq_some hsnippet rfl, rfl⟩

theorem writable_toJson {l : Location} (h : l.InRange) (levels : Nat) :
    l.toJson.Writable (levels + 1) := by
  have hlimit : limit < 2 ^ 64 := by decide
  refine .object ?_
  simp only [List.forall_mem_cons]
  exact ⟨.string _, .nat (h.1.trans hlimit), .nat (h.2.trans hlimit), .string _, by simp⟩

end Location

/-! ### Verdicts -/

theorem WarningCode.choice?_label (c : WarningCode) :
    Value.choice? ofLabel? (.string c.label) = some c := by
  cases c <;> rfl

theorem WarningSeverity.choice?_label (s : WarningSeverity) :
    Value.choice? ofLabel? (.string s.label) = some s := by
  cases s <;> rfl

theorem ImportKind.ofJson?_toJson (k : ImportKind) : ofJson? k.toJson = some k := by
  cases k <;> rfl

theorem Status.choice?_label (s : Status) : Value.choice? ofLabel? (.string s.label) = some s := by
  cases s <;> rfl

theorem Confidence.choice?_label (c : Confidence) :
    Value.choice? ofLabel? (.string c.label) = some c := by
  cases c <;> rfl

namespace Warning

theorem ofJson?_toJson {w : Warning} (h : ∀ l ∈ w.location, l.InRange) :
    ofJson? w.toJson = some w := by
  obtain ⟨r, hr, hget⟩ :
      ∃ r, w.toJson.record? ["code", "message", "location", "severity"] = some r ∧ _ :=
    Json.exists_record?_object
      (((Json.fieldsOf_names
          [("code", .string w.code.label), ("message", .string w.message)]).append
        (Json.fieldsOf_optionalField "location" Location.toJson w.location)).append
        (Json.fieldsOf_names [("severity", .string w.severity.label)])) (by simp)
  have hcode : r.get? "code" = some (.string w.code.label) := by simp [hget]
  have hmessage : r.get? "message" = some (.string w.message) := by simp [hget]
  have hlocation : r.get? "location" = w.location.map Location.toJson := by simp [hget]
  have hseverity : r.get? "severity" = some (.string w.severity.label) := by simp [hget]
  have hread : ∀ l ∈ w.location, l.toJson.option? Location.ofJson? = some (some l) := by
    intro l hl
    show (Location.ofJson? l.toJson).map some = _
    rw [Location.ofJson?_toJson (h l hl)]
    rfl
  rw [ofJson?]
  refine Option.bind_eq_some_iff.2 ⟨r, hr, ?_⟩
  refine Option.bind_eq_some_iff.2 ⟨_, Record.required_eq_some hcode w.code.choice?_label, ?_⟩
  refine Option.bind_eq_some_iff.2 ⟨_, Record.required_eq_some hmessage rfl, ?_⟩
  refine Option.bind_eq_some_iff.2 ⟨_, Record.optional_eq_some hlocation hread, ?_⟩
  exact Option.bind_eq_some_iff.2
    ⟨_, Record.required_eq_some hseverity w.severity.choice?_label, rfl⟩

theorem writable_toJson {w : Warning} (h : ∀ l ∈ w.location, l.InRange) (levels : Nat) :
    w.toJson.Writable (levels + 2) := by
  refine .object ?_
  simp only [List.forall_mem_append, List.forall_mem_cons]
  exact ⟨⟨⟨.string _, .string _, by simp⟩,
    Json.writable_optionalField fun l hl => Location.writable_toJson (h l hl) levels⟩,
    .string _, by simp⟩

end Warning

namespace Usage

theorem ofJson?_toJson {u : Usage} (h : ∀ l ∈ u.locations, l.InRange) :
    ofJson? u.toJson = some u := by
  obtain ⟨r, hr, hget⟩ : ∃ r, u.toJson.record? ["importStyles", "usedMembers", "referencedMembers",
      "vulnerableFunctionsCalled", "locations"] = some r ∧ _ :=
    Json.exists_record?_object (Json.fieldsOf_names _) (by simp)
  have hstyles : r.get? "importStyles" = some (.array (u.importStyles.map ImportKind.toJson)) := by
    simp [hget]
  have hused : r.get? "usedMembers" = some (.strings u.usedMembers) := by simp [hget]
  have hreferenced : r.get? "referencedMembers" = some (.strings u.referencedMembers) := by
    simp [hget]
  have hvulnerable : r.get? "vulnerableFunctionsCalled"
      = some (.strings u.vulnerableFunctionsCalled) := by simp [hget]
  have hlocations : r.get? "locations" = some (.array (u.locations.map Location.toJson)) := by
    simp [hget]
  rw [ofJson?]
  refine Option.bind_eq_some_iff.2 ⟨r, hr, ?_⟩
  refine Option.bind_eq_some_iff.2
    ⟨_, Record.required_eq_some hstyles (Json.list?_map fun k _ => k.ofJson?_toJson), ?_⟩
  refine Option.bind_eq_some_iff.2 ⟨_, Record.required_eq_some hused (Json.list?_strings _), ?_⟩
  refine Option.bind_eq_some_iff.2
    ⟨_, Record.required_eq_some hreferenced (Json.list?_strings _), ?_⟩
  refine Option.bind_eq_some_iff.2
    ⟨_, Record.required_eq_some hvulnerable (Json.list?_strings _), ?_⟩
  exact Option.bind_eq_some_iff.2
    ⟨_, Record.required_eq_some hlocations
      (Json.list?_map fun l hl => Location.ofJson?_toJson (h l hl)), rfl⟩

theorem writable_toJson {u : Usage} (h : ∀ l ∈ u.locations, l.InRange) (levels : Nat) :
    u.toJson.Writable (levels + 3) := by
  refine .object ?_
  simp only [List.forall_mem_cons]
  exact ⟨Json.writable_array_map fun _ _ => .string _, Json.writable_strings _ _,
    Json.writable_strings _ _, Json.writable_strings _ _,
    Json.writable_array_map fun l hl => Location.writable_toJson (h l hl) levels, by simp⟩

end Usage

namespace ComponentResult

/-- The lines and columns of a verdict are words. -/
def InRange (r : ComponentResult) : Prop :=
  (∀ l ∈ r.usage.locations, l.InRange) ∧ ∀ w ∈ r.warnings, ∀ l ∈ w.location, l.InRange

theorem ofJson?_toJson {result : ComponentResult} (h : result.InRange) :
    ofJson? result.toJson = some result := by
  obtain ⟨r, hr, hget⟩ : ∃ r, result.toJson.record?
      ["component", "status", "confidence", "usage", "warnings", "notes"] = some r ∧ _ :=
    Json.exists_record?_object (Json.fieldsOf_names _) (by simp)
  have hcomponent : r.get? "component" = some result.component.toJson := by simp [hget]
  have hstatus : r.get? "status" = some (.string result.status.label) := by simp [hget]
  have hconfidence : r.get? "confidence" = some (.string result.confidence.label) := by
    simp [hget]
  have husage : r.get? "usage" = some result.usage.toJson := by simp [hget]
  have hwarnings : r.get? "warnings" = some (.array (result.warnings.map Warning.toJson)) := by
    simp [hget]
  have hnotes : r.get? "notes" = some (.strings result.notes) := by simp [hget]
  rw [ofJson?]
  refine Option.bind_eq_some_iff.2 ⟨r, hr, ?_⟩
  refine Option.bind_eq_some_iff.2
    ⟨_, Record.required_eq_some hcomponent result.component.ofJson?_toJson, ?_⟩
  refine Option.bind_eq_some_iff.2
    ⟨_, Record.required_eq_some hstatus result.status.choice?_label, ?_⟩
  refine Option.bind_eq_some_iff.2
    ⟨_, Record.required_eq_some hconfidence result.confidence.choice?_label, ?_⟩
  refine Option.bind_eq_some_iff.2
    ⟨_, Record.required_eq_some husage (Usage.ofJson?_toJson h.1), ?_⟩
  refine Option.bind_eq_some_iff.2
    ⟨_, Record.required_eq_some hwarnings
      (Json.list?_map fun w hw => Warning.ofJson?_toJson (h.2 w hw)), ?_⟩
  exact Option.bind_eq_some_iff.2 ⟨_, Record.required_eq_some hnotes (Json.list?_strings _), rfl⟩

theorem writable_toJson {result : ComponentResult} (h : result.InRange) (levels : Nat) :
    result.toJson.Writable (levels + 5) := by
  refine .object ?_
  simp only [List.forall_mem_cons]
  exact ⟨result.component.writable_toJson levels, .string _, .string _,
    Usage.writable_toJson h.1 (levels + 1),
    Json.writable_array_map fun w hw => Warning.writable_toJson (h.2 w hw) (levels + 1),
    Json.writable_strings _ _, by simp⟩

end ComponentResult

/-! ### Reports -/

namespace Report

/-- The text of a report says the tokens of its verdicts. -/
theorem spells_json (indented : Bool) {results : List ComponentResult} {levels : Nat}
    (h : (resultsJson results).Writable levels) :
    Json.Spells (json indented results).toList (resultsJson results).tokens := by
  have hend : Json.Spells "\n".toList [] := .blank rfl .done
  rw [json, String.toList_append, ← List.append_nil (resultsJson results).tokens]
  cases indented with
  | true => exact h.spells_pretty.append hend
  | false => exact (resultsJson results).spells_compact.append hend

/-- **A JSON report is read as the verdicts that it reports**, with indented lines and
without blanks: every text, every field that is there or left out, and every list. -/
theorem read_json_eq_results (indented : Bool) {results : List ComponentResult}
    (h : ∀ r ∈ results, r.InRange) :
    (Value.read? (json indented results)).bind (Value.list? ComponentResult.ofJson?)
      = some results := by
  -- the list and a verdict nest six levels, and 121 more would be allowed
  have hwritable : (resultsJson results).Writable Json.maxDepth :=
    Json.writable_array_map fun r hr => ComponentResult.writable_toJson (h r hr) 121
  rw [hwritable.read?_of_spells (spells_json indented hwritable)]
  exact Json.list?_map fun r hr => ComponentResult.ofJson?_toJson (h r hr)

/-- A verdict with a quote, control characters, a character beyond the first plane, and the
last line and column that there are. -/
def escapedVerdict : ComponentResult where
  component :=
    { name := "a\"b\\c", ecosystem := some "\x01\x0c\x7f", vulnerabilities :=
        [{ id := "😀" }, { id := "", severity := some "null", affectedFunctions := ["\n\t"] }] }
  status := .notReachable
  confidence := .low
  usage := { importStyles := [.whole, .reexportAll], usedMembers := ["/"],
             locations := [⟨⟨"a/b.ts"⟩, 4294967295, 4294967295, "x(\"y\")"⟩] }
  warnings := [⟨.skippedFiles, "", none, .info⟩,
    ⟨.barrelFile, "\r", some ⟨⟨""⟩, 0, 1, ""⟩, .warning⟩]
  notes := ["", "\x08"]

theorem read_json_eq_results_escaped :
    (∀ r ∈ [escapedVerdict, escapedVerdict], r.InRange) ∧
      (Value.read? (json true [escapedVerdict, escapedVerdict])).bind
        (Value.list? ComponentResult.ofJson?) = some [escapedVerdict, escapedVerdict] ∧
      (Value.read? (json false [escapedVerdict, escapedVerdict])).bind
        (Value.list? ComponentResult.ofJson?) = some [escapedVerdict, escapedVerdict] := by
  have h : ∀ r ∈ [escapedVerdict, escapedVerdict], r.InRange := by
    simp [escapedVerdict, ComponentResult.InRange, Location.InRange, Location.limit]
  exact ⟨h, read_json_eq_results true h, read_json_eq_results false h⟩

end Report
end DependencyUse
