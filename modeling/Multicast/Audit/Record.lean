import Multicast.Audit.Timestamp
import Multicast.Json.Document
import Multicast.Json.Printer
import Multicast.Json.Shape
import Multicast.Log

/-! Audit records: what was done to what, and how it ended. -/
namespace Multicast.Audit

inductive Category where
  | resourceCreate
  | resourceModify
  | resourceDelete
  /-- A device comes or goes. -/
  | systemLifecycle
  /-- Hardware that was partly programmed is cleaned up. -/
  | rollback
  deriving DecidableEq, Repr

namespace Category

def text : Category → String
  | .resourceCreate => "RESOURCE_CREATE"
  | .resourceModify => "RESOURCE_MODIFY"
  | .resourceDelete => "RESOURCE_DELETE"
  | .systemLifecycle => "SYSTEM_LIFECYCLE"
  | .rollback => "ROLLBACK"

def toJson (c : Category) : Json := .str c.text

def ofJson? (v : Json) : Option Category :=
  match v.name? with
  | some "RESOURCE_CREATE" => some .resourceCreate
  | some "RESOURCE_MODIFY" => some .resourceModify
  | some "RESOURCE_DELETE" => some .resourceDelete
  | some "SYSTEM_LIFECYCLE" => some .systemLifecycle
  | some "ROLLBACK" => some .rollback
  | _ => none

end Category

inductive Outcome where
  | success
  | failure
  | inProgress
  /-- Refused because a precondition did not hold. -/
  | denied
  deriving DecidableEq, Repr

namespace Outcome

def text : Outcome → String
  | .success => "success"
  | .failure => "failure"
  | .inProgress => "in_progress"
  | .denied => "denied"

def toJson : Outcome → Json
  | .success => .str "success"
  | .failure => .str "failure"
  | .inProgress => .str "inprogress"
  | .denied => .str "denied"

def ofJson? (v : Json) : Option Outcome :=
  match v.name? with
  | some "success" => some .success
  | some "failure" => some .failure
  | some "inprogress" => some .inProgress
  | some "denied" => some .denied
  | _ => none

/-- Level at which a record of that outcome is logged. -/
def level : Outcome → Log.Level
  | .success => .info
  | .inProgress => .debug
  | .failure => .warn
  | .denied => .warn

end Outcome

structure Record where
  category : Category
  source : String
  action : String
  outcome : Outcome
  /-- The handle or key of what the record is about. -/
  objectId : Option String
  objectType : Option String
  details : Option Json
  error : Option String

namespace Record

/-- A record of something that has yet to end. -/
def new (category : Category) (source action : String) : Record :=
  ⟨category, source, action, .inProgress, none, none, none, none⟩

def withOutcome (r : Record) (o : Outcome) : Record := { r with outcome := o }

def withObjectId (r : Record) (id : String) : Record := { r with objectId := some id }

def withObjectType (r : Record) (type : String) : Record := { r with objectType := some type }

def withDetails (r : Record) (v : Json) : Record := { r with details := some v }

/-- An error makes a failure of a record, unless it was denied. -/
def withError (r : Record) (message : String) : Record :=
  { r with
    error := some message, outcome := if r.outcome = .denied then .denied else .failure }

def field {α : Type} (name : String) (f : α → Json) : Option α → List (String × Json)
  | none => []
  | some a => [(name, f a)]

/-- The fields after the time; what is absent is left out. -/
def fields (r : Record) : List (String × Json) :=
  [("category", r.category.toJson), ("source", .str r.source), ("action", .str r.action),
    ("outcome", r.outcome.toJson)] ++
  field "object_id" .str r.objectId ++ field "object_type" .str r.objectType ++
  field "details" id r.details ++ field "error" .str r.error

def toJson (timestamp : String) (r : Record) : Json :=
  .obj (("timestamp", .str timestamp) :: r.fields)

/-- The line under which a record is logged. -/
def message (r : Record) : String :=
  "AUDIT: " ++ r.category.text ++ " - " ++ r.action ++ " - " ++ r.outcome.text

def fieldNames : List String :=
  ["timestamp", "category", "source", "action", "outcome", "object_id", "object_type", "details",
    "error"]

/-- Details come with their fields sorted. -/
def ofJson? (v : Json) : Option (Timestamp × Record) :=
  match v.fields? fieldNames with
  | some [timestamp, category, source, action, outcome, objectId, objectType, details, error] => do
    let timestamp ← Json.required? Json.text? timestamp
    let timestamp ← Timestamp.ofText? timestamp
    let category ← Json.required? Category.ofJson? category
    let source ← Json.required? Json.text? source
    let action ← Json.required? Json.text? action
    let outcome ← Json.required? Outcome.ofJson? outcome
    let objectId ← Json.optional? Json.text? objectId
    let objectType ← Json.optional? Json.text? objectType
    let details ← Json.optional? (some ∘ Json.canonical) details
    let error ← Json.optional? Json.text? error
    some (timestamp, ⟨category, source, action, outcome, objectId, objectType, details, error⟩)
  | _ => none

/-- Reads the text of a record. -/
def ofText? (text : String) : Option (Timestamp × Record) :=
  (Json.Document.ofText? text).bind fun d => (d.record? fieldNames).bind ofJson?

end Record

end Multicast.Audit
