import Multicast.Hardware.Entry
import Multicast.Json.Document
import Multicast.Json.Shape

/-! Configuration of the orchestrator. -/
namespace Multicast

structure Config where
  /-- Groups that a device may have. -/
  maxGroups : Nat := 4096
  /-- What happens to packets of routes that are copied to the CPU. -/
  copyAction : PacketAction := .trapToCpu
  audit : Bool := true
  deriving DecidableEq, Repr

namespace Config

def fieldNames : List String := ["max_groups_per_device", "copy_to_cpu_action", "audit_enabled"]

def toJson (c : Config) : Json :=
  .obj [("max_groups_per_device", .nat c.maxGroups), ("copy_to_cpu_action", c.copyAction.toJson),
    ("audit_enabled", .bool c.audit)]

/-- Absent fields take their defaults. -/
def ofJson? (v : Json) : Option Config :=
  match v.leadingFields? fieldNames with
  | some [maxGroups, copyAction, audit] => do
    let c : Config := {}
    let maxGroups ← Json.withDefault? (Json.below? UInt64.size) c.maxGroups maxGroups
    let copyAction ← Json.withDefault? PacketAction.ofJson? c.copyAction copyAction
    let audit ← Json.withDefault? Json.bool? c.audit audit
    some ⟨maxGroups, copyAction, audit⟩
  | _ => none

inductive Error where
  /-- The file cannot be read. -/
  | unreadable (path reason : String)
  | malformed (path : String)
  | noGroups (path : String)
  deriving DecidableEq, Repr

def Error.message : Error → String
  | .unreadable path reason => "Cannot read config " ++ path ++ ": " ++ reason
  | .malformed path => "Invalid config " ++ path ++ ": <parse error>"
  | .noGroups path => "Invalid config " ++ path ++ ": max_groups_per_device must be at least 1"

/-- The reason that there is no file to read. -/
def noSuchFile : String := "No such file or directory (os error 2)"

/-- Reads the contents of the file at `path`, if there are any. -/
def load (path : String) (contents : Option String) : Except Error Config :=
  match contents with
  | none => .error (.unreadable path noSuchFile)
  | some text =>
    match ((Json.Document.ofText? text).bind (·.record? fieldNames)).bind ofJson? with
    | none => .error (.malformed path)
    | some c => if c.maxGroups = 0 then .error (.noGroups path) else .ok c

end Config

end Multicast
