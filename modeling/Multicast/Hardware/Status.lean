/-! Status codes of the hardware and the errors made of them. -/
namespace Multicast

inductive Status where
  | success
  | failure
  | notSupported
  | noMemory
  | insufficientResources
  | invalidParameter
  | itemAlreadyExists
  | itemNotFound
  | tableFull
  | objectInUse
  | invalidObjectType
  | invalidObjectId
  deriving DecidableEq, Repr

namespace Status

def text : Status → String
  | .success => "SAI_STATUS_SUCCESS"
  | .failure => "SAI_STATUS_FAILURE"
  | .notSupported => "SAI_STATUS_NOT_SUPPORTED"
  | .noMemory => "SAI_STATUS_NO_MEMORY"
  | .insufficientResources => "SAI_STATUS_INSUFFICIENT_RESOURCES"
  | .invalidParameter => "SAI_STATUS_INVALID_PARAMETER"
  | .itemAlreadyExists => "SAI_STATUS_ITEM_ALREADY_EXISTS"
  | .itemNotFound => "SAI_STATUS_ITEM_NOT_FOUND"
  | .tableFull => "SAI_STATUS_TABLE_FULL"
  | .objectInUse => "SAI_STATUS_OBJECT_IN_USE"
  | .invalidObjectType => "SAI_STATUS_INVALID_OBJECT_TYPE"
  | .invalidObjectId => "SAI_STATUS_INVALID_OBJECT_ID"

/-- The number of the status on the wire. -/
def code : Status → Int
  | .success => 0
  | .failure => -1
  | .notSupported => -2
  | .noMemory => -3
  | .insufficientResources => -4
  | .invalidParameter => -5
  | .itemAlreadyExists => -6
  | .itemNotFound => -7
  | .tableFull => -13
  | .objectInUse => -17
  | .invalidObjectType => -18
  | .invalidObjectId => -19

end Status

inductive HardwareError where
  | status (status : Status)
  | invalidParameter (message : String)
  | notFound (item : String)
  | alreadyExists (item : String)
  | objectInUse (object : String)
  | tableFull (table : String)
  | notSupported (feature : String)
  deriving DecidableEq, Repr

namespace HardwareError

/-- A bare status names no item, so the errors that hold one say it is unknown. -/
def ofStatus : Status → HardwareError
  | .invalidParameter => .invalidParameter ("SAI returned " ++ Status.invalidParameter.text)
  | .itemNotFound => .notFound "unknown"
  | .itemAlreadyExists => .alreadyExists "unknown"
  | .objectInUse => .objectInUse "unknown"
  | .tableFull => .tableFull "unknown"
  | .notSupported => .notSupported "unknown"
  | s => .status s

def toStatus : HardwareError → Status
  | .status s => s
  | .invalidParameter _ => .invalidParameter
  | .notFound _ => .itemNotFound
  | .alreadyExists _ => .itemAlreadyExists
  | .objectInUse _ => .objectInUse
  | .tableFull _ => .tableFull
  | .notSupported _ => .notSupported

def message : HardwareError → String
  | .status s => "SAI operation failed: " ++ s.text
  | .invalidParameter message => "Invalid parameter: " ++ message
  | .notFound item => "Item not found: " ++ item
  | .alreadyExists item => "Item already exists: " ++ item
  | .objectInUse object => "Object in use: " ++ object
  | .tableFull table => "Table full: " ++ table
  | .notSupported feature => "Feature not supported: " ++ feature

@[simp] theorem toStatus_ofStatus (s : Status) : (ofStatus s).toStatus = s := by
  cases s <;> rfl

end HardwareError

end Multicast
