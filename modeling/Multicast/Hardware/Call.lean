import Multicast.Hardware.Entry
import Multicast.Hardware.Status

/-! Calls that program a device, each with its own type of reply. -/
namespace Multicast

/-- The application that owns a replication group. -/
inductive Owner where
  | ipmc
  | l2mc
  deriving DecidableEq, Repr

namespace Owner

def debug : Owner → String
  | .ipmc => "Ipmc"
  | .l2mc => "L2mc"

def toJson : Owner → Json
  | .ipmc => .str "ipmc"
  | .l2mc => .str "l2mc"

def ofJson? (v : Json) : Option Owner :=
  match v.name? with
  | some "ipmc" => some .ipmc
  | some "l2mc" => some .l2mc
  | _ => none

end Owner

inductive MemberAttr where
  | subGroup (h : Handle)
  | routerInterface (h : Handle)
  | bridgePorts (ports : List Handle)
  deriving DecidableEq, Repr

namespace MemberAttr

/-- The last sub-group of a list counts. -/
def subGroup? (attrs : List MemberAttr) : Option Handle :=
  attrs.foldl (fun found a => match a with | .subGroup h => some h | _ => found) none

/-- The last port list counts; there is one, possibly empty. -/
def ports (attrs : List MemberAttr) : List Handle :=
  attrs.foldl (fun found a => match a with | .bridgePorts l => l | _ => found) []

end MemberAttr

/-- Calls without their arguments. -/
inductive CallKind where
  | createGroup
  | removeGroup
  | createSubGroup (role : Role)
  | removeSubGroup (role : Role)
  | createMember (role : Role)
  | removeMember (role : Role)
  | setMember (role : Role)
  | createEntry
  | removeEntry
  | setEntry
  | readEntry
  deriving DecidableEq, Repr

namespace CallKind

def name : CallKind → String
  | .createGroup => "CreateReplGroup"
  | .removeGroup => "RemoveReplGroup"
  | .createSubGroup .ipmc => "CreateIpmcGroup"
  | .createSubGroup .rpf => "CreateRpfGroup"
  | .removeSubGroup .ipmc => "RemoveIpmcGroup"
  | .removeSubGroup .rpf => "RemoveRpfGroup"
  | .createMember .ipmc => "CreateIpmcGroupMember"
  | .createMember .rpf => "CreateRpfGroupMember"
  | .removeMember .ipmc => "RemoveIpmcGroupMember"
  | .removeMember .rpf => "RemoveRpfGroupMember"
  | .setMember .ipmc => "SetIpmcGroupMember"
  | .setMember .rpf => "SetRpfGroupMember"
  | .createEntry => "CreateIpmcEntry"
  | .removeEntry => "RemoveIpmcEntry"
  | .setEntry => "SetIpmcEntry"
  | .readEntry => "GetIpmcEntry"

/-- The name of the call in error messages. -/
def method : CallKind → String
  | .createGroup => "create_repl_group"
  | .removeGroup => "remove_repl_group"
  | .createSubGroup .ipmc => "create_ipmc_group"
  | .createSubGroup .rpf => "create_rpf_group"
  | .removeSubGroup .ipmc => "remove_ipmc_group"
  | .removeSubGroup .rpf => "remove_rpf_group"
  | .createMember .ipmc => "create_ipmc_group_member"
  | .createMember .rpf => "create_rpf_group_member"
  | .removeMember .ipmc => "remove_ipmc_group_member"
  | .removeMember .rpf => "remove_rpf_group_member"
  | .setMember .ipmc => "set_ipmc_group_member_attribute"
  | .setMember .rpf => "set_rpf_group_member_attribute"
  | .createEntry => "create_ipmc_entry"
  | .removeEntry => "remove_ipmc_entry"
  | .setEntry => "set_ipmc_entry_attribute"
  | .readEntry => "get_ipmc_entry_attribute"

end CallKind

/-- Attribute lists may be empty, repeat themselves or name objects of the wrong kind. -/
inductive Call where
  | createGroup (owners : List Owner)
  | removeGroup (group : Handle)
  | createSubGroup (role : Role) (groups : List Handle)
  | removeSubGroup (role : Role) (subGroup : Handle)
  | createMember (role : Role) (attrs : List MemberAttr)
  | removeMember (role : Role) (member : Handle)
  | setMember (role : Role) (member : Handle) (attr : MemberAttr)
  | createEntry (entry : Entry) (attrs : List EntryAttr)
  | removeEntry (entry : Entry)
  | setEntry (entry : Entry) (attr : EntryAttr)
  | readEntry (entry : Entry) (ids : List EntryAttr.Id)
  deriving DecidableEq, Repr

namespace Call

def kind : Call → CallKind
  | .createGroup _ => .createGroup
  | .removeGroup _ => .removeGroup
  | .createSubGroup role _ => .createSubGroup role
  | .removeSubGroup role _ => .removeSubGroup role
  | .createMember role _ => .createMember role
  | .removeMember role _ => .removeMember role
  | .setMember role _ _ => .setMember role
  | .createEntry .. => .createEntry
  | .removeEntry _ => .removeEntry
  | .setEntry .. => .setEntry
  | .readEntry .. => .readEntry

/-- A create of an object answers with its handle, a read with one attribute for each id. -/
abbrev Reply : Call → Type
  | .createGroup _ => Handle
  | .createSubGroup .. => Handle
  | .createMember .. => Handle
  | .readEntry .. => List EntryAttr
  | _ => Unit

end Call

end Multicast
