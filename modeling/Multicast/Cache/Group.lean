import Multicast.Cache.Member
import Multicast.Hardware.Call

/-! Replication groups and the table of a device's groups. -/
namespace Multicast

structure Group where
  id : Handle
  owner : Owner
  /-- Null once a delete that has yet to finish has removed it. -/
  rpfGroup : Handle
  /-- Null until the first egress member needs it. -/
  ipmcGroup : Handle
  members : MemberSet
  ipv4Entries : KeySet RouteKey
  ipv6Entries : KeySet RouteKey
  deriving DecidableEq

namespace Group

def new (id : Handle) (owner : Owner) (rpfGroup ipmcGroup : Handle) : Group :=
  ⟨id, owner, rpfGroup, ipmcGroup, .empty, ∅, ∅⟩

def isComplete (g : Group) : Bool := !g.rpfGroup.isNull

/-- Whether a route references the group. -/
def isInUse (g : Group) : Bool := !g.ipv4Entries.isEmpty || !g.ipv6Entries.isEmpty

def entryCount (g : Group) : Nat := g.ipv4Entries.size + g.ipv6Entries.size

def entries (g : Group) : Family → KeySet RouteKey
  | .ipv4 => g.ipv4Entries
  | .ipv6 => g.ipv6Entries

def setEntries (g : Group) (s : KeySet RouteKey) : Family → Group
  | .ipv4 => { g with ipv4Entries := s }
  | .ipv6 => { g with ipv6Entries := s }

@[simp] theorem entries_setEntries (g : Group) (s : KeySet RouteKey) (f f' : Family) :
    (g.setEntries s f).entries f' = if f' = f then s else g.entries f' := by
  cases f <;> cases f' <;> rfl

/-- Keys of both families, IPv4 first. -/
def routeKeys (g : Group) : List RouteKey := g.ipv4Entries.keys ++ g.ipv6Entries.keys

/-- Files a key under its family. -/
def addKey (g : Group) (key : RouteKey) : Group :=
  g.setEntries (KeySet.insert (g.entries key.family) key) key.family

def dropKey (g : Group) (key : RouteKey) : Group :=
  g.setEntries ((g.entries key.family).erase key) key.family

def toJson (g : Group) : Json :=
  .obj [("id", g.id.toJson), ("owner", g.owner.toJson), ("rpf_group", g.rpfGroup.toJson),
    ("ipmc_group", g.ipmcGroup.toJson),
    ("rpf_members", .arr ((g.members.list .rpf).map Member.toJson)),
    ("ipmc_members", .arr ((g.members.list .ipmc).map Member.toJson)),
    ("ipv4_routes", .arr (g.ipv4Entries.keys.map RouteKey.toJson)),
    ("ipv6_routes", .arr (g.ipv6Entries.keys.map RouteKey.toJson))]

end Group

/-- Groups by their handles. -/
abbrev GroupTable := Table Handle Group

namespace GroupTable

def checkCreate (t : GroupTable) (id : Handle) : Except CacheError Unit :=
  if t.contains id then .error (.groupExists id) else .ok ()

def create (t : GroupTable) (id : Handle) (owner : Owner) (rpfGroup ipmcGroup : Handle) :
    Except CacheError GroupTable :=
  match t.add id (.new id owner rpfGroup ipmcGroup) with
  | .ok t => .ok t
  | .error _ => .error (.groupExists id)

def get (t : GroupTable) (id : Handle) : Except CacheError Group :=
  match t.find? id with
  | some g => .ok g
  | none => .error (.groupNotFound id)

/-- Changes a group that is there. -/
def update (t : GroupTable) (id : Handle) (f : Group → Except CacheError Group) :
    Except CacheError GroupTable := do
  let g ← t.get id
  let g ← f g
  .ok (t.modify id fun _ => g)

def isInUse (t : GroupTable) (id : Handle) : Except CacheError Bool := do
  let g ← t.get id
  .ok g.isInUse

/-- A group goes only when no route references it. -/
def delete (t : GroupTable) (id : Handle) : Except CacheError (Group × GroupTable) := do
  let g ← t.get id
  if g.isInUse then .error (.groupInUse id g.entryCount)
  else
    match t.remove id with
    | .ok (g, t) => .ok (g, t)
    | .error _ => .error (.groupNotFound id)

/-- In ascending order. -/
def ids (t : GroupTable) : List Handle := t.keys

end GroupTable

end Multicast
