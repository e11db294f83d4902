import Multicast.Hardware
import Multicast.Table

/-! A simulated switch for any number of devices. It keeps the references between its objects sound,
counts the handles it gives out, and fails calls on demand. -/
namespace Multicast

structure Switch.Object where
  device : DeviceId
  kind : ObjectKind
  parent : Option Handle
  bridgePorts : List Handle
  deriving DecidableEq, Repr

/-- A call of `kind` fails with `status` once `skip` calls of its kind have passed. -/
structure Switch.Fault where
  kind : CallKind
  skip : Nat
  status : Status
  deriving DecidableEq, Repr

structure Switch where
  /-- Handles given out so far. -/
  counter : Nat
  objects : Table Handle Switch.Object
  entries : Table (DeviceId × Entry) (List EntryAttr)
  mappings : Table (DeviceId × Lookup) Handle
  faults : List Switch.Fault
  /-- Calls so far, the latest first. -/
  journal : List CallKind

namespace Switch

def empty : Switch := ⟨0, ∅, ∅, ∅, [], []⟩

/-! Objects -/

def insert (s : Switch) (o : Object) : Handle × Switch :=
  let h := Handle.make o.kind (s.counter + 1)
  (h, { s with counter := s.counter + 1, objects := s.objects.insert h o })

def expect (s : Switch) (d : DeviceId) (h : Handle) (kind : ObjectKind) :
    Except HardwareError Unit :=
  match s.objects.find? h with
  | some o =>
    if o.device = d ∧ o.kind = kind then .ok ()
    else .error (.invalidParameter (h.text ++ " is not a " ++ kind.name ++ " on device " ++ d.text))
  | none => .error (.notFound (kind.name ++ " " ++ h.text))

def hasChild (s : Switch) (h : Handle) : Bool := s.objects.values.any (·.parent == some h)

def isReferenced (s : Switch) (h : Handle) : Bool :=
  s.entries.values.any fun attrs => attrs.any (·.target? == some h)

/-- Only an object that nothing depends on can go. -/
def remove (s : Switch) (d : DeviceId) (h : Handle) (kind : ObjectKind) :
    Except HardwareError Switch := do
  s.expect d h kind
  if s.hasChild h then .error (.objectInUse (kind.name ++ " " ++ h.text))
  else if s.isReferenced h then
    .error (.objectInUse (kind.name ++ " " ++ h.text ++ " referenced by route"))
  else .ok { s with objects := s.objects.erase h }

def createSubGroup (s : Switch) (d : DeviceId) (role : Role) (groups : List Handle) :
    Except HardwareError (Handle × Switch) :=
  match groups with
  | [] => .error (.invalidParameter "missing replication group attribute")
  | group :: _ => do
    s.expect d group .group
    .ok (s.insert ⟨d, .subGroup role, some group, []⟩)

def createMember (s : Switch) (d : DeviceId) (role : Role) (attrs : List MemberAttr) :
    Except HardwareError (Handle × Switch) :=
  match MemberAttr.subGroup? attrs with
  | none => .error (.invalidParameter "missing group attribute")
  | some subGroup => do
    s.expect d subGroup (.subGroup role)
    .ok (s.insert ⟨d, .member role, some subGroup, MemberAttr.ports attrs⟩)

def setMember (s : Switch) (d : DeviceId) (role : Role) (h : Handle) (attr : MemberAttr) :
    Except HardwareError Switch := do
  s.expect d h (.member role)
  match attr with
  | .bridgePorts ports =>
    .ok { s with objects := s.objects.modify h fun o => { o with bridgePorts := ports } }
  | _ => .error (.invalidParameter "only the bridge port list is settable")

/-! Route entries -/

/-- A sub-group that an attribute names must be there, unless it is null. -/
def checkAttr (s : Switch) (d : DeviceId) : EntryAttr → Except HardwareError Unit
  | .outputGroup h => if h.isNull then .ok () else s.expect d h (.subGroup .ipmc)
  | .rpfGroup h => if h.isNull then .ok () else s.expect d h (.subGroup .rpf)
  | _ => .ok ()

def checkAttrs (s : Switch) (d : DeviceId) : List EntryAttr → Except HardwareError Unit
  | [] => .ok ()
  | a :: rest => do
    s.checkAttr d a
    s.checkAttrs d rest

def entryAttrs? (s : Switch) (d : DeviceId) (e : Entry) : Option (List EntryAttr) :=
  s.entries.find? (d, e)

def createEntry (s : Switch) (d : DeviceId) (e : Entry) (attrs : List EntryAttr) :
    Except HardwareError Switch :=
  if e.type.hasSource ≠ e.source.isSome then
    .error (.invalidParameter ("source does not match type for " ++ e.text))
  else if s.entries.contains (d, e) then .error (.alreadyExists e.text)
  else do
    s.checkAttrs d attrs
    .ok { s with entries := s.entries.insert (d, e) attrs }

def removeEntry (s : Switch) (d : DeviceId) (e : Entry) : Except HardwareError Switch :=
  if s.entries.contains (d, e) then .ok { s with entries := s.entries.erase (d, e) }
  else .error (.notFound e.text)

/-- Overwrites an attribute; an entry that is not there stays away. -/
def forceAttr (s : Switch) (d : DeviceId) (e : Entry) (a : EntryAttr) : Switch :=
  { s with entries := s.entries.modify (d, e) (EntryAttr.write · a) }

def setEntry (s : Switch) (d : DeviceId) (e : Entry) (a : EntryAttr) :
    Except HardwareError Switch := do
  s.checkAttr d a
  if s.entries.contains (d, e) then .ok (s.forceAttr d e a) else .error (.notFound e.text)

def readEntry (s : Switch) (d : DeviceId) (e : Entry) (ids : List EntryAttr.Id) :
    Except HardwareError (List EntryAttr) :=
  match s.entryAttrs? d e with
  | some attrs => .ok (ids.map (EntryAttr.read attrs))
  | none => .error (.notFound e.text)

/-! Calls -/

/-- The effect of a call. One that fails has none. -/
def perform (s : Switch) (d : DeviceId) : (c : Call) → Except HardwareError (c.Reply × Switch)
  | .createGroup _ => .ok (s.insert ⟨d, .group, none, []⟩)
  | .removeGroup h => (s.remove d h .group).map ((), ·)
  | .createSubGroup role groups => s.createSubGroup d role groups
  | .removeSubGroup role h => (s.remove d h (.subGroup role)).map ((), ·)
  | .createMember role attrs => s.createMember d role attrs
  | .removeMember role h => (s.remove d h (.member role)).map ((), ·)
  | .setMember role h attr => (s.setMember d role h attr).map ((), ·)
  | .createEntry e attrs => (s.createEntry d e attrs).map ((), ·)
  | .removeEntry e => (s.removeEntry d e).map ((), ·)
  | .setEntry e a => (s.setEntry d e a).map ((), ·)
  | .readEntry e ids => (s.readEntry d e ids).map (·, s)

/-- Passes a call by the first fault of its kind, which fires or comes one call nearer. -/
def passFault (kind : CallKind) : List Fault → Option Status × List Fault
  | [] => (none, [])
  | f :: rest =>
    if f.kind = kind then
      if f.skip = 0 then (some f.status, rest) else (none, { f with skip := f.skip - 1 } :: rest)
    else
      let (fired, rest) := passFault kind rest
      (fired, f :: rest)

def notes : (c : Call) → c.Reply → List Log.Line
  | .createGroup owners, h =>
    [⟨.debug, "SimSai: created " ++ (owners.headD .ipmc).debug ++ " repl group " ++ h.text⟩]
  | _, _ => []

/-- Every call is noted; an injected failure keeps it from having an effect. -/
def call (d : DeviceId) (c : Call) (s : Switch) : Answer c.Reply × Switch :=
  let (fired, faults) := passFault c.kind s.faults
  let s := { s with journal := c.kind :: s.journal, faults := faults }
  match fired with
  | some status =>
    (⟨.error (.ofStatus status),
      [⟨.debug, "SimSai: injected " ++ status.text ++ " on " ++ c.kind.name⟩]⟩, s)
  | none =>
    match s.perform d c with
    | .ok (reply, s) => (⟨.ok reply, notes c reply⟩, s)
    | .error e => (⟨.error e, []⟩, s)

/-- The latest handle registered under a name. -/
def lookup (d : DeviceId) (l : Lookup) (s : Switch) : Option Handle × Switch :=
  (s.mappings.find? (d, l), s)

def hardware : Hardware Switch := ⟨call, lookup⟩

/-! The bench around the switch -/

/-- Gives a port, a router interface or a VRF a new handle. -/
def register (s : Switch) (d : DeviceId) (l : Lookup) : Handle × Switch :=
  let h := Handle.make l.kind (s.counter + 1)
  (h, { s with counter := s.counter + 1, mappings := s.mappings.insert (d, l) h })

/-- Fails the `nth` coming call of a kind; zero counts as one. -/
def failNth (s : Switch) (kind : CallKind) (nth : Nat) (status : Status) : Switch :=
  { s with faults := s.faults ++ [⟨kind, nth - 1, status⟩] }

def failNext (s : Switch) (kind : CallKind) (status : Status) : Switch := s.failNth kind 1 status

def clearFaults (s : Switch) : Switch := { s with faults := [] }

/-- Calls so far, in order. -/
def calls (s : Switch) : List CallKind := s.journal.reverse

def objectCount (s : Switch) (kind : ObjectKind) : Nat :=
  (s.objects.values.filter (·.kind = kind)).length

def deviceObjectCount (s : Switch) (d : DeviceId) : Nat :=
  (s.objects.values.filter (·.device = d)).length

def contains (s : Switch) (h : Handle) : Bool := s.objects.contains h

def entryCount (s : Switch) : Nat := s.entries.size

def bridgePorts? (s : Switch) (h : Handle) : Option (List Handle) :=
  (s.objects.find? h).map (·.bridgePorts)

end Switch

end Multicast
