import Multicast.Hardware.Call
import Multicast.Log
import Multicast.Port

/-! Hardware as the orchestrator sees it: something with a state that answers calls and look-ups of
handles. Nothing is assumed of its answers. -/
namespace Multicast

/-- What a resolver is asked for. -/
inductive Lookup where
  | port (port : Port)
  | rif (rif : RifId)
  | vrf (vrf : VrfId)
  deriving DecidableEq, Repr

namespace Lookup

/-- The error of a look-up that finds nothing. -/
def missing : Lookup → HardwareError
  | .port p => .notFound ("bridge port for " ++ p.text)
  | .rif r => .notFound ("router interface " ++ r.text)
  | .vrf v => .notFound ("virtual router for vrf " ++ v.text)

/-- Kind of the objects looked for. -/
def kind : Lookup → ObjectKind
  | .port _ => .bridgePort
  | .rif _ => .routerInterface
  | .vrf _ => .virtualRouter

def code : Lookup → List Nat
  | .port p => 0 :: p.code
  | .rif r => [1, r.number.toNat]
  | .vrf v => [2, v.number.toNat]

theorem code_injective : ∀ {l m : Lookup}, code l = code m → l = m
  | .port _, .port _, h => congrArg port (Port.code_injective (List.cons.inj h).2)
  | .rif ⟨_⟩, .rif ⟨_⟩, h => by simpa [code, UInt32.toNat_inj] using h
  | .vrf ⟨_⟩, .vrf ⟨_⟩, h => by simpa [code, UInt32.toNat_inj] using h
  | .port _, .rif _, h => nomatch (List.cons.inj h).1
  | .port _, .vrf _, h => nomatch (List.cons.inj h).1
  | .rif _, .port _, h => nomatch (List.cons.inj h).1
  | .rif _, .vrf _, h => nomatch (List.cons.inj h).1
  | .vrf _, .port _, h => nomatch (List.cons.inj h).1
  | .vrf _, .rif _, h => nomatch (List.cons.inj h).1

instance : SortKey Lookup := ⟨code, code_injective⟩

end Lookup

/-- Keys that hold for one device. -/
instance {κ : Type} [SortKey κ] : SortKey (DeviceId × κ) where
  code k := k.1.number.toNat :: SortKey.code k.2
  code_injective := by
    rintro ⟨⟨d⟩, k⟩ ⟨⟨d'⟩, k'⟩ h
    have ⟨hdevice, hkey⟩ := List.cons.inj h
    have hdevice : d = d' := UInt32.toNat_inj.mp hdevice
    have hkey : k = k' := SortKey.code_injective hkey
    rw [hdevice, hkey]

/-- A result, and the log lines written on the way to it. -/
structure Answer (ρ : Type) where
  result : Except HardwareError ρ
  notes : List Log.Line := []

/-- A gateway and a resolver that share a state `σ`: whatever answers calls and look-ups. -/
structure Hardware (σ : Type) where
  call : DeviceId → (c : Call) → σ → Answer c.Reply × σ
  lookup : DeviceId → Lookup → σ → Option Handle × σ

/-- Asks for each port in turn; the first that is missing ends the search. -/
def Hardware.lookupPorts {σ : Type} (hw : Hardware σ) (d : DeviceId) :
    List Port → σ → Except Lookup (List Handle) × σ
  | [], s => (.ok [], s)
  | p :: rest, s =>
    match hw.lookup d (.port p) s with
    | (none, s) => (.error (.port p), s)
    | (some h, s) =>
      match hw.lookupPorts d rest s with
      | (.ok l, s) => (.ok (h :: l), s)
      | (.error e, s) => (.error e, s)

end Multicast
