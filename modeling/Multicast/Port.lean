import Multicast.Id
import Multicast.Table

/-! Physical ports: a front-panel port of a network processor, or a link aggregation group. -/
namespace Multicast

/-- Front-panel ports come before aggregation groups. -/
inductive Port where
  | panel (npu port : UInt32)
  | lag (id : UInt32)
  deriving DecidableEq, Repr

namespace Port

def isLag : Port → Bool
  | .panel .. => false
  | .lag _ => true

def chars : Port → List Char
  | .panel npu port => Numeral.decimal npu.toNat ++ '/' :: Numeral.decimal port.toNat
  | .lag id => 'l' :: 'a' :: 'g' :: Numeral.decimal id.toNat

def text (p : Port) : String := String.ofList p.chars

/-- `lag` and a word, or two words with a slash between. -/
def read? : List Char → Option Port
  | 'l' :: 'a' :: 'g' :: rest => (Numeral.word? rest).map lag
  | cs =>
    match cs.dropWhile (· != '/') with
    | [] => none
    | _ :: rest => do
      let npu ← Numeral.word? (cs.takeWhile (· != '/'))
      let port ← Numeral.word? rest
      some (.panel npu port)

def read (s : String) : Except ReadError Port :=
  match read? s.toList with
  | some p => .ok p
  | none => .error (.port s)

def debug : Port → String
  | .panel npu port =>
    "Port \x7b npu: " ++ Numeral.decimalText npu.toNat ++ ", port: " ++
      Numeral.decimalText port.toNat ++ " \x7d"
  | .lag id => "Lag \x7b lag_id: " ++ Numeral.decimalText id.toNat ++ " \x7d"

def toJson : Port → Json
  | .panel npu port => .obj [("port", .obj [("npu", .nat npu.toNat), ("port", .nat port.toNat)])]
  | .lag id => .obj [("lag", .obj [("lag_id", .nat id.toNat)])]

/-- The fields of a port stand in an object, never in an array. -/
def ofJson? (v : Json) : Option Port :=
  match v.tagged? with
  | some ("port", .obj fields) =>
    match Json.fields? ["npu", "port"] (.obj fields) with
    | some [npu, port] => do
      let npu ← Json.required? Json.word? npu
      let port ← Json.required? Json.word? port
      some (.panel npu port)
    | _ => none
  | some ("lag", .obj fields) =>
    match Json.fields? ["lag_id"] (.obj fields) with
    | some [id] => (Json.required? Json.word? id).map lag
    | _ => none
  | _ => none

def code : Port → List Nat
  | .panel npu port => [0, npu.toNat, port.toNat]
  | .lag id => [1, id.toNat]

theorem code_injective : ∀ {p q : Port}, code p = code q → p = q
  | .panel .., .panel .., h => by simpa [code, UInt32.toNat_inj] using h
  | .lag _, .lag _, h => by simpa [code, UInt32.toNat_inj] using h
  | .panel .., .lag _, h => nomatch (List.cons.inj h).1
  | .lag _, .panel .., h => nomatch (List.cons.inj h).1

instance : SortKey Port := ⟨code, code_injective⟩

end Port

/-- Ports without order or repetition. -/
abbrev PortSet := KeySet Port

/-- The ports of a list. -/
def PortSet.ofPorts (ports : List Port) : PortSet := KeySet.ofList ports

def PortSet.toJson (s : PortSet) : Json := .arr (KeySet.toList s |>.map Port.toJson)

end Multicast
