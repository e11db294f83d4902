import Multicast.Cache.Member
import Multicast.Proofs.JsonText
import Multicast.RouteKey

/-! Addresses, ports, route keys and requested members come back from the forms in which they leave:
their texts, their JSON values, and the texts of these. -/
namespace Multicast

namespace Json

variable {α : Type} {write : α → Json} {read? : Json → Option α}

/-- The JSON value of `a` is read as `a`, and so is the text of that value. -/
structure ReadsBack (write : α → Json) (read? : Json → Option α) (a : α) : Prop where
  value : read? (write a) = some a
  text : (ofText? (write a).compact).bind read? = some a

theorem ReadsBack.of_value {a : α} (hv : (write a).Integral) (h : read? (write a) = some a) :
    ReadsBack write read? a := by
  refine ⟨h, ?_⟩
  rw [ofText?_compact hv, Option.bind_some, h]

/-! Words -/

theorem word?_nat (n : UInt32) : word? (.nat n.toNat) = some n := by
  have hn := n.toNat_lt
  have hbelow : (Json.nat n.toNat).below? UInt32.size = some n.toNat := by
    have hcast : (n.toNat : Int) < 4294967296 := Int.ofNat_lt.mpr hn
    simp [nat, below?, hcast]
  rw [word?, hbelow, Option.map_some, UInt32.ofNat_toNat]

/-- A natural number below 2 ^ 64 is an integer of 64 bits. -/
theorem Number.integral_of_lt (n : Nat) (h : n < 2 ^ 64) : (Number.int n).Integral := by
  constructor <;> omega

variable {p : Number → Prop} (hp : ∀ n : Nat, n < 2 ^ 64 → p (.int n))

include hp in
theorem numbers_word (n : UInt32) : (Json.nat n.toNat).Numbers p := by
  have hn := n.toNat_lt
  exact hp _ (by omega)

/-! Lists -/

theorem mapM_map {l : List α} (h : ∀ a ∈ l, read? (write a) = some a) :
    (l.map write).mapM read? = some l := by
  induction l with
  | nil => rfl
  | cons a rest ih =>
    have ha := h a List.mem_cons_self
    have hrest := ih fun b hb => h b (List.mem_cons_of_mem a hb)
    simp [ha, hrest]

theorem numbersItems_map {l : List α} (h : ∀ a ∈ l, (write a).Numbers p) :
    NumbersItems p (l.map write) := by
  induction l with
  | nil => trivial
  | cons a rest ih =>
    exact ⟨h a List.mem_cons_self, ih fun b hb => h b (List.mem_cons_of_mem a hb)⟩

end Json

variable {p : Json.Number → Prop} (hp : ∀ n : Nat, n < 2 ^ 64 → p (.int n))

/-! Numbers that name things -/

theorem DeviceId.ofJson?_toJson (d : DeviceId) : ofJson? d.toJson = some d := by
  rw [ofJson?, toJson, Json.word?_nat, Option.map_some]

theorem RifId.ofJson?_toJson (r : RifId) : ofJson? r.toJson = some r := by
  rw [ofJson?, toJson, Json.word?_nat, Option.map_some]

theorem VrfId.ofJson?_toJson (v : VrfId) : ofJson? v.toJson = some v := by
  rw [ofJson?, toJson, Json.word?_nat, Option.map_some]

/-! Addresses -/

namespace Address

theorem ofText?_text (a : Address) : ofText? a.text = some a := by
  rw [ofText?, text, String.toList_ofList, read?_chars]

theorem ofJson?_toJson (a : Address) : ofJson? a.toJson = some a := ofText?_text a

/-- A source may be missing, and a null is read as that. -/
theorem optional?_ofOption (source : Option Address) :
    Json.optional? ofJson? (some (Json.ofOption toJson source)) = some source := by
  cases source with
  | none => rfl
  | some a =>
    change (ofJson? a.toJson).map some = _
    rw [ofJson?_toJson, Option.map_some]

end Address

/-! Route keys, whether hardware can hold them or not -/

namespace RouteKey

theorem type_ofJson?_toJson (t : RouteType) : RouteType.ofJson? t.toJson = some t := by
  cases t <;> rfl

/-- A key is read field by field. -/
theorem ofJson?_obj {k : RouteKey} {vrf type group source : Json}
    (hvrf : VrfId.ofJson? vrf = some k.vrf) (htype : RouteType.ofJson? type = some k.type)
    (hgroup : Address.ofJson? group = some k.group)
    (hsource : Json.optional? Address.ofJson? (some source) = some k.source) :
    ofJson? (.obj [("vrf", vrf), ("entry_type", type), ("group", group), ("source", source)]) =
      some k := by
  simp [ofJson?, Json.fields?, Json.required?, hvrf, htype, hgroup, hsource]

theorem ofJson?_toJson (k : RouteKey) : ofJson? k.toJson = some k :=
  ofJson?_obj k.vrf.ofJson?_toJson (type_ofJson?_toJson k.type) k.group.ofJson?_toJson
    (Address.optional?_ofOption k.source)

include hp in
theorem numbers_toJson (k : RouteKey) : k.toJson.Numbers p := by
  have hvrf : k.vrf.toJson.Numbers p := Json.numbers_word hp k.vrf.number
  have htype : k.type.toJson.Numbers p := by cases k.type <;> trivial
  have hgroup : k.group.toJson.Numbers p := trivial
  have hsource : (Json.ofOption Address.toJson k.source).Numbers p := by
    cases k.source <;> trivial
  simp [toJson, Json.Numbers, Json.NumbersFields, hvrf, htype, hgroup, hsource]

end RouteKey

/-! Ports and members -/

namespace Port

theorem ofJson?_panel {npu port : UInt32} {m n : Json} (hnpu : m.word? = some npu)
    (hport : n.word? = some port) :
    ofJson? (.obj [("port", .obj [("npu", m), ("port", n)])]) = some (.panel npu port) := by
  simp [ofJson?, Json.tagged?, Json.fields?, Json.required?, hnpu, hport]

theorem ofJson?_lag {id : UInt32} {n : Json} (hid : n.word? = some id) :
    ofJson? (.obj [("lag", .obj [("lag_id", n)])]) = some (.lag id) := by
  simp [ofJson?, Json.tagged?, Json.fields?, Json.required?, hid]

theorem ofJson?_toJson : ∀ p : Port, ofJson? p.toJson = some p
  | .panel npu port => ofJson?_panel (Json.word?_nat npu) (Json.word?_nat port)
  | .lag id => ofJson?_lag (Json.word?_nat id)

include hp in
theorem numbers_toJson (q : Port) : q.toJson.Numbers p := by
  cases q <;> simp [toJson, Json.Numbers, Json.NumbersFields, Json.numbers_word hp]

end Port

namespace MemberSpec

theorem ofJson?_obj {m : MemberSpec} {rif : Json} {items : List Json}
    (hrif : RifId.ofJson? rif = some m.rif) (hports : items.mapM Port.ofJson? = some m.ports) :
    ofJson? (.obj [("rif", rif), ("ports", .arr items)]) = some m := by
  simp [ofJson?, Json.fields?, Json.required?, Json.items?, hrif, hports]

theorem ofJson?_toJson (m : MemberSpec) : ofJson? m.toJson = some m :=
  ofJson?_obj m.rif.ofJson?_toJson (Json.mapM_map fun p _ => p.ofJson?_toJson)

include hp in
theorem numbers_toJson (m : MemberSpec) : m.toJson.Numbers p := by
  have hrif : m.rif.toJson.Numbers p := Json.numbers_word hp m.rif.number
  have hports : Json.NumbersItems p (m.ports.map Port.toJson) :=
    Json.numbersItems_map fun q _ => q.numbers_toJson hp
  simp [toJson, Json.Numbers, Json.NumbersFields, hrif, hports]

end MemberSpec

/-- An address comes back from its text and its JSON value, of its own family, since no text of one
family is read as the other; so whatever holds addresses and ports comes back too. -/
theorem external_forms_read_back :
    (∀ a : Address, Address.ofText? a.text = some a ∧
      Json.ReadsBack Address.toJson Address.ofJson? a) ∧
    (∀ k : RouteKey, Json.ReadsBack RouteKey.toJson RouteKey.ofJson? k) ∧
    (∀ p : Port, Json.ReadsBack Port.toJson Port.ofJson? p) ∧
    ∀ m : MemberSpec, Json.ReadsBack MemberSpec.toJson MemberSpec.ofJson? m :=
  ⟨fun a => ⟨a.ofText?_text, .of_value trivial a.ofJson?_toJson⟩,
    fun k => .of_value (k.numbers_toJson Json.Number.integral_of_lt) k.ofJson?_toJson,
    fun p => .of_value (p.numbers_toJson Json.Number.integral_of_lt) p.ofJson?_toJson,
    fun m => .of_value (m.numbers_toJson Json.Number.integral_of_lt) m.ofJson?_toJson⟩

/-- Digits and dots at the end of an IPv6 address do not make it IPv4. -/
example : Address.ofText? "::ffff:239.1.1.1" =
    some (.v6 (.ofMapped ⟨239, 1, 1, 1⟩)) := by decide +kernel

end Multicast
