import Mathlib.Data.List.Basic
import Multicast.Proofs.AddressText
import Multicast.Proofs.Operation
import Multicast.Proofs.Precondition

/-! The text of a route key tells its VRF, group and source, and with them all of a key that is
valid: only the type is not written. -/
namespace Multicast

theorem mem_of_mem_intercalate {α : Type} {sep x : α} {ls : List (List α)}
    (h : x ∈ [sep].intercalate ls) : x = sep ∨ ∃ l ∈ ls, x ∈ l := by
  induction ls with
  | nil => cases h
  | cons l rest ih =>
    cases rest with
    | nil => exact .inr ⟨l, List.mem_cons_self, by simpa using h⟩
    | cons l' rest =>
      rw [List.intercalate_cons_cons, List.mem_append, List.mem_append, List.mem_singleton] at h
      rcases h with (h | h) | h
      · exact .inr ⟨l, List.mem_cons_self, h⟩
      · exact .inl h
      · exact (ih h).imp id fun ⟨l, hl, hx⟩ => ⟨l, List.mem_cons_of_mem _ hl, hx⟩

/-- A list is divided where a separator stands first. -/
theorem append_cons_inj_of_not_mem {α : Type} {sep : α} {p q x y : List α} (hp : sep ∉ p)
    (hq : sep ∉ q) (h : p ++ sep :: x = q ++ sep :: y) : p = q ∧ x = y := by
  induction p generalizing q with
  | nil =>
    cases q with
    | nil => exact ⟨rfl, (List.cons.inj h).2⟩
    | cons b q => exact absurd ((List.cons.inj h).1 ▸ List.mem_cons_self) hq
  | cons a p ih =>
    rw [List.mem_cons, not_or] at hp
    cases q with
    | nil => exact absurd (List.cons.inj h).1.symm hp.1
    | cons b q =>
      rw [List.mem_cons, not_or] at hq
      obtain ⟨hhead, htail⟩ := List.cons.inj h
      obtain ⟨rfl, hrest⟩ := ih hp.2 hq.2 htail
      exact ⟨by rw [hhead], hrest⟩

/-- What addresses are written with. -/
def Address.IsMark (c : Char) : Prop := (∃ d < 16, c = d.digitChar) ∨ c = '.' ∨ c = ':'

namespace Address

theorem isMark_of_mem_toDigits {base n : Nat} {c : Char} (hbase : 1 < base ∧ base ≤ 16)
    (h : c ∈ Nat.toDigits base n) : IsMark c := by
  obtain ⟨d, hd, rfl⟩ := Numeral.exists_digitChar_of_mem_toDigits hbase.1 h
  exact .inl ⟨d, Nat.lt_of_lt_of_le hd hbase.2, rfl⟩

theorem not_isMark {c : Char} (hdigits : ∀ d < 16, d.digitChar ≠ c)
    (hc : c ≠ '.' ∧ c ≠ ':') : ¬IsMark c := by
  rintro (⟨d, hd, rfl⟩ | h | h)
  · exact hdigits d hd rfl
  · exact hc.1 h
  · exact hc.2 h

end Address

theorem Ipv4.isMark_of_mem_chars {x : Ipv4} {c : Char} (h : c ∈ x.chars) : Address.IsMark c := by
  rcases mem_of_mem_intercalate h with rfl | ⟨l, hl, hc⟩
  · exact .inr (.inl rfl)
  · obtain ⟨o, -, rfl⟩ := List.mem_map.mp hl
    exact Address.isMark_of_mem_toDigits (by decide) hc

namespace Ipv6

theorem isMark_of_mem_groupChars {l : List UInt16} {c : Char} (h : c ∈ groupChars l) :
    Address.IsMark c := by
  rcases mem_of_mem_intercalate h with rfl | ⟨p, hp, hc⟩
  · exact .inr (.inr rfl)
  · obtain ⟨s, -, rfl⟩ := List.mem_map.mp hp
    exact Address.isMark_of_mem_toDigits (by decide) hc

theorem isMark_of_mem_chars {x : Ipv6} {c : Char} (h : c ∈ x.chars) : Address.IsMark c := by
  have hmapped : ∀ c ∈ "::ffff:".toList, Address.IsMark c := by
    intro c hc
    have hc : c = ':' ∨ c = 'f' ∨ c = ':' := by simpa using hc
    rcases hc with rfl | rfl | rfl
    · exact .inr (.inr rfl)
    · exact .inl ⟨15, by decide, rfl⟩
    · exact .inr (.inr rfl)
  unfold chars at h
  split at h
  · exact (List.mem_append.mp h).elim (hmapped c) Ipv4.isMark_of_mem_chars
  · dsimp only at h
    split at h
    · rcases List.mem_append.mp h with h | h
      · rcases List.mem_append.mp h with h | h
        · exact isMark_of_mem_groupChars h
        · exact hmapped c (List.mem_append_left "ffff:".toList h)
      · exact isMark_of_mem_groupChars h
    · exact isMark_of_mem_groupChars h

end Ipv6

namespace Address

theorem isMark_of_mem_chars {a : Address} {c : Char} (h : c ∈ a.chars) : IsMark c := by
  cases a with
  | v4 x => exact Ipv4.isMark_of_mem_chars h
  | v6 x => exact Ipv6.isMark_of_mem_chars h

variable (a : Address)

theorem star_not_mem_chars : '*' ∉ a.chars := fun h =>
  not_isMark (by decide) (by decide) (isMark_of_mem_chars h)

theorem comma_not_mem_chars : ',' ∉ a.chars := fun h =>
  not_isMark (by decide) (by decide) (isMark_of_mem_chars h)

theorem paren_not_mem_chars : ')' ∉ a.chars := fun h =>
  not_isMark (by decide) (by decide) (isMark_of_mem_chars h)

end Address

namespace Numeral

theorem colon_not_mem_decimal (n : Nat) : ':' ∉ decimal n := fun h =>
  absurd (mem_decimal_isDigit h) (by decide)

end Numeral

namespace RouteKey

variable {k l : RouteKey} {s s' : Option Address} {g g' : Address}

def sourceChars : Option Address → List Char
  | none => ['*']
  | some a => a.chars

theorem sourceChars_injective (h : sourceChars s = sourceChars s') : s = s' := by
  match s, s' with
  | none, none => rfl
  | none, some a =>
    have h : ['*'] = a.chars := h
    exact absurd (h ▸ List.mem_cons_self) a.star_not_mem_chars
  | some a, none =>
    have h : a.chars = ['*'] := h
    exact absurd (h ▸ List.mem_cons_self) a.star_not_mem_chars
  | some a, some b => exact congrArg some (Address.text_injective (congrArg String.ofList h))

theorem comma_not_mem_sourceChars : ',' ∉ sourceChars s := by
  cases s with
  | none => decide
  | some a => exact a.comma_not_mem_chars

theorem toList_pairText (s : Option Address) (g : Address) :
    (pairText s g).toList = '(' :: (sourceChars s ++ ',' :: (g.chars ++ [')'])) := by
  cases s <;> simp [pairText, sourceChars, Address.text]

theorem toList_text (k : RouteKey) :
    k.text.toList = "vrf".toList ++ (Numeral.decimal k.vrf.number.toNat ++ ':' ::
      (pairText k.source k.group).toList) := by
  simp [text, VrfId.text, Numeral.decimalText]

/-- A comma divides the pair and a bracket ends it; neither is in an address. -/
theorem pairText_append_inj {x y : List Char}
    (h : (pairText s g).toList ++ x = (pairText s' g').toList ++ y) :
    s = s' ∧ g = g' ∧ x = y := by
  rw [toList_pairText, toList_pairText] at h
  simp only [List.cons_append, List.append_assoc, List.nil_append] at h
  obtain ⟨hsource, hrest⟩ := append_cons_inj_of_not_mem comma_not_mem_sourceChars
    comma_not_mem_sourceChars (List.cons.inj h).2
  obtain ⟨hgroup, hend⟩ := append_cons_inj_of_not_mem g.paren_not_mem_chars
    g'.paren_not_mem_chars hrest
  exact ⟨sourceChars_injective hsource, Address.text_injective (congrArg String.ofList hgroup),
    hend⟩

/-- All but the type can be told from a text that begins with that of a key. -/
theorem text_append_inj {x y : String} (h : k.text ++ x = l.text ++ y) :
    k.vrf = l.vrf ∧ k.group = l.group ∧ k.source = l.source ∧ x = y := by
  have h := congrArg String.toList h
  rw [String.toList_append, String.toList_append, toList_text, toList_text] at h
  simp only [List.append_assoc, List.cons_append] at h
  obtain ⟨hvrf, hpair⟩ := append_cons_inj_of_not_mem (Numeral.colon_not_mem_decimal _)
    (Numeral.colon_not_mem_decimal _) (List.append_cancel_left h)
  obtain ⟨hsource, hgroup, hend⟩ := pairText_append_inj hpair
  have hnumber := UInt32.toNat_inj.mp (Numeral.decimal_injective hvrf)
  exact ⟨congrArg VrfId.mk hnumber, hgroup, hsource, String.toList_inj.mp hend⟩

/-- The type is not written; of keys that are written alike at most one is valid. -/
example (vrf : VrfId) (source group : Address) :
    (⟨vrf, .starG, group, some source⟩ : RouteKey).text = (sourceG vrf source group).text := rfl

theorem eq_of_text_append (hk : k.validate = .ok ()) (hl : l.validate = .ok ()) {x y : String}
    (h : k.text ++ x = l.text ++ y) : k = l ∧ x = y := by
  obtain ⟨hvrf, hgroup, hsource, hend⟩ := text_append_inj h
  have htype : k.type.hasSource = l.type.hasSource := by
    rw [hasSource_of_validate hk, hasSource_of_validate hl, hsource]
  obtain ⟨vrf, type, group, source⟩ := k
  obtain ⟨vrf', type', group', source'⟩ := l
  cases hvrf; cases hgroup; cases hsource
  cases type <;> cases type' <;> first | exact ⟨rfl, hend⟩ | cases htype

end RouteKey

/-! Audit records -/

/-- The route that an operation is to add, delete or update. -/
def Operation.route? : Operation → Option RouteKey
  | .addRoute _ r => some r.key
  | .deleteRoute _ key | .updateRoute _ key _ => some key
  | _ => none

variable {σ α : Type}

/-- What the last event is about, if it is an audit record. -/
def Outcome.subject? (out : Outcome σ α) : Option String :=
  match out.events.getLast? with
  | some (.audit record) => record.objectId
  | _ => none

theorem Orchestrator.subject?_audited {o : Orchestrator σ} (haudit : o.config.audit = true)
    (out : Outcome σ α) (record : Audit.Record) :
    (o.audited out record).subject? = record.objectId := by
  have hfinish : (finish record out.result).objectId = record.objectId := by
    unfold finish
    split
    · rfl
    · split <;> rfl
  unfold audited Outcome.subject?
  rw [if_pos haudit]
  simp [hfinish]

/-- The record of an operation on a route names the route by its text. -/
theorem Operation.subject?_perform {o : Orchestrator σ} (haudit : o.config.audit = true)
    (w : World σ) {op : Operation} {key : RouteKey} (h : op.route? = some key) :
    (op.perform o w).subject? = some key.text := by
  cases op with
  | addRoute d r | deleteRoute d key | updateRoute d key u =>
    cases h
    exact Orchestrator.subject?_audited haudit _ _
  | _ => cases h

/-- The texts of valid keys are different, also where one stands in a longer message; and so the
audit records of operations on different routes name different objects. -/
theorem text_identifies_route {k l : RouteKey} (hk : k.validate = .ok ())
    (hl : l.validate = .ok ()) :
    (k.text = l.text ↔ k = l) ∧
    (∀ before after after' : String,
      before ++ k.text ++ after = before ++ l.text ++ after' ↔ k = l ∧ after = after') ∧
    ∀ (σ : Type) (o o' : Orchestrator σ) (w w' : World σ) (op op' : Operation),
      o.config.audit = true → o'.config.audit = true →
      op.route? = some k → op'.route? = some l →
      ((op.perform o w).subject? = (op'.perform o' w').subject? ↔ k = l) := by
  have htext : k.text = l.text ↔ k = l := by
    constructor
    · intro h
      exact (RouteKey.eq_of_text_append hk hl (congrArg (· ++ "") h)).1
    · exact congrArg RouteKey.text
  refine ⟨htext, fun before after after' => ?_, fun σ o o' w w' op op' ho ho' hop hop' => ?_⟩
  · constructor
    · intro h
      rw [String.append_assoc, String.append_assoc, String.append_right_inj] at h
      exact RouteKey.eq_of_text_append hk hl h
    · rintro ⟨rfl, rfl⟩
      rfl
  · rw [Operation.subject?_perform ho w hop, Operation.subject?_perform ho' w' hop',
      Option.some.injEq, htext]

/-- The sources differ in where their zeros are, and only one of the runs is written out. -/
theorem text_identifies_route_neighbours :
    let source : Address := .v6 ⟨[0x2001, 0, 0, 1, 0, 0, 0, 1], rfl⟩
    let other : Address := .v6 ⟨[0x2001, 0, 0, 0, 1, 0, 0, 1], rfl⟩
    let group : Address := .v6 ⟨[0xff0e, 0, 0, 0, 0, 0, 0, 1], rfl⟩
    let k := RouteKey.sourceG ⟨0⟩ source group
    let l := RouteKey.sourceG ⟨0⟩ other group
    k.validate = .ok () ∧ l.validate = .ok () ∧ k.text ≠ l.text := by
  intro source other group k l
  have hk : k.validate = .ok () := by decide
  have hl : l.validate = .ok () := by decide
  have hne : k ≠ l := by decide
  exact ⟨hk, hl, fun h => hne ((text_identifies_route hk hl).1.mp h)⟩

end Multicast
