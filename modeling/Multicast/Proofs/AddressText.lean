import Multicast.Address
import Multicast.Handle

/-! Written addresses and handles are read back, so no two are written alike. -/
namespace Multicast

namespace Numeral

theorem hexDigit?_digitChar : ∀ d < 16, hexDigit? d.digitChar = some d := by decide

theorem digitChar_ne_colon : ∀ d < 16, d.digitChar ≠ ':' := by decide

/-- One more hexadecimal digit behind those read. -/
def appendHex? (n : Nat) (c : Char) : Option Nat := (hexDigit? c).map (16 * n + ·)

theorem foldlM_hex (n : Nat) : (hex n).foldlM appendHex? 0 = some n := by
  induction n using Nat.strongRecOn with
  | ind n ih =>
    unfold hex
    rw [Nat.toDigits_eq_if (by decide)]
    split
    · next h => simp [appendHex?, hexDigit?_digitChar n h]
    · next h =>
      have hlt : n / 16 < n := Nat.div_lt_self (by omega) (by decide)
      have hdiv : (Nat.toDigits 16 (n / 16)).foldlM appendHex? 0 = some (n / 16) := ih _ hlt
      rw [List.foldlM_append, hdiv]
      have hmod := hexDigit?_digitChar (n % 16) (Nat.mod_lt n (by decide))
      simp [appendHex?, hmod, Nat.div_add_mod]

theorem hex?_hex (n : Nat) : hex? (hex n) = some n := by
  unfold hex?
  rw [if_neg (by simp [hex, Nat.toDigits_ne_nil])]
  exact foldlM_hex n

theorem exists_digitChar_of_mem_toDigits {base n : Nat} (hbase : 1 < base) {c : Char}
    (h : c ∈ Nat.toDigits base n) : ∃ d < base, c = d.digitChar := by
  induction n using Nat.strongRecOn with
  | ind n ih =>
    rw [Nat.toDigits_eq_if hbase] at h
    split at h
    · next hlt => exact ⟨n, hlt, List.mem_singleton.mp h⟩
    · next hge =>
      rcases List.mem_append.mp h with h | h
      · exact ih _ (Nat.div_lt_self (by omega) hbase) h
      · exact ⟨n % base, Nat.mod_lt n (by omega), List.mem_singleton.mp h⟩

theorem mem_hex_ne_colon {n : Nat} {c : Char} (h : c ∈ hex n) : c ≠ ':' := by
  obtain ⟨d, hd, rfl⟩ := exists_digitChar_of_mem_toDigits (by decide) h
  exact digitChar_ne_colon d hd

theorem colon_not_mem_hex (n : Nat) : ':' ∉ hex n := fun h => mem_hex_ne_colon h rfl

/-- Zeros in front count for nothing. -/
theorem foldlM_zeros (k : Nat) (cs : List Char) :
    (List.replicate k '0' ++ cs).foldlM appendHex? 0 = cs.foldlM appendHex? 0 := by
  induction k with
  | zero => rfl
  | succ k ih => exact ih

theorem paddedHex_injective {width m n : Nat} (h : paddedHex width m = paddedHex width n) :
    m = n := by
  have h := congrArg (List.foldlM appendHex? 0) h
  unfold paddedHex List.leftpad at h
  rw [foldlM_zeros, foldlM_zeros, foldlM_hex, foldlM_hex] at h
  exact Option.some.inj h

theorem decimal_injective {m n : Nat} (h : decimal m = decimal n) : m = n := by
  have h := congrArg decimal? h
  rw [decimal?_decimal, decimal?_decimal] at h
  exact Option.some.inj h

theorem mem_decimal_isDigit {n : Nat} {c : Char} (h : c ∈ decimal n) : c.isDigit = true :=
  Nat.isDigit_of_mem_toDigits (by decide) (by decide) h

end Numeral

theorem Handle.text_injective {h h' : Handle} (e : h.text = h'.text) : h = h' := by
  have e := String.ofList_inj.mp e
  have hraw := Numeral.paddedHex_injective (List.cons.inj (List.cons.inj e).2).2
  obtain ⟨raw⟩ := h
  obtain ⟨raw'⟩ := h'
  exact congrArg mk (UInt64.toNat_inj.mp hraw)

namespace Ipv4

theorem octet?_decimal (o : UInt8) : octet? (Numeral.decimal o.toNat) = some o := by
  have hlt := o.toNat_lt
  have hlen : (Numeral.decimal o.toNat).length ≤ 3 :=
    (Nat.length_toDigits_le_iff (by decide) (by decide)).mpr (by omega)
  have hhead : ∀ n < 256,
      (Numeral.decimal n).head? ≠ some '0' ∨ (Numeral.decimal n).length = 1 := by
    decide +kernel
  unfold octet?
  rw [if_pos ⟨hlen, hhead _ hlt⟩, Numeral.decimal?_decimal]
  simp [hlt]

theorem read?_chars (x : Ipv4) : read? x.chars = some x := by
  have hdots : ∀ l ∈ x.octets.map fun o => Numeral.decimal o.toNat, '.' ∉ l := by
    intro l hl hdot
    obtain ⟨o, -, rfl⟩ := List.mem_map.mp hl
    exact absurd (Numeral.mem_decimal_isDigit hdot) (by decide)
  unfold read? chars
  rw [List.splitOn_intercalate _ hdots (by simp [octets])]
  simp [octets, octet?_decimal]

/-- Text with a colon is no IPv4 address. -/
theorem colon_not_mem {cs : List Char} {x : Ipv4} (h : read? cs = some x) : ':' ∉ cs := by
  have hoctet : ∀ {l : List Char} {o : UInt8}, octet? l = some o → ':' ∉ l := by
    intro l o ho hmem
    unfold octet? at ho
    split at ho
    · split at ho
      · next n hn =>
        unfold Numeral.decimal? at hn
        split at hn
        · next hdigits => exact absurd (List.all_eq_true.mp hdigits.2 _ hmem) (by decide)
        · cases hn
      · cases ho
    · cases ho
  unfold read? at h
  split at h
  · next p q r s hsplit =>
    have hcs : ['.'].intercalate (cs.splitOn '.') = cs := List.intercalate_splitOn '.'
    rw [← hcs, hsplit]
    cases hp : octet? p <;> cases hq : octet? q <;> cases hr : octet? r <;> cases hs : octet? s <;>
      simp [hp, hq, hr, hs] at h
    simp [List.intercalate, hoctet hp, hoctet hq, hoctet hr, hoctet hs]
  · cases h

theorem length_chars (x : Ipv4) : 7 ≤ x.chars.length := by
  have hpos : ∀ n, 0 < (Numeral.decimal n).length := fun n => Nat.length_toDigits_pos
  have ha := hpos x.a.toNat
  have hb := hpos x.b.toNat
  have hc := hpos x.c.toNat
  have hd := hpos x.d.toNat
  simp [chars, octets, List.intercalate]
  omega

end Ipv4

namespace Ipv6

/-! Groups of hexadecimal digits -/

theorem segment?_hex (s : UInt16) : segment? (Numeral.hex s.toNat) = some s := by
  have hlt := s.toNat_lt
  have hlen : (Numeral.hex s.toNat).length ≤ 4 :=
    (Nat.length_toDigits_le_iff (by decide) (by decide)).mpr (by omega)
  simp [segment?, hlen, Numeral.hex?_hex]

theorem segments?_hex (atEnd : Bool) (l : List UInt16) :
    segments? atEnd (l.map fun s => Numeral.hex s.toNat) = some l := by
  induction l with
  | nil => rfl
  | cons s rest ih =>
    cases rest with
    | nil => simp [segments?, segment?_hex]
    | cons t rest =>
      rw [List.map_cons, List.map_cons] at *
      simp [segments?, segment?_hex, ih]

theorem splitOn_groupChars {l : List UInt16} (h : l ≠ []) :
    (groupChars l).splitOn ':' = l.map fun s => Numeral.hex s.toNat := by
  refine List.splitOn_intercalate _ (fun p hp => ?_) (by simpa using h)
  obtain ⟨s, -, rfl⟩ := List.mem_map.mp hp
  exact Numeral.colon_not_mem_hex _

theorem groupChars_cons_cons (s t : UInt16) (l : List UInt16) :
    groupChars (s :: t :: l) = Numeral.hex s.toNat ++ ':' :: groupChars (t :: l) := by
  simp [groupChars, List.intercalate]

theorem groupChars_singleton (s : UInt16) : groupChars [s] = Numeral.hex s.toNat := by
  simp [groupChars, List.intercalate]

theorem exists_groupChars_cons (s : UInt16) (l : List UInt16) :
    ∃ c rest, groupChars (s :: l) = c :: rest ∧ c ≠ ':' := by
  have hhex : ∃ c rest, Numeral.hex s.toNat = c :: rest ∧ c ≠ ':' := by
    cases h : Numeral.hex s.toNat with
    | nil => exact absurd h Nat.toDigits_ne_nil
    | cons c rest => exact ⟨c, rest, rfl, Numeral.mem_hex_ne_colon (h ▸ List.mem_cons_self)⟩
  obtain ⟨c, rest, h, hc⟩ := hhex
  cases l with
  | nil => exact ⟨c, rest, by rw [groupChars_singleton, h], hc⟩
  | cons t l => exact ⟨c, _, by rw [groupChars_cons_cons, h]; rfl, hc⟩

theorem side?_groupChars (atEnd : Bool) (l : List UInt16) :
    side? atEnd (groupChars l) = some l := by
  unfold side?
  cases l with
  | nil => rfl
  | cons s l =>
    obtain ⟨c, rest, h, -⟩ := exists_groupChars_cons s l
    rw [if_neg (by simp [h]), splitOn_groupChars (by simp), segments?_hex]

/-! The double colon -/

theorem cut?_cons_of_ne {c : Char} (hc : c ≠ ':') (cs : List Char) :
    cut? (c :: cs) = (cut? cs).map fun p => (c :: p.1, p.2) := by
  rw [cut?]
  simp [hc]

theorem cut?_colon_cons_of_ne {c : Char} (hc : c ≠ ':') (cs : List Char) :
    cut? (':' :: c :: cs) = (cut? (c :: cs)).map fun p => (':' :: p.1, p.2) := by
  rw [cut?]
  simp [hc]

theorem cut?_append {p : List Char} (hp : ':' ∉ p) (cs : List Char) :
    cut? (p ++ cs) = (cut? cs).map fun q => (p ++ q.1, q.2) := by
  induction p with
  | nil => simp
  | cons c p ih =>
    simp only [List.mem_cons, not_or] at hp
    obtain ⟨hc, hp⟩ := hp
    rw [List.cons_append, cut?_cons_of_ne (Ne.symm hc), ih hp, Option.map_map]
    rfl

/-- Single colons are passed over. -/
theorem cut?_groupChars_append (l : List UInt16) (cs : List Char) :
    cut? (groupChars l ++ cs) = (cut? cs).map fun q => (groupChars l ++ q.1, q.2) := by
  induction l with
  | nil => simp [groupChars, List.intercalate]
  | cons s l ih =>
    cases l with
    | nil => rw [groupChars_singleton, cut?_append (Numeral.colon_not_mem_hex _)]
    | cons t l =>
      obtain ⟨c, rest, h, hc⟩ := exists_groupChars_cons t l
      rw [groupChars_cons_cons, List.append_assoc, cut?_append (Numeral.colon_not_mem_hex _), h]
      rw [List.cons_append, List.cons_append, cut?_colon_cons_of_ne hc, ← List.cons_append, ← h, ih]
      simp [Option.map_map, Function.comp_def]

theorem cut?_groupChars (l : List UInt16) : cut? (groupChars l) = none := by
  have h := cut?_groupChars_append l []
  rwa [List.append_nil] at h

/-! Runs of zeros -/

theorem eq_replicate_append_drop (l : List UInt16) :
    l = List.replicate (l.takeWhile (· == 0)).length 0 ++
      l.drop (l.takeWhile (· == 0)).length := by
  induction l with
  | nil => rfl
  | cons s l ih =>
    by_cases hs : s = 0
    · subst hs
      simpa [List.replicate_succ] using ih
    · simp [hs]

/-- The run that `zeroRun` finds lies within the segments and holds zeros only. -/
theorem zeroRun_spec (l : List UInt16) :
    l = l.take (zeroRun l).1 ++ List.replicate (zeroRun l).2 0 ++
      l.drop ((zeroRun l).1 + (zeroRun l).2) := by
  induction l with
  | nil => rfl
  | cons s l ih =>
    rw [zeroRun]
    dsimp only
    split
    · simpa using eq_replicate_append_drop (s :: l)
    · rw [Nat.add_right_comm, List.take_succ_cons, List.drop_succ_cons, List.cons_append,
        List.cons_append, ← ih]

/-! Mapped addresses -/

theorem toNat_joinBytes (a b : UInt8) :
    (a.toUInt16 <<< 8 ||| b.toUInt16).toNat = a.toNat * 256 + b.toNat := by
  have ha := a.toNat_lt
  have hb := b.toNat_lt
  rw [UInt16.toNat_or, UInt16.toNat_shiftLeft, UInt8.toNat_toUInt16, UInt8.toNat_toUInt16]
  rw [show UInt16.toNat 8 % 16 = 8 from rfl, Nat.mod_eq_of_lt (by rw [Nat.shiftLeft_eq]; omega),
    ← Nat.shiftLeft_add_eq_or_of_lt hb, Nat.shiftLeft_eq]

theorem octets_joinBytes (a b : UInt8) :
    ((a.toUInt16 <<< 8 ||| b.toUInt16) >>> 8).toUInt8 = a ∧
      (a.toUInt16 <<< 8 ||| b.toUInt16).toUInt8 = b := by
  have ha := a.toNat_lt
  have hb := b.toNat_lt
  constructor <;> apply UInt8.toNat_inj.mp
  · rw [UInt16.toNat_toUInt8, UInt16.toNat_shiftRight, toNat_joinBytes,
      show UInt16.toNat 8 % 16 = 8 from rfl, Nat.shiftRight_eq_div_pow]
    omega
  · rw [UInt16.toNat_toUInt8, toNat_joinBytes]
    omega

def ofMapped (x : Ipv4) : Ipv6 := ⟨List.replicate 5 0 ++ 0xffff :: ofIpv4 x, by simp [ofIpv4]⟩

theorem eq_ofMapped {x : Ipv6} {v : Ipv4} (h : x.mapped? = some v) : x = ofMapped v := by
  apply octets_injective
  unfold mapped? at h
  split at h
  · next a b c d hoctets =>
    cases h
    have ⟨hhigh, hlow⟩ := octets_joinBytes a b
    have ⟨hhigh', hlow'⟩ := octets_joinBytes c d
    rw [hoctets]
    simp [octets, ofMapped, ofIpv4, List.replicate, hhigh, hlow, hhigh', hlow']
    decide
  · cases h

theorem segments?_mapped (x : Ipv4) :
    segments? true ["ffff".toList, x.chars] = some (0xffff :: ofIpv4 x) := by
  have hlen := x.length_chars
  have hlong : segment? x.chars = none := by
    rw [segment?, if_neg (by omega)]
  have hffff : segment? "ffff".toList = some 0xffff := by decide
  rw [segments?, hffff, segments?, hlong, if_pos rfl, Ipv4.read?_chars]
  · rfl
  · exact List.cons_ne_nil _ _

theorem read?_mapped (x : Ipv4) : read? ("::ffff:".toList ++ x.chars) = some (ofMapped x) := by
  have hcolon : ':' ∉ x.chars := Ipv4.colon_not_mem (Ipv4.read?_chars x)
  have hsplit : ("ffff:".toList ++ x.chars).splitOn ':' = ["ffff".toList, x.chars] := by
    have hjoined : ([':'].intercalate ["ffff".toList, x.chars]).splitOn ':' = _ :=
      List.splitOn_intercalate ':' (by simpa using hcolon) (by simp)
    simpa [List.intercalate] using hjoined
  have hcut : cut? ("::ffff:".toList ++ x.chars) = some ([], "ffff:".toList ++ x.chars) := rfl
  have hside : side? true ("ffff:".toList ++ x.chars) = some (0xffff :: ofIpv4 x) := by
    rw [side?, if_neg (by simp), hsplit, segments?_mapped]
  unfold read?
  rw [hcut]
  simp only [hside]
  rfl

/-! All addresses -/

theorem ofList?_segments (x : Ipv6) : ofList? x.segments = some x := by
  rw [ofList?, dif_pos x.length_segments]

theorem read?_plain (x : Ipv6) : read? (groupChars x.segments) = some x := by
  have hne : x.segments ≠ [] := List.ne_nil_of_length_eq_add_one x.length_segments
  unfold read?
  rw [cut?_groupChars]
  simp only [splitOn_groupChars hne, segments?_hex]
  exact ofList?_segments x

theorem read?_compressed (x : Ipv6) {start length : Nat} (hlong : 2 ≤ length)
    (hrun : x.segments = x.segments.take start ++ List.replicate length 0 ++
      x.segments.drop (start + length)) :
    read? (groupChars (x.segments.take start) ++ "::".toList ++
      groupChars (x.segments.drop (start + length))) = some x := by
  have hlen := congrArg List.length hrun
  simp only [List.length_append, List.length_take, List.length_replicate, List.length_drop,
    x.length_segments] at hlen
  have hcut : cut? ("::".toList ++ groupChars (x.segments.drop (start + length))) =
      some ([], groupChars (x.segments.drop (start + length))) := rfl
  have htake : (x.segments.take start).length = start := by
    rw [List.length_take, x.length_segments]
    omega
  have hdrop : (x.segments.drop (start + length)).length = 8 - (start + length) := by
    rw [List.length_drop, x.length_segments]
  have hfill : 8 - (start + (8 - (start + length))) = length := by omega
  unfold read?
  rw [List.append_assoc, cut?_groupChars_append, hcut, Option.map_some, List.append_nil]
  simp only [side?_groupChars, Option.bind_eq_bind, Option.bind_some, htake, hdrop, hfill]
  rw [if_pos (by omega), ← hrun]
  exact ofList?_segments x

theorem read?_chars (x : Ipv6) : read? x.chars = some x := by
  unfold chars
  split
  · next v hv => rw [read?_mapped, ← eq_ofMapped hv]
  · dsimp only
    split
    · next hlong => exact read?_compressed x hlong (zeroRun_spec x.segments)
    · exact read?_plain x

theorem colon_mem_groupChars {l : List UInt16} (h : 2 ≤ l.length) : ':' ∈ groupChars l := by
  match l with
  | s :: t :: l => simp [groupChars_cons_cons]

theorem colon_mem_chars (x : Ipv6) : ':' ∈ x.chars := by
  unfold chars
  split
  · exact List.mem_append_left _ (by decide)
  · dsimp only
    split
    · exact List.mem_append_left _ (List.mem_append_right _ (by decide))
    · exact colon_mem_groupChars (by rw [x.length_segments]; decide)

end Ipv6

namespace Address

/-- An address that is written is read back. -/
theorem read?_chars (a : Address) : read? a.chars = some a := by
  unfold read?
  cases a with
  | v4 x => simp [chars, Ipv4.read?_chars]
  | v6 x =>
    have hv4 : Ipv4.read? x.chars = none := by
      cases h : Ipv4.read? x.chars with
      | none => rfl
      | some y => exact absurd x.colon_mem_chars (Ipv4.colon_not_mem h)
    simp [chars, hv4, Ipv6.read?_chars]

theorem text_injective {a b : Address} (h : a.text = b.text) : a = b := by
  have h := congrArg read? (String.ofList_inj.mp h)
  rw [read?_chars, read?_chars] at h
  exact Option.some.inj h

end Address

end Multicast
