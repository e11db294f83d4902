import Multicast.Proofs.Holdings
import Multicast.Proofs.Step

/-! How the books of a switch and the cache of one of its devices agree: the objects on the books
are those held, and the routes that should show are those cached. -/
namespace Multicast

/-- What a route on `g` shows. -/
def Config.image (config : Config) (g : Group) (iif : Handle) (copyToCpu : Bool) : RouteImage :=
  ⟨if copyToCpu then config.copyAction else .forward, g.ipmcGroup, g.rpfGroup, iif⟩

theorem Orchestrator.routeAttrs_eq {σ : Type} (o : Orchestrator σ) (g : Group) (iif : Handle)
    (copyToCpu : Bool) : o.routeAttrs g iif copyToCpu = (o.config.image g iif copyToCpu).attrs :=
  rfl

/-- What a cached route should show, by its group and the handle registered for its interface. -/
def DeviceCache.imageOf (config : Config) (m : Mappings) (d : DeviceId) (c : DeviceCache)
    (r : Route) : Option RouteImage := do
  let g ← c.groups.find? r.group
  let iif ← m.find? (d, .rif r.iif)
  some (config.image g iif r.copyToCpu)

theorem DeviceCache.imageOf_eq_some_iff {config : Config} {m : Mappings} {d : DeviceId}
    {c : DeviceCache} {r : Route} {v : RouteImage} :
    c.imageOf config m d r = some v ↔
      ∃ g iif, c.groups.find? r.group = some g ∧ m.find? (d, .rif r.iif) = some iif ∧
        config.image g iif r.copyToCpu = v := by
  simp [imageOf, Option.bind_eq_some_iff]

namespace DeviceCache

variable {config : Config} {m : Mappings} {d : DeviceId} {c : DeviceCache} {r : Route} {g : Group}

/-- Sub-groups are all that a group adds to the images of its routes. -/
theorem imageOf_modify {groups : GroupTable} {id : Handle} {g' : Group}
    (hg : groups.find? id = some g) (hrpf : g'.rpfGroup = g.rpfGroup)
    (hipmc : g'.ipmcGroup = g.ipmcGroup) (routes routes' : RouteTable) (s s' : Stats) (r : Route) :
    imageOf config m d ⟨groups.modify id fun _ => g', routes, s⟩ r =
      imageOf config m d ⟨groups, routes', s'⟩ r := by
  unfold imageOf
  by_cases hid : r.group = id
  · rw [hid, Table.find?_modify_self _ hg, hg]
    simp only [Config.image, Option.bind_eq_bind, Option.bind_some, hrpf, hipmc]
  · rw [Table.find?_modify_of_ne _ _ hid]

theorem imageOf_insertRoute (hg : c.groups.find? r.group = some g) (r' : Route) :
    (c.insertRoute r g).imageOf config m d r' = c.imageOf config m d r' :=
  imageOf_modify hg (by simp [Group.addKey]) (by simp [Group.addKey]) _ _ _ _ r'

theorem imageOf_eraseRoute (hg : c.groups.find? r.group = some g) (r' : Route) :
    (c.eraseRoute r g).imageOf config m d r' = c.imageOf config m d r' :=
  imageOf_modify hg (by simp [Group.dropKey]) (by simp [Group.dropKey]) _ _ _ _ r'

theorem imageOf_setRoute {r' : Route} {g' : Group} (hg : c.groups.find? r.group = some g)
    (hg' : c.groups.find? r'.group = some g') (r'' : Route) :
    (c.setRoute r g r' g').imageOf config m d r'' = c.imageOf config m d r'' := by
  unfold setRoute
  by_cases hsame : r.group = r'.group
  · rw [if_pos hsame]
    rfl
  · rw [if_neg hsame]
    have hg₁ : (c.groups.modify r.group fun _ => g.dropKey r.key).find? r'.group = some g' :=
      (Table.find?_modify_of_ne _ _ (Ne.symm hsame)).trans hg'
    rw [imageOf_modify hg₁ (by simp [Group.addKey]) (by simp [Group.addKey]) _ c.routes _ c.stats]
    exact imageOf_modify hg (by simp [Group.dropKey]) (by simp [Group.dropKey]) _ _ _ _ r''

end DeviceCache

/-- One entry for each cached route of a device, and no others. -/
structure Routed (config : Config) (m : Mappings) (d : DeviceId) (c : DeviceCache)
    (E : Programming) : Prop where
  shown : ∀ key r, c.routes.find? key = some r →
    ∃ e v, entryAt m d key = some e ∧ c.imageOf config m d r = some v ∧ E (d, e) = some v
  only : ∀ e v, E (d, e) = some v →
    ∃ key r, c.routes.find? key = some r ∧ entryAt m d key = some e
  apart : ∀ key key' r r' e, c.routes.find? key = some r → c.routes.find? key' = some r' →
    entryAt m d key = some e → entryAt m d key' = some e → key = key'

/-- Whatever is registered stays so. -/
def Extends (m m' : Mappings) : Prop := ∀ k h, m.find? k = some h → m'.find? k = some h

theorem Extends.entryAt {m m' : Mappings} (hm : Extends m m') {d : DeviceId} {key : RouteKey}
    {e : Entry} (h : entryAt m d key = some e) : entryAt m' d key = some e := by
  obtain ⟨router, hrouter, he⟩ := Option.map_eq_some_iff.mp h
  exact Option.map_eq_some_iff.mpr ⟨router, hm _ _ hrouter, he⟩

namespace Routed

variable {config : Config} {m m' : Mappings} {d : DeviceId} {c c' : DeviceCache} {E : Programming}
  {key : RouteKey} {r : Route} {e : Entry} {v : RouteImage}

theorem empty (h : ∀ e, E (d, e) = none) : Routed config m d .empty E where
  shown := by
    intro key r hr
    cases hr
  only := by
    intro e v hv
    rw [h e] at hv
    cases hv
  apart := by
    intro key key' r r' e hr
    cases hr

theorem of_extends (h : Routed config m d c E) (hm : Extends m m') : Routed config m' d c E where
  shown := by
    intro key r hr
    obtain ⟨e, v, he, hv, hE⟩ := h.shown key r hr
    obtain ⟨g, iif, hg, hiif, himage⟩ := DeviceCache.imageOf_eq_some_iff.mp hv
    exact ⟨e, v, hm.entryAt he,
      DeviceCache.imageOf_eq_some_iff.mpr ⟨g, iif, hg, hm _ _ hiif, himage⟩, hE⟩
  only := by
    intro e v hv
    obtain ⟨key, r, hr, he⟩ := h.only e v hv
    exact ⟨key, r, hr, hm.entryAt he⟩
  apart := by
    intro key key' r r' e hr hr' he he'
    obtain ⟨e₁, _, he₁, _⟩ := h.shown key r hr
    obtain ⟨e₂, _, he₂, _⟩ := h.shown key' r' hr'
    have h₁ : e₁ = e := Option.some.inj ((hm.entryAt he₁).symm.trans he)
    have h₂ : e₂ = e := Option.some.inj ((hm.entryAt he₂).symm.trans he')
    exact h.apart key key' r r' e hr hr' (h₁ ▸ he₁) (h₂ ▸ he₂)

theorem congr (h : Routed config m d c E) {E' : Programming} (hE : ∀ e, E' (d, e) = E (d, e)) :
    Routed config m d c E' where
  shown := by simpa only [hE] using h.shown
  only := by simpa only [hE] using h.only
  apart := h.apart

/-- A change of the groups that shows in no route. -/
theorem refile (h : Routed config m d c E) (hroutes : c'.routes = c.routes)
    (himage : ∀ key r, c.routes.find? key = some r →
      c'.imageOf config m d r = c.imageOf config m d r) :
    Routed config m d c' E where
  shown := by
    intro key r hr
    rw [hroutes] at hr
    rw [himage key r hr]
    exact h.shown key r hr
  only := hroutes ▸ h.only
  apart := hroutes ▸ h.apart

/-- A change of one route, whose entry no other route has, to `v`. -/
theorem set (h : Routed config m d c E) (he : entryAt m d key = some e) {v : Option RouteImage}
    (hothers : ∀ key', key' ≠ key → c'.routes.find? key' = c.routes.find? key')
    (himage : ∀ key r, c.routes.find? key = some r →
      c'.imageOf config m d r = c.imageOf config m d r)
    (hfree : ∀ key' r', c.routes.find? key' = some r' → entryAt m d key' = some e → key' = key)
    (hself : ∀ r, c'.routes.find? key = some r → ∃ w, v = some w ∧ c'.imageOf config m d r = some w)
    (hback : ∀ w, v = some w → ∃ r, c'.routes.find? key = some r) :
    Routed config m d c' (E.set (d, e) v) where
  shown := by
    intro key' r' hr'
    by_cases hkey : key' = key
    · rw [hkey] at hr' ⊢
      obtain ⟨w, rfl, hw⟩ := hself r' hr'
      exact ⟨e, w, he, hw, if_pos rfl⟩
    · rw [hothers key' hkey] at hr'
      obtain ⟨e', v', he', hv', hE⟩ := h.shown key' r' hr'
      refine ⟨e', v', he', (himage key' r' hr').trans hv', ?_⟩
      rw [Programming.set, if_neg, hE]
      intro heq
      cases heq
      exact hkey (hfree key' r' hr' he')
  only := by
    intro e' v' hv'
    by_cases heq : e' = e
    · rw [heq, Programming.set, if_pos rfl] at hv'
      obtain ⟨r, hr⟩ := hback v' hv'
      exact ⟨key, r, hr, heq ▸ he⟩
    · rw [Programming.set, if_neg fun h => heq (congrArg Prod.snd h)] at hv'
      obtain ⟨key', r', hr', he'⟩ := h.only e' v' hv'
      have hkey : key' ≠ key := by
        rintro rfl
        exact heq (Option.some.inj (he'.symm.trans he))
      exact ⟨key', r', (hothers key' hkey).trans hr', he'⟩
  apart := by
    have hown : ∀ key₁ key₂ r₂ e', key₁ = key → c'.routes.find? key₂ = some r₂ →
        entryAt m d key₁ = some e' → entryAt m d key₂ = some e' → key₁ = key₂ := by
      intro key₁ key₂ r₂ e' hkey hr₂ he₁ he₂
      by_cases hne : key₂ = key
      · rw [hkey, hne]
      · rw [hothers key₂ hne] at hr₂
        rw [hkey, he] at he₁
        exact (hne (hfree key₂ r₂ hr₂ (he₂.trans he₁.symm))).elim
    intro key₁ key₂ r₁ r₂ e' hr₁ hr₂ he₁ he₂
    by_cases h₁ : key₁ = key
    · exact hown key₁ key₂ r₂ e' h₁ hr₂ he₁ he₂
    · by_cases h₂ : key₂ = key
      · exact (hown key₂ key₁ r₁ e' h₂ hr₁ he₂ he₁).symm
      · rw [hothers key₁ h₁] at hr₁
        rw [hothers key₂ h₂] at hr₂
        exact h.apart key₁ key₂ r₁ r₂ e' hr₁ hr₂ he₁ he₂

theorem insertRoute {g : Group} (h : Routed config m d c E)
    (hg : c.groups.find? r.group = some g) (hfree : E (d, e) = none)
    (he : entryAt m d r.key = some e) (hv : c.imageOf config m d r = some v) :
    Routed config m d (c.insertRoute r g) (E.set (d, e) (some v)) := by
  have himage : ∀ r', (c.insertRoute r g).imageOf config m d r' = c.imageOf config m d r' :=
    DeviceCache.imageOf_insertRoute hg
  apply h.set he
  · exact fun key' hkey => Table.find?_insert_of_ne _ _ hkey
  · exact fun _ r' _ => himage r'
  · intro key' r' hr' he'
    obtain ⟨e', v', he'', _, hE⟩ := h.shown key' r' hr'
    obtain rfl : e' = e := Option.some.inj (he''.symm.trans he')
    rw [hfree] at hE
    cases hE
  · intro r' hr'
    rw [DeviceCache.insertRoute, Table.find?_insert_self] at hr'
    cases hr'
    exact ⟨v, rfl, (himage r).trans hv⟩
  · exact fun _ _ => ⟨r, Table.find?_insert_self _ _ _⟩

theorem eraseRoute {g : Group} (h : Routed config m d c E)
    (hr : c.routes.find? r.key = some r) (hg : c.groups.find? r.group = some g)
    (he : entryAt m d r.key = some e) :
    Routed config m d (c.eraseRoute r g) (E.set (d, e) none) := by
  apply h.set he
  · exact fun key' hkey => Table.find?_erase_of_ne _ hkey
  · exact fun _ r' _ => DeviceCache.imageOf_eraseRoute hg r'
  · exact fun key' r' hr' he' => h.apart key' r.key r' r e hr' hr he' he
  · intro r' hr'
    rw [DeviceCache.eraseRoute, Table.find?_erase_self] at hr'
    cases hr'
  · intro w hw
    cases hw

theorem setRoute {r' : Route} {g g' : Group} (h : Routed config m d c E)
    (hr : c.routes.find? r.key = some r) (hg : c.groups.find? r.group = some g)
    (hg' : c.groups.find? r'.group = some g') (he : entryAt m d r.key = some e)
    (hv : c.imageOf config m d r' = some v) :
    Routed config m d (c.setRoute r g r' g') (E.set (d, e) (some v)) := by
  have himage : ∀ r'', (c.setRoute r g r' g').imageOf config m d r'' = c.imageOf config m d r'' :=
    DeviceCache.imageOf_setRoute hg hg'
  apply h.set he
  · exact fun key' hkey => Table.find?_modify_of_ne _ _ hkey
  · exact fun _ r'' _ => himage r''
  · exact fun key' r'' hr'' he' => h.apart key' r.key r'' r e hr'' hr he' he
  · intro r'' hr''
    rw [DeviceCache.setRoute, Table.find?_modify_self _ hr] at hr''
    cases hr''
    exact ⟨v, rfl, (himage r').trans hv⟩
  · exact fun _ _ => ⟨r', Table.find?_modify_self _ hr⟩

/-- The first egress sub-group of a group shows in all routes of the group, and only there. -/
theorem writeAll {id subGroup : Handle} {g g' : Group} {entries : List Entry}
    {keys : List RouteKey} (h : Routed config m d c E) (hg : c.groups.find? id = some g)
    (hrpf : g'.rpfGroup = g.rpfGroup) (hipmc : g'.ipmcGroup = subGroup)
    (hkeys : ∀ key, key ∈ keys ↔ ∃ r, c.routes.find? key = some r ∧ r.group = id)
    (hentries : entries.map some = keys.map (entryAt m d)) :
    Routed config m d (c.setGroup id g') (E.writeAll d (.outputGroup subGroup) entries) := by
  have hmem : ∀ e', e' ∈ entries ↔ ∃ key ∈ keys, entryAt m d key = some e' := by
    intro e'
    have hsome : some e' ∈ entries.map some ↔ e' ∈ entries := by simp
    rw [← hsome, hentries, List.mem_map]
  refine ⟨?_, ?_, h.apart⟩
  · intro key r hr
    obtain ⟨e, v, he, hv, hE⟩ := h.shown key r hr
    obtain ⟨g₀, iif, hg₀, hiif, rfl⟩ := DeviceCache.imageOf_eq_some_iff.mp hv
    by_cases hgroup : r.group = id
    · obtain rfl : g₀ = g := Option.some.inj ((hgroup ▸ hg₀).symm.trans hg)
      have he' : e ∈ entries := (hmem e).mpr ⟨key, (hkeys key).mpr ⟨r, hr, hgroup⟩, he⟩
      refine ⟨e, (config.image g₀ iif r.copyToCpu).write (.outputGroup subGroup), he, ?_, ?_⟩
      · refine DeviceCache.imageOf_eq_some_iff.mpr ⟨g', iif, ?_, hiif, ?_⟩
        · rw [hgroup]
          exact Table.find?_modify_self _ hg
        · rw [Config.image, hrpf, hipmc]
          rfl
      · rw [Programming.writeAll, if_pos ⟨rfl, he'⟩, hE]
        rfl
    · refine ⟨e, config.image g₀ iif r.copyToCpu, he, ?_, ?_⟩
      · refine DeviceCache.imageOf_eq_some_iff.mpr ⟨g₀, iif, ?_, hiif, rfl⟩
        exact (Table.find?_modify_of_ne _ _ hgroup).trans hg₀
      · rw [Programming.writeAll, if_neg, hE]
        rintro ⟨_, he'⟩
        obtain ⟨key', hkey', heq⟩ := (hmem e).mp he'
        obtain ⟨r', hr', hgroup'⟩ := (hkeys key').mp hkey'
        obtain rfl := h.apart key key' r r' e hr hr' he heq
        obtain rfl : r = r' := Option.some.inj (hr.symm.trans hr')
        exact hgroup hgroup'
  · intro e v hv
    rw [Programming.writeAll] at hv
    split at hv
    · obtain ⟨v₀, hv₀, _⟩ := Option.map_eq_some_iff.mp hv
      exact h.only e v₀ hv₀
    · exact h.only e v hv

end Routed

/-- The cache of a device against the books. `others` is what other devices hold. -/
structure Ledger (config : Config) (m : Mappings) (d : DeviceId) (others : List Holding)
    (c : DeviceCache) (items : List (Handle × Switch.Object)) (E : Programming) : Prop where
  objects : Matched m (c.holdings d ++ others) items
  routed : Routed config m d c E
  /-- Egress members have their sub-group. -/
  rooted : ∀ id g, c.groups.find? id = some g → g.ipmcGroup.isNull = true →
    g.members.list .ipmc = []

theorem PortsMatch.ofPorts {m : Mappings} {d : DeviceId} {ports : List Port}
    {handles : List Handle}
    (h : handles.map some = ports.map fun p => m.find? (d, .port p)) :
    PortsMatch m d (.ofPorts ports) handles where
  registered := by
    intro p hp
    have hp : p ∈ ports := KeySet.mem_ofList.mp (Table.mem_keys_iff.mpr hp)
    have hmem : m.find? (d, .port p) ∈ handles.map some := h ▸ List.mem_map.mpr ⟨p, hp, rfl⟩
    obtain ⟨h, hh, heq⟩ := List.mem_map.mp hmem
    exact ⟨h, heq.symm, hh⟩
  only := by
    intro h' hh'
    have hmem : some h' ∈ ports.map fun p => m.find? (d, .port p) :=
      h ▸ List.mem_map.mpr ⟨h', hh', rfl⟩
    obtain ⟨p, hp, heq⟩ := List.mem_map.mp hmem
    exact ⟨p, Table.mem_keys_iff.mp (KeySet.mem_ofList.mpr hp), heq⟩

theorem PortsMatch.empty (m : Mappings) (d : DeviceId) : PortsMatch m d ∅ [] where
  registered := by
    intro p hp
    cases hp
  only := by
    intro h hh
    cases hh

namespace Ledger

variable {config : Config} {m : Mappings} {d : DeviceId} {others : List Holding}
  {c c' : DeviceCache} {items : List (Handle × Switch.Object)} {E E' : Programming} {id : Handle}
  {g g' : Group} {role : Role} {rif : RifId} {member : Member}

theorem of_tables (h : Ledger config m d others c items E) (hg : c'.groups = c.groups)
    (hr : c'.routes = c.routes) : Ledger config m d others c' items E where
  objects := DeviceCache.holdings_of_groups hg ▸ h.objects
  routed := h.routed.refile hr fun _ _ _ => by rw [DeviceCache.imageOf, hg]; rfl
  rooted := hg ▸ h.rooted

theorem rooted_setGroup (h : Ledger config m d others c items E)
    (hg : c.groups.find? id = some g)
    (hrooted : g'.ipmcGroup.isNull = true → g'.members.list .ipmc = []) (id' : Handle)
    (g₀ : Group) (hg₀ : (c.setGroup id g').groups.find? id' = some g₀)
    (hnull : g₀.ipmcGroup.isNull = true) : g₀.members.list .ipmc = [] := by
  by_cases hid : id' = id
  · rw [hid, DeviceCache.find?_setGroup hg] at hg₀
    cases hg₀
    exact hrooted hnull
  · exact h.rooted id' g₀ ((Table.find?_modify_of_ne _ _ hid).symm.trans hg₀) hnull

/-- A group without egress sub-group has ingress members only. -/
theorem role_eq_rpf (h : Ledger config m d others c items E) (hg : c.groups.find? id = some g)
    (hm : (g.members.ofRole role).find? rif = some member)
    (hnull : g.ipmcGroup.isNull = true) : role = .rpf := by
  cases role with
  | rpf => rfl
  | ipmc =>
    have hempty : g.members.ofRole .ipmc = ∅ :=
      Table.eq_empty_of_values_eq_nil (h.rooted id g hg hnull)
    rw [hempty] at hm
    cases hm

/-- A group that gains holdings, with the objects made for them. -/
theorem grow (h : Ledger config m d others c items E) (front : List Holding)
    (made : List (Handle × Switch.Object)) (hg : c.groups.find? id = some g)
    (hheld : (g'.holdings d).Perm (front ++ g.holdings d))
    (hmade : List.Forall₂ (Holding.Fits m) front made)
    (hrouted : Routed config m d (c.setGroup id g') E')
    (hrooted : g'.ipmcGroup.isNull = true → g'.members.list .ipmc = []) :
    Ledger config m d others (c.setGroup id g') (made ++ items) E' where
  objects := by
    refine (h.objects.append_left hmade).perm_held ?_
    rw [← List.append_assoc]
    exact (DeviceCache.holdings_setGroup_cons front hg hheld).symm.append_right _
  routed := hrouted
  rooted := h.rooted_setGroup hg hrooted

/-- A group that is about to lose a holding, with its object. -/
theorem shrink {x : Holding} (h : Ledger config m d others c items E)
    (hg : c.groups.find? id = some g) (hheld : (g.holdings d).Perm (x :: g'.holdings d))
    (hrouted : Routed config m d (c.setGroup id g') E)
    (hrooted : g'.ipmcGroup.isNull = true → g'.members.list .ipmc = []) :
    ∃ o items', items.Perm ((x.handle, o) :: items') ∧ x.Fits m (x.handle, o) ∧
      Ledger config m d others (c.setGroup id g') items' E := by
  have hcache : (c.holdings d).Perm (x :: (c.setGroup id g').holdings d) := by
    refine (DeviceCache.holdings_eraseGroup hg).trans ((hheld.append_right _).trans ?_)
    exact (DeviceCache.holdings_setGroup hg g').symm.cons x
  obtain ⟨o, items', hperm, hfits, hrest⟩ :=
    (h.objects.perm_held (hcache.append_right others)).uncons
  exact ⟨o, items', hperm, hfits, hrest, hrouted, h.rooted_setGroup hg hrooted⟩

/-- Routes show the sub-groups of their group, whatever else of the group changes. -/
theorem routed_setGroup (h : Ledger config m d others c items E)
    (hg : c.groups.find? id = some g) (hrpf : g'.rpfGroup = g.rpfGroup)
    (hipmc : g'.ipmcGroup = g.ipmcGroup) : Routed config m d (c.setGroup id g') E :=
  h.routed.refile rfl fun _ r _ => DeviceCache.imageOf_modify hg hrpf hipmc _ _ _ _ r

theorem routed_setUnused (h : Ledger config m d others c items E)
    (hunused : ∀ key r, c.routes.find? key = some r → r.group ≠ id) (g' : Group) :
    Routed config m d (c.setGroup id g') E := by
  refine h.routed.refile rfl fun key r hr => ?_
  unfold DeviceCache.imageOf DeviceCache.setGroup
  rw [Table.find?_modify_of_ne _ _ (hunused key r hr)]

theorem withMember (h : Ledger config m d others c items E) (member : Member)
    (hg : c.groups.find? id = some g)
    (hfree : (g.members.ofRole role).find? member.rif = none)
    (hnull : (g.subGroup role).isNull = false) {handles : List Handle}
    (hports : PortsMatch m d member.ports handles) :
    Ledger config m d others (c.setGroup id (g.withMember role member none))
      ((member.handle, ⟨d, .member role, some (g.subGroup role), handles⟩) :: items) E := by
  refine h.grow [g.memberHolding d role member]
    [(member.handle, ⟨d, .member role, some (g.subGroup role), handles⟩)] hg
    (Group.holdings_withMember hfree) (.cons ⟨rfl, rfl, rfl, rfl, hports⟩ .nil)
    (h.routed_setGroup hg rfl rfl) ?_
  intro hipmc
  have hbefore : g.ipmcGroup.isNull = true := hipmc
  cases role with
  | rpf => exact h.rooted id g hg hbefore
  | ipmc =>
    have hthere : g.ipmcGroup.isNull = false := hnull
    rw [hbefore] at hthere
    cases hthere

/-- The first egress member, with its sub-group. -/
theorem withFirst {subGroup : Handle} {entries : List Entry} {keys : List RouteKey}
    (h : Ledger config m d others c items E) (member : Member) (hid : g.id = id)
    (hg : c.groups.find? id = some g)
    (hsub : subGroup.isNull = false) (hnull : g.ipmcGroup.isNull = true) {handles : List Handle}
    (hports : PortsMatch m d member.ports handles)
    (hkeys : ∀ key, key ∈ keys ↔ ∃ r, c.routes.find? key = some r ∧ r.group = id)
    (hentries : entries.map some = keys.map (entryAt m d)) :
    Ledger config m d others (c.setGroup id (g.withMember .ipmc member (some subGroup)))
      ((member.handle, ⟨d, .member .ipmc, some subGroup, handles⟩) ::
        (subGroup, ⟨d, .subGroup .ipmc, some id, []⟩) :: items)
      (E.writeAll d (.outputGroup subGroup) entries) := by
  refine h.grow _ _ hg (Group.holdings_withFirst hsub hnull (h.rooted id g hg hnull))
    (.cons ⟨rfl, rfl, rfl, rfl, hports⟩ (.cons ?_ .nil))
    (h.routed.writeAll hg rfl rfl hkeys hentries) ?_
  · exact ⟨rfl, rfl, rfl, congrArg some hid.symm, .empty m d⟩
  · intro hnull'
    have hnull' : subGroup.isNull = true := hnull'
    rw [hsub] at hnull'
    cases hnull'

/-- A member that is there has its object, and may go. -/
theorem withoutMember (h : Ledger config m d others c items E)
    (hg : c.groups.find? id = some g)
    (hm : (g.members.ofRole role).find? rif = some member) :
    ∃ o items', items.Perm ((member.handle, o) :: items') ∧
      (g.memberHolding d role member).Fits m (member.handle, o) ∧
      Ledger config m d others (c.setGroup id (g.withoutMember role rif)) items' E := by
  apply h.shrink hg (Group.holdings_withoutMember hm) (h.routed_setGroup hg rfl rfl)
  intro hnull
  obtain rfl := h.role_eq_rpf hg hm hnull
  exact h.rooted id g hg hnull

/-- New ports of a member, in the cache and on the books. -/
theorem withPorts (h : Ledger config m d others c items E)
    (hg : c.groups.find? id = some g)
    (hm : (g.members.ofRole role).find? rif = some member) {ports : PortSet}
    {handles : List Handle} (hports : PortsMatch m d ports handles) :
    ∃ o items', items.Perm ((member.handle, o) :: items') ∧
      Ledger config m d others (c.setGroup id (g.withPorts role rif ports))
        ((member.handle, { o with bridgePorts := handles }) :: items') E := by
  obtain ⟨o, items', hperm, hfits, hrest⟩ := h.withoutMember hg hm
  refine ⟨o, items', hperm, ?_⟩
  have hg' := DeviceCache.find?_setGroup hg (g.withoutMember role rif)
  have hrouted : Routed config m d ((c.setGroup id (g.withoutMember role rif)).setGroup id
      (g.withPorts role rif ports)) E := by
    rw [DeviceCache.setGroup_setGroup]
    exact h.routed_setGroup hg rfl rfl
  have hgrown := hrest.grow [g.memberHolding d role { member with ports := ports }]
    [(member.handle, { o with bridgePorts := handles })] hg' (Group.holdings_withPorts hm ports)
    (.cons ⟨rfl, hfits.device, hfits.kind, hfits.parent, hports⟩ .nil) hrouted
  rw [DeviceCache.setGroup_setGroup] at hgrown
  refine hgrown ?_
  intro hnull
  obtain rfl := h.role_eq_rpf hg hm hnull
  exact h.rooted id g hg hnull

/-- The sub-group of a role without members, in a group without routes, may go. -/
theorem withoutSubGroup (h : Ledger config m d others c items E)
    (hg : c.groups.find? id = some g)
    (hunused : ∀ key r, c.routes.find? key = some r → r.group ≠ id)
    (hnull : (g.subGroup role).isNull = false) (hempty : g.members.list role = []) :
    ∃ o items', items.Perm ((g.subGroup role, o) :: items') ∧
      Holding.Fits m ⟨g.subGroup role, d, .subGroup role, some g.id, ∅⟩ (g.subGroup role, o) ∧
      Ledger config m d others (c.setGroup id (g.withoutSubGroup role)) items' E := by
  apply h.shrink hg (Group.holdings_withoutSubGroup hnull hempty) (h.routed_setUnused hunused _)
  intro hnull'
  rw [Group.members_withoutSubGroup]
  cases role with
  | rpf => exact h.rooted id g hg hnull'
  | ipmc => exact hempty

/-- A group of which nothing else is left may go. -/
theorem eraseGroup (h : Ledger config m d others c items E) (hid : g.id = id)
    (hg : c.groups.find? id = some g)
    (hunused : ∀ key r, c.routes.find? key = some r → r.group ≠ id)
    (hrpf : g.roleHoldings d .rpf = []) (hipmc : g.roleHoldings d .ipmc = []) :
    ∃ o items', items.Perm ((id, o) :: items') ∧
      Holding.Fits m ⟨id, d, .group, none, ∅⟩ (id, o) ∧
      Ledger config m d others (c.eraseGroup id) items' E := by
  have hheld := (DeviceCache.holdings_eraseGroup (d := d) hg).append_right others
  rw [Group.holdings, hrpf, hipmc, hid] at hheld
  obtain ⟨o, items', hperm, hfits, hrest⟩ := (h.objects.perm_held hheld).uncons
  refine ⟨o, items', hperm, hfits, hrest, ?_, ?_⟩
  · refine h.routed.refile rfl fun key r hr => ?_
    unfold DeviceCache.imageOf DeviceCache.eraseGroup
    rw [Table.find?_erase_of_ne _ (hunused key r hr)]
  · intro id' g' hg'
    by_cases hid' : id' = id
    · rw [hid', DeviceCache.eraseGroup, Table.find?_erase_self] at hg'
      cases hg'
    · exact h.rooted id' g' ((Table.find?_erase_of_ne _ hid').symm.trans hg')

theorem insertGroup {front : List Holding} {made : List (Handle × Switch.Object)}
    (h : Ledger config m d others c items E) (hnone : c.groups.find? g.id = none)
    (hunused : ∀ key r, c.routes.find? key = some r → r.group ≠ g.id)
    (hheld : (g.holdings d).Perm front) (hmade : List.Forall₂ (Holding.Fits m) front made)
    (hrooted : g.ipmcGroup.isNull = true → g.members.list .ipmc = []) :
    Ledger config m d others (c.insertGroup g) (made ++ items) E where
  objects := by
    refine (h.objects.append_left hmade).perm_held ?_
    rw [← List.append_assoc]
    have hinsert := (DeviceCache.holdings_insertGroup (d := d) hnone).symm
    exact ((hheld.symm.append_right _).trans hinsert).append_right others
  routed := by
    refine h.routed.refile rfl fun key r hr => ?_
    unfold DeviceCache.imageOf DeviceCache.insertGroup
    rw [Table.find?_insert_of_ne _ _ (hunused key r hr)]
  rooted := by
    intro id' g' hg' hnull
    by_cases hid' : id' = g.id
    · rw [hid', DeviceCache.find?_insertGroup] at hg'
      cases hg'
      exact hrooted hnull
    · exact h.rooted id' g' ((Table.find?_insert_of_ne _ _ hid').symm.trans hg') hnull

/-! Routes -/

/-- Keys filed in a group are no holdings. -/
theorem refile (h : Ledger config m d others c items E) (hg : c.groups.find? id = some g)
    (s : KeySet RouteKey) (f : Family) :
    Ledger config m d others (c.setGroup id (g.setEntries s f)) items E := by
  refine h.grow [] [] hg (.of_eq (Group.holdings_setEntries g s f)) .nil
    (h.routed_setGroup hg (by simp) (by simp)) ?_
  intro hnull
  rw [Group.setEntries_ipmcGroup] at hnull
  rw [Group.setEntries_members]
  exact h.rooted id g hg hnull

theorem reroute (h : Ledger config m d others c items E) (hgroups : c'.groups = c.groups)
    (hrouted : Routed config m d c' E') : Ledger config m d others c' items E' where
  objects := DeviceCache.holdings_of_groups hgroups ▸ h.objects
  routed := hrouted
  rooted := hgroups ▸ h.rooted

variable {r r' : Route} {e : Entry} {v : RouteImage}

theorem insertRoute (h : Ledger config m d others c items E)
    (hg : c.groups.find? r.group = some g) (hfree : E (d, e) = none)
    (he : entryAt m d r.key = some e) (hv : c.imageOf config m d r = some v) :
    Ledger config m d others (c.insertRoute r g) items (E.set (d, e) (some v)) :=
  (h.refile hg _ _).reroute rfl (h.routed.insertRoute hg hfree he hv)

theorem eraseRoute (h : Ledger config m d others c items E)
    (hr : c.routes.find? r.key = some r) (hg : c.groups.find? r.group = some g)
    (he : entryAt m d r.key = some e) :
    Ledger config m d others (c.eraseRoute r g) items (E.set (d, e) none) :=
  (h.refile hg _ _).reroute rfl (h.routed.eraseRoute hr hg he)

theorem setRoute (h : Ledger config m d others c items E)
    (hr : c.routes.find? r.key = some r) (hg : c.groups.find? r.group = some g)
    (hg' : c.groups.find? r'.group = some g') (he : entryAt m d r.key = some e)
    (hv : c.imageOf config m d r' = some v) :
    Ledger config m d others (c.setRoute r g r' g') items (E.set (d, e) (some v)) := by
  have hrouted := h.routed.setRoute hr hg hg' he hv
  by_cases hsame : r.group = r'.group
  · exact h.reroute (if_pos hsame) hrouted
  · have hg₁ : (c.setGroup r.group (g.dropKey r.key)).groups.find? r'.group = some g' :=
      (Table.find?_modify_of_ne _ _ (Ne.symm hsame)).trans hg'
    exact ((h.refile hg _ _).refile hg₁ _ _).reroute (if_neg hsame) hrouted

end Ledger

/-- What is made for a new group is what the group holds. -/
theorem Orchestrator.Draft.made_fits (m : Mappings) (d : DeviceId) (draft : Orchestrator.Draft)
    (owner : Owner) : ∃ front,
      ((Group.new draft.group owner draft.rpfGroup draft.ipmcGroup).holdings d).Perm front ∧
        List.Forall₂ (Holding.Fits m) front (draft.made d) := by
  let g := Group.new draft.group owner draft.rpfGroup draft.ipmcGroup
  have hrole : ∀ role, List.Forall₂ (Holding.Fits m) (g.roleHoldings d role)
      (Orchestrator.subGroupItems d role draft.group (g.subGroup role)) := by
    intro role
    have hheld : g.roleHoldings d role = if (g.subGroup role).isNull then []
        else [⟨g.subGroup role, d, .subGroup role, some draft.group, ∅⟩] := by
      cases role <;> exact List.append_nil _
    unfold Orchestrator.subGroupItems
    rw [hheld]
    split
    · exact .nil
    · exact .cons ⟨rfl, rfl, rfl, rfl, .empty m d⟩ .nil
  refine ⟨g.roleHoldings d .rpf ++ (g.roleHoldings d .ipmc ++ [⟨g.id, d, .group, none, ∅⟩]), ?_,
    List.rel_append (hrole .rpf) (List.rel_append (hrole .ipmc)
      (.cons ⟨rfl, rfl, rfl, rfl, .empty m d⟩ .nil))⟩
  rw [← List.append_assoc]
  exact (List.perm_append_singleton _ _).symm

end Multicast
