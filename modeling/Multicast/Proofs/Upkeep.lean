import Multicast.Proofs.Passage

/-! What operations make of the cache of their device, whatever the hardware answers. One that fails
leaves the cache as it was, but for a rollback that it counts and a delete that got half way. The
checks of the caller's part come before the first call. -/
namespace Multicast

variable {σ α : Type} {hw : Hardware σ}

def OpError.OfHardware (e : OpError) : Prop := ∃ call x, e = .hardware call x

namespace Run

/-- The run is back at the cache `c`, with one more rollback at most. -/
def Recovers (T : Course hw) (r : Run σ) (c : DeviceCache) (r' : Run σ) : Prop :=
  r.Reaches T c r' ∨ r.Reaches T c.rolledBack r'

/-- The cache of `r` has changed on the way to `r'`, and has these routes there. -/
def Arrives (T : Course hw) (max : Nat) (r : Run σ) (routes : RouteTable) (r' : Run σ) : Prop :=
  ∃ c, r.cache.Changes max c ∧ c.routes = routes ∧ r.Reaches T c r'

/-- How an operation that started in `r` fails: through its caller and before the first call,
through the hardware, or for want of a name in `late`, which it looks up between calls. -/
inductive Fails (r : Run σ) (late : Lookup → Prop) : OpError → Run σ → Prop where
  | early {e : OpError} {r' : Run σ} (hkind : e.kind ≠ .fail) (h : r'.events = r.events) :
    Fails r late e r'
  | hardware {e : OpError} (h : e.OfHardware) (r' : Run σ) : Fails r late e r'
  | late {l : Lookup} (h : late l) (r' : Run σ) : Fails r late (.unresolved l) r'

variable {T : Course hw} {r r' : Run σ} {c : DeviceCache}

theorem Recovers.cache (h : r.Recovers T c r') : c.Recovers r'.cache :=
  h.imp Reaches.cache Reaches.cache

/-- Before the first call a failure changes nothing. -/
theorem Looks.stops {late : Lookup → Prop} {e : OpError} (h : r.Looks T r')
    (hkind : e.kind ≠ .fail) : r.Recovers T r.cache r' ∧ r.Fails late e r' :=
  ⟨.inl h.reaches, .early hkind h.events⟩

theorem Arrives.upholds {max : Nat} {routes : RouteTable} (h : r.Arrives T max routes r')
    (hI : r.cache.Intact max) : r'.Upholds max routes := by
  obtain ⟨c, hc, hroutes, hr⟩ := h
  exact hroutes ▸ (hc.intact hI).upholds hr.holds

theorem Arrives.trans {r'' : Run σ} {max : Nat} {routes routes' : RouteTable}
    (h : r.Arrives T max routes r') (h' : r'.Arrives T max routes' r'') :
    r.Arrives T max routes' r'' := by
  obtain ⟨c, hc, -, hr⟩ := h
  obtain ⟨c', hc', hroutes, hr'⟩ := h'
  exact ⟨c', hc.trans (hr.cache ▸ hc'), hroutes, hr.trans hr'⟩

theorem Arrives.routes {max : Nat} {routes : RouteTable} (h : r.Arrives T max routes r') :
    r'.cache.routes = routes := by
  obtain ⟨c, -, hroutes, hr⟩ := h
  rw [hr.cache, hroutes]

theorem Arrives.refl (T : Course hw) (max : Nat) (r : Run σ) :
    r.Arrives T max r.cache.routes r :=
  ⟨r.cache, .refl max _, rfl, .refl T r⟩

theorem Recovers.arrives (h : r.Recovers T r.cache r') (max : Nat) :
    r.Arrives T max r.cache.routes r' := by
  rcases h with h | h
  · exact ⟨_, .refl max _, rfl, h⟩
  · exact ⟨_, DeviceCache.Change.rollBack.changes, rfl, h⟩

theorem Arrives.note {r₀ : Run σ} {max : Nat} {routes : RouteTable} (h : r₀.Arrives T max routes r)
    (level : Log.Level) (message : String) {E : OpError → Run σ → Prop} :
    (Act.note level message).Ends r (fun _ r' => r₀.Arrives T max routes r') E := by
  obtain ⟨c, hc, hroutes, hr⟩ := h
  -- any device will do, as nothing is called
  exact ⟨c, hc, hroutes, ((still_frame T ⟨0⟩).note level message).still hr⟩

theorem Reaches.rollBack (h : r.Reaches T c r') :
    (Effect.countRollback : Effect σ Unit).Ends r' fun _ r'' => r.Reaches T c.rolledBack r'' :=
  h.count _

end Run

/-- On a device with an intact cache the steps change its routes by `f`, or fail and leave the cache
as it was. Of names that they look up between calls, they may miss those in `late`. -/
def Act.Carries (T : Course hw) (max : Nat) (f : RouteTable → RouteTable)
    (late : Run σ → Lookup → Prop) (act : Act σ α) : Prop :=
  ∀ r, r.cache.Intact max →
    act.Ends r (fun _ r' => r.Arrives T max (f r.cache.routes) r')
      fun e r' => r.Recovers T r.cache r' ∧ r.Fails (late r) e r'

/-- What is left of that without a word about the steps. -/
def Act.Upholds (max : Nat) (f : RouteTable → RouteTable) (act : Act σ α) : Prop :=
  ∀ c r, c.Intact max → r.cache = c →
    act.Ends r (fun _ r' => r'.Upholds max (f c.routes)) fun _ r' => c.Recovers r'.cache

theorem Act.Carries.upholds {T : Course hw} {max : Nat} {f : RouteTable → RouteTable}
    {late : Run σ → Lookup → Prop} {act : Act σ α} (h : act.Carries T max f late) :
    act.Upholds max f := by
  rintro _ r hI rfl
  exact (h r hI).mono (fun _ _ h' => h'.upholds hI) fun _ _ h' => h'.1.cache

namespace Orchestrator

variable {o : Orchestrator σ} {T : Course o.hardware} {d : DeviceId} {max : Nat} {r₀ r : Run σ}
  {c : DeviceCache} {id : Handle} {g : Group} {role : Role} {spec : MemberSpec}

/-! Members -/

theorem addToSubGroup_ends (hr : r₀.Reaches T c r) (hg : c.groups.find? id = some g)
    (hcheck : g.members.checkAdd role spec.rif = .ok ()) (subGroup rif : Handle)
    (ports : List Handle) :
    (o.addToSubGroup d id role subGroup rif ports spec).Ends r
      (fun _ r' => ∃ h,
        r₀.Reaches T (c.setGroup id (g.withMember role (.ofSpec h spec) none)) r')
      fun e r' => r₀.Reaches T c r' ∧ e.OfHardware := by
  refine (Act.request_ends hr _).bind ?_ fun _ _ h => ⟨h.1, _, h.2⟩
  rintro member r₁ ⟨hr₁, -⟩
  apply Act.Ends.orCleanUp (F := fun _ _ => False)
  · refine (commitMember_ends (m := .ofSpec member spec) hr₁.holds hg hcheck none).mono ?_
      fun _ _ h => h
    exact fun _ r' hr' => ⟨member, hr₁.commit hr' rfl⟩
  · exact fun _ _ h => h.elim

theorem repoint_ends (hr : r₀.Reaches T c r) (undo : Bool) (subGroup : Handle)
    (visited : List Entry) (keys : List RouteKey) :
    (o.repoint d undo subGroup visited keys).Ends r (fun _ r' => r₀.Reaches T c r')
      fun e r' => r₀.Reaches T c r' ∧
        (e.OfHardware ∨ ∃ l, e = .unresolved l ∧ T.MissesRouter d keys l r₀.state) := by
  have hS := still_frame T d
  induction keys generalizing r visited with
  | nil => exact hr
  | cons key rest ih =>
    rw [repoint]
    refine Act.Ends.bind (P := fun _ r' => r₀.Reaches T c r') (Act.Ends.orCleanUp (F := fun e r' =>
      r₀.Reaches T c r' ∧ (e.OfHardware ∨
        ∃ l, e = .unresolved l ∧ T.MissesRouter d (key :: rest) l r₀.state)) ?_ ?_)
      (fun entry r₁ hr₁ => (ih hr₁ _).mono (fun _ _ h => h) ?_) fun _ _ h => h
    · refine (Act.entryOf_ends T d key r).bind ?_ ?_
      · intro entry r₁ hlook
        have hr₁ := hr.trans (hr.cache ▸ hlook.reaches)
        refine (Act.call_ends hr₁ undo _).bind (fun _ _ h => h.1) ?_
        exact fun _ _ h => ⟨h.1, .inl ⟨_, h.2⟩⟩
      · rintro e r₁ ⟨hlook, he, hmiss⟩
        exact ⟨hr.trans (hr.cache ▸ hlook.reaches), .inr ⟨_, he, ⟨key, List.mem_cons_self, rfl⟩,
          hmiss.of_leads hr.course⟩⟩
    · rintro e r₁ ⟨hr₁, he⟩
      refine ((hS.forM (fun _ => hS.undo _ _ (by simp)) visited).still hr₁).mono
        fun _ _ h => ⟨h, he⟩
    · rintro e r₂ ⟨hr₂, he⟩
      refine ⟨hr₂, he.imp_right ?_⟩
      rintro ⟨l, he, ⟨key', hkey', hl⟩, hmiss⟩
      exact ⟨l, he, ⟨key', List.mem_cons_of_mem _ hkey', hl⟩, hmiss⟩

theorem addFirstEgress_ends (hr : r₀.Reaches T c r) (hg : c.groups.find? id = some g)
    (hcheck : g.members.checkAdd .ipmc spec.rif = .ok ()) (routes : List RouteKey) (rif : Handle)
    (ports : List Handle) :
    (o.addFirstEgress d id routes rif ports spec).Ends r
      (fun _ r' => ∃ subGroup h,
        r₀.Reaches T (c.setGroup id (g.withMember .ipmc (.ofSpec h spec) (some subGroup))) r')
      fun e r' => r₀.Recovers T c r' ∧
        (e.OfHardware ∨ ∃ l, e = .unresolved l ∧ T.MissesRouter d routes l r₀.state) := by
  have hS := still_frame T d
  refine (Act.request_ends hr _).bind ?_ fun _ _ h => ⟨.inl h.1, .inl ⟨_, h.2⟩⟩
  rintro subGroup r₁ ⟨hr₁, -⟩
  refine Act.Ends.lift ((hS.note _ _).still hr₁) fun _ r₂ hr₂ => ?_
  refine Act.Ends.andThen ((Act.request_ends hr₂ _).orCleanUp ?_) ?_
  · rintro e r' ⟨hr', he⟩
    refine ((hS.undoEgressGroup _ subGroup).still hr').bind fun _ _ h => ?_
    exact h.rollBack.mono fun _ _ h => ⟨.inr h, .inl ⟨_, he⟩⟩
  rintro member r₃ ⟨hr₃, -⟩
  refine Act.Ends.andThen ((repoint_ends hr₃ false subGroup [] routes).orCleanUp ?_) ?_
  · rintro e r' ⟨hr', he⟩
    refine ((hS.undoMember _ .ipmc member).still hr').bind fun _ r'' hr'' => ?_
    refine ((hS.undoEgressGroup _ subGroup).still hr'').bind fun _ _ h => ?_
    exact h.rollBack.mono fun _ _ h => ⟨.inr h, he⟩
  · intro _ r₄ hr₄
    apply Act.Ends.orCleanUp (F := fun _ _ => False)
    · refine (commitMember_ends (m := .ofSpec member spec) hr₄.holds hg hcheck _).mono ?_
        fun _ _ h => h
      exact fun _ r' hr' => ⟨subGroup, member, hr₄.commit hr' rfl⟩
    · exact fun _ _ h => h.elim

end Orchestrator

def MemberSpec.lookups (spec : MemberSpec) : List Lookup :=
  .rif spec.rif :: spec.ports.map .port

/-- A member may be added there. -/
def DeviceCache.Takes (c : DeviceCache) (id : Handle) (role : Role) (rif : RifId) : Prop :=
  ∃ g, c.groups.find? id = some g ∧ g.isComplete = true ∧ g.members.checkAdd role rif = .ok ()

theorem DeviceCache.not_takes_of_unusable {c : DeviceCache} {id : Handle} {role : Role}
    {rif : RifId} (h : ∀ g, c.groups.find? id = some g → g.isComplete = false) :
    ¬c.Takes id role rif := by
  rintro ⟨g, hg, hcomplete, -⟩
  rw [h g hg] at hcomplete
  cases hcomplete

theorem DeviceCache.not_takes_of_check {c : DeviceCache} {id : Handle} {role : Role} {rif : RifId}
    {g : Group} {e : CacheError} (hg : c.groups.find? id = some g)
    (he : g.members.checkAdd role rif = .error e) : ¬c.Takes id role rif := by
  rintro ⟨g', hg', -, hcheck⟩
  rw [hg] at hg'
  cases hg'
  rw [hcheck] at he
  cases he

/-- The cache with a new member, which has yet to be counted. -/
inductive DeviceCache.Gains (c : DeviceCache) (id : Handle) (role : Role) (spec : MemberSpec) :
    DeviceCache → Prop where
  | intro {g : Group} (hg : c.groups.find? id = some g) (hcomplete : g.isComplete = true)
    (hcheck : g.members.checkAdd role spec.rif = .ok ()) (h : Handle) (madeFor : Option Handle) :
    Gains c id role spec (c.setGroup id (g.withMember role (.ofSpec h spec) madeFor))

theorem DeviceCache.Gains.change {c c' : DeviceCache} {id : Handle} {role : Role}
    {spec : MemberSpec} (h : c.Gains id role spec c') (max : Nat) :
    c.Change max (c'.counted fun s => { s with membersAdded := s.membersAdded + 1 }) := by
  obtain ⟨hg, hcomplete, hcheck, h, madeFor⟩ := h
  exact .addMember (m := .ofSpec h spec) hg hcomplete hcheck madeFor

theorem DeviceCache.Gains.routes {c c' : DeviceCache} {id : Handle} {role : Role}
    {spec : MemberSpec} (h : c.Gains id role spec c') : c'.routes = c.routes := by
  cases h
  rfl

/-- The cache has changed on the way to `c'`. Its routes are the same, and the group is `g`
there. -/
structure DeviceCache.Strips (max : Nat) (c : DeviceCache) (id : Handle) (g : Group)
    (c' : DeviceCache) : Prop where
  changes : c.Changes max c'
  routes : c'.routes = c.routes
  group : c'.groups.find? id = some g

namespace DeviceCache.Strips

variable {max : Nat} {c c' c'' : DeviceCache} {id : Handle} {g g' : Group}

theorem refl (max : Nat) (hg : c.groups.find? id = some g) : c.Strips max id g c :=
  ⟨.refl max c, rfl, hg⟩

theorem trans (h : c.Strips max id g c') (h' : c'.Strips max id g' c'') : c.Strips max id g' c'' :=
  ⟨h.changes.trans h'.changes, h'.routes.trans h.routes, h'.group⟩

end DeviceCache.Strips

/-- How adding a member fails that started in `r`. -/
inductive AddFails (T : Course hw) (d : DeviceId) (id : Handle) (role : Role) (spec : MemberSpec)
    (r : Run σ) : OpError → Run σ → Prop where
  | denied {e : OpError} {r' : Run σ} (hdenied : ¬r.cache.Takes id role spec.rif)
    (hkind : e.kind ≠ .fail) (h : r'.events = r.events) : AddFails T d id role spec r e r'
  | unnamed {l : Lookup} {r' : Run σ} (hl : l ∈ spec.lookups) (hmiss : T.Misses d l r.state)
    (h : r'.events = r.events) : AddFails T d id role spec r (.unresolved l) r'
  | hardware {e : OpError} (h : e.OfHardware) (r' : Run σ) : AddFails T d id role spec r e r'
  /-- The first egress member has to show in the routes of the group. -/
  | unrouted {g : Group} {l : Lookup} (hrole : role = .ipmc)
    (hg : r.cache.groups.find? id = some g) (hnull : g.ipmcGroup.isNull = true)
    (hl : T.MissesRouter d g.routeKeys l r.state) (r' : Run σ) :
    AddFails T d id role spec r (.unresolved l) r'

namespace Orchestrator

variable {o : Orchestrator σ} {T : Course o.hardware} {d : DeviceId} {max : Nat} {r₀ r : Run σ}
  {c : DeviceCache} {id : Handle} {g : Group} {role : Role} {spec : MemberSpec}

/-- For ingress there is nothing to roll back. -/
theorem addMember_ends (T : Course o.hardware) (d : DeviceId) (id : Handle) (role : Role)
    (spec : MemberSpec) (r : Run σ) :
    (o.addMember d id role spec).Ends r
      (fun _ r' => ∃ c, r.cache.Gains id role spec c ∧ r.Reaches T c r')
      fun e r' => (r.Recovers T r.cache r' ∧ (role = .rpf → r.Reaches T r.cache r')) ∧
        AddFails T d id role spec r e r' := by
  have hstay : ∀ {r' : Run σ}, r.Reaches T r.cache r' →
      r.Recovers T r.cache r' ∧ (role = .rpf → r.Reaches T r.cache r') :=
    fun h => ⟨.inl h, fun _ => h⟩
  refine Act.Ends.checkUsable (fun g hg hcomplete => ?_) fun _ hnone hkind =>
    ⟨hstay (.refl T r), .denied (DeviceCache.not_takes_of_unusable hnone) hkind rfl⟩
  refine Act.Ends.check (g.members.checkAdd_blameless role spec.rif) (fun _ hcheck => ?_)
    fun _ he hkind =>
      ⟨hstay (.refl T r), .denied (DeviceCache.not_takes_of_check hg he) hkind rfl⟩
  refine (Act.lookup_ends T d (.rif spec.rif) r).bind ?_ fun _ _ ⟨hlook, he, hmiss⟩ =>
    ⟨hstay hlook.reaches, he ▸ .unnamed List.mem_cons_self hmiss hlook.events⟩
  rintro rif r₁ ⟨hlook₁, -⟩
  refine (Act.lookupPorts_ends T d spec.ports r₁).bind ?_ fun _ _ ⟨hlook₂, p, hp, he, hmiss⟩ =>
    have hlook := hlook₁.trans hlook₂
    have hp : .port p ∈ spec.lookups := List.mem_cons_of_mem _ (List.mem_map_of_mem hp)
    ⟨hstay hlook.reaches, he ▸ .unnamed hp (hmiss.of_leads hlook₁.course) hlook.events⟩
  rintro ports r₂ ⟨hlook₂, -⟩
  have hr₂ := (hlook₁.trans hlook₂).reaches
  have hsub : ∀ subGroup, (o.addToSubGroup d id role subGroup rif ports spec).Ends r₂
      (fun _ r' => ∃ c, r.cache.Gains id role spec c ∧ r.Reaches T c r')
      fun e r' => (r.Recovers T r.cache r' ∧ (role = .rpf → r.Reaches T r.cache r')) ∧
        AddFails T d id role spec r e r' := by
    intro subGroup
    refine (addToSubGroup_ends hr₂ hg hcheck subGroup rif ports).mono ?_
      fun _ _ h => ⟨hstay h.1, .hardware h.2 _⟩
    exact fun _ _ ⟨h, hr'⟩ => ⟨_, .intro hg hcomplete hcheck h none, hr'⟩
  cases role with
  | rpf => exact hsub g.rpfGroup
  | ipmc =>
    cases hnull : g.ipmcGroup.isNull with
    | false => simpa using hsub g.ipmcGroup
    | true =>
      simp only [if_true]
      refine (addFirstEgress_ends hr₂ hg hcheck _ rif ports).mono ?_ ?_
      · exact fun _ _ ⟨subGroup, h, hr'⟩ =>
          ⟨_, .intro hg hcomplete hcheck h (some subGroup), hr'⟩
      · rintro e r' ⟨hr', he | ⟨l, rfl, ⟨key, hkey, hl⟩, hmiss⟩⟩
        · exact ⟨⟨hr', fun h => nomatch h⟩, .hardware he _⟩
        · have hkey := (o.order.perm g.routeKeys).mem_iff.mp hkey
          exact ⟨⟨hr', fun h => nomatch h⟩, .unrouted rfl hg hnull ⟨⟨key, hkey, hl⟩, hmiss⟩ _⟩

theorem addMember_upholds (d : DeviceId) (id : Handle) (role : Role) (spec : MemberSpec) :
    (o.addMember d id role spec).Upholds max fun routes => routes := by
  rintro _ r hI rfl
  refine (addMember_ends (.any o.hardware) d id role spec r).mono ?_ fun _ _ h => h.1.1.cache
  rintro _ r' ⟨c', hc', hr'⟩
  have hI' := (hc'.change max).intact hI
  exact ⟨hI'.of_tables (hr'.cache ▸ rfl) (hr'.cache ▸ rfl), hr'.cache ▸ hc'.routes⟩

theorem removeMember_ends (max : Nat) {rif : RifId} {m : Member} (hr : r₀.Reaches T c r)
    (hg : c.groups.find? id = some g) (hm : (g.members.ofRole role).find? rif = some m)
    (member : Handle) :
    (o.removeMember d id role rif member).Ends r
      (fun _ r' => ∃ c', c.Strips max id (g.withoutMember role rif) c' ∧ r₀.Reaches T c' r')
      fun e r' => r₀.Reaches T c r' ∧ e.OfHardware := by
  refine (Act.request_ends hr _).bind ?_ fun _ _ h => ⟨h.1, _, h.2⟩
  rintro _ r₁ ⟨hr₁, -⟩
  refine (Act.changeGroup_ends (g.withoutMember role rif) hr₁.holds hg ?_).andThen ?_
  · rw [MemberSet.remove_eq_ok_iff.mpr ⟨hm, rfl⟩]
    rfl
  · intro _ r₂ hr₂
    have hchange : c.Change max _ := .removeMember hg hm
    have hstrips : c.Strips max id (g.withoutMember role rif) _ :=
      ⟨hchange.changes, rfl, DeviceCache.find?_setGroup hg _⟩
    exact ⟨_, hstrips, (hr₁.commit hr₂ rfl).count _⟩

theorem changeMember_carries (T : Course o.hardware) (d : DeviceId) (max : Nat) (id : Handle)
    (op : MemberOp) (role : Role) (spec : MemberSpec) :
    (o.changeMember d id op role spec).Carries T max (fun routes => routes) fun r l =>
      op = .add ∧ role = .ipmc ∧ ∃ g, r.cache.groups.find? id = some g ∧
        g.ipmcGroup.isNull = true ∧ T.MissesRouter d g.routeKeys l r.state := by
  intro r hI
  refine Act.Ends.cache ?_
  refine Act.Ends.check (r.cache.groups.get_blameless id) (fun g hg => ?_)
    fun _ _ hkind => (Run.Looks.refl T r).stops hkind
  rw [GroupTable.get_eq_ok_iff] at hg
  cases op with
  | add =>
    refine (addMember_ends T d id role spec r).bind ?_ ?_
    · rintro _ r₁ ⟨c', hc', hr₁⟩
      refine Act.Ends.lift (hr₁.count _) fun _ r₂ hr₂ => ?_
      exact Run.Arrives.note ⟨_, (hc'.change max).changes, hc'.routes, hr₂⟩ _ _
    · rintro e r₁ ⟨⟨hr₁, -⟩, hfails⟩
      refine ⟨hr₁, ?_⟩
      cases hfails with
      | denied _ hkind h => exact .early hkind h
      | unnamed _ _ h => exact .early (fun h => nomatch h) h
      | hardware h => exact .hardware h _
      | unrouted hrole hg hnull hl => exact .late ⟨rfl, hrole, _, hg, hnull, hl⟩ _
  | delete =>
    refine Act.Ends.check (g.members.handle_blameless _ _) (fun member hmember => ?_)
      fun _ _ hkind => (Run.Looks.refl T r).stops hkind
    obtain ⟨m, hm, _⟩ := MemberSet.handle_eq_ok_iff.mp hmember
    refine (removeMember_ends max (.refl T r) hg hm member).bind ?_
      fun _ _ h => ⟨.inl h.1, .hardware h.2 _⟩
    rintro _ r₁ ⟨c', hc', hr₁⟩
    exact Run.Arrives.note ⟨c', hc'.changes, hc'.routes, hr₁⟩ _ _
  | update =>
    refine Act.Ends.check (g.members.handle_blameless _ _) (fun member hmember => ?_)
      fun _ _ hkind => (Run.Looks.refl T r).stops hkind
    obtain ⟨m, hm, _⟩ := MemberSet.handle_eq_ok_iff.mp hmember
    refine (Act.lookupPorts_ends T d spec.ports r).bind ?_ fun _ _ ⟨hlook, _, _, he, _⟩ =>
      hlook.stops (he ▸ fun h => nomatch h)
    rintro ports r₁ ⟨hlook, -⟩
    refine (Act.request_ends hlook.reaches _).bind ?_ fun _ _ h => ⟨.inl h.1, .hardware ⟨_, h.2⟩ _⟩
    rintro _ r₂ ⟨hr₂, -⟩
    refine (Act.changeGroup_ends (g.withPorts role spec.rif (.ofPorts spec.ports))
      hr₂.holds hg ?_).andThen ?_
    · rw [MemberSet.setPorts_eq_ok_iff.mpr ⟨⟨m, hm⟩, rfl⟩]
      rfl
    · intro _ r₃ hr₃
      refine Act.Ends.lift ((hr₂.commit hr₃ rfl).count _) fun _ r₄ hr₄ => ?_
      have hchange : r.cache.Change max _ := .setPorts hg role spec.rif (.ofPorts spec.ports)
      exact Run.Arrives.note ⟨_, hchange.changes, rfl, hr₄⟩ _ _

/-! Deleting groups -/

theorem removeMembers_ends {l : List Member} (hI : c.Intact max) (hr : r₀.Reaches T c r)
    (hg : c.groups.find? id = some g) (hl : g.members.list role = l) :
    (o.removeMembers d id role l).Ends r
      (fun _ r' => ∃ c', c.Strips max id (g.withoutMembers role) c' ∧ r₀.Reaches T c' r')
      fun e r' => (∃ c' g', c.Strips max id g' c' ∧ r₀.Reaches T c' r') ∧ e.OfHardware := by
  induction l generalizing r c g with
  | nil =>
    rw [Group.withoutMembers_eq_self hl]
    exact ⟨c, .refl max hg, hr⟩
  | cons m rest ih =>
    obtain ⟨rif, hm, hrest⟩ := Table.values_erase_head hl
    have hrif := (hI.groups id g hg).2.members role rif m hm
    subst hrif
    refine (removeMember_ends max hr hg hm m.handle).bind ?_
      fun _ _ h => ⟨⟨c, g, .refl max hg, h.1⟩, h.2⟩
    rintro _ r₁ ⟨c₁, hc₁, hr₁⟩
    have hnext := ih (hc₁.changes.intact hI) hr₁ hc₁.group (by
      simp only [Group.withoutMember, MemberSet.list, MemberSet.ofRole_setRole, if_true]
      exact hrest)
    rw [Group.withoutMembers_withoutMember] at hnext
    refine hnext.mono ?_ ?_
    · rintro _ _ ⟨c', hc', hr'⟩
      exact ⟨c', hc₁.trans hc', hr'⟩
    · rintro _ _ ⟨⟨c', g', hc', hr'⟩, he⟩
      exact ⟨⟨c', g', hc₁.trans hc', hr'⟩, he⟩

theorem removeSubGroup_ends (max : Nat) (hr : r₀.Reaches T c r) (hg : c.groups.find? id = some g)
    (huse : g.isInUse = false) (hempty : g.members.size role = 0) :
    (o.removeSubGroup d id role (g.subGroup role)).Ends r
      (fun _ r' => ∃ c', c.Strips max id (g.withoutSubGroup role) c' ∧ r₀.Reaches T c' r')
      fun e r' => r₀.Reaches T c r' ∧ e.OfHardware := by
  unfold removeSubGroup
  cases hnull : (g.subGroup role).isNull with
  | true =>
    rw [Group.withoutSubGroup_eq_self hnull]
    exact ⟨c, .refl max hg, hr⟩
  | false =>
    refine (Act.request_ends hr _).bind ?_ fun _ _ h => ⟨h.1, _, h.2⟩
    rintro _ r₁ ⟨hr₁, -⟩
    refine (Act.changeGroup_ends (g.withoutSubGroup role) hr₁.holds hg ?_).mono ?_ fun _ _ h => h
    · cases role <;> rfl
    · intro _ r₂ hr₂
      have hchange : c.Change max _ := .removeSubGroup hg huse hempty
      exact ⟨_, ⟨hchange.changes, rfl, DeviceCache.find?_setGroup hg _⟩, hr₁.commit hr₂ rfl⟩

theorem removeRole_ends (hI : c.Intact max) (hr : r₀.Reaches T c r)
    (hg : c.groups.find? id = some g) (huse : g.isInUse = false) (role : Role) :
    (do
      o.removeMembers d id role (g.members.list role)
      o.removeSubGroup d id role (g.subGroup role) : Act σ Unit).Ends r
      (fun _ r' => ∃ c', c.Strips max id (g.withoutRole role) c' ∧ r₀.Reaches T c' r')
      fun e r' => (∃ c' g', c.Strips max id g' c' ∧ r₀.Reaches T c' r') ∧ e.OfHardware := by
  refine (removeMembers_ends hI hr hg rfl).andThen ?_
  rintro _ r₁ ⟨c₁, hc₁, hr₁⟩
  have hempty : (g.withoutMembers role).members.size role = 0 := by
    simp only [Group.withoutMembers, MemberSet.size_setRole, if_true]
    rfl
  have hsame : g.subGroup role = (g.withoutMembers role).subGroup role := by cases role <;> rfl
  rw [hsame]
  refine (removeSubGroup_ends max hr₁ hc₁.group huse hempty).mono ?_
    fun _ _ h => ⟨⟨c₁, _, hc₁, h.1⟩, h.2⟩
  rintro _ _ ⟨c', hc', hr'⟩
  exact ⟨c', hc₁.trans hc', hr'⟩

/-- A delete that fails may have got half way. -/
theorem unmakeGroup_ends (T : Course o.hardware) (d : DeviceId) (id : Handle)
    (hI : r.cache.Intact max) :
    (o.unmakeGroup d id).Ends r (fun _ r' => r.Arrives T max r.cache.routes r')
      fun e r' => r.Arrives T max r.cache.routes r' ∧ r.Fails (fun _ => False) e r' := by
  have hstart := Run.Arrives.refl T max r
  have hstop : ∀ {c : DeviceCache} {g : Group} {e : OpError} {r' : Run σ},
      r.cache.Strips max id g c → r.Reaches T c r' → e.OfHardware →
      r.Arrives T max r.cache.routes r' ∧ r.Fails (fun _ => False) e r' :=
    fun hc hr he => ⟨⟨_, hc.changes, hc.routes, hr⟩, .hardware he _⟩
  refine Act.Ends.cache ?_
  refine Act.Ends.check (r.cache.groups.get_blameless id) (fun g hg => ?_)
    fun _ _ hkind => ⟨hstart, .early hkind rfl⟩
  rw [GroupTable.get_eq_ok_iff] at hg
  cases huse : g.isInUse with
  | true => exact ⟨hstart, .early (fun h => nomatch h) rfl⟩
  | false =>
    -- the ingress side goes first, then the egress side, then the group itself
    have hrpf := removeRole_ends (d := d) hI (.refl T r) hg huse .rpf
    refine (Act.ends_bind.mp hrpf).bind ?_ fun _ _ ⟨⟨_, _, hc, hr⟩, he⟩ => hstop hc hr he
    refine fun _ _ h => h.bind ?_ fun _ _ ⟨⟨_, _, hc, hr⟩, he⟩ => hstop hc hr he
    rintro _ r₁ ⟨c₁, hc₁, hr₁⟩
    have hipmc := removeRole_ends (d := d) (hc₁.changes.intact hI) hr₁ hc₁.group huse .ipmc
    refine (Act.ends_bind.mp hipmc).bind ?_
      fun _ _ ⟨⟨_, _, hc, hr⟩, he⟩ => hstop (hc₁.trans hc) hr he
    refine fun _ _ h => h.bind ?_ fun _ _ ⟨⟨_, _, hc, hr⟩, he⟩ => hstop (hc₁.trans hc) hr he
    rintro _ r₂ ⟨c₂, hc₂, hr₂⟩
    have hc₂ := hc₁.trans hc₂
    refine (Act.request_ends hr₂ _).bind ?_ fun _ _ h => hstop hc₂ h.1 ⟨_, h.2⟩
    rintro _ r₃ ⟨hr₃, -⟩
    refine (deleteGroup_ends hr₃.holds hc₂.group huse).andThen ?_
    intro _ r₄ hr₄
    refine Act.Ends.lift ((hr₃.commit hr₄ rfl).count _) fun _ r₅ hr₅ => ?_
    have hchange : c₂.Change max _ := .removeGroup hc₂.group huse fun role => by cases role <;> rfl
    exact Run.Arrives.note ⟨_, hc₂.changes.change hchange, hc₂.routes, hr₅⟩ _ _

/-! Making groups -/

theorem addEgressMembers_ends (specs : List MemberSpec) {routes : RouteTable}
    (h : r₀.Arrives T max routes r) :
    (o.addEgressMembers d id specs).Ends r fun _ r' => r₀.Arrives T max routes r' := by
  have hS := still_frame T d
  induction specs generalizing r with
  | nil => exact h
  | cons spec rest ih =>
    obtain rfl := h.routes
    refine Effect.ends_bind.mpr (Effect.Ends.mono (addMember_ends T d id .ipmc spec r) ?_)
    intro result r₁ hr₁
    cases result with
    | ok _ =>
      obtain ⟨c', hc', hr₁⟩ := hr₁
      refine (hr₁.count _).bind fun _ r₂ hr₂ => ih (h.trans ?_)
      exact ⟨_, (hc'.change max).changes, hc'.routes, hr₂⟩
    | error e =>
      have h₁ := hr₁.1.1.arrives max
      refine ((hS.note _ _).still (.refl T r₁)).bind fun _ r₂ hr₂ => ?_
      refine (hr₂.count _).bind fun _ r₃ hr₃ => ih ?_
      exact h.trans (h₁.trans ⟨_, DeviceCache.Change.missMember.changes, h₁.routes, hr₃⟩)

/-- However much was made, one rollback is counted. -/
theorem rollBack_ends (draft : Draft) (hr : r₀.Reaches T c r) :
    (o.rollBack d draft).Ends r fun _ r' => r₀.Reaches T c.rolledBack r' := by
  have hS := still_frame T d
  have hR := still_rollBack T d
  refine ((hS.undoMade _ _ _ (by nofun)).still hr).bind fun _ r₁ hr₁ => ?_
  refine ((hS.undoMade _ _ _ (by nofun)).still hr₁).bind fun _ r₂ hr₂ => ?_
  refine ((hS.undo_of_call _ _ (hR.undoGroup · _)).still hr₂).bind fun _ r₃ hr₃ => ?_
  refine hr₃.rollBack.bind fun _ r₄ hr₄ => ?_
  split
  · exact Effect.Keeps.still (fun r => hR.audit r _) hr₄
  · exact hr₄

theorem buildSubGroup_ends (role : Role) (what : String) (draft : Draft)
    (hr : r₀.Reaches T c r) :
    (o.buildSubGroup d role what draft).Ends r
      (fun h r' => r₀.Reaches T c r' ∧ T.Gives d role h r₀.state)
      fun e r' => r₀.Recovers T c r' ∧ e.OfHardware := by
  have hS := still_frame T d
  refine Act.Ends.orCleanUp (Act.Ends.mono (Act.request_ends hr _) ?_ fun _ _ h => h) ?_
  · rintro h r₁ ⟨hr₁, hgiven⟩
    exact ⟨hr₁, r.state, [draft.group], hr.course, hgiven⟩
  · rintro e r₁ ⟨hr₁, he⟩
    refine ((hS.note _ _).still hr₁).bind fun _ r₂ hr₂ => ?_
    exact (rollBack_ends draft hr₂).mono fun _ _ h => ⟨.inr h, _, he⟩

theorem buildGroup_ends (owner : Owner) (needed : Bool) (hr : r₀.Reaches T c r) :
    (o.buildGroup d owner needed).Ends r
      (fun draft r' => r₀.Reaches T c r' ∧
        (o.hardware.call d (.createGroup [owner]) r.state).1.result = .ok draft.group ∧
        T.Gives d .rpf draft.rpfGroup r₀.state)
      fun e r' => r₀.Recovers T c r' ∧ e.OfHardware := by
  refine (Act.request_ends hr _).bind ?_ fun _ _ h => ⟨.inl h.1, _, h.2⟩
  rintro group r₁ ⟨hr₁, hgroup⟩
  refine Act.Ends.andThen (P := fun _ r' => r₀.Reaches T c r') ?_ ?_
  · split
    · exact (buildSubGroup_ends _ _ _ hr₁).mono (fun _ _ h => h.1) fun _ _ h => h
    · exact hr₁
  · intro ipmcGroup r₂ hr₂
    refine (buildSubGroup_ends _ _ _ hr₂).andThen ?_
    exact fun _ _ ⟨hr₃, hgiven⟩ => ⟨hr₃, hgroup, hgiven⟩

/-- The cache with the new group, which is counted. -/
def Draft.cached (draft : Draft) (owner : Owner) (c : DeviceCache) : DeviceCache :=
  (c.insertGroup (.new draft.group owner draft.rpfGroup draft.ipmcGroup)).counted fun s =>
    { s with groupsCreated := s.groupsCreated + 1 }

theorem Draft.takes_cached {draft : Draft} (hrpf : draft.rpfGroup.isNull = false) (owner : Owner)
    (c : DeviceCache) (rif : RifId) : (draft.cached owner c).Takes draft.group .rpf rif := by
  refine ⟨_, c.find?_insertGroup _, ?_, rfl⟩
  simp [Group.isComplete, Group.new, hrpf]

theorem dropGroup_cached {owner : Owner} {draft : Draft}
    (hnone : c.groups.find? draft.group = none) (hr : r₀.Reaches T (draft.cached owner c) r) :
    (dropGroup draft.group : Effect σ Unit).Ends r fun _ r' => r₀.Reaches T c r' := by
  have hg := c.find?_insertGroup (.new draft.group owner draft.rpfGroup draft.ipmcGroup)
  have hsame := DeviceCache.eraseGroup_insertGroup (c := c)
    (g := .new draft.group owner draft.rpfGroup draft.ipmcGroup) hnone
  refine (dropGroup_ends hr.holds hg rfl).mono ?_
  rintro _ r' ⟨hr', hstate, hevents, hstats⟩
  refine ⟨Run.Holds.cache_eq ⟨?_, hr'.2⟩ ?_, ?_, hstate ▸ hr.course⟩
  · exact hr'.1.trans (congrArg (·.groups) hsame)
  · rw [hstats, hr.cache]
    rfl
  · rw [hevents, hr.refusals]

end Orchestrator

/-- The state after the names of a member have been looked up. -/
def Hardware.lookedUp (hw : Hardware σ) (d : DeviceId) (spec : MemberSpec) (s : σ) : σ :=
  (hw.lookupPorts d spec.ports (hw.lookup d (.rif spec.rif) s).2).2

/-- The handle that the hardware gives a new group is not one that is cached. -/
def Hardware.NamesAfresh (hw : Hardware σ) (d : DeviceId) (owner : Owner) (rpf : MemberSpec)
    (c : DeviceCache) (s : σ) : Prop :=
  ∀ h, (hw.call d (.createGroup [owner]) (hw.lookedUp d rpf s)).1.result = .ok h →
    c.groups.find? h = none

/-- How making a group fails that started in `r`. Once calls are made only the hardware can be the
cause: by an error, or by a handle or a name that is not what it was. -/
structure MakeFails (T : Course hw) (d : DeviceId) (owner : Owner) (rpf : MemberSpec) (r : Run σ)
    (e : OpError) (r' : Run σ) : Prop where
  cache : r.cache.Recovers r'.cache
  recovers : hw.NamesAfresh d owner rpf r.cache r.state → r.Recovers T r.cache r'
  fails : hw.NamesAfresh d owner rpf r.cache r.state → ¬T.Gives d .rpf .null r.state →
    r.Fails (fun l => T.Finds d l r.state ∧ T.Misses d l r.state) e r'

namespace MakeFails

variable {T : Course hw} {d : DeviceId} {owner : Owner} {rpf : MemberSpec} {r r' : Run σ}
  {e : OpError}

theorem early (hkind : e.kind ≠ .fail) (h : r.Looks T r') : MakeFails T d owner rpf r e r' :=
  ⟨.inl h.cache, fun _ => .inl h.reaches, fun _ _ => .early hkind h.events⟩

theorem hardware (he : e.OfHardware) (h : r.Recovers T r.cache r') :
    MakeFails T d owner rpf r e r' :=
  ⟨h.cache, fun _ => h, fun _ _ => .hardware he _⟩

end MakeFails

namespace Orchestrator

variable {o : Orchestrator σ} {T : Course o.hardware} {d : DeviceId} {max : Nat} {r₀ r : Run σ}
  {c : DeviceCache} {id : Handle} {g : Group} {role : Role} {spec : MemberSpec}

theorem makeGroup_ends (T : Course o.hardware) (d : DeviceId) (owner : Owner) (rpf : MemberSpec)
    (ipmc : List MemberSpec) (r : Run σ) :
    (o.makeGroup d owner rpf ipmc).Ends r
      (fun _ r' => r.Arrives T o.config.maxGroups r.cache.routes r')
      fun e r' => MakeFails T d owner rpf r e r' := by
  have hS := still_frame T d
  refine Act.Ends.cache ?_
  split
  · exact .early (fun h => nomatch h) (.refl T r)
  next hsize =>
  rw [Nat.not_le] at hsize
  refine (Act.lookup_ends T d (.rif rpf.rif) r).bind ?_
    fun _ _ ⟨hlook, he, _⟩ => .early (he ▸ fun h => nomatch h) hlook
  rintro _ r₁ ⟨hlook₁, hs₁, hrif⟩
  refine (Act.lookupPorts_ends T d rpf.ports r₁).bind ?_
    fun _ _ ⟨hlook, _, _, he, _⟩ => .early (he ▸ fun h => nomatch h) (hlook₁.trans hlook)
  rintro _ r₂ ⟨hlook₂, hs₂, hports⟩
  have hr₂ := (hlook₁.trans hlook₂).reaches
  have hfinds : ∀ l ∈ rpf.lookups, T.Finds d l r.state := by
    intro l hl
    rcases List.mem_cons.mp hl with rfl | hl
    · exact hrif
    · obtain ⟨p, hp, rfl⟩ := List.mem_map.mp hl
      exact (hports p hp).of_leads hlook₁.course
  refine (buildGroup_ends owner _ hr₂).bind ?_ fun _ _ ⟨hr, he⟩ => .hardware he hr
  rintro draft r₃ ⟨hr₃, hgroup, hgiven⟩
  rw [hs₂, hs₁] at hgroup
  refine Act.Ends.andThen ((commitGroup_ends owner draft hr₃.holds).orCleanUp ?_) ?_
  · -- the hardware gave a handle that is cached
    rintro e r' ⟨hcached, -, rfl⟩
    refine ((hS.note _ _).still (.refl T _)).bind fun _ r₄ hr₄ => ?_
    refine (rollBack_ends draft hr₄).mono fun _ r₅ hr₅ => ⟨.inr ?_, ?_, ?_⟩
    · rw [hr₅.cache, hr₃.cache]
    · exact fun hfresh => (hcached (hfresh _ hgroup)).elim
    · exact fun hfresh => (hcached (hfresh _ hgroup)).elim
  rintro _ r₄ ⟨hnone, hr₄⟩
  refine Act.Ends.lift ((hr₃.commit hr₄ rfl).count _) fun _ r₅ hr₅ => ?_
  have hr₅ : r.Reaches T (draft.cached owner r.cache) r₅ := hr₅
  refine Act.Ends.andThen ((addMember_ends T d draft.group .rpf rpf r₅).orCleanUp ?_) ?_
  · -- the group leaves the cache before its objects are removed
    rintro e r₆ ⟨⟨-, hr₆⟩, hfails⟩
    have hr₆ := hr₅.trans (hr₅.cache ▸ hr₆ rfl)
    refine ((hS.note _ _).still hr₆).bind fun _ r₇ hr₇ => ?_
    refine (dropGroup_cached hnone hr₇).bind fun _ r₈ hr₈ => ?_
    refine (rollBack_ends draft hr₈).mono fun _ r₉ hr₉ => ⟨.inr hr₉.cache, fun _ => .inr hr₉, ?_⟩
    intro _ hgives
    cases hfails with
    | denied hdenied =>
      have hrpf : draft.rpfGroup.isNull = false := by
        rw [Bool.eq_false_iff]
        exact fun hnull => hgives (Handle.eq_null hnull ▸ hgiven)
      rw [hr₅.cache] at hdenied
      exact (hdenied (Draft.takes_cached hrpf owner r.cache rpf.rif)).elim
    | unnamed hl hmiss => exact .late ⟨hfinds _ hl, hmiss.of_leads hr₅.course⟩ _
    | hardware h => exact .hardware h _
    | unrouted hrole => cases hrole
  · rintro _ r₆ ⟨c', hc', hr₆⟩
    have h₅ : r.Arrives T o.config.maxGroups r.cache.routes r₅ := by
      have hchange : r.cache.Change o.config.maxGroups _ :=
        .makeGroup hnone hsize owner draft.rpfGroup draft.ipmcGroup
      exact ⟨_, hchange.changes, rfl, hr₅⟩
    refine Act.Ends.lift (hr₆.count _) fun _ r₇ hr₇ => ?_
    have h₇ := h₅.trans ⟨_, (hc'.change _).changes, hc'.routes.trans h₅.routes, hr₇⟩
    refine Act.Ends.lift (addEgressMembers_ends ipmc h₇) fun _ r₈ h₈ => Act.Ends.cache ?_
    exact (h₈.note _ _).andThen fun _ _ h => h

theorem makeGroup_upholds (owner : Owner) (rpf : MemberSpec) (ipmc : List MemberSpec) :
    (o.makeGroup d owner rpf ipmc).Upholds o.config.maxGroups fun routes => routes := by
  rintro _ r hI rfl
  refine (makeGroup_ends (.any o.hardware) d owner rpf ipmc r).mono ?_ fun _ _ h => h.cache
  exact fun _ _ h => h.upholds hI

/-! Routes -/

theorem makeRoute_carries (T : Course o.hardware) (d : DeviceId) (max : Nat) (route : Route) :
    (o.makeRoute d route).Carries T max (·.insert route.key route) fun _ _ => False := by
  intro r hI
  unfold makeRoute
  cases hvalid : route.key.validate with
  | error why => exact (Run.Looks.refl T r).stops fun h => nomatch h
  | ok _ =>
    refine Act.Ends.cache ?_
    refine Act.Ends.check (r.cache.checkAddRoute_blameless route) (fun _ hcheck => ?_)
      fun _ _ hkind => (Run.Looks.refl T r).stops hkind
    have ⟨hkey, _⟩ := DeviceCache.checkAddRoute_eq_ok_iff.mp hcheck
    refine Act.Ends.checkUsable (fun g hg hcomplete => ?_)
      fun _ _ hkind => (Run.Looks.refl T r).stops hkind
    refine (Act.entryOf_ends T d route.key r).bind ?_
      fun _ _ ⟨hlook, he, _⟩ => hlook.stops (he ▸ fun h => nomatch h)
    intro entry r₁ hlook₁
    refine (Act.lookup_ends T d (.rif route.iif) r₁).bind ?_
      fun _ _ ⟨hlook, he, _⟩ => (hlook₁.trans hlook).stops (he ▸ fun h => nomatch h)
    rintro iif r₂ ⟨hlook₂, -⟩
    refine (Act.request_ends (hlook₁.trans hlook₂).reaches _).bind ?_
      fun _ _ h => ⟨.inl h.1, .hardware ⟨_, h.2⟩ _⟩
    rintro _ r₃ ⟨hr₃, -⟩
    refine (insertRoute_ends hr₃.holds hkey hg).andThen ?_
    intro _ r₄ hr₄
    refine Act.Ends.lift ((hr₃.commit hr₄ rfl).count _) fun _ r₅ hr₅ => ?_
    have hchange : r.cache.Change max _ := .addRoute hkey hvalid hg hcomplete
    exact Run.Arrives.note ⟨_, hchange.changes, rfl, hr₅⟩ _ _

theorem unmakeRoute_carries (T : Course o.hardware) (d : DeviceId) (max : Nat) (key : RouteKey) :
    (o.unmakeRoute d key).Carries T max (·.erase key) fun _ _ => False := by
  intro r hI
  refine Act.Ends.cache ?_
  refine Act.Ends.check (r.cache.routes.groupOf_blameless key) (fun group hgroup => ?_)
    fun _ _ hkind => (Run.Looks.refl T r).stops hkind
  obtain ⟨route, hroute, rfl⟩ := RouteTable.groupOf_eq_ok_iff.mp hgroup
  obtain ⟨rfl, _⟩ := hI.routes key route hroute
  obtain ⟨g, hg⟩ := hI.grouped _ route hroute
  refine (Act.entryOf_ends T d route.key r).bind ?_
    fun _ _ ⟨hlook, he, _⟩ => hlook.stops (he ▸ fun h => nomatch h)
  intro entry r₁ hlook₁
  refine (Act.request_ends hlook₁.reaches _).bind ?_ fun _ _ h => ⟨.inl h.1, .hardware ⟨_, h.2⟩ _⟩
  rintro _ r₂ ⟨hr₂, -⟩
  refine (eraseRoute_ends hr₂.holds hroute hg).andThen ?_
  intro _ r₃ hr₃
  refine Act.Ends.lift ((hr₂.commit hr₃ rfl).count _) fun _ r₄ hr₄ => ?_
  have hchange : r.cache.Change max _ := .removeRoute hroute hg
  exact Run.Arrives.note ⟨_, hchange.changes, rfl, hr₄⟩ _ _

/-- A write that fails after others is rolled back. -/
theorem writeAttrs_ends (key : RouteKey) (entry : Entry) (replaced : List EntryAttr)
    (changes : List (EntryAttr × EntryAttr)) (hr : r₀.Reaches T c r) :
    (o.writeAttrs d key entry replaced changes).Ends r (fun _ r' => r₀.Reaches T c r')
      fun e r' => r₀.Recovers T c r' ∧ e.OfHardware := by
  have hS := still_frame T d
  induction changes generalizing r replaced with
  | nil => exact hr
  | cons change rest ih =>
    rw [writeAttrs]
    refine Act.Ends.andThen ((Act.request_ends hr _).orCleanUp ?_) fun _ r₁ hr₁ => ih _ hr₁.1
    rintro e r₁ ⟨hr₁, he⟩
    refine ((hS.forM (fun _ => hS.undo _ _ (by simp)) replaced).still hr₁).bind fun _ r₂ hr₂ => ?_
    split
    · exact hr₂.rollBack.mono fun _ _ h => ⟨.inr h, _, he⟩
    · exact ⟨.inl hr₂, _, he⟩

theorem changeRoute_carries (T : Course o.hardware) (d : DeviceId) (max : Nat) (key : RouteKey)
    (u : RouteUpdate) :
    (o.changeRoute d key u).Carries T max (·.modify key u.apply) fun _ _ => False := by
  intro r hI
  refine Act.Ends.cache ?_
  refine Act.Ends.check (r.cache.routes.get_blameless key) (fun route hroute => ?_)
    fun _ _ hkind => (Run.Looks.refl T r).stops hkind
  rw [RouteTable.get_eq_ok_iff] at hroute
  obtain ⟨rfl, _⟩ := hI.routes key route hroute
  refine Act.Ends.check (r.cache.groups.get_blameless _) (fun g hg => ?_)
    fun _ _ hkind => (Run.Looks.refl T r).stops hkind
  rw [GroupTable.get_eq_ok_iff] at hg
  refine Act.Ends.checkUsable (fun g' hg' hcomplete => ?_)
    fun _ _ hkind => (Run.Looks.refl T r).stops hkind
  refine (Act.lookup_ends T d (.rif route.iif) r).bind ?_
    fun _ _ ⟨hlook, he, _⟩ => hlook.stops (he ▸ fun h => nomatch h)
  rintro oldIif r₁ ⟨hlook₁, -⟩
  refine Act.Ends.bind (P := fun _ r' => r.Looks T r') (F := fun e r' =>
    r.Looks T r' ∧ e.kind ≠ .fail) ?_ ?_ fun _ _ h => h.1.stops h.2
  · split
    · exact hlook₁
    · refine (Act.lookup_ends T d _ r₁).mono (fun _ _ h => hlook₁.trans h.1) ?_
      exact fun _ _ ⟨hlook, he, _⟩ => ⟨hlook₁.trans hlook, he ▸ fun h => nomatch h⟩
  intro newIif r₂ hlook₂
  refine Act.Ends.andThen (P := fun _ r' => r.Reaches T r.cache r') ?_ ?_
  · split
    · exact hlook₂.reaches
    · refine (Act.entryOf_ends T d route.key r₂).bind ?_
        fun _ _ ⟨hlook, he, _⟩ => (hlook₂.trans hlook).stops (he ▸ fun h => nomatch h)
      intro entry r₃ hlook₃
      refine (writeAttrs_ends _ _ _ _ (hlook₂.trans hlook₃).reaches).mono (fun _ _ h => h) ?_
      exact fun _ _ ⟨hr, he⟩ => ⟨hr, .hardware he _⟩
  intro _ r₃ hr₃
  refine (setRoute_ends (u := u) hr₃.holds hroute hg hg').andThen ?_
  intro _ r₄ hr₄
  refine Act.Ends.lift ((hr₃.commit hr₄ rfl).count _) fun _ r₅ hr₅ => ?_
  have hchange : r.cache.Change max _ := .updateRoute hroute hg hg' hcomplete
  have hroutes : (r.cache.setRoute route g (u.apply route) g').routes =
      r.cache.routes.modify route.key u.apply := Table.modify_congr hroute rfl
  exact Run.Arrives.note ⟨_, hchange.changes, hroutes, hr₅⟩ _ _

theorem checkRoute_carries (T : Course o.hardware) (d : DeviceId) (max : Nat) (key : RouteKey) :
    (o.checkRoute d key).Carries T max (fun routes => routes) fun _ _ => False := by
  intro r hI
  have hS := still_frame T d
  refine Act.Ends.cache ?_
  refine Act.Ends.check (r.cache.routes.get_blameless key) (fun route hroute => ?_)
    fun _ _ hkind => (Run.Looks.refl T r).stops hkind
  refine Act.Ends.check (r.cache.groups.get_blameless _) (fun g hg => ?_)
    fun _ _ hkind => (Run.Looks.refl T r).stops hkind
  refine (Act.lookup_ends T d (.rif route.iif) r).bind ?_
    fun _ _ ⟨hlook, he, _⟩ => hlook.stops (he ▸ fun h => nomatch h)
  rintro iif r₁ ⟨hlook₁, -⟩
  refine (Act.entryOf_ends T d key r₁).bind ?_
    fun _ _ ⟨hlook, he, _⟩ => (hlook₁.trans hlook).stops (he ▸ fun h => nomatch h)
  intro entry r₂ hlook₂
  refine (Act.request_ends (hlook₁.trans hlook₂).reaches _).bind ?_
    fun _ _ h => ⟨.inl h.1, .hardware ⟨_, h.2⟩ _⟩
  rintro found r₃ ⟨hr₃, -⟩
  refine Act.Ends.lift ((hS.compareAttrs key found _).still hr₃) fun _ r₄ hr₄ => ?_
  exact ⟨r.cache, .refl max _, rfl, hr₄⟩

end Orchestrator

end Multicast
