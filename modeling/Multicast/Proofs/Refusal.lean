import Multicast.Proofs.Bench
import Multicast.Proofs.Consistency
import Multicast.Proofs.TakingBack

/-! Creates that the cache refuses. The hardware has answered with the handle of a group that is
cached, so taking the new group back sets about removing that one; what keeps its object in place
is that something hangs off it. -/
namespace Multicast

/-- A call that succeeds has removed `h` and nothing else. -/
def Call.Removes (c : Call) (d : DeviceId) (h : Handle) : Prop :=
  ∀ s reply s', Switch.perform s d c = .ok (reply, s') → ∃ kind, s.remove d h kind = .ok s'

theorem Call.removeGroup_removes (d : DeviceId) (h : Handle) : (Call.removeGroup h).Removes d h :=
  fun _ _ _ hs => ⟨.group, eq_ok_of_map hs⟩

theorem Call.removeSubGroup_removes (d : DeviceId) (role : Role) (h : Handle) :
    (Call.removeSubGroup role h).Removes d h :=
  fun _ _ _ hs => ⟨.subGroup role, eq_ok_of_map hs⟩

namespace Testbed

variable {t t' t'' : Testbed} {d : DeviceId} {h : Handle}

/-- A coming create of a sub-group may report the handle in place of its own. -/
def Masks (t : Testbed) (h : Handle) : Prop :=
  ∃ role, (CallKind.createSubGroup role, h) ∈ t.overrides

/-- No object has the handle, unless it is misreported. -/
def Foreign (t : Testbed) (h : Handle) : Prop :=
  ∀ o, t.switch.objects.find? h = some o → t.Masks h

/-- Something hangs off the object, and its handle is not misreported. -/
def Anchors (t : Testbed) (h : Handle) : Prop :=
  ∃ h' o, t.switch.objects.find? h' = some o ∧ o.parent = some h ∧ ¬t.Masks h'

/-- The objects of `t` are there in `t'`, but for those whose handles may be misreported. The group
`id` is, if something hangs off it. -/
def Withstands (id : Handle) (t t' : Testbed) : Prop :=
  ∀ h o, t.switch.objects.find? h = some o → ¬t.Masks h → (h = id → t.Anchors h) →
    t'.switch.objects.find? h = some o

/-! Overrides used up -/

theorem report_cases (kind : CallKind) (h : Handle) (overrides : List (CallKind × Handle)) :
    (report kind h overrides).2 ⊆ overrides ∧
      ((report kind h overrides).1 = h ∨ (kind, (report kind h overrides).1) ∈ overrides) := by
  induction overrides with
  | nil => exact ⟨List.Subset.refl _, .inl rfl⟩
  | cons o rest ih =>
    rw [report]
    split
    · next hkind =>
      refine ⟨List.subset_cons_self o rest, .inr ?_⟩
      rw [← hkind]
      exact List.mem_cons_self
    · exact ⟨List.cons_subset_cons o ih.1, ih.2.imp (fun h => h) (List.mem_cons_of_mem o)⟩

theorem overrides_call_subset (t : Testbed) (d : DeviceId) (c : Call) :
    (t.call d c).2.overrides ⊆ t.overrides := by
  unfold call
  rcases t.switch.call d c with ⟨⟨result, notes⟩, switch⟩
  cases result with
  | error e => exact List.Subset.refl _
  | ok reply =>
    cases c with
    | createGroup _ => exact (report_cases _ reply t.overrides).1
    | createSubGroup role _ => exact (report_cases _ reply t.overrides).1
    | createMember role _ => exact (report_cases _ reply t.overrides).1
    | _ => exact List.Subset.refl _

theorem result_call (t : Testbed) (d : DeviceId) (c : Call) :
    (t.call d c).1.result =
      (t.switch.call d c).1.result.map fun r => (reply t.overrides c r).1 := by
  unfold call
  rcases t.switch.call d c with ⟨⟨result, notes⟩, switch⟩
  cases result <;> rfl

/-! Making objects -/

/-- Objects were made, and overrides used up. -/
structure Grows (t t' : Testbed) : Prop where
  numbered : t.switch.Numbered → t'.switch.Numbered
  counter : t.switch.counter ≤ t'.switch.counter
  objects : t.switch.Numbered → t'.switch.counter < 2 ^ 48 → ∀ h o,
    t.switch.objects.find? h = some o → t'.switch.objects.find? h = some o
  overrides : t'.overrides ⊆ t.overrides

namespace Grows

theorem refl (t : Testbed) : t.Grows t :=
  ⟨fun hn => hn, Nat.le_refl _, fun _ _ _ _ ho => ho, List.Subset.refl _⟩

theorem trans (h : t.Grows t') (h' : t'.Grows t'') : t.Grows t'' where
  numbered := fun hn => h'.numbered (h.numbered hn)
  counter := Nat.le_trans h.counter h'.counter
  objects := fun hn hc i o ho => h'.objects (h.numbered hn) hc i o
    (h.objects hn (Nat.lt_of_le_of_lt h'.counter hc) i o ho)
  overrides := List.Subset.trans h'.overrides h.overrides

/-- A create changes nothing that was there before. -/
theorem create {c : Call}
    (hc : ∀ s reply s', Switch.perform s d c = .ok (reply, s') → ∃ o, s' = (s.insert o).2)
    (t : Testbed) : t.Grows (t.call d c).2 := by
  have hswitch := (t.call_snd d c).1
  refine ⟨fun hn => hswitch ▸ hn.call d c, hswitch ▸ t.switch.counter_le_call d c,
    fun hn hbound x o ho => ?_, t.overrides_call_subset d c⟩
  rw [hswitch] at hbound ⊢
  rcases t.switch.call_cases d c with ⟨_, _, halike⟩ | ⟨reply, s₀, halike, _, hs⟩
  · exact halike.objects ▸ ho
  · obtain ⟨made, heq⟩ := hc s₀ reply _ hs
    rw [heq] at hbound ⊢
    have hne : x ≠ .make made.kind (s₀.counter + 1) := by
      rintro rfl
      rw [← halike.objects, (hn.alike halike).fresh hbound] at ho
      cases ho
    exact (Table.find?_insert_of_ne _ _ hne).trans (halike.objects ▸ ho)

theorem masks (h : t.Grows t') {x : Handle} (hx : t'.Masks x) : t.Masks x := by
  obtain ⟨role, hmem⟩ := hx
  exact ⟨role, h.overrides hmem⟩

/-- What is foreign now was foreign before. -/
theorem foreign (h : t.Grows t') (hn : t.switch.Numbered) (hc : t'.switch.counter < 2 ^ 48)
    {x : Handle} (hx : t'.Foreign x) : t.Foreign x :=
  fun o ho => h.masks (hx o (h.objects hn hc x o ho))

end Grows

theorem grows_createGroup (t : Testbed) (d : DeviceId) (owners : List Owner) :
    t.Grows (t.call d (.createGroup owners)).2 := by
  refine Grows.create ?_ t
  intro s reply s' hs
  cases hs
  exact ⟨_, rfl⟩

theorem grows_createSubGroup (t : Testbed) (d : DeviceId) (role : Role) (group : Handle) :
    t.Grows (t.call d (.createSubGroup role [group])).2 := by
  refine Grows.create ?_ t
  intro s reply s' hs
  have hs := Switch.createSubGroup_eq_ok hs
  cases hs
  exact ⟨_, rfl⟩

/-- The sub-group reported is new or misreported. -/
theorem foreign_createSubGroup {role : Role} {group : Handle} (hn : t.switch.Numbered)
    (hc : (t.call d (.createSubGroup role [group])).2.switch.counter < 2 ^ 48)
    (hok : (t.call d (.createSubGroup role [group])).1.result = .ok h) : t.Foreign h := by
  intro o ho
  rw [(t.call_snd d _).1] at hc
  rw [result_call] at hok
  rcases t.switch.call_cases d (.createSubGroup role [group]) with
    ⟨e, he, _⟩ | ⟨reply, s₀, halike, hreply, hs⟩
  · rw [he] at hok
    cases hok
  · rw [hreply] at hok
    have hreported : (report (.createSubGroup role) reply t.overrides).1 = h := Except.ok.inj hok
    obtain ⟨rfl, hs'⟩ := Prod.mk.inj (Switch.createSubGroup_eq_ok hs)
    rcases (report_cases (.createSubGroup role) _ t.overrides).2 with hsame | hmem
    · rw [hs'] at hc
      rw [← hreported, hsame, ← halike.objects, (hn.alike halike).fresh hc] at ho
      cases ho
    · exact ⟨role, hreported ▸ hmem⟩

/-- Null names nothing. -/
theorem foreign_null (hn : t.switch.Numbered) : t.Foreign .null := by
  intro o ho
  obtain ⟨i, -, heq⟩ := hn .null o ho
  have hnull := Handle.isNull_make o.kind i
  rw [← heq] at hnull
  cases hnull

/-! Removing objects -/

/-- At most the object `h` went, and only if nothing hung off it. -/
structure Sheds (h : Handle) (t t' : Testbed) : Prop where
  counter : t'.switch.counter = t.switch.counter
  objects : ∀ x o, t.switch.objects.find? x = some o →
    (x = h → ∃ h' child, t.switch.objects.find? h' = some child ∧ child.parent = some h) →
      t'.switch.objects.find? x = some o

namespace Sheds

theorem refl (h : Handle) (t : Testbed) : Sheds h t t := ⟨rfl, fun _ _ ho _ => ho⟩

theorem call {c : Call} (hc : c.Removes d h) (t : Testbed) : Sheds h t (t.call d c).2 := by
  have hswitch := (t.call_snd d c).1
  rcases t.switch.call_cases d c with ⟨_, _, halike⟩ | ⟨reply, s₀, halike, _, hs⟩
  · refine ⟨hswitch ▸ halike.counter, fun x o ho _ => ?_⟩
    rw [hswitch, halike.objects]
    exact ho
  · obtain ⟨kind, hremove⟩ := hc s₀ reply _ hs
    have heq := Switch.remove_eq_ok hremove
    refine ⟨?_, fun x o ho hleaf => ?_⟩
    · rw [hswitch, heq]
      exact halike.counter
    · have hne : x ≠ h := by
        intro hx
        obtain ⟨h', child, hchild, hparent⟩ := hleaf hx
        rw [← halike.objects] at hchild
        exact Switch.hasChild_eq_false_iff.mp (Switch.hasChild_of_remove hremove) h' child hchild
          hparent
      rw [hswitch, heq]
      exact (Table.find?_erase_of_ne _ hne).trans (halike.objects ▸ ho)

end Sheds

/-- The group goes last, when what is foreign to it has gone. -/
theorem Grows.withstands {t₁ t₂ t₃ t₄ : Testbed} {rpf ipmc id : Handle} (h : t.Grows t₁)
    (hn : t.switch.Numbered) (hc : t₁.switch.counter < 2 ^ 48) (hrpf : t.Foreign rpf)
    (hipmc : t.Foreign ipmc) (h₁ : Sheds rpf t₁ t₂) (h₂ : Sheds ipmc t₂ t₃) (h₃ : Sheds id t₃ t₄) :
    Withstands id t t₄ := by
  have hlast : ∀ x o, t.switch.objects.find? x = some o → ¬t.Masks x →
      t₃.switch.objects.find? x = some o := by
    intro x o ho hmask
    have hne : ∀ y, t.Foreign y → x ≠ y := by
      rintro _ hy rfl
      exact hmask (hy o ho)
    have ho₁ := h.objects hn hc x o ho
    have ho₂ := h₁.objects x o ho₁ fun hx => (hne rpf hrpf hx).elim
    exact h₂.objects x o ho₂ fun hx => (hne ipmc hipmc hx).elim
  intro x o ho hmask hanchor
  refine h₃.objects x o (hlast x o ho hmask) fun hx => ?_
  obtain ⟨child, o', ho', hparent, hchild⟩ := hanchor hx
  exact ⟨child, o', hlast child o' ho' hchild, hx ▸ hparent⟩

end Testbed

/-! Parts of a create -/

theorem Act.request_runs {σ : Type} (hw : Hardware σ) (d : DeviceId) (c : Call) (r : Run σ) :
    (Act.request hw d c).Ends r
      (fun a r' => (hw.call d c r.state).1.result = .ok a ∧ r'.state = (hw.call d c r.state).2)
      fun _ _ => True := by
  rw [request, ends_call, Effect.ends_call]
  cases (hw.call d c r.state).1.result with
  | ok a => exact ⟨rfl, rfl⟩
  | error e => trivial

theorem Effect.undo_sheds {d : DeviceId} {h : Handle} {c : Call} (hc : c.Removes d h)
    (what context : String) (r : Run Testbed) :
    (Effect.undo Testbed.hardware d what context c).Ends r fun _ r' =>
      Testbed.Sheds h r.state r'.state := by
  obtain ⟨line, hrun⟩ := run_undo Testbed.hardware d what context c r
  unfold Ends
  rw [hrun]
  exact .call hc r.state

namespace Orchestrator

variable {config : Config} {order : RouteOrder} {d : DeviceId} {r : Run Testbed}

theorem undoMade_sheds {h : Handle} {c : Call} (hc : c.Removes d h) (what context : String)
    (r : Run Testbed) : ((bench config order).undoMade d what context h c).Ends r fun _ r' =>
      Testbed.Sheds h r.state r'.state := by
  unfold undoMade
  split
  · exact .refl h r.state
  · exact Effect.undo_sheds hc what context r

/-- The last made goes first. -/
theorem rollBack_sheds (draft : Draft) (r : Run Testbed) :
    ((bench config order).rollBack d draft).Ends r fun _ r' =>
      ∃ t₁ t₂, Testbed.Sheds draft.rpfGroup r.state t₁ ∧ Testbed.Sheds draft.ipmcGroup t₁ t₂ ∧
        Testbed.Sheds draft.group t₂ r'.state := by
  refine (undoMade_sheds (Call.removeSubGroup_removes d .rpf _) _ _ r).bind fun _ r₁ hr₁ => ?_
  refine (undoMade_sheds (Call.removeSubGroup_removes d .ipmc _) _ _ r₁).bind fun _ r₂ hr₂ => ?_
  refine (Effect.undo_sheds (Call.removeGroup_removes d _) _ _ r₂).bind fun _ r₃ hr₃ => ?_
  refine Effect.Ends.bind (P := fun _ r' => r'.state = r₃.state) rfl fun _ r₄ hr₄ => ?_
  rw [← hr₄] at hr₃
  split
  · exact ⟨r₁.state, r₂.state, hr₁, hr₂, hr₃⟩
  · exact ⟨r₁.state, r₂.state, hr₁, hr₂, hr₃⟩

theorem buildSubGroup_grows (role : Role) (what : String) (draft : Draft)
    (hn : r.state.switch.Numbered) :
    ((bench config order).buildSubGroup d role what draft).Ends r
      (fun h r' => r.state.Grows r'.state ∧
        (r'.state.switch.counter < 2 ^ 48 → r.state.Foreign h))
      fun _ _ => True := by
  refine (Act.request_runs _ _ _ r).mono ?_ (fun _ _ h => h) |>.orCleanUp fun _ _ _ => trivial
  rintro h r' ⟨hok, hstate⟩
  rw [hstate]
  exact ⟨r.state.grows_createSubGroup d role draft.group,
    fun hc => Testbed.foreign_createSubGroup hn hc hok⟩

/-- Making the objects of a group leaves those there alone, and its sub-groups are none of them,
unless they are misreported. -/
theorem buildGroup_grows (owner : Owner) (needed : Bool) (hn : r.state.switch.Numbered) :
    ((bench config order).buildGroup d owner needed).Ends r
      (fun draft r' => r.state.Grows r'.state ∧ (r'.state.switch.counter < 2 ^ 48 →
        r.state.Foreign draft.rpfGroup ∧ r.state.Foreign draft.ipmcGroup))
      fun _ _ => True := by
  refine (Act.request_runs _ _ _ r).andThen ?_
  rintro group r₁ ⟨-, hstate⟩
  have h₁ : r.state.Grows r₁.state := hstate ▸ r.state.grows_createGroup d [owner]
  have hn₁ := h₁.numbered hn
  refine Act.Ends.andThen (P := fun ipmc r' => r₁.state.Grows r'.state ∧
    (r'.state.switch.counter < 2 ^ 48 → r.state.Foreign ipmc)) ?_ ?_
  · split
    · refine (buildSubGroup_grows _ _ _ hn₁).mono ?_ fun _ _ h => h
      rintro h r₂ ⟨h₂, hforeign⟩
      exact ⟨h₂, fun hc => h₁.foreign hn (Nat.lt_of_le_of_lt h₂.counter hc) (hforeign hc)⟩
    · exact ⟨.refl _, fun _ => Testbed.foreign_null hn⟩
  · rintro ipmc r₂ ⟨h₂, hipmc⟩
    refine (buildSubGroup_grows _ _ _ (h₂.numbered hn₁)).andThen ?_
    rintro rpf r₃ ⟨h₃, hrpf⟩
    have h₁₂ := h₁.trans h₂
    refine ⟨h₁₂.trans h₃, fun hc => ?_⟩
    have hc₂ := Nat.lt_of_le_of_lt h₃.counter hc
    exact ⟨h₁₂.foreign hn hc₂ (hrpf hc), hipmc hc₂⟩

/-- A group without its ingress sub-group takes no members. -/
theorem addMember_incomplete {id : Handle} {g : Group} (role : Role) (spec : MemberSpec)
    (hg : r.cache.groups.find? id = some g) (hincomplete : g.isComplete = false) :
    ((bench config order).addMember d id role spec).Ends r (fun _ _ => False)
      fun e _ => e = .cache (.groupIncomplete id) := by
  have husable : (Act.usableGroup id).Ends r (fun _ _ => False)
      fun e _ => e = .cache (.groupIncomplete id) := by
    refine Act.Ends.cache ?_
    rw [GroupTable.get_eq_ok_iff.mpr hg]
    change Act.Ends (if g.isComplete then pure g else throw _) r _ _
    rw [hincomplete]
    rfl
  exact husable.andThen fun _ _ h => h.elim

end Orchestrator

/-- The cache refused the new group `id`, which is cached, and counted a rollback. -/
structure Run.Refuses (id : Handle) (r r' : Run Testbed) : Prop where
  cached : ∃ g, r.cache.groups.find? id = some g
  cache : r'.cache = r.cache.rolledBack
  objects : r'.state.switch.counter < 2 ^ 48 → Testbed.Withstands id r.state r'.state

namespace Orchestrator

variable {config : Config} {order : RouteOrder} {d : DeviceId} {r : Run Testbed}

theorem makeGroup_refused (owner : Owner) (rpf : MemberSpec) (ipmc : List MemberSpec)
    (hn : r.state.switch.Numbered) :
    ((bench config order).makeGroup d owner rpf ipmc).Ends r (fun _ _ => True)
      fun e r' => ∀ id, e = .cache (.groupExists id) → r.Refuses id r' := by
  refine Act.Ends.cache ?_
  split
  · exact fun _ he => nomatch he
  refine (Act.lookup_resolves d (.rif rpf.rif) r).bind ?_ ?_
  rotate_left
  · rintro _ _ ⟨-, rfl, -⟩ _ he
    cases he
  rintro _ _ ⟨rfl, -⟩
  refine (Act.lookupPorts_resolves d rpf.ports r).bind ?_ ?_
  rotate_left
  · rintro _ _ ⟨-, _, -, rfl, -⟩ _ he
    cases he
  rintro _ _ ⟨rfl, -⟩
  refine ((buildGroup_grows owner _ hn).and (buildGroup_ends owner _ (.refl (.any _) r))).bind ?_ ?_
  rotate_left
  · rintro _ _ ⟨-, -, _, _, rfl⟩ _ he
    cases he
  rintro draft r₁ ⟨⟨hgrows, hforeign⟩, hr₁, -⟩
  refine Act.Ends.andThen ((commitGroup_ends owner draft hr₁.holds).orCleanUp ?_) ?_
  · rintro e r' ⟨hcached, rfl, rfl⟩
    refine Effect.Ends.bind (P := fun _ r' => r'.state = r₁.state ∧ r'.cache = r₁.cache)
      ⟨rfl, rfl⟩ fun _ r₂ ⟨hstate, hcache⟩ => ?_
    refine ((rollBack_sheds draft r₂).and (rollBack_ends draft (.refl (.any _) r₂))).mono ?_
    rintro _ r₃ ⟨⟨t₁, t₂, h₁, h₂, h₃⟩, hr₃⟩ id he
    cases he
    rw [hstate] at h₁
    refine ⟨Option.ne_none_iff_exists'.mp hcached, ?_, fun hc => ?_⟩
    · rw [hr₃.cache, hcache, hr₁.cache]
    · have hcount : r₁.state.switch.counter = r₃.state.switch.counter :=
        h₁.counter.symm.trans (h₂.counter.symm.trans h₃.counter.symm)
      have hc₁ := hcount ▸ hc
      exact hgrows.withstands hn hc₁ (hforeign hc₁).1 (hforeign hc₁).2 h₁ h₂ h₃
  · rintro _ r₂ ⟨hnone, hr₂⟩
    refine Act.Ends.lift ((hr₁.commit hr₂ rfl).count _) fun _ r₃ hr₃ => ?_
    refine Act.Ends.bind (P := fun _ _ => True) (F := fun e _ => ∀ id, e ≠ .cache (.groupExists id))
      (Act.Ends.orCleanUp_of_error ?_) ?_ fun e _ h id he => (h id he).elim
    · have hcached : r₃.cache = draft.cached owner r.cache := hr₃.cache
      have hg : r₃.cache.groups.find? draft.group =
          some (.new draft.group owner draft.rpfGroup draft.ipmcGroup) := by
        rw [hcached]
        exact r.cache.find?_insertGroup _
      cases hnull : draft.rpfGroup.isNull with
      | true =>
        refine (addMember_incomplete .rpf rpf hg ?_).mono (fun _ _ h => h.elim) ?_
        · simp [Group.isComplete, Group.new, hnull]
        · rintro _ _ rfl id he
          cases he
      | false =>
        have htakes := draft.takes_cached hnull owner r.cache rpf.rif
        refine (addMember_ends (.any _) d draft.group .rpf rpf r₃).mono (fun _ _ _ => trivial) ?_
        rintro e r₄ ⟨-, hfails⟩ id rfl
        cases hfails with
        | denied hdenied => exact hdenied (hcached ▸ htakes)
        | hardware h =>
          obtain ⟨_, _, he⟩ := h
          cases he
    · intro _ r₄ _
      refine Act.Ends.lift (P := fun _ _ => True) trivial fun _ r₅ _ => ?_
      refine Act.Ends.lift (P := fun _ _ => True) trivial fun _ r₆ _ => ?_
      exact Act.Ends.cache (Act.Ends.lift (P := fun _ _ => True) trivial fun _ _ _ => trivial)

end Orchestrator

/-- A create that finds its handle cached leaves the groups and routes of every cache as they were,
and every object but two kinds: one that the hardware may report as a sub-group made for the new
group, and the object of the cached group itself, if nothing hangs off it. A delete that got half
way leaves such a group behind. -/
theorem refused_create_spares_objects {config : Config} {w : World Testbed}
    (h : w.Benched config) (order : RouteOrder) (d : DeviceId) (owner : Owner) (rpf : MemberSpec)
    (ipmc : List MemberSpec) {id : Handle}
    (hrefused : ((Orchestrator.bench config order).createGroup w d owner rpf ipmc).result =
      .error (.cache (.groupExists id))) :
    let out := (Orchestrator.bench config order).createGroup w d owner rpf ipmc
    (∃ c g, w.fleet.find? d = some c ∧ c.groups.find? id = some g) ∧
      out.world.fleet = w.fleet.modify d DeviceCache.rolledBack ∧
      (out.world.state.switch.counter < 2 ^ 48 → w.state.Withstands id out.world.state) := by
  simp only [Orchestrator.createGroup, Orchestrator.result_audited,
    Orchestrator.world_audited] at hrefused ⊢
  cases hc : w.fleet.find? d with
  | none =>
    rw [Orchestrator.onDevice_of_find?_eq_none hc] at hrefused
    cases hrefused
  | some c =>
    have hends : ((Orchestrator.bench config order).makeGroup d owner rpf ipmc).Ends
        ⟨w.state, c, []⟩ _ _ := Orchestrator.makeGroup_refused owner rpf ipmc h.numbered
    obtain ⟨r, hworld, -, ⟨_, hok, -⟩ | ⟨e, he, hr⟩⟩ := Orchestrator.onDevice_ends hc hends
    · rw [hok] at hrefused
      cases hrefused
    · rw [he] at hrefused
      obtain ⟨⟨g, hg⟩, hcache, hobjects⟩ := hr id (Except.error.inj hrefused)
      rw [hworld]
      exact ⟨⟨c, g, rfl, hg⟩, Table.modify_congr hc hcache, hobjects⟩

/-- A group, whose handle the next group is reported to have. -/
def World.repeated : World Testbed :=
  (World.start .empty).run {}
    [.feed (.switch (.register ⟨1⟩ (.rif ⟨10⟩))), .operate .ascending (.attach ⟨1⟩),
      .operate .ascending (.createGroup ⟨1⟩ .ipmc ⟨⟨10⟩, []⟩ []),
      .feed (.override .createGroup (.make .group 2))]

/-- The group keeps all its objects, for its ingress sub-group hangs off it. -/
theorem refused_create_spares_objects_repeated :
    let w := World.repeated
    let out := (Orchestrator.bench {} .ascending).createGroup w ⟨1⟩ .ipmc ⟨⟨10⟩, []⟩ []
    w.Benched {} ∧ out.result = .error (.cache (.groupExists (.make .group 2))) ∧
      out.world.state.switch.counter < 2 ^ 48 ∧ w.state.Anchors (.make .group 2) ∧
      ((∃ c g, w.fleet.find? ⟨1⟩ = some c ∧ c.groups.find? (.make .group 2) = some g) ∧
        out.world.fleet = w.fleet.modify ⟨1⟩ DeviceCache.rolledBack ∧
        (out.world.state.switch.counter < 2 ^ 48 →
          w.state.Withstands (.make .group 2) out.world.state)) := by
  intro w out
  have hreached : w.Benched {} := World.Benched.start.run _
  have hrefused : out.result = .error (.cache (.groupExists (.make .group 2))) := by
    decide +kernel
  have hcount : out.world.state.switch.counter < 2 ^ 48 := by decide +kernel
  have hchild : w.state.switch.objects.find? (.make (.subGroup .rpf) 3) =
      some ⟨⟨1⟩, .subGroup .rpf, some (.make .group 2), []⟩ := by
    decide +kernel
  have hoverrides : w.state.overrides = [(.createGroup, .make .group 2)] := by decide +kernel
  clear_value w
  have hanchor : w.state.Anchors (.make .group 2) := by
    refine ⟨_, _, hchild, rfl, ?_⟩
    rintro ⟨role, hmem⟩
    rw [hoverrides] at hmem
    simp at hmem
  refine ⟨hreached, hrefused, hcount, hanchor, ?_⟩
  exact refused_create_spares_objects hreached .ascending ⟨1⟩ .ipmc ⟨⟨10⟩, []⟩ [] hrefused

/-- Of the group all but its object has been deleted when its handle is reported again. -/
def World.stripped : World Testbed :=
  (World.start .empty).run {}
    [.feed (.switch (.register ⟨1⟩ (.rif ⟨10⟩))), .operate .ascending (.attach ⟨1⟩),
      .operate .ascending (.createGroup ⟨1⟩ .ipmc ⟨⟨10⟩, []⟩ []),
      .feed (.switch (.failNth .removeGroup 1 .failure)),
      .operate .ascending (.deleteGroup ⟨1⟩ (.make .group 2)),
      .feed (.override .createGroup (.make .group 2))]

/-- Taking the refused group back removes the cached one. -/
theorem refused_create_removes_stripped_group :
    let w := World.stripped
    let out := (Orchestrator.bench {} .ascending).createGroup w ⟨1⟩ .ipmc ⟨⟨10⟩, []⟩ []
    let id := Handle.make .group 2
    w.Benched {} ∧ out.result = .error (.cache (.groupExists id)) ∧
      w.state.switch.contains id = true ∧ out.world.state.switch.contains id = false ∧
      ((out.world.fleet.find? ⟨1⟩).bind (·.groups.find? id)).isSome = true := by
  intro w out id
  have hreached : w.Benched {} := World.Benched.start.run _
  have hrefused : out.result = .error (.cache (.groupExists id)) := by decide +kernel
  have hbefore : w.state.switch.contains id = true := by decide +kernel
  have hafter : out.world.state.switch.contains id = false := by decide +kernel
  have hcached : ((out.world.fleet.find? ⟨1⟩).bind (·.groups.find? id)).isSome = true := by
    decide +kernel
  exact ⟨hreached, hrefused, hbefore, hafter, hcached⟩

end Multicast
