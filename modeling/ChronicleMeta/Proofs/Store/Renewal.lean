import ChronicleMeta.Proofs.Renewal
import ChronicleMeta.Proofs.Store.Representation

/-!
The update of a stored property. It is carried out if the property is stored, its new name is free, and no
two attributes of a schema, or of one of its series, come to have the same name. The property then takes the
place of the old one wherever that stands, and nothing else changes, if the definitions of each schema stand
under their numbers. A definition that does not is lost where another one has its number. If the update is not
carried out nothing changes at all.
-/

namespace ChronicleMeta.Store

variable {s : Store} {old p : Property}

/-- Stores that come about by requests, with schemas that come about, whatever numbers their definitions
are given. -/
inductive Arises : Store → Prop
  | empty (database : DatabaseId) : Arises { database }
  | served {s : Store} (h : Arises s) {r : Request} (hr : ∀ b, r.schema? = some b → b.Arises) :
      Arises (s.serve r)

theorem Arises.consistent (h : s.Arises) : s.Consistent := by
  induction h with
  | empty database => exact consistent_empty database
  | @served s _ r _ ih => exact ih.serve r

/-- What is true of the definitions of the schemas that requests bring in, as they are when a session is
closed, and stays when properties are changed is true of the definitions of every stored schema. -/
theorem forall_definitions_serve {P : Definitions → Prop} {r : Request}
    (hs : ∀ n b, s.schemas.get? n = some b → P b.definitions)
    (hr : ∀ b, r.schema? = some b → P b.definitions.consolidate)
    (hmap : ∀ d d' (f : PropertyMap Unit), P d → (d.mapProperties f).run () = .ok (d', ()) → P d') :
    ∀ n b, (s.serve r).schemas.get? n = some b → P b.definitions := by
  intro n b' hb'
  cases origin_of_serve hb' with
  | kept hb => exact hs n b' hb
  | @brought b _ hbrings => exact hr b hbrings
  | rewritten _ _ hb hrun =>
    obtain ⟨d, u, hd, hrun⟩ := run_bind_eq_ok_iff.1 hrun
    obtain ⟨rfl, -⟩ := run_pure_eq_ok_iff.1 hrun
    exact hmap _ d _ (hs n _ hb) hd

theorem Arises.definitions (h : s.Arises) :
    ∀ n b, s.schemas.get? n = some b → b.definitions.Arises := by
  induction h with
  | empty database => simp
  | served _ hr ih =>
    exact forall_definitions_serve ih (fun b hb => (hr b hb).definitions.consolidate)
      fun _ _ _ hd hrun => hd.mapProperties hrun

/-- The definitions of every schema stand under their numbers. -/
def Keyed (s : Store) : Prop := ∀ n b, s.schemas.get? n = some b → b.definitions.Keyed

theorem Arises.frozen (h : s.Arises) (hkeyed : s.Keyed) {n : String} {b : Blueprint}
    (hb : s.schemas.get? n = some b) : b.definitions.Frozen :=
  (h.definitions n b hb).frozen (h.consistent.closed n b hb).resting (hkeyed n b hb)

theorem arises_run (database : DatabaseId) {rs : List Request}
    (hrs : ∀ r ∈ rs, ∀ b, r.schema? = some b → b.Arises) : (rs.foldl serve { database }).Arises :=
  List.foldlRecOn (motive := Arises) rs serve (.empty database) fun _ hs r hr => .served hs (hrs r hr)

/-- Definitions stand under their numbers as long as changes keep the numbers. -/
theorem keyed_run (database : DatabaseId) {rs : List Request}
    (hrs : ∀ r ∈ rs, ∀ b, r.schema? = some b → b.Numbered) : (rs.foldl serve { database }).Keyed := by
  have hnumbered : ∀ n b, (rs.foldl serve { database }).schemas.get? n = some b →
      b.definitions.Numbered :=
    List.foldlRecOn (motive := fun s : Store => ∀ n b, s.schemas.get? n = some b → b.definitions.Numbered)
      rs serve (by simp) fun s hs r hr => forall_definitions_serve hs
        (fun b hb => (hrs r hr b hb).definitions.consolidate) fun _ _ _ hd hrun => hd.mapProperties hrun
  exact fun n b hb => (hnumbered n b hb).keyed

/-- What a property becomes where `p` takes the place of the one with its surrogate. -/
def renew (p q : Property) : Property := if q.surrogate.agrees p.surrogate then p else q

theorem replaceBy_eq (p : Property) : replaceBy p = exchange (renew p) := rfl

private theorem exists_foldlM_rewrite {l : List (String × Blueprint)}
    (h : ∀ e ∈ l, ∃ b', (e.2.mapProperties (replaceBy p)).run () = .ok (b', ()))
    (m : SortedMap String Blueprint) :
    ∃ m', l.foldlM (fun (m : SortedMap String Blueprint) e => do
      let (b, ()) ← (e.2.mapProperties (replaceBy p)).run ()
      return m.insert e.1 b) m = .ok m' := by
  induction l generalizing m with
  | nil => exact ⟨m, rfl⟩
  | cons e l ih =>
    obtain ⟨b', hb'⟩ := h e List.mem_cons_self
    obtain ⟨m', hm'⟩ := ih (fun e he => h e (List.mem_cons_of_mem _ he)) (m.insert e.1 b')
    refine ⟨m', ?_⟩
    rw [List.foldlM_cons, hb']
    exact hm'

/-- The schemas can be rewritten one after the other if each of them can. -/
theorem exists_rewriteSchemas_iff {schemas : SortedMap String Blueprint} :
    (∃ schemas', rewriteSchemas p schemas = .ok schemas') ↔
      ∀ n b, schemas.get? n = some b → ∃ b', (b.mapProperties (replaceBy p)).run () = .ok (b', ()) := by
  constructor
  · rintro ⟨schemas', h⟩ n b hb
    have hrel := rel_rewriteSchemas h n
    rw [hb] at hrel
    generalize schemas'.get? n = b' at hrel
    cases hrel with
    | some hrun => exact ⟨_, hrun⟩
  · intro h
    exact exists_foldlM_rewrite (fun e he => h e.1 e.2 (SortedMap.mem_toList_iff.1 he)) ∅

/-- The property `p` has the surrogate of the stored property `old`, and a name that is free. -/
structure Supersedes (s : Store) (old p : Property) : Prop where
  stored : s.properties.get? old.name = some old
  surrogate_eq : old.surrogate = p.surrogate
  free : old.name ≠ p.name → s.properties.get? p.name = none

/-- Whether `p` can take the place of the stored property `old`: it supersedes that, and no schema comes to
have two attributes of the same name. -/
structure Replaceable (s : Store) (old p : Property) : Prop extends s.Supersedes old p where
  admits : ∀ n b, s.schemas.get? n = some b → b.definitions.Admits (renew p)

/-- The store `s'` is `s` with `p` in the place of `old`, where each schema has become one that it is related
to. -/
structure Replaced (R : Blueprint → Blueprint → Prop) (s : Store) (old p : Property) (s' : Store) :
    Prop where
  rest_eq : s' = { s with schemas := s'.schemas, properties := s'.properties }
  properties : ∀ n, s'.properties.get? n =
    if n = p.name then some p else if n = old.name then none else s.properties.get? n
  schemas : ∀ n, Option.Rel R (s.schemas.get? n) (s'.schemas.get? n)

/-- All that an update can do. -/
theorem Consistent.updateProperty_cases (h : s.Consistent) (p : Property) :
    (∃ e, s.updateProperty p = .fail s e) ∨
      ∃ old schemas, s.Supersedes old p ∧ rewriteSchemas p s.schemas = .ok schemas ∧
        s.updateProperty p = .ok { s with
          schemas, properties := (s.properties.erase old.name).insert p.name p } () := by
  obtain hfail | ⟨old, schemas, -, hfind, hfree, hschemas, hs⟩ := Store.updateProperty_cases s p
  · exact .inl hfail
  · obtain ⟨hget, hagrees⟩ := h.tables.properties.findValue?_eq_some_iff.1 hfind
    exact .inr ⟨old, schemas, ⟨hget, (Surrogate.agrees_iff.1 hagrees).1, hfree⟩, hschemas, hs⟩

/-- Where the property supersedes another, an update does what the rewriting of the schemas does. -/
theorem Consistent.updateProperty_of_supersedes (h : s.Consistent) (hold : s.Supersedes old p) :
    s.updateProperty p = .ofExcept s do
      let schemas ← rewriteSchemas p s.schemas
      return ((), { s with schemas, properties := (s.properties.erase old.name).insert p.name p }) := by
  have hlisted := h.tables.properties
  obtain ⟨id, hid, -⟩ := hlisted.owned old.name old hold.stored
  have hsurrogate := hold.surrogate_eq.symm.trans hid
  have hfind : s.findProperty? p.surrogate = some old := by
    have hagrees : old.surrogate.agrees p.surrogate :=
      Surrogate.agrees_iff.2 ⟨hold.surrogate_eq, _, by rw [hsurrogate]; rfl⟩
    exact hlisted.findValue?_eq_some_iff.2 ⟨hold.stored, hagrees⟩
  have howned : p.surrogate.kind = .property ∧ p.surrogate.database = s.database := by
    rw [hsurrogate]
    exact ⟨rfl, rfl⟩
  exact updateProperty_eq howned hfind hold.free

/-- All that can keep schemas from being rewritten is that a name is taken. -/
theorem raises_rewriteSchemas (p : Property) (schemas : SortedMap String Blueprint) :
    Raises (fun e => e.isDuplicate) (rewriteSchemas p schemas) := by
  unfold rewriteSchemas
  rw [replaceBy_eq]
  refine raises_foldlM (fun m e => ?_) _ _
  have hrun := (Definitions.raises_mapProperties (renew p) e.2.definitions).run_bind
    (f := fun d => pure { e.2 with definitions := d }) fun _ s => raises_ok (_, s)
  exact hrun.bind fun _ _ => raises_ok _

theorem replaced_of_rewriteSchemas {R : Blueprint → Blueprint → Prop}
    {schemas : SortedMap String Blueprint} (hschemas : rewriteSchemas p s.schemas = .ok schemas)
    (hR : ∀ n b b', s.schemas.get? n = some b →
      (b.mapProperties (exchange (renew p))).run () = .ok (b', ()) → R b b') :
    s.Replaced R old p { s with
      schemas, properties := (s.properties.erase old.name).insert p.name p } := by
  refine ⟨rfl, fun n => ?_, fun n => ?_⟩
  · simp only [SortedMap.get?_insert, SortedMap.get?_erase]
  · have hrel := rel_rewriteSchemas hschemas n
    have hn := hR n
    rw [replaceBy_eq] at hrel
    generalize s.schemas.get? n = b, schemas.get? n = b' at hrel hn
    cases hrel with
    | none => exact .none
    | some hrun => exact .some (hn _ _ rfl hrun)

theorem Arises.exists_rewriteSchemas_iff (h : s.Arises) (hkeyed : s.Keyed) :
    (∃ schemas, rewriteSchemas p s.schemas = .ok schemas) ↔
      ∀ n b, s.schemas.get? n = some b → b.definitions.Admits (renew p) := by
  rw [Store.exists_rewriteSchemas_iff, replaceBy_eq]
  exact forall_congr' fun n => forall₂_congr fun b hb => (Blueprint.renew (h.frozen hkeyed hb)).1

/-- An update that fails changes nothing, and the cause is that the property does not supersede a stored one
or that names clash in a schema. One that succeeds puts the property in the place of the stored one with its
surrogate, and of a schema nothing but its definitions changes, of which nothing but the properties is new; a
definition can only be lost to another one of its number. Where definitions stand under their numbers all of
them are left, and the update succeeds exactly if the property can be replaced. -/
theorem updateProperty_exact (h : s.Arises) (p : Property) :
    (∀ e, (s.updateProperty p).result = .error e →
        (s.updateProperty p).state = s ∧ ((∀ old, ¬s.Supersedes old p) ∨ e.isDuplicate)) ∧
      ((s.updateProperty p).result = .ok () → ∃ old, s.Supersedes old p ∧
        s.Replaced (Blueprint.Remains (renew p)) old p (s.updateProperty p).state) ∧
      (s.Keyed →
        ((s.updateProperty p).result = .ok () ↔ ∃ old, s.Replaceable old p) ∧
        ∀ old, s.Replaceable old p →
          s.Replaced (Blueprint.Renewed (renew p)) old p (s.updateProperty p).state) := by
  have hcases := h.consistent.updateProperty_cases p
  refine ⟨fun e he => ⟨?_, ?_⟩, fun hok => ?_, fun hkeyed => ⟨⟨fun hok => ?_, ?_⟩, fun old hold => ?_⟩⟩
  · obtain ⟨e, hs⟩ | ⟨old, schemas, -, -, hs⟩ := hcases
    · rw [hs]
      rfl
    · rw [hs] at he
      cases he
  · rw [or_iff_not_imp_left, not_forall_not]
    rintro ⟨old, hold⟩
    rw [h.consistent.updateProperty_of_supersedes hold] at he
    cases hschemas : rewriteSchemas p s.schemas with
    | error e' =>
      rw [hschemas] at he
      obtain rfl : e' = e := Except.error.inj he
      exact raises_rewriteSchemas p s.schemas e' hschemas
    | ok schemas =>
      rw [hschemas] at he
      cases he
  · obtain ⟨e, hs⟩ | ⟨old, schemas, hold, hschemas, hs⟩ := hcases
    · rw [hs] at hok
      cases hok
    · rw [hs]
      exact ⟨old, hold, replaced_of_rewriteSchemas hschemas fun n b b' hb =>
        Blueprint.remains_of_mapProperties (h.definitions n b hb) (h.consistent.closed n b hb).resting⟩
  · obtain ⟨e, hs⟩ | ⟨old, schemas, hold, hschemas, -⟩ := hcases
    · rw [hs] at hok
      cases hok
    · exact ⟨old, hold, (h.exists_rewriteSchemas_iff hkeyed).1 ⟨schemas, hschemas⟩⟩
  · rintro ⟨old, hold⟩
    obtain ⟨schemas, hschemas⟩ := (h.exists_rewriteSchemas_iff hkeyed).2 hold.admits
    rw [h.consistent.updateProperty_of_supersedes hold.toSupersedes, hschemas]
    rfl
  · obtain ⟨schemas, hschemas⟩ := (h.exists_rewriteSchemas_iff hkeyed).2 hold.admits
    rw [h.consistent.updateProperty_of_supersedes hold.toSupersedes, hschemas]
    exact replaced_of_rewriteSchemas hschemas fun n b b' hb =>
      (Blueprint.renew (h.frozen hkeyed hb)).2 b'

def sampleWidth : Property := { sampleLength none "width" with surrogate := .committed ⟨2⟩ .property 1 }

def sampleTraffic : Series :=
  Series.serve (Series.serve { number := 1 }
    (.addAttribute { number := 4, property := some (sampleLength (some 1) "length") }))
    (.addAttribute { number := 5, property := some sampleWidth })

def sampleRoad : Blueprint :=
  Blueprint.serve (Blueprint.serve { surrogate := .pending ⟨1⟩ .schema, name := "road" }
    (.addAttribute { number := 1, property := some (sampleLength (some 1) "length") }))
    (.addSeries sampleTraffic)

def sampleRequests (b : Blueprint) : List Request :=
  [.createProperty (sampleLength none "length"), .createSchema b]

def sampleMap (b : Blueprint) : Store := (sampleRequests b).foldl serve { database := ⟨1⟩ }

/-- The length is given another name. -/
def sampleUpdate (b : Blueprint) (name : String) : Edited Store Unit :=
  (sampleMap b).updateProperty (sampleLength (some 1) name)

private theorem eq_of_mem_sampleRequests {b c : Blueprint} {r : Request} (hr : r ∈ sampleRequests b)
    (hc : r.schema? = some c) : c = b := by
  simp only [sampleRequests, List.mem_cons, List.not_mem_nil, or_false] at hr
  rcases hr with rfl | rfl <;> cases hc
  rfl

/-- The length can be called an extent, but not a width, of which the traffic would then have two. -/
theorem updateProperty_exact_sample :
    (sampleMap sampleRoad).Arises ∧ (sampleMap sampleRoad).Keyed ∧
      (sampleUpdate sampleRoad "extent").result = .ok () ∧
      (∃ old, (sampleMap sampleRoad).Replaced (Blueprint.Renewed (renew (sampleLength (some 1) "extent")))
        old (sampleLength (some 1) "extent") (sampleUpdate sampleRoad "extent").state) ∧
      ∃ e, (sampleUpdate sampleRoad "width").result = .error e ∧
        (sampleUpdate sampleRoad "width").state = sampleMap sampleRoad := by
  have harises : sampleTraffic.Arises := .served (.served (.new 1) _) _
  have hmap : (sampleMap sampleRoad).Arises := arises_run ⟨1⟩ fun r hr b hb =>
    eq_of_mem_sampleRequests hr hb ▸
      .served (r := .addSeries _) (.served (r := .addAttribute _) (.new _ _) trivial) harises
  have htraffic : sampleTraffic.Numbered :=
    .served (r := .addAttribute _) (.served (r := .addAttribute _) (.new 1) trivial) trivial
  have hroad : sampleRoad.Numbered :=
    .served (r := .addSeries _) (.served (r := .addAttribute _) (.new _ _) trivial) htraffic
  have hkeyed : (sampleMap sampleRoad).Keyed :=
    keyed_run ⟨1⟩ fun r hr b hb => eq_of_mem_sampleRequests hr hb ▸ hroad
  have hok : (sampleUpdate sampleRoad "extent").result = .ok () := rfl
  have hfails : (sampleUpdate sampleRoad "width").result.toBool = false := rfl
  refine ⟨hmap, hkeyed, hok, ?_, ?_⟩
  · obtain ⟨-, -, hexact⟩ := updateProperty_exact hmap (sampleLength (some 1) "extent")
    obtain ⟨hreplaceable, hrenewed⟩ := hexact hkeyed
    obtain ⟨old, hold⟩ := hreplaceable.1 hok
    exact ⟨old, hrenewed old hold⟩
  · obtain ⟨hunchanged, -⟩ := updateProperty_exact hmap (sampleLength (some 1) "width")
    cases hresult : (sampleUpdate sampleRoad "width").result with
    | ok u =>
      rw [hresult] at hfails
      cases hfails
    | error e => exact ⟨e, rfl, (hunchanged e hresult).1⟩

/-- A road whose second attribute, the width, has been replaced by another definition of the first. -/
def sampleRenumbered : Blueprint :=
  let new : Blueprint := { surrogate := .pending ⟨1⟩ .schema, name := "road" }
  let length : Attribute := { number := 1, property := some (sampleLength (some 1) "length") }
  let width : Attribute := { number := 1, property := some sampleWidth }
  Blueprint.serve
    (Blueprint.serve (Blueprint.serve new (.addAttribute length)) (.addAttribute { width with number := 2 }))
    (.editAttribute 2 fun _ => .ok ((), width))

/-- The names of the attributes that the road has in the store. -/
def sampleNames (s : Store) : Option (List (Option String)) :=
  (s.schemas.get? "road").map fun b => b.definitions.attributes.components.map Component.name?

/-- The update of the length succeeds, and the width is lost, which stands under the number of the
length. -/
theorem updateProperty_of_renumbered :
    (sampleMap sampleRenumbered).Arises ∧ (sampleUpdate sampleRenumbered "extent").result = .ok () ∧
      sampleNames (sampleMap sampleRenumbered) = some [some "length", some "width"] ∧
      sampleNames (sampleUpdate sampleRenumbered "extent").state = some [some "extent"] := by
  have harises : sampleRenumbered.Arises := .served (r := .editAttribute 2 _)
    (.served (r := .addAttribute _) (.served (r := .addAttribute _) (.new _ _) trivial) trivial) trivial
  exact ⟨arises_run ⟨1⟩ fun r hr b hb => eq_of_mem_sampleRequests hr hb ▸ harises, rfl, rfl, rfl⟩

end ChronicleMeta.Store
