import ChronicleMeta.Proofs.Container.Invariant
import ChronicleMeta.Proofs.Definitions

/-!
The names of a container. Whatever is asked of a container, its committed state and its edit buffer
hold each component under its own number, and a name leads to the component that has it.
-/

namespace ChronicleMeta

namespace Container

open Component

variable {T : Type} [Component T] {c : Container T}

/-- Both states of the container lead from names to the components that have them. -/
structure Indexed (c : Container T) : Prop where
  committed : c.committed.Consistent
  draft : c.draft.Consistent

theorem indexed_empty : Indexed ({} : Container T) := ⟨Index.consistent_empty, Index.consistent_empty⟩

theorem Indexed.meets (h : c.Indexed) : c.Meets Index.Consistent Index.Consistent := ⟨h.committed, h.draft⟩

theorem Request.KeepsNumbers.respects {r : Request T} (hr : r.KeepsNumbers) :
    r.Respects (fun _ => True) fun x y => number y = number x := by
  cases r with
  | editComponent n f => exact hr
  | layLevel empty merge level => exact ⟨fun _ => trivial, hr⟩
  | _ => trivial

section Lawful

variable [LawfulComponent T]

theorem invariant_consistent :
    Index.Invariant (T := T) Index.Consistent Index.Consistent (fun _ => True)
      fun x y => number y = number x where
  empty := Index.consistent_empty
  thaw _ h := Index.consistent_map h (LawfulComponent.number_setEditable true)
    (LawfulComponent.name?_setEditable true)
  freeze _ h := Index.consistent_map h LawfulComponent.number_freeze LawfulComponent.name?_freeze
  erasing _ := trivial
  insert _ _ _ h _ hins := Index.consistent_insert h hins
  remove _ n h := Index.consistent_remove h n
  modify _ _ _ _ _ _ h hf hmod := Index.consistent_modify h hmod hf

theorem Indexed.serve (h : c.Indexed) {r : Request T} (hr : r.KeepsNumbers) :
    (c.serve r).Indexed := by
  have hmeets := h.meets.serve invariant_consistent hr.respects
  exact ⟨hmeets.committed, hmeets.draft⟩

theorem indexed_run {rs : List (Request T)} (hrs : ∀ r ∈ rs, r.KeepsNumbers) :
    (run {} rs).Indexed :=
  run_invariant (fun _ _ h hr => h.serve hr) indexed_empty hrs

/-- Whatever numbers the components had been standing under. -/
theorem indexed_of_rebuild {σ : Type} {f : T → StateT σ (Except Error) T} {c' : Container T} {s s' : σ}
    (h : (c.rebuild f).run s = .ok (c', s')) : c'.Indexed := by
  have hmeets : c'.Meets Index.Consistent Index.Consistent :=
    meets_of_rebuild invariant_consistent (fun _ _ _ _ _ _ => trivial) h
  exact ⟨hmeets.committed, hmeets.draft⟩

end Lawful

theorem Indexed.buffer (h : c.Indexed) {ix : Index T} (hb : c.buffer = some ix) : ix.Consistent :=
  draft_of_buffer hb ▸ h.draft

theorem Indexed.view (h : c.Indexed) : c.view.Consistent := h.meets.view

theorem Indexed.eq_of_name (h : c.Indexed) {m n : UInt32} {x y : T} {s : String}
    (hm : c.get? m = some x) (hn : c.get? n = some y) (hx : name? x = some s)
    (hy : name? y = some s) : m = n :=
  h.view.eq_of_name hm hn hx hy

theorem Indexed.find?_name_iff (h : c.Indexed) {s : String} {x : T} :
    c.find? (.name s) = some x ↔ x ∈ c.components ∧ name? x = some s := by
  change (c.view.byName.get? s).bind c.view.byNumber.get? = some x ↔ x ∈ c.view.byNumber.values ∧ _
  rw [Option.bind_eq_some_iff, SortedMap.mem_values_iff]
  constructor
  · rintro ⟨n, hn, hx⟩
    obtain ⟨y, hy, hs⟩ := (h.view.byName_iff s n).1 hn
    obtain rfl : y = x := Option.some.inj (hy.symm.trans hx)
    exact ⟨⟨n, hx⟩, hs⟩
  · rintro ⟨⟨n, hx⟩, hs⟩
    exact ⟨n, (h.view.byName_iff s n).2 ⟨x, hx, hs⟩, hx⟩

end Container

namespace Series

theorem name?_eq_some_iff {x : Series} {s : String} : x.name? = some s ↔
    ∃ a, x.attributes.get? Builtin.seriesName = some a ∧ a.value = some (.text s) := by
  have htext : ∀ v : Value, v.text? = some s ↔ v = .text s := by
    intro v
    cases v <;> simp [Value.text?]
  simp only [name?, structural?, Option.bind_eq_some_iff, htext]
  constructor
  · rintro ⟨v, ⟨a, ha, hv⟩, rfl⟩
    exact ⟨a, ha, hv⟩
  · rintro ⟨a, ha, hv⟩
    exact ⟨_, ⟨a, ha, hv⟩, rfl⟩

theorem number_setStructural {x y : Series} {n : UInt32} {text : String} {u : Unit}
    (h : (x.setStructural n text).commit = .ok (u, y)) : y.number = x.number := by
  obtain ⟨hres, rfl⟩ := Outcome.commit_eq_ok_iff.1 h
  unfold setStructural whenEditable Outcome.andThen at hres ⊢
  split at hres
  next => simp [Outcome.fail] at hres
  next =>
    split at hres
    next => rfl
    next => simp [Outcome.fail] at hres

end Series

namespace Container

open Component

/-- Whatever has been asked of a container, in its committed state and in its edit buffer each
component is under its own number, and a name leads to the number of the component that has it; so
the components in view have names of their own, and a look-up by name gives the component in view
that has the name. The name of an attribute is that of its property, and the name of a series is the
text of its first attribute, which a change of the series may change. -/
theorem names_run :
    (∀ (T : Type) [Component T] [LawfulComponent T] (rs : List (Request T)),
      (∀ r ∈ rs, r.KeepsNumbers) →
        (∀ ix, ix = (run {} rs).committed ∨ (run {} rs).buffer = some ix → ix.Consistent) ∧
        (∀ m n x y s, (run {} rs).get? m = some x → (run {} rs).get? n = some y →
          name? x = some s → name? y = some s → m = n) ∧
        ∀ s x, (run {} rs).find? (.name s) = some x ↔
          x ∈ (run {} rs).components ∧ name? x = some s) ∧
    (∀ rs : List (Request Attribute), (∀ r ∈ rs, r.KeepsNumbers) → ∀ s a,
      (run {} rs).find? (.name s) = some a ↔
        a ∈ (run {} rs).components ∧ ∃ p, a.property = some p ∧ p.name = s) ∧
    ∀ rs : List (Request Series), (∀ r ∈ rs, r.KeepsNumbers) → ∀ s x,
      (run {} rs).find? (.name s) = some x ↔
        x ∈ (run {} rs).components ∧
          ∃ a, x.attributes.get? Builtin.seriesName = some a ∧ a.value = some (.text s) := by
  refine ⟨fun T _ _ rs hrs => ?_, fun rs hrs s a => ?_, fun rs hrs s x => ?_⟩
  · have h := indexed_run hrs
    refine ⟨?_, fun m n x y s => h.eq_of_name, fun s x => h.find?_name_iff⟩
    rintro ix (rfl | hb)
    · exact h.committed
    · exact h.buffer hb
  · rw [(indexed_run hrs).find?_name_iff, ← Option.map_eq_some_iff]
    rfl
  · rw [(indexed_run hrs).find?_name_iff, ← Series.name?_eq_some_iff]
    rfl

def renameTo (n : UInt32) (name : String) : Request Series :=
  .editComponent n fun x => (x.setName name).commit

/-- Two series are named, and change their names afterwards. The second cannot take the new name of
the first, but its old one. -/
def sampleRenames : List (Request Series) := [
  .add { number := 1 }, .add { number := 2 }, renameTo 1 "a", renameTo 2 "b", .consolidate,
  renameTo 1 "c", renameTo 2 "c", renameTo 2 "a"]

theorem names_run_sample : (∀ r ∈ sampleRenames, r.KeepsNumbers) ∧
    ∃ x ∈ (run {} sampleRenames).components, x.number = 2 ∧
      ∃ a, x.attributes.get? Builtin.seriesName = some a ∧ a.value = some (.text "a") := by
  have hrename : ∀ n name, (renameTo n name).KeepsNumbers := by
    intro n name x u y h
    exact Series.number_setStructural h
  have hrs : ∀ r ∈ sampleRenames, r.KeepsNumbers := by
    simp only [sampleRenames, List.forall_mem_cons]
    exact ⟨trivial, trivial, hrename 1 "a", hrename 2 "b", trivial, hrename 1 "c", hrename 2 "c",
      hrename 2 "a", List.forall_mem_nil _⟩
  refine ⟨hrs, ?_⟩
  have hfind : ((run {} sampleRenames).find? (.name "a")).map (·.number) = some 2 := by
    decide +kernel
  obtain ⟨x, hx, hnumber⟩ := Option.map_eq_some_iff.1 hfind
  obtain ⟨hmem, hname⟩ := (names_run.2.2 sampleRenames hrs "a" x).1 hx
  exact ⟨x, hmem, hnumber, hname⟩

end Container

end ChronicleMeta
