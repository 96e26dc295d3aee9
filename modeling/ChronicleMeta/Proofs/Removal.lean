import ChronicleMeta.Proofs.Arising
import ChronicleMeta.Proofs.Runs

/-!
Series that are removals. Of a removal only its number is used, to drop what is inherited, so what is
defined in one is defined in vain. A removal is empty as long as no attribute is erased in it; every
other change that defines something makes it a definition again.
-/

namespace ChronicleMeta.Series

variable {x y : Series}

/-- A series with neither a description nor attributes. -/
structure Bare (x : Series) : Prop where
  description_eq : x.description = none
  components_eq : x.attributes.components = []

/-- If the series is a removal, it is empty. -/
def Vacant (x : Series) : Prop := x.erasing → x.Bare

/-- What happens to a series: a request, or what a container of series does to one of its own, which
stays as it is where this fails. -/
inductive Change where
  | request (r : Request)
  | merge (other : Series)
  | mapProperties {σ : Type} (f : PropertyMap σ) (s : σ)

/-- The series after the change, whether it succeeds or fails. -/
def change (x : Series) : Change → Series
  | .request r => x.serve r
  | .merge other => (x.merge other).toOption.getD x
  | .mapProperties f s => (((x.mapProperties f).run s).toOption.map Prod.fst).getD x

/-- An attribute is erased in a removal, which stays a removal. -/
def Spoils (x : Series) (c : Change) : Prop :=
  ∃ n, c = .request (.eraseAttribute n) ∧ x.erasing ∧ (x.eraseAttribute n).result = .ok ()

theorem Vacant.of_erasing_eq_false (h : x.erasing = false) : x.Vacant := by
  intro herasing
  rw [h] at herasing
  cases herasing

/-- Attributes that are changed otherwise than by an addition stay none if there were none. -/
theorem Vacant.withAttributes (h : x.Vacant) {c : Container Attribute}
    (hc : x.attributes.components = [] → c.components = []) : (x.withAttributes c).Vacant := by
  intro herasing
  obtain ⟨hdescription, hcomponents⟩ := h herasing
  exact ⟨hdescription, hc hcomponents⟩

/-- A reserved attribute that cannot be set leaves none where there was none. -/
theorem components_setReserved_of_error {c : Container Attribute} (h : c.components = [])
    {n : UInt32} {v : Value} {e : Error} (herror : (setReserved c n v).result = .error e) :
    (setReserved c n v).state.components = [] := by
  have hout : c.contains n = false :=
    (Container.get?_draft_eq_none_iff c n).1 (Container.components_eq_nil_iff.1 h n)
  revert herror
  rw [setReserved, hout, if_neg Bool.false_ne_true]
  cases Builtin.ofAttribute? n with
  | none => exact fun _ => h
  | some p =>
    dsimp only
    cases Attribute.ofProperty n p (some v) with
    | error e => exact fun _ => h
    | ok a =>
      intro herror
      refine Container.components_add_of_nil h fun hadded => ?_
      have hok : ((c.add a).map fun _ => ()).result = .ok () := by
        rw [Outcome.map, hadded]
        rfl
      cases hok.symm.trans herror

theorem Vacant.setStructural (h : x.Vacant) (n : UInt32) (text : String) :
    (x.setStructural n text).state.Vacant := by
  unfold Series.setStructural whenEditable
  split
  · exact h
  · unfold Outcome.andThen
    split
    next => exact .of_erasing_eq_false rfl
    next e he => exact h.withAttributes fun hnil => components_setReserved_of_error hnil he

theorem Vacant.setDescription (h : x.Vacant) (description : Option String) :
    (x.setDescription description).state.Vacant := by
  unfold Series.setDescription whenEditable
  split
  · exact h
  · intro herasing
    obtain ⟨hx, hnone⟩ := Bool.and_eq_true_iff.1 herasing
    exact ⟨Option.isNone_iff_eq_none.1 hnone, (h hx).components_eq⟩

theorem Vacant.addAttribute (h : x.Vacant) (a : Attribute) : (x.addAttribute a).state.Vacant := by
  unfold Series.addAttribute whenCustom
  split
  · exact h
  · have hkept : (x.attributes.add a).result ≠ .ok true →
        (x.withAttributes (x.attributes.add a).state).Vacant := fun hadd =>
      h.withAttributes fun hnil => Container.components_add_of_nil hnil hadd
    cases hadd : (x.attributes.add a).result with
    | error e =>
      simp only [Outcome.andThen, Outcome.inState, hadd, Outcome.fail]
      exact hkept (by simp [hadd])
    | ok added =>
      simp only [Outcome.andThen, Outcome.inState, hadd, Outcome.ok]
      cases added with
      | true => exact .of_erasing_eq_false rfl
      | false => exact hkept (by simp [hadd])

theorem Vacant.deleteAttribute (h : x.Vacant) (n : UInt32) : (x.deleteAttribute n).state.Vacant := by
  unfold Series.deleteAttribute whenCustom
  split
  · exact h
  · refine h.withAttributes fun hnil => ?_
    rw [Container.delete_of_nil hnil, hnil]

theorem Vacant.editAttribute {α : Type} (h : x.Vacant) (n : UInt32)
    (f : Attribute → Except Error (α × Attribute)) : (x.editAttribute n f).state.Vacant := by
  unfold Series.editAttribute whenEditable
  split
  · exact h
  · refine h.withAttributes fun hnil => ?_
    rw [Container.editComponent_of_nil hnil]
    exact Container.components_edit_of_nil hnil

theorem Vacant.setErasing (h : x.Vacant) (erasing : Bool) : (x.setErasing erasing).state.Vacant := by
  unfold Series.setErasing whenEditable
  split
  · exact h
  · cases erasing with
    | true => exact fun _ => ⟨rfl, rfl⟩
    | false => exact .of_erasing_eq_false rfl

/-- An attribute that may be erased is erased in a series that stays what it was, a removal or none. -/
theorem eraseAttribute_eq_of_ok {n : UInt32} (h : (x.eraseAttribute n).result = .ok ()) :
    (x.eraseAttribute n).state.erasing = x.erasing ∧
      (x.eraseAttribute n).state.attributes.components ≠ [] := by
  revert h
  unfold eraseAttribute whenCustom
  split
  · exact nofun
  · exact fun _ => ⟨rfl, Container.components_erase_ne_nil x.attributes n⟩

theorem Vacant.eraseAttribute (h : x.Vacant) {n : UInt32}
    (hn : ¬x.Spoils (.request (.eraseAttribute n))) : (x.eraseAttribute n).state.Vacant := by
  cases hresult : (x.eraseAttribute n).result with
  | error e =>
    have hsame : (x.eraseAttribute n).state = x := by
      revert hresult
      unfold Series.eraseAttribute whenCustom
      split
      · exact fun _ => rfl
      · intro hresult
        cases (Container.result_erase x.attributes n).symm.trans hresult
    rwa [hsame]
  | ok =>
    have herasing := (eraseAttribute_eq_of_ok hresult).1
    refine .of_erasing_eq_false ?_
    rw [herasing, Bool.eq_false_iff]
    exact fun hx => hn ⟨n, rfl, hx, hresult⟩

theorem Vacant.change (h : x.Vacant) {c : Change} (hc : ¬x.Spoils c) : (x.change c).Vacant := by
  cases c with
  | request r =>
    cases r with
    | setStructural n text => exact h.setStructural n text
    | setDescription description => exact h.setDescription description
    | addAttribute a => exact h.addAttribute a
    | deleteAttribute n => exact h.deleteAttribute n
    | eraseAttribute n => exact h.eraseAttribute hc
    | editAttribute n f => exact h.editAttribute n f
    | setErasing erasing => exact h.setErasing erasing
    | setEditable editable =>
      intro herasing
      obtain ⟨hdescription, hcomponents⟩ := h herasing
      exact ⟨hdescription, hcomponents⟩
    | freeze =>
      intro herasing
      obtain ⟨hdescription, hcomponents⟩ := h herasing
      exact ⟨hdescription, Container.components_consolidate_of_nil hcomponents⟩
  | merge other =>
    change ((x.merge other).toOption.getD x).Vacant
    cases hmerge : x.merge other with
    | error e => exact h
    | ok y =>
      obtain ⟨c, -, rfl⟩ := merge_eq_ok hmerge
      exact .of_erasing_eq_false rfl
  | mapProperties f s =>
    change ((((x.mapProperties f).run s).toOption.map Prod.fst).getD x).Vacant
    cases hrun : (x.mapProperties f).run s with
    | error e => exact h
    | ok r =>
      obtain ⟨y, s'⟩ := r
      obtain ⟨c, hc, rfl⟩ := mapProperties_eq_ok_iff.1 hrun
      refine h.withAttributes fun hnil => ?_
      -- nothing is built anew of nothing
      obtain ⟨l, c', hl, hall, rfl⟩ := Container.rebuild_eq_ok_iff.1 hc
      rw [hnil] at hl
      obtain ⟨rfl, -⟩ := run_pure_eq_ok_iff.1 hl
      obtain rfl := Except.ok.inj hall
      rfl

theorem Vacant.change_iff (h : x.Vacant) (c : Change) : (x.change c).Vacant ↔ ¬x.Spoils c := by
  constructor
  · rintro hvacant ⟨n, rfl, herasing, hresult⟩
    obtain ⟨hsame, hcomponents⟩ := eraseAttribute_eq_of_ok hresult
    exact hcomponents (hvacant (hsame.trans herasing)).components_eq
  · exact h.change

/-- A series as it is made: a new one, a removal, or one with all its reserved attributes. -/
inductive Made : Series → Prop
  | new (n : UInt32) : Made { number := n }
  | removal (n : UInt32) : Made (Component.erasing n)
  | structured {n : UInt32} {name domain : String} {kind : ValueKind} {x : Series}
      (h : ofStructure n name kind domain = .ok x) : Made x

theorem Made.vacant (h : x.Made) : x.Vacant := by
  cases h with
  | new n => exact .of_erasing_eq_false rfl
  | removal n => exact fun _ => ⟨rfl, rfl⟩
  | @structured n name domain kind _ h =>
    obtain ⟨⟨_, named⟩, hname, h⟩ := bind_eq_ok_iff.1 h
    obtain ⟨⟨_, typed⟩, hkind, h⟩ := bind_eq_ok_iff.1 h
    obtain ⟨⟨_, timed⟩, hdomain, h⟩ := bind_eq_ok_iff.1 h
    obtain rfl := pure_eq_ok_iff.1 h
    have hnew : Vacant { number := n } := .of_erasing_eq_false rfl
    obtain ⟨-, rfl⟩ := Outcome.commit_eq_ok_iff.1 hname
    obtain ⟨-, rfl⟩ := Outcome.commit_eq_ok_iff.1 hkind
    obtain ⟨-, rfl⟩ := Outcome.commit_eq_ok_iff.1 hdomain
    exact ((hnew.setStructural _ _).setStructural _ _).setStructural _ _

/-- When removals are empty. A series that is a removal is empty at every moment exactly if no attribute
is ever erased in it while it is one; then a change that leaves it a removal leaves it with what it
had, so that nothing is lost with it. -/
theorem vacant_run (h : x.Made) (cs : List Change) :
    ((∀ cs', cs' <+: cs → (cs'.foldl change x).Vacant) ↔
      ∀ cs' c, cs' ++ [c] <+: cs → ¬(cs'.foldl change x).Spoils c) ∧
    ((∀ cs' c, cs' ++ [c] <+: cs → ¬(cs'.foldl change x).Spoils c) →
      ∀ cs' c, cs' ++ [c] <+: cs → (cs'.foldl change x).erasing →
        ((cs'.foldl change x).change c).erasing →
          ((cs'.foldl change x).change c).description = (cs'.foldl change x).description ∧
            ((cs'.foldl change x).change c).attributes.components =
              (cs'.foldl change x).attributes.components) := by
  have hiff := forall_foldl_iff Vacant Spoils h.vacant
    (fun rs r hvacant => hvacant.change_iff r) cs
  refine ⟨hiff, fun hnone cs' c hprefix hbefore hafter => ?_⟩
  have hvacant := hiff.2 hnone cs' ((List.prefix_append cs' [c]).trans hprefix)
  obtain ⟨hdescription, hcomponents⟩ := hvacant hbefore
  obtain ⟨hdescription', hcomponents'⟩ := hvacant.change (hnone cs' c hprefix) hafter
  exact ⟨hdescription'.trans hdescription.symm, hcomponents'.trans hcomponents.symm⟩

/-- A series that becomes a removal, and a definition again with its description. -/
def restoration : List Change := [.request (.setErasing true), .request (.setDescription (some "d"))]

theorem vacant_run_sample :
    Made { number := 1 } ∧
      (∀ cs' c, cs' ++ [c] <+: restoration → ¬(cs'.foldl change { number := 1 }).Spoils c) ∧
    ∀ cs', cs' <+: restoration → (cs'.foldl change { number := 1 }).Vacant := by
  have hnone : ∀ cs' c, cs' ++ [c] <+: restoration →
      ¬(cs'.foldl change { number := 1 }).Spoils c := by
    rintro cs' c hprefix ⟨n, rfl, -⟩
    have hmem := hprefix.subset (List.mem_append_right cs' List.mem_cons_self)
    simp [restoration] at hmem
  exact ⟨.new 1, hnone, (vacant_run (.new 1) restoration).1.2 hnone⟩

/-- An attribute that is erased in a removal is defined there, and the series is a removal still. -/
theorem vacant_run_erased :
    (Component.erasing 1 : Series).Made ∧
      ((Component.erasing 1 : Series).eraseAttribute 4).result = .ok () ∧
    ((Component.erasing 1 : Series).eraseAttribute 4).state.erasing ∧
      ((Component.erasing 1 : Series).eraseAttribute 4).state.attributes.numbers = [4] ∧
    ¬([.request (.eraseAttribute 4)].foldl change (Component.erasing 1)).Vacant := by
  refine ⟨.removal 1, rfl, rfl, by decide +kernel, fun hvacant => ?_⟩
  obtain ⟨-, hcomponents⟩ := hvacant rfl
  cases hcomponents

end ChronicleMeta.Series
