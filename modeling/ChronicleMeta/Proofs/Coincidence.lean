import ChronicleMeta.Proofs.Composition
import ChronicleMeta.Proofs.Container.Coincidence
import ChronicleMeta.Proofs.Sealed

/-!
Series that coincide, and what is seen of them. Whether the edit buffer of the attributes is open
already makes no difference to what a series is asked, nor to what it defines.
-/

namespace ChronicleMeta

open Container Component

namespace Attribute

theorem same_equivalence : Equivalence Same where
  refl := same_refl
  symm h := ⟨h.number_eq.symm, h.property_eq.symm, h.value_eq.symm, h.erasing_eq.symm⟩
  trans h h' := ⟨h.number_eq.trans h'.number_eq, h.property_eq.trans h'.property_eq,
    h.value_eq.trans h'.value_eq, h.erasing_eq.trans h'.erasing_eq⟩

theorem view_of_coincides {c d : Container Attribute} (h : c.Coincides Eq d) :
    c.view.Alike Same d.view :=
  h.view same_equivalence (fun a _ hab => hab ▸ same_refl a) fun _ => ⟨rfl, rfl, rfl, rfl⟩

end Attribute

namespace Series

/-- The same series, with the edit buffer of the attributes open or not yet. -/
structure Coincides (x y : Series) : Prop where
  number_eq : x.number = y.number
  description_eq : x.description = y.description
  erasing_eq : x.erasing = y.erasing
  editable_eq : x.editable = y.editable
  attributes : x.attributes.Coincides Eq y.attributes

/-- Both define the same under the same number, and look-ups of attributes give the same. Only one of
them may be open for changes. -/
structure Resembles (x y : Series) : Prop where
  number_eq : x.number = y.number
  description_eq : x.description = y.description
  erasing_eq : x.erasing = y.erasing
  attributes : ∀ key, Option.Rel Attribute.Same (x.attributes.find? key) (y.attributes.find? key)

variable {x y : Series} {c d : Container Attribute} {α : Type}

theorem resembles_equivalence : Equivalence Resembles where
  refl x := ⟨rfl, rfl, rfl, fun key => rel_refl Attribute.same_refl (x.attributes.find? key)⟩
  symm h := ⟨h.number_eq.symm, h.description_eq.symm, h.erasing_eq.symm,
    fun key => rel_symm (h.attributes key) fun _ _ => Attribute.same_equivalence.symm⟩
  trans h h' := ⟨h.number_eq.trans h'.number_eq, h.description_eq.trans h'.description_eq,
    h.erasing_eq.trans h'.erasing_eq,
    fun key => rel_trans (h.attributes key) (h'.attributes key)
      fun _ _ _ => Attribute.same_equivalence.trans⟩

theorem Resembles.same (h : x.Resembles y) : x.Same y :=
  ⟨h.number_eq, h.description_eq, h.erasing_eq,
    SortedMap.forall₂_values fun n => h.attributes (.number n)⟩

theorem coincides_refl (x : Series) : x.Coincides x :=
  ⟨rfl, rfl, rfl, rfl, Container.coincides_refl (fun _ => rfl) x.attributes⟩

theorem Coincides.resembles (h : x.Coincides y) : x.Resembles y :=
  ⟨h.number_eq, h.description_eq, h.erasing_eq, (Attribute.view_of_coincides h.attributes).find?⟩

theorem Coincides.name?_eq (h : x.Coincides y) : x.name? = y.name? := by
  have hslot := (Attribute.view_of_coincides h.attributes).slots Builtin.seriesName
  unfold name? structural? Container.get?
  generalize x.attributes.view.byNumber.get? Builtin.seriesName = a at hslot ⊢
  generalize y.attributes.view.byNumber.get? Builtin.seriesName = b at hslot ⊢
  cases hslot with
  | none => rfl
  | some hab => rw [Option.bind_some, Option.bind_some, hab.value_eq]

theorem view_of_coincides {c d : Container Series} (h : c.Coincides Coincides d) :
    c.view.Alike Resembles d.view :=
  h.view resembles_equivalence (fun _ _ hxy => hxy.resembles) fun x =>
    ⟨rfl, rfl, rfl, (resembles_equivalence.refl x).attributes⟩

theorem Coincides.withAttributes (h : x.Coincides y) (hcd : c.Coincides Eq d) :
    (x.withAttributes c).Coincides (y.withAttributes d) :=
  ⟨h.number_eq, h.description_eq, h.erasing_eq, h.editable_eq, hcd⟩

theorem Coincides.restored (h : x.Coincides y) : x.restored.Coincides y.restored :=
  ⟨h.number_eq, h.description_eq, rfl, h.editable_eq, h.attributes⟩

theorem Coincides.ensureEditable_eq (h : x.Coincides y) : x.ensureEditable = y.ensureEditable := by
  unfold ensureEditable
  rw [h.editable_eq, h.number_eq]

theorem Coincides.whenEditable (h : x.Coincides y) {r s : Edited Series α}
    (hrs : r.Parallel Coincides s) : (x.whenEditable r).Parallel Coincides (y.whenEditable s) := by
  unfold Series.whenEditable
  rw [h.ensureEditable_eq]
  cases y.ensureEditable with
  | error e => exact ⟨rfl, h⟩
  | ok _ => exact hrs

theorem Coincides.whenCustom (h : x.Coincides y) {r s : Edited Series α} (n : UInt32)
    (hrs : r.Parallel Coincides s) : (x.whenCustom n r).Parallel Coincides (y.whenCustom n s) := by
  have hcheck : x.checkCustom n = y.checkCustom n := by
    unfold checkCustom
    rw [h.ensureEditable_eq, h.number_eq]
  unfold Series.whenCustom
  rw [hcheck]
  cases y.checkCustom n with
  | error e => exact ⟨rfl, h⟩
  | ok _ => exact hrs

theorem Coincides.addAttribute (h : x.Coincides y) (a : Attribute) :
    (x.addAttribute a).Parallel Coincides (y.addAttribute a) := by
  have hadd := h.attributes.add (fun _ => rfl) a
  refine h.whenCustom a.number ((hadd.inState fun _ _ => h.withAttributes).andThen ?_)
  intro added x y hxy
  cases added with
  | false => exact ⟨rfl, hxy⟩
  | true => exact ⟨rfl, hxy.restored⟩

theorem Coincides.deleteAttribute (h : x.Coincides y) (n : UInt32) :
    (x.deleteAttribute n).Parallel Coincides (y.deleteAttribute n) := by
  refine h.whenCustom n ⟨?_, h.withAttributes (h.attributes.delete (fun _ _ => congrArg Component.name?) n)⟩
  exact congrArg Except.ok (h.attributes.contains_eq n)

theorem Coincides.eraseAttribute (h : x.Coincides y) (n : UInt32) :
    (x.eraseAttribute n).Parallel Coincides (y.eraseAttribute n) := by
  have herase := h.attributes.erase (fun _ => rfl) (fun _ _ => congrArg Component.name?) n
  exact h.whenCustom n (herase.inState fun _ _ => h.withAttributes)

/-- The same change of attributes that are the same. -/
theorem editComponent_parallel (h : c.Coincides Eq d) (n : UInt32)
    (f : Attribute → Except Error (α × Attribute)) :
    (c.editComponent n f).Parallel (Container.Coincides Eq) (d.editComponent n f) := by
  refine h.editComponent (fun _ _ => congrArg Component.name?) (fun a b hab => ?_) n
  rw [hab]
  cases f b with
  | error e => exact .error e
  | ok p => exact .ok ⟨rfl, rfl⟩

theorem Coincides.editAttribute (h : x.Coincides y) (n : UInt32)
    (f : Attribute → Except Error (α × Attribute)) :
    (x.editAttribute n f).Parallel Coincides (y.editAttribute n f) :=
  h.whenEditable ((editComponent_parallel h.attributes n f).inState fun _ _ => h.withAttributes)

theorem setReserved_parallel (h : c.Coincides Eq d) (n : UInt32) (v : Value) :
    (setReserved c n v).Parallel (Container.Coincides Eq) (setReserved d n v) := by
  unfold setReserved
  rw [h.contains_eq]
  split_ifs
  · exact (editComponent_parallel h n _).map _
  · cases Builtin.ofAttribute? n with
    | none => exact ⟨rfl, h⟩
    | some p =>
      dsimp only
      cases Attribute.ofProperty n p (some v) with
      | error e => exact ⟨rfl, h⟩
      | ok a => exact (h.add (fun _ => rfl) a).map _

theorem Coincides.setStructural (h : x.Coincides y) (n : UInt32) (text : String) :
    (x.setStructural n text).Parallel Coincides (y.setStructural n text) := by
  have hset := setReserved_parallel h.attributes n (.text text)
  refine h.whenEditable ((hset.inState fun _ _ => h.withAttributes).andThen ?_)
  exact fun _ _ _ hxy => ⟨rfl, hxy.restored⟩

theorem Coincides.setDescription (h : x.Coincides y) (description : Option String) :
    (x.setDescription description).Parallel Coincides (y.setDescription description) := by
  refine h.whenEditable ⟨rfl, h.number_eq, rfl, ?_, h.editable_eq, h.attributes⟩
  show (x.erasing && description.isNone) = (y.erasing && description.isNone)
  rw [h.erasing_eq]

theorem Coincides.setErasing (h : x.Coincides y) (erasing : Bool) :
    (x.setErasing erasing).Parallel Coincides (y.setErasing erasing) := by
  refine h.whenEditable ⟨rfl, ?_⟩
  cases erasing with
  | false => exact h.restored
  | true =>
    exact ⟨h.number_eq, rfl, rfl, h.editable_eq, Container.coincides_refl (fun _ => rfl) {}⟩

/-- The answer to a request: whether it has been carried out, and the series it leaves. -/
def answer (x : Series) : Request → Edited Series Unit
  | .setStructural n text => x.setStructural n text
  | .setDescription description => x.setDescription description
  | .addAttribute a => (x.addAttribute a).map fun _ => ()
  | .deleteAttribute n => (x.deleteAttribute n).map fun _ => ()
  | .eraseAttribute n => x.eraseAttribute n
  | .editAttribute n f => (x.editAttribute n f).map fun _ => ()
  | .setErasing erasing => x.setErasing erasing
  | .setEditable editable => .ok (Component.setEditable editable x) ()
  | .freeze => .ok (Component.freeze x) ()

/-- Freezing apart, which makes the edit buffer the committed state, series that coincide answer a
request alike. -/
theorem Coincides.answer (h : x.Coincides y) {r : Request} (hr : r ≠ .freeze) :
    (x.answer r).Parallel Coincides (y.answer r) := by
  cases r with
  | setStructural n text => exact h.setStructural n text
  | setDescription description => exact h.setDescription description
  | addAttribute a => exact (h.addAttribute a).map _
  | deleteAttribute n => exact (h.deleteAttribute n).map _
  | eraseAttribute n => exact h.eraseAttribute n
  | editAttribute n f => exact (h.editAttribute n f).map _
  | setErasing erasing => exact h.setErasing erasing
  | setEditable editable =>
    exact ⟨rfl, h.number_eq, h.description_eq, h.erasing_eq, rfl, h.attributes⟩
  | freeze => exact absurd rfl hr

/-- The series after the requests, up to one that fails. -/
def perform (x : Series) (rs : List Request) : Except Error (Unit × Series) :=
  rs.foldlM (fun p r => (p.2.answer r).commit) ((), x)

theorem Coincides.perform (h : x.Coincides y) {rs : List Request} (hrs : ∀ r ∈ rs, r ≠ .freeze) :
    Together (fun p q => p.1 = q.1 ∧ p.2.Coincides q.2) (x.perform rs) (y.perform rs) := by
  unfold Series.perform
  induction rs generalizing x y with
  | nil => exact .ok ⟨rfl, h⟩
  | cons r rs ih =>
    obtain ⟨hr, hrs⟩ := List.forall_mem_cons.1 hrs
    rw [List.foldlM_cons, List.foldlM_cons]
    exact (h.answer hr).commit.bind fun p q hpq => ih hpq.2 hrs

/-- An attribute that is not added has opened the edit buffer at most. -/
theorem coincides_addAttribute {a : Attribute} (h : (x.addAttribute a).result ≠ .ok true) :
    x.Coincides (x.addAttribute a).state := by
  unfold addAttribute Series.whenCustom at h ⊢
  split at h
  next => exact coincides_refl x
  next =>
    have hadd : (x.attributes.add a).result ≠ .ok true := by
      intro hadd
      refine h ?_
      rw [Outcome.andThen, Outcome.inState, hadd]
      rfl
    have hopened : x.Coincides (x.withAttributes (x.attributes.add a).state) :=
      (coincides_refl x).withAttributes (Container.coincides_add (fun _ => rfl) hadd)
    unfold Outcome.andThen Outcome.inState
    dsimp only
    split
    next added hadded =>
      cases added with
      | false => exact hopened
      | true => exact absurd hadded hadd
    next => exact hopened

/-- So has an attribute that is not there, or whose change fails. -/
theorem coincides_editAttribute {n : UInt32} {f : Attribute → Except Error (α × Attribute)}
    (h : ∀ r, (x.editAttribute n f).result ≠ .ok (some r)) :
    x.Coincides (x.editAttribute n f).state := by
  unfold editAttribute Series.whenEditable at h ⊢
  split at h
  next => exact coincides_refl x
  next =>
    have hedit : x.attributes.Coincides Eq (x.attributes.editComponent n f).state :=
      Container.coincides_editComponent (fun _ => rfl) (fun _ _ => congrArg Component.name?)
        fun r hr => absurd hr (h r)
    exact (coincides_refl x).withAttributes hedit

end Series

end ChronicleMeta
