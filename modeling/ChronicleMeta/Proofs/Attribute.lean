import ChronicleMeta.Proofs.InPlace

/-!
Attributes that are well-formed: a removal has neither property nor value, and a value is of the type of
the property beside it. Requests keep attributes so, whether they succeed or fail. The property and the
value that an attribute is to have are judged as a pair, and before anything is changed.
-/

namespace ChronicleMeta.Attribute

open InPlace

variable {a b c other : Attribute} {p : Option Property} {v : Option Value}

theorem check_eq_ok_iff {t : ValueType} {v : Value} : t.check v = .ok () ↔ t.accepts v := by
  unfold ValueType.accepts
  cases t.check v with
  | error e => simp [Except.isOk, Except.toBool]
  | ok u => simp [Except.isOk, Except.toBool]

theorem ensureEditable_eq_ok_iff : a.ensureEditable = .ok () ↔ a.editable := by
  unfold ensureEditable
  split_ifs with h <;> simp [h]

theorem checkPair_eq_ok_iff :
    checkPair p v = .ok () ↔ ∀ q w, p = some q → v = some w → q.valueType.check w = .ok () := by
  cases p with
  | none => simp [checkPair]
  | some q =>
    cases v with
    | none => simp [checkPair]
    | some w =>
      rw [checkPair]
      split_ifs with h <;> simp [check_eq_ok_iff, h]

theorem ofProperty_eq_ok_iff {n : UInt32} {p : Property} : ofProperty n p v = .ok a ↔
    checkPair (some p) v = .ok () ∧ { number := n, property := some p, value := v } = a := by
  constructor
  · intro h
    obtain ⟨_, hpair, h⟩ := bind_eq_ok_iff.1 h
    exact ⟨hpair, pure_eq_ok_iff.1 h⟩
  · rintro ⟨hpair, rfl⟩
    exact bind_eq_ok_iff.2 ⟨(), hpair, rfl⟩

private theorem checked_eq_ok_iff :
    (do a.ensureEditable; checkPair p v; return c : Except Error Attribute) = .ok b ↔
      a.editable ∧ checkPair p v = .ok () ∧ c = b := by
  rw [← ensureEditable_eq_ok_iff]
  constructor
  · intro h
    obtain ⟨_, heditable, h⟩ := bind_eq_ok_iff.1 h
    obtain ⟨_, hpair, h⟩ := bind_eq_ok_iff.1 h
    exact ⟨heditable, hpair, pure_eq_ok_iff.1 h⟩
  · rintro ⟨heditable, hpair, rfl⟩
    exact bind_eq_ok_iff.2 ⟨(), heditable, bind_eq_ok_iff.2 ⟨(), hpair, rfl⟩⟩

theorem setProperty_eq_ok_iff : a.setProperty p = .ok b ↔
    a.editable ∧ checkPair p a.value = .ok () ∧
      { a with property := p, erasing := a.erasing && p.isNone } = b :=
  checked_eq_ok_iff

theorem setValue_eq_ok_iff : a.setValue v = .ok b ↔
    a.editable ∧ checkPair a.property v = .ok () ∧
      { a with value := v, erasing := a.erasing && v.isNone } = b :=
  checked_eq_ok_iff

theorem merge_eq_ok_iff : a.merge other = .ok b ↔
    a.editable ∧ checkPair (other.property.or a.property) (other.value.or a.value) = .ok () ∧
      { a with
        property := other.property.or a.property
        value := other.value.or a.value
        erasing := a.erasing && (other.property.or a.property).isNone &&
          (other.value.or a.value).isNone } = b :=
  checked_eq_ok_iff

theorem exists_merge_iff : (∃ b, a.merge other = .ok b) ↔
    a.editable ∧ checkPair (other.property.or a.property) (other.value.or a.value) = .ok () := by
  simp only [merge_eq_ok_iff, exists_and_left, exists_eq', and_true]

/-- A property and a value that go together take the place of any other two. -/
theorem exists_merge_of_check {q : Property} {w : Value} (ha : a.editable)
    (hq : other.property = some q) (hw : other.value = some w)
    (hcheck : q.valueType.check w = .ok ()) :
    ∃ b, a.merge other = .ok b ∧ b.property = some q ∧ b.value = some w := by
  have hproperty : other.property.or a.property = some q := by rw [hq, Option.some_or]
  have hvalue : other.value.or a.value = some w := by rw [hw, Option.some_or]
  have hpair : checkPair (other.property.or a.property) (other.value.or a.value) = .ok () := by
    rw [hproperty, hvalue, checkPair_eq_ok_iff]
    rintro _ _ ⟨⟩ ⟨⟩
    exact hcheck
  exact ⟨_, merge_eq_ok_iff.2 ⟨ha, hpair, rfl⟩, hproperty, hvalue⟩

theorem parseValue_eq_ok_iff {input : String} : a.parseValue input = .ok b ↔
    ∃ p v, a.property = some p ∧ p.valueType.parse input = .ok v ∧ a.setValue (some v) = .ok b := by
  unfold parseValue
  cases a.property with
  | none => simp [throw, throwThe, MonadExceptOf.throw]
  | some p => simp [bind_eq_ok_iff]

inductive Request where
  | setProperty (p : Option Property)
  | setValue (v : Option Value)
  | parseValue (input : String)
  | setErasing (erasing : Bool)
  | setEditable (editable : Bool)
  | freeze
  | merge (other : Attribute)

/-- The attribute that the request makes of one, unless it fails. -/
def apply (a : Attribute) : Request → Except Error Attribute
  | .setProperty p => a.setProperty p
  | .setValue v => a.setValue v
  | .parseValue input => a.parseValue input
  | .setErasing erasing => a.setErasing erasing
  | .setEditable editable => .ok (Component.setEditable editable a)
  | .freeze => .ok (Component.freeze a)
  | .merge other => a.merge other

def answer (a : Attribute) (r : Request) : Edited Attribute Unit :=
  .ofExcept a ((a.apply r).map ((), ·))

def serve (a : Attribute) (r : Request) : Attribute := (a.answer r).state

/-- An attribute that gets a property or a value is no removal any more. -/
def endRemoval (defines : Bool) : InPlace Attribute Unit := do
  if defines then modify fun a => { a with erasing := false }

/-- Sets or clears the default value of the attribute itself. -/
def setValueInPlace (v : Option Value) : InPlace Attribute Unit := do
  (← get).ensureEditable
  checkPair (← get).property v
  endRemoval v.isSome
  modify fun a => { a with value := v }

/-- The request as checks and changes of one field after the other. -/
def Request.inPlace : Request → InPlace Attribute Unit
  | .setProperty p => do
    (← get).ensureEditable
    checkPair p (← get).value
    endRemoval p.isSome
    modify fun a => { a with property := p }
  | .setValue v => setValueInPlace v
  | .parseValue input => do
    match (← get).property with
    | none => throw (.ofArgument (.noProperty (← get).number input))
    | some p => setValueInPlace (some (← p.valueType.parse input))
  | .setErasing erasing => do
    (← get).ensureEditable
    if erasing then
      modify fun a => { a with property := none }
      modify fun a => { a with value := none }
    modify fun a => { a with erasing }
  | .setEditable editable => modify fun a => { a with editable }
  | .freeze => modify fun a => { a with editable := false }
  | .merge other => do
    (← get).ensureEditable
    let p := other.property.or (← get).property
    let v := other.value.or (← get).value
    checkPair p v
    endRemoval (p.isSome || v.isSome)
    modify fun a => { a with property := p }
    modify fun a => { a with value := v }

theorem atOnce_endRemoval {x : InPlace Attribute Unit} {defines : Bool}
    (h : AtOnce x { a with erasing := a.erasing && !defines } (.ok b)) :
    AtOnce (do endRemoval defines; x) a (.ok b) := by
  cases defines with
  | true =>
    rw [Bool.not_true, Bool.and_false] at h
    exact .modify h
  | false =>
    rw [Bool.not_false, Bool.and_true] at h
    exact h

theorem atOnce_setValue (a : Attribute) (v : Option Value) :
    AtOnce (setValueInPlace v) a (a.setValue v) := by
  refine .get (.check fun _ => .get (.check fun _ => ?_))
  rw [← Option.not_isSome]
  exact atOnce_endRemoval (atOnce_modify _ _)

/-- In place, a request comes to what it makes of the attribute. -/
theorem atOnce_inPlace (a : Attribute) (r : Request) : AtOnce r.inPlace a (a.apply r) := by
  -- In each case the checks are taken off first; what is left only changes fields, and cannot fail.
  cases r with
  | setProperty p =>
    refine .get (.check fun _ => .get (.check fun _ => ?_))
    rw [← Option.not_isSome]
    exact atOnce_endRemoval (atOnce_modify _ _)
  | setValue v => exact atOnce_setValue a v
  | parseValue input =>
    refine .get ?_
    rw [apply, parseValue]
    cases a.property with
    | none => exact .get (atOnce_throw _ a)
    | some p => exact .check fun w => atOnce_setValue a (some w)
  | setErasing erasing =>
    refine .get (.check fun _ => ?_)
    cases erasing with
    | true => exact .modify (.modify (atOnce_modify _ _))
    | false => exact atOnce_modify _ a
  | setEditable editable => exact atOnce_modify _ a
  | freeze => exact atOnce_modify _ a
  | merge other =>
    refine .get (.check fun _ => .get (.get (.check fun _ => ?_)))
    rw [Bool.and_assoc, ← Option.not_isSome, ← Option.not_isSome, ← Bool.not_or]
    exact atOnce_endRemoval (.modify (atOnce_modify _ _))

/-- The default value, if there is one, is of the type of the property, if there is one. -/
def Fitting (a : Attribute) : Prop :=
  ∀ p v, a.property = some p → a.value = some v → p.valueType.check v = .ok ()

theorem fitting_of_checkPair (h : checkPair a.property a.value = .ok ()) : a.Fitting :=
  checkPair_eq_ok_iff.1 h

/-- A removal has neither property nor value, and a value is of the type of the property beside it. -/
structure WellFormed (a : Attribute) : Prop where
  bare : a.erasing → a.property = none ∧ a.value = none
  fitting : a.Fitting

theorem WellFormed.setProperty (h : a.WellFormed) (hb : a.setProperty p = .ok b) : b.WellFormed := by
  obtain ⟨-, hpair, rfl⟩ := setProperty_eq_ok_iff.1 hb
  refine ⟨fun herasing => ?_, fitting_of_checkPair hpair⟩
  obtain ⟨ha, hnone⟩ := Bool.and_eq_true_iff.1 herasing
  exact ⟨Option.isNone_iff_eq_none.1 hnone, (h.bare ha).2⟩

theorem WellFormed.setValue (h : a.WellFormed) (hb : a.setValue v = .ok b) : b.WellFormed := by
  obtain ⟨-, hpair, rfl⟩ := setValue_eq_ok_iff.1 hb
  refine ⟨fun herasing => ?_, fitting_of_checkPair hpair⟩
  obtain ⟨ha, hnone⟩ := Bool.and_eq_true_iff.1 herasing
  exact ⟨(h.bare ha).1, Option.isNone_iff_eq_none.1 hnone⟩

theorem WellFormed.setErasing (h : a.WellFormed) {erasing : Bool} (hb : a.setErasing erasing = .ok b) :
    b.WellFormed := by
  obtain ⟨_, -, hb⟩ := bind_eq_ok_iff.1 hb
  obtain rfl := pure_eq_ok_iff.1 hb
  cases erasing with
  | true => exact ⟨fun _ => ⟨rfl, rfl⟩, fitting_of_checkPair rfl⟩
  | false => exact ⟨nofun, h.fitting⟩

/-- A merge leaves a well-formed attribute whatever it is made to. -/
theorem wellFormed_of_merge (hb : a.merge other = .ok b) : b.WellFormed := by
  obtain ⟨-, hpair, rfl⟩ := merge_eq_ok_iff.1 hb
  refine ⟨fun herasing => ?_, fitting_of_checkPair hpair⟩
  obtain ⟨herasing, hvalue⟩ := Bool.and_eq_true_iff.1 herasing
  obtain ⟨-, hproperty⟩ := Bool.and_eq_true_iff.1 herasing
  exact ⟨Option.isNone_iff_eq_none.1 hproperty, Option.isNone_iff_eq_none.1 hvalue⟩

theorem WellFormed.apply (h : a.WellFormed) {r : Request} (hb : a.apply r = .ok b) : b.WellFormed := by
  cases r with
  | setProperty p => exact h.setProperty hb
  | setValue v => exact h.setValue hb
  | parseValue input =>
    obtain ⟨_, v, -, -, hset⟩ := parseValue_eq_ok_iff.1 hb
    exact h.setValue hset
  | setErasing erasing => exact h.setErasing hb
  | setEditable editable =>
    obtain rfl := Except.ok.inj hb
    exact ⟨h.bare, h.fitting⟩
  | freeze =>
    obtain rfl := Except.ok.inj hb
    exact ⟨h.bare, h.fitting⟩
  | merge other => exact wellFormed_of_merge hb

theorem WellFormed.serve (h : a.WellFormed) (r : Request) : (a.serve r).WellFormed := by
  unfold Attribute.serve answer
  cases hb : a.apply r with
  | error e => exact h
  | ok b => exact h.apply hb

/-- An attribute as it is made: a new one, a removal, or the definition of a property. -/
inductive Made : Attribute → Prop
  | new (n : UInt32) : Made { number := n }
  | removal (n : UInt32) : Made (Component.erasing n)
  | definition {n : UInt32} {p : Property} {v : Option Value} {a : Attribute}
      (h : ofProperty n p v = .ok a) : Made a

theorem Made.wellFormed (h : a.Made) : a.WellFormed := by
  cases h with
  | new n => exact ⟨nofun, fitting_of_checkPair rfl⟩
  | removal n => exact ⟨fun _ => ⟨rfl, rfl⟩, fitting_of_checkPair rfl⟩
  | definition h =>
    obtain ⟨hpair, rfl⟩ := ofProperty_eq_ok_iff.1 h
    exact ⟨nofun, fitting_of_checkPair hpair⟩

theorem WellFormed.run (h : a.WellFormed) (rs : List Request) :
    (rs.foldl Attribute.serve a).WellFormed :=
  List.foldlRecOn rs Attribute.serve h fun _ hb r _ => hb.serve r

/-- Attributes after any requests, whether these succeed or fail. A removal has neither property nor
value, a value is of the type of the property, and a request that fails at one of its steps has changed
nothing before. Another attribute can be merged into one exactly if the one may be changed and the
property and the value that it comes to have go together, those of the other where it sets them. So
two that go with one another only can take the place of the old ones. -/
theorem wellFormed_run (h : a.Made) (rs : List Request) :
    let b := rs.foldl serve a
    (b.erasing → b.property = none ∧ b.value = none) ∧
    (∀ p v, b.property = some p → b.value = some v → p.valueType.check v = .ok ()) ∧
    (∀ r : Request, r.inPlace.outcome b = b.answer r ∧
      ∀ e, (r.inPlace.outcome b).result = .error e → (r.inPlace.outcome b).state = b) ∧
    ∀ other : Attribute,
      ((∃ c, b.merge other = .ok c) ↔ b.editable ∧
        ∀ p v, other.property.or b.property = some p → other.value.or b.value = some v →
          p.valueType.check v = .ok ()) ∧
      (∀ c, b.merge other = .ok c →
        c.property = other.property.or b.property ∧ c.value = other.value.or b.value) ∧
      ∀ p v, b.editable → other.property = some p → other.value = some v →
        p.valueType.check v = .ok () →
          ∃ c, b.merge other = .ok c ∧ c.property = some p ∧ c.value = some v := by
  intro b
  have hb : b.WellFormed := h.wellFormed.run rs
  refine ⟨hb.bare, hb.fitting, fun r => ?_, fun other => ⟨?_, fun c hc => ?_, fun p v => ?_⟩⟩
  · have hatOnce := atOnce_inPlace b r
    exact ⟨hatOnce, fun e => hatOnce.state_of_error⟩
  · rw [exists_merge_iff, checkPair_eq_ok_iff]
  · obtain ⟨-, -, rfl⟩ := merge_eq_ok_iff.1 hc
    exact ⟨rfl, rfl⟩
  · exact exists_merge_of_check

def sampleProperty (name : String) (kind : ValueKind) : Property where
  surrogate := .pending ⟨1⟩ .property
  name
  valueType := { surrogate := .pending ⟨1⟩ .valueType, name := kind.name, kind }

/-- A property of integers is refused beside a text, another text is read, and the attribute is not made
a removal while it is frozen. -/
def sampleRequests : List Request := [.setProperty (some (sampleProperty "count" .integer)),
  .parseValue "g", .freeze, .setErasing true, .setEditable true]

/-- Neither the property of integers nor an integer can be set alone, but both can be merged at once. -/
theorem wellFormed_run_sample :
    let a : Attribute := {
      number := 1, property := some (sampleProperty "unit" .text), value := some (.text "kg") }
    let b := sampleRequests.foldl serve a
    let count := sampleProperty "count" .integer
    a.Made ∧ b.value = some (.text "g") ∧
      (b.setProperty (some count)).isOk = false ∧ (b.setValue (some (.integer 3))).isOk = false ∧
      ∃ c, b.merge { number := 1, property := some count, value := some (.integer 3) } = .ok c ∧
        c.property = some count ∧ c.value = some (.integer 3) := by
  intro a b count
  have ha : a.Made := .definition (ofProperty_eq_ok_iff.2 ⟨rfl, rfl⟩)
  obtain ⟨-, -, -, hmerge⟩ := wellFormed_run ha sampleRequests
  exact ⟨ha, rfl, rfl, rfl, (hmerge _).2.2 count (.integer 3) rfl rfl rfl rfl⟩

end ChronicleMeta.Attribute
