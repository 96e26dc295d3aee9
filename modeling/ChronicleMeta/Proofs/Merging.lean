import ChronicleMeta.Blueprint.Resolution
import ChronicleMeta.Proofs.Outcome

/-! What can keep levels of definitions from being laid over one another. -/

namespace ChronicleMeta

/-- Whether definitions do not go together: a name is taken, a value is not of the type, or what is to
be changed is frozen. -/
def Error.isClash : Error → Bool
  | .duplicateName .. | .incompatibleValue .. | .notEditable .. => true
  | _ => false

/-- Whether the error is that a name is taken. -/
def Error.isDuplicate : Error → Bool
  | .duplicateName .. => true
  | _ => false

theorem Error.isClash_of_isDuplicate {e : Error} (h : e.isDuplicate) : e.isClash := by
  cases e <;> first | rfl | cases h

/-- Such is the error, if there is one. -/
abbrev Clashes {α : Type} (x : Except Error α) : Prop := Raises (fun e => e.isClash) x

variable {α : Type}

namespace Container

open Component

variable {T : Type} [Component T]

theorem clashes_rename (ix : Index T) (n : UInt32) (old new : Option String) :
    Clashes (ix.rename n old new) := by
  unfold Index.rename
  split_ifs
  · exact raises_ok _
  · dsimp only
    split
    · exact raises_ok _
    · split
      · split_ifs
        · exact raises_ok _
        · exact raises_error rfl
      · exact raises_ok _

theorem raises_insert (ix : Index T) (x : T) : Raises (fun e => e.isDuplicate) (ix.insert x) := by
  unfold Index.insert
  split_ifs
  · exact raises_ok _
  · split
    · exact raises_ok _
    · split
      · exact raises_error rfl
      · exact raises_ok _

theorem clashes_modify (ix : Index T) (n : UInt32) {f : T → Except Error (α × T)}
    (hf : ∀ x, Clashes (f x)) : Clashes (ix.modify n f) := by
  unfold Index.modify
  split
  · exact raises_ok _
  · exact (hf _).bind fun r _ => (clashes_rename ix n _ _).bind fun _ _ => raises_ok _

theorem raises_add (c : Container T) (x : T) : Raises (fun e => e.isDuplicate) (c.add x).commit := by
  have h := raises_insert c.draft (setEditable true x)
  unfold add
  split
  next e he => exact raises_error (h e he)
  next => exact raises_ok _
  next => exact raises_ok _

theorem clashes_add (c : Container T) (x : T) : Clashes (c.add x).commit :=
  (raises_add c x).mono fun _ => Error.isClash_of_isDuplicate

theorem clashes_editComponent (c : Container T) (n : UInt32) {f : T → Except Error (α × T)}
    (hf : ∀ x, Clashes (f x)) : Clashes (c.editComponent n f).commit := by
  have h := clashes_modify c.draft n hf
  unfold editComponent
  split
  next e he => exact raises_error (h e he)
  next => exact raises_ok _
  next => exact raises_ok _

theorem clashes_mergeLevel (empty : UInt32 → T) {merge : T → T → Except Error T}
    (hmerge : ∀ y x, Clashes (merge y x)) (c level : Container T) :
    Clashes (mergeLevel empty merge c level) := by
  refine raises_foldlM (fun c x => ?_) _ _
  exact (clashes_add c (empty (number x))).bind fun r _ =>
    (clashes_editComponent r.2 (number x) fun y => (hmerge y x).map _).bind fun _ _ => raises_ok _

end Container

theorem Attribute.clashes_merge (a other : Attribute) : Clashes (a.merge other) := by
  have heditable : Clashes a.ensureEditable := by
    unfold ensureEditable
    split_ifs
    · exact raises_ok ()
    · exact raises_error rfl
  have hpair : ∀ p v, Clashes (checkPair p v) := by
    intro p v
    unfold checkPair
    split
    · split_ifs
      · exact raises_ok ()
      · exact raises_error rfl
    · exact raises_ok ()
  exact heditable.bind fun _ _ => (hpair _ _).bind fun _ _ => raises_ok _

theorem Series.clashes_merge (s other : Series) : Clashes (s.merge other) := by
  have heditable : Clashes s.ensureEditable := by
    unfold ensureEditable
    split_ifs
    · exact raises_ok ()
    · exact raises_error rfl
  exact heditable.bind fun _ _ =>
    (Container.clashes_mergeLevel _ Attribute.clashes_merge _ _).bind fun _ _ => raises_ok _

theorem Definitions.clashes_merge (d level : Definitions) : Clashes (d.merge level) :=
  (Container.clashes_mergeLevel _ Attribute.clashes_merge _ _).bind fun _ _ =>
    (Container.clashes_mergeLevel _ Series.clashes_merge _ _).bind fun _ _ => raises_ok _

/-- Levels that cannot be flattened clash. -/
theorem Blueprint.clashes_flatten (levels : List Definitions) : Clashes (flatten levels) :=
  (raises_foldlM Definitions.clashes_merge levels.reverse {}).map _

end ChronicleMeta
