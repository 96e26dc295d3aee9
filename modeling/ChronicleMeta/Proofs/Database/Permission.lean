import ChronicleMeta.Proofs.Database.Chronicles

/-!
Databases in which nothing but reading is permitted. A request that writes is refused and changes
nothing, unless it is to create a chronicle at the top, for which no permission is asked.
-/

namespace ChronicleMeta

/-- Reading is permitted everywhere, and nothing else anywhere. -/
def Permissions.ReadOnly (granted : Permissions) : Prop := ∀ p x, granted p x ↔ p = .read

theorem Permissions.ReadOnly.check_eq_error {granted : Permissions} (h : granted.ReadOnly)
    {p : Permission} (hp : p ≠ .read) (x : Surrogate) :
    granted.check p x = .error (.permissionDenied p.text x.text) := by
  have hdenied : ¬granted p x := fun hgranted => hp ((h p x).1 hgranted)
  exact if_neg hdenied

namespace Database

def Request.createsTop (naming : Naming) : Request → Bool
  | .createChronicle fullName _ _ => (naming.split fullName).1.isNone
  | _ => false

variable {α β : Type} {db : Database}

/-- What is refused for lack of a permission, now or after further checks. -/
theorem error_of_check (h : db.granted.ReadOnly) {p : Permission} (hp : p ≠ .read) (x : Surrogate)
    (rest : Unit → Except Error α) : ∃ e, (do rest (← db.check p x)) = .error e := by
  have hdenied : db.check p x = .error _ := h.check_eq_error hp x
  exact ⟨_, by rw [hdenied]; rfl⟩

theorem error_of_bind {x : Except Error α} {f : α → Except Error β}
    (h : ∀ a, ∃ e, f a = .error e) : ∃ e, (do f (← x)) = .error e := by
  cases x with
  | error e => exact ⟨e, rfl⟩
  | ok a => exact h a

theorem fail_of_error {checked : Except Error α} (h : ∃ e, checked = .error e)
    (act : α → Outcome Failure Database β) (reply : β → Reply) :
    ∃ e, (db.whenOk (Failure.ofError checked) act).map reply = .fail db (.error e) := by
  obtain ⟨e, rfl⟩ := h
  exact ⟨e, rfl⟩

theorem editSchema_eq_error (h : db.granted.ReadOnly) (name : String) :
    ∃ e, db.editSchema name = .error e :=
  error_of_bind fun b => error_of_check h (by decide) b.surrogate _

theorem deletableSchema_eq_error (h : db.granted.ReadOnly) (name : String) :
    ∃ e, db.deletableSchema name = .error e :=
  error_of_bind fun b => error_of_check h (by decide) b.surrogate _

theorem deletableProperty_eq_error (h : db.granted.ReadOnly) (name : String) :
    ∃ e, db.deletableProperty name = .error e := by
  refine error_of_bind fun p => ?_
  by_cases hbuiltin : p.isBuiltin
  · exact ⟨_, by simp [hbuiltin]; rfl⟩
  · simp only [hbuiltin]
    exact error_of_check h (by decide) p.surrogate _

theorem deletableChronicle_eq_error (h : db.granted.ReadOnly) (fullName : String) :
    ∃ e, db.deletableChronicle fullName = .error e :=
  error_of_bind fun c => error_of_check h (by decide) c.surrogate _

theorem creatableChronicle_eq_error (h : db.granted.ReadOnly) {fullName : String}
    (hparent : (db.naming.split fullName).1.isNone = false) (description : Option String)
    (schemaName : String) :
    ∃ e, db.creatableChronicle fullName description schemaName = .error (.error e) := by
  unfold creatableChronicle
  generalize db.naming.split fullName = parts at hparent ⊢
  obtain ⟨path, simple⟩ := parts
  cases path with
  | none => cases hparent
  | some path =>
    cases hvalid : db.naming.validate simple with
    | error e => exact ⟨e, by simp [hvalid]⟩
    | ok u =>
      cases hload : db.loadChronicle path with
      | error e => exact ⟨e, by simp [hvalid, hload]⟩
      | ok c =>
        have hdenied : db.check .create c.surrogate = .error _ := h.check_eq_error (by decide) _
        exact ⟨_, by simp [hvalid, hload, hdenied]; rfl⟩

/-- A request that writes is refused, and leaves the database as it is. -/
theorem serve_eq_fail (h : db.granted.ReadOnly) {r : Request} (hwrites : r.isRead = false)
    (hnested : r.createsTop db.naming = false) : ∃ e, db.serve r = .fail db (.error e) := by
  cases r with
  | updateSchema b =>
    have hp : (if b.surrogate.isPending then Permission.create else .modify) ≠ .read := by
      split <;> decide
    exact fail_of_error ⟨_, h.check_eq_error hp b.surrogate⟩ _ _
  | deleteSchema name => exact fail_of_error (deletableSchema_eq_error h name) _ _
  | createProperty p => exact fail_of_error ⟨_, h.check_eq_error (by decide) p.surrogate⟩ _ _
  | updateProperty p => exact fail_of_error ⟨_, h.check_eq_error (by decide) p.surrogate⟩ _ _
  | deleteProperty name => exact fail_of_error (deletableProperty_eq_error h name) _ _
  | createChronicle fullName description schemaName =>
    obtain ⟨e, he⟩ := creatableChronicle_eq_error h hnested description schemaName
    exact ⟨e, by rw [serve, createChronicle, he]; rfl⟩
  | deleteChronicle fullName => exact fail_of_error (deletableChronicle_eq_error h fullName) _ _
  | chronicle fullName => cases hwrites
  | property name => cases hwrites

/-- The second store has the objects of the first one, and perhaps more chronicles without a parent. -/
structure GrowsAtTop (naming : Naming) (s s' : Store) : Prop where
  schemas_eq : s'.schemas = s.schemas
  properties_eq : s'.properties = s.properties
  valueTypes_eq : s'.valueTypes = s.valueTypes
  kept : ∀ n c, s.chronicles.get? n = some c → s'.chronicles.get? n = some c
  added : ∀ n c, s'.chronicles.get? n = some c →
    s.chronicles.get? n = some c ∨ (naming.split n).1 = none ∧ c.parent = none

theorem growsAtTop_refl (naming : Naming) (s : Store) : GrowsAtTop naming s s :=
  ⟨rfl, rfl, rfl, fun _ _ => id, fun _ _ => .inl⟩

theorem GrowsAtTop.trans {naming : Naming} {s s' s'' : Store} (h : GrowsAtTop naming s s')
    (h' : GrowsAtTop naming s' s'') : GrowsAtTop naming s s'' where
  schemas_eq := h'.schemas_eq.trans h.schemas_eq
  properties_eq := h'.properties_eq.trans h.properties_eq
  valueTypes_eq := h'.valueTypes_eq.trans h.valueTypes_eq
  kept n c hc := h'.kept n c (h.kept n c hc)
  added n c hc := (h'.added n c hc).elim (h.added n c) .inr

/-- The creation of a chronicle at the top, which needs no permission to write. -/
theorem growsAtTop_createChronicle {fullName schemaName : String} {description : Option String}
    {stored : StoredChronicle}
    (h : db.creatableChronicle fullName description schemaName = .ok stored)
    (htop : (db.naming.split fullName).1 = none) :
    GrowsAtTop db.naming db.store (db.store.createChronicle stored).state := by
  obtain hs | ⟨c, -, -, hparent, -, hfree, -, hs⟩ := createChronicle_cases h
  · rw [hs]
    exact growsAtTop_refl _ _
  · rw [hs]
    have hnone : c.parent = none := by simpa [Store.ParentOf, htop] using hparent
    refine ⟨rfl, rfl, rfl, fun _ _ => SortedMap.get?_insert_of_free _ hfree, fun n c' hc' => ?_⟩
    simp only [SortedMap.get?_insert] at hc'
    split_ifs at hc' with hn
    · obtain rfl := Option.some.inj hc'
      exact .inr ⟨hn ▸ htop, hnone⟩
    · exact .inl hc'

theorem store_eq_of_nested (h : db.granted.ReadOnly) {r : Request}
    (hnested : r.createsTop db.naming = false) : (db.serve r).state.store = db.store := by
  cases hread : r.isRead with
  | false =>
    obtain ⟨e, he⟩ := serve_eq_fail h hread hnested
    rw [he]
    rfl
  | true =>
    cases r with
    | chronicle fullName => exact store_chronicle db fullName
    | property name => rfl
    | _ => cases hread

theorem growsAtTop_serve (h : db.granted.ReadOnly) (r : Request) :
    GrowsAtTop db.naming db.store (db.serve r).state.store := by
  cases htop : r.createsTop db.naming with
  | false =>
    rw [store_eq_of_nested h htop]
    exact growsAtTop_refl _ _
  | true =>
    refine holds_store_serve (growsAtTop_refl _ _) fun r' hasks => ?_
    cases hasks with
    | createChronicle hc => exact growsAtTop_createChronicle hc (Option.isNone_iff_eq_none.1 htop)
    | _ => cases htop

theorem growsAtTop_run (h : db.granted.ReadOnly) (rs : List Request) :
    GrowsAtTop db.naming db.store (db.run rs).store := by
  induction rs generalizing db with
  | nil => exact growsAtTop_refl _ _
  | cons r rs ih =>
    have hkeeps := keeps_serve db r
    have hrest : GrowsAtTop (db.serve r).state.naming (db.serve r).state.store
        ((db.serve r).state.run rs).store := ih (hkeeps.granted_eq ▸ h)
    rw [hkeeps.naming_eq] at hrest
    exact (growsAtTop_serve h r).trans hrest

theorem store_run_of_nested (h : db.granted.ReadOnly) {rs : List Request}
    (hnested : ∀ r ∈ rs, r.createsTop db.naming = false) : (db.run rs).store = db.store := by
  induction rs generalizing db with
  | nil => rfl
  | cons r rs ih =>
    obtain ⟨hr, hrs⟩ := List.forall_mem_cons.1 hnested
    have hkeeps := keeps_serve db r
    have hrest : ((db.serve r).state.run rs).store = (db.serve r).state.store :=
      ih (hkeeps.granted_eq ▸ h) (hkeeps.naming_eq ▸ hrs)
    exact hrest.trans (store_eq_of_nested h hr)

/-- With nothing but reading permitted, schemas, properties and value types stay as they are whatever is
requested, and so does every stored chronicle; only chronicles without a parent can be added. If none
is created at the top, nothing at all changes in the store. Any other request that writes is refused,
and changes nothing, not even what is cached. -/
theorem readOnly_run (db : Database) (h : db.granted.ReadOnly) (rs : List Request) :
    GrowsAtTop db.naming db.store (db.run rs).store ∧
      ((∀ r ∈ rs, r.createsTop db.naming = false) → (db.run rs).store = db.store) ∧
      (∀ r : Request, r.isRead = false → r.createsTop db.naming = false →
        ∃ e, (db.run rs).serve r = .fail (db.run rs) (.error e)) ∧
      ∀ name, ∃ e, (db.run rs).editSchema name = .error e := by
  have hkeeps := keeps_run db rs
  have hgranted : (db.run rs).granted.ReadOnly := hkeeps.granted_eq ▸ h
  refine ⟨growsAtTop_run h rs, store_run_of_nested h, fun r hr htop => ?_, editSchema_eq_error hgranted⟩
  exact serve_eq_fail hgranted hr (hkeeps.naming_eq ▸ htop)

/-- A database with a schema and a chronicle, in which nothing but reading is permitted. -/
def sampleReadOnly : Database :=
  let db := fresh ⟨1⟩ 1 Nat.one_pos {} { requireComplete := false }
  { db.run [.updateSchema (db.newSchema "s"), .createChronicle "a" none "s"] with
    granted := .denying [(some .create, none), (some .modify, none), (some .delete, none)] }

theorem readOnly_sampleReadOnly : sampleReadOnly.granted.ReadOnly := by
  intro p x
  change Permissions.denying _ p x ↔ p = .read
  cases p <;> simp [Permissions.denying]

/-- Requests that write, of which the last one is to create a chronicle at the top. -/
def sampleWrites : List Request :=
  [.deleteChronicle "a", .createChronicle "a.b" none "s", .deleteSchema "s",
    .createChronicle "c" none "s"]

theorem readOnly_run_sample :
    sampleReadOnly.granted.ReadOnly ∧
      GrowsAtTop {} sampleReadOnly.store (sampleReadOnly.run sampleWrites).store ∧
      (sampleReadOnly.run (sampleWrites.take 3)).store = sampleReadOnly.store := by
  have hgranted := readOnly_sampleReadOnly
  have hnested : ∀ r ∈ sampleWrites.take 3, r.createsTop sampleReadOnly.naming = false := by
    decide +kernel
  exact ⟨hgranted, (readOnly_run sampleReadOnly hgranted sampleWrites).1,
    (readOnly_run sampleReadOnly hgranted (sampleWrites.take 3)).2.1 hnested⟩

/-- The last one is carried out. -/
theorem readOnly_run_top :
    sampleReadOnly.granted.ReadOnly ∧ sampleReadOnly.store.chronicles.contains "c" = false ∧
      (sampleReadOnly.run sampleWrites).store.chronicles.contains "c" :=
  ⟨readOnly_sampleReadOnly, by decide +kernel, by decide +kernel⟩

end Database

end ChronicleMeta
