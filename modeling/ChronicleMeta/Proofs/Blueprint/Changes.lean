import ChronicleMeta.Proofs.Blueprint.Effect
import ChronicleMeta.Proofs.Definitions
import Mathlib.Data.List.Induction

/-!
What the record of a session tells. A change that is not recorded has not been made, except that a
default value that is set on a removal turns it into a definition, and only the value is recorded.
-/

namespace ChronicleMeta

open Component

variable {T : Type}

/-- Both indexes have components of the same numbers, and those of a number are related. -/
def Index.Matches (R : UInt32 → T → T → Prop) (ix iy : Index T) : Prop :=
  ∀ n, Option.Rel (R n) (ix.byNumber.get? n) (iy.byNumber.get? n)

/-- The current states of both containers match. -/
def Container.Matches (R : UInt32 → T → T → Prop) (c d : Container T) : Prop :=
  c.view.Matches R d.view

/-- Relations of the components of a number that permit to make a component editable. -/
structure Container.Lenient [Component T] (R : UInt32 → T → T → Prop) : Prop where
  refl : ∀ n x, R n x x
  thaw : ∀ n x, R n x (setEditable true x)
  trans : ∀ n x y z, R n x y → R n y z → R n x z

namespace Index

variable {R : UInt32 → T → T → Prop} {ix iy iz : Index T}

theorem matches_refl (hR : ∀ n x, R n x x) (ix : Index T) : ix.Matches R ix := by
  intro n
  cases ix.byNumber.get? n with
  | none => exact .none
  | some x => exact .some (hR n x)

theorem Matches.trans (hR : ∀ n x y z, R n x y → R n y z → R n x z) (h : ix.Matches R iy)
    (h' : iy.Matches R iz) : ix.Matches R iz := by
  intro n
  have hxy := h n
  have hyz := h' n
  generalize ix.byNumber.get? n = x at hxy ⊢
  generalize iy.byNumber.get? n = y at hxy hyz
  generalize iz.byNumber.get? n = z at hyz ⊢
  cases hxy with
  | none => exact hyz
  | some hxy =>
    cases hyz with
    | some hyz => exact .some (hR n _ _ _ hxy hyz)

theorem Matches.mono {S : UInt32 → T → T → Prop} (h : ix.Matches R iy)
    (hS : ∀ n x y, R n x y → S n x y) : ix.Matches S iy := by
  intro n
  have hxy := h n
  generalize ix.byNumber.get? n = x at hxy ⊢
  generalize iy.byNumber.get? n = y at hxy ⊢
  cases hxy with
  | none => exact .none
  | some hxy => exact .some (hS n _ _ hxy)

variable [Component T]

theorem matches_modify {α : Type} {n : UInt32} {f : T → Except Error (α × T)} {a : α}
    (hR : ∀ n x, R n x x) (hf : ∀ x a y, f x = .ok (a, y) → R n x y)
    (h : ix.modify n f = .ok (some (a, iy))) : ix.Matches R iy := by
  obtain ⟨x, y, hx, hy, -, hnum⟩ := modify_eq_ok h
  intro k
  rw [hnum, SortedMap.get?_insert]
  split_ifs with hk
  · rw [hk, hx]
    exact .some (hf x a y hy)
  · exact matches_refl hR ix k

end Index

namespace Container

variable [Component T] {R : UInt32 → T → T → Prop} {c d e : Container T}

theorem matches_refl (hR : Lenient R) (c : Container T) : c.Matches R c :=
  Index.matches_refl hR.refl c.view

theorem Matches.trans (hR : Lenient R) (h : c.Matches R d) (h' : d.Matches R e) : c.Matches R e :=
  Index.Matches.trans hR.trans h h'

omit [Component T] in
theorem Matches.mono {S : UInt32 → T → T → Prop} (h : c.Matches R d)
    (hS : ∀ n x y, R n x y → S n x y) : c.Matches S d := Index.Matches.mono h hS

private theorem matches_draft (hR : Lenient R) (c : Container T) : c.view.Matches R c.draft := by
  unfold view draft
  cases c.buffer with
  | some ix => exact Index.matches_refl hR.refl ix
  | none =>
    intro n
    rw [Option.getD_none, Option.getD_none, Index.map, SortedMap.get?_mapValues]
    cases c.committed.byNumber.get? n with
    | none => exact .none
    | some x => exact .some (hR.thaw n x)

/-- The components stay under their numbers when one of them is changed. -/
theorem matches_editComponent {α : Type} (hR : Lenient R) (c : Container T) (n : UInt32)
    {f : T → Except Error (α × T)} (hf : ∀ x a y, f x = .ok (a, y) → R n x y) :
    c.Matches R (c.editComponent n f).state := by
  have hdraft : c.view.Matches R c.draft := matches_draft hR c
  unfold editComponent
  split
  next => exact hdraft
  next => exact hdraft
  next a ix hmod =>
    have hmodify : c.draft.Matches R ix := Index.matches_modify hR.refl hf hmod
    exact hdraft.trans hR.trans hmodify

end Container

/-- `b` is the attribute with perhaps another default value. If it is no removal any more, a value
has been set. -/
structure Attribute.Revalued (set : Prop) (a b : Attribute) : Prop where
  number_eq : b.number = a.number
  property_eq : b.property = a.property
  erasing : b.erasing = a.erasing ∨ a.erasing = true ∧ b.erasing = false ∧ set

/-- `y` is the series with perhaps other default values of its attributes; `set` tells of which one
has been set. -/
structure Series.Revalued (set : UInt32 → Prop) (x y : Series) : Prop where
  number_eq : y.number = x.number
  description_eq : y.description = x.description
  erasing_eq : y.erasing = x.erasing
  attributes : x.attributes.Matches (fun n => Attribute.Revalued (set n)) y.attributes

namespace Attribute

variable {set set' : Prop} {a b c : Attribute}

theorem Revalued.mono (h : Revalued set a b) (hset : set → set') : Revalued set' a b :=
  ⟨h.number_eq, h.property_eq, h.erasing.imp_right fun ⟨ha, hb, hs⟩ => ⟨ha, hb, hset hs⟩⟩

theorem lenient_revalued (set : UInt32 → Prop) :
    Container.Lenient fun n => Revalued (set n) where
  refl _ _ := ⟨rfl, rfl, .inl rfl⟩
  thaw _ _ := ⟨rfl, rfl, .inl rfl⟩
  trans n a b c hab hbc := by
    refine ⟨hbc.number_eq.trans hab.number_eq, hbc.property_eq.trans hab.property_eq, ?_⟩
    rcases hbc.erasing with hbc | ⟨hb, hc, hset⟩
    · rw [hbc]
      exact hab.erasing
    · rcases hab.erasing with hab | ⟨-, hb', -⟩
      · exact .inr ⟨hab ▸ hb, hc, hset⟩
      · rw [hb'] at hb
        cases hb

theorem revalued_setValue {v : Option Value} {u : Unit}
    (h : (a.setValue v).map ((), ·) = .ok (u, b)) (hset : v.isSome → set) : Revalued set a b := by
  obtain ⟨b', hb', he⟩ := map_eq_ok_iff.1 h
  obtain rfl : b' = b := congrArg Prod.snd he
  obtain ⟨-, -, rfl⟩ := setValue_eq_ok_iff.1 hb'
  refine ⟨rfl, rfl, ?_⟩
  cases v with
  | none => exact .inl (Bool.and_true _)
  | some v =>
    cases ha : a.erasing with
    | false => exact .inl rfl
    | true => exact .inr ⟨rfl, rfl, hset rfl⟩

end Attribute

namespace Series

variable {set set' : UInt32 → Prop} {x y : Series}

theorem Revalued.mono (h : Revalued set x y) (hset : ∀ n, set n → set' n) : Revalued set' x y :=
  ⟨h.number_eq, h.description_eq, h.erasing_eq,
    h.attributes.mono fun n _ _ hab => hab.mono (hset n)⟩

theorem lenient_revalued (set : UInt32 → UInt32 → Prop) :
    Container.Lenient fun m => Revalued (set m) where
  refl m _ := ⟨rfl, rfl, rfl, Container.matches_refl (Attribute.lenient_revalued (set m)) _⟩
  thaw m _ := ⟨rfl, rfl, rfl, Container.matches_refl (Attribute.lenient_revalued (set m)) _⟩
  trans m _ _ _ hxy hyz :=
    ⟨hyz.number_eq.trans hxy.number_eq, hyz.description_eq.trans hxy.description_eq,
      hyz.erasing_eq.trans hxy.erasing_eq,
      hxy.attributes.trans (Attribute.lenient_revalued (set m)) hyz.attributes⟩

theorem revalued_editAttribute {α : Type} {o : Option α} {n : UInt32}
    {f : Attribute → Except Error (α × Attribute)}
    (hf : ∀ a r b, f a = .ok (r, b) → Attribute.Revalued (set n) a b)
    (h : (x.editAttribute n f).commit = .ok (o, y)) : Revalued set x y := by
  obtain ⟨hres, rfl⟩ := Outcome.commit_eq_ok_iff.1 h
  unfold editAttribute whenEditable at hres ⊢
  split at hres
  next => cases hres
  next =>
    exact ⟨rfl, rfl, rfl,
      Container.matches_editComponent (Attribute.lenient_revalued set) x.attributes n hf⟩

end Series

namespace Blueprint

/-- Whether one of the requests sets a default value of the attribute. -/
def SetsValue (rs : List Request) (n : UInt32) : Prop :=
  ∃ v, .setAttributeValue n (some v) ∈ rs

/-- Whether one of the requests sets a default value of the attribute of the series. -/
def SetsSeriesValue (rs : List Request) (series n : UInt32) : Prop :=
  ∃ v, .setSeriesAttributeValue series n (some v) ∈ rs

/-- `d'` are the definitions with perhaps other default values, as the requests set them. -/
structure Revalued (rs : List Request) (d d' : Definitions) : Prop where
  attributes : d.attributes.Matches (fun n => Attribute.Revalued (SetsValue rs n)) d'.attributes
  series : d.series.Matches (fun m => Series.Revalued (SetsSeriesValue rs m)) d'.series

variable {rs rs' : List Request} {d d' d'' : Definitions} {b b' : Blueprint}

theorem revalued_refl (rs : List Request) (d : Definitions) : Revalued rs d d where
  attributes := Container.matches_refl (Attribute.lenient_revalued _) _
  series := Container.matches_refl (Series.lenient_revalued _) _

theorem Revalued.trans (h : Revalued rs d d') (h' : Revalued rs d' d'') : Revalued rs d d'' where
  attributes := h.attributes.trans (Attribute.lenient_revalued _) h'.attributes
  series := h.series.trans (Series.lenient_revalued _) h'.series

theorem Revalued.mono (h : Revalued rs d d') (hrs : rs ⊆ rs') : Revalued rs' d d' where
  attributes := h.attributes.mono fun _ _ _ hab =>
    hab.mono fun ⟨v, hv⟩ => ⟨v, hrs hv⟩
  series := h.series.mono fun _ _ _ hxy =>
    hxy.mono fun _ ⟨v, hv⟩ => ⟨v, hrs hv⟩

/-- A request that sets a default value changes nothing else, but it may end a removal. -/
theorem revalued_revise {r : Request} (hr : r.setsValue) (d : Definitions) :
    Revalued [r] d (r.revise d) := by
  have hrefl := revalued_refl [r] d
  cases r with
  | setAttributeValue n v =>
    refine ⟨Container.matches_editComponent (Attribute.lenient_revalued _) _ n fun a u b hb => ?_,
      hrefl.series⟩
    refine Attribute.revalued_setValue hb fun hv => ?_
    obtain ⟨v, rfl⟩ := Option.isSome_iff_exists.1 hv
    exact ⟨v, List.mem_singleton_self _⟩
  | setSeriesAttributeValue series n v =>
    refine ⟨hrefl.attributes, Container.matches_editComponent (Series.lenient_revalued _) _ series
      fun x o y hy => Series.revalued_editAttribute (fun a u b hb => ?_) hy⟩
    refine Attribute.revalued_setValue hb fun hv => ?_
    obtain ⟨v, rfl⟩ := Option.isSome_iff_exists.1 hv
    exact ⟨v, List.mem_singleton_self _⟩
  | _ => cases hr

def run (b : Blueprint) (rs : List Request) : Blueprint := rs.foldl serve b

/-- What has been recorded of the requests that have led from `b` to `b'` tells what may have
changed. -/
structure Records (rs : List Request) (b b' : Blueprint) : Prop where
  exclusive : ¬(b'.changes.base ∧ b'.changes.structural)
  base : b'.changes.base = false → b'.base = b.base
  revalued : b'.changes.structural = false → Revalued rs b.definitions b'.definitions
  definitions : b'.changes.structural = false → b'.changes.values = false →
    b'.definitions = b.definitions

theorem records_nil (h : b.changes = {}) : Records [] b b where
  exclusive := by simp [h]
  base _ := rfl
  revalued _ := revalued_refl [] b.definitions
  definitions _ _ := rfl

theorem Records.serve (h : Records rs b b') (r : Request) :
    Records (rs ++ [r]) b (b'.serve r) := by
  have hrs : rs ⊆ rs ++ [r] := List.subset_append_left rs [r]
  have hsame : b'.changes.structural = false → Revalued (rs ++ [r]) b.definitions b'.definitions :=
    fun hs => (h.revalued hs).mono hrs
  have heffect := effect_serve b' r
  generalize b'.serve r = b'' at heffect
  cases heffect with
  | refused => exact ⟨h.exclusive, h.base, hsame, h.definitions⟩
  | opened => exact ⟨h.exclusive, h.base, hsame, h.definitions⟩
  | rebased _ _ hstructural =>
    -- The base may only be changed where no change of definitions is recorded.
    refine ⟨?_, nofun, hsame, h.definitions⟩
    simp [hstructural]
  | valued hr =>
    refine ⟨h.exclusive, h.base, fun hs => ?_, nofun⟩
    have hlast : Revalued (rs ++ [r]) b'.definitions (r.revise b'.definitions) :=
      (revalued_revise hr b'.definitions).mono (List.subset_append_right rs [r])
    exact (hsame hs).trans hlast
  | restructured _ hbase =>
    refine ⟨?_, h.base, nofun, nofun⟩
    simp [hbase]

/-- Whatever is asked of a session, its record tells what has changed since nothing was recorded.
Without a change of the base the base is the same. Without a change of definitions there are the
same attributes and series, also within each series, with the same properties and descriptions, and
the same ones are removals but those attributes of which a default value has been set. Without a
change of values either the definitions are the same. Base and definitions are not both changed. -/
theorem records_run {b : Blueprint} (h : b.changes = {}) (rs : List Request) :
    Records rs b (b.run rs) := by
  induction rs using List.reverseRecOn with
  | nil => exact records_nil h
  | append_singleton rs r ih =>
    rw [run, List.foldl_append]
    exact ih.serve r

def sampleRemoval : Blueprint :=
  (run { surrogate := .committed ⟨1⟩ .schema 1, name := "s" } [.eraseAttribute 1]).close.edit

def sampleRebased : List Request := [.setBase (some "r"), .setAttributeValue 1 (some (.text "x"))]

theorem records_run_sample : sampleRemoval.changes = {} ∧
    Revalued sampleRebased sampleRemoval.definitions (sampleRemoval.run sampleRebased).definitions ∧
      ¬(sampleRemoval.run sampleRebased).changes.structural := by
  have hchanges : sampleRemoval.changes = {} := rfl
  have hstructural : (sampleRemoval.run sampleRebased).changes.structural = false := by
    decide +kernel
  have hrecords := records_run hchanges sampleRebased
  exact ⟨hchanges, hrecords.revalued hstructural, by simp [hstructural]⟩

/-- The session has not recorded a change of definitions, and yet the attribute is a removal no
more. -/
theorem records_run_restored :
    (sampleRemoval.run sampleRebased).changes = { base := true, values := true } ∧
      (sampleRemoval.definitions.attributes.get? 1).map (·.erasing) = some true ∧
      ((sampleRemoval.run sampleRebased).definitions.attributes.get? 1).map (·.erasing) =
        some false := by
  refine ⟨?_, ?_, ?_⟩ <;> decide +kernel

end Blueprint

end ChronicleMeta
