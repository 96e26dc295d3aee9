import ChronicleMeta.Surrogate
import Mathlib.Tactic.Common

/-! What surrogates that stand for stored objects are. -/

namespace ChronicleMeta.Surrogate

variable {s t : Surrogate} {k : Identity}

theorem identity_eq_ok_iff : s.identity = .ok k ↔ s.identity? = some k := by
  unfold identity
  split <;> simp_all

/-- Only one surrogate has the identity. -/
theorem identity?_eq_some_iff : s.identity? = some k ↔ s = ofIdentity k := by
  obtain ⟨database, kind, id?⟩ := s
  obtain ⟨database', kind', id'⟩ := k
  simp only [identity?, ofIdentity, committed, Option.map_eq_some_iff, Identity.mk.injEq, mk.injEq]
  constructor
  · rintro ⟨id, rfl, rfl, rfl, rfl⟩
    exact ⟨rfl, rfl, rfl⟩
  · rintro ⟨rfl, rfl, rfl⟩
    exact ⟨id', rfl, rfl, rfl, rfl⟩

@[simp] theorem identity?_ofIdentity (k : Identity) : (ofIdentity k).identity? = some k := rfl

/-- Surrogates agree if they are equal and not pending. -/
theorem agrees_iff : s.agrees t ↔ s = t ∧ ∃ k, t.identity? = some k := by
  unfold agrees
  constructor
  · intro h
    split at h
    next j k hs ht =>
      obtain rfl : j = k := by simpa using h
      exact ⟨(identity?_eq_some_iff.1 hs).trans (identity?_eq_some_iff.1 ht).symm, j, ht⟩
    next => cases h
  · rintro ⟨rfl, k, hk⟩
    simp [hk]

theorem agrees_ofIdentity_iff : s.agrees (ofIdentity k) ↔ s = ofIdentity k := by
  simp [agrees_iff]

theorem upgrade_eq_ok {id : UInt64} (h : s.upgrade id = .ok t) :
    s.id? = none ∧ id ≠ 0 ∧ t = { s with id? := some id } := by
  unfold upgrade at h
  split at h
  next => cases h
  next hnone =>
    split_ifs at h with hid
    exact ⟨hnone, hid, (Except.ok.inj h).symm⟩

end ChronicleMeta.Surrogate
