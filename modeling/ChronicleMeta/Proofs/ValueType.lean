import ChronicleMeta.Proofs.Calendar.Reading
import ChronicleMeta.Proofs.SortedMap
import ChronicleMeta.ValueType

/-!
Values that are read back from their text, and the domains of value types. A restriction is kept as
texts; it singles out values because no two values of a kind have the same text.
-/

namespace ChronicleMeta

open Calendar (Date)

namespace Value

/-- A value is read back from its text. Floating-point numbers are left out. -/
theorem read_toText {v : Value} (h : v.kind ≠ .float) : read v.kind v.toText = .ok v := by
  cases v with
  | text s => rfl
  | integer i =>
    have hread := Number.readInt64_writeInt64 i
    simp only [kind, toText, read, String.toList_ofList, Number.trim_writeInt64, hread]
    rfl
  | float x => exact absurd rfl h
  | boolean b => cases b <;> decide
  | date d =>
    have hread := Date.read_text false d
    simp only [kind, toText, read, String.toList_ofList, Date.trim_text, hread]
    rfl

theorem readAs_toText (label : String) {v : Value} (h : v.kind ≠ .float) :
    readAs label v.kind v.toText = .ok v :=
  mapError_eq_ok_iff.2 (read_toText h)

/-- Values of one kind are told apart by their texts. -/
theorem eq_of_toText_eq {v w : Value} (h : v.kind ≠ .float) (hkind : v.kind = w.kind)
    (htext : v.toText = w.toText) : v = w := by
  have hv := read_toText h
  rw [hkind, htext, read_toText (hkind ▸ h)] at hv
  exact (Except.ok.inj hv).symm

end Value

namespace ValueType

variable {t t' : ValueType} {v : Value}

theorem check_eq_ok_iff :
    t.check v = .ok () ↔
      v.kind = t.kind ∧ ∀ allowed, t.restriction = some allowed → allowed.contains v.toText := by
  unfold check
  by_cases hkind : v.kind = t.kind
  · rw [if_neg (not_not_intro hkind)]
    cases hallowed : t.restriction with
    | none => simp [hkind]
    | some allowed =>
      by_cases hin : allowed.contains v.toText
      · simp [hkind, hin]
      · simp [hin]
  · simp [hkind]

theorem format_eq_ok_iff {s : String} :
    t.format v = .ok s ↔ t.check v = .ok () ∧ s = v.toText := by
  unfold format
  cases t.check v with
  | error e => simp
  | ok => simp [pure, Except.pure, eq_comm]

theorem parse_eq_ok_iff {s : String} :
    t.parse s = .ok v ↔ Value.read t.kind s = .ok v ∧ t.check v = .ok () := by
  unfold parse
  rw [bind_eq_ok_iff]
  constructor
  · rintro ⟨w, hread, h⟩
    obtain ⟨⟨⟩, hcheck, h⟩ := bind_eq_ok_iff.1 h
    obtain rfl := pure_eq_ok_iff.1 h
    exact ⟨mapError_eq_ok_iff.1 hread, hcheck⟩
  · rintro ⟨hread, hcheck⟩
    exact ⟨v, mapError_eq_ok_iff.2 hread, by rw [hcheck]; rfl⟩

/-- A value of a domain is read back from its text. -/
theorem parse_toText (hkind : t.kind ≠ .float) (h : t.check v = .ok ()) :
    t.parse v.toText = .ok v := by
  obtain ⟨hv, -⟩ := check_eq_ok_iff.1 h
  have hread := Value.read_toText (hv ▸ hkind)
  rw [hv] at hread
  exact parse_eq_ok_iff.2 ⟨hread, h⟩

theorem restrict_eq_ok_iff {values : List (Value × Option String)} :
    t.restrict values = .ok t' ↔ (∀ e ∈ values, e.1.kind = t.kind) ∧
      t' = { t with restriction := some (.ofList (values.map fun e => (e.1.toText, e.2))) } := by
  unfold restrict
  cases hfind : values.find? (·.1.kind ≠ t.kind) with
  | none =>
    have hall : ∀ e ∈ values, e.1.kind = t.kind := by
      intro e he
      simpa using List.find?_eq_none.1 hfind e he
    exact ⟨fun h => ⟨hall, (Except.ok.inj h).symm⟩, fun h => by rw [h.2]⟩
  | some e =>
    have hne := List.find?_some hfind
    have hmem := List.mem_of_find?_eq_some hfind
    simp only [decide_eq_true_eq] at hne
    simp only [reduceCtorEq, false_iff]
    rintro ⟨hall, -⟩
    exact hne (hall e hmem)

theorem mem_allowedTexts_of_restrict {values : List (Value × Option String)}
    (h : t.restrict values = .ok t') {s : String} :
    s ∈ t'.allowedTexts ↔ ∃ e ∈ values, e.1.toText = s := by
  obtain ⟨-, rfl⟩ := restrict_eq_ok_iff.1 h
  simp only [allowedTexts, Option.map_some, Option.getD_some, SortedMap.mem_keys_iff,
    SortedMap.contains_ofList_iff, List.map_map, List.mem_map, Function.comp_apply]

/-- A restricted type has the values whose texts are on its list. -/
theorem check_of_restrict {values : List (Value × Option String)}
    (h : t.restrict values = .ok t') :
    t'.check v = .ok () ↔ v.kind = t'.kind ∧ v.toText ∈ t'.allowedTexts := by
  obtain ⟨-, rfl⟩ := restrict_eq_ok_iff.1 h
  simp only [check_eq_ok_iff, allowedTexts, Option.map_some, Option.getD_some,
    SortedMap.mem_keys_iff, Option.some.injEq, forall_eq']

theorem mem_allowedTexts_iff_exists_check {values : List (Value × Option String)}
    (h : t.restrict values = .ok t') {s : String} :
    s ∈ t'.allowedTexts ↔ ∃ v, t'.check v = .ok () ∧ v.toText = s := by
  constructor
  · intro hs
    obtain ⟨e, he, rfl⟩ := (mem_allowedTexts_of_restrict h).1 hs
    obtain ⟨hall, rfl⟩ := restrict_eq_ok_iff.1 h
    exact ⟨e.1, (check_of_restrict h).2 ⟨hall e he, hs⟩, rfl⟩
  · rintro ⟨v, hv, rfl⟩
    exact ((check_of_restrict h).1 hv).2

/-- A restriction to values singles out these values, although only their texts are kept. -/
theorem check_of_restrict_iff_mem {values : List (Value × Option String)}
    (hkind : t.kind ≠ .float) (h : t.restrict values = .ok t') :
    t'.check v = .ok () ↔ v ∈ values.map Prod.fst := by
  obtain ⟨hall, ht⟩ := restrict_eq_ok_iff.1 h
  have ht' : t'.kind = t.kind := by rw [ht]
  rw [check_of_restrict h, mem_allowedTexts_of_restrict h, List.mem_map]
  constructor
  · rintro ⟨hv, e, he, htext⟩
    have hsame : e.1.kind = v.kind := by rw [hall e he, hv, ht']
    exact ⟨e, he, Value.eq_of_toText_eq (hall e he ▸ hkind) hsame htext⟩
  · rintro ⟨e, he, rfl⟩
    exact ⟨by rw [hall e he, ht'], e, he, rfl⟩

/-- The text forms of values that are no floating-point numbers. A value is read back from its text; a
type formats the values of its domain and reads back what it has formatted, it reads nothing outside
the domain, and a restricted type lists the texts of its domain. -/
theorem texts_of_domain :
    (∀ v : Value, v.kind ≠ .float → Value.parse v.kind v.toText = .ok v) ∧
    ∀ t : ValueType, t.kind ≠ .float →
      (∀ v, (∃ s, t.format v = .ok s) ↔ t.check v = .ok ()) ∧
      (∀ v s, t.format v = .ok s → s = v.toText ∧ t.parse s = .ok v) ∧
      (∀ s v, t.parse s = .ok v → t.check v = .ok ()) ∧
      ∀ values t', t.restrict values = .ok t' →
        (∀ s, s ∈ t'.allowedTexts ↔ ∃ v, t'.check v = .ok () ∧ v.toText = s) ∧
        ∀ s ∈ t'.allowedTexts, ∃ v, t'.parse s = .ok v ∧ v.toText = s := by
  refine ⟨fun v hv => Value.readAs_toText v.kind.name hv, fun t ht => ⟨fun v => ?_, fun v s hs => ?_,
    fun s v hv => (parse_eq_ok_iff.1 hv).2, fun values t' h => ⟨fun s => ?_, fun s hs => ?_⟩⟩⟩
  · constructor
    · rintro ⟨s, hs⟩
      exact (format_eq_ok_iff.1 hs).1
    · exact fun hv => ⟨v.toText, format_eq_ok_iff.2 ⟨hv, rfl⟩⟩
  · obtain ⟨hcheck, rfl⟩ := format_eq_ok_iff.1 hs
    exact ⟨rfl, parse_toText ht hcheck⟩
  · exact mem_allowedTexts_iff_exists_check h
  · obtain ⟨v, hcheck, rfl⟩ := (mem_allowedTexts_iff_exists_check h).1 hs
    have hkind : t'.kind = t.kind := by rw [(restrict_eq_ok_iff.1 h).2]
    exact ⟨v, parse_toText (hkind ▸ ht) hcheck, rfl⟩

def lateDay : Date := ⟨10000, 2, 29, by decide⟩

def dates : ValueType := { surrogate := .pending ⟨1⟩ .valueType, name := "day", kind := .date }

theorem texts_of_domain_sample :
    (Value.date lateDay).kind ≠ .float ∧
      Value.parse .date "+10000-02-29" = .ok (.date lateDay) ∧
    dates.kind ≠ .float ∧ dates.format (.date lateDay) = .ok "+10000-02-29" ∧
      dates.parse "+10000-02-29" = .ok (.date lateDay) ∧
    ∃ t, dates.restrict [(.date lateDay, none)] = .ok t ∧
      ∃ v, t.parse "+10000-02-29" = .ok v ∧ v.toText = "+10000-02-29" := by
  have htext : (Value.date lateDay).toText = "+10000-02-29" := by decide +kernel
  have hvalue : (Value.date lateDay).kind ≠ .float := by decide
  have htype : dates.kind ≠ .float := by decide
  obtain ⟨hread, hdomain⟩ := texts_of_domain
  obtain ⟨hformat, hback, -, hrestrict⟩ := hdomain dates htype
  obtain ⟨s, hs⟩ := (hformat (.date lateDay)).2 rfl
  obtain ⟨hs', hparse⟩ := hback _ _ hs
  obtain rfl : s = "+10000-02-29" := hs'.trans htext
  have hlisted := hread _ hvalue
  rw [htext] at hlisted
  obtain ⟨t, ht⟩ : ∃ t, dates.restrict [(.date lateDay, none)] = .ok t := ⟨_, rfl⟩
  obtain ⟨-, hallowed⟩ := hrestrict _ t ht
  have hin := (mem_allowedTexts_of_restrict ht).2 ⟨_, List.mem_cons_self, htext⟩
  exact ⟨hvalue, hlisted, htype, hs, hparse, t, ht, hallowed _ hin⟩

end ValueType

end ChronicleMeta
