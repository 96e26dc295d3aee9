import Mathlib.Algebra.Group.Nat.Defs
import ChronicleMeta.Calendar.Reading
import ChronicleMeta.Proofs.Number.Integer
import ChronicleMeta.Proofs.Outcome

/-!
Dates that are read back from their text. Month and day have two digits and a year without a sign has
four, so these numbers end where their width is used up; a year with a sign ends at the hyphen.
-/

namespace ChronicleMeta.Calendar

open Number (isDigit digitsValue)
open Text (trimStart)

theorem daysIn_le (year : Int) (month : Nat) : daysIn year month ≤ 31 := by
  unfold daysIn
  split
  case h_12 => split_ifs <;> omega
  all_goals omega

theorem month_bounds {year : Int} {month : Nat} (h : 0 < daysIn year month) :
    1 ≤ month ∧ month ≤ 12 := by
  unfold daysIn at h
  split at h <;> omega

namespace Date

theorem isDigit_of_mem_padded {width n : Nat} : ∀ c ∈ padded width n, c.isDigit := by
  intro c hc
  rcases List.mem_append.1 hc with hc | hc
  · rw [List.eq_of_mem_replicate hc]
    decide
  · exact Number.isDigit_of_mem_toDigits c hc

theorem digitsValue_padded (width n : Nat) : digitsValue (padded width n) = n := by
  rw [Number.digitsValue_eq isDigit_of_mem_padded, padded, Nat.ofDigitChars_append,
    Nat.ofDigitChars_replicate_zero, Nat.mul_zero, Nat.ofDigitChars_ten_toDigits]

theorem length_padded {width n : Nat} (hwidth : 0 < width) (h : n < 10 ^ width) :
    (padded width n).length = width := by
  have hlength := (Nat.length_toDigits_le_iff (by decide : 1 < 10) hwidth).2 h
  rw [padded, List.length_append, List.length_replicate]
  omega

theorem padded_ne_nil (width n : Nat) : padded width n ≠ [] :=
  List.append_ne_nil_of_right_ne_nil _ Nat.toDigits_ne_nil

/-- What begins with a number of digits begins with no blank and no sign. -/
theorem exists_padded_append (width n : Nat) (rest : List Char) :
    ∃ c cs, padded width n ++ rest = c :: cs ∧ Text.isBlank c = false ∧ c ≠ '-' ∧ c ≠ '+' := by
  obtain ⟨c, cs, hcs⟩ := List.exists_cons_of_ne_nil (padded_ne_nil width n)
  have hc : c.isDigit := isDigit_of_mem_padded c (hcs ▸ List.mem_cons_self)
  refine ⟨c, cs ++ rest, by rw [hcs, List.cons_append], Text.isBlank_eq_false_of_isDigit hc, ?_, ?_⟩
  · rintro rfl
    exact absurd hc (by decide)
  · rintro rfl
    exact absurd hc (by decide)

theorem trimStart_padded_append (width n : Nat) (rest : List Char) :
    trimStart (padded width n ++ rest) = padded width n ++ rest := by
  obtain ⟨c, cs, hcs, hblank, -⟩ := exists_padded_append width n rest
  rw [hcs, Text.trimStart_cons cs hblank]

/-- A number whose digits have been cut off is taken as it is. -/
private theorem judge_padded (width : Nat) {n : Nat} (hn : n ≤ Number.greatest) (rest : List Char) :
    (if padded width n ++ rest = [] then .error .tooShort
      else if padded width n = [] then .error .invalid
      else if digitsValue (padded width n) ≤ Number.greatest then
        .ok (digitsValue (padded width n), (padded width n ++ rest).drop (padded width n).length)
      else .error .outOfRange : Except DateFault (Nat × List Char)) = .ok (n, rest) := by
  have hne : padded width n ++ rest ≠ [] := List.append_ne_nil_of_left_ne_nil (padded_ne_nil width n) _
  rw [if_neg hne, if_neg (padded_ne_nil width n), digitsValue_padded, if_pos hn, List.drop_left]

private theorem takeWhile_padded_append (width n : Nat) (rest : List Char) :
    (padded width n ++ rest).takeWhile isDigit = padded width n ++ rest.takeWhile isDigit :=
  List.takeWhile_append_of_pos fun c hc => Number.isDigit_eq_true (isDigit_of_mem_padded c hc)

/-- A number as wide as allowed is read, whatever follows. -/
theorem readNumber_width {width n : Nat} (hwidth : 0 < width) (h : n < 10 ^ width)
    (hn : n ≤ Number.greatest) (rest : List Char) :
    readNumber (some width) (padded width n ++ rest) = .ok (n, rest) := by
  have hrun : ((padded width n ++ rest).takeWhile isDigit).take width = padded width n := by
    rw [takeWhile_padded_append]
    exact List.take_left' (length_padded hwidth h)
  simp only [readNumber, hrun]
  exact judge_padded width hn rest

/-- A number before a hyphen is read, however many digits it has. -/
theorem readNumber_hyphen (width : Nat) {n : Nat} (hn : n ≤ Number.greatest) (rest : List Char) :
    readNumber none (padded width n ++ '-' :: rest) = .ok (n, '-' :: rest) := by
  have hstop : ('-' :: rest).takeWhile isDigit = [] := List.takeWhile_cons_of_neg (by decide)
  have hrun : (padded width n ++ '-' :: rest).takeWhile isDigit = padded width n := by
    rw [takeWhile_padded_append, hstop, List.append_nil]
  simp only [readNumber, hrun]
  exact judge_padded width hn ('-' :: rest)

theorem readPart_padded {limit n : Nat} (hpos : 1 ≤ n) (hle : n ≤ limit) (hlimit : limit < 100)
    (rest : List Char) : readPart limit (padded 2 n ++ rest) = .ok (n, rest) := by
  have hread : readNumber (some 2) (padded 2 n ++ rest) = .ok (n, rest) :=
    readNumber_width (by decide) (by omega) (by unfold Number.greatest; omega) rest
  unfold readPart
  rw [trimStart_padded_append, hread, ok_bind]
  exact if_pos ⟨hpos, hle⟩

def yearText (year : Int) : List Char :=
  (if year < 0 then ['-'] else if 9999 < year then ['+'] else []) ++ padded 4 year.natAbs

theorem text_eq (d : Date) :
    d.text = yearText d.year ++ '-' :: (padded 2 d.month ++ '-' :: padded 2 d.day) := by
  simp only [text, yearText, List.append_assoc, List.cons_append]

theorem readYear_yearText {year : Int} (hlow : -262143 ≤ year) (hhigh : year ≤ 262142)
    (rest : List Char) : readYear (yearText year ++ '-' :: rest) = .ok (year, '-' :: rest) := by
  have hrange : Int32.minValue.toInt ≤ year ∧ year ≤ Int32.maxValue.toInt := by
    have hmin : Int32.minValue.toInt = -2147483648 := rfl
    have hmax : Int32.maxValue.toInt = 2147483647 := rfl
    omega
  have hgreatest : year.natAbs ≤ Number.greatest := by unfold Number.greatest; omega
  have hsigned := readNumber_hyphen 4 hgreatest rest
  unfold readYear yearText
  split_ifs with hneg hbig
  · have habs : -(year.natAbs : Int) = year := by omega
    rw [List.singleton_append, List.cons_append, Text.trimStart_cons _ (by decide)]
    simp only [hsigned, Except.map, habs, ok_bind]
    exact if_pos hrange
  · have habs : (year.natAbs : Int) = year := by omega
    rw [List.singleton_append, List.cons_append, Text.trimStart_cons _ (by decide)]
    simp only [hsigned, Except.map, habs, ok_bind]
    exact if_pos hrange
  · have habs : (year.natAbs : Int) = year := by omega
    have hwidth : year.natAbs < 10 ^ 4 := by omega
    have hread := readNumber_width (by decide) hwidth hgreatest ('-' :: rest)
    obtain ⟨c, cs, hcs, hblank, hminus, hplus⟩ := exists_padded_append 4 year.natAbs ('-' :: rest)
    rw [List.nil_append, hcs, Text.trimStart_cons _ hblank]
    rw [hcs] at hread
    split
    next heq => exact absurd (List.cons.inj heq).1 hminus
    next heq => exact absurd (List.cons.inj heq).1 hplus
    next =>
      simp only [hread, Except.map, habs, ok_bind]
      exact if_pos hrange

theorem trim_text (d : Date) : Text.trim d.text = d.text := by
  have hdigits : ∀ {width n : Nat} {c : Char}, c ∈ padded width n → Text.isBlank c = false :=
    fun hc => Text.isBlank_eq_false_of_isDigit (isDigit_of_mem_padded _ hc)
  have hyear : ∀ c ∈ yearText d.year, Text.isBlank c = false := by
    intro c hc
    rcases List.mem_append.1 hc with hc | hc
    · split_ifs at hc
      · obtain rfl := List.mem_singleton.1 hc
        decide
      · obtain rfl := List.mem_singleton.1 hc
        decide
      · cases hc
    · exact hdigits hc
  refine Text.trim_eq_self fun c hc => ?_
  rw [text_eq, List.mem_append, List.mem_cons, List.mem_append, List.mem_cons] at hc
  rcases hc with hc | rfl | hc | rfl | hc
  · exact hyear c hc
  · decide
  · exact hdigits hc
  · decide
  · exact hdigits hc

/-- A date is read back from its text, also where blanks are allowed. -/
theorem read_text (loose : Bool) (d : Date) : Date.read loose d.text = .ok d := by
  obtain ⟨hlow, hhigh, hday, hlast⟩ := d.valid
  obtain ⟨hmonth, hmonth'⟩ := month_bounds (Nat.lt_of_lt_of_le hday hlast)
  have hday' : d.day ≤ 31 := Nat.le_trans hlast (daysIn_le d.year d.month)
  have hgap : ∀ cs : List Char, (if loose then trimStart ('-' :: cs) else '-' :: cs) = '-' :: cs := by
    intro cs
    rw [Text.trimStart_cons cs (by decide), ite_self]
  have hend : (if loose then trimStart [] else []) = ([] : List Char) := ite_self []
  have hexists : ofParts? d.year d.month d.day = some d := dif_pos d.valid
  have hyear := readYear_yearText hlow hhigh (padded 2 d.month ++ '-' :: padded 2 d.day)
  have hmonth := readPart_padded hmonth hmonth' (by decide) ('-' :: padded 2 d.day)
  have hday := readPart_padded hday hday' (by decide) []
  rw [List.append_nil] at hday
  rw [text_eq, Date.read]
  simp only [hyear, ok_bind, hgap, readHyphen, hmonth, hday, hend, hexists]
  rfl

end Date

end ChronicleMeta.Calendar
