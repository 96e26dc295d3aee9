import Mathlib.Data.List.Basic
import ChronicleMeta.Number.Reading
import ChronicleMeta.Text.Basic

/-!
Texts without blanks, which trimming leaves as they are; decimal digits, and integers that are read
back from their text.
-/

namespace ChronicleMeta

namespace Text

theorem isBlank_eq_false_of_isDigit {c : Char} (h : c.isDigit) : isBlank c = false := by
  obtain ⟨hlow, hhigh⟩ := Char.isDigit_iff_toNat.1 h
  have hzero : '0'.toNat = 48 := rfl
  have hnine : '9'.toNat = 57 := rfl
  simp only [isBlank, Bool.or_eq_false_iff, Bool.and_eq_false_iff, decide_eq_false_iff_not,
    beq_eq_false_iff_ne]
  omega

theorem trimStart_cons {c : Char} (cs : List Char) (h : isBlank c = false) :
    trimStart (c :: cs) = c :: cs := List.dropWhile_cons_of_neg (by simp [h])

theorem trim_eq_self {cs : List Char} (h : ∀ c ∈ cs, isBlank c = false) : trim cs = cs := by
  have hkept : ∀ l : List Char, (∀ c ∈ l, isBlank c = false) → l.dropWhile isBlank = l := by
    intro l hl
    cases l with
    | nil => rfl
    | cons c l => exact trimStart_cons l (hl c List.mem_cons_self)
  have hstart : trimStart cs = cs := hkept cs h
  have hend : cs.reverse.dropWhile isBlank = cs.reverse :=
    hkept cs.reverse fun c hc => h c (List.mem_reverse.1 hc)
  rw [trim, hstart, trimEnd, hend, List.reverse_reverse]

end Text

namespace Number

theorem digit?_eq_some {c : Char} (h : c.isDigit) : digit? c = some (c.toNat - '0'.toNat) := by
  have hbounds := Char.isDigit_iff_toNat.1 h
  have hlow : '0' ≤ c := UInt32.le_iff_toNat_le.2 hbounds.1
  have hhigh : c ≤ '9' := UInt32.le_iff_toNat_le.2 hbounds.2
  exact if_pos ⟨hlow, hhigh⟩

theorem isDigit_eq_true {c : Char} (h : c.isDigit) : isDigit c = true := by
  rw [isDigit, digit?_eq_some h, Option.isSome_some]

theorem isDigit_of_mem_toDigits {n : Nat} : ∀ c ∈ Nat.toDigits 10 n, c.isDigit := fun _ hc =>
  Nat.isDigit_of_mem_toDigits (by decide) (by decide) hc

theorem digitsValue_eq {ds : List Char} (h : ∀ c ∈ ds, c.isDigit) :
    digitsValue ds = Nat.ofDigitChars 10 ds 0 := by
  rw [digitsValue, Nat.ofDigitChars_eq_foldl]
  refine List.foldl_ext _ _ 0 fun n c hc => ?_
  rw [digit?_eq_some (h c hc), Option.getD_some]

/-- More digits make no smaller number. -/
theorem le_ofDigitChars (ds : List Char) (acc : Nat) : acc ≤ Nat.ofDigitChars 10 ds acc := by
  have hpow : 0 < 10 ^ ds.length := Nat.pow_pos (by omega)
  have hmul : acc ≤ 10 ^ ds.length * acc := Nat.le_mul_of_pos_left acc hpow
  rw [Nat.ofDigitChars_eq_ofDigitChars_zero]
  omega

/-- Digits are read to the end if their number is within the limit, as then are those on the way. -/
theorem readDigits_eq_ok {limit : Nat} (past : IntegerFault) {ds : List Char} {acc : Nat}
    (hds : ∀ c ∈ ds, c.isDigit) (hle : Nat.ofDigitChars 10 ds acc ≤ limit) :
    readDigits limit past acc ds = .ok (Nat.ofDigitChars 10 ds acc) := by
  induction ds generalizing acc with
  | nil => rfl
  | cons c ds ih =>
    obtain ⟨hc, hds⟩ := List.forall_mem_cons.1 hds
    rw [Nat.ofDigitChars_cons] at hle ⊢
    have hnext := Nat.le_trans (le_ofDigitChars ds _) hle
    rw [readDigits, digit?_eq_some hc]
    dsimp only
    rw [if_pos hnext]
    exact ih hds hle

theorem readDigits_toDigits (limit : Nat) (past : IntegerFault) {n : Nat} (h : n ≤ limit) :
    readDigits limit past 0 (Nat.toDigits 10 n) = .ok n := by
  have hvalue : Nat.ofDigitChars 10 (Nat.toDigits 10 n) 0 = n := Nat.ofDigitChars_ten_toDigits
  have hread := readDigits_eq_ok past isDigit_of_mem_toDigits
    (Nat.le_trans (Nat.le_of_eq hvalue) h)
  rwa [hvalue] at hread

/-- An integer is written with digits, and a hyphen if it is negative. -/
theorem isDigit_or_eq_of_mem_writeInt64 {i : Int64} {c : Char} (h : c ∈ writeInt64 i) :
    c.isDigit ∨ c = '-' := by
  unfold writeInt64 at h
  split_ifs at h
  · rcases List.mem_cons.1 h with rfl | h
    · exact .inr rfl
    · exact .inl (isDigit_of_mem_toDigits c h)
  · exact .inl (isDigit_of_mem_toDigits c h)

theorem trim_writeInt64 (i : Int64) : Text.trim (writeInt64 i) = writeInt64 i := by
  refine Text.trim_eq_self fun c hc => ?_
  rcases isDigit_or_eq_of_mem_writeInt64 hc with hc | rfl
  · exact Text.isBlank_eq_false_of_isDigit hc
  · decide

private theorem exists_toDigits_eq_cons (n : Nat) :
    ∃ d ds, Nat.toDigits 10 n = d :: ds ∧ d ≠ '-' ∧ d ≠ '+' := by
  obtain ⟨d, ds, hds⟩ := List.exists_cons_of_ne_nil (Nat.toDigits_ne_nil (n := n) (b := 10))
  have hd : d.isDigit := isDigit_of_mem_toDigits d (hds ▸ List.mem_cons_self)
  refine ⟨d, ds, hds, ?_, ?_⟩
  · rintro rfl
    exact absurd hd (by decide)
  · rintro rfl
    exact absurd hd (by decide)

theorem readInt64_writeInt64 (i : Int64) : readInt64 (writeInt64 i) = .ok i := by
  have hlow : -2 ^ 63 ≤ i.toInt := i.le_toInt
  have hhigh : i.toInt < 2 ^ 63 := i.toInt_lt
  obtain ⟨d, ds, hds, hminus, hplus⟩ := exists_toDigits_eq_cons i.toInt.natAbs
  unfold writeInt64
  split_ifs with hneg
  · have hread := readDigits_toDigits (greatest + 1) .tooSmall (n := i.toInt.natAbs)
      (by unfold greatest; omega)
    have habs : -(i.toInt.natAbs : Int) = i.toInt := by omega
    rw [hds] at hread ⊢
    generalize i.toInt.natAbs = n at hread habs
    simp [readInt64, hread, Except.map, habs]
  · have hread := readDigits_toDigits greatest .tooLarge (n := i.toInt.natAbs)
      (by unfold greatest; omega)
    have habs : (i.toInt.natAbs : Int) = i.toInt := by omega
    rw [hds] at hread ⊢
    generalize i.toInt.natAbs = n at hread habs
    rw [readInt64.eq_def]
    simp [hread, Except.map, habs, hminus, hplus]

end Number

end ChronicleMeta
