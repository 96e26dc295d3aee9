import ChronicleMeta.Text.Wildcard
import Mathlib.Data.String.Basic

/-! Matching at leftmost places against filling in the stars, and the byte offsets at which names are cut. -/

namespace ChronicleMeta.Text.Wildcard

variable {pattern name piece next last rest : List Char} {ps : List (List Char)}

/-- `Fills pattern name`: the name is the pattern with a run of characters for each star. -/
inductive Fills : List Char → List Char → Prop
  | done : Fills [] []
  | star {pattern name : List Char} (run : List Char) (h : Fills pattern name) :
      Fills ('*' :: pattern) (run ++ name)
  | char {pattern name : List Char} {c : Char} (hc : c ≠ '*') (h : Fills pattern name) :
      Fills (c :: pattern) (c :: name)

/-- The pieces one after the other, with a run of characters between any two of them. -/
inductive Spread : List (List Char) → List Char → Prop
  | last (piece : List Char) : Spread [piece] piece
  | cons (piece run : List Char) {ps : List (List Char)} {name : List Char} (h : Spread ps name) :
      Spread (piece :: ps) (piece ++ run ++ name)

/-- What may follow a piece: nothing if it is the last, else a run of characters and the other pieces. -/
def Follows : List (List Char) → List Char → Prop
  | [], rest => rest = []
  | ps, rest => ∃ run name, rest = run ++ name ∧ Spread ps name

theorem spread_cons_iff : Spread (piece :: ps) name ↔ ∃ rest, name = piece ++ rest ∧ Follows ps rest := by
  constructor
  · rintro (_ | ⟨_, run, h⟩)
    next => exact ⟨[], (List.append_nil _).symm, rfl⟩
    next name =>
      refine ⟨run ++ name, by simp, ?_⟩
      cases h <;> exact ⟨run, _, rfl, by constructor <;> assumption⟩
  · rintro ⟨rest, rfl, h⟩
    cases ps with
    | nil =>
      obtain rfl : rest = [] := h
      simpa using Spread.last piece
    | cons next ps =>
      obtain ⟨run, name, rfl, hs⟩ := h
      simpa using Spread.cons piece run hs

/-- Whatever stands before what may follow a piece belongs to the first run. -/
theorem Follows.prepend (before : List Char) (h : Follows (next :: ps) rest) :
    Follows (next :: ps) (before ++ rest) := by
  obtain ⟨run, name, rfl, hs⟩ := h
  exact ⟨before ++ run, name, by simp, hs⟩

theorem follows_singleton_iff : Follows [last] rest ↔ last <:+ rest := by
  constructor
  · rintro ⟨run, name, rfl, h⟩
    obtain ⟨_, rfl, rfl⟩ := spread_cons_iff.1 h
    simp
  · rintro ⟨run, rfl⟩
    exact ⟨run, last, rfl, .last last⟩

theorem follows_cons_cons_iff :
    Follows (piece :: next :: ps) rest ↔
      ∃ before after, rest = before ++ piece ++ after ∧ Follows (next :: ps) after := by
  constructor
  · rintro ⟨run, name, rfl, h⟩
    obtain ⟨after, rfl, hf⟩ := spread_cons_iff.1 h
    exact ⟨run, after, by simp, hf⟩
  · rintro ⟨before, after, rfl, hf⟩
    exact ⟨before, piece ++ after, by simp, spread_cons_iff.2 ⟨after, rfl, hf⟩⟩

theorem pieces_ne_nil (pattern : List Char) : pieces pattern ≠ [] := by
  cases pattern with
  | nil => simp [pieces]
  | cons c cs =>
    rw [pieces]
    split_ifs
    · simp
    · split <;> simp

/-- Stars are where the pieces are apart, so filling them in spreads the pieces. -/
theorem fills_iff_spread : Fills pattern name ↔ Spread (pieces pattern) name := by
  induction pattern generalizing name with
  | nil =>
    constructor
    · rintro ⟨⟩
      exact .last []
    · intro h
      obtain ⟨_, rfl, rfl⟩ := spread_cons_iff.1 h
      exact .done
  | cons c cs ih =>
    obtain ⟨q, qs, hq⟩ := List.exists_cons_of_ne_nil (pieces_ne_nil cs)
    simp only [hq] at ih
    simp only [pieces, hq]
    by_cases hc : c = '*'
    · subst hc
      rw [if_pos rfl]
      constructor
      · rintro (_ | ⟨run, h⟩ | ⟨hne, -⟩)
        next => exact spread_cons_iff.2 ⟨_, rfl, run, _, rfl, ih.1 h⟩
        next => exact absurd rfl hne
      · intro h
        obtain ⟨_, rfl, run, name, rfl, hs⟩ := spread_cons_iff.1 h
        exact .star run (ih.2 hs)
    · rw [if_neg hc]
      constructor
      · rintro (_ | ⟨run, h⟩ | ⟨-, h⟩)
        next => exact absurd rfl hc
        next =>
          obtain ⟨rest, rfl, hf⟩ := spread_cons_iff.1 (ih.1 h)
          exact spread_cons_iff.2 ⟨rest, rfl, hf⟩
      · intro h
        obtain ⟨rest, rfl, hf⟩ := spread_cons_iff.1 h
        exact .char hc (ih.2 (spread_cons_iff.2 ⟨rest, rfl, hf⟩))

theorem eq_of_dropThrough (h : dropThrough piece name = some rest) :
    ∃ before, name = before ++ piece ++ rest := by
  induction name with
  | nil => exact ⟨[], by simpa using (List.isPrefixOf?_eq_some_iff_append_eq.1 h).symm⟩
  | cons c cs ih =>
    rw [dropThrough] at h
    split at h
    next rest' hr =>
      obtain rfl := Option.some.inj h
      exact ⟨[], by simpa using (List.isPrefixOf?_eq_some_iff_append_eq.1 hr).symm⟩
    next =>
      obtain ⟨before, hb⟩ := ih h
      exact ⟨c :: before, by simp [hb]⟩

/-- A piece that occurs somewhere is found, and no occurrence leaves more than the one found. -/
theorem dropThrough_of_append (before piece after : List Char) :
    ∃ rest, dropThrough piece (before ++ piece ++ after) = some rest ∧ after <:+ rest := by
  induction before with
  | nil =>
    have hp : piece.isPrefixOf? (piece ++ after) = some after := List.isPrefixOf?_eq_some_iff_append_eq.2 rfl
    refine ⟨after, ?_, List.suffix_rfl⟩
    rw [List.nil_append]
    generalize piece ++ after = name at hp
    cases name with
    | nil => exact hp
    | cons c cs => simp only [dropThrough, hp]
  | cons c before ih =>
    rw [List.cons_append, List.cons_append, dropThrough]
    split
    next rest hr =>
      have hrest : piece ++ rest = c :: (before ++ piece ++ after) :=
        List.isPrefixOf?_eq_some_iff_append_eq.1 hr
      have hlen := congrArg List.length hrest
      have ha : after <:+ c :: (before ++ piece ++ after) := ⟨c :: before ++ piece, by simp⟩
      refine ⟨rest, rfl, List.suffix_of_suffix_length_le ha ⟨piece, hrest⟩ ?_⟩
      simp only [List.length_append, List.length_cons] at hlen
      omega
    next => exact ih

/-- Taking each piece at its leftmost place loses nothing: what another place would leave is a suffix of
what this one leaves, and the run before the next piece can be longer. -/
theorem matchesAfterStar_iff (ps : List (List Char)) (rest : List Char) :
    matchesAfterStar ps rest = true ↔ Follows ps rest := by
  induction ps generalizing rest with
  | nil => exact List.isEmpty_iff
  | cons piece ps ih =>
    cases ps with
    | nil => exact List.isSuffixOf_iff_suffix.trans follows_singleton_iff.symm
    | cons next ps =>
      rw [follows_cons_cons_iff, matchesAfterStar]
      constructor
      · intro h
        split at h
        next after hd =>
          obtain ⟨before, rfl⟩ := eq_of_dropThrough hd
          exact ⟨before, after, rfl, (ih after).1 h⟩
        next => cases h
      · rintro ⟨before, after, rfl, hf⟩
        obtain ⟨found, hd, extra, rfl⟩ := dropThrough_of_append before piece after
        rw [hd]
        exact (ih _).2 (hf.prepend extra)

theorem accepts_iff (pattern name : List Char) : accepts pattern name = true ↔ Fills pattern name := by
  obtain ⟨first, ps, hps⟩ := List.exists_cons_of_ne_nil (pieces_ne_nil pattern)
  rw [fills_iff_spread, hps, spread_cons_iff]
  simp only [accepts, hps]
  constructor
  · intro h
    split at h
    next rest hr =>
      have hname : first ++ rest = name := List.isPrefixOf?_eq_some_iff_append_eq.1 hr
      exact ⟨rest, hname.symm, (matchesAfterStar_iff ps rest).1 h⟩
    next => cases h
  · rintro ⟨rest, rfl, hf⟩
    have hr : first.isPrefixOf? (first ++ rest) = some rest := List.isPrefixOf?_eq_some_iff_append_eq.2 rfl
    simp only [hr]
    exact (matchesAfterStar_iff ps rest).2 hf

/-- The byte offset of the leftmost occurrence of `piece` in UTF-8 text. -/
def leftmost? (piece : List Char) : List Char → Option Nat
  | [] => if piece.isEmpty then some 0 else none
  | c :: cs =>
    if piece.isPrefixOf (c :: cs) then some 0
    else (leftmost? piece cs).map (c.utf8Size + ·)

/-- The text from a byte offset on, or `none` if it lies outside of the text or within a character. -/
def sliceFrom? : Nat → List Char → Option (List Char)
  | 0, cs => some cs
  | _ + 1, [] => none
  | n + 1, c :: cs => if c.utf8Size ≤ n + 1 then sliceFrom? (n + 1 - c.utf8Size) cs else none

/-- `matchesAfterStar` with every piece left behind by a slice; `none` if a slice is out of range. -/
def matchesBySlices : List (List Char) → List Char → Option Bool
  | [], rest => some rest.isEmpty
  | [last], rest => some (last.isSuffixOf rest)
  | piece :: next :: ps, rest =>
    match leftmost? piece rest with
    | some i => (sliceFrom? (i + String.utf8Len piece) rest).bind (matchesBySlices (next :: ps))
    | none => some false

def acceptsBySlices (pattern name : List Char) : Option Bool :=
  match pieces pattern with
  | [] => some false
  | first :: ps =>
    match first.isPrefixOf? name with
    | some rest => matchesBySlices ps rest
    | none => some false

theorem sliceFrom?_add (c : Char) (n : Nat) (cs : List Char) :
    sliceFrom? (c.utf8Size + n) (c :: cs) = sliceFrom? n cs := by
  obtain ⟨k, hk⟩ := Nat.exists_eq_succ_of_ne_zero (Nat.ne_of_gt (Nat.add_pos_left c.utf8Size_pos n))
  rw [hk, sliceFrom?, if_pos (by omega)]
  congr 1
  omega

/-- The offsets at which text can be cut are those of its beginnings, as in `String.Pos.Raw.Valid`. -/
theorem sliceFrom?_eq_some_iff {n : Nat} :
    sliceFrom? n name = some rest ↔ ∃ before, name = before ++ rest ∧ n = String.utf8Len before := by
  constructor
  · intro h
    induction name generalizing n with
    | nil =>
      cases n with
      | zero => exact ⟨[], by simpa [sliceFrom?] using h, rfl⟩
      | succ n => cases h
    | cons c cs ih =>
      cases n with
      | zero => exact ⟨[], by simpa [sliceFrom?] using h, rfl⟩
      | succ n =>
        rw [sliceFrom?] at h
        split_ifs at h with hc
        obtain ⟨before, rfl, hn⟩ := ih h
        exact ⟨c :: before, rfl, by rw [String.utf8Len_cons]; omega⟩
  · rintro ⟨before, rfl, rfl⟩
    induction before with
    | nil => rw [List.nil_append, String.utf8Len_nil, sliceFrom?]
    | cons c before ih => rw [List.cons_append, String.utf8Len_cons, Nat.add_comm, sliceFrom?_add, ih]

private theorem not_isPrefixOf (h : piece.isPrefixOf? name = none) : ¬ piece.isPrefixOf name := by
  rw [← List.isSome_isPrefixOf?_eq_isPrefixOf, h]
  simp

theorem leftmost?_eq_none (h : dropThrough piece name = none) : leftmost? piece name = none := by
  induction name with
  | nil =>
    have hp : ¬ piece.isEmpty := by
      rw [List.isEmpty_iff]
      rintro rfl
      cases h
    rw [leftmost?, if_neg hp]
  | cons c cs ih =>
    rw [dropThrough] at h
    split at h
    next => cases h
    next hp => rw [leftmost?, if_neg (not_isPrefixOf hp), ih h, Option.map_none]

/-- The slice after the leftmost occurrence is in range and is what follows that occurrence. -/
theorem exists_leftmost? (h : dropThrough piece name = some rest) :
    ∃ i, leftmost? piece name = some i ∧ sliceFrom? (i + String.utf8Len piece) name = some rest := by
  induction name with
  | nil =>
    have hp : piece ++ rest = [] := List.isPrefixOf?_eq_some_iff_append_eq.1 h
    obtain ⟨rfl, rfl⟩ := List.append_eq_nil_iff.1 hp
    exact ⟨0, rfl, rfl⟩
  | cons c cs ih =>
    rw [dropThrough] at h
    split at h
    next rest' hp =>
      obtain rfl := Option.some.inj h
      have hf : piece.isPrefixOf (c :: cs) := by
        rw [← List.isSome_isPrefixOf?_eq_isPrefixOf, hp]
        rfl
      refine ⟨0, by rw [leftmost?, if_pos hf], sliceFrom?_eq_some_iff.2 ⟨piece, ?_, Nat.zero_add _⟩⟩
      exact (List.isPrefixOf?_eq_some_iff_append_eq.1 hp).symm
    next hp =>
      obtain ⟨i, hi, hs⟩ := ih h
      refine ⟨c.utf8Size + i, by rw [leftmost?, if_neg (not_isPrefixOf hp), hi, Option.map_some], ?_⟩
      rw [Nat.add_assoc, sliceFrom?_add, hs]

theorem matchesBySlices_eq (ps : List (List Char)) (rest : List Char) :
    matchesBySlices ps rest = some (matchesAfterStar ps rest) := by
  induction ps generalizing rest with
  | nil => rfl
  | cons piece ps ih =>
    cases ps with
    | nil => rfl
    | cons next ps =>
      rw [matchesBySlices, matchesAfterStar]
      cases hd : dropThrough piece rest with
      | none => simp only [leftmost?_eq_none hd]
      | some after =>
        obtain ⟨i, hi, hs⟩ := exists_leftmost? hd
        simp only [hi, hs, Option.bind_some, ih]

theorem acceptsBySlices_eq (pattern name : List Char) :
    acceptsBySlices pattern name = some (accepts pattern name) := by
  rw [acceptsBySlices, accepts]
  cases pieces pattern with
  | nil => rfl
  | cons first ps =>
    cases hp : first.isPrefixOf? name with
    | none => simp only [hp]
    | some rest => simp only [hp, matchesBySlices_eq]

end ChronicleMeta.Text.Wildcard

namespace ChronicleMeta.Text

open Wildcard

/-- A name matches exactly the patterns that give it when every star is replaced by some run of
characters, and no slice taken on the way is out of range. -/
theorem matchesPattern_iff_fills (pattern name : String) :
    (matchesPattern pattern name = true ↔ Fills pattern.toList name.toList) ∧
      acceptsBySlices pattern.toList name.toList = some (matchesPattern pattern name) :=
  ⟨accepts_iff pattern.toList name.toList, acceptsBySlices_eq pattern.toList name.toList⟩

example : matchesPattern "ab*ba" "aba" = false := by decide

end ChronicleMeta.Text
