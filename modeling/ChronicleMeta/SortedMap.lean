/-!
Finite maps kept as lists of entries in strictly ascending key order. Two maps with the same
entries are equal, so a statement about all the entries of a map is a statement about the map.
-/

namespace ChronicleMeta

open Std (TransOrd LawfulEqOrd OrientedCmp TransCmp LawfulEqCmp ReflCmp)

universe u v w

structure SortedMap (κ : Type u) (α : Type v) [Ord κ] where
  toList : List (κ × α) := []
  /-- Each key comes before every later one. -/
  ascending : toList.Pairwise (fun a b => compare a.1 b.1 = .lt) := by exact List.Pairwise.nil

namespace SortedMap

variable {κ : Type u} {α : Type v} {β : Type w} [Ord κ]

instance : EmptyCollection (SortedMap κ α) := ⟨{}⟩

instance : Inhabited (SortedMap κ α) := ⟨∅⟩

def keys (m : SortedMap κ α) : List κ := m.toList.map (·.1)

def values (m : SortedMap κ α) : List α := m.toList.map (·.2)

def size (m : SortedMap κ α) : Nat := m.toList.length

def isEmpty (m : SortedMap κ α) : Bool := m.toList.isEmpty

def find (k : κ) : List (κ × α) → Option α
  | [] => none
  | (k', a) :: l => if compare k k' = .eq then some a else find k l

def get? (m : SortedMap κ α) (k : κ) : Option α := find k m.toList

def contains (m : SortedMap κ α) (k : κ) : Bool := (m.get? k).isSome

def place (k : κ) (a : α) : List (κ × α) → List (κ × α)
  | [] => [(k, a)]
  | (k', b) :: l =>
    match compare k k' with
    | .lt => (k, a) :: (k', b) :: l
    | .eq => (k, a) :: l
    | .gt => (k', b) :: place k a l

theorem mem_place {k : κ} {a : α} {l : List (κ × α)} {e : κ × α} (h : e ∈ place k a l) :
    e = (k, a) ∨ e ∈ l := by
  induction l with
  | nil => simpa [place] using h
  | cons f l ih =>
    obtain ⟨k', b⟩ := f
    simp only [place] at h
    split at h
    · simpa using h
    · rcases List.mem_cons.1 h with h | h
      · exact .inl h
      · exact .inr (List.mem_cons_of_mem _ h)
    · rcases List.mem_cons.1 h with h | h
      · exact .inr (h ▸ List.mem_cons_self)
      · exact (ih h).imp id (List.mem_cons_of_mem _)

theorem pairwise_place [TransOrd κ] [LawfulEqOrd κ] {k : κ} {a : α} {l : List (κ × α)}
    (h : l.Pairwise (fun a b => compare a.1 b.1 = .lt)) :
    (place k a l).Pairwise (fun a b => compare a.1 b.1 = .lt) := by
  induction l with
  | nil => simp [place]
  | cons f l ih =>
    obtain ⟨k', b⟩ := f
    have ⟨hf, hl⟩ := List.pairwise_cons.1 h
    simp only [place]
    split
    next hk =>
      refine List.pairwise_cons.2 ⟨fun e he => ?_, h⟩
      rcases List.mem_cons.1 he with rfl | he
      · exact hk
      · exact TransCmp.lt_trans hk (hf e he)
    next hk =>
      have hk : k = k' := LawfulEqCmp.eq_of_compare hk
      exact List.pairwise_cons.2 ⟨fun e he => hk ▸ hf e he, hl⟩
    next hk =>
      refine List.pairwise_cons.2 ⟨fun e he => ?_, ih hl⟩
      rcases mem_place he with rfl | he
      · exact OrientedCmp.lt_of_gt hk
      · exact hf e he

def insert [TransOrd κ] [LawfulEqOrd κ] (m : SortedMap κ α) (k : κ) (a : α) : SortedMap κ α where
  toList := place k a m.toList
  ascending := pairwise_place m.ascending

/-- The map without the key. -/
def erase (m : SortedMap κ α) (k : κ) : SortedMap κ α where
  toList := m.toList.filter (fun e => compare k e.1 != .eq)
  ascending := m.ascending.sublist List.filter_sublist

def mapValues (f : κ → α → β) (m : SortedMap κ α) : SortedMap κ β where
  toList := m.toList.map (fun e => (e.1, f e.1 e.2))
  ascending := List.pairwise_map.2 m.ascending

def ofList [TransOrd κ] [LawfulEqOrd κ] (l : List (κ × α)) : SortedMap κ α :=
  l.foldl (fun m e => m.insert e.1 e.2) ∅

def findValue? (p : α → Bool) (m : SortedMap κ α) : Option α := m.values.find? p

instance [DecidableEq κ] [DecidableEq α] : DecidableEq (SortedMap κ α) := fun a b =>
  if h : a.toList = b.toList then .isTrue (by cases a; cases b; simpa using h)
  else .isFalse (fun e => h (e ▸ rfl))

@[ext] theorem ext_toList {m n : SortedMap κ α} (h : m.toList = n.toList) : m = n := by
  cases m; cases n; simpa using h

@[simp] theorem get?_empty (k : κ) : (∅ : SortedMap κ α).get? k = none := rfl

private theorem find_place_self [ReflCmp (α := κ) compare] (k : κ) (a : α) (l : List (κ × α)) :
    find k (place k a l) = some a := by
  induction l with
  | nil => simp [place, find]
  | cons f l ih =>
    obtain ⟨k', b⟩ := f
    simp only [place]
    split
    · simp [find]
    · simp [find]
    next hk => simp [find, hk, ih]

private theorem find_place_of_ne [LawfulEqOrd κ] {k k' : κ} (h : k' ≠ k) (a : α)
    (l : List (κ × α)) : find k' (place k a l) = find k' l := by
  have hne : ¬compare k' k = .eq := fun e => h (LawfulEqCmp.eq_of_compare e)
  induction l with
  | nil => simp [place, find, hne]
  | cons f l ih =>
    obtain ⟨k'', b⟩ := f
    simp only [place]
    split
    · simp [find, hne]
    next hk =>
      have hk : k = k'' := LawfulEqCmp.eq_of_compare hk
      simp [find, ← hk, hne]
    · simp [find, ih]

@[simp] theorem get?_insert_self [TransOrd κ] [LawfulEqOrd κ] (m : SortedMap κ α) (k : κ) (a : α) :
    (m.insert k a).get? k = some a := find_place_self k a m.toList

theorem get?_insert_of_ne [TransOrd κ] [LawfulEqOrd κ] (m : SortedMap κ α) {k k' : κ}
    (h : k' ≠ k) (a : α) : (m.insert k a).get? k' = m.get? k' :=
  find_place_of_ne h a m.toList

end SortedMap

end ChronicleMeta
