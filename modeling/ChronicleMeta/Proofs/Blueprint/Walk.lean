import ChronicleMeta.Proofs.Chain
import Mathlib.Data.List.Chain

/-!
The walk along base names. It always ends: with the schemas it has come by, or with the first name
that keeps it from going on.
-/

namespace ChronicleMeta

/-- A source that does not fail, and in which a schema is found under its own name. -/
def Source.Faithful (source : Source) : Prop :=
  ∀ n, ∃ found, source n = .ok found ∧ ∀ base, found = some base → base.name = n

/-- The second schema is the base of the first. -/
def Source.Links (source : Source) (b base : Blueprint) : Prop :=
  ∃ n, b.base = some n ∧ source n = .ok (some base)

namespace Blueprint

/-- Schemas of different names from `b` on, each the base of the one before. The last of them has
the base `next`. -/
structure Path (source : Source) (b : Blueprint) (walked : List Blueprint) (next : Option String) :
    Prop where
  head_eq : walked.head? = some b
  linked : walked.IsChain source.Links
  next_eq : walked.getLast?.map (·.base) = some next
  names_nodup : (walked.map (·.name)).Nodup

/-- What keeps a walk from going on to the name. The name of a schema that has been walked is a
cycle even where no more schemas are allowed, and where none is allowed it is not asked whether
there is one of the name. -/
inductive Obstacle (source : Source) (maxDepth : Nat) (b : Blueprint) (walked : List Blueprint)
    (name : String) : Error → Prop
  | cycle (h : name ∈ walked.map (·.name)) :
    Obstacle source maxDepth b walked name (.schemaCycle (walked.map (·.name) ++ [name]))
  | tooDeep (h : name ∉ walked.map (·.name)) (hfull : walked.length = maxDepth) :
    Obstacle source maxDepth b walked name
      (.schemaChainTooDeep b.name maxDepth (walked.map (·.name) ++ [name]))
  | missing (h : name ∉ walked.map (·.name)) (hroom : walked.length < maxDepth)
    (hnone : source name = .ok none) : Obstacle source maxDepth b walked name (.schemaNotFound name)

variable {source : Source} {maxDepth room : Nat} {start name : String} {visited : List String}
  {b base : Blueprint} {walked chain : List Blueprint} {next : Option String}

theorem path_singleton (source : Source) (b : Blueprint) : Path source b [b] b.base where
  head_eq := rfl
  linked := List.isChain_singleton b
  next_eq := rfl
  names_nodup := List.nodup_singleton b.name

/-- A path goes on to the base of its last schema if this has a new name. -/
theorem Path.extend (h : Path source b walked (some name)) (hbase : source name = .ok (some base))
    (hname : base.name = name) (hnew : name ∉ walked.map (·.name)) :
    Path source b (walked ++ [base]) base.base where
  head_eq := by
    rw [List.head?_append, h.head_eq]
    rfl
  linked := by
    refine List.isChain_append.2 ⟨h.linked, List.isChain_singleton base, ?_⟩
    intro last hlast y hy
    obtain rfl : y = base := by simpa using hy.symm
    have hnext : last.base = some name := by
      have heq := h.next_eq
      rw [hlast] at heq
      exact Option.some.inj heq
    exact ⟨name, hnext, hbase⟩
  next_eq := by
    rw [List.getLast?_concat]
    rfl
  names_nodup := by
    rw [List.map_append, List.map_singleton, hname]
    exact List.nodup_append.2 ⟨h.names_nodup, List.nodup_singleton name, by
      intro m hm k hk heq
      obtain rfl : k = name := List.mem_singleton.1 hk
      exact hnew (heq ▸ hm)⟩

/-- A path to another schema has come by the one before. -/
theorem Path.of_concat (h : Path source b (walked ++ [base]) next) (hne : walked ≠ []) :
    next = base.base ∧ ∃ n, Path source b walked (some n) ∧ source n = .ok (some base) ∧
      base.name ∉ walked.map (·.name) := by
  obtain ⟨last, hlast⟩ : ∃ last, walked.getLast? = some last :=
    Option.ne_none_iff_exists'.1 (by simpa using hne)
  have hnext : base.base = next := by
    have heq := h.next_eq
    rw [List.getLast?_concat] at heq
    exact Option.some.inj heq
  obtain ⟨hlinked, -, hlink⟩ := List.isChain_append.1 h.linked
  obtain ⟨n, hn, hbase⟩ := hlink last hlast base (by simp)
  have hnodup := h.names_nodup
  rw [List.map_append, List.map_singleton] at hnodup
  obtain ⟨hwalked, -, hdistinct⟩ := List.nodup_append.1 hnodup
  have hhead : walked.head? = some b := by
    have heq := h.head_eq
    rw [List.head?_append] at heq
    cases walked with
    | nil => exact absurd rfl hne
    | cons c l => exact heq
  refine ⟨hnext.symm, n, ⟨hhead, hlinked, by rw [hlast, Option.map_some, hn], hwalked⟩, hbase, ?_⟩
  intro hmem
  exact hdistinct _ hmem _ (List.mem_singleton.2 rfl) rfl

/-- A path can be followed to a schema without base or to an obstacle. -/
theorem Path.ends (hsource : source.Faithful) (h : Path source b walked next)
    (hle : walked.length ≤ maxDepth) :
    ∃ walked' next', Path source b walked' next' ∧ walked'.length ≤ maxDepth ∧
      (next' = none ∨ ∃ name e, next' = some name ∧ Obstacle source maxDepth b walked' name e) := by
  -- `room` is the number of schemas by which the path may still grow.
  obtain ⟨room, hroom⟩ := Nat.exists_eq_add_of_le hle
  induction room generalizing walked next with
  | zero =>
    refine ⟨walked, next, h, hle, ?_⟩
    cases next with
    | none => exact .inl rfl
    | some name =>
      by_cases hmem : name ∈ walked.map (·.name)
      · exact .inr ⟨name, _, rfl, .cycle hmem⟩
      · exact .inr ⟨name, _, rfl, .tooDeep hmem (by omega)⟩
  | succ room ih =>
    cases next with
    | none => exact ⟨walked, none, h, hle, .inl rfl⟩
    | some name =>
      by_cases hmem : name ∈ walked.map (·.name)
      · exact ⟨walked, some name, h, hle, .inr ⟨name, _, rfl, .cycle hmem⟩⟩
      obtain ⟨found, hfound, hname⟩ := hsource name
      cases found with
      | none =>
        have hmissing := Obstacle.missing (b := b) hmem (by omega : walked.length < maxDepth) hfound
        exact ⟨walked, some name, h, hle, .inr ⟨name, _, rfl, hmissing⟩⟩
      | some base =>
        have hlength : (walked ++ [base]).length = walked.length + 1 := by simp
        exact ih (h.extend hfound (hname base rfl) hmem) (by omega) (by omega)

theorem walk_end : walk source maxDepth start room visited walked none = .ok walked := by
  cases room <;> rfl

theorem walk_visited (h : name ∈ visited) :
    walk source maxDepth start room visited walked (some name) =
      .error (.schemaCycle (walked.map (·.name) ++ [name])) := by
  cases room <;> simp [walk, h]

theorem walk_full (h : name ∉ visited) :
    walk source maxDepth start 0 visited walked (some name) =
      .error (.schemaChainTooDeep start maxDepth (walked.map (·.name) ++ [name])) := by
  simp [walk, h]

theorem walk_missing (h : name ∉ visited) (hnone : source name = .ok none) :
    walk source maxDepth start (room + 1) visited walked (some name) =
      .error (.schemaNotFound name) := by
  simp only [walk, h, if_false, hnone]
  rfl

theorem walk_found (h : name ∉ visited) (hbase : source name = .ok (some base)) :
    walk source maxDepth start (room + 1) visited walked (some name) =
      walk source maxDepth start room (name :: visited) (walked ++ [base]) base.base := by
  simp only [walk, h, if_false, hbase]
  rfl

/-- The walk comes by every path that is short enough. -/
theorem Path.chain_eq (hsource : source.Faithful) (h : Path source b walked next)
    (hle : walked.length ≤ maxDepth) :
    b.chain source maxDepth = walk source maxDepth b.name (maxDepth - walked.length)
      (walked.map (·.name)).reverse walked next := by
  -- The last schema of the path has been looked up in the step before.
  induction walked using List.reverseRecOn generalizing next with
  | nil => cases h.head_eq
  | append_singleton walked base ih =>
    by_cases hne : walked = []
    · subst hne
      obtain rfl : base = b := by simpa using h.head_eq
      have hnext : base.base = next := Option.some.inj h.next_eq
      rw [← hnext]
      rfl
    · obtain ⟨rfl, n, hpath, hbase, hnew⟩ := h.of_concat hne
      have hname : base.name = n := by
        obtain ⟨found, hfound, hname⟩ := hsource n
        rw [hbase] at hfound
        exact hname base (Except.ok.inj hfound).symm
      rw [List.length_append, List.length_singleton] at hle
      have hroom : maxDepth - walked.length = (maxDepth - (walked.length + 1)) + 1 := by omega
      have hvisited : n ∉ (walked.map (·.name)).reverse := by
        rw [List.mem_reverse, ← hname]
        exact hnew
      rw [ih hpath (by omega), hroom, walk_found hvisited hbase, List.length_append,
        List.length_singleton, List.map_append, List.reverse_append, ← hname]
      rfl

/-- At the end of a path the walk gives the path. -/
theorem Path.chain_eq_ok (hsource : source.Faithful) (h : Path source b walked none)
    (hle : walked.length ≤ maxDepth) : b.chain source maxDepth = .ok walked := by
  rw [h.chain_eq hsource hle, walk_end]

/-- At an obstacle the walk fails. -/
theorem Path.chain_eq_error (hsource : source.Faithful) (h : Path source b walked (some name))
    (hle : walked.length ≤ maxDepth) {e : Error} (he : Obstacle source maxDepth b walked name e) :
    b.chain source maxDepth = .error e := by
  rw [h.chain_eq hsource hle]
  cases he with
  | cycle hmem => exact walk_visited (List.mem_reverse.2 hmem)
  | tooDeep hnew hfull =>
    rw [hfull, Nat.sub_self]
    exact walk_full fun hmem => hnew (List.mem_reverse.1 hmem)
  | missing hnew hroom hnone =>
    have hsucc : maxDepth - walked.length = (maxDepth - walked.length - 1) + 1 := by omega
    rw [hsucc]
    exact walk_missing (fun hmem => hnew (List.mem_reverse.1 hmem)) hnone

def walkIn {m : Type → Type} [Monad m] [MonadExceptOf Error m]
    (lookUp : String → m (Option Blueprint)) (maxDepth : Nat) (start : String) :
    (room : Nat) → (visited : List String) → (walked : List Blueprint) → (next : Option String) →
      m (List Blueprint)
  | _, _, walked, none => pure walked
  | room, visited, walked, some name =>
    let names := walked.map (·.name) ++ [name]
    if name ∈ visited then throw (.schemaCycle names)
    else match room with
      | 0 => throw (.schemaChainTooDeep start maxDepth names)
      | room + 1 => do
        match ← lookUp name with
        | none => throw (.schemaNotFound name)
        | some base =>
          walkIn lookUp maxDepth start room (name :: visited) (walked ++ [base]) base.base

def chainIn {m : Type → Type} [Monad m] [MonadExceptOf Error m]
    (lookUp : String → m (Option Blueprint)) (maxDepth : Nat) (b : Blueprint) :
    m (List Blueprint) :=
  walkIn lookUp maxDepth b.name (maxDepth - 1) [b.name] [b] b.base

theorem walkIn_except (source : Source) :
    walkIn (m := Except Error) source maxDepth start room visited walked next =
      walk source maxDepth start room visited walked next := by
  induction room generalizing visited walked next with
  | zero => cases next <;> rfl
  | succ room ih =>
    cases next with
    | none => rfl
    | some name =>
      simp only [walkIn, walk]
      congr 1
      cases source name with
      | error e => rfl
      | ok found =>
        cases found with
        | none => rfl
        | some base => exact ih

def recorded (source : Source) (name : String) :
    ExceptT Error (StateM (List String)) (Option Blueprint) := do
  modify (· ++ [name])
  match source name with
  | .ok found => return found
  | .error e => throw e

/-- A walk looks a name up for each schema that it may still go on to, at most. -/
theorem run_walkIn_recorded (source : Source) (asked : List String) : ∃ more,
    (walkIn (recorded source) maxDepth start room visited walked next).run.run asked =
        (walk source maxDepth start room visited walked next, asked ++ more) ∧
      more.length ≤ room := by
  -- A cycle and a full chain are noticed without a look-up.
  induction room generalizing visited walked next asked with
  | zero =>
    refine ⟨[], ?_, Nat.le_refl 0⟩
    rw [List.append_nil]
    cases next with
    | none => rfl
    | some name =>
      by_cases hmem : name ∈ visited
      · rw [walk_visited hmem]
        simp only [walkIn, hmem, if_true]
        rfl
      · rw [walk_full hmem]
        simp only [walkIn, hmem, if_false]
        rfl
  | succ room ih =>
    cases next with
    | none => exact ⟨[], by rw [List.append_nil]; rfl, Nat.zero_le _⟩
    | some name =>
      by_cases hmem : name ∈ visited
      · refine ⟨[], ?_, Nat.zero_le _⟩
        rw [walk_visited hmem, List.append_nil]
        simp only [walkIn, hmem, if_true]
        rfl
      · cases hfound : source name with
        | error e =>
          refine ⟨[name], ?_, by simp⟩
          simp only [walkIn, walk, hmem, if_false, recorded, hfound]
          rfl
        | ok found =>
          cases found with
          | none =>
            refine ⟨[name], ?_, by simp⟩
            rw [walk_missing hmem hfound]
            simp only [walkIn, hmem, if_false, recorded, hfound]
            rfl
          | some base =>
            obtain ⟨more, hmore, hlength⟩ :=
              @ih (name :: visited) (walked ++ [base]) base.base (asked ++ [name])
            have happend : asked ++ name :: more = asked ++ [name] ++ more := by simp
            refine ⟨name :: more, ?_, by simpa using hlength⟩
            rw [walk_found hmem hfound, happend, ← hmore]
            simp only [walkIn, hmem, if_false, recorded, hfound]
            rfl

/-- What a resolved schema depends on is its chain. -/
theorem dependencies_of_resolution {requireComplete : Bool} {schema : Schema}
    (h : b.merge source maxDepth = .ok schema ∨
      b.resolve source { maxDepth, requireComplete } = .ok schema) :
    ∃ chain, b.chain source maxDepth = .ok chain ∧
      schema.dependencies = chain.map (·.surrogate) ∧
      ∀ x, schema.dependsOn x ↔ ∃ c ∈ chain, c.surrogate.agrees x := by
  have hmerge : b.merge source maxDepth = .ok schema := by
    obtain h | h := h
    · exact h
    · exact merge_of_resolve h
  obtain ⟨chain, d, hchain, -, rfl⟩ := merge_eq_ok hmerge
  refine ⟨chain, hchain, rfl, fun x => ?_⟩
  simp [Schema.dependsOn]

/-- To follow base names from a schema takes fewer look-ups than schemas are allowed. It gives the
path to a schema without base exactly if there is one, of no more schemas than allowed. Otherwise
the path meets an obstacle, and the failure is the one that the first obstacle stands for. What a
resolved schema depends on are the schemas of its path, the most derived first. -/
theorem chain_exact {source : Source} (hsource : source.Faithful) {maxDepth : Nat}
    (hdepth : 1 ≤ maxDepth) (b : Blueprint) :
    (chainIn source maxDepth b = b.chain source maxDepth ∧
      ∃ asked, (chainIn (recorded source) maxDepth b).run.run [] =
        (b.chain source maxDepth, asked) ∧ asked.length ≤ maxDepth - 1) ∧
    (∀ chain, b.chain source maxDepth = .ok chain ↔
      Path source b chain none ∧ chain.length ≤ maxDepth) ∧
    (∀ e, b.chain source maxDepth = .error e ↔ ∃ walked name,
      Path source b walked (some name) ∧ walked.length ≤ maxDepth ∧
        Obstacle source maxDepth b walked name e) ∧
    ∀ requireComplete schema, (b.merge source maxDepth = .ok schema ∨
        b.resolve source { maxDepth, requireComplete } = .ok schema) →
      ∃ chain, b.chain source maxDepth = .ok chain ∧
        schema.dependencies = chain.map (·.surrogate) ∧
        ∀ x, schema.dependsOn x ↔ ∃ c ∈ chain, c.surrogate.agrees x := by
  obtain ⟨walked, next, hpath, hle, hend⟩ := (path_singleton source b).ends hsource hdepth
  refine ⟨⟨walkIn_except source, run_walkIn_recorded source []⟩, fun chain => ⟨fun h => ?_, ?_⟩,
    fun e => ⟨fun h => ?_, ?_⟩, fun _ _ => dependencies_of_resolution⟩
  · obtain rfl | ⟨name, e, rfl, he⟩ := hend
    · rw [hpath.chain_eq_ok hsource hle] at h
      obtain rfl := Except.ok.inj h
      exact ⟨hpath, hle⟩
    · rw [hpath.chain_eq_error hsource hle he] at h
      cases h
  · rintro ⟨hchain, hle⟩
    exact hchain.chain_eq_ok hsource hle
  · obtain rfl | ⟨name, e', rfl, he⟩ := hend
    · rw [hpath.chain_eq_ok hsource hle] at h
      cases h
    · rw [hpath.chain_eq_error hsource hle he] at h
      obtain rfl := Except.error.inj h
      exact ⟨walked, name, hpath, hle, he⟩
  · rintro ⟨walked, name, hpath, hle, he⟩
    exact hpath.chain_eq_error hsource hle he

def loopBlueprint (name : String) (base : Option String) : Blueprint :=
  { surrogate := .pending ⟨1⟩ .schema, name, base }

def loopSource : Source := fun n =>
  .ok (if n = "a" then some (loopBlueprint "a" (some "b"))
    else if n = "b" then some (loopBlueprint "b" (some "a"))
    else none)

/-- The loop is entered from a schema outside it, so that the first name that comes again is not
that of the schema at the beginning. -/
theorem chain_exact_sample : loopSource.Faithful ∧ 1 ≤ 3 ∧
    (loopBlueprint "s" (some "a")).chain loopSource 3 =
      .error (.schemaCycle ["s", "a", "b", "a"]) := by
  have hsource : loopSource.Faithful := by
    intro n
    refine ⟨_, rfl, fun base hbase => ?_⟩
    split_ifs at hbase with ha hb
    · rw [← Option.some.inj hbase, ha]
      rfl
    · rw [← Option.some.inj hbase, hb]
      rfl
  have hentered : Path loopSource (loopBlueprint "s" (some "a"))
      [loopBlueprint "s" (some "a"), loopBlueprint "a" (some "b")] (some "b") :=
    (path_singleton loopSource (loopBlueprint "s" (some "a"))).extend rfl rfl (by decide)
  have hpath : Path loopSource (loopBlueprint "s" (some "a"))
      [loopBlueprint "s" (some "a"), loopBlueprint "a" (some "b"), loopBlueprint "b" (some "a")]
      (some "a") :=
    hentered.extend rfl rfl (by decide)
  have hdepth : 1 ≤ 3 := by decide
  exact ⟨hsource, hdepth, ((chain_exact hsource hdepth _).2.2.1 _).2
    ⟨_, "a", hpath, by decide, .cycle (by decide)⟩⟩

end Blueprint

end ChronicleMeta
