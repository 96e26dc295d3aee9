import ChronicleMeta.Outcome
import Mathlib.Data.List.Forall2

/-! When a sequence of steps succeeds. -/

namespace ChronicleMeta

variable {ε ε' σ τ α β γ : Type}

theorem bind_eq_ok_iff {x : Except ε α} {f : α → Except ε β} {b : β} :
    x >>= f = .ok b ↔ ∃ a, x = .ok a ∧ f a = .ok b := by
  cases x with
  | error e => simp [bind, Except.bind]
  | ok a => simp [bind, Except.bind]

theorem pure_eq_ok_iff {a b : α} : (pure a : Except ε α) = .ok b ↔ a = b := by
  simp [pure, Except.pure]

theorem map_eq_ok_iff {x : Except ε α} {f : α → β} {b : β} :
    x.map f = .ok b ↔ ∃ a, x = .ok a ∧ f a = b := by
  cases x <;> simp [Except.map]

theorem mapError_eq_ok_iff {x : Except ε α} {f : ε → ε'} {a : α} :
    x.mapError f = .ok a ↔ x = .ok a := by
  cases x <;> simp [Except.mapError]

@[simp] theorem ok_bind (a : α) (f : α → Except ε β) : Except.ok a >>= f = f a := rfl

@[simp] theorem error_bind (e : ε) (f : α → Except ε β) : Except.error e >>= f = .error e := rfl

/-- What each step keeps of what has been gone through before, a fold keeps. -/
theorem invariant_of_foldlM {I : List α → β → Prop} {f : β → α → Except ε β}
    (hf : ∀ done b a b', I done b → f b a = .ok b' → I (done ++ [a]) b') {l : List α} {b b' : β}
    (hb : I [] b) (h : l.foldlM f b = .ok b') : I l b' := by
  have hall : ∀ (l done : List α) (b b' : β), I done b → l.foldlM f b = .ok b' → I (done ++ l) b' := by
    intro l
    induction l with
    | nil =>
      intro done b b' hb h
      obtain rfl := pure_eq_ok_iff.1 h
      rwa [List.append_nil]
    | cons a l ih =>
      intro done b b' hb h
      obtain ⟨b₁, hb₁, h⟩ := bind_eq_ok_iff.1 h
      rw [List.append_cons]
      exact ih _ _ _ (hf _ _ _ _ hb hb₁) h
  exact hall l [] b b' hb h

/-- If there is an error, then one of which `P` is true. -/
def Raises (P : ε → Prop) (x : Except ε α) : Prop := ∀ e, x = .error e → P e

variable {P : ε → Prop} {Q : ε' → Prop} {x : Except ε α}

theorem raises_ok (a : α) : Raises P (.ok a : Except ε α) := fun e he => by cases he

theorem raises_error {e : ε} (h : P e) : Raises P (.error e : Except ε α) := by
  intro e' he'
  obtain rfl := Except.error.inj he'
  exact h

theorem Raises.mono {P' : ε → Prop} (h : Raises P x) (hP : ∀ e, P e → P' e) : Raises P' x :=
  fun e he => hP e (h e he)

theorem Raises.bind {f : α → Except ε β} (hx : Raises P x) (hf : ∀ a, x = .ok a → Raises P (f a)) :
    Raises P (x >>= f) := by
  cases x with
  | error e => exact raises_error (hx e rfl)
  | ok a => exact hf a rfl

theorem Raises.map (hx : Raises P x) (f : α → β) : Raises P (x.map f) := by
  cases x with
  | error e => exact raises_error (hx e rfl)
  | ok a => exact raises_ok (f a)

theorem Raises.mapError (hx : Raises P x) {f : ε → ε'} (hf : ∀ e, P e → Q (f e)) :
    Raises Q (x.mapError f) := by
  cases x with
  | error e => exact raises_error (hf e (hx e rfl))
  | ok a => exact raises_ok a

theorem raises_foldlM {f : β → α → Except ε β} (hf : ∀ b a, Raises P (f b a)) (l : List α) (b : β) :
    Raises P (l.foldlM f b) := by
  induction l generalizing b with
  | nil => exact raises_ok b
  | cons a l ih =>
    rw [List.foldlM_cons]
    exact (hf b a).bind fun b' _ => ih b'

theorem run_bind_eq_ok_iff {x : StateT σ (Except ε) α} {f : α → StateT σ (Except ε) β} {s s' : σ}
    {b : β} :
    (x >>= f).run s = .ok (b, s') ↔
      ∃ a s₁, x.run s = .ok (a, s₁) ∧ (f a).run s₁ = .ok (b, s') := by
  rw [StateT.run_bind, bind_eq_ok_iff, Prod.exists]

theorem run_pure_eq_ok_iff {s s' : σ} {a b : α} :
    (pure a : StateT σ (Except ε) α).run s = .ok (b, s') ↔ a = b ∧ s = s' := by
  rw [StateT.run_pure]
  simp [pure, Except.pure]

theorem run_get_bind_eq_ok_iff {f : σ → StateT σ (Except ε) β} {s s' : σ} {b : β} :
    (get >>= f : StateT σ (Except ε) β).run s = .ok (b, s') ↔ (f s).run s = .ok (b, s') :=
  Iff.rfl

theorem run_set_bind_eq_ok_iff {f : PUnit → StateT σ (Except ε) β} {t s s' : σ} {b : β} :
    (set t >>= f : StateT σ (Except ε) β).run s = .ok (b, s') ↔ (f ⟨⟩).run t = .ok (b, s') :=
  Iff.rfl

theorem run_lift_eq_ok_iff {x : Except ε α} {s s' : σ} {a : α} :
    (liftM x : StateT σ (Except ε) α).run s = .ok (a, s') ↔ x = .ok a ∧ s = s' := by
  cases x <;> simp [liftM, monadLift, MonadLift.monadLift, StateT.lift, StateT.run]

theorem Raises.run_bind {x : StateT σ (Except ε) α} {f : α → StateT σ (Except ε) β} {s : σ}
    (hx : Raises P (x.run s)) (hf : ∀ a s', Raises P ((f a).run s')) : Raises P ((x >>= f).run s) := by
  rw [StateT.run_bind]
  exact hx.bind fun r _ => hf r.1 r.2

theorem Raises.run_lift (hx : Raises P x) (s : σ) :
    Raises P ((liftM x : StateT σ (Except ε) α).run s) := by
  cases x with
  | error e => exact raises_error (hx e rfl)
  | ok a => exact raises_ok (a, s)

theorem raises_run_foldlM {f : β → α → StateT σ (Except ε) β} (hf : ∀ b a s, Raises P ((f b a).run s))
    (l : List α) (b : β) (s : σ) : Raises P ((l.foldlM f b).run s) := by
  induction l generalizing b s with
  | nil => exact raises_ok (b, s)
  | cons a l ih =>
    rw [List.foldlM_cons]
    exact (hf b a s).run_bind fun b' s' => ih b' s'

/-- What each step of a traversal gives. -/
theorem forall₂_of_mapM_eq_ok {f : α → StateT σ (Except ε) β} {l : List α} {l' : List β} {s s' : σ}
    (h : (l.mapM f).run s = .ok (l', s')) :
    List.Forall₂ (fun a b => ∃ s₁ s₂, (f a).run s₁ = .ok (b, s₂)) l l' := by
  induction l generalizing l' s with
  | nil =>
    obtain ⟨rfl, -⟩ := run_pure_eq_ok_iff.1 h
    exact .nil
  | cons a l ih =>
    rw [List.mapM_cons] at h
    obtain ⟨b, s₁, hb, h⟩ := run_bind_eq_ok_iff.1 h
    obtain ⟨bs, s₂, hbs, h⟩ := run_bind_eq_ok_iff.1 h
    obtain ⟨rfl, rfl⟩ := run_pure_eq_ok_iff.1 h
    exact .cons ⟨s, s₁, hb⟩ (ih hbs)

/-- Where there is no state to pass on, a traversal gives what its steps give one by one. -/
theorem run_mapM_iff {f : α → StateT Unit (Except ε) β} {l : List α} {l' : List β} :
    (l.mapM f).run () = .ok (l', ()) ↔ List.Forall₂ (fun a b => (f a).run () = .ok (b, ())) l l' := by
  constructor
  · intro h
    refine (forall₂_of_mapM_eq_ok h).imp ?_
    rintro a b ⟨⟨⟩, ⟨⟩, hb⟩
    exact hb
  · intro h
    induction h with
    | nil => rfl
    | cons hb _ ih =>
      rw [List.mapM_cons]
      exact run_bind_eq_ok_iff.2 ⟨_, (), hb, run_bind_eq_ok_iff.2 ⟨_, (), ih, rfl⟩⟩

theorem exists_of_mem_mapM_eq_ok {f : α → StateT σ (Except ε) β} {l : List α} {l' : List β}
    {s s' : σ} (h : (l.mapM f).run s = .ok (l', s')) {b : β} (hb : b ∈ l') :
    ∃ a ∈ l, ∃ s₁ s₂, (f a).run s₁ = .ok (b, s₂) := by
  have hsteps := forall₂_of_mapM_eq_ok h
  clear h
  induction hsteps with
  | nil => simp at hb
  | cons hstep _ ih =>
    rcases List.mem_cons.1 hb with rfl | hb
    · exact ⟨_, List.mem_cons_self, hstep⟩
    · obtain ⟨a, ha, hstep⟩ := ih hb
      exact ⟨a, List.mem_cons_of_mem _ ha, hstep⟩

theorem exists_step_of_mapM_eq_ok {f : α → StateT σ (Except ε) β} {l : List α} {l' : List β}
    {s s' : σ} (h : (l.mapM f).run s = .ok (l', s')) {a : α} (ha : a ∈ l) :
    ∃ b ∈ l', ∃ s₁ s₂, (f a).run s₁ = .ok (b, s₂) := by
  have hsteps := forall₂_of_mapM_eq_ok h
  clear h
  induction hsteps with
  | nil => simp at ha
  | cons hstep _ ih =>
    rcases List.mem_cons.1 ha with rfl | ha
    · exact ⟨_, List.mem_cons_self, hstep⟩
    · obtain ⟨b, hb, hstep⟩ := ih ha
      exact ⟨b, List.mem_cons_of_mem _ hb, hstep⟩

theorem mapM_append_eq_ok {f : α → StateT σ (Except ε) β} {l m : List α} {l' m' : List β}
    {s s₁ s₂ : σ} (hl : (l.mapM f).run s = .ok (l', s₁)) (hm : (m.mapM f).run s₁ = .ok (m', s₂)) :
    ((l ++ m).mapM f).run s = .ok (l' ++ m', s₂) := by
  rw [List.mapM_append]
  exact run_bind_eq_ok_iff.2 ⟨l', s₁, hl, run_bind_eq_ok_iff.2 ⟨m', s₂, hm, rfl⟩⟩

theorem exists_run_mapM_iff {f : α → StateT Unit (Except ε) β} {l : List α} :
    (∃ l', (l.mapM f).run () = .ok (l', ())) ↔ ∀ a ∈ l, ∃ b, (f a).run () = .ok (b, ()) := by
  constructor
  · rintro ⟨l', h⟩ a ha
    obtain ⟨b, -, ⟨⟩, ⟨⟩, hb⟩ := exists_step_of_mapM_eq_ok h ha
    exact ⟨b, hb⟩
  · intro h
    induction l with
    | nil => exact ⟨[], rfl⟩
    | cons a l ih =>
      obtain ⟨b, hb⟩ := h a List.mem_cons_self
      obtain ⟨l', hl⟩ := ih fun c hc => h c (List.mem_cons_of_mem _ hc)
      exact ⟨b :: l', run_mapM_iff.2 (.cons hb (run_mapM_iff.1 hl))⟩

/-- What every step keeps, a traversal keeps. -/
theorem map_eq_of_mapM_eq_ok {f : α → StateT σ (Except ε) β} {g : α → γ} {g' : β → γ}
    (hf : ∀ a b s s', (f a).run s = .ok (b, s') → g' b = g a) {l : List α} {l' : List β} {s s' : σ}
    (h : (l.mapM f).run s = .ok (l', s')) : l'.map g' = l.map g := by
  have hsteps := forall₂_of_mapM_eq_ok h
  clear h
  induction hsteps with
  | nil => rfl
  | cons hstep _ ih =>
    obtain ⟨s₁, s₂, hb⟩ := hstep
    rw [List.map_cons, List.map_cons, hf _ _ _ _ hb, ih]

/-- A traversal gives what each of its steps gives while an invariant holds, and keeps the invariant. -/
theorem forall_mem_of_mapM_eq_ok {I : σ → Prop} {P : β → Prop} {f : α → StateT σ (Except ε) β}
    {l : List α} {l' : List β} {s s' : σ}
    (hf : ∀ a ∈ l, ∀ b s s', I s → (f a).run s = .ok (b, s') → P b ∧ I s') (hs : I s)
    (h : (l.mapM f).run s = .ok (l', s')) : (∀ b ∈ l', P b) ∧ I s' := by
  induction l generalizing l' s with
  | nil =>
    obtain ⟨rfl, rfl⟩ := run_pure_eq_ok_iff.1 h
    exact ⟨by simp, hs⟩
  | cons a l ih =>
    rw [List.mapM_cons] at h
    obtain ⟨b, s₁, hb, h⟩ := run_bind_eq_ok_iff.1 h
    obtain ⟨bs, s₂, hbs, h⟩ := run_bind_eq_ok_iff.1 h
    obtain ⟨rfl, rfl⟩ := run_pure_eq_ok_iff.1 h
    obtain ⟨hPb, hs₁⟩ := hf a List.mem_cons_self b s s₁ hs hb
    obtain ⟨hrest, hs₂⟩ := ih (fun a ha => hf a (List.mem_cons_of_mem _ ha)) hs₁ hbs
    exact ⟨List.forall_mem_cons.2 ⟨hPb, hrest⟩, hs₂⟩

/-- A traversal whose steps give what they are given does so, and keeps what the steps keep. -/
theorem exists_mapM_eq_self {I : σ → Prop} {f : α → StateT σ (Except ε) α} {l : List α}
    (hf : ∀ a ∈ l, ∀ s, I s → ∃ s', (f a).run s = .ok (a, s') ∧ I s') {s : σ} (hs : I s) :
    ∃ s', (l.mapM f).run s = .ok (l, s') ∧ I s' := by
  induction l generalizing s with
  | nil => exact ⟨s, rfl, hs⟩
  | cons a l ih =>
    obtain ⟨s₁, ha, hs₁⟩ := hf a List.mem_cons_self s hs
    obtain ⟨s₂, hl, hs₂⟩ := ih (fun b hb => hf b (List.mem_cons_of_mem _ hb)) hs₁
    refine ⟨s₂, ?_, hs₂⟩
    rw [List.mapM_cons]
    exact run_bind_eq_ok_iff.2 ⟨a, s₁, ha, run_bind_eq_ok_iff.2 ⟨l, s₂, hl, rfl⟩⟩

@[simp] theorem lift_ok (a : α) :
    (liftM (Except.ok a : Except Error α) : Except Failure α) = .ok a := rfl

@[simp] theorem lift_error (e : Error) :
    (liftM (Except.error e : Except Error α) : Except Failure α) = .error (.error e) := rfl

@[simp] theorem lift_ok_fault (a : α) :
    (liftM (Except.ok a : Except Fault α) : Except Failure α) = .ok a := rfl

namespace Outcome

/-- An outcome that changes the state only where it succeeds. -/
theorem ofExcept_cases (s : σ) (x : Except ε (α × σ)) :
    (∃ e, ofExcept s x = fail s e) ∨ ∃ a s', x = .ok (a, s') ∧ ofExcept s x = ok s' a := by
  cases x with
  | error e => exact .inl ⟨e, rfl⟩
  | ok r => exact .inr ⟨r.1, r.2, rfl, rfl⟩

theorem commit_eq_ok_iff {r : Outcome ε σ α} {a : α} {s : σ} :
    r.commit = .ok (a, s) ↔ r.result = .ok a ∧ r.state = s := by
  simp [commit, map_eq_ok_iff]

theorem result_andThen_eq_ok {r : Outcome ε σ α} {f : α → σ → Outcome ε σ β} {b : β}
    (h : (r.andThen f).result = .ok b) : ∃ a, r.result = .ok a ∧ (f a r.state).result = .ok b := by
  unfold andThen at h
  split at h
  next a ha => exact ⟨a, ha, h⟩
  next => cases h

@[simp] theorem map_ok (f : α → β) (s : σ) (a : α) :
    (ok s a : Outcome ε σ α).map f = ok s (f a) := rfl

@[simp] theorem map_fail (f : α → β) (s : σ) (e : ε) :
    (fail s e : Outcome ε σ α).map f = fail s e := rfl

theorem commit_map (f : α → β) (r : Outcome ε σ α) :
    (r.map f).commit = r.commit.map fun p => (f p.1, p.2) := by
  obtain ⟨result, s⟩ := r
  cases result <;> rfl

theorem commit_inState (f : σ → τ) (r : Outcome ε σ α) :
    (r.inState f).commit = r.commit.map fun p => (p.1, f p.2) := by
  obtain ⟨result, s⟩ := r
  cases result <;> rfl

theorem commit_andThen (r : Outcome ε σ α) (f : α → σ → Outcome ε σ β) :
    (r.andThen f).commit = r.commit >>= fun p => (f p.1 p.2).commit := by
  obtain ⟨result, s⟩ := r
  cases result <;> rfl

end Outcome

end ChronicleMeta
