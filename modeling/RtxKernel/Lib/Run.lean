import Mathlib.Data.List.Basic

/-!
# Runs of a labelled transition system

`Run step s as t`: starting in `s`, the actions `as` lead to `t`, one `step` each. The list of
actions is kept because histories are read off it. An invariant is carried along a run by
`Run.invariant`, and a run of a partial step function is obtained by evaluating it
(`Run.of_foldlM`).

For a step function that can fail, `Option.Rel R` relates the outcomes of two of them: both
fail, or both succeed in `R`-related states.
-/

namespace RtxKernel

universe u w
variable {σ : Type u} {α : Type w}

/-- The actions `as`, one after another, lead from `s` to `t`. -/
inductive Run (step : σ → α → σ → Prop) : σ → List α → σ → Prop
  | nil (s : σ) : Run step s [] s
  | snoc {s t u : σ} {as : List α} {a : α} (h : Run step s as t) (ha : step t a u) :
      Run step s (as ++ [a]) u

namespace Run

variable {step : σ → α → σ → Prop} {s t u : σ} {as bs : List α} {a : α}

/-- What holds at the start, of no actions, and is preserved as the history grows. -/
theorem history {I : List α → σ → Prop} (h : Run step s as t) (h₀ : I [] s)
    (hstep : ∀ as s a t, I as s → step s a t → I (as ++ [a]) t) : I as t := by
  induction h with
  | nil => exact h₀
  | snoc _ ha ih => exact hstep _ _ _ _ ih ha

/-- The steps may use what all actions of the run have in common. -/
theorem history_of_forall {I : List α → σ → Prop} {P : α → Prop} (h : Run step s as t) (hP : ∀ a ∈ as, P a)
    (h₀ : I [] s) (hstep : ∀ as s a t, I as s → P a → step s a t → I (as ++ [a]) t) : I as t := by
  induction h with
  | nil => exact h₀
  | snoc _ ha ih =>
    refine hstep _ _ _ _ (ih ?_) (hP _ (by simp)) ha
    intro a ha
    exact hP a (by simp [ha])

/-- What holds at the start and is preserved by every step holds at the end of a run. -/
theorem invariant {I : σ → Prop} (h : Run step s as t) (h₀ : I s)
    (hstep : ∀ s a t, I s → step s a t → I t) : I t :=
  h.history (I := fun _ => I) h₀ fun _ => hstep

theorem mono {step' : σ → α → σ → Prop} (h : Run step s as t)
    (hle : ∀ s a t, step s a t → step' s a t) : Run step' s as t := by
  induction h with
  | nil => exact .nil _
  | snoc _ ha ih => exact .snoc ih (hle _ _ _ ha)

/-- The run of a deterministic system is determined by its actions. -/
theorem det (h : Run step s as t) (hdet : ∀ s a t u, step s a t → step s a u → t = u)
    (h' : Run step s as u) : t = u := by
  induction h generalizing u with
  | nil =>
    generalize hnil : ([] : List α) = bs at h'
    cases h' with
    | nil => rfl
    | snoc => simp at hnil
  | @snoc _ _ as a _ ha ih =>
    generalize hbs : as ++ [a] = bs at h'
    cases h' with
    | nil => simp at hbs
    | snoc h' hb =>
      obtain ⟨rfl, hab⟩ := List.append_inj' hbs rfl
      obtain rfl := List.singleton_inj.mp hab
      rw [ih h'] at ha
      exact hdet _ _ _ _ ha hb

theorem single (h : step s a t) : Run step s [a] t := by
  simpa using Run.snoc (.nil s) h

theorem append (h : Run step s as t) (h' : Run step t bs u) : Run step s (as ++ bs) u := by
  induction h' with
  | nil => simpa using h
  | snoc _ ha ih => simpa using Run.snoc ih ha

/-- A run is cut in two. -/
theorem split (h : Run step s (as ++ bs) u) : ∃ t, Run step s as t ∧ Run step t bs u := by
  generalize hcs : as ++ bs = cs at h
  induction h generalizing bs with
  | nil =>
    obtain ⟨rfl, rfl⟩ := List.append_eq_nil_iff.mp hcs
    exact ⟨_, .nil _, .nil _⟩
  | snoc h ha ih =>
    rcases List.eq_nil_or_concat bs with rfl | ⟨bs', b, rfl⟩
    · rw [List.append_nil] at hcs
      rw [hcs]
      exact ⟨_, .snoc h ha, .nil _⟩
    · rw [List.concat_eq_append, ← List.append_assoc] at hcs
      obtain ⟨hpre, hlast⟩ := List.append_inj' hcs rfl
      obtain ⟨t, ht, ht'⟩ := ih hpre
      rw [List.concat_eq_append, hlast]
      exact ⟨t, ht, .snoc ht' ha⟩

theorem eq_of_nil (h : Run step s [] t) : s = t := by
  generalize hnil : ([] : List α) = bs at h
  cases h with
  | nil => rfl
  | snoc => simp at hnil

/-- The first step of a run. -/
theorem head (h : Run step s (a :: as) u) : ∃ t, step s a t ∧ Run step t as u := by
  rw [← List.singleton_append] at h
  obtain ⟨t, ht, h'⟩ := h.split
  refine ⟨t, ?_, h'⟩
  generalize hbs : [a] = bs at ht
  cases ht with
  | nil => cases hbs
  | @snoc _ _ cs b hs hb =>
    obtain ⟨rfl, hab⟩ := (List.singleton_eq_append_iff.mp hbs).resolve_right (by simp)
    obtain rfl := List.singleton_inj.mp hab
    rw [eq_of_nil hs]
    exact hb

/-- Evaluating a partial step function along a list of actions gives a run. -/
theorem of_foldlM {f : σ → α → Option σ} (hf : ∀ s a t, f s a = some t → step s a t)
    (h : as.foldlM f s = some t) : Run step s as t := by
  induction as generalizing s with
  | nil =>
    obtain rfl : s = t := by simpa using h
    exact .nil s
  | cons a as ih =>
    rw [List.foldlM_cons] at h
    obtain ⟨r, hr, h⟩ := Option.bind_eq_some_iff.mp h
    exact append (single (hf s a r hr)) (ih h)

/-- It suffices to see that the evaluation does not fail. -/
theorem exists_of_foldlM (f : σ → α → Option σ) (hf : ∀ s a t, f s a = some t → step s a t)
    (h : (as.foldlM f s).isSome = true) : ∃ t, Run step s as t := by
  obtain ⟨t, ht⟩ := Option.isSome_iff_exists.mp h
  exact ⟨t, of_foldlM hf ht⟩

/-- The evaluation also gives what is checked at its end. -/
theorem exists_of_check {f : σ → α → Option σ} (hf : ∀ s a t, f s a = some t → step s a t) {check : σ → Bool}
    (h : (as.foldlM f s).any check = true) : ∃ t, Run step s as t ∧ check t = true := by
  obtain ⟨t, ht, hc⟩ := (Option.any_eq_true _ _).mp h
  exact ⟨t, of_foldlM hf ht, hc⟩

/-- A run with allowed actions only -/
theorem exists_allowed (f : σ → α → Option σ) (allowed : σ → α → Prop) [∀ s a, Decidable (allowed s a)] (s : σ)
    (as : List α) (check : σ → Bool)
    (h : (as.foldlM (fun s a => if allowed s a then f s a else none) s).any check = true) :
    ∃ t, Run (fun s a t => f s a = some t ∧ allowed s a) s as t ∧ check t = true := by
  apply exists_of_check _ h
  intro s a t hs
  split_ifs at hs with ha
  exact ⟨hs, ha⟩

/-- A run is followed, action by action, by a system that can follow every step. -/
theorem simulate {τ : Type*} {step' : τ → α → τ → Prop} {R : σ → τ → Prop} {b : τ} (h : Run step s as t)
    (hR : R s b) (hstep : ∀ s b a t, R s b → step s a t → ∃ c, step' b a c ∧ R t c) :
    ∃ c, Run step' b as c ∧ R t c := by
  induction h with
  | nil => exact ⟨b, .nil b, hR⟩
  | snoc _ ha ih =>
    obtain ⟨c, hc, hRc⟩ := ih
    obtain ⟨d, hd, hRd⟩ := hstep _ _ _ _ hRc ha
    exact ⟨d, hc.snoc hd, hRd⟩

end Run

end RtxKernel

namespace Option.Rel

variable {σ τ : Type*} {R : σ → τ → Prop}

/-- A success on the left is matched by a success on the right. -/
theorem exists_of_some {s : σ} {y : Option τ}
    (h : Option.Rel R (Option.some s) y) : ∃ b, y = Option.some b ∧ R s b := by
  cases h with
  | some h => exact ⟨_, rfl, h⟩

/-- A success on the right is matched by a success on the left. -/
theorem exists_of_some_right {x : Option σ} {b : τ}
    (h : Option.Rel R x (Option.some b)) : ∃ a, x = Option.some a ∧ R a b := by
  cases h with
  | some h => exact ⟨_, rfl, h⟩

end Option.Rel
