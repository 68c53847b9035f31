import Mathlib.Data.List.Forall2

/-! Successes of computations that may fail, and the first failure of several. -/

namespace IrAssembly

variable {α β : Type} {error : Type}

theorem bind_eq_ok_iff {first : Except error α} {next : α → Except error β} {result : β} :
    first >>= next = .ok result ↔ ∃ value, first = .ok value ∧ next value = .ok result := by
  cases first <;> simp [bind, Except.bind]

theorem map_eq_error_iff {outcome : Except error α} {change : α → β} {fault : error} :
    outcome.map change = .error fault ↔ outcome = .error fault := by
  cases outcome <;> simp [Except.map]

theorem of_bind_eq_ok {first : Except error α} {next : α → Except error β} {result : β}
    (succeeded : first >>= next = .ok result) :
    ∃ value, first = .ok value ∧ next value = .ok result :=
  bind_eq_ok_iff.mp succeeded

theorem mapM_eq_ok_iff {step : α → Except error β} {items : List α} {results : List β} :
    items.mapM step = .ok results ↔
      List.Forall₂ (fun item result => step item = .ok result) items results := by
  induction items generalizing results with
  | nil => cases results <;> simp [pure, Except.pure]
  | cons item items ih =>
    rw [List.mapM_cons, bind_eq_ok_iff]
    constructor
    · rintro ⟨result, first, others⟩
      obtain ⟨rest, behind, same⟩ := bind_eq_ok_iff.mp others
      cases same
      exact .cons first (ih.mp behind)
    · rintro (_ | ⟨first, behind⟩)
      exact ⟨_, first, by rw [ih.mpr behind]; rfl⟩

/-- Steps that agree item by item agree on the whole, failures included. -/
theorem mapM_eq_mapM {γ : Type} {left : α → Except error γ} {right : β → Except error γ}
    {items : List α} {others : List β}
    (each : List.Forall₂ (fun item other => left item = right other) items others) :
    items.mapM left = others.mapM right := by
  induction each with
  | nil => rfl
  | cons same _ ih => rw [List.mapM_cons, List.mapM_cons, same, ih]

/-- The error is that of the first item that fails. -/
theorem exists_first_of_mapM_eq_error {step : α → Except error β} {items : List α} {fault : error}
    (failed : items.mapM step = .error fault) :
    ∃ before item behind, items = before ++ item :: behind ∧
      (∀ earlier ∈ before, ∃ result, step earlier = .ok result) ∧ step item = .error fault := by
  induction items with
  | nil => cases failed
  | cons first items ih =>
    rw [List.mapM_cons] at failed
    cases outcome : step first with
    | error refusal =>
      rw [outcome] at failed
      cases failed
      exact ⟨[], first, items, rfl, List.forall_mem_nil _, outcome⟩
    | ok result =>
      cases rest : items.mapM step with
      | ok results =>
        rw [outcome, rest] at failed
        cases failed
      | error refusal =>
        rw [outcome, rest] at failed
        cases failed
        obtain ⟨before, item, behind, rfl, passed, refused⟩ := ih rest
        exact ⟨first :: before, item, behind, rfl,
          List.forall_mem_cons.mpr ⟨⟨result, outcome⟩, passed⟩, refused⟩

theorem forall₂_of_mapM_eq_ok {step : α → Except error β} {items : List α} {results : List β}
    (succeeded : items.mapM step = .ok results) :
    List.Forall₂ (fun item result => step item = .ok result) items results :=
  mapM_eq_ok_iff.mp succeeded

end IrAssembly
