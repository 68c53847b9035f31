import IrAssembly.Builder.Basic

/-! How building steps end. `Ends` is the weakest condition on a state from which a step ends in a
given way; it passes through sequences of steps, so a step is described by describing its parts. -/

namespace IrAssembly.Build

variable {α β : Type} {builder : Builder}

/-- From this state the step gives a value as `done` says, or fails as `failed` says. -/
def Ends (step : Build α) (builder : Builder) (done : α → Builder → Prop)
    (failed : Failure → Builder → Prop) : Prop :=
  match step.run builder with
  | (.ok value, after) => done value after
  | (.error failure, after) => failed failure after

variable {done : α → Builder → Prop} {failed : Failure → Builder → Prop}

theorem Ends.mono {step : Build α} {weaker : α → Builder → Prop}
    {loose : Failure → Builder → Prop} (ends : Ends step builder done failed)
    (onDone : ∀ value after, done value after → weaker value after)
    (onFailed : ∀ failure after, failed failure after → loose failure after) :
    Ends step builder weaker loose := by
  unfold Ends at *
  split
  · rename_i value after ran
    rw [ran] at ends
    exact onDone value after ends
  · rename_i failure after ran
    rw [ran] at ends
    exact onFailed failure after ends

theorem Ends.and {step : Build α} {also : α → Builder → Prop}
    {alsoFailed : Failure → Builder → Prop}
    (ends : Ends step builder done failed) (others : Ends step builder also alsoFailed) :
    Ends step builder (fun value after => done value after ∧ also value after)
      fun failure after => failed failure after ∧ alsoFailed failure after := by
  unfold Ends at *
  split
  · rename_i ran
    rw [ran] at ends others
    exact ⟨ends, others⟩
  · rename_i ran
    rw [ran] at ends others
    exact ⟨ends, others⟩

/-- What holds of the state however the step ends. -/
theorem Ends.state {step : Build α} {holds : Builder → Prop}
    (ends : Ends step builder (fun _ after => holds after) fun _ after => holds after) :
    holds (step.run builder).2 := by
  unfold Ends at ends
  split at ends <;> (rename_i ran; rw [ran]; exact ends)

theorem Ends.of_error {step : Build α} {failure : Failure} (ends : Ends step builder done failed)
    (outcome : (step.run builder).1 = .error failure) :
    failed failure (step.run builder).2 := by
  unfold Ends at ends
  split at ends
  · rename_i ran
    rw [ran] at outcome
    cases outcome
  · rename_i ran
    rw [ran] at outcome ⊢
    cases outcome
    exact ends

/-- A step that cannot give a value fails. -/
theorem Ends.exists_error {step : Build α} (ends : Ends step builder (fun _ _ => False) failed) :
    ∃ failure, (step.run builder).1 = .error failure ∧ failed failure (step.run builder).2 := by
  unfold Ends at ends
  split at ends
  · cases ends
  · rename_i failure _ ran
    rw [ran]
    exact ⟨failure, rfl, ends⟩

/-- A step that can only end in one way does. -/
theorem Ends.run_eq {step : Build α} {value : α} {after : Builder}
    (ends : Ends step builder (fun other last => other = value ∧ last = after) fun _ _ => False) :
    step.run builder = (.ok value, after) := by
  unfold Ends at ends
  split at ends
  · rename_i ran
    rw [ran, ends.1, ends.2]
  · cases ends

@[simp] theorem ends_pure (value : α) :
    Ends (pure value) builder done failed ↔ done value builder := Iff.rfl

/-- A step that fails is the last one. -/
theorem run_bind (step : Build β) (next : β → Build α) (builder : Builder) :
    (step >>= next).run builder =
      match step.run builder with
      | (.ok value, after) => (next value).run after
      | (.error failure, after) => (.error failure, after) := by
  rw [ExceptT.run_bind]
  simp only [bind, StateT.bind]
  rcases step.run builder with ⟨outcome, after⟩
  cases outcome <;> rfl

@[simp] theorem ends_bind (step : Build β) (next : β → Build α) :
    Ends (step >>= next) builder done failed ↔
      Ends step builder (fun value after => Ends (next value) after done failed) failed := by
  simp only [Ends, run_bind]
  rcases step.run builder with ⟨outcome, after⟩
  cases outcome <;> rfl

@[simp] theorem ends_map (step : Build β) (change : β → α) :
    Ends (change <$> step) builder done failed ↔
      Ends step builder (fun value after => done (change value) after) failed := by
  simp only [Ends, ExceptT.run_map]
  simp only [Functor.map, StateT.map]
  rcases step.run builder with ⟨outcome, after⟩
  cases outcome <;> rfl

@[simp] theorem ends_throw (failure : Failure) :
    Ends (throw failure : Build α) builder done failed ↔ failed failure builder := Iff.rfl

@[simp] theorem ends_refuse (error : BuildError) :
    Ends (refuse error : Build α) builder done failed ↔ failed (.refused error) builder := Iff.rfl

@[simp] theorem ends_get {done : Builder → Builder → Prop} :
    Ends (get : Build Builder) builder done failed ↔ done builder builder := Iff.rfl

@[simp] theorem ends_set {done : PUnit → Builder → Prop} (after : Builder) :
    Ends (set after : Build PUnit) builder done failed ↔ done ⟨⟩ after := Iff.rfl

@[simp] theorem ends_function {done : FunctionDef → Builder → Prop} :
    Ends Build.function builder done failed ↔ done builder.function builder := Iff.rfl

@[simp] theorem ends_layout {done : DataLayout → Builder → Prop} :
    Ends Build.layout builder done failed ↔ done builder.layout builder := Iff.rfl

/-- A change of the function changes nothing else of the state. -/
theorem ends_edit (change : Edit α) :
    Ends (edit change) builder done failed ↔
      match change.run builder.function with
      | (.ok value, function) => done value { builder with function := function }
      | (.error violation, function) =>
        failed (.violated violation) { builder with function := function } := by
  unfold edit
  rw [ends_bind, ends_get]
  rcases ran : change.run builder.function with ⟨outcome, function⟩
  have unfolded : change.run.run builder.function = (outcome, function) := ran
  rw [unfolded]
  cases outcome <;> simp

end IrAssembly.Build
