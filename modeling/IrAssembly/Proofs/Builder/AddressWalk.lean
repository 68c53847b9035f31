import IrAssembly.Proofs.Builder.Session
import IrAssembly.Proofs.Execution.Instructions
import IrAssembly.Proofs.Success

/-! Address computations in several steps. A walk may stop at any of its indices: the address found
there is a pointer to the type reached, and an index that leads through this pointer takes the walk
up again. -/

namespace IrAssembly.Build

theorem walk_append (ty : Ty) (first second : List Value) :
    walk ty (first ++ second) = walk ty first >>= fun reached => walk reached second := by
  induction first generalizing ty with
  | nil => rfl
  | cons index first ih =>
    rw [List.cons_append, walk, walk, bind_assoc]
    exact congrArg _ (funext ih)

/-- A pointer is gone through by any index. -/
theorem walk_ptr (pointee : Ty) (lead : Value) (indices : List Value) :
    walk (.ptr pointee) (lead :: indices) = walk pointee indices := rfl

/-- The type of the address that some indices lead to from a base, or why there is none. -/
def addressTy (base : Ty) (indices : List Value) : Except BuildError Ty :=
  match base with
  | .ptr _ => .ptr <$> walk base indices
  | found => .error (.notAPointer "getelementptr" found)

theorem addressTy_append (base : Ty) (first second : List Value) (lead : Value) :
    addressTy base (first ++ second) =
      addressTy base first >>= fun address => addressTy address (lead :: second) := by
  cases base with
  | ptr pointee =>
    simp only [addressTy, walk_append, map_bind]
    cases walk (.ptr pointee) first with
    | error error => rfl
    | ok reached => exact congrArg (Ty.ptr <$> ·) (walk_ptr reached lead second).symm
  | _ => rfl

variable {builder : Builder} {base : Value} {indices : List Value} {inbounds : Bool}

/-- An address computation gives an address of the type found, or is refused for the reason found,
and then nothing has happened. -/
theorem elementPointer_ends (isOpen : builder.function.finished = false) :
    Ends (elementPointer base indices inbounds) builder
      (fun address after =>
        addressTy base.ty indices = .ok address.ty ∧ after.function.finished = false)
      fun failure after => ∃ error, addressTy base.ty indices = .error error ∧
        failure = .refused error ∧ after = builder := by
  cases ty : base.ty with
  | ptr pointee =>
    cases walked : walk (.ptr pointee) indices with
    | error error =>
      simp only [elementPointer, expectPointer, ty, pure_bind, walked]
      exact ⟨error, congrArg (Ty.ptr <$> ·) walked, rfl, rfl⟩
    | ok reached =>
      refine (elementPointer_appends isOpen ty walked).mono ?_ fun _ _ never => never.elim
      intro address after appends
      rw [appends.value]
      exact ⟨congrArg (Ty.ptr <$> ·) walked, appends.isOpen isOpen⟩
  | _ =>
    simp only [elementPointer, expectPointer, ty]
    exact ⟨_, rfl, rfl, rfl⟩

/-- What an address computation gives, seen by its type. -/
theorem elementPointer_outcome (isOpen : builder.function.finished = false) :
    ((elementPointer base indices inbounds).run builder).1.map Value.ty =
      (addressTy base.ty indices).mapError .refused := by
  have ends : Ends (elementPointer base indices inbounds) builder _ _ := elementPointer_ends isOpen
  unfold Ends at ends
  split at ends
  · rename_i address _ ran
    rw [ran, ends.1]
    rfl
  · rename_i ran
    obtain ⟨error, refused, rfl, -⟩ := ends
    rw [ran, refused]
    rfl

/-- An address computation may be interrupted anywhere. If its first part fails, so does the whole,
with the same failure. Otherwise the second part starts at the address found, with one more index in
front that leads through it, such as zero: the whole ends as this part does, both in addresses of
one type or both with one failure. -/
theorem elementPointer_append (isOpen : builder.function.finished = false) (base lead : Value)
    (first second : List Value) (inbounds firstInbounds secondInbounds : Bool) :
    let whole := (elementPointer base (first ++ second) inbounds).run builder
    let front := (elementPointer base first firstInbounds).run builder
    match front.1 with
    | .error failure => whole.1 = .error failure
    | .ok address =>
      let back := (elementPointer address (lead :: second) secondInbounds).run front.2
      whole.1.map Value.ty = back.1.map Value.ty := by
  intro whole
  have wholly : whole.1.map Value.ty =
      (addressTy base.ty first >>= fun address => addressTy address (lead :: second)).mapError
        .refused := by
    rw [← addressTy_append]
    exact elementPointer_outcome isOpen
  have ends : Ends (elementPointer base first firstInbounds) builder _ _ :=
    elementPointer_ends isOpen
  rcases ran : (elementPointer base first firstInbounds).run builder with ⟨outcome, middle⟩
  rw [Ends, ran] at ends
  cases outcome with
  | error failure =>
    obtain ⟨error, refused, rfl, -⟩ := ends
    rw [refused] at wholly
    exact map_eq_error_iff.mp wholly
  | ok address =>
    obtain ⟨found, stillOpen⟩ := ends
    rw [found] at wholly
    exact wholly.trans (elementPointer_outcome stillOpen).symm

/-- A cell of a table of pairs in one computation and in two, and a field that the pair has not. -/
theorem cell_reached_in_two_steps : ∃ builder : Builder, builder.Reachable ∧
    let pair : Ty := .struct none [.i32, .array 3 .i8] false
    let pairs : Value := .parameter ⟨0, "arg_1", .ptr (.array 2 pair)⟩
    let number (index : Int64) : Value := .constant (.i32 index)
    let row := (elementPointer pairs [number 0, number 1] true).run builder
    let second : Value := .result ⟨0, "1", .ptr pair⟩
    let cell := (elementPointer second [number 0, number 1, number 2] true).run row.2
    let missing := (elementPointer second [number 0, number 7] true).run row.2
    let whole (behind : List Value) :=
      (elementPointer pairs ([number 0, number 1] ++ behind) true).run builder
    row.1 = .ok second ∧
      cell.1.map Value.ty = .ok (.ptr .i8) ∧
        (whole [number 1, number 2]).1.map Value.ty = .ok (.ptr .i8) ∧
      missing.1.map Value.ty = .error (.refused (.indexOutOfRange pair 7)) ∧
        (whole [number 7]).1.map Value.ty = .error (.refused (.indexOutOfRange pair 7)) := by
  have reachable := Builder.Reachable.run
    (.fresh "f" ⟨.void, [.ptr (.array 2 (.struct none [.i32, .array 3 .i8] false))], false⟩)
    (Builder.run_start rfl .x86_64) [.nextParameter]
  refine ⟨_, reachable, ?_⟩
  intro pair pairs number row second cell missing whole
  have found : row.1 = .ok second := by decide +kernel
  have splits (behind : List Value) : (whole behind).1.map Value.ty =
      ((elementPointer second (number 0 :: behind) true).run row.2).1.map Value.ty := by
    have interrupted := elementPointer_append reachable.ready.isOpen pairs (number 0)
      [number 0, number 1] behind true true true
    dsimp only at interrupted
    rwa [show ((elementPointer pairs [number 0, number 1] true).run _).1 = .ok second from found]
      at interrupted
  have there : cell.1.map Value.ty = .ok (.ptr .i8) := rfl
  have nowhere : missing.1.map Value.ty = .error (.refused (.indexOutOfRange pair 7)) := rfl
  exact ⟨found, there, (splits _).trans there, nowhere, (splits _).trans nowhere⟩

end IrAssembly.Build
