/-! The decimal digits of a number: there is at least one, and none of several is a leading zero. -/

namespace IrAssembly.Text

variable {number : Nat}

theorem toList_toString (number : Nat) : (toString number).toList = Nat.toDigits 10 number := by
  rw [Nat.toString_eq_repr, Nat.toList_repr]

theorem toList_toString_ofNat (number : Nat) :
    (toString (Int.ofNat number)).toList = Nat.toDigits 10 number :=
  toList_toString number

theorem toList_toString_negSucc (number : Nat) :
    (toString (Int.negSucc number)).toList = '-' :: Nat.toDigits 10 (number + 1) := by
  have negative : toString (Int.negSucc number) = "-" ++ toString (number + 1) := rfl
  rw [negative, String.toList_append, toList_toString]
  rfl

theorem isDigit_of_mem_toDigits {char : Char} (member : char ∈ Nat.toDigits 10 number) :
    char.isDigit = true :=
  Nat.isDigit_of_mem_toDigits (by decide) (by decide) member

theorem notMem_of_isDigit {char : Char} {others : List Char} (digit : char.isDigit = true)
    (differ : (others.all fun other => !other.isDigit) = true) : char ∉ others := by
  intro member
  have differs := List.all_eq_true.mp differ char member
  rw [digit] at differs
  cases differs

theorem exists_toDigits_eq_cons (number : Nat) : ∃ first others,
    Nat.toDigits 10 number = first :: others ∧ first.isDigit = true := by
  obtain ⟨first, others, spelled⟩ :=
    List.exists_cons_of_ne_nil (Nat.toDigits_ne_nil : Nat.toDigits 10 number ≠ [])
  have member : first ∈ Nat.toDigits 10 number := by simp [spelled]
  exact ⟨first, others, spelled, isDigit_of_mem_toDigits member⟩

theorem toDigits_injective {other : Nat} (same : Nat.toDigits 10 number = Nat.toDigits 10 other) :
    number = other := by
  have read := congrArg (fun digits => Nat.ofDigitChars 10 digits 0) same
  simpa using read

/-- A number is told by its decimal text. -/
theorem toString_int_injective : Function.Injective (toString : Int → String) := by
  have unsigned (number other : Nat) : Nat.toDigits 10 number ≠ '-' :: Nat.toDigits 10 other := by
    intro same
    have member : '-' ∈ Nat.toDigits 10 number := same ▸ List.mem_cons_self ..
    exact absurd (isDigit_of_mem_toDigits member) (by decide)
  intro number other same
  have letters := congrArg String.toList same
  cases number with
  | ofNat number =>
    cases other with
    | ofNat other =>
      rw [toList_toString_ofNat, toList_toString_ofNat] at letters
      rw [toDigits_injective letters]
    | negSucc other =>
      rw [toList_toString_ofNat, toList_toString_negSucc] at letters
      exact absurd letters (unsigned _ _)
  | negSucc number =>
    cases other with
    | ofNat other =>
      rw [toList_toString_ofNat, toList_toString_negSucc] at letters
      exact absurd letters.symm (unsigned _ _)
    | negSucc other =>
      rw [toList_toString_negSucc, toList_toString_negSucc, List.cons.injEq] at letters
      rw [Nat.succ.inj (toDigits_injective letters.2)]

theorem digitChar_ne_zero : ∀ digit < 10, 0 < digit → Nat.digitChar digit ≠ '0' := by
  decide

theorem head?_toDigits_ne (positive : 0 < number) : (Nat.toDigits 10 number).head? ≠ some '0' := by
  induction number using Nat.strongRecOn with
  | ind number ih =>
    by_cases small : number < 10
    · rw [Nat.toDigits_of_lt_base small]
      simpa using digitChar_ne_zero number small positive
    · obtain ⟨first, others, spelled, _⟩ := exists_toDigits_eq_cons (number / 10)
      have front := ih (number / 10) (by omega) (by omega)
      rw [Nat.toDigits_of_base_le (by decide) (by omega)]
      rw [spelled] at front ⊢
      exact front

end IrAssembly.Text
