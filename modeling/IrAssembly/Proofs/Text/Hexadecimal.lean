import IrAssembly.Proofs.Assembly.Spelling

/-! Hexadecimal digits as a reader takes them: a row of digits is the number that they were written
for, up to what lies above them. -/

namespace IrAssembly

/-- Digits above nine are upper-case letters. -/
def isHexDigit (char : Char) : Bool := char.isDigit || ('A' ≤ char && char ≤ 'F')

/-- The number below sixteen that a digit stands for. -/
def hexDigit? (char : Char) : Option Nat :=
  if char.isDigit then some (char.toNat - '0'.toNat)
  else if isHexDigit char then some (10 + (char.toNat - 'A'.toNat))
  else none

/-- The number that a row of digits stands for, the highest in front. -/
def hexNumber? (digits : List Char) : Option Nat :=
  digits.foldlM (fun number char => (hexDigit? char).map (16 * number + ·)) 0

theorem isHexDigit_of_hexDigit? {char : Char} {digit : Nat} (read : hexDigit? char = some digit) :
    isHexDigit char = true := by
  unfold hexDigit? at read
  split at read
  · rename_i decimal
    simp [isHexDigit, decimal]
  · split at read
    · assumption
    · cases read

/-- Nothing but digits stands for a number. -/
theorem isHexDigit_of_hexNumber? {digits : List Char} {number : Nat}
    (read : hexNumber? digits = some number) : ∀ char ∈ digits, isHexDigit char = true := by
  unfold hexNumber? at read
  generalize 0 = front at read
  induction digits generalizing front with
  | nil => exact List.forall_mem_nil _
  | cons char digits ih =>
    rw [List.foldlM_cons] at read
    obtain ⟨next, first, rest⟩ := Option.bind_eq_some_iff.mp read
    obtain ⟨digit, single, _⟩ := Option.map_eq_some_iff.mp first
    exact List.forall_mem_cons.mpr ⟨isHexDigit_of_hexDigit? single, ih next rest⟩

theorem hexDigit?_hexDigit : ∀ digit < 16, hexDigit? (hexDigit digit) = some digit := by
  decide

/-- Reading gives the number back, without what did not fit into the digits. -/
theorem hexNumber?_hexDigits (width value : Nat) :
    hexNumber? (hexDigits width value) = some (value % 16 ^ width) := by
  unfold hexNumber?
  induction width generalizing value with
  | zero => rw [hexDigits, List.foldlM_nil, Nat.pow_zero, Nat.mod_one]; rfl
  | succ width ih =>
    have last := hexDigit?_hexDigit (value % 16) (Nat.mod_lt _ (by decide))
    rw [hexDigits, List.foldlM_append, ih, Nat.pow_succ', Nat.mod_mul, Nat.add_comm]
    simp [last]

end IrAssembly
