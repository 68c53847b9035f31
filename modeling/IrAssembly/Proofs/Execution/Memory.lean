import IrAssembly.Layout.Extent

/-! Memory as bytes. Numbers lie in consecutive bytes, the least significant one first; an access to
some bytes says nothing about the others. -/

namespace IrAssembly

/-- The contents of memory, byte by byte. -/
abbrev Memory := Nat → UInt8

namespace Memory

/-- The number in some bytes from an address on. -/
def read (memory : Memory) (address : Nat) : Nat → Nat
  | 0 => 0
  | count + 1 => (memory address).toNat + 256 * read memory (address + 1) count

/-- Put the low bytes of a number to an address. -/
def write (memory : Memory) (address count value : Nat) : Memory := fun place =>
  if address ≤ place ∧ place < address + count then .ofNat (value / 256 ^ (place - address))
  else memory place

/-- Put bytes from elsewhere to an address. -/
def copy (memory : Memory) (target source count : Nat) : Memory := fun place =>
  if target ≤ place ∧ place < target + count then memory (source + (place - target))
  else memory place

variable {memory other : Memory} {address count value : Nat}

/-- Bytes that spell a number are read as it. -/
theorem read_of_bytes
    (spelled : ∀ offset < count, memory (address + offset) = .ofNat (value / 256 ^ offset)) :
    memory.read address count = value % 256 ^ count := by
  induction count generalizing address value with
  | zero => simp [read, Nat.mod_one]
  | succ count ih =>
    have first : memory address = .ofNat value := by
      simpa using spelled 0 (Nat.zero_lt_succ _)
    have others : memory.read (address + 1) count = value / 256 % 256 ^ count := by
      refine ih fun offset bound => ?_
      rw [Nat.add_assoc, Nat.add_comm 1, spelled _ (Nat.succ_lt_succ bound),
        Nat.div_div_eq_div_mul, Nat.pow_succ']
    rw [read, first, others, Nat.pow_succ', Nat.mod_mul]
    rfl

theorem read_write_same (memory : Memory) (address count value : Nat) :
    (memory.write address count value).read address count = value % 256 ^ count := by
  refine read_of_bytes fun offset bound => ?_
  rw [write, if_pos ⟨Nat.le_add_right .., Nat.add_lt_add_left bound _⟩, Nat.add_sub_cancel_left]

/-- What is read depends on the bytes at that place alone. -/
theorem read_congr
    (same : ∀ place, address ≤ place → place < address + count → memory place = other place) :
    memory.read address count = other.read address count := by
  induction count generalizing address with
  | zero => rfl
  | succ count ih =>
    have behind : memory.read (address + 1) count = other.read (address + 1) count :=
      ih fun place start bound => same place (by omega) (by omega)
    rw [read, read, behind, same address (Nat.le_refl _) (by omega)]

theorem write_apart {place : Nat} (apart : place < address ∨ address + count ≤ place) :
    memory.write address count value place = memory place := by
  rw [write, if_neg (by omega)]

theorem copy_apart {target source place : Nat}
    (apart : place < target ∨ target + count ≤ place) :
    memory.copy target source count place = memory place := by
  rw [copy, if_neg (by omega)]

theorem read_write_apart {elsewhere length : Nat}
    (apart : elsewhere + length ≤ address ∨ address + count ≤ elsewhere) :
    (memory.write address count value).read elsewhere length = memory.read elsewhere length :=
  read_congr fun _ _ _ => write_apart (by omega)

theorem read_lt (memory : Memory) (address count : Nat) :
    memory.read address count < 256 ^ count := by
  induction count generalizing address with
  | zero => exact Nat.zero_lt_one
  | succ count ih =>
    have byte := (memory address).toNat_lt
    have others := ih (address + 1)
    rw [read, Nat.pow_succ']
    omega

end Memory

end IrAssembly
