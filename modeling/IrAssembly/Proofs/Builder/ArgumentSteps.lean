import IrAssembly.Proofs.Builder.ArgumentSlots

/-! How far fetches move the pointer to the overflow area. An argument on the stack is passed by one
slot, an aggregate by its size, whether that is a number of whole slots or not. -/

namespace IrAssembly

namespace Fetch

/-- By how many bytes a fetch moves the pointer to the overflow area. -/
def step (cursor : ArgumentCursor) : Fetch → Nat
  | argument ty => (RegisterClass.ofTy? ty).elim 0 fun registers =>
    if cursor.Leaves registers then 0 else 8
  | aggregate ty => DataLayout.x86_64.sizeOf ty

/-- The bytes of the stack slots that an argument takes. -/
def slotBytes (cursor : ArgumentCursor) : Fetch → Nat
  | argument ty => (RegisterClass.ofTy? ty).elim 0 fun registers =>
    if cursor.Leaves registers then 0 else max 8 (roundUp (DataLayout.x86_64.sizeOf ty) 8)
  | aggregate ty => roundUp (DataLayout.x86_64.sizeOf ty) 8

/-- The size of an aggregate is a signed number of 32 bits. -/
def IsSmall : Fetch → Prop
  | argument _ => True
  | aggregate ty => DataLayout.x86_64.sizeOf ty < 2 ^ 31

/-- The argument fills whole slots, or at most one. -/
def IsWhole : Fetch → Prop
  | argument ty => ¬ ty.IsWide
  | aggregate ty => 8 ∣ DataLayout.x86_64.sizeOf ty

end Fetch

/-- Small sizes are passed to the code as they are. -/
theorem copyStep_of_lt {layout : DataLayout} {ty : Ty} (small : layout.sizeOf ty < 2 ^ 31) :
    copyStep layout ty = layout.sizeOf ty :=
  Int.bmod_eq_of_le (by omega) (by omega)

theorem Machine.value?_constant32_ofNat (machine : Machine) (environment : Environment)
    {size : Nat} (small : size < 2 ^ 31) :
    machine.value? environment (Build.constant32 (.ofNat size)) = some (.number size) := by
  have wide : (Int64.ofNat size).toInt = size := Int64.toInt_ofNat_of_lt (by omega)
  rw [value?_constant32, wide, lowNumber_natCast (by omega)]

namespace Fetch

variable {fetch : Fetch} {cursor : ArgumentCursor}

theorem behind_overflowArea (small : fetch.IsSmall) (bound : cursor .overflowArea < 2 ^ 64) :
    fetch.behind cursor .overflowArea = (cursor .overflowArea + fetch.step cursor) % 2 ^ 64 := by
  have past (step : Nat) : cursor.pastStack step .overflowArea =
      (cursor .overflowArea + step) % 2 ^ 64 :=
    (Function.update_self ..).trans (lowNumber_natCast_eq_mod 64 (cursor .overflowArea + step))
  cases fetch with
  | aggregate ty => rw [behind, step, copyStep_of_lt small, past]
  | argument ty =>
    cases inRegisters : RegisterClass.ofTy? ty with
    | none =>
      rw [behind, step, inRegisters]
      exact (Nat.mod_eq_of_lt bound).symm
    | some registers =>
      rw [behind, step, inRegisters, Option.elim_some, Option.elim_some,
        ArgumentCursor.pastArgument]
      split
      · rw [Nat.add_zero, Nat.mod_eq_of_lt bound]
        rcases RegisterClass.eq_of_ofTy? inRegisters with rfl | rfl <;>
          exact Function.update_of_ne (by decide) ..
      · exact past 8

/-- Over whole slots, the pointer moves as far as it should. -/
theorem step_of_isWhole (whole : fetch.IsWhole) (cursor : ArgumentCursor) :
    fetch.step cursor = fetch.slotBytes cursor ∧ 8 ∣ fetch.slotBytes cursor := by
  cases fetch with
  | aggregate ty =>
    rw [step, slotBytes, ← (eq_roundUp_iff (by decide)).mpr whole]
    exact ⟨rfl, whole⟩
  | argument ty =>
    cases inRegisters : RegisterClass.ofTy? ty with
    | none =>
      rw [step, slotBytes, inRegisters]
      exact ⟨rfl, Nat.dvd_zero 8⟩
    | some registers =>
      have small := (RegisterClass.sizeOf_le_iff inRegisters).mpr whole
      have one : max 8 (roundUp (DataLayout.x86_64.sizeOf ty) 8) = 8 :=
        Nat.max_eq_left (roundUp_le_of_dvd (Nat.dvd_refl 8) small)
      rw [step, slotBytes, inRegisters, Option.elim_some, Option.elim_some, one]
      split
      · exact ⟨rfl, Nat.dvd_zero 8⟩
      · exact ⟨rfl, Nat.dvd_refl 8⟩

end Fetch

namespace ArgumentCursor

/-- By how many bytes fetches move the pointer to the overflow area. -/
def steps : ArgumentCursor → List Fetch → Nat
  | _, [] => 0
  | cursor, fetch :: fetches => fetch.step cursor + (fetch.behind cursor).steps fetches

/-- The bytes of the stack slots that the arguments take. -/
def slotBytes : ArgumentCursor → List Fetch → Nat
  | _, [] => 0
  | cursor, fetch :: fetches => fetch.slotBytes cursor + (fetch.behind cursor).slotBytes fetches

variable {cursor : ArgumentCursor} {fetches : List Fetch}

theorem past_overflowArea (small : ∀ fetch ∈ fetches, fetch.IsSmall)
    (bound : cursor .overflowArea < 2 ^ 64) :
    cursor.past fetches .overflowArea =
      (cursor .overflowArea + cursor.steps fetches) % 2 ^ 64 := by
  induction fetches generalizing cursor with
  | nil => exact (Nat.mod_eq_of_lt bound).symm
  | cons fetch fetches ih =>
    obtain ⟨here, small⟩ := List.forall_mem_cons.mp small
    have moved := Fetch.behind_overflowArea here bound
    -- the address wraps around at each step, the sum of the steps but once
    have below : fetch.behind cursor .overflowArea < 2 ^ 64 := moved ▸ Nat.mod_lt _ (by decide)
    rw [past, List.foldl_cons, ← past, ih small below, moved, steps, Nat.mod_add_mod,
      Nat.add_assoc]

/-- Over whole slots, the pointer stays aligned. -/
theorem steps_of_isWhole (whole : ∀ fetch ∈ fetches, fetch.IsWhole) (cursor : ArgumentCursor) :
    cursor.steps fetches = cursor.slotBytes fetches ∧ 8 ∣ cursor.slotBytes fetches := by
  induction fetches generalizing cursor with
  | nil => exact ⟨rfl, Nat.dvd_zero 8⟩
  | cons fetch fetches ih =>
    obtain ⟨here, whole⟩ := List.forall_mem_cons.mp whole
    obtain ⟨same, divides⟩ := fetch.step_of_isWhole here cursor
    obtain ⟨others, divideOthers⟩ := ih whole (fetch.behind cursor)
    rw [steps, slotBytes, same, others]
    exact ⟨rfl, Nat.dvd_add divides divideOthers⟩

end ArgumentCursor

namespace Operation

variable {builder : Builder} {list : Value}

/-- Under the default layout, a small aggregate is copied with its size for a length, and the
pointer to the overflow area is moved by its size, which is that of its stack slots just if it is a
number of whole ones. Wherever a sequence of fetches is run, the pointer is moved by the sum of
these steps; if all arguments take whole slots, it has passed exactly these and stays aligned. -/
theorem vaArgStackOnly_moves (reachable : builder.Reachable) (default : builder.layout = .x86_64)
    (isList : list.ty = .ptr .vaList) (below : list.Below builder.nextId) :
    (∀ ty, Build.isStackPassed ty = true → ∃ value after,
      (Operation.vaArgStackOnly list ty).step builder = (.ok (.value value), after) ∧
      builder.CopiesArgument ty value after ∧
      let size := DataLayout.x86_64.sizeOf ty
      (size < 2 ^ 31 → ∀ (environment : Environment) (machine : Machine),
        machine.value? environment (Build.constant32 (.ofNat size)) = some (.number size) ∧
        machine.value? environment (.constant (.i64 (.ofNat size))) = some (.number size)) ∧
      (size = roundUp size 8 ↔ 8 ∣ size)) ∧
    ∀ fetches : List Fetch, (∀ fetch ∈ fetches, fetch.Accepted) →
      (∀ fetch ∈ fetches, fetch.IsSmall) →
      ∃ values after, Fetches list builder fetches values after ∧
        ∀ (environment : Environment) (machine : Machine) (tag : Nat) (cursor : ArgumentCursor),
          environment.layout = .x86_64 →
          machine.value? environment list = some (.number tag) →
          tag + 24 ≤ 2 ^ 64 → tag + 24 ≤ machine.top → machine.memory.HoldsTag tag cursor →
          ∃ last, (∀ final : FunctionDef, after.function.KeptIn final →
              final.Reaches environment (builder.here machine) (after.here last)) ∧
            last.memory.HoldsTag tag (cursor.past fetches) ∧
            cursor.past fetches .overflowArea =
              (cursor .overflowArea + cursor.steps fetches) % 2 ^ 64 ∧
            ((∀ fetch ∈ fetches, fetch.IsWhole) →
              cursor.steps fetches = cursor.slotBytes fetches ∧
              (8 ∣ cursor .overflowArea → 8 ∣ cursor.past fetches .overflowArea)) ∧
            ((∀ span ∈ cursor.spans fetches, span.InUse tag machine) →
              cursor.Delivered environment machine last fetches values) := by
  have ready := reachable.ready
  refine ⟨fun ty onStack => ?_, fun fetches accepted small => ?_⟩
  · have aligned := Build.copyAligned_of_default default ty
    obtain ⟨value, after, stepped, ⟨copying⟩⟩ := exists_copying ready isList onStack aligned
    refine ⟨value, after, stepped, copying.copiesArgument, fun small environment machine => ?_,
      eq_roundUp_iff (by decide)⟩
    refine ⟨machine.value?_constant32_ofNat environment small, ?_⟩
    rw [machine.value?_length environment, Nat.mod_eq_of_lt (by omega)]
  · obtain ⟨values, after, fetched, runs⟩ := Fetches.exists_runs ready default isList accepted
    refine ⟨values, after, fetched, ?_⟩
    intro environment machine tag cursor same place bound used holds
    have start : builder.Tracks environment (builder.here machine) (builder.here machine)
        [(list, .number tag)] :=
      .start ready (default.trans same.symm) (by simpa using ⟨below, place⟩)
    obtain ⟨last, _, moved, tracks, delivered⟩ :=
      runs _ _ _ _ _ _ ⟨start, .head _, bound, used, holds⟩
    have pointer := ArgumentCursor.past_overflowArea small (holds.lt .overflowArea)
    refine ⟨last, tracks.leads, moved, pointer, fun whole => ?_, delivered⟩
    obtain ⟨sum, divides⟩ := ArgumentCursor.steps_of_isWhole whole cursor
    refine ⟨sum, fun aligned => ?_⟩
    rw [pointer, Nat.dvd_mod_iff (by decide), sum]
    exact Nat.dvd_add aligned divides

/-- A structure that fills its slots, and then a number: the pointer is behind both. -/
theorem vaArgStackOnly_moves_over_slots :
    ∃ (builder after : Builder) (list : Value) (values : List Value) (environment : Environment)
      (machine last : Machine) (cursor : ArgumentCursor),
      let fetches : List Fetch := [.aggregate (.struct none [.i64, .i32] false), .argument .i32]
      builder.Reachable ∧ machine.memory.HoldsTag 1024 cursor ∧ cursor .overflowArea = 4096 ∧
      Fetches list builder fetches values after ∧
      after.function.Reaches environment (builder.here machine) (after.here last) ∧
      last.memory.HoldsTag 1024 (cursor.past fetches) ∧
      cursor.past fetches .overflowArea = 4096 + 16 + 8 := by
  let list : Value := .result ⟨0, "1", .ptr .vaList⟩
  let environment : Environment := ⟨.x86_64, fun _ => none, fun _ => none, fun _ _ _ _ => false⟩
  let memory : Memory := fun place => if place = 1024 then 48 else if place = 1033 then 16 else 0
  let machine : Machine :=
    ⟨memory, fun id => if id = 0 then some (.number 1024) else none, 8192, ⟨0⟩⟩
  let cursor : ArgumentCursor := .of 48 0 4096 0
  have reachable := Builder.Reachable.run (.fresh "f" ⟨.void, [], false⟩)
    (Builder.run_start rfl .x86_64) [.allocate .vaList]
  have holds : machine.memory.HoldsTag 1024 cursor := by
    intro field
    cases field <;> decide +kernel
  obtain ⟨_, runs⟩ := vaArgStackOnly_moves reachable rfl (rfl : list.ty = .ptr .vaList)
    (by decide +kernel : 0 < _)
  obtain ⟨values, after, fetched, runs⟩ :=
    runs [.aggregate (.struct none [.i64, .i32] false), .argument .i32]
      (by simp [Fetch.Accepted, RegisterClass.ofTy?, Build.isStackPassed, Ty.i32])
      (by
        simp only [List.forall_mem_cons, Fetch.IsSmall]
        exact ⟨by decide +kernel, trivial, by simp⟩)
  obtain ⟨last, reaches, moved, pointer, _⟩ :=
    runs environment machine 1024 cursor rfl rfl (by decide) (by decide) holds
  refine ⟨_, after, list, values, environment, machine, last, cursor, reachable, holds, rfl,
    fetched, reaches _ (.refl _), moved, ?_⟩
  rw [pointer]
  decide +kernel

/-- A structure of one number takes a slot, but the pointer is moved by half of it and is aligned no
longer. The pointer is not moved at all by the size of an array of 2 ^ 32 bytes. -/
theorem vaArgStackOnly_moves_short :
    ∃ (builder after : Builder) (list : Value) (values : List Value) (cursor : ArgumentCursor),
      builder.Reachable ∧ builder.layout = .x86_64 ∧ list.ty = .ptr .vaList ∧
      Fetches list builder [.aggregate (.struct none [.i32] false)] values after ∧
      copyStep .x86_64 (.struct none [.i32] false) = 4 ∧
      roundUp (DataLayout.x86_64.sizeOf (.struct none [.i32] false)) 8 = 8 ∧
      8 ∣ cursor .overflowArea ∧
      ¬ 8 ∣ cursor.past [.aggregate (.struct none [.i32] false)] .overflowArea ∧
      copyStep .x86_64 (.array 4294967296 .i8) = 0 := by
  let list : Value := .result ⟨0, "1", .ptr .vaList⟩
  have reachable := Builder.Reachable.run (.fresh "f" ⟨.void, [], false⟩)
    (Builder.run_start rfl .x86_64) [.allocate .vaList]
  have accepted : ∀ fetch ∈ [Fetch.aggregate (.struct none [.i32] false)], fetch.Accepted := by
    simp [Fetch.Accepted, Build.isStackPassed]
  obtain ⟨values, after, fetched, _⟩ :=
    Fetches.exists_runs reachable.ready rfl (rfl : list.ty = .ptr .vaList) accepted
  exact ⟨_, after, list, values, fun _ => 4096, reachable, rfl, rfl, fetched, by decide +kernel,
    by decide +kernel, by decide, by decide +kernel, by decide +kernel⟩

end Operation

end IrAssembly
