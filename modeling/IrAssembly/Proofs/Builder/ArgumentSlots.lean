import IrAssembly.Proofs.Builder.ArgumentRuns

/-! The slots of arguments. A fetch steps over one register or over one stack slot, however large
its argument is; as long as arguments fit, the fetches of a sequence read apart from one another. -/

namespace IrAssembly

namespace RegisterClass

/-- Where the registers of a class end in the save area: first come six general ones, then eight
floating ones. -/
def saveEnd (registers : RegisterClass) : Nat :=
  match registers.offset with
  | .fpOffset => 6 * 8 + 8 * 16
  | _ => 6 * 8

/-- A fetch steps over all of an argument of this type: if a register is left, the argument lies in
the registers of the class and in the step to the next one; else it lies in a stack slot. -/
structure Fits (registers : RegisterClass) (ty : Ty) : Prop where
  saved : ∀ offset ≤ registers.lastOffset, offset + DataLayout.x86_64.sizeOf ty ≤ registers.saveEnd
  register : DataLayout.x86_64.sizeOf ty ≤ registers.stride
  slot : (DataLayout.x86_64.sizeOf ty : Int) ≤ stackSlotStep.toInt

end RegisterClass

/-- Numbers of more than 64 bits. -/
def Ty.IsWide : Ty → Prop
  | .int bits => 64 < bits.toNat
  | .float kind => kind = .quad
  | _ => False

namespace RegisterClass

variable {registers : RegisterClass} {ty : Ty}

theorem fits_iff_size (inRegisters : ofTy? ty = some registers) :
    registers.Fits ty ↔ DataLayout.x86_64.sizeOf ty ≤ 8 := by
  have step : stackSlotStep.toInt = 8 := rfl
  constructor
  · intro fits
    have slot := fits.slot
    omega
  · intro small
    have bounds : registers.lastOffset + 8 ≤ registers.saveEnd ∧ 8 ≤ registers.stride := by
      rcases eq_of_ofTy? inRegisters with rfl | rfl <;> decide
    exact ⟨fun offset left => by omega, by omega, by omega⟩

theorem sizeOf_le_iff (inRegisters : ofTy? ty = some registers) :
    DataLayout.x86_64.sizeOf ty ≤ 8 ↔ ¬ ty.IsWide := by
  unfold ofTy? at inRegisters
  split at inRegisters
  case h_1 bits =>
    rw [DataLayout.x86_64_sizeOf_int_le_iff, Ty.IsWide, Nat.not_lt]
  case h_2 =>
    exact iff_of_true (Nat.le_refl 8) fun wide => wide
  case h_4 kind extended =>
    cases kind with
    | x87 => exact absurd rfl extended
    | half | single | double => exact iff_of_true (by decide +kernel) (by simp [Ty.IsWide])
    | quad => exact iff_of_false (by decide +kernel) (not_not.mpr rfl)
  all_goals cases inRegisters

/-- The types that fit. -/
theorem fits_iff (inRegisters : ofTy? ty = some registers) : registers.Fits ty ↔ ¬ ty.IsWide :=
  (fits_iff_size inRegisters).trans (sizeOf_le_iff inRegisters)

end RegisterClass

/-- No byte is in both. -/
def Span.Apart (first second : Span) : Prop :=
  ∀ place, first.Covers place → ¬ second.Covers place

namespace ArgumentCursor

/-- Where the arguments of a list are: the register save area and some bytes of the overflow area
are in use, apart from one another and from the tag. -/
structure Areas (cursor : ArgumentCursor) (bytes tag : Nat) (machine : Machine) : Prop where
  space : machine.top < 2 ^ 64
  saved : cursor .saveArea + 176 ≤ machine.top
  stacked : cursor .overflowArea + bytes ≤ machine.top
  floating : 48 ≤ cursor .fpOffset
  apart : cursor .saveArea + 176 ≤ cursor .overflowArea ∨
    cursor .overflowArea + bytes ≤ cursor .saveArea
  tagSaved : tag + 24 ≤ cursor .saveArea ∨ cursor .saveArea + 176 ≤ tag
  tagStacked : tag + 24 ≤ cursor .overflowArea ∨ cursor .overflowArea + bytes ≤ tag

/-- The byte is still to be read: it belongs to a register that is left or to the stack. -/
def Ahead (cursor : ArgumentCursor) (bytes place : Nat) : Prop :=
  (cursor .saveArea + cursor .gpOffset ≤ place ∧ place < cursor .saveArea + 48) ∨
  (cursor .saveArea + cursor .fpOffset ≤ place ∧ place < cursor .saveArea + 176) ∨
  (cursor .overflowArea ≤ place ∧ place < cursor .overflowArea + bytes)

/-- How a cursor passes an argument in a slot: by a register or by a slot on the stack. -/
inductive Passes (cursor : ArgumentCursor) (slot : Nat) : ArgumentCursor → Prop where
  | general (left : cursor .gpOffset ≤ 40)
      (here : slot = cursor .saveArea + cursor .gpOffset) :
      Passes cursor slot (Function.update cursor .gpOffset (cursor .gpOffset + 8))
  | floating (left : cursor .fpOffset ≤ 160)
      (here : slot = cursor .saveArea + cursor .fpOffset) :
      Passes cursor slot (Function.update cursor .fpOffset (cursor .fpOffset + 16))
  | stack (here : slot = cursor .overflowArea) :
      Passes cursor slot (Function.update cursor .overflowArea (cursor .overflowArea + 8))

variable {cursor next : ArgumentCursor} {bytes tag slot : Nat} {machine : Machine} {ty : Ty}

theorem Areas.passes (areas : cursor.Areas (bytes + 8) tag machine)
    (accepted : (Fetch.argument ty).Accepted) :
    cursor.Passes ((Fetch.argument ty).slot cursor) ((Fetch.argument ty).behind cursor) := by
  obtain ⟨registers, inRegisters⟩ := Option.isSome_iff_exists.mp accepted
  obtain ⟨space, saved, stacked, -, -, -, -⟩ := areas
  rw [Fetch.slot, Fetch.behind, inRegisters, Option.elim_some, Option.elim_some, argumentSlot,
    pastArgument]
  by_cases left : cursor.Leaves registers
  · have bound := left.lt inRegisters
    rw [if_pos left, if_pos left, registerSlot, pastRegister, Nat.mod_eq_of_lt (by omega)]
    have offset : (cursor registers.offset + registers.stride) % 2 ^ 32 =
        cursor registers.offset + registers.stride := by
      refine Nat.mod_eq_of_lt ?_
      rcases RegisterClass.eq_of_ofTy? inRegisters with rfl | rfl <;>
        exact Nat.lt_of_le_of_lt (Nat.add_le_add_right bound _) (by decide)
    rw [offset]
    rcases RegisterClass.eq_of_ofTy? inRegisters with rfl | rfl
    · exact .general left rfl
    · exact .floating left rfl
  · have below : cursor .overflowArea + 8 < 2 ^ 64 := by omega
    have further : lowNumber 64 (cursor .overflowArea + stackSlotStep.toInt) =
        cursor .overflowArea + 8 := lowNumber_natCast below
    rw [if_neg left, if_neg left, pastStack, further]
    exact .stack rfl

namespace Passes

/-- What the fields are when a slot was passed. -/
theorem fields (passes : cursor.Passes slot next) :
    next .saveArea = cursor .saveArea ∧
    (cursor .gpOffset ≤ 40 ∧ slot = cursor .saveArea + cursor .gpOffset ∧
        next .gpOffset = cursor .gpOffset + 8 ∧ next .fpOffset = cursor .fpOffset ∧
        next .overflowArea = cursor .overflowArea ∨
      cursor .fpOffset ≤ 160 ∧ slot = cursor .saveArea + cursor .fpOffset ∧
        next .gpOffset = cursor .gpOffset ∧ next .fpOffset = cursor .fpOffset + 16 ∧
        next .overflowArea = cursor .overflowArea ∨
      slot = cursor .overflowArea ∧
        next .gpOffset = cursor .gpOffset ∧ next .fpOffset = cursor .fpOffset ∧
        next .overflowArea = cursor .overflowArea + 8) := by
  cases passes with
  | general left here => exact ⟨rfl, .inl ⟨left, here, rfl, rfl, rfl⟩⟩
  | floating left here => exact ⟨rfl, .inr (.inl ⟨left, here, rfl, rfl, rfl⟩)⟩
  | stack here => exact ⟨rfl, .inr (.inr ⟨here, rfl, rfl, rfl⟩)⟩

theorem areas (passes : cursor.Passes slot next) (areas : cursor.Areas (bytes + 8) tag machine) :
    next.Areas bytes tag machine := by
  have fields := passes.fields
  obtain ⟨space, saved, stacked, floating, apart, tagSaved, tagStacked⟩ := areas
  constructor <;> omega

/-- What is ahead of the next cursor was ahead. -/
theorem ahead (passes : cursor.Passes slot next) {place : Nat} (ahead : next.Ahead bytes place) :
    cursor.Ahead (bytes + 8) place := by
  have fields := passes.fields
  unfold Ahead at *
  omega

/-- The slot was ahead, and is so no longer. -/
theorem ahead_slot (passes : cursor.Passes slot next)
    (areas : cursor.Areas (bytes + 8) tag machine) {place : Nat} (start : slot ≤ place)
    (bound : place < slot + 8) : cursor.Ahead (bytes + 8) place ∧ ¬ next.Ahead bytes place := by
  have fields := passes.fields
  obtain ⟨-, -, -, floating, apart, -, -⟩ := areas
  unfold Ahead
  omega

theorem inUse (passes : cursor.Passes slot next) (areas : cursor.Areas (bytes + 8) tag machine)
    {size : Nat} (small : size ≤ 8) : (⟨slot, size⟩ : Span).InUse tag machine := by
  have fields := passes.fields
  obtain ⟨space, saved, stacked, floating, apart, tagSaved, tagStacked⟩ := areas
  refine ⟨Nat.lt_of_le_of_lt small (by decide), ?_, ?_⟩
  · change slot + size ≤ machine.top
    omega
  · intro place covers
    obtain ⟨start, bound⟩ : slot ≤ place ∧ place < slot + size := covers
    omega

end Passes

/-- Types of arguments that fit. -/
def Fitting (tys : List Ty) : Prop :=
  ∀ ty ∈ tys, (Fetch.argument ty).Accepted ∧ ¬ ty.IsWide

theorem sizeOf_le_of_fitting (accepted : (Fetch.argument ty).Accepted) (narrow : ¬ ty.IsWide) :
    DataLayout.x86_64.sizeOf ty ≤ 8 := by
  obtain ⟨registers, inRegisters⟩ := Option.isSome_iff_exists.mp accepted
  exact (RegisterClass.sizeOf_le_iff inRegisters).mpr narrow

variable {tys : List Ty}

/-- All that is read is ahead of the cursor. -/
theorem Areas.spans_ahead (areas : cursor.Areas (8 * tys.length) tag machine)
    (fitting : Fitting tys) : ∀ span ∈ cursor.spans (tys.map .argument), ∀ place,
      span.Covers place → cursor.Ahead (8 * tys.length) place := by
  induction tys generalizing cursor with
  | nil => simp [spans]
  | cons ty tys ih =>
    obtain ⟨⟨accepted, narrow⟩, fitting⟩ := List.forall_mem_cons.mp fitting
    have passes := areas.passes accepted
    refine List.forall_mem_cons.mpr ⟨?_, ?_⟩
    · rintro place ⟨start, bound⟩
      have small := sizeOf_le_of_fitting accepted narrow
      exact (passes.ahead_slot areas start
        (Nat.lt_of_lt_of_le bound (Nat.add_le_add_left small _))).1
    · exact fun span member place covers =>
        passes.ahead (ih (passes.areas areas) fitting span member place covers)

theorem Areas.spans_inUse (areas : cursor.Areas (8 * tys.length) tag machine)
    (fitting : Fitting tys) :
    ∀ span ∈ cursor.spans (tys.map .argument), span.InUse tag machine := by
  induction tys generalizing cursor with
  | nil => simp [spans]
  | cons ty tys ih =>
    obtain ⟨⟨accepted, narrow⟩, fitting⟩ := List.forall_mem_cons.mp fitting
    have passes := areas.passes accepted
    exact List.forall_mem_cons.mpr ⟨passes.inUse areas (sizeOf_le_of_fitting accepted narrow),
      ih (passes.areas areas) fitting⟩

/-- No byte is read twice: what is read later is ahead of the cursor that a slot is behind. -/
theorem Areas.spans_pairwise (areas : cursor.Areas (8 * tys.length) tag machine)
    (fitting : Fitting tys) : (cursor.spans (tys.map .argument)).Pairwise Span.Apart := by
  induction tys generalizing cursor with
  | nil => exact .nil
  | cons ty tys ih =>
    obtain ⟨⟨accepted, narrow⟩, fitting⟩ := List.forall_mem_cons.mp fitting
    have passes := areas.passes accepted
    have small := sizeOf_le_of_fitting accepted narrow
    refine .cons ?_ (ih (passes.areas areas) fitting)
    rintro span member place ⟨start, bound⟩ covers
    have behind := (passes.ahead_slot areas start
      (Nat.lt_of_lt_of_le bound (Nat.add_le_add_left small _))).2
    exact behind ((passes.areas areas).spans_ahead fitting span member place covers)

end ArgumentCursor

namespace Operation

variable {builder : Builder} {list : Value}

/-- An argument is fetched if it may be in registers. -/
theorem accepts_vaArg_iff (ready : builder.Ready) (default : builder.layout = .x86_64)
    (isList : list.ty = .ptr .vaList) (ty : Ty) :
    (∃ value after, (Operation.vaArg list ty).step builder = (.ok (.value value), after)) ↔
      (Fetch.argument ty).Accepted := by
  constructor
  · rintro ⟨value, after, stepped⟩
    by_contra refused
    have none : RegisterClass.ofTy? ty = none := Option.not_isSome_iff_eq_none.mp refused
    have ends : Build.Ends (Operation.vaArg list ty).run builder (fun _ _ => False)
        fun _ _ => True := by
      rw [Operation.run, Build.ends_map, Build.vaArg, none]
      trivial
    exact ends.of_run stepped
  · intro accepted
    obtain ⟨value, after, stepped, _⟩ := Fetch.exists_argument_runs ready default isList accepted
    exact ⟨value, after, stepped⟩

/-- Under the default layout, the types of arguments that lie within what a fetch steps over are
those of at most 64 bits. Wherever a sequence of fetches is run, each fetch reads where the cursor
is and moves it on; if all types fit, no byte is read twice, and all arguments are those that were
there in the beginning. -/
theorem vaArg_fits_iff (reachable : builder.Reachable) (default : builder.layout = .x86_64)
    (isList : list.ty = .ptr .vaList) (below : list.Below builder.nextId) :
    (∀ ty, (∃ value after,
        (Operation.vaArg list ty).step builder = (.ok (.value value), after)) ↔
      (RegisterClass.ofTy? ty).isSome) ∧
    (∀ ty registers, RegisterClass.ofTy? ty = some registers →
      (registers.Fits ty ↔ ¬ ty.IsWide)) ∧
    ∀ tys : List Ty, (∀ ty ∈ tys, (RegisterClass.ofTy? ty).isSome) →
      ∃ values after, Fetches list builder (tys.map .argument) values after ∧
        ∀ (environment : Environment) (machine : Machine) (tag : Nat) (cursor : ArgumentCursor),
          environment.layout = .x86_64 →
          machine.value? environment list = some (.number tag) →
          tag + 24 ≤ 2 ^ 64 → tag + 24 ≤ machine.top → machine.memory.HoldsTag tag cursor →
          ∃ last, (∀ final : FunctionDef, after.function.KeptIn final →
              final.Reaches environment (builder.here machine) (after.here last)) ∧
            last.memory.HoldsTag tag (cursor.past (tys.map .argument)) ∧
            ((∀ ty ∈ tys, ¬ ty.IsWide) → cursor.Areas (8 * tys.length) tag machine →
              (cursor.spans (tys.map .argument)).Pairwise Span.Apart ∧
              cursor.Delivered environment machine last (tys.map .argument) values) := by
  have ready := reachable.ready
  refine ⟨accepts_vaArg_iff ready default isList,
    fun _ _ inRegisters => RegisterClass.fits_iff inRegisters, fun tys accepted => ?_⟩
  obtain ⟨values, after, fetched, runs⟩ := Fetches.exists_runs ready default isList
    (List.forall_mem_map.mpr accepted : ∀ fetch ∈ tys.map Fetch.argument, fetch.Accepted)
  refine ⟨values, after, fetched, ?_⟩
  intro environment machine tag cursor same place bound used holds
  have start : builder.Tracks environment (builder.here machine) (builder.here machine)
      [(list, .number tag)] :=
    .start ready (default.trans same.symm) (by simpa using ⟨below, place⟩)
  obtain ⟨last, _, moved, tracks, delivered⟩ :=
    runs _ _ _ _ _ _ ⟨start, .head _, bound, used, holds⟩
  refine ⟨last, tracks.leads, moved, fun narrow areas => ?_⟩
  have fitting : ArgumentCursor.Fitting tys := fun ty member =>
    ⟨accepted ty member, narrow ty member⟩
  exact ⟨areas.spans_pairwise fitting, delivered (areas.spans_inUse fitting)⟩

/-- A number and a double, each from the first register of its class. -/
theorem vaArg_fits_in_registers :
    ∃ (builder after : Builder) (list : Value) (values : List Value) (environment : Environment)
      (machine last : Machine) (cursor : ArgumentCursor),
      builder.Reachable ∧ machine.memory.HoldsTag 1024 cursor ∧
      Fetches list builder [.argument .i32, .argument (.float .double)] values after ∧
      after.function.Reaches environment (builder.here machine) (after.here last) ∧
      cursor.spans [.argument .i32, .argument (.float .double)] = [⟨2048, 4⟩, ⟨2096, 8⟩] ∧
      (cursor.spans [.argument .i32, .argument (.float .double)]).Pairwise Span.Apart ∧
      cursor.Delivered environment machine last [.argument .i32, .argument (.float .double)]
        values := by
  let list : Value := .result ⟨0, "1", .ptr .vaList⟩
  let environment : Environment := ⟨.x86_64, fun _ => none, fun _ => none, fun _ _ _ _ => false⟩
  let memory : Memory := fun place =>
    if place = 1028 then 48 else if place = 1033 then 16 else if place = 1041 then 8 else 0
  let machine : Machine :=
    ⟨memory, fun id => if id = 0 then some (.number 1024) else none, 8192, ⟨0⟩⟩
  let cursor : ArgumentCursor := .of 0 48 4096 2048
  have reachable := Builder.Reachable.run (.fresh "f" ⟨.void, [], false⟩)
    (Builder.run_start rfl .x86_64) [.allocate .vaList]
  have holds : machine.memory.HoldsTag 1024 cursor := by
    intro field
    cases field <;> decide +kernel
  obtain ⟨_, _, runs⟩ := vaArg_fits_iff reachable rfl (rfl : list.ty = .ptr .vaList)
    (by decide +kernel : 0 < _)
  obtain ⟨values, after, fetched, runs⟩ := runs [.i32, .float .double] (by decide)
  obtain ⟨last, reaches, _, fitting⟩ :=
    runs environment machine 1024 cursor rfl rfl (by decide) (by decide) holds
  obtain ⟨apart, delivered⟩ := fitting (by simp [Ty.IsWide, Ty.i32])
    ⟨by decide, by decide, by decide, by decide, by decide, by decide, by decide⟩
  exact ⟨_, after, list, values, environment, machine, last, cursor, reachable, holds, fetched,
    reaches _ (.refl _), by decide +kernel, apart, delivered⟩

/-- An integer of 128 bits reaches from the last general register beyond the registers, two of them
overlap, and a floating point number of 128 bits reaches beyond its stack slot. -/
theorem vaArg_exceeds_steps :
    ∃ (builder after : Builder) (list : Value) (values : List Value),
      builder.Reachable ∧ builder.layout = .x86_64 ∧ list.ty = .ptr .vaList ∧
      Fetches list builder [.argument (.int 128), .argument (.int 128), .argument (.float .quad)]
        values after ∧
      RegisterClass.ofTy? (.int 128) = some .general ∧
      ¬ RegisterClass.general.lastOffset + DataLayout.x86_64.sizeOf (.int 128) ≤
        RegisterClass.general.saveEnd ∧
      ¬ DataLayout.x86_64.sizeOf (.int 128) ≤ RegisterClass.general.stride ∧
      (∃ cursor : ArgumentCursor, ¬ (cursor.spans
        [.argument (.int 128), .argument (.int 128)]).Pairwise Span.Apart) ∧
      RegisterClass.ofTy? (.float .quad) = some .floating ∧
      ¬ (DataLayout.x86_64.sizeOf (.float .quad) : Int) ≤ stackSlotStep.toInt := by
  let list : Value := .result ⟨0, "1", .ptr .vaList⟩
  have reachable := Builder.Reachable.run (.fresh "f" ⟨.void, [], false⟩)
    (Builder.run_start rfl .x86_64) [.allocate .vaList]
  have accepted : ∀ fetch ∈ [Fetch.argument (.int 128), .argument (.int 128),
      .argument (.float .quad)], fetch.Accepted := by simp [Fetch.Accepted, RegisterClass.ofTy?]
  obtain ⟨values, after, fetched, _⟩ :=
    Fetches.exists_runs reachable.ready rfl (rfl : list.ty = .ptr .vaList) accepted
  refine ⟨_, after, list, values, reachable, rfl, rfl, fetched, rfl, by decide +kernel,
    by decide +kernel, ⟨fun _ => 0, fun apart => ?_⟩, rfl, by decide +kernel⟩
  have first : (⟨0, 16⟩ : Span).Apart ⟨8, 16⟩ := by
    have spans : ArgumentCursor.spans (fun _ => 0) [.argument (.int 128), .argument (.int 128)] =
        [⟨0, 16⟩, ⟨8, 16⟩] := by decide +kernel
    rw [spans] at apart
    exact (List.pairwise_cons.mp apart).1 _ (List.mem_singleton_self _)
  exact first 8 ⟨by decide, by decide⟩ ⟨by decide, by decide⟩

end Operation

end IrAssembly
