import IrAssembly.Proofs.Builder.Frame
import IrAssembly.Proofs.Builder.Promotion
import IrAssembly.Proofs.Builder.VectorFold
import IrAssembly.Proofs.Layout.Default

/-! Vectors that are loaded and filled with literals from the first lane on: what a run of the code
puts into the lanes, and what the comparison of two such vectors comes to. -/

namespace IrAssembly

/-- The numbers in the lanes of a vector that was loaded and whose first lanes were replaced. -/
def laneNumbers (width : Nat) (numbers : List Int) (loaded : List Nat) : List Nat :=
  numbers.map (lowNumber width) ++ loaded.drop numbers.length

/-- The lanes of such a vector as signed numbers: the replaced lanes have the numbers as far as they
are in the range, and the other lanes have what was loaded. -/
def filledLanes (width : Nat) (numbers : List Int) (loaded : List Nat) : List Int :=
  numbers.map (fun number => number.bmod (2 ^ width)) ++
    (loaded.drop numbers.length).map (signedNumber width)

section Lanes

variable {width : Nat} {numbers others : List Int} {loaded more : List Nat}

theorem length_laneNumbers (fits : numbers.length ≤ loaded.length) :
    (laneNumbers width numbers loaded).length = loaded.length := by
  rw [laneNumbers, List.length_append, List.length_map, List.length_drop,
    Nat.add_sub_cancel' fits]

theorem map_signedNumber_laneNumbers (width : Nat) (numbers : List Int) (loaded : List Nat) :
    (laneNumbers width numbers loaded).map (signedNumber width) =
      filledLanes width numbers loaded := by
  simp [laneNumbers, filledLanes, signedNumber_lowNumber]

theorem map_lowNumber_filledLanes (inRange : ∀ number ∈ loaded, number < 2 ^ width) :
    (filledLanes width numbers loaded).map (lowNumber width) =
      laneNumbers width numbers loaded := by
  have kept : ∀ number ∈ loaded.drop numbers.length,
      (lowNumber width ∘ signedNumber width) number = number := fun number member =>
    lowNumber_signedNumber (inRange number (List.mem_of_mem_drop member))
  rw [filledLanes, laneNumbers, List.map_append, List.map_map, List.map_map,
    List.map_congr_left kept, List.map_id']
  congr 1
  exact List.map_congr_left fun number _ => lowNumber_bmod width number

/-- Lanes are the same just if they are the same as signed numbers. -/
theorem laneNumbers_eq_iff (inRange : ∀ number ∈ loaded, number < 2 ^ width)
    (moreInRange : ∀ number ∈ more, number < 2 ^ width) :
    laneNumbers width numbers loaded = laneNumbers width others more ↔
      filledLanes width numbers loaded = filledLanes width others more := by
  constructor
  · intro same
    rw [← map_signedNumber_laneNumbers, same, map_signedNumber_laneNumbers]
  · intro same
    rw [← map_lowNumber_filledLanes inRange, same, map_lowNumber_filledLanes moreInRange]

end Lanes

/-- A load of a vector of integers finds as many numbers as it has lanes. -/
theorem Memory.exists_lanes (memory : Memory) (layout : DataLayout) (len width : UInt32)
    (address : Nat) :
    ∃ loaded, memory.load? layout (.vector len (.int width)) address = some (.lanes loaded) ∧
      loaded.length = len.toNat ∧ ∀ number ∈ loaded, number < 2 ^ width.toNat := by
  refine ⟨_, rfl, by rw [List.length_map, List.length_range], ?_⟩
  intro number member
  obtain ⟨lane, _, rfl⟩ := List.mem_map.mp member
  exact Nat.mod_lt _ (Nat.two_pow_pos _)

/-- The lanes of a value are, as signed numbers, those of the vector that a machine has at an
address once these are filled. -/
def Machine.HasFilled (machine : Machine) (environment : Environment) (next : Machine)
    (len width : UInt32) (address : Nat) (numbers : List Int) (value : Value)
    (lanes : List Int) : Prop :=
  ∃ loaded contents,
    machine.memory.load? environment.layout (.vector len (.int width)) address =
      some (.lanes loaded) ∧
    loaded.length = len.toNat ∧ filledLanes width.toNat numbers loaded = lanes ∧
    next.value? environment value = some (.lanes contents) ∧
    contents.map (signedNumber width.toNat) = lanes

/-! Whether all lanes are the same -/

namespace CompareOperator

variable {environment : Environment} {ty : Ty} {lefts rights : List Nat}

theorem verdict_intEqual (lengths : lefts.length = rights.length) :
    intEqual.verdict (List.zipWith (intEqual.holds environment ty) lefts rights) = true ↔
      lefts = rights := by
  induction lefts generalizing rights with
  | nil =>
    obtain rfl := List.length_eq_zero_iff.mp lengths.symm
    exact iff_of_true rfl rfl
  | cons left lefts ih =>
    cases rights with
    | nil => cases lengths
    | cons right rights =>
      have first : intEqual.verdict
          (List.zipWith (intEqual.holds environment ty) (left :: lefts) (right :: rights)) =
          ((left == right) &&
            intEqual.verdict (List.zipWith (intEqual.holds environment ty) lefts rights)) := rfl
      rw [first, Bool.and_eq_true, beq_iff_eq, ih (Nat.succ.inj lengths), List.cons.injEq]

/-- The comparison for difference is the negation of the one for equality. -/
theorem verdict_intNotEqual (lengths : lefts.length = rights.length) :
    intNotEqual.verdict (List.zipWith (intNotEqual.holds environment ty) lefts rights) = true ↔
      lefts ≠ rights := by
  have negated : List.zipWith (intNotEqual.holds environment ty) lefts rights =
      (List.zipWith (intEqual.holds environment ty) lefts rights).map (!·) := by
    rw [List.map_zipWith]
    rfl
  have flipped (truths : List Bool) :
      intNotEqual.verdict (truths.map (!·)) = !intEqual.verdict truths := by
    simp [verdict, isInequality, List.not_all_eq_any_not]
  rw [negated, flipped, Bool.not_eq_true', ← Bool.not_eq_true, verdict_intEqual lengths]

/-- What the comparisons for equality and for difference come to, in signed numbers. -/
theorem verdict_filled (operator : CompareOperator) {width : Nat} {numbers others : List Int}
    {loaded more : List Nat}
    (lengths : (laneNumbers width numbers loaded).length = (laneNumbers width others more).length)
    (inRange : ∀ number ∈ loaded, number < 2 ^ width)
    (moreInRange : ∀ number ∈ more, number < 2 ^ width) :
    let truth := operator.verdict (List.zipWith (operator.holds environment ty)
      (laneNumbers width numbers loaded) (laneNumbers width others more))
    (operator = .intEqual →
      (truth = true ↔ filledLanes width numbers loaded = filledLanes width others more)) ∧
    (operator = .intNotEqual →
      (truth = true ↔ filledLanes width numbers loaded ≠ filledLanes width others more)) := by
  constructor
  · rintro rfl
    exact (verdict_intEqual lengths).trans (laneNumbers_eq_iff inRange moreInRange)
  · rintro rfl
    exact (verdict_intNotEqual lengths).trans
      (not_congr (laneNumbers_eq_iff inRange moreInRange))

end CompareOperator

namespace Builder

variable {builder middle after : Builder} {vector value result : Value} {width len : UInt32}
  {lane : Nat} {number : Int} {numbers : List Int}

/-- Numbers were inserted into the lanes of a vector from a lane on, in the current block. -/
structure Inserts (builder : Builder) (width : UInt32) (vector : Value) (lane : Nat)
    (numbers : List Int) (value : Value) (after : Builder) : Prop where
  hasTy : value.ty = vector.ty
  isOpen : after.function.finished = false
  current : after.current = builder.current
  runs : ∀ (environment : Environment) (origin : RunState) (facts : List (Value × Datum))
    (machine : Machine) (before behind : List Nat), before.length = lane →
    numbers.length ≤ behind.length →
    builder.Tracks environment origin (builder.here machine) facts →
    (vector, .lanes (before ++ behind)) ∈ facts →
    ∃ next, machine.Agrees next ∧ after.Tracks environment origin (after.here next)
      ((value, .lanes (before ++ laneNumbers width.toNat numbers behind)) :: facts)

namespace Inserts

theorem nil (isOpen : builder.function.finished = false) :
    builder.Inserts width vector lane [] vector builder where
  hasTy := rfl
  isOpen := isOpen
  current := rfl
  runs := by
    intro environment origin facts machine before behind _ _ tracks known
    exact ⟨machine, .refl machine, tracks.forget (List.cons_subset.mpr ⟨known, by simp⟩)⟩

theorem cons (first : builder.Inserts width vector lane [number] value middle)
    (others : middle.Inserts width value (lane + 1) numbers result after) :
    builder.Inserts width vector lane (number :: numbers) result after where
  hasTy := others.hasTy.trans first.hasTy
  isOpen := others.isOpen
  current := others.current.trans first.current
  runs := by
    intro environment origin facts machine before behind here fits tracks known
    obtain ⟨next, agrees, tracks⟩ := first.runs environment origin facts machine before behind here
      (Nat.le_trans (Nat.le_add_left ..) fits) tracks known
    have moved : before ++ laneNumbers width.toNat [number] behind =
        (before ++ [lowNumber width.toNat number]) ++ behind.drop 1 := by
      simp [laneNumbers]
    have whole : (before ++ [lowNumber width.toNat number]) ++
        laneNumbers width.toNat numbers (behind.drop 1) =
          before ++ laneNumbers width.toNat (number :: numbers) behind := by
      simp [laneNumbers]
    rw [moved] at tracks
    obtain ⟨last, later, tracks⟩ := others.runs environment origin _ next _ (behind.drop 1)
      (by simp [here]) (by simp at fits ⊢; omega) tracks (.head _)
    rw [whole] at tracks
    exact ⟨last, agrees.trans later, tracks.forget (List.cons_subset_cons _ (by simp))⟩

end Inserts

end Builder

namespace Build

open Builder

variable {builder : Builder} {vector slot : Value} {width len : UInt32} {lane : Nat}
  {literal : Literal} {literals : List Literal} {number : Int} {numbers : List Int}

theorem insertOperand_inserts (isOpen : builder.function.finished = false)
    (vectorTy : vector.ty = .vector len (.int width)) (narrow : width.toNat ≤ 64)
    (stands : literal.integer? = some number) (bound : lane < 2 ^ 32) :
    Succeeds (insertOperand vector literal (.ofNat lane)) builder fun value after =>
      builder.Inserts width vector lane [number] value after := by
  have resolved : Operand.resolve (.int width) literal =
      .ok (.constant (.integer (.int width) (lowBits number))) := by
    rw [Operand.resolve, Literal.toConstant_int stands narrow]
    rfl
  have index : (UInt32.ofNat lane).toNat = lane := UInt32.toNat_ofNat_of_lt' bound
  simp only [insertOperand, expectVector, vectorTy, pure_bind, resolved, accept]
  refine (insertElement_appends isOpen vectorTy rfl).mono ?_ fun _ _ never => never
  intro value after appends
  refine ⟨appends.hasTy.trans vectorTy.symm, appends.isOpen isOpen, appends.current, ?_⟩
  intro environment origin facts machine before behind here fits tracks known
  have content := machine.value?_integer environment width (lowBits number)
  rw [lowNumber_lowBits narrow] at content
  have inside : (UInt32.ofNat lane).toNat < (before ++ behind).length := by
    rw [index, List.length_append]
    exact here ▸ Nat.lt_add_of_pos_right fits
  have inserted := tracks.insertElement appends (tracks.value? known) content inside
  have filled : (before ++ behind).set (UInt32.ofNat lane).toNat (lowNumber width.toNat number) =
      before ++ laneNumbers width.toNat [number] behind := by
    obtain ⟨old, rest, rfl⟩ := List.exists_cons_of_length_pos fits
    rw [index, ← here, List.set_append_right _ _ (Nat.le_refl _), Nat.sub_self]
    rfl
  exact ⟨_, machine.agrees_set .., filled ▸ inserted⟩

/-- Literals go into consecutive lanes. -/
theorem insertOperands_inserts (isOpen : builder.function.finished = false)
    (vectorTy : vector.ty = .vector len (.int width)) (narrow : width.toNat ≤ 64)
    (integers : literals.map Literal.integer? = numbers.map some)
    (bound : lane + numbers.length ≤ 2 ^ 32) :
    Succeeds (insertOperands vector lane (literals.map .literal)) builder fun value after =>
      builder.Inserts width vector lane numbers value after := by
  induction literals generalizing builder vector lane numbers with
  | nil =>
    obtain rfl : numbers = [] := List.map_eq_nil_iff.mp integers.symm
    exact Inserts.nil isOpen
  | cons literal literals ih =>
    obtain ⟨number, others, rfl, stands, integers⟩ := List.map_eq_cons_iff.mp integers.symm
    rw [List.length_cons] at bound
    refine (insertOperand_inserts isOpen vectorTy narrow stands.symm (by omega)).bind ?_
    intro middleVector middle first
    refine (ih first.isOpen (first.hasTy.trans vectorTy) integers.symm (by omega)).mono ?_
      fun _ _ never => never
    exact fun value after rest => first.cons rest

end Build

namespace Builder

/-- A vector of integers was loaded from a slot and filled, in the current block. -/
structure Fills (builder : Builder) (len width : UInt32) (slot : Value) (numbers : List Int)
    (value : Value) (after : Builder) : Prop where
  hasTy : value.ty = .vector len (.int width)
  current : after.current = builder.current
  runs : ∀ (environment : Environment) (origin : RunState) (facts : List (Value × Datum))
    (machine : Machine) (address : Nat) (loaded : List Nat), numbers.length ≤ loaded.length →
    builder.Tracks environment origin (builder.here machine) facts →
    (slot, .number address) ∈ facts →
    machine.memory.load? environment.layout (.vector len (.int width)) address =
      some (.lanes loaded) →
    ∃ next, machine.Agrees next ∧ after.Tracks environment origin (after.here next)
      ((value, .lanes (laneNumbers width.toNat numbers loaded)) :: facts)

/-- A run over two fillings, the second one behind the first one. -/
theorem Fills.pair {builder filled both : Builder} {len width : UInt32}
    {left right first second : Value} {leftNumbers rightNumbers : List Int}
    {leftLoaded rightLoaded : List Nat} {environment : Environment} {origin : RunState}
    {facts : List (Value × Datum)} {machine : Machine} {leftAddress rightAddress : Nat}
    (leftFills : builder.Fills len width left leftNumbers first filled)
    (rightFills : filled.Fills len width right rightNumbers second both)
    (leftFits : leftNumbers.length ≤ leftLoaded.length)
    (rightFits : rightNumbers.length ≤ rightLoaded.length)
    (tracks : builder.Tracks environment origin (builder.here machine) facts)
    (leftAt : (left, .number leftAddress) ∈ facts) (rightAt : (right, .number rightAddress) ∈ facts)
    (leftLoads : machine.memory.load? environment.layout (.vector len (.int width)) leftAddress =
      some (.lanes leftLoaded))
    (rightLoads : machine.memory.load? environment.layout (.vector len (.int width)) rightAddress =
      some (.lanes rightLoaded)) :
    ∃ next, machine.Agrees next ∧ both.Tracks environment origin (both.here next)
      ((second, .lanes (laneNumbers width.toNat rightNumbers rightLoaded)) ::
        (first, .lanes (laneNumbers width.toNat leftNumbers leftLoaded)) :: facts) := by
  obtain ⟨middle, agrees, tracks⟩ := leftFills.runs environment origin facts machine leftAddress
    leftLoaded leftFits tracks leftAt leftLoads
  have unchanged := agrees.memory ▸ rightLoads
  obtain ⟨next, later, tracks⟩ := rightFills.runs environment origin _ middle rightAddress
    rightLoaded rightFits tracks (.tail _ rightAt) unchanged
  exact ⟨next, agrees.trans later, tracks⟩

/-- A slot of a vector of integers, and integer literals for the first of its lanes. -/
structure MayFill (builder : Builder) (len width : UInt32) (slot : Value) (literals : List Literal)
    (numbers : List Int) : Prop where
  pointer : slot.ty = .ptr (.vector len (.int width))
  below : slot.Below builder.nextId
  integers : literals.map Literal.integer? = numbers.map some
  fits : numbers.length ≤ len.toNat

end Builder

namespace Build

open Builder

variable {builder : Builder} {slot : Value} {width len : UInt32} {literals : List Literal}
  {numbers : List Int}

theorem fillVector_fills (isOpen : builder.function.finished = false)
    (power : (builder.layout.alignOf (.vector len (.int width))).isPowerOfTwo)
    (narrow : width.toNat ≤ 64) (may : builder.MayFill len width slot literals numbers) :
    Succeeds (fillVector slot (literals.map .literal)) builder fun value after =>
      builder.Fills len width slot numbers value after := by
  have bound : 0 + numbers.length ≤ 2 ^ 32 := by
    have fits := may.fits
    have small := len.toNat_lt
    omega
  refine (load_appends isOpen may.pointer power).bind ?_
  rintro vector middle ⟨align, _, loads⟩
  refine (insertOperands_inserts (loads.isOpen isOpen) loads.hasTy narrow may.integers bound).mono
    ?_ fun _ _ never => never
  intro value after inserts
  refine ⟨inserts.hasTy.trans loads.hasTy, inserts.current.trans loads.current, ?_⟩
  intro environment origin facts machine address loaded fits tracks known content
  have tracks := tracks.load loads (tracks.value? known) content
  obtain ⟨next, agrees, tracks⟩ :=
    inserts.runs environment origin _ _ [] loaded rfl fits tracks (.head _)
  refine ⟨next, (machine.agrees_set ..).trans agrees, ?_⟩
  exact tracks.forget (List.cons_subset_cons _ (by simp))

end Build

namespace Operation

open Builder

variable {builder : Builder} {len width : UInt32}

theorem exists_fills {slot : Value} {literals : List Literal} {numbers : List Int}
    (ready : builder.Ready)
    (power : (builder.layout.alignOf (.vector len (.int width))).isPowerOfTwo)
    (narrow : width.toNat ≤ 64) (may : builder.MayFill len width slot literals numbers) :
    ∃ value after, (fillVector slot (literals.map .literal)).step builder =
        (.ok (.value value), after) ∧
      builder.Fills len width slot numbers value after ∧ after.Ready ∧
      after.layout = builder.layout ∧ builder.nextId ≤ after.nextId := by
  have fills := Build.fillVector_fills ready.isOpen power narrow may
  obtain ⟨value, after, ran, fills⟩ := fills.exists_run
  have stepped : (fillVector slot (literals.map .literal)).step builder =
      (.ok (.value value), after) := Build.run_map Answer.value ran
  have effects := ((fillVector slot (literals.map .literal)).step_effects ready).1
  have layout := (fillVector slot (literals.map .literal)).step_layout ready
  rw [stepped] at effects layout
  exact ⟨value, after, stepped, fills, effects.ready ready, layout,
    effects.grows.instructions.length_le⟩

/-- Two vectors are loaded, filled with integer literals and compared, all in one block. Wherever
this code is run, the lanes in front have the literals as signed numbers of the width of the lanes,
the others have what was loaded; and the comparisons for equality and for difference come to whether
the vectors agree in all lanes. -/
theorem compareVector_fillVector (reachable : builder.Reachable) (nonempty : 1 ≤ len.toNat)
    (narrow : width.toNat ≤ 64)
    (power : (builder.layout.alignOf (.vector len (.int width))).isPowerOfTwo)
    {left right : Value} {leftLiterals rightLiterals : List Literal}
    {leftNumbers rightNumbers : List Int}
    (leftMay : builder.MayFill len width left leftLiterals leftNumbers)
    (rightMay : builder.MayFill len width right rightLiterals rightNumbers)
    (operator : CompareOperator) :
    ∃ first second value filled both after,
      (fillVector left (leftLiterals.map .literal)).step builder = (.ok (.value first), filled) ∧
      (fillVector right (rightLiterals.map .literal)).step filled = (.ok (.value second), both) ∧
      (Operation.compareVector operator first second).step both = (.ok (.value value), after) ∧
      after.current = builder.current ∧
      ∀ (environment : Environment) (machine : Machine) (leftAddress rightAddress : Nat),
        environment.layout = builder.layout →
        machine.value? environment left = some (.number leftAddress) →
        machine.value? environment right = some (.number rightAddress) →
        ∃ lefts rights truth next, machine.Agrees next ∧
          machine.HasFilled environment next len width leftAddress leftNumbers first lefts ∧
          machine.HasFilled environment next len width rightAddress rightNumbers second rights ∧
          next.value? environment value = some (.bit truth) ∧
          (operator = .intEqual → (truth = true ↔ lefts = rights)) ∧
          (operator = .intNotEqual → (truth = true ↔ lefts ≠ rights)) ∧
          ∀ final : FunctionDef, after.function.KeptIn final →
            final.Reaches environment (builder.here machine) (after.here next) := by
  obtain ⟨first, filled, firstStep, firstFills, filledReady, filledLayout, later⟩ :=
    exists_fills reachable.ready power narrow leftMay
  have rightFurther : filled.MayFill len width right rightLiterals rightNumbers :=
    { rightMay with below := rightMay.below.mono later }
  obtain ⟨second, both, secondStep, secondFills, bothReady, bothLayout, _⟩ :=
    exists_fills filledReady (filledLayout ▸ power) narrow rightFurther
  have folds := Build.compareVector_folds bothReady operator firstFills.hasTy secondFills.hasTy
    nonempty
  obtain ⟨value, after, ran, new, lanes, folds⟩ := folds.exists_run
  obtain ⟨_, _, _, writes⟩ := folds.writes
  refine ⟨first, second, value, filled, both, after, firstStep, secondStep,
    Build.run_map Answer.value ran,
    writes.current.trans (secondFills.current.trans firstFills.current), ?_⟩
  intro environment machine leftAddress rightAddress layout leftAt rightAt
  obtain ⟨leftLoaded, leftLoads, leftLength, leftRange⟩ :=
    machine.memory.exists_lanes environment.layout len width leftAddress
  obtain ⟨rightLoaded, rightLoads, rightLength, rightRange⟩ :=
    machine.memory.exists_lanes environment.layout len width rightAddress
  have known : ∀ fact ∈ [(left, Datum.number leftAddress), (right, Datum.number rightAddress)],
      fact.1.Below builder.nextId ∧ machine.value? environment fact.1 = some fact.2 := by
    simp [leftMay.below, rightMay.below, leftAt, rightAt]
  have tracks : builder.Tracks environment (builder.here machine) (builder.here machine) _ :=
    .start reachable.ready layout.symm known
  have leftFits : leftNumbers.length ≤ leftLoaded.length := leftLength ▸ leftMay.fits
  have rightFits : rightNumbers.length ≤ rightLoaded.length := rightLength ▸ rightMay.fits
  have leftWhole : (laneNumbers width.toNat leftNumbers leftLoaded).length = len.toNat :=
    (length_laneNumbers leftFits).trans leftLength
  have rightWhole : (laneNumbers width.toNat rightNumbers rightLoaded).length = len.toNat :=
    (length_laneNumbers rightFits).trans rightLength
  obtain ⟨middle, agrees, tracks⟩ := firstFills.pair secondFills leftFits rightFits tracks (.head _)
    (.tail _ (.head _)) leftLoads rightLoads
  obtain ⟨next, later, tracks⟩ := (Build.compareVector_tracks tracks operator firstFills.hasTy
    secondFills.hasTy nonempty (tracks.value? (.tail _ (.head _))) (tracks.value? (.head _))
    leftWhole rightWhole).of_run ran
  obtain ⟨whenEqual, whenDifferent⟩ :=
    operator.verdict_filled (leftWhole.trans rightWhole.symm) leftRange rightRange
  refine ⟨_, _, _, next, agrees.trans later,
    ⟨leftLoaded, _, leftLoads, leftLength, rfl, tracks.value? (.tail _ (.tail _ (.head _))),
      map_signedNumber_laneNumbers ..⟩,
    ⟨rightLoaded, _, rightLoads, rightLength, rfl, tracks.value? (.tail _ (.head _)),
      map_signedNumber_laneNumbers ..⟩,
    tracks.value? (.head _), whenEqual, whenDifferent, tracks.leads⟩

/-- Three lanes of four are replaced, in one vector by a number that is too large for a lane. -/
theorem compareVector_fillVector_of_large_literal :
    ∃ (builder filled both after : Builder) (left right first second value : Value)
      (environment : Environment) (machine next : Machine),
      builder.Reachable ∧ left.ty = .ptr (.vector 4 .i32) ∧ right.ty = .ptr (.vector 4 .i32) ∧
      (fillVector left [Literal.int 1, Literal.int (-2), Literal.int 3]).step builder =
        (.ok (.value first), filled) ∧
      (fillVector right [Literal.bool true, Literal.int (-2), Literal.bigInt (2 ^ 32 + 3)]).step
        filled = (.ok (.value second), both) ∧
      (Operation.compareVector .intEqual first second).step both = (.ok (.value value), after) ∧
      next.value? environment value = some (.bit true) ∧
      after.function.Reaches environment (builder.here machine) (after.here next) := by
  let slot : Ty := .ptr (.vector 4 .i32)
  let left : Value := .parameter ⟨0, "arg_1", slot⟩
  let right : Value := .parameter ⟨1, "arg_2", slot⟩
  let environment : Environment :=
    ⟨.x86_64, fun _ => none, fun index => [.number 16, .number 32][index]?, fun _ _ _ _ => false⟩
  let machine : Machine := ⟨fun _ => 0, fun _ => none, 0, ⟨0⟩⟩
  have reachable := Builder.Reachable.run (.fresh "f" ⟨.void, [slot, slot], false⟩)
    (Builder.run_start rfl .x86_64) [.nextParameter, .nextParameter]
  have leftMay (builder : Builder) :
      builder.MayFill 4 32 left [.int 1, .int (-2), .int 3] [1, -2, 3] :=
    ⟨rfl, trivial, rfl, by decide⟩
  have rightMay (builder : Builder) : builder.MayFill 4 32 right
      [.bool true, .int (-2), .bigInt (2 ^ 32 + 3)] [1, -2, 2 ^ 32 + 3] :=
    ⟨rfl, trivial, rfl, by decide⟩
  obtain ⟨first, second, value, filled, both, after, firstStep, secondStep, compareStep, _, runs⟩ :=
    compareVector_fillVector reachable (by decide) (by decide) (DataLayout.x86_64_power _)
      (leftMay _) (rightMay _) .intEqual
  obtain ⟨lefts, rights, truth, next, _, leftFilled, rightFilled, content, equal, _, reaches⟩ :=
    runs environment machine 16 32 rfl rfl rfl
  obtain ⟨leftLoaded, _, leftLoads, _, rfl, _⟩ := leftFilled
  obtain ⟨rightLoaded, _, rightLoads, _, rfl, _⟩ := rightFilled
  cases leftLoads
  cases rightLoads
  obtain rfl : truth = true := (equal rfl).mpr (by decide)
  exact ⟨_, filled, both, after, left, right, first, second, value, environment, machine, next,
    reachable, rfl, rfl, firstStep, secondStep, compareStep, content, reaches _ (.refl _)⟩

end Operation

end IrAssembly
