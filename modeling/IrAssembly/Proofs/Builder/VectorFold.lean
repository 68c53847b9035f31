import IrAssembly.Builder.Operation
import IrAssembly.Proofs.Execution.Instructions

/-! The comparison of two vectors, folded to one bit: what is appended for it, lane by lane, and
what a run of it comes to. -/

namespace IrAssembly

/-- Whether vectors compare, given whether their lanes do. -/
def CompareOperator.verdict (operator : CompareOperator) (lanes : List Bool) : Bool :=
  if operator.isInequality then lanes.any id else lanes.all id

theorem CompareOperator.isInequality_iff {operator : CompareOperator} :
    operator.isInequality = true ↔
      operator ∈ [intNotEqual, fpOrderedNotEqual, fpUnorderedNotEqual] := by
  cases operator <;> decide

/-- The operator that folds lanes takes one more lane into account. -/
theorem CompareOperator.combine_verdict (operator : CompareOperator) {lanes : List Bool}
    {lane : Nat} {truth : Bool} (found : lanes[lane]? = some truth) (bits : Nat) :
    (Build.laneOperator operator).combine? bits (operator.verdict (lanes.take lane)).toNat
      truth.toNat = some (operator.verdict (lanes.take (lane + 1))).toNat := by
  have further : lanes.take (lane + 1) = lanes.take lane ++ [truth] := by
    rw [List.take_add_one, found, Option.toList_some]
  unfold Build.laneOperator verdict
  rw [further]
  split
  · rw [List.any_append]
    cases (lanes.take lane).any id <;> cases truth <;> rfl
  · rw [List.all_append]
    cases (lanes.take lane).all id <;> cases truth <;> rfl

namespace Builder

/-- The comparison of two vectors was appended, and so much of its fold that the first lanes are
taken into account: the comparison, then the first lane, then for each further lane its extraction
and the fold, which takes the previous result as its left operand. -/
structure FoldsLanes (operator : CompareOperator) (lhs rhs : Value) (start : Builder)
    (count : Nat) (new : List Instruction) (lanes folded : Value) (builder : Builder) : Prop where
  writes : ∃ made, lanes ∈ made ∧ folded ∈ made ∧ start.Writes [lhs, rhs] made new builder
  length : new.length = 2 * count
  made : ∃ name len, lanes = .result ⟨start.nextId, name, .vector len .i1⟩
  compared : ∃ slot left right, new[0]? = some (.compare slot operator left right) ∧
    builder.function.symbol? left = some lhs ∧ builder.function.symbol? right = some rhs
  extracted : ∀ lane < count, ∃ slot vector index,
    new[max 1 (2 * lane)]? = some (.extractElement slot vector index) ∧
    builder.function.symbol? vector = some lanes ∧
    builder.function.symbol? index = some (Build.laneIndex (.ofNat lane))
  joined : ∀ lane, 0 < lane → lane < count → ∃ slot left right previous element,
    new[2 * lane + 1]? = some (.binary slot (Build.laneOperator operator) [] left right) ∧
    builder.function.symbol? left =
      some (.result ⟨start.nextId + (2 * lane - 1), previous, .i1⟩) ∧
    builder.function.symbol? right = some (.result ⟨start.nextId + 2 * lane, element, .i1⟩)
  folded : ∃ name, folded = .result ⟨start.nextId + (2 * count - 1), name, .i1⟩

variable {operator : CompareOperator} {lhs rhs : Value} {start builder middle after : Builder}
  {count : Nat} {new : List Instruction} {lanes folded element value : Value} {len : UInt32}

namespace FoldsLanes

theorem nextId (folds : FoldsLanes operator lhs rhs start count new lanes folded builder) :
    builder.nextId = start.nextId + 2 * count := by
  obtain ⟨_, _, _, writes⟩ := folds.writes
  rw [writes.nextId, folds.length]

/-- The comparison and the extraction of the first lane. -/
theorem first (ready : start.Ready)
    (compares : start.Appends [lhs, rhs] (fun slot => .compare slot operator
      start.function.symbols.length (start.function.symbols.length + 1)) (.vector len .i1)
      lanes middle)
    (extracts : middle.Appends [lanes, Build.laneIndex 0] (fun slot => .extractElement slot
      middle.function.symbols.length (middle.function.symbols.length + 1)) .i1 folded after) :
    ∃ new, FoldsLanes operator lhs rhs start 1 new lanes folded after := by
  have nothing : start.Writes [lhs, rhs] [] [] start := .nothing ready
  have compared := compares.writes nothing
    (by simp only [List.forall_mem_cons]; exact ⟨.listed (by simp), .listed (by simp), by simp⟩)
    (fun _ => rfl) fun _ => rfl
  have written := extracts.writes compared
    (by simp only [List.forall_mem_cons]; exact ⟨.listed (by simp), .constant _, by simp⟩)
    (fun _ => rfl) fun _ => rfl
  have vectors := compares.symbols
  have lane := extracts.symbols
  refine ⟨_, ⟨_, by simp, by simp, written⟩, rfl, ⟨_, _, compares.value⟩, ?_, ?_, ?_, ?_⟩
  · exact ⟨_, _, _, rfl, extracts.grows.symbol? vectors.head,
      extracts.grows.symbol? vectors.tail.head⟩
  · intro other bound
    obtain rfl : other = 0 := Nat.lt_one_iff.mp bound
    exact ⟨_, _, _, rfl, lane.head, lane.tail.head⟩
  · intro other positive bound
    omega
  · refine ⟨middle.resultName, ?_⟩
    rw [extracts.value, compared.nextId]
    rfl

/-- One more lane. -/
theorem next (folds : FoldsLanes operator lhs rhs start count new lanes folded builder)
    (positive : 0 < count)
    (extracts : builder.Appends [lanes, Build.laneIndex (.ofNat count)] (fun slot =>
      .extractElement slot builder.function.symbols.length
        (builder.function.symbols.length + 1)) .i1 element middle)
    (joins : middle.Appends [folded, element] (fun slot => .binary slot
      (Build.laneOperator operator) [] middle.function.symbols.length
      (middle.function.symbols.length + 1)) .i1 value after) :
    ∃ new, FoldsLanes operator lhs rhs start (count + 1) new lanes value after := by
  obtain ⟨made, lanesMade, foldedMade, writes⟩ := folds.writes
  have extracted := extracts.writes writes
    (by
      simp only [List.forall_mem_cons]
      exact ⟨.listed (by simp [lanesMade]), .constant _, by simp⟩)
    (fun _ => rfl) fun _ => rfl
  have written := joins.writes extracted
    (by
      simp only [List.forall_mem_cons]
      exact ⟨.listed (by simp [foldedMade]), .listed (by simp), by simp⟩)
    (fun _ => rfl) fun _ => rfl
  have grows := extracts.grows.trans joins.grows
  have length := folds.length
  have lane := extracts.symbols
  have both := joins.symbols
  have kept {place : Nat} (before : place < 2 * count) (extract fold : Instruction) :
      (new ++ [extract] ++ [fold])[place]? = new[place]? := by
    rw [List.append_assoc, List.getElem?_append_left (by omega)]
  have added (extract fold : Instruction) :
      (new ++ [extract] ++ [fold])[2 * count]? = some extract ∧
        (new ++ [extract] ++ [fold])[2 * count + 1]? = some fold := by
    rw [← length]
    simp
  refine ⟨_, ⟨_, by simp [lanesMade], by simp, written⟩, by simp [length]; omega, folds.made,
    ?_, ?_, ?_, ?_⟩
  · obtain ⟨slot, left, right, here, first, second⟩ := folds.compared
    exact ⟨slot, left, right, (kept (by omega) ..).trans here, grows.symbol? first,
      grows.symbol? second⟩
  · intro other bound
    rcases Nat.lt_succ_iff_lt_or_eq.mp bound with old | rfl
    · obtain ⟨slot, vector, index, here, first, second⟩ := folds.extracted other old
      exact ⟨slot, vector, index, (kept (by omega) ..).trans here, grows.symbol? first,
        grows.symbol? second⟩
    · have place : max 1 (2 * other) = 2 * other := by omega
      rw [place]
      exact ⟨⟨builder.resultName, .i1⟩, _, _, (added ..).1, joins.grows.symbol? lane.head,
        joins.grows.symbol? lane.tail.head⟩
  · intro other inner bound
    rcases Nat.lt_succ_iff_lt_or_eq.mp bound with old | rfl
    · obtain ⟨slot, left, right, previous, name, here, first, second⟩ :=
        folds.joined other inner old
      exact ⟨slot, left, right, previous, name, (kept (by omega) ..).trans here,
        grows.symbol? first, grows.symbol? second⟩
    · obtain ⟨previous, isFolded⟩ := folds.folded
      refine ⟨⟨middle.resultName, .i1⟩, _, _, previous, builder.resultName, (added ..).2,
        both.head.trans (congrArg some isFolded), both.tail.head.trans ?_⟩
      rw [extracts.value, folds.nextId]
  · refine ⟨middle.resultName, ?_⟩
    have offset : 2 * (count + 1) - 1 = 2 * count + 1 := by omega
    rw [joins.value, extracted.nextId, List.length_append, length, List.length_singleton, offset]

end FoldsLanes

end Builder

namespace Build

open Builder

variable {operator : CompareOperator} {lhs rhs lanes folded : Value} {start builder : Builder}
  {count remaining : Nat} {new : List Instruction} {element : Ty} {len : UInt32}

theorem foldLanes_folds (positive : 0 < count)
    (folds : FoldsLanes operator lhs rhs start count new lanes folded builder) :
    Succeeds (foldLanes (laneOperator operator) lanes remaining count folded) builder
      fun value after => ∃ new,
        FoldsLanes operator lhs rhs start (count + remaining) new lanes value after := by
  induction remaining generalizing builder count new folded with
  | zero => exact ⟨new, folds⟩
  | succ remaining ih =>
    obtain ⟨_, _, _, writes⟩ := folds.writes
    obtain ⟨_, len, isLanes⟩ := folds.made
    obtain ⟨_, isFolded⟩ := folds.folded
    have lanesTy : lanes.ty = .vector len .i1 := isLanes ▸ rfl
    have bit : folded.ty = .i1 := isFolded ▸ rfl
    refine (extractElement_appends writes.ready.isOpen lanesTy).bind fun lane middle extracts => ?_
    have isOpen := extracts.isOpen writes.ready.isOpen
    refine (binary_appends isOpen bit extracts.hasTy).bind fun value after joins => ?_
    obtain ⟨_, further⟩ := folds.next positive extracts joins
    rw [Nat.add_comm remaining 1, ← Nat.add_assoc]
    exact ih (Nat.succ_pos _) further

/-! Runs -/

variable {environment : Environment} {origin : RunState} {facts : List (Value × Datum)}
  {machine : Machine} {truths : List Bool}

/-- Lane by lane, the folded value is the verdict of the lanes so far. -/
theorem foldLanes_tracks (tracks : builder.Tracks environment origin (builder.here machine) facts)
    (lanesTy : lanes.ty = .vector len .i1) (bit : folded.ty = .i1)
    (lanesKnown : (lanes, .lanes (truths.map Bool.toNat)) ∈ facts)
    (foldedKnown : (folded, .bit (operator.verdict (truths.take count))) ∈ facts)
    (whole : count + remaining = truths.length) (bound : truths.length < 2 ^ 32) :
    Succeeds (foldLanes (laneOperator operator) lanes remaining count folded) builder
      fun value after => ∃ next, machine.Agrees next ∧
        after.Tracks environment origin (after.here next)
          ((value, .bit (operator.verdict truths)) :: facts) := by
  -- each lane adds a machine and two facts, so all that the loop changes is generalized
  induction remaining generalizing builder machine facts count folded with
  | zero =>
    have all : truths.take count = truths := List.take_of_length_le (Nat.le_of_eq whole.symm)
    rw [all] at foldedKnown
    exact ⟨machine, .refl machine, tracks.forget (List.cons_subset.mpr ⟨foldedKnown, by simp⟩)⟩
  | succ remaining ih =>
    have inside : count < truths.length := by omega
    have index : (UInt32.ofNat count).toNat = count :=
      UInt32.toNat_ofNat_of_lt' (Nat.lt_trans inside bound)
    have here : truths[count]? = some truths[count] := List.getElem?_eq_getElem inside
    have lane : (truths.map Bool.toNat)[(UInt32.ofNat count).toNat]? =
        some truths[count].toNat := by
      rw [index, List.getElem?_map, here, Option.map_some]
    refine (extractElement_appends tracks.ready.isOpen lanesTy).bind
      fun element middle extracts => ?_
    have extracted := tracks.extractElement extracts (tracks.value? lanesKnown) lane
    refine (binary_appends extracted.ready.isOpen bit extracts.hasTy).bind
      fun value after joins => ?_
    have joined := extracted.binary joins (extracted.value? (.tail _ foldedKnown))
      (extracted.value? (.head _)) (operator.combine_verdict here _)
    refine (ih joined joins.hasTy (.tail _ (.tail _ lanesKnown)) (.head _) (by omega)).mono ?_
      fun _ _ never => never
    rintro result last ⟨next, agrees, tracks⟩
    refine ⟨next, ((machine.agrees_set ..).trans (Machine.agrees_set ..)).trans agrees, ?_⟩
    exact tracks.forget (List.cons_subset_cons _ (by simp))

/-- The operands are values, and the lanes are folded in the type of the comparison. -/
theorem compareVector_eq (operator : CompareOperator) {element : Ty}
    (left : lhs.ty = .vector len element) (right : rhs.ty = .vector len element)
    {done : Value → Builder → Prop} (isOpen : builder.function.finished = false)
    (folds : ∀ lanes middle, builder.Appends [lhs, rhs] (fun slot => .compare slot operator
        builder.function.symbols.length (builder.function.symbols.length + 1)) (.vector len .i1)
        lanes middle →
      ∀ first later, middle.Appends [lanes, laneIndex 0] (fun slot => .extractElement slot
        middle.function.symbols.length (middle.function.symbols.length + 1)) .i1 first later →
      Succeeds (foldLanes (laneOperator operator) lanes (len.toNat - 1) 1 first) later done) :
    Succeeds (compareVector operator lhs rhs) builder done := by
  refine (compare_appends isOpen left right).bind fun lanes middle compares => ?_
  have lanesTy : lanes.ty = .vector len .i1 := compares.hasTy
  rw [lanesTy]
  refine (extractElement_appends (compares.isOpen isOpen) lanesTy).bind ?_
  exact fun first later extracts => folds lanes middle compares first later extracts

theorem compareVector_folds (ready : builder.Ready) (operator : CompareOperator) {element : Ty}
    (left : lhs.ty = .vector len element) (right : rhs.ty = .vector len element)
    (nonempty : 1 ≤ len.toNat) :
    Succeeds (compareVector operator lhs rhs) builder fun value after =>
      ∃ new lanes, FoldsLanes operator lhs rhs builder len.toNat new lanes value after := by
  refine compareVector_eq operator left right ready.isOpen ?_
  intro lanes middle compares first later extracts
  obtain ⟨new, folds⟩ := FoldsLanes.first ready compares extracts
  have whole : 1 + (len.toNat - 1) = len.toNat := Nat.add_sub_cancel' nonempty
  refine (foldLanes_folds Nat.zero_lt_one folds).mono ?_ fun _ _ never => never
  rintro value after ⟨new, folds⟩
  exact ⟨new, lanes, whole ▸ folds⟩

theorem compareVector_tracks
    (tracks : builder.Tracks environment origin (builder.here machine) facts)
    (operator : CompareOperator) {element : Ty} {lefts rights : List Nat}
    (left : lhs.ty = .vector len element) (right : rhs.ty = .vector len element)
    (nonempty : 1 ≤ len.toNat) (first : machine.value? environment lhs = some (.lanes lefts))
    (second : machine.value? environment rhs = some (.lanes rights))
    (leftLength : lefts.length = len.toNat) (rightLength : rights.length = len.toNat) :
    Succeeds (compareVector operator lhs rhs) builder fun value after =>
      ∃ next, machine.Agrees next ∧ after.Tracks environment origin (after.here next)
        ((value, .bit (operator.verdict
          (List.zipWith (operator.holds environment element) lefts rights))) :: facts) := by
  let truths := List.zipWith (operator.holds environment element) lefts rights
  have whole : truths.length = len.toNat := by
    rw [List.length_zipWith, leftLength, rightLength, Nat.min_self]
  have inside : 0 < truths.length := whole ▸ nonempty
  refine compareVector_eq operator left right tracks.ready.isOpen ?_
  intro lanes middle compares lane later extracts
  have compared := tracks.compareLanes compares first second
  have bits : List.zipWith (fun left right =>
      (operator.holds environment lhs.ty.lane left right).toNat) lefts rights =
        truths.map Bool.toNat := by
    rw [left, List.map_zipWith]
    rfl
  rw [bits] at compared
  have found : (truths.map Bool.toNat)[(0 : UInt32).toNat]? = some truths[0].toNat := by
    rw [List.getElem?_map]
    exact congrArg (Option.map Bool.toNat) (List.getElem?_eq_getElem inside)
  have extracted := compared.extractElement extracts (compared.value? (.head _)) found
  have alone : truths[0] = operator.verdict (truths.take 1) := by
    rw [List.take_one, List.head?_eq_getElem?, List.getElem?_eq_getElem inside]
    simp [CompareOperator.verdict]
  rw [alone] at extracted
  refine (foldLanes_tracks extracted compares.hasTy extracts.hasTy (.tail _ (.head _)) (.head _)
    (by omega) (whole ▸ len.toNat_lt)).mono ?_ fun _ _ never => never
  rintro value after ⟨next, agrees, tracks⟩
  refine ⟨next, ((machine.agrees_set ..).trans (Machine.agrees_set ..)).trans agrees, ?_⟩
  exact tracks.forget (List.cons_subset_cons _ (by simp))

end Build

namespace Operation

/-- Two vectors of one type are compared by one instruction, and its lanes are extracted and folded
in ascending order. Wherever this code is run, it comes to whether some pair of lanes compares, for
the predicates that hold of different operands, and to whether all pairs do for the others. -/
theorem compareVector_verdict {builder : Builder} (reachable : builder.Reachable)
    (operator : CompareOperator) {lhs rhs : Value} {len : UInt32} {element : Ty}
    (nonempty : 1 ≤ len.toNat) (left : lhs.ty = .vector len element)
    (right : rhs.ty = .vector len element) :
    ∃ new lanes value after,
      (Operation.compareVector operator lhs rhs).step builder = (.ok (.value value), after) ∧
      value.ty = .i1 ∧
      Builder.FoldsLanes operator lhs rhs builder len.toNat new lanes value after ∧
      ∀ (environment : Environment) (machine : Machine) (lefts rights : List Nat),
        environment.layout = builder.layout →
        lefts.length = len.toNat → rights.length = len.toNat →
        machine.value? environment lhs = some (.lanes lefts) →
        machine.value? environment rhs = some (.lanes rights) →
        let compared := List.zipWith (operator.holds environment element) lefts rights
        let verdict :=
          if operator ∈ [.intNotEqual, .fpOrderedNotEqual, .fpUnorderedNotEqual] then
            compared.any id
          else compared.all id
        ∃ next, machine.Agrees next ∧ next.value? environment value = some (.bit verdict) ∧
          ∀ final : FunctionDef, after.function.KeptIn final →
            final.Reaches environment (builder.here machine) (after.here next) := by
  have folds := Build.compareVector_folds reachable.ready operator left right nonempty
  obtain ⟨value, after, ran, new, lanes, folds⟩ := folds.exists_run
  have stepped : (Operation.compareVector operator lhs rhs).step builder =
      (.ok (.value value), after) := by
    refine Build.Ends.run_eq ?_
    rw [run, Build.ends_map, Build.Ends, ran]
    exact ⟨rfl, rfl⟩
  have bit : value.ty = .i1 := by
    obtain ⟨name, isResult⟩ := folds.folded
    rw [isResult]
    rfl
  refine ⟨new, lanes, value, after, stepped, bit, folds, ?_⟩
  intro environment machine lefts rights layout leftLength rightLength first second
  have tracks : builder.Tracks environment (builder.here machine) (builder.here machine) [] :=
    .start reachable.ready layout.symm (by simp)
  obtain ⟨next, agrees, tracks⟩ := (Build.compareVector_tracks tracks operator left right nonempty
    first second leftLength rightLength).of_run ran
  refine ⟨next, agrees, ?_, tracks.leads⟩
  simp only [← CompareOperator.isInequality_iff]
  exact tracks.value? (.head _)

/-- One lane differs, and so do the vectors. -/
theorem compareVector_verdict_of_one_lane :
    ∃ (builder after : Builder) (lhs rhs value : Value) (environment : Environment)
      (machine next : Machine),
      builder.Reachable ∧ lhs.ty = .vector 4 .i32 ∧ rhs.ty = .vector 4 .i32 ∧
      machine.value? environment lhs = some (.lanes [1, 2, 3, 4]) ∧
      machine.value? environment rhs = some (.lanes [1, 2, 0, 4]) ∧
      (Operation.compareVector .intNotEqual lhs rhs).step builder = (.ok (.value value), after) ∧
      next.value? environment value = some (.bit true) ∧
      after.function.Reaches environment (builder.here machine) (after.here next) := by
  let lhs : Value := .parameter ⟨0, "arg_1", .vector 4 .i32⟩
  let rhs : Value := .parameter ⟨1, "arg_2", .vector 4 .i32⟩
  let environment : Environment :=
    ⟨.x86_64, fun _ => none, fun index => [.lanes [1, 2, 3, 4], .lanes [1, 2, 0, 4]][index]?,
      fun _ _ _ _ => false⟩
  let machine : Machine := ⟨fun _ => 0, fun _ => none, 0, ⟨0⟩⟩
  have reachable := Builder.Reachable.run
    (.fresh "f" ⟨.void, [.vector 4 .i32, .vector 4 .i32], false⟩)
    (Builder.run_start rfl .x86_64) [.nextParameter, .nextParameter]
  obtain ⟨_, _, value, after, stepped, _, _, runs⟩ := compareVector_verdict reachable .intNotEqual
    (by decide) (rfl : lhs.ty = .vector 4 .i32) (rfl : rhs.ty = .vector 4 .i32)
  obtain ⟨next, _, verdict, reaches⟩ :=
    runs environment machine [1, 2, 3, 4] [1, 2, 0, 4] rfl rfl rfl rfl rfl
  exact ⟨_, after, lhs, rhs, value, environment, machine, next, reachable, rfl, rfl,
    rfl, rfl, stepped, verdict, reaches _ (.refl _)⟩

end Operation

end IrAssembly
