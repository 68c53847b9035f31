import IrAssembly.Proofs.Builder.ArgumentCursor

/-! What the code of a fetch does when it is run. The run takes one of the two paths while both are
written, and it arrives behind the fetch with the argument and with the cursor moved on. -/

namespace IrAssembly

namespace Build

open Builder

variable {environment : Environment} {origin : RunState} {facts : List (Value × Datum)}
  {builder after : Builder} {machine : Machine} {list tagPointer offsetPointer offset : Value}
  {tag : Nat} {cursor : ArgumentCursor} {registers : RegisterClass} {ty : Ty}

/-- The run goes to the path that the cursor leaves. -/
theorem registersLeft_tracks (default : environment.layout = .x86_64)
    {onRegister onStack : BlockRef}
    (tracks : builder.Tracks environment origin (builder.here machine) facts)
    (inRegisters : RegisterClass.ofTy? ty = some registers) (isList : list.ty = .ptr .vaList)
    (listed : (list, .number tag) ∈ facts) (bound : tag + 24 ≤ 2 ^ 64)
    (holds : machine.memory.HoldsTag tag cursor) :
    Succeeds (registersLeft list registers onRegister onStack) builder
      fun (tagPointer, offsetPointer, offset) after => ∃ next,
        next.memory = machine.memory ∧ next.top = machine.top ∧ next.previous = builder.current ∧
        after.Tracks environment origin
          ⟨if cursor.Leaves registers then onRegister else onStack, 0, next⟩
          ((offset, .number (cursor registers.offset)) ::
            (offsetPointer, .number (tag + registers.offset.position)) ::
            (tagPointer, .number tag) :: facts) := by
  have counts := offsetTy_of_ofTy? inRegisters
  refine (vaListTag_appends tracks.ready.isOpen isList).bind fun tagPointer _ tags => ?_
  have tagged := tracks.vaListTag tags default isList (tracks.value? listed) (by omega)
  refine (vaListField_appends tagged.ready.isOpen tags.hasTy registers.offset).bind
    fun offsetPointer _ points => ?_
  have pointed := tagged.vaListField points default tags.hasTy (tagged.value? (.head _)) bound
  have isPointer := points.hasTy
  rw [counts] at isPointer
  refine (load_appends pointed.ready.isOpen isPointer
    (pointed.isPowerOfTwo_alignOf default _)).bind ?_
  rintro offset _ ⟨_, _, loads⟩
  have loaded := pointed.loadField (counts ▸ loads) default (pointed.value? (.head _)) holds
  refine (compareOperands_appends loaded.ready.isOpen loads.hasTy).bind fun left _ compares => ?_
  have compared := loaded.compare compares (loaded.value? (.head _))
    (RegisterClass.value?_limit _ _ inRegisters)
  refine (conditionalBranch_appends compared.ready.isOpen compares.hasTy).bind
    fun _ _ branches => ?_
  have chosen := compared.goEither branches (compared.value? (.head _))
  have current := compares.current.trans (loads.current.trans (points.current.trans tags.current))
  have left := chosen.forget (List.subset_cons_self ..)
  simp only [current, CompareOperator.holds, decide_eq_true_eq] at left
  refine ⟨_, ?_, ?_, ?_, left⟩ <;> rfl

theorem registerPath_tracks (default : environment.layout = .x86_64) {join : BlockRef}
    (tracks : builder.Tracks environment origin (builder.here machine) facts)
    (inRegisters : RegisterClass.ofTy? ty = some registers) (left : cursor.Leaves registers)
    (isTag : tagPointer.ty = .ptr .vaListTag) (isPointer : offsetPointer.ty = .ptr .i32)
    (isOffset : offset.ty = .i32) (tagKnown : (tagPointer, .number tag) ∈ facts)
    (pointerKnown : (offsetPointer, .number (tag + registers.offset.position)) ∈ facts)
    (offsetKnown : (offset, .number (cursor registers.offset)) ∈ facts)
    (bound : tag + 24 ≤ 2 ^ 64) (holds : machine.memory.HoldsTag tag cursor) :
    Succeeds (registerPath tagPointer offsetPointer offset registers ty join) builder
      fun address after => address.ty = .ptr ty ∧ ∃ next, machine.Spares tag next ∧
        next.memory.HoldsTag tag (cursor.pastRegister registers) ∧
        next.previous = builder.current ∧
        after.Tracks environment origin ⟨join, 0, next⟩
          ((address, .number (cursor.registerSlot registers)) :: facts) := by
  have counts := offsetTy_of_ofTy? inRegisters
  refine (vaListField_appends tracks.ready.isOpen isTag .saveArea).bind
    fun areaPointer _ points => ?_
  have pointed := tracks.vaListField points default isTag (tracks.value? tagKnown) bound
  refine (load_appends pointed.ready.isOpen points.hasTy
    (pointed.isPowerOfTwo_alignOf default _)).bind ?_
  rintro area _ ⟨_, _, loads⟩
  have loaded := pointed.loadField loads default (pointed.value? (.head _)) holds
  refine (elementPointer_appends loaded.ready.isOpen loads.hasTy rfl).bind fun slot _ moves => ?_
  have moved := loaded.bytes moves default loads.hasTy (loaded.value? (.head _))
    (loaded.value? (.tail _ (.tail _ offsetKnown)))
  rw [isOffset, cursor.registerSlot_eq inRegisters left] at moved
  refine (cast_appends moved.ready.isOpen).bind fun address _ casts => ?_
  have reached := moved.bitCast casts (moved.value? (.head _))
  refine (binaryOperands_appends reached.ready.isOpen isOffset).bind fun further _ adds => ?_
  have added := reached.binary adds
    (reached.value? (.tail _ (.tail _ (.tail _ (.tail _ offsetKnown)))))
    (RegisterClass.value?_step _ _ inRegisters) rfl
  rw [Succeeds, ends_bind, ends_layout]
  refine (storeOperand_appends added.ready.isOpen isPointer adds.hasTy
    (added.isPowerOfTwo_alignOf default _)).bind ?_
  rintro _ _ ⟨_, _, stores⟩
  have stored := added.storeField stores default (adds.hasTy.trans counts.symm)
    (added.value? (.tail _ (.tail _ (.tail _ (.tail _ (.tail _ pointerKnown))))))
    (added.value? (.head _))
  refine (branch_appends stored.ready.isOpen).bind fun _ _ branches => ?_
  have gone := (stored.goTo branches).forget
    (List.subset_cons_of_subset _
      (List.cons_subset_cons _ (List.subset_append_right [_, _, _] facts)))
  have current := stores.current.trans (adds.current.trans (casts.current.trans
    (moves.current.trans (loads.current.trans points.current))))
  rw [current] at gone
  have fits : (cursor registers.offset + registers.stride) % 2 ^ 32 <
      256 ^ registers.offset.size := by
    rw [RegisterClass.size_of_ofTy? inRegisters]
    exact Nat.mod_lt _ (by decide)
  refine ⟨casts.hasTy, _, ?_, ?_, ?_, gone⟩
  · exact .of_write registers.offset rfl rfl
  · exact holds.write fits
  · rfl

theorem stackPath_tracks (default : environment.layout = .x86_64) {join : BlockRef}
    (tracks : builder.Tracks environment origin (builder.here machine) facts)
    (isTag : tagPointer.ty = .ptr .vaListTag) (tagKnown : (tagPointer, .number tag) ∈ facts)
    (bound : tag + 24 ≤ 2 ^ 64) (holds : machine.memory.HoldsTag tag cursor) :
    Succeeds (stackPath tagPointer ty join) builder
      fun address after => address.ty = .ptr ty ∧ ∃ next, machine.Spares tag next ∧
        next.memory.HoldsTag tag (cursor.pastStack stackSlotStep.toInt) ∧
        next.previous = builder.current ∧
        after.Tracks environment origin ⟨join, 0, next⟩
          ((address, .number (cursor .overflowArea)) :: facts) := by
  refine (vaListField_appends tracks.ready.isOpen isTag .overflowArea).bind
    fun pointer _ points => ?_
  have pointed := tracks.vaListField points default isTag (tracks.value? tagKnown) bound
  refine (load_appends pointed.ready.isOpen points.hasTy
    (pointed.isPowerOfTwo_alignOf default _)).bind ?_
  rintro overflow _ ⟨_, _, loads⟩
  have loaded := pointed.loadField loads default (pointed.value? (.head _)) holds
  refine (cast_appends loaded.ready.isOpen).bind fun address _ casts => ?_
  have reached := loaded.bitCast casts (loaded.value? (.head _))
  refine (elementPointer_appends reached.ready.isOpen loads.hasTy rfl).bind fun next _ moves => ?_
  have moved := reached.bytes moves default loads.hasTy (reached.value? (.tail _ (.head _)))
    (Machine.value?_constant32 _ _ stackSlotStep)
  have step : signedNumber (constant32 stackSlotStep).ty.numberBits
      (lowNumber 32 stackSlotStep.toInt) = stackSlotStep.toInt := by decide
  rw [step] at moved
  rw [Succeeds, ends_bind, ends_layout]
  refine (storeOperand_appends moved.ready.isOpen points.hasTy moves.hasTy
    (moved.isPowerOfTwo_alignOf default _)).bind ?_
  rintro _ _ ⟨_, _, stores⟩
  have isNext : next.ty = VaListField.ty .overflowArea := moves.hasTy
  have stored := moved.storeField stores default isNext
    (moved.value? (.tail _ (.tail _ (.tail _ (.head _))))) (moved.value? (.head _))
  refine (branch_appends stored.ready.isOpen).bind fun _ _ branches => ?_
  have gone := (stored.goTo branches).forget
    (List.subset_cons_of_subset _ (List.cons_subset_cons _ (List.subset_append_right [_, _] facts)))
  have current := stores.current.trans (moves.current.trans (casts.current.trans
    (loads.current.trans points.current)))
  rw [current] at gone
  refine ⟨casts.hasTy, _, ?_, ?_, ?_, gone⟩
  · exact .of_write .overflowArea rfl rfl
  · exact holds.write (lowNumber_lt 64 _)
  · rfl

/-- The argument is loaded from the address of the path that the run comes from. -/
theorem joinPaths_tracks (default : environment.layout = .x86_64)
    (tracks : builder.Tracks environment origin (builder.here machine) facts)
    {incoming : List (Value × BlockRef)} (same : ∀ pair ∈ incoming, pair.1.ty = .ptr ty)
    {address : Value} {slot : Nat} {datum : Datum}
    (comes : incoming.find? (fun pair => pair.2 = machine.previous) =
      some (address, machine.previous))
    (known : (address, .number slot) ∈ facts)
    (content : machine.memory.load? .x86_64 ty slot = some datum) :
    Succeeds (joinPaths ty incoming) builder fun value after => ∃ next, machine.Agrees next ∧
      after.Tracks environment origin (after.here next) ((value, datum) :: facts) := by
  refine (phi_appends tracks.ready.isOpen same).bind fun place _ joins => ?_
  have joined := tracks.phi joins comes (tracks.value? known)
  refine (load_appends joined.ready.isOpen joins.hasTy
    (joined.isPowerOfTwo_alignOf default _)).mono ?_ fun _ _ never => never
  rintro value after ⟨_, _, loads⟩
  have loaded := joined.load loads (joined.value? (.head _)) (default ▸ content)
  exact ⟨_, (machine.agrees_set ..).trans (Machine.agrees_set ..),
    loaded.forget (List.cons_subset_cons _ (List.subset_cons_self ..))⟩

/-- What is written behind the decision. -/
def fetchAlong (tagPointer offsetPointer offset : Value) (registers : RegisterClass) (ty : Ty)
    (register stack join : BlockRef) : Build (Value × List BlockRef) := do
  let first ← nextBlock
  let registerAddress ← registerPath tagPointer offsetPointer offset registers ty join
  let second ← nextBlock
  let stackAddress ← stackPath tagPointer ty join
  let third ← nextBlock
  let value ← joinPaths ty [(registerAddress, register), (stackAddress, stack)]
  return (value, [first, second, third])

theorem fetchAligned_of_default {layout : DataLayout} (default : layout = .x86_64) (ty : Ty) :
    FetchAligned layout ty := by
  rw [default]
  exact ⟨DataLayout.x86_64_power _, DataLayout.x86_64_power _, DataLayout.x86_64_power _⟩

/-- The run takes one of the paths, and waits while the other one is written. -/
theorem fetchAlong_tracks (default : environment.layout = .x86_64) {opened decided : Builder}
    {place : Nat} {register stack join : BlockRef} (stands : opened.Stands place decided)
    (placed : ∀ (offset : Nat) (ref : BlockRef), [register, stack, join][offset]? = some ref →
      opened.function.order[place + 1 + offset]? = some ref)
    (empty : ∀ ref ∈ [register, stack, join], decided.function.idsOf ref = [])
    (apart : [register, stack, join].Nodup)
    (decision : decided.Tracks environment origin
      ⟨if cursor.Leaves registers then register else stack, 0, machine⟩ facts)
    (inRegisters : RegisterClass.ofTy? ty = some registers)
    (isTag : tagPointer.ty = .ptr .vaListTag) (isPointer : offsetPointer.ty = .ptr .i32)
    (isOffset : offset.ty = .i32) (tagKnown : (tagPointer, .number tag) ∈ facts)
    (pointerKnown : (offsetPointer, .number (tag + registers.offset.position)) ∈ facts)
    (offsetKnown : (offset, .number (cursor registers.offset)) ∈ facts)
    (bound : tag + 24 ≤ 2 ^ 64) (holds : machine.memory.HoldsTag tag cursor) :
    Succeeds (fetchAlong tagPointer offsetPointer offset registers ty register stack join) decided
      fun (value, _) after => ∃ next datum, machine.Spares tag next ∧
        next.memory.HoldsTag tag (cursor.pastArgument registers) ∧
        next.memory.load? .x86_64 ty (cursor.argumentSlot registers) = some datum ∧
        after.Tracks environment origin (after.here next) ((value, datum) :: facts) := by
  simp only [List.nodup_cons, List.mem_cons, List.not_mem_nil, or_false, not_or] at apart
  have aligned (builder : Builder) (same : builder.layout = environment.layout) :
      FetchAligned builder.layout ty := fetchAligned_of_default (same.trans default) ty
  unfold fetchAlong
  refine (nextBlock_moves stands (placed 0 _ rfl)).bind ?_
  rintro _ atRegister ⟨_, toRegister, stands⟩
  -- the address in the register save area
  have waits := decision.keep toRegister.ready toRegister.layout toRegister.keptIn
  refine ((registerPath_writes stands.ready isTag isPointer isOffset
    (aligned _ waits.layout)).and_of (cursor.Leaves registers) fun left =>
      registerPath_tracks default
        (Tracks.enter (if_pos left ▸ decision) toRegister (empty _ (by simp))) inRegisters left
        isTag isPointer isOffset tagKnown pointerKnown offsetKnown bound holds).bind ?_
  rintro registerAddress afterRegister ⟨⟨isRegisterAddress, _, _, _, registerWrites⟩, onRegister⟩
  refine (nextBlock_moves (stands.writes registerWrites) (placed 1 _ rfl)).bind ?_
  rintro _ atStack ⟨_, toStack, stands⟩
  -- the address in the overflow area
  have waits := waits.keep registerWrites.ready registerWrites.layout registerWrites.keptIn
  have stackEmpty : afterRegister.function.idsOf stack = [] := by
    rw [registerWrites.others _ (toRegister.current ▸ Ne.symm apart.1.1), toRegister.ids]
    exact empty _ (by simp)
  refine ((stackPath_writes stands.ready isTag (List.mem_singleton_self tagPointer)
    (aligned _ (toStack.layout.trans waits.layout))).and_of (¬ cursor.Leaves registers) fun none =>
      stackPath_tracks default (Tracks.enter (if_neg none ▸ waits) toStack stackEmpty) isTag
        tagKnown bound holds).bind ?_
  rintro stackAddress afterStack ⟨⟨isStackAddress, _, _, _, stackWrites⟩, onStack⟩
  refine (nextBlock_moves (stands.writes stackWrites) (placed 2 _ rfl)).bind ?_
  rintro _ atJoin ⟨_, toJoin, stands⟩
  -- the run comes from one of the paths
  obtain ⟨next, address, spares, moved, comes, arrives⟩ : ∃ next address,
      machine.Spares tag next ∧ next.memory.HoldsTag tag (cursor.pastArgument registers) ∧
      [(registerAddress, register), (stackAddress, stack)].find?
        (fun pair => pair.2 = next.previous) = some (address, next.previous) ∧
      afterStack.Tracks environment origin ⟨join, 0, next⟩
        ((address, .number (cursor.argumentSlot registers)) :: facts) := by
    by_cases left : cursor.Leaves registers
    · obtain ⟨_, next, spares, moved, previous, arrives⟩ := onRegister left
      have waits := (arrives.keep toStack.ready toStack.layout toStack.keptIn).keep
        stackWrites.ready stackWrites.layout stackWrites.keptIn
      refine ⟨next, registerAddress, spares, ?_, ?_, ?_⟩
      · rwa [ArgumentCursor.pastArgument, if_pos left]
      · simp [previous, toRegister.current]
      · rwa [ArgumentCursor.argumentSlot, if_pos left]
    · obtain ⟨_, next, spares, moved, previous, arrives⟩ := onStack left
      refine ⟨next, stackAddress, spares, ?_, ?_, ?_⟩
      · rwa [ArgumentCursor.pastArgument, if_neg left]
      · simp [previous, toStack.current, apart.1.1]
      · rwa [ArgumentCursor.argumentSlot, if_neg left]
  -- the join
  have same : ∀ pair ∈ [(registerAddress, register), (stackAddress, stack)],
      pair.1.ty = .ptr ty := by
    simp only [List.forall_mem_cons]
    exact ⟨isRegisterAddress, isStackAddress, by simp⟩
  have joinEmpty : afterStack.function.idsOf join = [] := by
    rw [stackWrites.others _ (toStack.current ▸ Ne.symm apart.2.1), toStack.ids,
      registerWrites.others _ (toRegister.current ▸ Ne.symm apart.1.2), toRegister.ids]
    exact empty _ (by simp)
  obtain ⟨datum, content⟩ := next.memory.load?_of_ofTy? inRegisters (cursor.argumentSlot registers)
  refine (joinPaths_tracks default (arrives.enter toJoin joinEmpty) same comes (.head _)
    content).bind ?_
  rintro value after ⟨last, agrees, fetched⟩
  refine ⟨last, datum, spares.trans (.of_agrees agrees), agrees.memory ▸ moved,
    agrees.memory ▸ content, ?_⟩
  exact fetched.forget (List.cons_subset_cons _ (List.subset_cons_self ..))

/-- The run goes over the fetch of an argument. -/
theorem vaArgEntering_tracks (default : environment.layout = .x86_64)
    (tracks : builder.Tracks environment origin (builder.here machine) facts)
    (inRegisters : RegisterClass.ofTy? ty = some registers) (isList : list.ty = .ptr .vaList)
    (listed : (list, .number tag) ∈ facts) (bound : tag + 24 ≤ 2 ^ 64)
    (holds : machine.memory.HoldsTag tag cursor) :
    Succeeds (vaArgEntering list ty) builder fun (value, _) after => ∃ next datum,
      machine.Spares tag next ∧ next.memory.HoldsTag tag (cursor.pastArgument registers) ∧
      next.memory.load? .x86_64 ty (cursor.argumentSlot registers) = some datum ∧
      after.Tracks environment origin (after.here next) ((value, datum) :: facts) := by
  have ready := tracks.ready
  have counts := offsetTy_of_ofTy? inRegisters
  obtain ⟨register, stack, join, fresh⟩ :
      ∃ register stack join, builder.function.freshRefs 3 = [register, stack, join] :=
    ⟨_, _, _, rfl⟩
  have apart := List.nodup_cons.mp (Fetching.nodup_of_fresh ready fresh)
  have stands := insertBlocks_stands ready 3
  have opened := tracks.insertBlocks 3
  unfold vaArgEntering
  rw [inRegisters]
  simp only [Succeeds]
  rw [ends_bind, ends_insertBlocks ready.isOpen, fresh]
  have aligned := fetchAligned_of_default (opened.layout.trans default) ty
  refine ((registersLeft_writes stands.ready isList counts aligned).and
    (registersLeft_tracks default opened inRegisters isList listed bound holds)).bind ?_
  rintro ⟨tagPointer, offsetPointer, offset⟩ decided ⟨⟨⟨isTag, isPointer, isOffset⟩, _, _, _, _,
    decides⟩, next, memory, top, _, decision⟩
  have spares : machine.Spares tag next :=
    ⟨fun _ _ _ => by rw [memory], Nat.le_of_eq top.symm⟩
  have empty : ∀ ref ∈ [register, stack, join], decided.function.idsOf ref = [] := by
    intro ref new
    have other : ref ≠ builder.current := fun same => apart.1 (same ▸ new)
    rw [decides.others ref other, Fetching.idsOf_opened]
    exact FunctionDef.idsOf_of_mem_freshRefs (fresh ▸ new)
  have along := fetchAlong_tracks default (stands.writes decides)
    (fun offset ref new => insertBlocks_placed ready (fresh ▸ new)) empty apart.2 decision
    inRegisters isTag isPointer isOffset (by simp) (by simp) (by simp) bound (memory ▸ holds)
  refine along.mono ?_ fun _ _ never => never
  rintro ⟨value, _⟩ after ⟨last, datum, sparing, moved, content, fetched⟩
  refine ⟨last, datum, spares.trans sparing, moved, content, ?_⟩
  exact fetched.forget (List.cons_subset_cons _ (List.subset_append_right [_, _, _] facts))

end Build

namespace Builder.Copying

variable {environment : Environment} {origin : RunState} {facts : List (Value × Datum)}
  {builder after : Builder} {machine : Machine} {list value : Value} {tag : Nat}
  {cursor : ArgumentCursor} {ty : Ty}

/-- The run goes over the copy of an argument: the cursor is moved first, and then the bytes at the
place that it left are copied to memory that was free. -/
theorem tracks (copying : builder.Copying list ty value after)
    (default : environment.layout = .x86_64)
    (tracks : builder.Tracks environment origin (builder.here machine) facts)
    (isList : list.ty = .ptr .vaList) (listed : (list, .number tag) ∈ facts)
    (bound : tag + 24 ≤ 2 ^ 64) (holds : machine.memory.HoldsTag tag cursor) :
    ∃ next copy, machine.top ≤ copy ∧ next.top = copy + DataLayout.x86_64.sizeOf ty ∧
      next.memory = (machine.memory.write (tag + VaListField.overflowArea.position)
        VaListField.overflowArea.size
        (lowNumber 64 (cursor .overflowArea + copyStep .x86_64 ty))).copy copy
          (cursor .overflowArea) (DataLayout.x86_64.sizeOf ty % 2 ^ 64) ∧
      after.Tracks environment origin (after.here next) ((value, .number copy) :: facts) := by
  have same := tracks.layout.trans default
  obtain ⟨tagPointer, pointer, overflow, source, further, copyBytes, sourceBytes, tagged, pointed,
    loaded, cast, moved, stored, allocated, copyCast, sourceCast, _, _, align, tags, points, loads,
    casts, moves, stores, allocates, copyCasts, sourceCasts, copies, _⟩ := copying
  rw [same] at moves copies
  have atTag := tracks.vaListTag tags default isList (tracks.value? listed) (by omega)
  have atPointer := atTag.vaListField points default tags.hasTy (atTag.value? (.head _)) bound
  have atOverflow := atPointer.loadField loads default (atPointer.value? (.head _)) holds
  have atSource := atOverflow.bitCast casts (atOverflow.value? (.head _))
  have step : signedNumber (Build.constant32 (.ofNat (DataLayout.x86_64.sizeOf ty))).ty.numberBits
      (lowNumber 32 (Int64.ofNat (DataLayout.x86_64.sizeOf ty)).toInt) = copyStep .x86_64 ty :=
    signedNumber_ofNat _
  have atNext := atSource.bytes moves default loads.hasTy (atSource.value? (.tail _ (.head _)))
    (Machine.value?_constant32 _ _ _)
  rw [step] at atNext
  have isNext : further.ty = VaListField.ty .overflowArea := moves.hasTy
  have atStore := atNext.storeField stores default isNext
    (atNext.value? (.tail _ (.tail _ (.tail _ (.head _))))) (atNext.value? (.head _))
  have atCopy := atStore.allocate allocates
  rw [default] at atCopy
  have atCopyBytes := atCopy.bitCast copyCasts (atCopy.value? (.head _))
  have atSourceBytes := atCopyBytes.bitCast sourceCasts
    (atCopyBytes.value? (.tail _ (.tail _ (.tail _ (.head _)))))
  have copied := atSourceBytes.copy copies (atSourceBytes.value? (.tail _ (.head _)))
    (atSourceBytes.value? (.head _)) (Machine.value?_length ..)
  have left := copied.forget (List.cons_subset.mpr ⟨.tail _ (.tail _ (.head _)),
    List.subset_append_right [_, _, _, _, _, _, _, _] facts⟩)
  exact ⟨_, _, le_roundUp .., rfl, rfl, left⟩

end Builder.Copying

end IrAssembly
