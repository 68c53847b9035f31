import IrAssembly.Proofs.Builder.ArgumentFetch
import IrAssembly.Proofs.Execution.Instructions
import IrAssembly.Proofs.Layout.Default
import IrAssembly.Proofs.Layout.Exposure

/-! The copy of an argument that is passed on the stack: the instructions that are appended for it,
how far they move the pointer to the overflow area, and which alignment they promise. -/

namespace IrAssembly

/-- The value is the result of this instruction. -/
def Value.IsResult (id : InstId) (ty : Ty) (value : Value) : Prop :=
  ∃ name, value = .result ⟨id, name, ty⟩

namespace Builder

/-- The instructions that copy an argument: the pointer to the overflow area is loaded and moved by
the size of the argument; then the argument is copied into a new allocation, byte by byte. -/
structure CopiesArgument (ty : Ty) (builder : Builder) (value : Value) (after : Builder) :
    Prop where
  result : value.IsResult (builder.nextId + 6) (.ptr ty)
  nextId : after.nextId = builder.nextId + 10
  moved : ∃ slot base index overflow,
    after.function.instruction? (builder.nextId + 4) =
      some (.elementPointer slot base [index] false) ∧
    after.function.symbol? base = some overflow ∧
    overflow.IsResult (builder.nextId + 2) (.ptr .i8) ∧
    after.function.symbol? index = some (Build.constant32 (.ofNat (builder.layout.sizeOf ty)))
  stored : ∃ destination source access pointer next,
    after.function.instruction? (builder.nextId + 5) = some (.store destination source access) ∧
    after.function.symbol? destination = some pointer ∧
    pointer.IsResult (builder.nextId + 1) (.ptr (.ptr .i8)) ∧
    after.function.symbol? source = some next ∧
    next.IsResult (builder.nextId + 4) (.ptr .i8)
  allocated : ∃ slot count align,
    after.function.instruction? (builder.nextId + 6) = some (.allocate slot ty count align) ∧
    encodeAlignment (builder.layout.alignOf ty) = .ok align
  destination : ∃ slot copy,
    after.function.instruction? (builder.nextId + 7) = some (.cast slot .bitCast copy) ∧
    after.function.symbol? copy = some value
  copied : ∃ target arguments copyBytes sourceBytes,
    after.function.instruction? (builder.nextId + 9) = some (.voidCall target arguments) ∧
    after.function.symbol? target = some (.function Intrinsic.memcpy.callable) ∧
    copyBytes.IsResult (builder.nextId + 7) (.ptr .i8) ∧
    sourceBytes.IsResult (builder.nextId + 8) (.ptr .i8) ∧
    arguments.map after.function.symbol? =
      [some copyBytes, some sourceBytes,
        some (.constant (.i64 (.ofNat (builder.layout.sizeOf ty)))),
        some (Build.constant32 copyAlignment), some (.constant (.i1 false))]

/-- A copy on its way: each instruction that is appended, and the builder behind it. -/
structure Copying (builder : Builder) (list : Value) (ty : Ty) (value : Value)
    (after : Builder) where
  (tag pointer overflow source next copyBytes sourceBytes : Value)
  (tagged pointed loaded cast moved stored allocated copyCast sourceCast : Builder)
  (loadAlign storeAlign align : UInt32)
  tags : builder.Points list [Build.constant32 0, Build.constant32 0] true .vaListTag tag tagged
  points : tagged.Points tag [Build.constant32 0, Build.constant32 VaListField.overflowArea.index]
    true (.ptr .i8) pointer pointed
  loads : pointed.Loads pointer loadAlign (.ptr .i8) overflow loaded
  casts : loaded.Casts .bitCast overflow (.ptr ty) source cast
  moves : cast.Points overflow [Build.constant32 (.ofNat (builder.layout.sizeOf ty))] false .i8
    next moved
  stores : moved.Stores pointer next storeAlign stored
  allocates : stored.Allocates ty align value allocated
  copyCasts : allocated.Casts .bitCast value (.ptr .i8) copyBytes copyCast
  sourceCasts : copyCast.Casts .bitCast source (.ptr .i8) sourceBytes sourceCast
  copies : sourceCast.Calls .memcpy [copyBytes, sourceBytes,
    .constant (.i64 (.ofNat (builder.layout.sizeOf ty))), Build.constant32 copyAlignment,
    .constant (.i1 false)] after
  encodes : encodeAlignment (builder.layout.alignOf ty) = .ok align

/-- Where each instruction stands, and what it takes. -/
theorem Copying.copiesArgument {builder after : Builder} {list value : Value} {ty : Ty}
    (copying : builder.Copying list ty value after) : builder.CopiesArgument ty value after := by
  obtain ⟨tag, pointer, overflow, source, next, copyBytes, sourceBytes, tagged, pointed, loaded,
    cast, moved, stored, allocated, copyCast, sourceCast, _, _, align, tags, points, loads, casts,
    moves, stores, allocates, copyCasts, sourceCasts, copies, encodes⟩ := copying
  have atPointer := tags.nextId
  have atLoad := points.nextId.trans (congrArg (· + 1) atPointer)
  have atMove := (casts.nextId.trans (congrArg (· + 1) loads.nextId)).trans
    (congrArg (· + 1 + 1) atLoad)
  have atStore := moves.nextId.trans (congrArg (· + 1) atMove)
  have atCopy := stores.nextId.trans (congrArg (· + 1) atStore)
  have atCast := allocates.nextId.trans (congrArg (· + 1) atCopy)
  have atSource := copyCasts.nextId.trans (congrArg (· + 1) atCast)
  have atCall := sourceCasts.nextId.trans (congrArg (· + 1) atSource)
  have fromCast := sourceCasts.grows.trans copies.grows
  have fromCopy := copyCasts.grows.trans fromCast
  have fromStore := allocates.grows.trans fromCopy
  have fromMove := stores.grows.trans fromStore
  have path := moves.symbols
  have both := stores.symbols
  have arguments := copies.symbols
  constructor
  case result => exact ⟨_, atCopy ▸ allocates.value⟩
  case nextId => rw [copies.nextId, atCall]
  case moved =>
    exact ⟨_, _, _, overflow, fromMove.instruction? (atMove ▸ moves.found),
      fromMove.symbol? path.head, ⟨_, atLoad ▸ loads.value⟩, fromMove.symbol? path.tail.head⟩
  case stored =>
    exact ⟨_, _, _, pointer, next, fromStore.instruction? (atStore ▸ stores.found),
      fromStore.symbol? both.head, ⟨_, atPointer ▸ points.value⟩,
      fromStore.symbol? both.tail.head, ⟨_, atMove ▸ moves.value⟩⟩
  case allocated =>
    exact ⟨_, _, align, fromCopy.instruction? (atCopy ▸ allocates.found), encodes⟩
  case destination =>
    exact ⟨_, _, fromCast.instruction? (atCast ▸ copyCasts.found),
      fromCast.symbol? copyCasts.symbols.head⟩
  case copied =>
    refine ⟨_, _, copyBytes, sourceBytes, atCall ▸ copies.found, arguments.head,
      ⟨_, atCast ▸ copyCasts.value⟩, ⟨_, atSource ▸ sourceCasts.value⟩, ?_⟩
    simp [List.range'_succ, arguments.tail.head, arguments.tail.tail.head,
      arguments.tail.tail.tail.head, arguments.tail.tail.tail.tail.head,
      arguments.tail.tail.tail.tail.tail.head]

end Builder

namespace Build

open Builder

variable {builder : Builder} {list tag : Value} {ty : Ty}

theorem vaListTag_appends (isOpen : builder.function.finished = false)
    (isList : list.ty = .ptr .vaList) :
    Succeeds (vaListTag list) builder
      (builder.Points list [constant32 0, constant32 0] true .vaListTag) :=
  elementPointer_appends isOpen isList rfl

theorem vaListField_appends (isOpen : builder.function.finished = false)
    (isTag : tag.ty = .ptr .vaListTag) (field : VaListField) :
    Succeeds (vaListField tag field) builder
      (builder.Points tag [constant32 0, constant32 field.index] true field.ty) :=
  elementPointer_appends isOpen isTag (walk_field field)

/-- The layout asks for alignments that the copy of an argument can encode. -/
structure CopyAligned (layout : DataLayout) (ty : Ty) : Prop where
  pointer : (layout.alignOf (.ptr .i8)).isPowerOfTwo
  argument : (layout.alignOf ty).isPowerOfTwo

theorem copyAligned_of_default {layout : DataLayout} (default : layout = .x86_64) (ty : Ty) :
    CopyAligned layout ty := by
  rw [default]
  exact ⟨DataLayout.x86_64_power _, DataLayout.x86_64_power _⟩

theorem power_of_encodes {layout : DataLayout} {ty : Ty} {align : UInt32}
    (encodes : encodeAlignment (layout.alignOf ty) = .ok align) :
    (layout.alignOf ty).isPowerOfTwo := by
  by_contra uneven
  have refused := encodeAlignment_eq_error_iff.mpr ⟨rfl, (layout.alignOf_pos ty).ne', uneven⟩
  rw [encodes] at refused
  cases refused

/-- An argument is copied just if the layout asks for alignments that can be encoded. -/
theorem vaArgStackOnly_ends (ready : builder.Ready) (isList : list.ty = .ptr .vaList)
    (onStack : isStackPassed ty = true) :
    Ends (vaArgStackOnly list ty) builder
      (fun value after => CopyAligned builder.layout ty ∧
        Nonempty (builder.Copying list ty value after))
      fun _ _ => ¬ CopyAligned builder.layout ty := by
  unfold vaArgStackOnly
  simp only [onStack, Bool.not_true, Bool.false_eq_true, if_false]
  rw [ends_bind, ends_layout]
  have isOpen := ready.isOpen
  refine (vaListTag_appends isOpen isList).andThen fun tag _ tags => ?_
  have isOpen := tags.isOpen isOpen
  refine (vaListField_appends isOpen tags.hasTy .overflowArea).andThen fun pointer _ points => ?_
  have isOpen := points.isOpen isOpen
  have layout := points.layout.trans tags.layout
  refine (load_ends isOpen points.hasTy).andThen ?_ fun _ _ uneven aligned =>
    uneven (layout ▸ aligned.pointer)
  rintro overflow _ ⟨_, loadEncodes, loads⟩
  rw [layout] at loadEncodes
  have isOpen := loads.isOpen isOpen
  refine (cast_appends isOpen).andThen fun source _ casts => ?_
  have isOpen := casts.isOpen isOpen
  refine (elementPointer_appends isOpen loads.hasTy rfl).andThen fun next _ moves => ?_
  have isOpen := moves.isOpen isOpen
  have layout := (moves.layout.trans casts.layout).trans (loads.layout.trans layout)
  rw [ends_bind, ends_layout]
  refine (storeOperand_ends isOpen points.hasTy moves.hasTy).andThen ?_ fun _ _ uneven aligned =>
    uneven (layout ▸ aligned.pointer)
  rintro _ _ ⟨_, _, stores⟩
  have isOpen := stores.isOpen isOpen
  have layout := stores.layout.trans layout
  refine (allocate_ends isOpen).andThen ?_ fun _ _ uneven aligned =>
    uneven (layout ▸ aligned.argument)
  rintro copy _ ⟨align, encodes, allocates⟩
  rw [layout] at encodes
  have isOpen := allocates.isOpen isOpen
  refine (cast_appends isOpen).andThen fun copyBytes _ copyCasts => ?_
  have isOpen := copyCasts.isOpen isOpen
  refine (cast_appends isOpen).andThen fun sourceBytes _ sourceCasts => ?_
  have isOpen := sourceCasts.isOpen isOpen
  have typed : [copyBytes, sourceBytes, .constant (.i64 (.ofNat (builder.layout.sizeOf ty))),
      constant32 copyAlignment, .constant (.i1 false)].map Value.ty =
        Intrinsic.memcpy.signature.params := by
    simp only [List.map_cons, copyCasts.hasTy, sourceCasts.hasTy]
    rfl
  refine (call_appends isOpen typed).andThen fun _ after copies => ?_
  rw [ends_pure]
  exact ⟨⟨power_of_encodes loadEncodes, power_of_encodes encodes⟩,
    ⟨⟨tag, pointer, overflow, source, next, copyBytes, sourceBytes, _, _, _, _, _, _, _, _, _, _,
      _, align, tags, points, loads, casts, moves, stores, allocates, copyCasts, sourceCasts,
      copies, encodes⟩⟩⟩

end Build

namespace Operation

variable {builder : Builder} {list : Value} {ty : Ty}

theorem vaArgStackOnly_ends (ready : builder.Ready) (isList : list.ty = .ptr .vaList)
    (onStack : Build.isStackPassed ty = true) :
    Build.Ends (Operation.vaArgStackOnly list ty).run builder
      (fun answer after => Build.CopyAligned builder.layout ty ∧
        ∃ value, answer = .value value ∧ Nonempty (builder.Copying list ty value after))
      fun _ _ => ¬ Build.CopyAligned builder.layout ty := by
  rw [run, Build.ends_map]
  refine (Build.vaArgStackOnly_ends ready isList onStack).mono ?_ fun _ _ uneven => uneven
  exact fun value after done => ⟨done.1, value, rfl, done.2⟩

theorem copying_of_step (ready : builder.Ready) (isList : list.ty = .ptr .vaList)
    (onStack : Build.isStackPassed ty = true) {value : Value} {after : Builder}
    (stepped : (Operation.vaArgStackOnly list ty).step builder = (.ok (.value value), after)) :
    Build.CopyAligned builder.layout ty ∧ Nonempty (builder.Copying list ty value after) := by
  obtain ⟨aligned, _, same, copying⟩ :=
    (vaArgStackOnly_ends ready isList onStack).of_run stepped
  cases same
  exact ⟨aligned, copying⟩

theorem exists_copying (ready : builder.Ready) (isList : list.ty = .ptr .vaList)
    (onStack : Build.isStackPassed ty = true) (aligned : Build.CopyAligned builder.layout ty) :
    ∃ value after, (Operation.vaArgStackOnly list ty).step builder = (.ok (.value value), after) ∧
      Nonempty (builder.Copying list ty value after) := by
  have copies : Build.Succeeds (Operation.vaArgStackOnly list ty).run builder fun answer after =>
      ∃ value, answer = .value value ∧ Nonempty (builder.Copying list ty value after) :=
    (vaArgStackOnly_ends ready isList onStack).mono (fun _ _ done => done.2)
      fun _ _ uneven => uneven aligned
  obtain ⟨_, after, ran, value, rfl, copying⟩ := copies.exists_run
  exact ⟨value, after, ran, copying⟩

/-- An argument that is passed on the stack is copied under every layout that asks for alignments
that can be encoded, and the copy always promises the same alignment. The allocation keeps the
promise just if the type exposes a part that is aligned as far for a reason of its own. -/
theorem vaArgStackOnly_promise_kept_iff (reachable : builder.Reachable)
    (isList : list.ty = .ptr .vaList) (onStack : Build.isStackPassed ty = true) :
    ((∃ value after,
        (Operation.vaArgStackOnly list ty).step builder = (.ok (.value value), after)) ↔
      Build.CopyAligned builder.layout ty) ∧
    ∀ value after,
      (Operation.vaArgStackOnly list ty).step builder = (.ok (.value value), after) →
        builder.CopiesArgument ty value after ∧
        (copyAlignment.toInt ∣ builder.layout.alignOf ty ↔
          ∃ part, ty.Exposes part ∧ copyAlignment.toInt ≤ builder.layout.ownAlign part) := by
  refine ⟨⟨?_, ?_⟩, ?_⟩
  · rintro ⟨value, after, stepped⟩
    exact (copying_of_step reachable.ready isList onStack stepped).1
  · intro aligned
    obtain ⟨value, after, stepped, _⟩ := exists_copying reachable.ready isList onStack aligned
    exact ⟨value, after, stepped⟩
  · intro value after stepped
    obtain ⟨aligned, ⟨copying⟩⟩ := copying_of_step reachable.ready isList onStack stepped
    refine ⟨copying.copiesArgument, ?_⟩
    have four : copyAlignment.toInt = (4 : Nat) := rfl
    simp only [four, Int.natCast_dvd_natCast, Int.ofNat_le]
    rw [DataLayout.dvd_iff_le_of_isPowerOfTwo ⟨2, rfl⟩ aligned.argument,
      DataLayout.le_alignOf_iff (by decide)]

/-- A structure with a wide field keeps the promise. -/
theorem vaArgStackOnly_promise_kept_of_pair : ∃ (builder after : Builder) (list value : Value),
    builder.Reachable ∧ list.ty = .ptr .vaList ∧
    (Operation.vaArgStackOnly list (.struct none [.i8, .i64] false)).step builder =
      (.ok (.value value), after) ∧
    copyAlignment.toInt ∣ builder.layout.alignOf (.struct none [.i8, .i64] false) := by
  let list : Value := .result ⟨0, "1", .ptr .vaList⟩
  have reachable := Builder.Reachable.run (.fresh "f" ⟨.void, [], false⟩)
    (Builder.run_start rfl .x86_64) [.allocate .vaList]
  obtain ⟨accepts, promises⟩ := vaArgStackOnly_promise_kept_iff reachable
    (rfl : list.ty = .ptr .vaList)
    (rfl : Build.isStackPassed (.struct none [.i8, .i64] false) = true)
  obtain ⟨value, after, stepped⟩ :=
    accepts.mpr (Build.copyAligned_of_default rfl _)
  refine ⟨_, after, list, value, reachable, rfl, stepped, ?_⟩
  exact (promises value after stepped).2.mpr
    ⟨.i64, .field (by simp) (.self _), by decide +kernel⟩

/-- A structure of one byte is copied to where one byte is aligned, and four are promised. -/
theorem vaArgStackOnly_promise_broken : ∃ (builder after : Builder) (list value : Value),
    builder.Reachable ∧ builder.layout = .x86_64 ∧ list.ty = .ptr .vaList ∧
    (Operation.vaArgStackOnly list (.struct none [.i8] false)).step builder =
      (.ok (.value value), after) ∧
    builder.CopiesArgument (.struct none [.i8] false) value after ∧
    ¬ copyAlignment.toInt ∣ builder.layout.alignOf (.struct none [.i8] false) := by
  let list : Value := .result ⟨0, "1", .ptr .vaList⟩
  have reachable := Builder.Reachable.run (.fresh "f" ⟨.void, [], false⟩)
    (Builder.run_start rfl .x86_64) [.allocate .vaList]
  obtain ⟨value, after, stepped, ⟨copying⟩⟩ := exists_copying reachable.ready
    (rfl : list.ty = .ptr .vaList) (rfl : Build.isStackPassed (.struct none [.i8] false) = true)
    (Build.copyAligned_of_default rfl _)
  refine ⟨_, after, list, value, reachable, ?_, rfl, stepped, copying.copiesArgument, ?_⟩
  · rfl
  · decide +kernel

end Operation

end IrAssembly
