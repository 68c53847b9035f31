import IrAssembly.Proofs.Assembly.LocalNames
import IrAssembly.Proofs.Builder.Frame

/-! Block labels over a whole run. A block is labelled when it is entered, at the position where it
then stays, so labels tell the blocks apart and spell their positions for good. -/

namespace IrAssembly

namespace FunctionDef

variable {function : FunctionDef}

theorem labelAt_eq_bind_blockAt? (function : FunctionDef) (position : Nat) :
    function.labelAt position = (function.blockAt? position).bind Block.name :=
  (Option.bind_assoc ..).symm

theorem Coherent.exists_blockAt? (coherent : function.Coherent) {position : Nat}
    (bound : position < function.order.length) :
    ∃ block, function.blockAt? position = some block := by
  have placed : function.order[position]? = some function.order[position] :=
    List.getElem?_eq_getElem bound
  obtain ⟨block, found, _⟩ := coherent.positions position _ placed
  refine ⟨block, ?_⟩
  rw [blockAt?, refAt?, placed]
  exact found

end FunctionDef

/-- The blocks behind the first one, up to the current one, are labelled by their positions, and no
other block has a label. So labels are distinct, and each spells where its block stands. -/
structure Builder.LabelsInOrder (builder : Builder) : Prop where
  entry : ∃ block, builder.function.blockAt? 0 = some block ∧ block.name = none
  entered : ∀ position, 0 < position → position ≤ builder.position →
    ∃ block, builder.function.blockAt? position = some block ∧
      block.name = some ("label_" ++ toString position)
  behind : ∀ position block, builder.position < position →
    builder.function.blockAt? position = some block → block.name = none
  spelled : ∀ ref label, builder.function.labelOf ref = some label →
    label = "label_" ++ toString (builder.function.indexOf ref)
  distinct : ∀ first second label, builder.function.labelOf first = some label →
    builder.function.labelOf second = some label → first = second

namespace Builder

variable {builder : Builder}

theorem Labelled.name_of_blockAt? (labelled : builder.Labelled) {position : Nat} {block : Block}
    (found : builder.function.blockAt? position = some block) :
    block.name = if 0 < position ∧ position ≤ builder.position
      then some ("label_" ++ toString position) else none := by
  have label := labelled position
  rw [FunctionDef.labelAt_eq_bind_blockAt?, found] at label
  exact label

/-- Only a block of the function has a label, and it stands at its position. -/
theorem Labelled.spelled (labelled : builder.Labelled) (ready : builder.Ready) {ref : BlockRef}
    {label : String} (named : builder.function.labelOf ref = some label) :
    builder.function.HasBlock ref ∧
      label = "label_" ++ toString (builder.function.indexOf ref) := by
  have inArena : builder.function.HasBlock ref := by
    by_contra absent
    rw [FunctionDef.labelOf_of_not_hasBlock absent] at named
    cases named
  have placed := ready.coherent.order_indexOf inArena
  have read := labelled (builder.function.indexOf ref)
  rw [FunctionDef.labelAt_of_order placed, named] at read
  refine ⟨inArena, ?_⟩
  split at read
  · exact Option.some.inj read
  · cases read

/-- Equal labels spell equal positions, also of blocks of two functions. -/
theorem Labelled.indexOf_eq {other : Builder} (labelled : builder.Labelled) (ready : builder.Ready)
    (otherLabelled : other.Labelled) (otherReady : other.Ready) {first second : BlockRef}
    {label : String} (named : builder.function.labelOf first = some label)
    (otherNamed : other.function.labelOf second = some label) :
    builder.function.indexOf first = other.function.indexOf second := by
  obtain ⟨_, spelled⟩ := labelled.spelled ready named
  obtain ⟨_, otherSpelled⟩ := otherLabelled.spelled otherReady otherNamed
  have same : Stem.label.numbered (builder.function.indexOf first) =
      Stem.label.numbered (other.function.indexOf second) := spelled.symm.trans otherSpelled
  exact (Stem.numbered_injective same).2

/-- Only one block stands at the position that a label spells. -/
theorem Labelled.distinct (labelled : builder.Labelled) (ready : builder.Ready)
    {first second : BlockRef} {label : String}
    (named : builder.function.labelOf first = some label)
    (otherNamed : builder.function.labelOf second = some label) : first = second := by
  obtain ⟨inArena, _⟩ := labelled.spelled ready named
  obtain ⟨otherInArena, _⟩ := labelled.spelled ready otherNamed
  have placed := ready.coherent.order_indexOf inArena
  have otherPlaced := ready.coherent.order_indexOf otherInArena
  rw [labelled.indexOf_eq ready labelled ready named otherNamed, otherPlaced] at placed
  exact (Option.some.inj placed).symm

theorem Labelled.inOrder (labelled : builder.Labelled) (ready : builder.Ready) :
    builder.LabelsInOrder := by
  have bound := ready.position_lt
  refine ⟨?_, ?_, ?_, ?_, ?_⟩
  · obtain ⟨block, found⟩ := ready.coherent.exists_blockAt? (Nat.zero_lt_of_lt bound)
    refine ⟨block, found, ?_⟩
    rw [labelled.name_of_blockAt? found, if_neg (by omega)]
  · intro position positive reached
    obtain ⟨block, found⟩ := ready.coherent.exists_blockAt? (Nat.lt_of_le_of_lt reached bound)
    refine ⟨block, found, ?_⟩
    rw [labelled.name_of_blockAt? found, if_pos ⟨positive, reached⟩]
  · intro position block beyond found
    rw [labelled.name_of_blockAt? found, if_neg (by omega)]
  · exact fun ref label named => (labelled.spelled ready named).2
  · exact fun first second label => labelled.distinct ready

end Builder

namespace Session

variable {permits : Session → Operation → Prop} {session : Session}

theorem foldl_after_builder (session : Session) (operations : List Operation) :
    (operations.foldl after session).builder = session.builder.carryOut operations := by
  induction operations generalizing session with
  | nil => rfl
  | cons operation operations ih =>
    rw [List.foldl_cons, ih, after_builder]
    rfl

/-- After any operations on a fresh function, labels are given in the order of the blocks; whatever
is done later, a labelled block keeps its label and its position. -/
theorem labelsInOrder_of_reached (reached : Reached permits session) (operations : List Operation) :
    let later := operations.foldl after session
    session.builder.LabelsInOrder ∧
      ∀ ref label, session.builder.function.labelOf ref = some label →
        later.builder.function.labelOf ref = some label ∧
          later.builder.function.indexOf ref = session.builder.function.indexOf ref := by
  intro later
  have laterReached : Reached (fun _ _ => True) later := reached.goOn operations
  refine ⟨reached.labelled.inOrder reached.sound.ready, ?_⟩
  intro ref label named
  have kept : later.builder.function.labelOf ref = some label := by
    obtain ⟨_, _, extended⟩ := Operation.carryOut_extends reached.sound.ready operations
    simp only [later]
    rw [foldl_after_builder]
    exact extended.labelOf named
  exact ⟨kept, laterReached.labelled.indexOf_eq laterReached.sound.ready reached.labelled
    reached.sound.ready kept named⟩

/-- The block that was the third when it was asked for is the seventh after an insertion and the
three blocks of an argument; the second block keeps its label all along. -/
theorem labels_in_order_around_argument : ∃ session : Session,
    Reached (fun _ _ => True) session ∧ session.builder.position = 4 ∧
    session.builder.function.orderedBlocks.map (fun block => (block.id.id, block.name)) =
      [(0, none), (1, some "label_1"), (4, some "label_2"), (5, some "label_3"),
        (6, some "label_4"), (3, none), (2, none)] ∧
    session.builder.LabelsInOrder ∧
    ([Operation.insertBlocks 2, .nextBlock].foldl after session).builder.function.labelOf ⟨1⟩ =
      some "label_1" := by
  let fresh : FunctionDef := { name := "f", signature := ⟨.void, [.ptr .vaList], false⟩ }
  let list : Value := .parameter ⟨0, "arg_1", .ptr .vaList⟩
  have started : Reached (fun _ _ => True)
      ⟨⟨fresh.reserve 1, .x86_64, ⟨0⟩, 1, 1, none⟩, [], []⟩ := .start rfl
  have reached := started.goOn [.nextParameter, .getBlock 2, .nextBlock, .insertBlocks 1,
    .vaArg list .i32]
  obtain ⟨inOrder, kept⟩ := labelsInOrder_of_reached reached [.insertBlocks 2, .nextBlock]
  refine ⟨_, reached, by decide +kernel, by decide +kernel, inOrder, ?_⟩
  exact (kept ⟨1⟩ "label_1" (by decide +kernel)).1

end Session

end IrAssembly
