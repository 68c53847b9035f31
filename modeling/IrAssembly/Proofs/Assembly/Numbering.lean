import IrAssembly.Proofs.Assembly.InstructionLines
import IrAssembly.Proofs.Assembly.LocalNames
import IrAssembly.Proofs.Builder.Origins
import IrAssembly.Proofs.Builder.Refusal
import IrAssembly.Proofs.Builder.Sequence

/-! The order in which a function that came out of a builder is read, and the names that its results
have in that order. -/

namespace IrAssembly

/-! Distinct names -/

namespace NameOrigin

variable {entries : List NameOrigin}

/-- Distinct choices and distinct numbers make distinct origins. -/
theorem nodup_of_parts (choices : (entries.filterMap chosen?).Nodup)
    (numbers : (entries.filterMap number?).Nodup) : entries.Nodup := by
  induction entries with
  | nil => exact .nil
  | cons entry entries ih =>
    cases entry with
    | chosen name =>
      obtain ⟨fresh, choices⟩ := List.nodup_cons.mp choices
      refine List.nodup_cons.mpr ⟨fun again => fresh ?_, ih choices numbers⟩
      exact List.mem_filterMap.mpr ⟨.chosen name, again, rfl⟩
    | numbered number =>
      obtain ⟨fresh, numbers⟩ := List.nodup_cons.mp numbers
      refine List.nodup_cons.mpr ⟨fun again => fresh ?_, ih choices numbers⟩
      exact List.mem_filterMap.mpr ⟨.numbered number, again, rfl⟩

theorem text_numbered (number : Nat) : (numbered number).text = Stem.bare.numbered number :=
  (String.empty_append ..).symm

/-- A name that is no number keeps the texts of its origin apart from the others. -/
theorem text_injective (free : ∀ name, .chosen name ∈ entries →
    ∀ number : Nat, name ≠ toString number)
    {first second : NameOrigin} (member : first ∈ entries) (otherMember : second ∈ entries)
    (same : first.text = second.text) : first = second := by
  cases first with
  | chosen name =>
    cases second with
    | chosen other => exact congrArg chosen same
    | numbered number => exact absurd same (free name member number)
  | numbered number =>
    cases second with
    | chosen name => exact absurd same.symm (free name otherMember number)
    | numbered other =>
      rw [text_numbered, text_numbered] at same
      exact congrArg numbered (Stem.numbered_injective same).2

end NameOrigin

namespace Builder.ParametersNumbered

variable {builder : Builder}

theorem map_name (numbered : builder.ParametersNumbered) :
    builder.function.parameters.map Parameter.name =
      (List.range builder.function.parameters.length).map fun index =>
        Stem.argument.numbered (index + 1) := by
  apply List.ext_getElem
  · simp
  · intro index bound _
    have present : index < builder.function.parameters.length := by simpa using bound
    rw [List.getElem_map, List.getElem_map, List.getElem_range]
    exact numbered.names index _ (List.getElem?_eq_getElem present)

theorem names_nodup (numbered : builder.ParametersNumbered) :
    (builder.function.parameters.map Parameter.name).Nodup := by
  rw [numbered.map_name]
  refine List.nodup_range.map fun first second same => ?_
  exact Nat.succ.inj (Stem.numbered_injective same).2

end Builder.ParametersNumbered

/-- The names that the caller gives are told apart from each other and from generated ones. -/
structure TellsApart (given : List String) : Prop where
  distinct : given.Nodup
  noNumber : ∀ name ∈ given, ∀ number : Nat, name ≠ toString number
  noParameter : ∀ name ∈ given, ∀ number : Nat, name ≠ "arg_" ++ toString number

instance (char : Char) : DecidablePred fun stem : Stem => stem.StartsWith char
  | .argument => inferInstanceAs (Decidable (char = 'a'))
  | .label => inferInstanceAs (Decidable (char = 'l'))
  | .bare => inferInstanceAs (Decidable (char.isDigit = true))

/-- A name that starts like no generated name of a kind is none. -/
theorem Stem.ne_numbered (stem : Stem) {name : String} {char : Char} {others : List Char}
    (letters : name.toList = char :: others) (differs : ¬ stem.StartsWith char) (number : Nat) :
    name ≠ stem.numbered number := by
  rintro rfl
  obtain ⟨first, _, spelled, starts⟩ := stem.exists_head_numbered number
  rw [letters] at spelled
  obtain ⟨rfl, _⟩ := List.cons.inj spelled
  exact differs starts

theorem TellsApart.names_nodup {given : List String} (apart : TellsApart given)
    {entries : List NameOrigin} (chosen : (entries.filterMap NameOrigin.chosen?).Sublist given)
    (numbers : (entries.filterMap NameOrigin.number?).Nodup) {builder : Builder}
    (parameters : builder.ParametersNumbered) :
    (entries.map NameOrigin.text ++ builder.function.parameters.map Parameter.name).Nodup := by
  have isGiven {name : String} (member : .chosen name ∈ entries) : name ∈ given :=
    chosen.subset (List.mem_filterMap.mpr ⟨.chosen name, member, rfl⟩)
  have entriesDistinct := NameOrigin.nodup_of_parts (apart.distinct.sublist chosen) numbers
  refine List.nodup_append.mpr ⟨?_, parameters.names_nodup, ?_⟩
  · refine entriesDistinct.map_on fun first member second otherMember => ?_
    exact NameOrigin.text_injective (fun name listed => apart.noNumber name (isGiven listed))
      member otherMember
  · rintro text member other formal rfl
    obtain ⟨entry, listed, rfl⟩ := List.mem_map.mp member
    rw [parameters.map_name] at formal
    obtain ⟨index, _, same⟩ := List.mem_map.mp formal
    cases entry with
    | chosen name => exact apart.noParameter name (isGiven listed) (index + 1) same.symm
    | numbered number =>
      rw [NameOrigin.text_numbered] at same
      cases (Stem.numbered_injective same).1

namespace Session

/-- A refused operation that is no pattern leaves the session as it was. -/
theorem after_eq_of_refused {session : Session} {operation : Operation} {error : BuildError}
    (basic : operation.isComposite = false)
    (refused : (operation.step session.builder).1 = .error (.refused error)) :
    session.after operation = session := by
  have ends := operation.run_atomic basic session.builder
  unfold Build.Ends at ends
  unfold Operation.step at refused
  unfold after Operation.step
  generalize operation.run.run session.builder = ended at ends refused ⊢
  obtain ⟨outcome, builder⟩ := ended
  subst refused
  rw [ends error rfl]

/-- How a function is read after some operations in a session that was just opened. -/
structure ReadsInOrder (opened : Session) (operations : List Operation) (builder : Builder) :
    Prop where
  /-- Block after block, the instructions stand in the order in which they were made. -/
  made : builder.function.orderedBlocks.flatMap Block.instructions =
    List.range builder.function.instructions.length
  /-- The indented lines of the text are theirs, in this order. -/
  written : ∀ dialect lines, builder.function.lines dialect = .ok lines →
    List.Forall₂ (builder.function.Spells dialect)
      (List.range builder.function.instructions.length) (lines.filter isIndented)
  /-- The results have chosen names and numbers. -/
  named : resultNames builder.function.instructions =
    (origins none 1 (opened.nameEventsOf operations)).map NameOrigin.text
  /-- The numbers are those from one on, whatever names are chosen in between. -/
  numbered : ∃ count,
    (origins none 1 (opened.nameEventsOf operations)).filterMap NameOrigin.number? =
      List.range' 1 count
  /-- The chosen names are given ones, each for one result and in their order. -/
  chosen : ((origins none 1 (opened.nameEventsOf operations)).filterMap
    NameOrigin.chosen?).Sublist (operations.flatMap Operation.names)
  /-- A name that is given goes to the first result that is made after it. -/
  next : ∀ front name back,
    opened.nameEventsOf operations = front ++ .given name :: .taken :: back →
      (resultNames builder.function.instructions)[front.count .taken]? = some name
  /-- A refused operation takes no name, unless it is a pattern of several instructions. -/
  kept : ∀ front operation error, front ++ [operation] <+: operations →
    operation.isComposite = false →
    (operation.step (front.foldl after opened).builder).1 = .error (.refused error) →
      (front.foldl after opened).nameEvents operation = []
  /-- Results and parameters are told apart by their names if the given names are. -/
  distinct : TellsApart (operations.flatMap Operation.names) →
    (resultNames builder.function.instructions ++
      builder.function.parameters.map Parameter.name).Nodup

theorem nameEvents_of_refused {session : Session} {operation : Operation} {error : BuildError}
    (basic : operation.isComposite = false)
    (refused : (operation.step session.builder).1 = .error (.refused error)) :
    session.nameEvents operation = [] := by
  have nothing : operation.names = [] := by
    cases operation with
    | setNextName name => cases refused
    | _ => rfl
  rw [nameEvents, after_eq_of_refused basic refused, List.drop_length, nothing]
  rfl

/-- Whatever operations are carried out on a fresh function, refused ones included, its instructions
are read in the order in which they were made. In this order, a name that is given goes to the next
result, and the other results are numbered from one on without a gap. -/
theorem readsInOrder_of_run {layout : DataLayout} {name : String} {signature : Signature}
    {fresh : Builder} {function : FunctionDef}
    (started : (Builder.start layout).run { name := name, signature := signature } =
      (.ok fresh, function)) (operations : List Operation) :
    ReadsInOrder ⟨fresh, [], []⟩ operations (operations.foldl after ⟨fresh, [], []⟩).builder := by
  let opened : Session := ⟨fresh, [], []⟩
  have start : Reached (fun _ _ => True) opened := .start started
  have everything : Permitted (fun _ _ => True) opened operations := by
    generalize opened = session
    induction operations generalizing session with
    | nil => trivial
    | cons operation operations ih => exact ⟨trivial, ih _⟩
  have reached := start.run everything
  have sequence := reached.inSequence.made
  have names := start.sound.resultNames_foldl operations
  rw [Builder.run_start rfl] at started
  cases started
  have named : resultNames (operations.foldl after opened).builder.function.instructions =
      (origins none 1 (opened.nameEventsOf operations)).map NameOrigin.text := names
  have numbers := numbers_origins none 1 (opened.nameEventsOf operations)
  have chosen := chosen_sublist_given none 1 (opened.nameEventsOf operations)
  rw [given_nameEventsOf] at chosen
  constructor
  · rw [FunctionDef.flatMap_orderedBlocks]
    exact sequence
  · intro dialect lines written
    rw [← sequence]
    exact FunctionDef.lines_spell written
  · exact named
  · exact ⟨_, numbers⟩
  · exact chosen
  · intro front name back events
    rw [named, List.getElem?_map, events, origins_given_taken]
    rfl
  · intro front operation error _ basic refused
    exact nameEvents_of_refused basic refused
  · intro apart
    rw [named]
    refine apart.names_nodup chosen ?_ reached.parametersNumbered
    rw [numbers]
    exact List.nodup_range'

/-- Two names are given in a row and the second is kept for the first result in another block,
behind a refused store, a new block and a store. -/
theorem reads_in_order_around_total : ∃ (opened : Session) (operations : List Operation),
    operations.flatMap Operation.names = ["lost", "total"] ∧
    TellsApart ["lost", "total"] ∧
    resultNames (operations.foldl after opened).builder.function.instructions =
      ["1", "total", "2"] ∧
    ((operations.foldl after opened).builder.function.lines .v38).toOption.isSome = true ∧
    ReadsInOrder opened operations (operations.foldl after opened).builder := by
  let formal : Value := .parameter ⟨0, "arg_1", .ptr .i32⟩
  let operations : List Operation := [.nextParameter, .load formal, .setNextName "lost",
    .setNextName "total", .store formal (.constant (.i64 1)) 4, .insertBlocks 1, .branch ⟨1⟩,
    .nextBlock, .store formal (.result ⟨0, "1", .i32⟩) 4, .load formal, .load formal, .retVoid]
  let fresh : FunctionDef := { name := "f", signature := ⟨.void, [.ptr .i32], false⟩ }
  have reads := readsInOrder_of_run (show (Builder.start .x86_64).run fresh = _ from rfl) operations
  have lost : "lost".toList = 'l' :: ['o', 's', 't'] := rfl
  have total : "total".toList = 't' :: ['o', 't', 'a', 'l'] := rfl
  refine ⟨_, operations, by decide +kernel, ⟨by decide, ?_, ?_⟩, by decide +kernel,
    by decide +kernel, reads⟩
  · intro name given number
    rw [← String.empty_append (s := toString number)]
    rcases List.mem_pair.mp given with rfl | rfl
    · exact Stem.bare.ne_numbered lost (by decide) number
    · exact Stem.bare.ne_numbered total (by decide) number
  · intro name given number
    rcases List.mem_pair.mp given with rfl | rfl
    · exact Stem.argument.ne_numbered lost (by decide) number
    · exact Stem.argument.ne_numbered total (by decide) number

/-- A name is given, a vector is loaded and gets it, and filling the vector is refused: the next
result is numbered. -/
theorem refused_pattern_takes_name : ∃ session : Session, Reached OwnValues session ∧
    session.builder.nextName = some "x" ∧
    ∃ (operation : Operation) (error : BuildError),
      (operation.step session.builder).1 = .error (.refused error) ∧
      (session.after operation).builder.nextName = none ∧
      resultNames ((session.after operation).after (.allocate .i32)).builder.function.instructions =
        ["x", "1"] := by
  let fresh : FunctionDef := { name := "f", signature := ⟨.void, [.ptr (.vector 2 .i8)], false⟩ }
  let formal : Value := .parameter ⟨0, "arg_1", .ptr (.vector 2 .i8)⟩
  have started : Reached OwnValues ⟨⟨fresh.reserve 1, .x86_64, ⟨0⟩, 1, 1, none⟩, [], []⟩ :=
    .start rfl
  have reached := started.run (show Permitted OwnValues _ [.nextParameter, .setNextName "x"] from by
    decide +kernel)
  exact ⟨_, reached, by decide +kernel, .fillVector formal [.value (.constant (.i32 7))],
    .typeMismatch "insertelement" .i8 .i32, by decide +kernel, by decide +kernel, by decide +kernel⟩

end Session

end IrAssembly
