import IrAssembly.Proofs.Builder.Naming

/-! Where the names of results come from. A name that the caller gives waits for the next result;
results that find no name waiting are numbered. -/

namespace IrAssembly

inductive NameOrigin where
  | chosen (name : String)
  | numbered (number : Nat)
  deriving DecidableEq, Repr

namespace NameOrigin

def text : NameOrigin → String
  | chosen name => name
  | numbered number => toString number

def chosen? : NameOrigin → Option String
  | chosen name => some name
  | numbered _ => none

def number? : NameOrigin → Option Nat
  | chosen _ => none
  | numbered number => some number

end NameOrigin

/-- What happens to names: the caller gives one, or a result takes one. -/
inductive NameEvent where
  | given (name : String)
  | taken
  deriving DecidableEq, Repr

def NameEvent.given? : NameEvent → Option String
  | given name => some name
  | taken => none

/-- The origins of the names that are taken, with the name that waits and the next number. A name
that is given replaces the one that waits; only results without such a name are counted. -/
def origins : Option String → Nat → List NameEvent → List NameOrigin
  | _, _, [] => []
  | _, next, .given name :: events => origins (some name) next events
  | some name, next, .taken :: events => .chosen name :: origins none next events
  | none, next, .taken :: events => .numbered next :: origins none (next + 1) events

section Origins

variable {waiting : Option String} {next : Nat} {events : List NameEvent}

/-- The numbers follow each other without a gap. -/
theorem numbers_origins (waiting : Option String) (next : Nat) (events : List NameEvent) :
    (origins waiting next events).filterMap NameOrigin.number? =
      List.range' next ((origins waiting next events).filterMap NameOrigin.number?).length := by
  induction events generalizing waiting next with
  | nil => rfl
  | cons event events ih =>
    cases event with
    | given name => exact ih (some name) next
    | taken =>
      cases waiting with
      | some name => exact ih none next
      | none => exact congrArg (next :: ·) (ih none (next + 1))

/-- Every name is taken at most once, and in the order in which the names were given. -/
theorem chosen_sublist_given (waiting : Option String) (next : Nat) (events : List NameEvent) :
    ((origins waiting next events).filterMap NameOrigin.chosen?).Sublist
      (waiting.toList ++ events.filterMap NameEvent.given?) := by
  induction events generalizing waiting next with
  | nil => exact List.nil_sublist _
  | cons event events ih =>
    cases event with
    | given name => exact (ih (some name) next).trans (List.sublist_append_right ..)
    | taken =>
      cases waiting with
      | some name => exact (ih none next).cons_cons name
      | none => exact ih none (next + 1)

/-- A name goes to the first result after it. -/
theorem origins_given_taken (waiting : Option String) (next : Nat) (front back : List NameEvent)
    (name : String) :
    (origins waiting next (front ++ .given name :: .taken :: back))[front.count .taken]? =
      some (.chosen name) := by
  induction front generalizing waiting next with
  | nil => rfl
  | cons event front ih =>
    cases event with
    | given other =>
      rw [List.count_cons_of_ne (by simp)]
      exact ih (some other) next
    | taken =>
      rw [List.count_cons_self]
      cases waiting with
      | some other => exact ih none next
      | none => exact ih none (next + 1)

end Origins

/-- The names of the results of some instructions. -/
def resultNames (instructions : List Instruction) : List String :=
  (instructions.filterMap Instruction.result?).map ResultSlot.name

/-- A name is taken by each instruction with a result. -/
def takings (instructions : List Instruction) : List NameEvent :=
  (instructions.filterMap Instruction.result?).map fun _ => .taken

theorem resultNames_append (first second : List Instruction) :
    resultNames (first ++ second) = resultNames first ++ resultNames second := by
  simp [resultNames]

theorem takings_append (first second : List Instruction) :
    takings (first ++ second) = takings first ++ takings second := by
  simp [takings]

theorem given_takings (instructions : List Instruction) :
    (takings instructions).filterMap NameEvent.given? = [] := by
  rw [takings, List.filterMap_map]
  exact List.filterMap_eq_nil_iff.mpr fun _ _ => rfl

namespace Builder

variable {builder middle after : Builder}

/-- The names that a state gives when something happens. -/
def namesOf (builder : Builder) (events : List NameEvent) : List String :=
  (origins builder.nextName builder.counter events).map NameOrigin.text

/-- One state is another one with some instructions behind it, which took their names from it. -/
structure NamedBy (builder : Builder) (new : List Instruction) (after : Builder) : Prop where
  appended : after.function.instructions = builder.function.instructions ++ new
  named : ∀ later, builder.namesOf (takings new ++ later) = resultNames new ++ after.namesOf later

namespace NamedBy

theorem trans {first second : List Instruction} (front : builder.NamedBy first middle)
    (back : middle.NamedBy second after) : builder.NamedBy (first ++ second) after where
  appended := by rw [back.appended, front.appended, List.append_assoc]
  named := by
    intro later
    rw [takings_append, resultNames_append, List.append_assoc, front.named, back.named,
      List.append_assoc]

/-- Nothing happens to names. -/
theorem of_eq (instructions : after.function.instructions = builder.function.instructions)
    (waiting : after.nextName = builder.nextName) (next : after.counter = builder.counter) :
    builder.NamedBy [] after where
  appended := by rw [instructions, List.append_nil]
  named := by
    intro later
    simp [takings, resultNames, namesOf, waiting, next]

theorem append (builder : Builder) (operands : List Value) {instruction : Instruction}
    (named : ∀ slot, instruction.result? = some slot → slot.name = builder.resultName) :
    builder.NamedBy [instruction] (builder.append operands instruction) where
  appended := by
    rw [append_function]
    rfl
  named := by
    intro later
    cases result : instruction.result? with
    | none => simp [takings, resultNames, namesOf, result, Builder.append, Builder.push, register]
    | some slot =>
      have name := named slot result
      cases waiting : builder.nextName with
      | some given =>
        simp [takings, resultNames, namesOf, result, Builder.append, Builder.push, register,
          spendName, origins, NameOrigin.text, name, resultName, waiting]
      | none =>
        simp [takings, resultNames, namesOf, result, Builder.append, Builder.push, register,
          spendName, origins, NameOrigin.text, name, resultName, waiting]

end NamedBy

end Builder

/-- As long as no name is given, the new instructions take their names from the state. -/
theorem Effect.namedBy {values : List Value} {blocks : List BlockRef} {builder after : Builder}
    (effect : Effect values blocks [] builder after) : ∃ new, builder.NamedBy new after := by
  cases effect with
  | append operands instruction known aims consecutive named typed checked =>
    exact ⟨[instruction], .append builder operands named⟩
  | setName name given => cases given
  | enter => exact ⟨[], .of_eq builder.enterNext_tables.2.1 rfl rfl⟩
  | _ => exact ⟨[], .of_eq rfl rfl rfl⟩

theorem Effects.namedBy {values : List Value} {blocks : List BlockRef} {builder after : Builder}
    (effects : Effects values blocks [] builder after) : ∃ new, builder.NamedBy new after := by
  induction effects with
  | refl => exact ⟨[], .of_eq rfl rfl rfl⟩
  | tail _ effect ih =>
    obtain ⟨first, front⟩ := ih
    obtain ⟨second, back⟩ := effect.namedBy
    exact ⟨first ++ second, front.trans back⟩

namespace Session

/-- What an operation does to names: it gives one, or appends instructions that take some. -/
def nameEvents (session : Session) (operation : Operation) : List NameEvent :=
  operation.names.map .given ++ takings
    ((session.after operation).builder.function.instructions.drop
      session.builder.function.instructions.length)

/-- What several operations do to names, one after the other. -/
def nameEventsOf (session : Session) : List Operation → List NameEvent
  | [] => []
  | operation :: operations =>
    session.nameEvents operation ++ (session.after operation).nameEventsOf operations

variable {session : Session}

theorem given_nameEventsOf (session : Session) (operations : List Operation) :
    (session.nameEventsOf operations).filterMap NameEvent.given? =
      operations.flatMap Operation.names := by
  induction operations generalizing session with
  | nil => rfl
  | cons operation operations ih =>
    have names : (operation.names.map NameEvent.given).filterMap NameEvent.given? =
        operation.names := by
      simp [NameEvent.given?, Function.comp_def]
    rw [nameEventsOf, nameEvents, List.filterMap_append, List.filterMap_append, given_takings, ih,
      names, List.append_nil, List.flatMap_cons]

/-- The instructions of an operation take their names from what the operations before it left. -/
theorem Sound.names (sound : session.Sound) (operation : Operation) (later : List NameEvent) :
    ∃ new, (session.after operation).builder.function.instructions =
        session.builder.function.instructions ++ new ∧
      session.builder.namesOf (session.nameEvents operation ++ later) =
        resultNames new ++ (session.after operation).builder.namesOf later := by
  by_cases nothing : operation.names = []
  · have effects := (sound.effects operation).1
    rw [nothing] at effects
    obtain ⟨new, named⟩ := effects.namedBy
    refine ⟨new, named.appended, ?_⟩
    rw [nameEvents, nothing, named.appended, List.drop_left, List.map_nil, List.nil_append]
    exact named.named later
  · cases operation with
    | setNextName name =>
      have left : (session.after (.setNextName name)).builder =
          { session.builder with nextName := some name } := rfl
      refine ⟨[], by rw [left, List.append_nil], ?_⟩
      rw [nameEvents, left, List.drop_length]
      rfl
    | _ => exact absurd rfl nothing

/-- The results of a run are named by what happened before each of them. -/
theorem Sound.resultNames_foldl (sound : session.Sound) (operations : List Operation) :
    resultNames (operations.foldl after session).builder.function.instructions =
      resultNames session.builder.function.instructions ++
        session.builder.namesOf (session.nameEventsOf operations) := by
  induction operations generalizing session with
  | nil => exact (List.append_nil _).symm
  | cons operation operations ih =>
    obtain ⟨new, appended, named⟩ :=
      sound.names operation ((session.after operation).nameEventsOf operations)
    rw [List.foldl_cons, ih (sound.effects operation).2, appended, resultNames_append,
      List.append_assoc, nameEventsOf, named]

end Session

end IrAssembly
