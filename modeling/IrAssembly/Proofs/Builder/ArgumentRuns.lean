import IrAssembly.Proofs.Builder.ArgumentPaths

/-! Sequences of fetches from one list. Each fetch reads where the cursor is and moves it on; a run
over all of them gives the arguments that were there in the beginning. -/

namespace IrAssembly

/-- Some bytes of memory. -/
structure Span where
  start : Nat
  size : Nat
  deriving DecidableEq, Repr

namespace Span

def Covers (span : Span) (place : Nat) : Prop :=
  span.start ≤ place ∧ place < span.start + span.size

/-- The bytes are in use, and apart from the tag. -/
structure InUse (span : Span) (tag : Nat) (machine : Machine) : Prop where
  size : span.size < 2 ^ 64
  used : span.start + span.size ≤ machine.top
  outside : ∀ place, span.Covers place → place < tag ∨ tag + 24 ≤ place

variable {span : Span} {tag : Nat} {machine next : Machine}

theorem InUse.later (inUse : span.InUse tag machine) (spares : machine.Spares tag next) :
    span.InUse tag next :=
  ⟨inUse.size, inUse.used.trans spares.top, inUse.outside⟩

theorem InUse.same (inUse : span.InUse tag machine) (spares : machine.Spares tag next)
    {place : Nat} (covers : span.Covers place) :
    next.memory place = machine.memory place :=
  spares.memory place (Nat.lt_of_lt_of_le covers.2 inUse.used) (inUse.outside place covers)

end Span

/-- A fetch of an argument, or of an aggregate that is passed on the stack. -/
inductive Fetch where
  | argument (ty : Ty)
  | aggregate (ty : Ty)
  deriving Repr

namespace Fetch

def ty : Fetch → Ty
  | argument ty | aggregate ty => ty

def operation (list : Value) : Fetch → Operation
  | argument ty => .vaArg list ty
  | aggregate ty => .vaArgStackOnly list ty

/-- There are fetches of this type. -/
def Accepted : Fetch → Prop
  | argument ty => (RegisterClass.ofTy? ty).isSome
  | aggregate ty => Build.isStackPassed ty

/-- Where the argument is. -/
def slot (cursor : ArgumentCursor) : Fetch → Nat
  | argument ty => (RegisterClass.ofTy? ty).elim (cursor .overflowArea) cursor.argumentSlot
  | aggregate _ => cursor .overflowArea

/-- The bytes of the argument. -/
def span (fetch : Fetch) (cursor : ArgumentCursor) : Span :=
  ⟨fetch.slot cursor, DataLayout.x86_64.sizeOf fetch.ty⟩

/-- The cursor behind the argument. -/
def behind (cursor : ArgumentCursor) : Fetch → ArgumentCursor
  | argument ty => (RegisterClass.ofTy? ty).elim cursor cursor.pastArgument
  | aggregate ty => cursor.pastStack (copyStep .x86_64 ty)

/-- From one machine to the other, a fetch gives its argument, or the address of a copy of it. -/
def Delivers (cursor : ArgumentCursor) (machine next : Machine) (datum : Datum) :
    Fetch → Prop
  | argument ty => machine.memory.load? .x86_64 ty ((argument ty).slot cursor) = some datum
  | aggregate ty => ∃ copy, datum = .number copy ∧ machine.top ≤ copy ∧
    copy + DataLayout.x86_64.sizeOf ty ≤ next.top ∧
    ∀ offset < DataLayout.x86_64.sizeOf ty,
      next.memory (copy + offset) = machine.memory (cursor .overflowArea + offset)

end Fetch

/-- What is loaded depends on the bytes of the type alone. -/
theorem Memory.load?_congr {memory other : Memory} {ty : Ty} {address : Nat}
    (same : ∀ place, address ≤ place → place < address + DataLayout.x86_64.storeSizeOf ty →
      memory place = other place) :
    memory.load? .x86_64 ty address = other.load? .x86_64 ty address := by
  unfold load?
  rw [read_congr same]

namespace Fetch

variable {fetch : Fetch} {cursor : ArgumentCursor} {machine middle next last : Machine}
  {datum : Datum} {tag : Nat}

theorem load?_of_spares {ty : Ty} {address : Nat}
    (inUse : (⟨address, DataLayout.x86_64.sizeOf ty⟩ : Span).InUse tag machine)
    (spares : machine.Spares tag next) :
    next.memory.load? .x86_64 ty address = machine.memory.load? .x86_64 ty address := by
  have le := DataLayout.x86_64.storeSizeOf_le_sizeOf ty
  exact Memory.load?_congr fun place start bound =>
    inUse.same spares ⟨start, Nat.lt_of_lt_of_le bound (Nat.add_le_add_left le _)⟩

/-- Copies stay as they are. -/
theorem Delivers.later (delivers : fetch.Delivers cursor machine next datum)
    (used : tag + 24 ≤ machine.top) (spares : next.Spares tag last) :
    fetch.Delivers cursor machine last datum := by
  cases fetch with
  | argument ty => exact delivers
  | aggregate ty =>
    obtain ⟨copy, isCopy, free, bound, same⟩ := delivers
    refine ⟨copy, isCopy, free, bound.trans spares.top, fun offset inside => ?_⟩
    rw [← same offset inside]
    exact spares.memory _ (by omega) (by omega)

/-- Arguments wait in their slots. -/
theorem Delivers.earlier (inUse : (fetch.span cursor).InUse tag machine)
    (spares : machine.Spares tag middle) (delivers : fetch.Delivers cursor middle next datum) :
    fetch.Delivers cursor machine next datum := by
  cases fetch with
  | argument ty => exact (load?_of_spares inUse spares).symm.trans delivers
  | aggregate ty =>
    obtain ⟨copy, isCopy, free, bound, same⟩ := delivers
    refine ⟨copy, isCopy, spares.top.trans free, bound, fun offset inside => ?_⟩
    rw [same offset inside]
    exact inUse.same spares ⟨Nat.le_add_right .., Nat.add_lt_add_left inside _⟩

end Fetch

/-! The runs -/

/-- A run at the end of the code may fetch from a list: its tag holds a cursor and is in use. -/
structure Builder.MayFetch (environment : Environment) (origin : RunState)
    (facts : List (Value × Datum)) (builder : Builder) (machine : Machine) (list : Value)
    (tag : Nat) (cursor : ArgumentCursor) : Prop where
  tracks : builder.Tracks environment origin (builder.here machine) facts
  listed : (list, .number tag) ∈ facts
  bound : tag + 24 ≤ 2 ^ 64
  used : tag + 24 ≤ machine.top
  holds : machine.memory.HoldsTag tag cursor

namespace Builder.Copying

variable {environment : Environment} {origin : RunState} {facts : List (Value × Datum)}
  {builder after : Builder} {machine : Machine} {list value : Value} {tag : Nat}
  {cursor : ArgumentCursor} {ty : Ty}

theorem delivers (copying : builder.Copying list ty value after)
    (default : environment.layout = .x86_64) (isList : list.ty = .ptr .vaList)
    (may : builder.MayFetch environment origin facts machine list tag cursor) :
    ∃ next datum, machine.Spares tag next ∧
      next.memory.HoldsTag tag ((Fetch.aggregate ty).behind cursor) ∧
      after.Tracks environment origin (after.here next) ((value, datum) :: facts) ∧
      (((Fetch.aggregate ty).span cursor).InUse tag machine →
        (Fetch.aggregate ty).Delivers cursor machine next datum) := by
  obtain ⟨next, copy, free, top, memory, tracks⟩ :=
    copying.tracks default may.tracks isList may.listed may.bound may.holds
  have used := may.used
  have position : VaListField.overflowArea.position + VaListField.overflowArea.size = 16 := rfl
  have moved : (machine.memory.write (tag + VaListField.overflowArea.position)
      VaListField.overflowArea.size
      (lowNumber 64 (cursor .overflowArea + copyStep .x86_64 ty))).HoldsTag tag
        ((Fetch.aggregate ty).behind cursor) := may.holds.write (lowNumber_lt 64 _)
  refine ⟨next, .number copy, ⟨?_, ?_⟩, ?_, tracks, ?_⟩
  · intro place used outside
    rw [memory, Memory.copy_apart (by omega), Memory.write_apart (by omega)]
  · omega
  · refine moved.congr fun place start bound => ?_
    rw [memory, Memory.copy_apart (by omega)]
  · intro inUse
    refine ⟨copy, rfl, free, Nat.le_of_eq top.symm, fun offset inside => ?_⟩
    have whole : DataLayout.x86_64.sizeOf ty % 2 ^ 64 = DataLayout.x86_64.sizeOf ty :=
      Nat.mod_eq_of_lt inUse.size
    have outside := inUse.outside (cursor .overflowArea + offset)
      ⟨Nat.le_add_right .., Nat.add_lt_add_left inside _⟩
    rw [memory, Memory.copy, whole, if_pos ⟨Nat.le_add_right .., Nat.add_lt_add_left inside _⟩,
      Nat.add_sub_cancel_left, Memory.write_apart (by omega)]

end Builder.Copying

namespace Fetch

variable {environment : Environment} {origin : RunState} {facts : List (Value × Datum)}
  {builder after : Builder} {machine next : Machine} {list value : Value} {tag : Nat}
  {cursor : ArgumentCursor} {fetch : Fetch} {ty : Ty}

/-- Runs over the code of one fetch. -/
def Runs (fetch : Fetch) (builder : Builder) (list value : Value) (after : Builder) : Prop :=
  ∀ (environment : Environment) (origin : RunState) (facts : List (Value × Datum))
    (machine : Machine) (tag : Nat) (cursor : ArgumentCursor),
    builder.MayFetch environment origin facts machine list tag cursor →
      ∃ next datum, machine.Spares tag next ∧ next.memory.HoldsTag tag (fetch.behind cursor) ∧
        after.Tracks environment origin (after.here next) ((value, datum) :: facts) ∧
        ((fetch.span cursor).InUse tag machine → fetch.Delivers cursor machine next datum)

theorem exists_argument_runs (ready : builder.Ready) (default : builder.layout = .x86_64)
    (isList : list.ty = .ptr .vaList) (accepted : (argument ty).Accepted) :
    ∃ value after, (Operation.vaArg list ty).step builder = (.ok (.value value), after) ∧
      (argument ty).Runs builder list value after := by
  obtain ⟨registers, inRegisters⟩ := Option.isSome_iff_exists.mp accepted
  have noted := Build.vaArg_eq list ty
  have fetches := Build.vaArgEntering_fetches ready isList inRegisters
    (Build.fetchAligned_of_default default ty)
  obtain ⟨⟨value, entered⟩, after, ran, _⟩ := fetches.exists_run
  refine ⟨value, after, ?_, ?_⟩
  · refine Build.Ends.run_eq ?_
    rw [Operation.run, noted, Build.ends_map, Build.ends_map, Build.Ends, ran]
    exact ⟨rfl, rfl⟩
  · intro environment origin facts machine tag cursor may
    obtain ⟨next, datum, spares, moved, content, tracks⟩ :=
      (Build.vaArgEntering_tracks (may.tracks.layout.symm.trans default) may.tracks inRegisters
        isList may.listed may.bound may.holds).of_run ran
    have behind : (argument ty).behind cursor = cursor.pastArgument registers := by
      rw [Fetch.behind, inRegisters, Option.elim_some]
    have slot : (argument ty).slot cursor = cursor.argumentSlot registers := by
      rw [Fetch.slot, inRegisters, Option.elim_some]
    refine ⟨next, datum, spares, behind ▸ moved, tracks, fun inUse => ?_⟩
    rw [← slot] at content
    exact (load?_of_spares inUse spares).symm.trans content

theorem exists_aggregate_runs (ready : builder.Ready) (default : builder.layout = .x86_64)
    (isList : list.ty = .ptr .vaList) (accepted : (aggregate ty).Accepted) :
    ∃ value after, (Operation.vaArgStackOnly list ty).step builder = (.ok (.value value), after) ∧
      (aggregate ty).Runs builder list value after := by
  obtain ⟨value, after, stepped, ⟨copying⟩⟩ :=
    Operation.exists_copying ready isList accepted (Build.copyAligned_of_default default ty)
  refine ⟨value, after, stepped, ?_⟩
  intro environment origin facts machine tag cursor may
  exact copying.delivers (may.tracks.layout.symm.trans default) isList may

theorem exists_runs (ready : builder.Ready) (default : builder.layout = .x86_64)
    (isList : list.ty = .ptr .vaList) (accepted : fetch.Accepted) :
    ∃ value after, (fetch.operation list).step builder = (.ok (.value value), after) ∧
      fetch.Runs builder list value after := by
  cases fetch with
  | argument ty => exact exists_argument_runs ready default isList accepted
  | aggregate ty => exact exists_aggregate_runs ready default isList accepted

end Fetch

/-- Fetches were carried out one after the other, and gave these values. -/
inductive Fetches (list : Value) : Builder → List Fetch → List Value → Builder → Prop where
  | nil (builder : Builder) : Fetches list builder [] [] builder
  | cons (stepped : (fetch.operation list).step builder = (.ok (.value value), middle))
      (others : Fetches list middle fetches values after) :
      Fetches list builder (fetch :: fetches) (value :: values) after

namespace ArgumentCursor

/-- The bytes of each of the arguments. -/
def spans : ArgumentCursor → List Fetch → List Span
  | _, [] => []
  | cursor, fetch :: fetches => fetch.span cursor :: (fetch.behind cursor).spans fetches

/-- The cursor behind all of the arguments. -/
def past (cursor : ArgumentCursor) (fetches : List Fetch) : ArgumentCursor :=
  fetches.foldl Fetch.behind cursor

/-- From one machine to the other, fetches give their arguments. -/
inductive Delivered (environment : Environment) (machine last : Machine) :
    ArgumentCursor → List Fetch → List Value → Prop where
  | nil (cursor : ArgumentCursor) : Delivered environment machine last cursor [] []
  | cons {cursor : ArgumentCursor} (content : last.value? environment value = some datum)
      (delivers : fetch.Delivers cursor machine last datum)
      (others : Delivered environment machine last (fetch.behind cursor) fetches values) :
      Delivered environment machine last cursor (fetch :: fetches) (value :: values)

variable {environment : Environment} {machine middle last : Machine} {tag : Nat}
  {cursor : ArgumentCursor} {fetches : List Fetch} {values : List Value}

theorem Delivered.earlier (delivered : Delivered environment middle last cursor fetches values)
    (inUse : ∀ span ∈ cursor.spans fetches, span.InUse tag machine)
    (spares : machine.Spares tag middle) :
    Delivered environment machine last cursor fetches values := by
  induction delivered with
  | nil cursor => exact .nil cursor
  | cons content delivers _ ih =>
    obtain ⟨here, inUse⟩ := List.forall_mem_cons.mp inUse
    exact .cons content (delivers.earlier here spares) (ih inUse)

end ArgumentCursor

namespace Fetches

variable {builder : Builder} {list : Value} {fetches : List Fetch}

/-- Accepted fetches can be carried out, and wherever their code is run, it gives the arguments
that were there in the beginning and leaves the cursor behind them. -/
theorem exists_runs (ready : builder.Ready) (default : builder.layout = .x86_64)
    (isList : list.ty = .ptr .vaList) (accepted : ∀ fetch ∈ fetches, fetch.Accepted) :
    ∃ values after, Fetches list builder fetches values after ∧
      ∀ (environment : Environment) (origin : RunState) (facts : List (Value × Datum))
        (machine : Machine) (tag : Nat) (cursor : ArgumentCursor),
        builder.MayFetch environment origin facts machine list tag cursor →
          ∃ last, machine.Spares tag last ∧ last.memory.HoldsTag tag (cursor.past fetches) ∧
            after.Tracks environment origin (after.here last) facts ∧
            ((∀ span ∈ cursor.spans fetches, span.InUse tag machine) →
              cursor.Delivered environment machine last fetches values) := by
  induction fetches generalizing builder with
  | nil =>
    refine ⟨[], builder, .nil builder, ?_⟩
    intro environment origin facts machine tag cursor may
    exact ⟨machine, .of_agrees (.refl machine), may.holds, may.tracks, fun _ => .nil cursor⟩
  | cons fetch fetches ih =>
    obtain ⟨first, accepted⟩ := List.forall_mem_cons.mp accepted
    obtain ⟨value, middle, stepped, runs⟩ := fetch.exists_runs ready default isList first
    have middleReady := ((fetch.operation list).step_effects ready).1.ready ready
    have middleDefault := ((fetch.operation list).step_layout ready).trans default
    rw [stepped] at middleReady middleDefault
    obtain ⟨values, after, fetched, othersRun⟩ := ih middleReady middleDefault accepted
    refine ⟨value :: values, after, .cons stepped fetched, ?_⟩
    intro environment origin facts machine tag cursor may
    obtain ⟨next, datum, spares, moved, tracks, delivers⟩ := runs _ _ _ _ _ _ may
    have further : middle.MayFetch environment origin ((value, datum) :: facts) next list tag
        (fetch.behind cursor) :=
      ⟨tracks, .tail _ may.listed, may.bound, may.used.trans spares.top, moved⟩
    obtain ⟨last, sparesLast, movedLast, tracksLast, delivered⟩ := othersRun _ _ _ _ _ _ further
    refine ⟨last, spares.trans sparesLast, movedLast,
      tracksLast.forget (List.subset_cons_self ..), fun inUse => ?_⟩
    obtain ⟨here, inUse⟩ := List.forall_mem_cons.mp inUse
    -- the others find their arguments behind the first fetch, as they were in front of it
    have later := delivered fun span member => (inUse span member).later spares
    exact .cons (tracksLast.value? (.head _)) ((delivers here).later may.used sparesLast)
      (later.earlier inUse spares)

end Fetches

end IrAssembly
