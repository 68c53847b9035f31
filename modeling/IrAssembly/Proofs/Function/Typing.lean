import IrAssembly.Proofs.Function.Growth
import Mathlib.Data.List.Forall2

/-! Typing of instructions against the symbol table of their function. The rules name the types of
operands through their indices only, so they say what a reader of the finished function can check,
and they keep holding while the function grows. -/

namespace IrAssembly

/-- The operands of an instruction, from left to right. -/
def Instruction.operands : Instruction → List SymbolIndex
  | .allocate _ _ count _ => [count]
  | .load _ source _ => [source]
  | .store destination source _ => [destination, source]
  | .binary _ _ _ lhs rhs | .compare _ _ lhs rhs => [lhs, rhs]
  | .cast _ _ value => [value]
  | .call _ target arguments | .voidCall target arguments => target :: arguments
  | .branch _ | .unreachable => []
  | .conditionalBranch condition _ _ | .literalSwitch condition _ _ => [condition]
  | .indirectBranch address _ => [address]
  | .switch condition _ cases => condition :: cases.map Prod.fst
  | .phi _ incoming => incoming.map Prod.fst
  | .elementPointer _ base indices _ => base :: indices
  | .extractElement _ vector index => [vector, index]
  | .insertElement _ vector value index => [vector, value, index]
  | .extractValue _ aggregate _ => [aggregate]
  | .insertValue _ aggregate value _ => [aggregate, value]
  | .select _ condition onTrue onFalse => [condition, onTrue, onFalse]
  | .shuffleVector _ first second mask => [first, second, mask]
  | .ret value => value.toList

/-- The blocks that an instruction mentions: those it may branch to and those a phi node comes
from. -/
def Instruction.blocks : Instruction → List BlockRef
  | .phi _ incoming => incoming.map Prod.snd
  | instruction => instruction.successors

/-- The type that a walk through several indices reaches: array and vector elements, what a pointer
points to, and the field of a structure that a constant selects. Scalars are passed through. -/
inductive Ty.Reaches : Ty → List Value → Ty → Prop where
  | here : Reaches ty [] ty
  | array (rest : Reaches element indices reached) :
      Reaches (.array len element) (index :: indices) reached
  | vector (rest : Reaches element indices reached) :
      Reaches (.vector len element) (index :: indices) reached
  | pointer (rest : Reaches pointee indices reached) :
      Reaches (.ptr pointee) (index :: indices) reached
  | field {position : Int64} (inRange : 0 ≤ position)
      (member : fields[position.toInt.toNat]? = some memberTy)
      (rest : Reaches memberTy indices reached) :
      Reaches (.struct name fields packed) (.constant (.int indexTy position) :: indices) reached
  | scalar (element : ty.element? = none) (pointee : ty.pointee? = none)
      (fields : ∀ name fields packed, ty ≠ .struct name fields packed)
      (rest : Reaches ty indices reached) : Reaches ty (index :: indices) reached

namespace FunctionDef

/-- The type of the operand at an index of the symbol table. -/
def tyOf? (function : FunctionDef) (index : SymbolIndex) : Option Ty :=
  (function.symbol? index).map Value.ty

/-- What may be called: a function, a parameter, inline assembly or a loaded value. -/
def MayCall (function : FunctionDef) : Value → Prop
  | .function _ | .constant (.inlineAsm _) => True
  | .constant _ => False
  | .parameter formal => formal ∈ function.parameters
  | .result slot => ∃ source access,
      function.instruction? slot.id = some (.load ⟨slot.name, slot.ty⟩ source access)

/-- A call of a target with a signature: as many arguments as parameters, or more if the target is
variadic, and the leading ones have the types of the parameters. -/
structure Calls (function : FunctionDef) (target : SymbolIndex) (arguments : List SymbolIndex)
    (signature : Signature) : Prop where
  target : ∃ callee, function.symbol? target = some callee ∧ function.MayCall callee ∧
    callee.ty.stripPointers = signature.toTy
  count : if signature.vararg then signature.params.length ≤ arguments.length
    else arguments.length = signature.params.length
  leading : ∀ (position : Nat) (param : Ty), signature.params[position]? = some param →
    ∃ argument, arguments[position]? = some argument ∧ function.tyOf? argument = some param
  known : ∀ argument ∈ arguments, ∃ value, function.symbol? argument = some value

/-- What a call hands to a signature, whatever its target is. -/
structure Passes (function : FunctionDef) (target : SymbolIndex) (arguments : List SymbolIndex)
    (signature : Signature) : Prop where
  target : ∃ callee, function.symbol? target = some callee ∧
    callee.ty.stripPointers = signature.toTy
  leading : ∀ (position : Nat) (param : Ty), signature.params[position]? = some param →
    ∃ argument, arguments[position]? = some argument ∧ function.tyOf? argument = some param

end FunctionDef

inductive Instruction.Typed (function : FunctionDef) : Instruction → Prop where
  | allocate (integer : function.tyOf? count = some (.int bits)) :
      Typed function (.allocate ⟨name, .ptr allocated⟩ allocated count align)
  | load (pointer : function.tyOf? source = some (.ptr ty)) :
      Typed function (.load ⟨name, ty⟩ source access)
  | store (pointer : function.tyOf? destination = some (.ptr ty))
      (stored : function.tyOf? source = some ty) :
      Typed function (.store destination source access)
  | binary (left : function.tyOf? lhs = some ty) (right : function.tyOf? rhs = some ty) :
      Typed function (.binary ⟨name, ty⟩ operator flags lhs rhs)
  | compareLanes (left : function.tyOf? lhs = some (.vector lanes element))
      (right : function.tyOf? rhs = some (.vector lanes element)) :
      Typed function (.compare ⟨name, .vector lanes .i1⟩ operator lhs rhs)
  | compare (left : function.tyOf? lhs = some ty) (right : function.tyOf? rhs = some ty)
      (whole : ty.isVector = false) : Typed function (.compare ⟨name, .i1⟩ operator lhs rhs)
  | cast (known : function.tyOf? value = some source) :
      Typed function (.cast ⟨name, ty⟩ operator value)
  | call (calls : function.Calls target arguments signature) (valued : signature.result ≠ .void) :
      Typed function (.call ⟨name, signature.result⟩ target arguments)
  | voidCall (calls : function.Calls target arguments signature)
      (nothing : signature.result = .void) : Typed function (.voidCall target arguments)
  | branch : Typed function (.branch successor)
  | conditionalBranch (bit : function.tyOf? condition = some .i1) :
      Typed function (.conditionalBranch condition onTrue onFalse)
  | indirectBranch (pointer : function.tyOf? address = some (.ptr ty)) :
      Typed function (.indirectBranch address destinations)
  | switch (integer : function.tyOf? condition = some (.int bits))
      (same : ∀ case ∈ cases, function.tyOf? case.1 = some (.int bits)) :
      Typed function (.switch condition otherwise cases)
  | literalSwitch (integer : function.tyOf? condition = some (.int bits)) :
      Typed function (.literalSwitch condition otherwise cases)
  | phi (same : ∀ edge ∈ incoming, function.tyOf? edge.1 = some ty) :
      Typed function (.phi ⟨name, ty⟩ incoming)
  | elementPointer (pointer : function.tyOf? base = some (.ptr pointee))
      (walked : List.Forall₂ (fun index value => function.symbol? index = some value)
        indices values)
      (reaches : Ty.Reaches (.ptr pointee) values reached) :
      Typed function (.elementPointer ⟨name, .ptr reached⟩ base indices inbounds)
  | extractElement (lanes : function.tyOf? vector = some (.vector len ty))
      (number : function.tyOf? index = some .i32) :
      Typed function (.extractElement ⟨name, ty⟩ vector index)
  | insertElement (lanes : function.tyOf? vector = some (.vector len ty))
      (lane : function.tyOf? value = some ty) (number : function.tyOf? index = some .i32) :
      Typed function (.insertElement ⟨name, .vector len ty⟩ vector value index)
  | extractValue (whole : function.tyOf? aggregate = some ty) (composite : ty.isVector = false)
      (member : ty.member? index.toNat = some memberTy) :
      Typed function (.extractValue ⟨name, memberTy⟩ aggregate index)
  | insertValue (whole : function.tyOf? aggregate = some ty) (composite : ty.isVector = false)
      (member : ty.member? index.toNat = some memberTy)
      (replaced : function.tyOf? value = some memberTy) :
      Typed function (.insertValue ⟨name, ty⟩ aggregate value index)
  | select (chooses : conditionTy = .i1 ∨ ∃ lanes, conditionTy = .vector lanes .i1)
      (chosen : function.tyOf? condition = some conditionTy)
      (left : function.tyOf? onTrue = some ty) (right : function.tyOf? onFalse = some ty) :
      Typed function (.select ⟨name, ty⟩ condition onTrue onFalse)
  | shuffleVector (left : function.tyOf? first = some (.vector len element))
      (right : function.tyOf? second = some (.vector len element))
      (picks : function.tyOf? mask = some (.vector lanes .i32)) :
      Typed function (.shuffleVector ⟨name, .vector lanes element⟩ first second mask)
  | ret (known : function.tyOf? value = some ty) : Typed function (.ret (some value))
  | retVoid : Typed function (.ret none)
  | unreachable : Typed function .unreachable

/-- An instruction whose operands have the types that it needs, except that anything with a
signature may be called: to say more of the target, its function has to be known. -/
inductive Instruction.Checked (function : FunctionDef) : Instruction → Prop where
  | typed (typed : instruction.Typed function) : Checked function instruction
  | call (passes : function.Passes target arguments signature) :
      Checked function (.call ⟨name, signature.result⟩ target arguments)
  | voidCall (passes : function.Passes target arguments signature) :
      Checked function (.voidCall target arguments)

/-- A function whose instructions follow the typing rules and whose operands are its own. -/
structure FunctionDef.WellTyped (function : FunctionDef) : Prop where
  instructions : ∀ instruction ∈ function.instructions, instruction.Typed function
  operands : ∀ value ∈ function.symbols, function.Owns value

namespace FunctionDef

variable {before after : FunctionDef}

theorem tyOf?_mono (grows : before.Grows after) {index : SymbolIndex} {ty : Ty}
    (found : before.tyOf? index = some ty) : after.tyOf? index = some ty := by
  obtain ⟨value, present, same⟩ := Option.map_eq_some_iff.mp found
  exact Option.map_eq_some_iff.mpr ⟨value, grows.symbol? present, same⟩

theorem MayCall.mono {callee : Value} (callable : before.MayCall callee)
    (grows : before.Grows after) : after.MayCall callee := by
  cases callee with
  | constant known => cases known <;> exact callable
  | function callee => trivial
  | parameter formal => exact grows.parameters.subset callable
  | result slot =>
    obtain ⟨source, access, found⟩ := callable
    exact ⟨source, access, grows.instruction? found⟩

theorem Calls.mono {target : SymbolIndex} {arguments : List SymbolIndex} {signature : Signature}
    (calls : before.Calls target arguments signature) (grows : before.Grows after) :
    after.Calls target arguments signature where
  target := by
    obtain ⟨callee, found, callable, same⟩ := calls.target
    exact ⟨callee, grows.symbol? found, callable.mono grows, same⟩
  count := calls.count
  leading := by
    intro position param declared
    obtain ⟨argument, given, typed⟩ := calls.leading position param declared
    exact ⟨argument, given, tyOf?_mono grows typed⟩
  known := by
    intro argument member
    obtain ⟨value, found⟩ := calls.known argument member
    exact ⟨value, grows.symbol? found⟩

theorem Passes.mono {target : SymbolIndex} {arguments : List SymbolIndex} {signature : Signature}
    (passes : before.Passes target arguments signature) (grows : before.Grows after) :
    after.Passes target arguments signature where
  target := by
    obtain ⟨callee, found, same⟩ := passes.target
    exact ⟨callee, grows.symbol? found, same⟩
  leading := by
    intro position param declared
    obtain ⟨argument, given, typed⟩ := passes.leading position param declared
    exact ⟨argument, given, tyOf?_mono grows typed⟩

end FunctionDef

namespace Instruction

variable {before after : FunctionDef}

theorem Typed.mono {instruction : Instruction} (typed : instruction.Typed before)
    (grows : before.Grows after) : instruction.Typed after := by
  have keeps {index : SymbolIndex} {ty : Ty} (found : before.tyOf? index = some ty) :
      after.tyOf? index = some ty := FunctionDef.tyOf?_mono grows found
  cases typed with
  | allocate integer => exact .allocate (keeps integer)
  | load pointer => exact .load (keeps pointer)
  | store pointer stored => exact .store (keeps pointer) (keeps stored)
  | binary left right => exact .binary (keeps left) (keeps right)
  | compareLanes left right => exact .compareLanes (keeps left) (keeps right)
  | compare left right whole => exact .compare (keeps left) (keeps right) whole
  | cast known => exact .cast (keeps known)
  | call calls valued => exact .call (calls.mono grows) valued
  | voidCall calls nothing => exact .voidCall (calls.mono grows) nothing
  | branch => exact .branch
  | conditionalBranch bit => exact .conditionalBranch (keeps bit)
  | indirectBranch pointer => exact .indirectBranch (keeps pointer)
  | switch integer same => exact .switch (keeps integer) fun case held => keeps (same case held)
  | literalSwitch integer => exact .literalSwitch (keeps integer)
  | phi same => exact .phi fun edge held => keeps (same edge held)
  | elementPointer pointer walked reaches =>
    exact .elementPointer (keeps pointer) (walked.imp fun _ _ found => grows.symbol? found) reaches
  | extractElement lanes number => exact .extractElement (keeps lanes) (keeps number)
  | insertElement lanes lane number =>
    exact .insertElement (keeps lanes) (keeps lane) (keeps number)
  | extractValue whole composite member => exact .extractValue (keeps whole) composite member
  | insertValue whole composite member replaced =>
    exact .insertValue (keeps whole) composite member (keeps replaced)
  | select chooses chosen left right =>
    exact .select chooses (keeps chosen) (keeps left) (keeps right)
  | shuffleVector left right picks => exact .shuffleVector (keeps left) (keeps right) (keeps picks)
  | ret known => exact .ret (keeps known)
  | retVoid => exact .retVoid
  | unreachable => exact .unreachable

theorem Checked.mono {instruction : Instruction} (checked : instruction.Checked before)
    (grows : before.Grows after) : instruction.Checked after := by
  cases checked with
  | typed typed => exact .typed (typed.mono grows)
  | call passes => exact .call (passes.mono grows)
  | voidCall passes => exact .voidCall (passes.mono grows)

end Instruction

namespace FunctionDef.WellTyped

variable {before after : FunctionDef}

theorem fresh (name : String) (signature : Signature) :
    WellTyped { name := name, signature := signature } := by
  constructor <;> simp

/-- A change that adds neither instructions nor operands keeps the typing. -/
theorem transfer (wellTyped : before.WellTyped) (grows : before.Grows after)
    (instructions : after.instructions = before.instructions)
    (symbols : after.symbols = before.symbols) : after.WellTyped where
  instructions := by
    intro instruction member
    rw [instructions] at member
    exact (wellTyped.instructions instruction member).mono grows
  operands := by
    intro value member
    rw [symbols] at member
    exact (wellTyped.operands value member).mono grows

theorem withSymbols (wellTyped : before.WellTyped) {values : List Value}
    (owned : ∀ value ∈ values, before.Owns value) : (before.withSymbols values).WellTyped where
  instructions := fun instruction member =>
    (wellTyped.instructions instruction member).mono (.withSymbols ..)
  operands := by
    intro value member
    have grows := Grows.withSymbols before values
    rcases List.mem_append.mp member with old | new
    · exact (wellTyped.operands value old).mono grows
    · exact (owned value new).mono grows

theorem push (wellTyped : before.WellTyped) {instruction : Instruction}
    (typed : instruction.Typed before) (ref : BlockRef) :
    (before.push ref instruction).2.WellTyped where
  instructions := by
    intro other member
    have grows := Grows.push before ref instruction
    rcases List.mem_append.mp member with old | new
    · exact (wellTyped.instructions other old).mono grows
    · exact List.mem_singleton.mp new ▸ typed.mono grows
  operands := fun value member => (wellTyped.operands value member).mono (.push ..)

end FunctionDef.WellTyped

end IrAssembly
