import IrAssembly.Layout.Extent
import IrAssembly.Layout.Spec
import Mathlib.Data.List.Sort
import Mathlib.Data.Option.Basic

/-! The alignments that a layout asks for. Layout strings may list any number of bits, so whether
all types are aligned to powers of two is a matter of the listed alignments, and of nothing else. -/

namespace IrAssembly

theorem isPowerOfTwo_nextPowerOfTwo (value : Nat) : (nextPowerOfTwo value).isPowerOfTwo := by
  unfold nextPowerOfTwo
  split
  · exact Nat.isPowerOfTwo_one
  · exact ⟨_, rfl⟩

/-! Entries -/

/-- Entries in strictly ascending order of width. -/
def Ascending (entries : List AlignEntry) : Prop :=
  entries.Pairwise fun entry later => entry.bits < later.bits

/-- Entries of different widths. -/
def Distinct (entries : List AlignEntry) : Prop :=
  entries.Pairwise fun entry later => entry.bits ≠ later.bits

theorem mem_upsert {entry other : AlignEntry} {entries : List AlignEntry}
    (member : other ∈ upsert entry entries) : other = entry ∨ other ∈ entries := by
  induction entries with
  | nil => exact .inl (List.mem_singleton.mp member)
  | cons head tail ih =>
    unfold upsert at member
    split at member
    · exact (List.mem_cons.mp member).imp id (.tail _)
    · rcases List.mem_cons.mp member with rfl | inTail
      · exact .inr (.head _)
      · exact (ih inTail).imp id (.tail _)

/-- An entry that is put in takes the place of the one of its width. -/
theorem Distinct.upsert {entries : List AlignEntry} (distinct : Distinct entries)
    (entry : AlignEntry) : Distinct (upsert entry entries) := by
  induction entries with
  | nil => exact List.pairwise_singleton ..
  | cons head tail ih =>
    obtain ⟨behind, rest⟩ := List.pairwise_cons.mp distinct
    unfold IrAssembly.upsert
    split
    · rename_i same
      exact List.pairwise_cons.mpr ⟨fun later member => same ▸ behind later member, rest⟩
    · rename_i differs
      refine List.pairwise_cons.mpr ⟨?_, ih rest⟩
      intro later member
      rcases mem_upsert member with rfl | inTail
      · exact differs
      · exact behind later inTail

/-- Sorting by width is sorting by insertion. -/
theorem sortByWidth_eq (entries : List AlignEntry) :
    sortByWidth entries = entries.insertionSort (fun entry later => entry.bits ≤ later.bits) := by
  have inserts (entry : AlignEntry) (entries : List AlignEntry) : insertByWidth entry entries =
      entries.orderedInsert (fun entry later => entry.bits ≤ later.bits) entry := by
    induction entries with
    | nil => rfl
    | cons head tail ih => rw [insertByWidth, ih, List.orderedInsert_cons]
  induction entries with
  | nil => rfl
  | cons entry entries ih => rw [sortByWidth, inserts, ih, List.insertionSort_cons]

/-- Different widths are in strictly ascending order once they are sorted. -/
theorem Distinct.sortByWidth {entries : List AlignEntry} (distinct : Distinct entries) :
    Ascending (sortByWidth entries) := by
  let narrower (entry later : AlignEntry) : Prop := entry.bits ≤ later.bits
  have total : Std.Total narrower := ⟨fun entry later => UInt32.le_total entry.bits later.bits⟩
  have transitive : IsTrans AlignEntry narrower := ⟨fun _ _ _ => UInt32.le_trans⟩
  rw [sortByWidth_eq]
  have apart : Distinct (entries.insertionSort narrower) :=
    ((List.perm_insertionSort narrower entries).pairwise_iff Ne.symm).mpr distinct
  have sorted := List.pairwise_insertionSort narrower entries
  exact (sorted.and apart).imp fun both => UInt32.lt_of_le_of_ne both.1 both.2

namespace Ascending

variable {entries : List AlignEntry}

/-- Every entry is found under its own width. -/
theorem find?_of_mem (ascending : Ascending entries) {entry : AlignEntry}
    (member : entry ∈ entries) {fits : AlignEntry → Bool}
    (own : ∀ other, fits other = true ↔ other.bits = entry.bits) :
    entries.find? fits = some entry := by
  induction entries with
  | nil => cases member
  | cons head tail ih =>
    obtain ⟨behind, rest⟩ := List.pairwise_cons.mp ascending
    rcases List.mem_cons.mp member with rfl | inTail
    · exact List.find?_cons_of_pos ((own entry).mpr rfl)
    · have differs : ¬ fits head = true := by
        intro fitting
        exact UInt32.lt_irrefl _ ((own head).mp fitting ▸ behind entry inTail)
      rw [List.find?_cons_of_neg differs]
      exact ih rest inTail

end Ascending

namespace DataLayout

variable {layout : DataLayout}

/-- The entries of every kind are in strictly ascending order of width. -/
structure Sorted (layout : DataLayout) : Prop where
  integers : Ascending layout.integers
  floats : Ascending layout.floats
  vectors : Ascending layout.vectors

/-- The entries of each kind are of different widths. -/
structure Unrepeated (layout : DataLayout) : Prop where
  integers : Distinct layout.integers
  floats : Distinct layout.floats
  vectors : Distinct layout.vectors

namespace Unrepeated

theorem apply (unrepeated : layout.Unrepeated) (item : LayoutItem) :
    (layout.apply item).Unrepeated := by
  obtain ⟨integers, floats, vectors⟩ := unrepeated
  cases item with
  | alignment kind entry =>
    cases kind with
    | integer => exact ⟨integers.upsert entry, floats, vectors⟩
    | float => exact ⟨integers, floats.upsert entry, vectors⟩
    | vector => exact ⟨integers, floats, vectors.upsert entry⟩
  | pointer addressSpace size abi =>
    simp only [DataLayout.apply]
    split <;> exact ⟨integers, floats, vectors⟩
  | _ => exact ⟨integers, floats, vectors⟩

theorem foldl (unrepeated : layout.Unrepeated) (items : List LayoutItem) :
    (items.foldl DataLayout.apply layout).Unrepeated := by
  induction items generalizing layout with
  | nil => exact unrepeated
  | cons item items ih => exact ih (unrepeated.apply item)

theorem sortEntries (unrepeated : layout.Unrepeated) : layout.sortEntries.Sorted :=
  ⟨unrepeated.integers.sortByWidth, unrepeated.floats.sortByWidth, unrepeated.vectors.sortByWidth⟩

end Unrepeated

theorem sorted_foldl (items : List LayoutItem) :
    (items.foldl apply unspecified).sortEntries.Sorted := by
  have nothing : unspecified.Unrepeated := ⟨.nil, .nil, .nil⟩
  exact (nothing.foldl items).sortEntries

/-- Whatever a layout string lists, and in whatever order. -/
theorem sorted_of_parse {spec : String} (parsed : parse spec = .ok layout) : layout.Sorted := by
  unfold parse at parsed
  cases read : (tokens spec).mapM LayoutItem.ofToken with
  | error error =>
    rw [read] at parsed
    cases parsed
  | ok items =>
    rw [read] at parsed
    cases parsed
    exact sorted_foldl items

/-- The alignments that the layout lists for types have a property. An entry for floating point
numbers concerns a type only if there is a kind of its width. -/
structure ListsOnly (layout : DataLayout) (good : Nat → Prop) : Prop where
  pointer : good (abiBytes layout.pointerAbi)
  aggregate : good (abiBytes layout.aggregateAbi)
  integers : ∀ entry ∈ layout.integers, good (abiBytes entry.abi)
  floats : ∀ entry ∈ layout.floats, ∀ kind : FloatKind, entry.bits.toNat = kind.bitWidth →
    good (abiBytes entry.abi)
  vectors : ∀ entry ∈ layout.vectors, good (abiBytes entry.abi)

namespace ListsOnly

variable {good : Nat → Prop}

theorem integerAlign (lists : layout.ListsOnly good)
    (powers : ∀ value : Nat, value.isPowerOfTwo → good value) (bits : UInt32) :
    good (layout.integerAlign bits) := by
  unfold DataLayout.integerAlign
  extract_lets exact wider
  split
  · rename_i entry found
    apply lists.integers
    rcases (Option.orElse_eq_some ..).mp found with own | ⟨_, other⟩
    · exact List.mem_of_find?_eq_some own
    · rcases (Option.orElse_eq_some ..).mp other with next | ⟨_, last⟩
      · exact List.mem_of_find?_eq_some next
      · exact List.mem_of_getLast? last
  · exact powers _ (isPowerOfTwo_nextPowerOfTwo _)

theorem floatAlign (lists : layout.ListsOnly good)
    (powers : ∀ value : Nat, value.isPowerOfTwo → good value) (kind : FloatKind) :
    good (layout.floatAlign kind) := by
  unfold DataLayout.floatAlign
  split
  · rename_i entry found
    have width := List.find?_some found
    exact lists.floats entry (List.mem_of_find?_eq_some found) kind (by simpa using width)
  · exact powers _ (isPowerOfTwo_nextPowerOfTwo _)

theorem vectorAlign (lists : layout.ListsOnly good)
    (powers : ∀ value : Nat, value.isPowerOfTwo → good value) (totalBits : Nat) :
    good (layout.vectorAlign totalBits) := by
  unfold DataLayout.vectorAlign
  split
  · rename_i entry found
    exact lists.vectors entry (List.mem_of_find?_eq_some found)
  · exact powers _ (isPowerOfTwo_nextPowerOfTwo _)

/-- The greatest of several alignments is one of them. -/
theorem foldl_max {aligns : List Nat} {start : Nat} (first : good start)
    (others : ∀ align ∈ aligns, good align) : good (aligns.foldl max start) := by
  induction aligns generalizing start with
  | nil => exact first
  | cons align aligns ih =>
    obtain ⟨next, others⟩ := List.forall_mem_cons.mp others
    apply ih _ others
    rcases Nat.le_total start align with le | le
    · rwa [Nat.max_eq_right le]
    · rwa [Nat.max_eq_left le]

theorem structExtent (lists : layout.ListsOnly good)
    (powers : ∀ value : Nat, value.isPowerOfTwo → good value) {fields : List Extent}
    (inside : ∀ field ∈ fields, good field.align) (packed : Bool) :
    good (layout.structExtent fields packed).align := by
  unfold DataLayout.structExtent
  split
  · exact powers 1 Nat.isPowerOfTwo_one
  · apply foldl_max lists.aggregate
    intro align member
    obtain ⟨field, listed, rfl⟩ := List.mem_map.mp member
    exact inside field listed

mutual

/-- Powers of two apart, types get no alignments but listed ones. -/
theorem extent (lists : layout.ListsOnly good)
    (powers : ∀ value : Nat, value.isPowerOfTwo → good value) :
    ∀ ty : Ty, good (layout.extent ty).align
  | .int bits => lists.integerAlign powers bits
  | .float kind => lists.floatAlign powers kind
  | .ptr _ => lists.pointer
  | .vector _ _ => lists.vectorAlign powers _
  | .array _ element => lists.extent powers element
  | .struct _ fields packed => lists.structExtent powers (lists.extents powers fields) packed
  | .void | .func _ _ _ | .bodiless _ | .label | .metadata => powers 1 Nat.isPowerOfTwo_one

theorem extents (lists : layout.ListsOnly good)
    (powers : ∀ value : Nat, value.isPowerOfTwo → good value) :
    ∀ types : List Ty, ∀ field ∈ layout.extents types, good field.align
  | [], _, member => by cases member
  | ty :: types, field, member => by
    rcases List.mem_cons.mp member with rfl | others
    · exact lists.extent powers ty
    · exact lists.extents powers types field others

end

end ListsOnly

/-- Each alignment that the layout lists is that of some type. -/
theorem Sorted.listsOnly (sorted : layout.Sorted) {good : Nat → Prop}
    (all : ∀ ty, good (layout.alignOf ty)) : layout.ListsOnly good := by
  refine ⟨all (.ptr .void), all (.struct none [] false), ?_, ?_, ?_⟩
  · intro entry member
    have own : layout.alignOf (.int entry.bits) = abiBytes entry.abi := by
      have found := sorted.integers.find?_of_mem member fun other => beq_iff_eq
      simp [alignOf, extent, scalarExtent, DataLayout.integerAlign, found]
    exact own ▸ all (.int entry.bits)
  · intro entry member kind width
    have own : layout.alignOf (.float kind) = abiBytes entry.abi := by
      have found : layout.floats.find? (fun other => other.bits.toNat == kind.bitWidth) =
          some entry := by
        apply sorted.floats.find?_of_mem member
        intro other
        rw [beq_iff_eq, ← width, UInt32.toNat_inj]
      simp [alignOf, extent, scalarExtent, DataLayout.floatAlign, found]
    exact own ▸ all (.float kind)
  · intro entry member
    -- a vector of one integer is as wide as the integer
    have own : layout.alignOf (.vector 1 (.int entry.bits)) = abiBytes entry.abi := by
      have found : layout.vectors.find? (fun other => other.bits.toNat == entry.bits.toNat) =
          some entry := by
        apply sorted.vectors.find?_of_mem member
        intro other
        rw [beq_iff_eq, UInt32.toNat_inj]
      simp [alignOf, extent, scalarExtent, laneBits, DataLayout.vectorAlign, found]
    exact own ▸ all (.vector 1 (.int entry.bits))

/-- The types of a layout that was spelled have some property of their alignments, which powers of
two have, just if the listed alignments have it. -/
theorem listsOnly_iff_of_parse {spec : String} (parsed : parse spec = .ok layout)
    {good : Nat → Prop} (powers : ∀ value : Nat, value.isPowerOfTwo → good value) :
    layout.ListsOnly good ↔ ∀ ty, good (layout.alignOf ty) :=
  ⟨fun lists => lists.extent powers, (sorted_of_parse parsed).listsOnly⟩

theorem abiBytes_pos (abi : UInt32) : 0 < abiBytes abi :=
  Nat.lt_of_lt_of_le Nat.zero_lt_one (Nat.le_max_right ..)

/-- Every type has an alignment. -/
theorem alignOf_pos (layout : DataLayout) (ty : Ty) : 0 < layout.alignOf ty := by
  have lists : layout.ListsOnly (0 < ·) :=
    ⟨abiBytes_pos _, abiBytes_pos _, fun _ _ => abiBytes_pos _, fun _ _ _ _ => abiBytes_pos _,
      fun _ _ => abiBytes_pos _⟩
  exact lists.extent (fun _ power => Nat.pos_of_isPowerOfTwo power) ty

end DataLayout

end IrAssembly
