import IrAssembly.Proofs.Layout.Alignment
import IrAssembly.Proofs.Layout.Grammar
import Mathlib.Data.List.Sort

/-! What a layout string settles. Each setting is that of the last token that names it, and tokens
that name different settings may stand in any order. -/

namespace IrAssembly

/-- What a token of a layout string may set. -/
inductive LayoutSlot where
  | endianness
  | pointer
  | alignment (kind : AlignedKind) (bits : UInt32)
  | aggregate
  | stackObject
  | nativeIntegers
  | stack
  | mangling
  deriving DecidableEq, Repr

namespace LayoutItem

/-- What an item sets. Pointers of other address spaces than the first one set nothing. -/
def slot? : LayoutItem → Option LayoutSlot
  | endianness _ => some .endianness
  | pointer addressSpace _ _ => if addressSpace = 0 then some .pointer else none
  | alignment kind entry => some (.alignment kind entry.bits)
  | aggregate _ => some .aggregate
  | stackObject _ => some .stackObject
  | nativeIntegers _ => some .nativeIntegers
  | stack _ => some .stack
  | mangling _ => some .mangling

/-- A token spells one item. -/
theorem SpelledBy.unique {item other : LayoutItem} {token : List Char}
    (spelled : item.SpelledBy token) (too : other.SpelledBy token) : item = other := by
  rw [← ofToken_eq_ok_iff] at spelled too
  exact Except.ok.inj (spelled.symm.trans too)

end LayoutItem

namespace LayoutSlot

/-- A token spells an item that sets something. -/
def NamedBy (slot : LayoutSlot) (token : List Char) : Prop :=
  ∃ item : LayoutItem, item.SpelledBy token ∧ item.slot? = some slot

theorem namedBy_iff {slot : LayoutSlot} {token : List Char} :
    slot.NamedBy token ↔
      (LayoutItem.ofToken token).toOption.bind LayoutItem.slot? = some slot := by
  simp only [NamedBy, ← LayoutItem.ofToken_eq_ok_iff]
  cases LayoutItem.ofToken token <;> simp [Except.toOption]

instance (slot : LayoutSlot) : DecidablePred slot.NamedBy := fun _ =>
  decidable_of_iff _ namedBy_iff.symm

theorem namedBy_iff_of_spelledBy {slot : LayoutSlot} {item : LayoutItem} {token : List Char}
    (spelled : item.SpelledBy token) : slot.NamedBy token ↔ item.slot? = some slot := by
  constructor
  · rintro ⟨other, too, named⟩
    rwa [spelled.unique too]
  · exact fun named => ⟨item, spelled, named⟩

/-- Those of several tokens that name something, in their order. -/
def naming (slot : LayoutSlot) (tokens : List (List Char)) : List (List Char) :=
  tokens.filter (slot.NamedBy ·)

end LayoutSlot

/-- Tokens stand in another order, but those that name the same thing stand as before. -/
structure Reorders (tokens others : List (List Char)) : Prop where
  perm : others.Perm tokens
  kept : ∀ slot : LayoutSlot, slot.naming others = slot.naming tokens

/-- Two tokens in a row that name nothing in common change places. -/
theorem Reorders.swap (before behind : List (List Char)) {first second : List Char}
    (apart : ∀ slot : LayoutSlot, slot.NamedBy first → ¬ slot.NamedBy second) :
    Reorders (before ++ first :: second :: behind) (before ++ second :: first :: behind) := by
  refine ⟨(List.Perm.swap first second behind).append_left before, fun slot => ?_⟩
  unfold LayoutSlot.naming
  by_cases named : slot.NamedBy first
  · simp [named, apart slot named]
  · simp [named, List.filter_cons]

/-! Entries -/

/-- Other widths are found as before. -/
theorem find?_upsert (entry : AlignEntry) (entries : List AlignEntry) (bits : UInt32) :
    (upsert entry entries).find? (fun other => other.bits == bits) =
      if entry.bits = bits then some entry
      else entries.find? fun other => other.bits == bits := by
  induction entries with
  | nil => by_cases own : entry.bits = bits <;> simp [upsert, own]
  | cons head tail ih =>
    unfold upsert
    split
    · rename_i same
      by_cases own : entry.bits = bits <;> simp [own, same]
    · rename_i differs
      by_cases first : head.bits = bits
      · have other : entry.bits ≠ bits := by
          rintro rfl
          exact differs first
        simp [first, other]
      · simp [first, ih]

theorem find?_insertByWidth (entry : AlignEntry) (entries : List AlignEntry) (bits : UInt32) :
    (insertByWidth entry entries).find? (fun other => other.bits == bits) =
      if entry.bits = bits then some entry
      else entries.find? fun other => other.bits == bits := by
  induction entries with
  | nil => by_cases own : entry.bits = bits <;> simp [insertByWidth, own]
  | cons head tail ih =>
    unfold insertByWidth
    split
    · by_cases own : entry.bits = bits <;> simp [own]
    · rename_i wider
      by_cases first : head.bits = bits
      · have differs : entry.bits ≠ bits := by
          rintro rfl
          exact wider (first ▸ UInt32.le_refl _)
        simp [first, differs]
      · simp [first, ih]

/-- Sorting keeps what is found under a width. -/
theorem find?_sortByWidth (entries : List AlignEntry) (bits : UInt32) :
    (sortByWidth entries).find? (fun other => other.bits == bits) =
      entries.find? fun other => other.bits == bits := by
  induction entries with
  | nil => rfl
  | cons head tail ih =>
    rw [sortByWidth, find?_insertByWidth, ih]
    by_cases first : head.bits = bits <;> simp [first]

/-- The entry that decides how integers of a width are aligned: the one of the width, else the one
of the next greater width, else the one of the greatest width. -/
inductive Decides (entries : List AlignEntry) (bits : UInt32) (entry : AlignEntry) : Prop where
  | own (listed : entry ∈ entries) (same : entry.bits = bits)
  | wider (listed : entry ∈ entries) (unlisted : ∀ other ∈ entries, other.bits ≠ bits)
      (greater : bits < entry.bits)
      (next : ∀ other ∈ entries, bits < other.bits → entry.bits ≤ other.bits)
  | widest (listed : entry ∈ entries) (narrower : ∀ other ∈ entries, other.bits < bits)
      (greatest : ∀ other ∈ entries, other.bits ≤ entry.bits)

theorem Decides.listed {entries : List AlignEntry} {bits : UInt32} {entry : AlignEntry}
    (decides : Decides entries bits entry) : entry ∈ entries := by
  cases decides <;> assumption

theorem eq_nil_of_lookup_eq_none {entries : List AlignEntry} {bits : UInt32}
    (none : (entries.find? (fun entry => entry.bits == bits) <|>
      entries.find? (fun entry => bits < entry.bits) <|> entries.getLast?) = none) :
    entries = [] := by
  obtain ⟨_, rest⟩ := (Option.orElse_eq_none ..).mp none
  exact List.getLast?_eq_none_iff.mp ((Option.orElse_eq_none ..).mp rest).2

namespace Ascending

variable {entries others : List AlignEntry} {entry other : AlignEntry} {bits : UInt32}

theorem mem_iff_find? (ascending : Ascending entries) :
    entry ∈ entries ↔ entries.find? (fun other => other.bits == entry.bits) = some entry :=
  ⟨fun member => ascending.find?_of_mem member fun _ => beq_iff_eq, List.mem_of_find?_eq_some⟩

theorem eq_of_bits_eq (ascending : Ascending entries) (first : entry ∈ entries)
    (second : other ∈ entries) (same : entry.bits = other.bits) : entry = other := by
  have found := same ▸ ascending.mem_iff_find?.mp first
  exact Option.some.inj (found.symm.trans (ascending.mem_iff_find?.mp second))

theorem nodup (ascending : Ascending entries) : entries.Nodup := by
  unfold Ascending at ascending
  refine ascending.imp ?_
  rintro first second less rfl
  exact UInt32.lt_irrefl _ less

/-- Entries in ascending order are told apart by what is found under some width. -/
theorem eq_of_find? (ascending : Ascending entries) (too : Ascending others)
    (same : ∀ bits, entries.find? (fun other => other.bits == bits) =
      others.find? fun other => other.bits == bits) : entries = others := by
  have perm : entries.Perm others := by
    refine (List.perm_ext_iff_of_nodup ascending.nodup too.nodup).mpr fun entry => ?_
    rw [ascending.mem_iff_find?, too.mem_iff_find?, same]
  refine List.Perm.eq_of_pairwise ?_ ascending too perm
  exact fun _ _ _ _ less greater => absurd greater (UInt32.lt_asymm less)

/-- One entry decides. -/
theorem decides_unique (ascending : Ascending entries) (decides : Decides entries bits entry)
    (too : Decides entries bits other) : entry = other := by
  refine ascending.eq_of_bits_eq decides.listed too.listed ?_
  cases decides with
  | own listed same =>
    cases too with
    | own _ too => exact same.trans too.symm
    | wider _ unlisted => exact absurd same (unlisted _ listed)
    | widest _ narrower => exact absurd (same ▸ narrower _ listed) (UInt32.lt_irrefl _)
  | wider listed unlisted greater next =>
    cases too with
    | own listed same => exact absurd same (unlisted _ listed)
    | wider too _ above least =>
      exact UInt32.le_antisymm (next _ too above) (least _ listed greater)
    | widest _ narrower => exact absurd greater (UInt32.lt_asymm (narrower _ listed))
  | widest listed narrower greatest =>
    cases too with
    | own too same => exact absurd (same ▸ narrower _ too) (UInt32.lt_irrefl _)
    | wider too _ above => exact absurd above (UInt32.lt_asymm (narrower _ too))
    | widest too _ last => exact UInt32.le_antisymm (last _ listed) (greatest _ too)

/-- The first entry of a greater width is the one of the next greater width. -/
theorem le_of_find?_wider (ascending : Ascending entries)
    (found : entries.find? (fun entry => bits < entry.bits) = some entry) (member : other ∈ entries)
    (greater : bits < other.bits) : entry.bits ≤ other.bits := by
  obtain ⟨_, before, behind, rfl, narrower⟩ := List.find?_eq_some_iff_append.mp found
  obtain ⟨_, later, _⟩ := List.pairwise_append.mp ascending
  rcases List.mem_append.mp member with early | late
  · exact absurd greater (by simpa using narrower other early)
  · rcases List.mem_cons.mp late with rfl | inBehind
    · exact UInt32.le_refl _
    · exact UInt32.le_of_lt ((List.pairwise_cons.mp later).1 other inBehind)

/-- The last entry is the one of the greatest width. -/
theorem le_of_getLast? (ascending : Ascending entries) (last : entries.getLast? = some entry)
    (member : other ∈ entries) : other.bits ≤ entry.bits := by
  obtain ⟨before, rfl⟩ := List.getLast?_eq_some_iff.mp last
  obtain ⟨_, _, less⟩ := List.pairwise_append.mp ascending
  rcases List.mem_append.mp member with early | late
  · exact UInt32.le_of_lt (less other early entry (.head _))
  · rw [List.mem_singleton.mp late]
    exact UInt32.le_refl _

theorem decides_of_lookup (ascending : Ascending entries)
    (found : (entries.find? (fun entry => entry.bits == bits) <|>
      entries.find? (fun entry => bits < entry.bits) <|> entries.getLast?) = some entry) :
    Decides entries bits entry := by
  rcases (Option.orElse_eq_some ..).mp found with exact | ⟨none, rest⟩
  · exact .own (List.mem_of_find?_eq_some exact) (by simpa using List.find?_some exact)
  · have unlisted : ∀ other ∈ entries, other.bits ≠ bits := by
      simpa using List.find?_eq_none.mp none
    rcases (Option.orElse_eq_some ..).mp rest with wider | ⟨narrow, last⟩
    · refine .wider (List.mem_of_find?_eq_some wider) unlisted ?_ ?_
      · simpa using List.find?_some wider
      · exact fun other member => ascending.le_of_find?_wider wider member
    · refine .widest (List.mem_of_getLast? last) ?_ ?_
      · intro other member
        have notGreater : ¬ bits < other.bits := by
          simpa using List.find?_eq_none.mp narrow other member
        exact UInt32.lt_of_le_of_ne (UInt32.not_lt.mp notGreater) (unlisted other member)
      · exact fun other member => ascending.le_of_getLast? last member

theorem exists_decides (ascending : Ascending entries) (nonempty : entries ≠ [])
    (bits : UInt32) : ∃ entry, Decides entries bits entry := by
  cases found : (entries.find? (fun entry => entry.bits == bits) <|>
    entries.find? (fun entry => bits < entry.bits) <|> entries.getLast?) with
  | none => exact absurd (eq_nil_of_lookup_eq_none found) nonempty
  | some entry => exact ⟨entry, ascending.decides_of_lookup found⟩

end Ascending

/-- The least power of two that is no less than a number. -/
structure IsNextPower (value power : Nat) : Prop where
  isPower : power.isPowerOfTwo
  reaches : value ≤ power
  least : ∀ other : Nat, other.isPowerOfTwo → value ≤ other → power ≤ other

theorem isNextPower_nextPowerOfTwo (value : Nat) : IsNextPower value (nextPowerOfTwo value) := by
  refine ⟨isPowerOfTwo_nextPowerOfTwo value, ?_, ?_⟩
  · unfold nextPowerOfTwo
    split
    · assumption
    · have less : value - 1 < 2 ^ ((value - 1).log2 + 1) := Nat.lt_log2_self
      omega
  · rintro _ ⟨exponent, rfl⟩ reaches
    unfold nextPowerOfTwo
    split
    · exact Nat.one_le_two_pow
    · have below : 2 ^ (value - 1).log2 ≤ value - 1 := Nat.log2_self_le (by omega)
      have less : 2 ^ (value - 1).log2 < 2 ^ exponent := by omega
      exact Nat.pow_le_pow_right Nat.two_pos ((Nat.pow_lt_pow_iff_right Nat.one_lt_two).mp less)

namespace DataLayout

variable {layout other : DataLayout}

/-! Settings -/

/-- The entries of a kind of types. -/
def entries (layout : DataLayout) : AlignedKind → List AlignEntry
  | .integer => layout.integers
  | .float => layout.floats
  | .vector => layout.vectors

/-- How something is set, as the item that sets it so. -/
def setting? (layout : DataLayout) : LayoutSlot → Option LayoutItem
  | .endianness => some (.endianness layout.endianness)
  | .pointer => some (.pointer 0 layout.pointerSize layout.pointerAbi)
  | .alignment kind bits =>
    ((layout.entries kind).find? fun entry => entry.bits == bits).map (.alignment kind)
  | .aggregate => some (.aggregate layout.aggregateAbi)
  | .stackObject => some (.stackObject layout.stackObjectAbi)
  | .nativeIntegers => some (.nativeIntegers layout.nativeIntegerWidths)
  | .stack => layout.stackAlignment.map .stack
  | .mangling => layout.mangling.map .mangling

theorem Sorted.ascending (sorted : layout.Sorted) (kind : AlignedKind) :
    Ascending (layout.entries kind) := by
  cases kind with
  | integer => exact sorted.integers
  | float => exact sorted.floats
  | vector => exact sorted.vectors

theorem alignment_injective (kind : AlignedKind) :
    Function.Injective (LayoutItem.alignment kind) :=
  fun _ _ same => (LayoutItem.alignment.inj same).2

theorem Sorted.mem_entries_iff (sorted : layout.Sorted) {kind : AlignedKind} {entry : AlignEntry} :
    entry ∈ layout.entries kind ↔
      layout.setting? (.alignment kind entry.bits) = some (.alignment kind entry) := by
  rw [(sorted.ascending kind).mem_iff_find?, setting?, Option.map_eq_some_iff]
  constructor
  · exact fun found => ⟨entry, found, rfl⟩
  · rintro ⟨other, found, same⟩
    exact alignment_injective kind same ▸ found

theorem entries_apply_alignment (layout : DataLayout) (kind other : AlignedKind)
    (entry : AlignEntry) :
    (layout.apply (.alignment kind entry)).entries other =
      if kind = other then upsert entry (layout.entries other) else layout.entries other := by
  cases kind <;> cases other <;> rfl

/-- An item sets what it names, and nothing else. -/
theorem setting?_apply (layout : DataLayout) (item : LayoutItem) (slot : LayoutSlot) :
    (layout.apply item).setting? slot =
      if item.slot? = some slot then some item else layout.setting? slot := by
  cases item with
  | alignment kind entry =>
    cases slot with
    | alignment other bits =>
      rw [setting?, setting?, entries_apply_alignment]
      by_cases same : kind = other
      · subst same
        rw [if_pos rfl, find?_upsert]
        by_cases own : entry.bits = bits <;> simp [LayoutItem.slot?, own]
      · simp [LayoutItem.slot?, same]
    | _ => cases kind <;> simp [apply, setting?, LayoutItem.slot?]
  | pointer addressSpace size abi =>
    by_cases first : addressSpace = 0 <;> cases slot <;>
      simp [apply, setting?, LayoutItem.slot?, first, entries]
  | _ => cases slot <;> simp [apply, setting?, LayoutItem.slot?, entries]

theorem entries_sortEntries (layout : DataLayout) (kind : AlignedKind) :
    layout.sortEntries.entries kind = sortByWidth (layout.entries kind) := by
  cases kind <;> rfl

theorem setting?_sortEntries (layout : DataLayout) (slot : LayoutSlot) :
    layout.sortEntries.setting? slot = layout.setting? slot := by
  cases slot with
  | alignment kind bits => rw [setting?, setting?, entries_sortEntries, find?_sortByWidth]
  | _ => rfl

/-- The last of several items that name a thing sets it. -/
theorem setting?_foldl (layout : DataLayout) (items : List LayoutItem) (slot : LayoutSlot) :
    (items.foldl apply layout).setting? slot =
      (items.filter (·.slot? = some slot)).getLast?.or (layout.setting? slot) := by
  induction items generalizing layout with
  | nil => rfl
  | cons item items ih =>
    rw [List.foldl_cons, ih, setting?_apply, List.filter_cons]
    by_cases named : item.slot? = some slot
    · rw [if_pos named, if_pos (by simpa using named), List.getLast?_cons]
      cases (items.filter _).getLast? <;> rfl
    · rw [if_neg named, if_neg (by simpa using named)]

/-- Layouts are told apart by some setting. -/
theorem Sorted.eq_of_setting? (sorted : layout.Sorted) (too : other.Sorted)
    (same : ∀ slot, layout.setting? slot = other.setting? slot) : layout = other := by
  have entries (kind : AlignedKind) : layout.entries kind = other.entries kind :=
    (sorted.ascending kind).eq_of_find? (too.ascending kind) fun bits =>
      Option.map_injective (alignment_injective kind) (same (.alignment kind bits))
  have endianness := same .endianness
  have pointer := same .pointer
  have aggregate := same .aggregate
  have stackObject := same .stackObject
  have nativeIntegers := same .nativeIntegers
  have stack := Option.map_injective (fun _ _ => LayoutItem.stack.inj) (same .stack)
  have mangling := Option.map_injective (fun _ _ => LayoutItem.mangling.inj) (same .mangling)
  have integers := entries .integer
  have floats := entries .float
  have vectors := entries .vector
  cases layout
  cases other
  simp_all [setting?, DataLayout.entries]

/-! Layout strings -/

variable {spec : String} {tokens others : List (List Char)} {items : List LayoutItem}

/-- The items that tokens spell, one for each. -/
def Reads (tokens : List (List Char)) (items : List LayoutItem) : Prop :=
  List.Forall₂ (fun token item => item.SpelledBy token) tokens items

theorem parse_eq_ok_iff :
    parse spec = .ok layout ↔
      ∃ items, Reads (DataLayout.tokens spec) items ∧
        (items.foldl apply unspecified).sortEntries = layout := by
  unfold parse Reads
  rw [bind_eq_ok_iff]
  simp only [mapM_eq_ok_iff, LayoutItem.ofToken_eq_ok_iff]
  refine exists_congr fun items => and_congr_right fun _ => ?_
  exact ⟨Except.ok.inj, congrArg Except.ok⟩

namespace Reads

theorem unique {more : List LayoutItem} (reads : Reads tokens items) (too : Reads tokens more) :
    items = more := by
  have one : Relator.RightUnique fun (token : List Char) item => LayoutItem.SpelledBy item token :=
    fun _ _ _ => LayoutItem.SpelledBy.unique
  exact one.forall₂ reads too

theorem naming (reads : Reads tokens items) (slot : LayoutSlot) :
    Reads (slot.naming tokens) (items.filter (·.slot? = some slot)) := by
  refine List.rel_filter ?_ reads
  intro token item spelled
  simpa using LayoutSlot.namedBy_iff_of_spelledBy spelled

theorem exists_of_forall (spelled : ∀ token ∈ tokens, ∃ item : LayoutItem, item.SpelledBy token) :
    ∃ items, Reads tokens items := by
  induction tokens with
  | nil => exact ⟨[], .nil⟩
  | cons token tokens ih =>
    obtain ⟨⟨item, first⟩, others⟩ := List.forall_mem_cons.mp spelled
    obtain ⟨items, rest⟩ := ih others
    exact ⟨item :: items, .cons first rest⟩

theorem exists_of_mem (reads : Reads tokens items) {token : List Char} (member : token ∈ tokens) :
    ∃ item : LayoutItem, item.SpelledBy token := by
  induction reads with
  | nil => cases member
  | cons spelled _ ih =>
    rcases List.mem_cons.mp member with rfl | inRest
    · exact ⟨_, spelled⟩
    · exact ih inRest

theorem getLast? (reads : Reads tokens items) {token : List Char}
    (last : tokens.getLast? = some token) :
    ∃ item, items.getLast? = some item ∧ item.SpelledBy token := by
  induction reads with
  | nil => cases last
  | @cons head item _ items spelled rest ih =>
    cases rest with
    | nil =>
      cases last
      exact ⟨item, rfl, spelled⟩
    | cons => exact ih last

end Reads

/-- What the last token spells that names something holds in the end, and what no token names is as
it is where nothing is spelled. -/
theorem setting?_of_parse (parsed : parse spec = .ok layout) {slot : LayoutSlot}
    {item : LayoutItem} :
    layout.setting? slot = some item ↔
      (∃ token, (slot.naming (DataLayout.tokens spec)).getLast? = some token ∧
        item.SpelledBy token) ∨
      slot.naming (DataLayout.tokens spec) = [] ∧ unspecified.setting? slot = some item := by
  obtain ⟨items, reads, rfl⟩ := parse_eq_ok_iff.mp parsed
  have named := reads.naming slot
  rw [setting?_sortEntries, setting?_foldl]
  cases last : (slot.naming (DataLayout.tokens spec)).getLast? with
  | none =>
    obtain none := List.getLast?_eq_none_iff.mp last
    rw [none] at named
    rw [List.forall₂_nil_left_iff.mp named]
    simp [none]
  | some token =>
    obtain ⟨final, ends, spelled⟩ := named.getLast? last
    have nonempty : slot.naming (DataLayout.tokens spec) ≠ [] := by
      intro none
      rw [none] at last
      cases last
    rw [ends, Option.some_or]
    constructor
    · rintro ⟨⟩
      exact .inl ⟨token, rfl, spelled⟩
    · rintro (⟨_, ⟨⟩, too⟩ | ⟨none, _⟩)
      · rw [spelled.unique too]
      · exact absurd none nonempty

theorem mem_entries_of_parse (parsed : parse spec = .ok layout) {kind : AlignedKind}
    {entry : AlignEntry} :
    entry ∈ layout.entries kind ↔
      ∃ token, ((LayoutSlot.alignment kind entry.bits).naming
        (DataLayout.tokens spec)).getLast? = some token ∧
        (LayoutItem.alignment kind entry).SpelledBy token := by
  have unlisted : unspecified.setting? (.alignment kind entry.bits) = none := by cases kind <;> rfl
  rw [(sorted_of_parse parsed).mem_entries_iff, setting?_of_parse parsed, unlisted]
  simp

theorem parse_of_reorders (parsed : parse spec = .ok layout) {again : String}
    (reorders : Reorders (DataLayout.tokens spec) (DataLayout.tokens again)) :
    parse again = .ok layout := by
  obtain ⟨items, reads, rfl⟩ := parse_eq_ok_iff.mp parsed
  obtain ⟨others, readsToo⟩ := Reads.exists_of_forall fun token member =>
    reads.exists_of_mem (reorders.perm.mem_iff.mp member)
  refine parse_eq_ok_iff.mpr ⟨others, readsToo, ?_⟩
  refine (sorted_foldl others).eq_of_setting? (sorted_foldl items) ?_
  intro slot
  have named := reorders.kept slot ▸ readsToo.naming slot
  rw [setting?_sortEntries, setting?_sortEntries, setting?_foldl, setting?_foldl,
    named.unique (reads.naming slot)]

/-! Alignments of integers -/

theorem Sorted.alignOf_int (sorted : layout.Sorted) {bits : UInt32} {entry : AlignEntry}
    (decides : Decides layout.integers bits entry) :
    layout.alignOf (.int bits) = abiBytes entry.abi := by
  change layout.integerAlign bits = _
  unfold integerAlign
  extract_lets exact wider
  split
  · rename_i found
    rw [sorted.integers.decides_unique (sorted.integers.decides_of_lookup found) decides]
  · rename_i none
    exact nomatch eq_nil_of_lookup_eq_none none ▸ decides.listed

theorem alignOf_int_of_unlisted (unlisted : layout.integers = []) (bits : UInt32) :
    IsNextPower (bytesFor bits.toNat) (layout.alignOf (.int bits)) := by
  have same : layout.alignOf (.int bits) = nextPowerOfTwo (bytesFor bits.toNat) := by
    simp [alignOf, extent, scalarExtent, integerAlign, unlisted]
  exact same ▸ isNextPower_nextPowerOfTwo _

/-- A layout string that is read gives sorted entries; each setting is that of the last token that
names it, in whatever order tokens stand that name different settings; and integers are aligned by
the entry of their width, else of the next greater one, else of the greatest one, and by their size
if there are no entries. -/
theorem parse_settles (parsed : parse spec = .ok layout) :
    layout.Sorted ∧
      (∀ slot item, layout.setting? slot = some item ↔
        (∃ token, (slot.naming (DataLayout.tokens spec)).getLast? = some token ∧
          item.SpelledBy token) ∨
        slot.naming (DataLayout.tokens spec) = [] ∧ unspecified.setting? slot = some item) ∧
      (∀ kind entry, entry ∈ layout.entries kind ↔
        ∃ token, ((LayoutSlot.alignment kind entry.bits).naming
          (DataLayout.tokens spec)).getLast? = some token ∧
          (LayoutItem.alignment kind entry).SpelledBy token) ∧
      (∀ again, Reorders (DataLayout.tokens spec) (DataLayout.tokens again) →
        parse again = .ok layout) ∧
      ∀ bits, (∀ entry, Decides layout.integers bits entry →
          layout.alignOf (.int bits) = abiBytes entry.abi) ∧
        (layout.integers ≠ [] → ∃ entry, Decides layout.integers bits entry) ∧
        (layout.integers = [] →
          IsNextPower (bytesFor bits.toNat) (layout.alignOf (.int bits))) := by
  have sorted := sorted_of_parse parsed
  refine ⟨sorted, fun _ _ => setting?_of_parse parsed, fun _ _ => mem_entries_of_parse parsed,
    fun _ => parse_of_reorders parsed, fun bits => ⟨fun _ => sorted.alignOf_int, ?_, ?_⟩⟩
  · exact fun listed => sorted.integers.exists_decides listed bits
  · exact fun unlisted => alignOf_int_of_unlisted unlisted bits

set_option maxRecDepth 20000 in
/-- Two tokens name the width of 32; the later one holds, wherever other widths stand. -/
theorem parse_settles_of_repeated_width :
    ∃ layout, parse "p0:32:32-i32:16-i8:8:16-p1:16:16-i+32:32:64" = .ok layout ∧
      parse "p0:32:32-i8:8:16-i32:16-p1:16:16-i+32:32:64" = .ok layout ∧
      layout.integers = [⟨8, 8, 16⟩, ⟨32, 32, 64⟩] ∧ layout.pointerSize = 32 ∧
      layout.alignOf (.int 24) = 4 := by
  have parsed : parse "p0:32:32-i32:16-i8:8:16-p1:16:16-i+32:32:64" =
      .ok { unspecified with
        pointerSize := 32, pointerAbi := 32, integers := [⟨8, 8, 16⟩, ⟨32, 32, 64⟩] } := by rfl
  obtain ⟨_, _, _, reordered, aligned⟩ := parse_settles parsed
  refine ⟨_, parsed, reordered _ ?_, rfl, rfl, ?_⟩
  · have apart : ∀ slot : LayoutSlot, slot.NamedBy "i32:16".toList →
        ¬ slot.NamedBy "i8:8:16".toList := by
      intro slot first second
      have same := (LayoutSlot.namedBy_iff.mp first).trans (LayoutSlot.namedBy_iff.mp second).symm
      exact absurd same (by decide)
    exact Reorders.swap ["p0:32:32".toList] ["p1:16:16".toList, "i+32:32:64".toList] apart
  · exact (aligned 24).1 ⟨32, 32, 64⟩ (.wider (by decide) (by decide) (by decide) (by decide))

end DataLayout

end IrAssembly
