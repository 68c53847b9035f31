import IrAssembly.Proofs.Json.Phrase
import Mathlib.Data.List.Forall2

/-! The compact and the pretty text of a value are read back as that value. -/

namespace IrAssembly.Json

/-- The text of an item. -/
def SpellsItem (item : Json) (part : List Char) : Prop := (Phrase.value item).Spelled part

/-- The text of a member: blanks may stand behind its colon. -/
def SpellsMember (member : Option String × Json) (part : List Char) : Prop :=
  ∃ gap text, part = (quoted member.1).toList ++ ':' :: (gap ++ text) ∧ Blanks gap ∧
    (Phrase.value member.2).Spelled text

variable {before after : List Char} {parts : List (List Char)}

theorem blanks_nil : Blanks [] := fun _ member => absurd member List.not_mem_nil

/-- Items with the same blanks behind each comma, up to the bracket. -/
theorem spelled_items {items : List Json} (spells : List.Forall₂ SpellsItem items parts)
    (some : items ≠ []) (blanks : Blanks before) (blank : Blanks after) :
    (Phrase.items items).Spelled ((',' :: before).intercalate parts ++ (after ++ [']'])) := by
  induction spells with
  | nil => exact absurd rfl some
  | @cons item part items parts spell spells ih =>
    cases spells with
    | nil =>
      rw [List.intercalate_singleton]
      exact .lastItem spell blank
    | cons next others =>
      have more := Phrase.Spelled.item spell blanks_nil blanks (ih (List.cons_ne_nil _ _))
      rw [List.intercalate_cons_cons]
      simpa using more

/-- Members with the same blanks behind each comma, up to the brace. -/
theorem spelled_members {members : List (Option String × Json)}
    (spells : List.Forall₂ SpellsMember members parts) (some : members ≠ [])
    (blanks : Blanks before) (blank : Blanks after) :
    (Phrase.members members).Spelled
      ((',' :: before).intercalate parts ++ (after ++ ['\x7d'])) := by
  induction spells with
  | nil => exact absurd rfl some
  | @cons member part members parts spell spells ih =>
    obtain ⟨gap, text, rfl, gapBlank, spelled⟩ := spell
    cases spells with
    | nil =>
      have last := @Phrase.Spelled.lastMember member.1 _ _ _ _ gapBlank spelled blank
      rw [List.intercalate_singleton]
      simpa using last
    | cons next others =>
      have more := @Phrase.Spelled.member member.1 _ _ _ _ _ _ _ gapBlank spelled blanks_nil blanks
        (ih (List.cons_ne_nil _ _))
      rw [List.intercalate_cons_cons]
      simpa using more

/-! Compact texts -/

theorem toList_intercalate_comma (parts : List String) :
    (",".intercalate parts).toList = [','].intercalate (parts.map String.toList) :=
  String.toList_intercalate

mutual

theorem compact_spelled : ∀ json : Json, (Phrase.value json).Spelled (compact json).toList
  | .null | .bool _ | .int _ _ | .real | .str _ => by
    rw [compact]
    exact .scalar trivial
  | .arr [] => .emptyArray blanks_nil
  | .arr (item :: items) => by
    have spelled := spelled_items (compactItems_spelled (item :: items)) (List.cons_ne_nil _ _)
      blanks_nil blanks_nil
    have whole := Phrase.Spelled.array blanks_nil spelled
    rw [compact, String.toList_append, String.toList_append, toList_intercalate_comma]
    simpa using whole
  | .obj [] => .emptyObject blanks_nil
  | .obj (member :: members) => by
    have spelled := spelled_members (compactMembers_spelled (member :: members))
      (List.cons_ne_nil _ _) blanks_nil blanks_nil
    have whole := Phrase.Spelled.object blanks_nil spelled
    rw [compact, String.toList_append, String.toList_append, toList_intercalate_comma]
    simpa using whole

theorem compactItems_spelled : ∀ items : List Json,
    List.Forall₂ SpellsItem items ((compactItems items).map String.toList)
  | [] => .nil
  | item :: items => .cons (compact_spelled item) (compactItems_spelled items)

theorem compactMembers_spelled : ∀ members : List (Option String × Json),
    List.Forall₂ SpellsMember members ((compactMembers members).map String.toList)
  | [] => .nil
  | (name, value) :: members => by
    refine .cons ⟨[], (compact value).toList, ?_, blanks_nil, compact_spelled value⟩
      (compactMembers_spelled members)
    simp

end

/-! Pretty texts -/

theorem blanks_newLine (level : Nat) : Blanks (newLine level).toList := by
  intro char member
  simp only [newLine, String.toList_append, String.toList_ofList, List.mem_append] at member
  rcases member with line | indent
  · simp at line
    subst line
    decide
  · rw [(List.mem_replicate.mp indent).2]
    decide

theorem block_nil (opening closing : String) (level : Nat) :
    block opening closing level [] = opening ++ closing := rfl

theorem toList_block (opening closing : String) (level : Nat) {parts : List String}
    (some : parts ≠ []) : (block opening closing level parts).toList =
      opening.toList ++ ((newLine (level + 1)).toList ++
        ((',' :: (newLine (level + 1)).toList).intercalate (parts.map String.toList) ++
          ((newLine level).toList ++ closing.toList))) := by
  have separator : ("," ++ newLine (level + 1)).toList = ',' :: (newLine (level + 1)).toList := by
    simp
  rw [block, List.isEmpty_eq_false_iff.mpr some, if_neg Bool.false_ne_true]
  simp only [String.toList_append, String.toList_intercalate, separator, List.append_assoc]

mutual

theorem prettyAt_spelled : ∀ (level : Nat) (json : Json),
    (Phrase.value json).Spelled (prettyAt level json).toList
  | _, .null | _, .bool _ | _, .int _ _ | _, .real | _, .str _ => by
    rw [prettyAt]
    exact .scalar trivial
  | _, .arr [] => by
    rw [prettyAt, prettyItems, block_nil]
    exact .emptyArray blanks_nil
  | level, .arr (item :: items) => by
    have spelled := spelled_items (prettyItems_spelled (level + 1) (item :: items))
      (List.cons_ne_nil _ _) (blanks_newLine (level + 1)) (blanks_newLine level)
    have whole := Phrase.Spelled.array (blanks_newLine (level + 1)) spelled
    rw [prettyAt, toList_block _ _ _ (by simp [prettyItems])]
    exact whole
  | _, .obj [] => by
    rw [prettyAt, prettyMembers, block_nil]
    exact .emptyObject blanks_nil
  | level, .obj (member :: members) => by
    have spelled := spelled_members (prettyMembers_spelled (level + 1) (member :: members))
      (List.cons_ne_nil _ _) (blanks_newLine (level + 1)) (blanks_newLine level)
    have whole := Phrase.Spelled.object (blanks_newLine (level + 1)) spelled
    rw [prettyAt, toList_block _ _ _ (by simp [prettyMembers])]
    exact whole

theorem prettyItems_spelled : ∀ (level : Nat) (items : List Json),
    List.Forall₂ SpellsItem items ((prettyItems level items).map String.toList)
  | _, [] => .nil
  | level, item :: items => .cons (prettyAt_spelled level item) (prettyItems_spelled level items)

theorem prettyMembers_spelled : ∀ (level : Nat) (members : List (Option String × Json)),
    List.Forall₂ SpellsMember members ((prettyMembers level members).map String.toList)
  | _, [] => .nil
  | level, (name, value) :: members => by
    refine .cons ⟨[' '], (prettyAt level value).toList, ?_, ?_, prettyAt_spelled level value⟩
      (prettyMembers_spelled level members)
    · simp
    · intro char member
      rw [List.mem_singleton.mp member]
      decide

end

/-! Reading back -/

theorem parse_of_spelled {json : Json} {text : String}
    (spelled : (Phrase.value json).Spelled text.toList) : parse text = some json := by
  have read := spelled.readFrom (2 * text.toList.length + 1) [] (by omega) (by simp [EndsNumber])
  rw [List.append_nil] at read
  rw [parse]
  show (readValue (2 * text.toList.length + 1 + 1) text.toList).bind _ = _
  rw [show readValue (2 * text.toList.length + 1 + 1) text.toList = some (json, []) from read]
  rfl

theorem parse_compact (json : Json) : parse json.compact = some json :=
  parse_of_spelled (compact_spelled json)

theorem parse_pretty (json : Json) : parse json.pretty = some json :=
  parse_of_spelled (prettyAt_spelled 0 json)

end IrAssembly.Json
