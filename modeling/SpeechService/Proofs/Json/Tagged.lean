import Mathlib.Data.List.Nodup
import SpeechService.Json.Value
import SpeechService.Proofs.Json.Values

/-!
Messages with a kind. Whatever space they hold and wherever the kind stands, reading a message is a
fold over its members; if their names differ, it gives the kind and the other members, or the
message is refused as not the expected one.
-/

set_option autoImplicit false

namespace SpeechService.Json

theorem Value.text?_eq_some_iff {value : Value} {content : String} :
    value.text? = some content ↔ value = .text content := by
  cases value <;> simp [Value.text?]

theorem text?_of_readScalar {input rest : Input} {value : Value}
    (h : readScalar input = .ok (value, rest)) (other : ∀ tail, input ≠ '"' :: tail) :
    value.text? = none := by
  rw [readScalar.eq_def] at h
  simp only [Bind.bind, Except.bind] at h
  split at h
  · split at h <;> cases h
    rfl
  · split at h <;> cases h
    rfl
  · split at h <;> cases h
    rfl
  · exact absurd rfl (other _)
  · cases h
  · split at h
    · split at h <;> cases h
      rfl
    · cases h

theorem readText_of_readValue {depth : Nat} {input rest : Input} {value : Value}
    (h : readValue depth input = .ok (value, rest)) :
    readText input = match value.text? with
      | some content => .ok (content, rest)
      | none => .error .mismatched := by
  have mismatched := mismatch_of_readValue h
  rw [readValue.eq_def] at h
  rw [readText, mismatched]
  split at h
  · cases h
  · cases h
  · rename_i front
    rw [front]
    simp only [Bind.bind, Except.bind] at h
    split at h <;> cases h
    rfl
  · rename_i front
    rw [front]
    simp only [Bind.bind, Except.bind] at h
    split at h <;> cases h
    rfl
  · split
    · rename_i tail front
      rw [front, readScalar] at h
      simp only [Bind.bind, Except.bind] at h
      split at h
      · cases h
      · rename_i read
        cases h
        exact read
    · rename_i other
      rw [text?_of_readScalar h other]

def tagStep (kinds : List String) (message : Tagged (String × Value)) (member : String × Value) :
    Except Fault (Tagged (String × Value)) :=
  if member.1 = kindName then
    if message.kind.isSome then .error .mismatched
    else match member.2.text? with
      | some kind =>
        if kinds.contains kind then .ok ⟨some kind, message.content⟩ else .error .mismatched
      | none => .error .mismatched
  else .ok ⟨message.kind, member :: message.content⟩

theorem MemberReadAs.tagStep (kinds : List String) {text : List Char} {member : String × Value}
    (h : MemberReadAs (greatestDepth - 1) text member) :
    MemberStep (readTaggedMember kinds) (tagStep kinds) text member := by
  obtain @⟨quoted, tail, name, value, named, behind⟩ := h
  refine .mk named ?_
  intro message rest ends
  obtain ⟨input, colon, read⟩ := behind rest ends
  rw [readTaggedMember, Json.tagStep]
  by_cases kind : name = kindName
  · rw [if_pos kind, if_pos kind]
    cases message.kind.isSome with
    | true => rfl
    | false =>
      have text := readText_of_readValue read
      rw [if_neg Bool.false_ne_true, if_neg Bool.false_ne_true, colon]
      simp only [Bind.bind, Except.bind, readKind, text]
      cases value.text? with
      | none => rfl
      | some content =>
        by_cases known : kinds.contains content = true
        · simp only [known, if_true]
          rfl
        · simp only [known]
          rfl
  · rw [if_neg kind, if_neg kind, colon]
    simp only [Bind.bind, Except.bind, read]
    rfl

variable {kinds : List String} {members : List (String × Value)}

theorem foldlM_tagStep_of_others (others : ∀ member ∈ members, member.1 ≠ kindName)
    (message : Tagged (String × Value)) :
    members.foldlM (tagStep kinds) message =
      .ok ⟨message.kind, members.reverse ++ message.content⟩ := by
  induction members generalizing message with
  | nil => rfl
  | cons member members ih =>
    obtain ⟨other, others⟩ := List.forall_mem_cons.1 others
    rw [List.foldlM_cons, tagStep, if_neg other, List.reverse_cons, List.append_assoc]
    exact ih others _

theorem readTagged_fold {texts : List (List Char)} {inner : List Char}
    (each : List.Forall₂ (MemberReadAs (greatestDepth - 1)) texts members)
    (form : ItemsForm texts inner) (rest : Input) :
    readTagged kinds ('\x7b' :: (inner ++ '\x7d' :: rest)) =
      (members.foldlM (tagStep kinds) ⟨none, []⟩).bind fun message =>
        match message.kind with
        | some kind => .ok ((kind, .object message.content.reverse), rest)
        | none => .error .mismatched := by
  have read := readMembers_of_steps (each.imp fun _ _ h => h.tagStep kinds) form ⟨none, []⟩ rest
  rw [readTagged, skipSpace_cons (by decide)]
  simp only [read]
  cases members.foldlM (tagStep kinds) ⟨none, []⟩ <;> rfl

theorem foldlM_tagStep_split {before after : List (String × Value)} {value : Value}
    (others : ∀ member ∈ before ++ after, member.1 ≠ kindName) :
    (before ++ (kindName, value) :: after).foldlM (tagStep kinds) ⟨none, []⟩ =
      match value.text? with
      | some kind =>
        if kinds.contains kind then .ok ⟨some kind, after.reverse ++ before.reverse⟩
        else .error .mismatched
      | none => .error .mismatched := by
  obtain ⟨earlier, later⟩ := List.forall_mem_append.1 others
  rw [List.foldlM_append, foldlM_tagStep_of_others earlier, List.append_nil]
  simp only [Bind.bind, Except.bind, List.foldlM_cons, tagStep, if_true, Option.isSome_none,
    Bool.false_eq_true, if_false]
  cases value.text? with
  | none => rfl
  | some kind =>
    by_cases known : kinds.contains kind = true
    · simp only [known, if_true, foldlM_tagStep_of_others later]
    · simp only [known]
      rfl

/-- A message that is written with its kind in front is read as this kind and the other members. -/
theorem readTagged_object {kind : String} (known : kinds.contains kind = true)
    {written : List (String × List Char)}
    (each : List.Forall₂ (SpellsMember (greatestDepth - 1)) written members)
    (names : kindName ∉ written.map Prod.fst) (rest : Input) :
    readTagged kinds (Written.object ((kindName, Written.text kind) :: written) ++ rest) =
      .ok ((kind, .object members), rest) := by
  have first : SpellsMember (greatestDepth - 1) (kindName, Written.text kind)
      (kindName, .text kind) := ⟨rfl, spells_text _ kind⟩
  have same : members.map Prod.fst = written.map Prod.fst := by
    clear names
    induction each with
    | nil => rfl
    | cons first others ih => rw [List.map_cons, List.map_cons, first.name, ih]
  have others : ∀ member ∈ [] ++ members, member.1 ≠ kindName := by
    intro member mem kind
    rw [← same] at names
    exact names (kind ▸ List.mem_map_of_mem mem)
  have fold := @foldlM_tagStep_split kinds [] members (.text kind) others
  have read := @readTagged_fold kinds _ _ _ (SpellsMember.allReadAs (.cons first each))
    (itemsForm_separated _) rest
  rw [List.nil_append] at fold
  rw [object_append, read, fold]
  simp only [Value.text?, known, if_true, Except.bind, List.reverse_nil, List.append_nil,
    List.reverse_reverse]

/-- What becomes of a message with these members: the kind with the others, or a refusal. -/
inductive TaggedMembers (kinds : List String) (members : List (String × Value)) :
    Except Fault (String × Value) → Prop
  | known {before after : List (String × Value)} {kind : String}
      (split : members = before ++ (kindName, .text kind) :: after) (known : kind ∈ kinds)
      (others : ∀ member ∈ before ++ after, member.1 ≠ kindName) :
      TaggedMembers kinds members (.ok (kind, .object (before ++ after)))
  | refused (unknown : ∀ kind ∈ kinds, (kindName, .text kind) ∉ members) :
      TaggedMembers kinds members (.error .mismatched)

theorem others_of_nodup {before after : List (String × Value)} {value : Value}
    (distinct : ((before ++ (kindName, value) :: after).map Prod.fst).Nodup) :
    ∀ member ∈ before ++ after, member.1 ≠ kindName := by
  rw [List.map_append, List.map_cons, List.nodup_middle, List.nodup_cons,
    ← List.map_append] at distinct
  intro member mem same
  have named : member.1 ∈ (before ++ after).map Prod.fst := List.mem_map_of_mem mem
  exact distinct.1 (same ▸ named)

theorem eq_of_others {before after : List (String × Value)} {value other : Value}
    (others : ∀ member ∈ before ++ after, member.1 ≠ kindName)
    (mem : (kindName, other) ∈ before ++ (kindName, value) :: after) : other = value := by
  rcases List.mem_append.1 mem with earlier | here
  · exact absurd rfl (others _ (List.mem_append_left _ earlier))
  · rcases List.mem_cons.1 here with same | later
    · exact congrArg Prod.snd same
    · exact absurd rfl (others _ (List.mem_append_right _ later))

theorem readTagged_tagged (distinct : (members.map Prod.fst).Nodup) {texts : List (List Char)}
    {inner : List Char} (each : List.Forall₂ (MemberReadAs (greatestDepth - 1)) texts members)
    (form : ItemsForm texts inner) (rest : Input) :
    ∃ outcome, TaggedMembers kinds members outcome ∧
      readTagged kinds ('\x7b' :: (inner ++ '\x7d' :: rest)) = outcome.map (·, rest) := by
  rw [readTagged_fold each form]
  by_cases kinded : ∃ value, (kindName, value) ∈ members
  · obtain ⟨value, mem⟩ := kinded
    obtain ⟨before, after, rfl⟩ := List.append_of_mem mem
    have others := others_of_nodup distinct
    have only {other : Value} (mem : (kindName, other) ∈ before ++ (kindName, value) :: after) :
        other = value := eq_of_others others mem
    rw [foldlM_tagStep_split others]
    cases text : value.text? with
    | none =>
      refine ⟨_, .refused ?_, rfl⟩
      intro kind _ mem
      rw [← only mem] at text
      cases text
    | some kind =>
      obtain rfl := Value.text?_eq_some_iff.1 text
      by_cases known : kinds.contains kind = true
      · refine ⟨_, .known rfl (List.contains_iff_mem.1 known) others, ?_⟩
        simp only [known, if_true, Except.bind, List.reverse_append, List.reverse_reverse]
        rfl
      · refine ⟨.error .mismatched, .refused ?_, ?_⟩
        · intro other mem among
          cases only among
          exact known (List.contains_iff_mem.2 mem)
        · simp only [known]
          rfl
  · have others : ∀ member ∈ members, member.1 ≠ kindName := by
      rintro ⟨name, value⟩ mem rfl
      exact kinded ⟨value, mem⟩
    refine ⟨.error .mismatched, .refused ?_, ?_⟩
    · intro kind _ mem
      exact others _ mem rfl
    · rw [foldlM_tagStep_of_others others]
      rfl

theorem mem_entries_iff {members : List Member} {name : String} {value : Value} :
    (name, value) ∈ members.map Member.entry ↔
      ∃ member ∈ members, member.name = name ∧ member.value = value := by
  simp only [List.mem_map, Member.entry, Prod.mk.injEq]

theorem ObjectDocument.valueForm {text : String} {members : List Member}
    (h : ObjectDocument text members) :
    ∀ member ∈ members, ValueForm (greatestDepth - 1) member.text member.value := by
  obtain ⟨before, object, after, -, ⟨each, -⟩, -⟩ := h
  induction each with
  | nil => exact List.forall_mem_nil _
  | cons first others ih =>
    refine List.forall_mem_cons.2 ⟨?_, ih⟩
    obtain ⟨quoted, blank, lead, value⟩ := first
    exact value

theorem ObjectDocument.readTagged {text : String} {members : List Member}
    (h : ObjectDocument text members) (distinct : (members.map Member.name).Nodup) :
    ∃ outcome space, TaggedMembers kinds (members.map Member.entry) outcome ∧ Space space ∧
      readTagged kinds text.toList = outcome.map (·, space) := by
  obtain ⟨before, object, after, lead, @⟨inner, texts, _, each, form⟩, blank, document⟩ := h
  have readAs : List.Forall₂ (MemberReadAs (greatestDepth - 1)) texts
      (members.map Member.entry) := by
    rw [List.forall₂_map_right_iff]
    refine each.imp ?_
    rintro _ member ⟨quoted, space, gap, value⟩
    exact .mk quoted (value.readAs.behind space gap)
  have names : (members.map Member.entry).map Prod.fst = members.map Member.name := List.map_map ..
  obtain ⟨outcome, tagged, read⟩ :=
    @readTagged_tagged kinds _ (names ▸ distinct) _ _ readAs form after
  have front (tail : Input) : Json.readTagged kinds (before ++ '\x7b' :: tail) =
      Json.readTagged kinds ('\x7b' :: tail) := by
    rw [Json.readTagged, Json.readTagged, lead.skipSpace, skipSpace_cons (by decide)]
    rfl
  refine ⟨outcome, after, tagged, blank, ?_⟩
  rw [document, ← read, List.cons_append, List.append_assoc, List.cons_append, List.nil_append,
    front]

end SpeechService.Json
