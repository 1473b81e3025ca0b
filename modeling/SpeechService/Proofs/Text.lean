import Mathlib.Data.List.DropRight
import Mathlib.Data.List.TakeWhile
import Mathlib.Tactic.SplitIfs
import SpeechService.Text

/-!
What trimming leaves of a text, where a text is cut at its last separator, and the bytes of a text.
Bytes are read back, and hold a newline only where the text does: every byte of a longer character
is beyond ASCII. Texts in the order of their characters are in the order of their bytes.
-/

set_option autoImplicit false

namespace SpeechService.Text

theorem trimEnd_eq_nil_iff (text : List Char) :
    trimEnd text = [] ↔ ∀ c ∈ text, isBlank c = true := by
  rw [trimEnd, List.reverse_eq_nil_iff, List.dropWhile_eq_nil_iff]
  simp only [List.mem_reverse]

theorem trimList_eq_nil_iff (text : List Char) :
    trimList text = [] ↔ ∀ c ∈ text, isBlank c = true := by
  rw [trimList, trimEnd_eq_nil_iff, ← List.dropWhile_eq_nil_iff, List.dropWhile_idempotent,
    List.dropWhile_eq_nil_iff]

theorem trimList_eq_self {text : List Char} (front : ∀ c ∈ text.head?, isBlank c = false)
    (back : ∀ c ∈ text.getLast?, isBlank c = false) : trimList text = text := by
  have stays {text : List Char} (first : ∀ c ∈ text.head?, isBlank c = false) :
      text.dropWhile isBlank = text := by
    cases text with
    | nil => rfl
    | cons c rest => rw [List.dropWhile_cons, first c rfl, if_neg Bool.false_ne_true]
  rw [trimList, stays front, trimEnd, stays, List.reverse_reverse]
  intro c mem
  rw [List.head?_reverse] at mem
  exact back c mem

theorem not_isBlank_ends_trimList (text : List Char) :
    (∀ c ∈ (trimList text).head?, isBlank c = false) ∧
      ∀ c ∈ (trimList text).getLast?, isBlank c = false := by
  have ended : trimList text = (text.dropWhile isBlank).rdropWhile isBlank := rfl
  constructor
  · intro c mem
    obtain ⟨tail, split⟩ := List.head?_eq_some_iff.1 mem
    obtain ⟨dropped, front⟩ := List.rdropWhile_prefix isBlank (text.dropWhile isBlank)
    rw [← ended, split, List.cons_append] at front
    have first := List.head?_dropWhile_not isBlank text
    rw [← front, List.head?_cons] at first
    exact first
  · intro c mem
    have some? : (text.dropWhile isBlank).rdropWhile isBlank ≠ [] := by
      intro nothing
      rw [ended, nothing] at mem
      cases mem
    have last := List.rdropWhile_last_not isBlank _ some?
    rw [ended, List.getLast?_eq_some_getLast some?] at mem
    cases mem
    exact Bool.eq_false_iff.2 last

theorem trimList_trimList (text : List Char) : trimList (trimList text) = trimList text :=
  trimList_eq_self (not_isBlank_ends_trimList text).1 (not_isBlank_ends_trimList text).2

theorem dropWhile_append_cons {c : Char} (visible : isBlank c = false)
    (first last : List Char) :
    (first ++ c :: last).dropWhile isBlank = first.dropWhile isBlank ++ c :: last := by
  induction first with
  | nil => rw [List.nil_append, List.dropWhile_cons_of_neg (by simp [visible])]; rfl
  | cons d first ih =>
    by_cases blank : isBlank d = true
    · rw [List.cons_append, List.dropWhile_cons_of_pos blank, List.dropWhile_cons_of_pos blank, ih]
    · rw [List.cons_append, List.dropWhile_cons_of_neg blank, List.dropWhile_cons_of_neg blank]
      rfl

theorem trimList_append_cons {c : Char} (visible : isBlank c = false) (first last : List Char) :
    trimList (first ++ c :: last) = first.dropWhile isBlank ++ c :: trimEnd last := by
  rw [trimList, dropWhile_append_cons visible, trimEnd, List.reverse_append, List.reverse_cons,
    List.append_assoc, List.singleton_append, dropWhile_append_cons visible, List.reverse_append,
    List.reverse_cons, List.reverse_reverse, List.append_assoc, List.singleton_append, trimEnd]

theorem mem_of_mem_trimEnd {c : Char} {text : List Char} (mem : c ∈ trimEnd text) : c ∈ text :=
  List.mem_reverse.1 ((List.dropWhile_suffix _).subset (List.mem_reverse.1 mem))

theorem mem_of_mem_trimList {c : Char} {text : List Char} (mem : c ∈ trimList text) : c ∈ text :=
  (List.dropWhile_suffix _).subset (mem_of_mem_trimEnd mem)

section Gaps

variable {gap : List Char} (blank : ∀ c ∈ gap, isBlank c = true) (text : List Char)

include blank

theorem trimList_blank_append : trimList (gap ++ text) = trimList text := by
  rw [trimList, List.dropWhile_append_of_pos blank, trimList]

theorem trimEnd_append_blank : trimEnd (text ++ gap) = trimEnd text := by
  have backwards : ∀ c ∈ gap.reverse, isBlank c = true := by
    intro c mem
    exact blank c (List.mem_reverse.1 mem)
  rw [trimEnd, List.reverse_append, List.dropWhile_append_of_pos backwards, trimEnd]

theorem trimList_append_blank : trimList (text ++ gap) = trimList text := by
  by_cases all : ∀ c ∈ text, isBlank c = true
  · have both : ∀ c ∈ text ++ gap, isBlank c = true := List.forall_mem_append.2 ⟨all, blank⟩
    rw [(trimList_eq_nil_iff text).2 all, (trimList_eq_nil_iff _).2 both]
  · simp only [not_forall, Bool.not_eq_true] at all
    obtain ⟨c, mem, visible⟩ := all
    obtain ⟨first, last, rfl⟩ := List.append_of_mem mem
    rw [List.append_assoc, List.cons_append, trimList_append_cons visible,
      trimList_append_cons visible, trimEnd_append_blank blank]

end Gaps

theorem exists_append_trimList (text : List Char) :
    ∃ front back, (∀ c ∈ front, isBlank c = true) ∧ (∀ c ∈ back, isBlank c = true) ∧
      front ++ trimList text ++ back = text := by
  let rest := text.dropWhile isBlank
  have split := List.takeWhile_append_dropWhile (p := isBlank) (l := rest.reverse)
  have behind := congrArg List.reverse split
  rw [List.reverse_append, List.reverse_reverse] at behind
  refine ⟨text.takeWhile isBlank, (rest.reverse.takeWhile isBlank).reverse, ?_, ?_, ?_⟩
  · intro c mem
    exact List.mem_takeWhile_imp mem
  · intro c mem
    exact List.mem_takeWhile_imp (List.mem_reverse.1 mem)
  · rw [List.append_assoc, trimList, trimEnd, behind, List.takeWhile_append_dropWhile]

theorem trim_trim (text : String) : trim (trim text) = trim text := by
  rw [trim, trim, String.toList_ofList, trimList_trimList]

theorem isEmpty_trim (text : String) : (trim text).isEmpty = isBlankText text := by
  rw [Bool.eq_iff_iff, String.isEmpty_iff, trim, String.ofList_eq_empty_iff, trimList_eq_nil_iff,
    isBlankText, List.all_eq_true]

theorem trimmed?_eq_none_iff (text : String) :
    trimmed? text = none ↔ isBlankText text = true := by
  rw [← isEmpty_trim, trimmed?]
  cases (trim text).isEmpty with
  | true => exact ⟨fun _ => rfl, fun _ => rfl⟩
  | false =>
    rw [if_neg Bool.false_ne_true]
    constructor
    · intro h
      cases h
    · intro h
      cases h

theorem trimmed?_eq_some_iff {text rest : String} :
    trimmed? text = some rest ↔ isBlankText text = false ∧ trim text = rest := by
  rw [← isEmpty_trim, trimmed?]
  cases (trim text).isEmpty with
  | true =>
    rw [if_pos rfl]
    exact ⟨nofun, fun h => nomatch h.1⟩
  | false =>
    rw [if_neg Bool.false_ne_true, Option.some.injEq, eq_self, true_and]

theorem trimmed?_trim (text : String) : trimmed? (trim text) = trimmed? text := by
  rw [trimmed?, trim_trim, trimmed?]

structure Tight (text : String) : Prop where
  ne_empty : text ≠ ""
  first : ∀ c ∈ text.toList.head?, isBlank c = false
  last : ∀ c ∈ text.toList.getLast?, isBlank c = false

theorem Tight.trimmed?_eq {text : String} (h : Tight text) : trimmed? text = some text := by
  have stays : trim text = text := by
    rw [trim, trimList_eq_self h.first h.last, String.ofList_toList]
  have visible : isBlankText text = false := by
    rw [← isEmpty_trim, stays, Bool.eq_false_iff, ne_eq, String.isEmpty_iff]
    exact h.ne_empty
  exact trimmed?_eq_some_iff.2 ⟨visible, stays⟩

theorem tight_of_trimmed? {text rest : String} (h : trimmed? text = some rest) : Tight rest := by
  obtain ⟨visible, rfl⟩ := trimmed?_eq_some_iff.1 h
  have letters : (trim text).toList = trimList text.toList := String.toList_ofList
  have ends := not_isBlank_ends_trimList text.toList
  rw [← letters] at ends
  refine ⟨?_, ends.1, ends.2⟩
  intro empty
  rw [← isEmpty_trim, empty] at visible
  cases visible

theorem Tight.append {first last : String} (front : Tight first) (back : Tight last)
    (between : String) : Tight (first ++ between ++ last) := by
  have starts : first.toList ≠ [] := mt String.toList_eq_nil_iff.1 front.ne_empty
  have ends : last.toList ≠ [] := mt String.toList_eq_nil_iff.1 back.ne_empty
  refine ⟨?_, ?_, ?_⟩
  · intro empty
    exact back.ne_empty (String.append_eq_empty_iff.1 empty).2
  · rw [String.toList_append, String.toList_append, List.append_assoc,
      List.head?_append_of_ne_nil _ starts]
    exact front.first
  · rw [String.toList_append, List.getLast?_append_of_ne_nil _ ends]
    exact back.last

theorem not_isBlank_of_isDigit {c : Char} (h : c.isDigit = true) : isBlank c = false := by
  have bounds : 48 ≤ c.toNat ∧ c.toNat ≤ 57 := by
    simpa [Char.isDigit, UInt32.le_iff_toNat_le] using h
  simp only [isBlank]
  generalize c.toNat = code at bounds
  simp
  omega

private theorem drop_takeWhile {α : Type} (holds : α → Bool) (items : List α) :
    items.drop (items.takeWhile holds).length = items.dropWhile holds := by
  induction items with
  | nil => rfl
  | cons item items ih => by_cases h : holds item = true <;> simp [h, ih]

theorem splitAtLast?_eq_some_iff {separator : Char} {text first last : String} :
    splitAtLast? separator text = some (first, last) ↔
      text.toList = first.toList ++ separator :: last.toList ∧ separator ∉ last.toList := by
  simp only [splitAtLast?, drop_takeWhile]
  constructor
  · intro h
    have whole := List.takeWhile_append_dropWhile (p := (· != separator)) (l := text.toList.reverse)
    have stopped := List.head?_dropWhile_not (· != separator) text.toList.reverse
    cases front : text.toList.reverse.dropWhile (· != separator) with
    | nil =>
      rw [front] at h
      cases h
    | cons c head =>
      rw [front] at h stopped whole
      have mark : c = separator := by simpa using stopped
      cases h
      subst mark
      rw [String.toList_ofList, String.toList_ofList]
      constructor
      · have forwards := congrArg List.reverse whole
        rw [List.reverse_append, List.reverse_cons, List.reverse_reverse] at forwards
        rw [List.append_assoc, List.singleton_append] at forwards
        exact forwards.symm
      · intro mem
        have passed := List.mem_takeWhile_imp (List.mem_reverse.1 mem)
        simp at passed
  · rintro ⟨same, fresh⟩
    have backwards : text.toList.reverse =
        last.toList.reverse ++ separator :: first.toList.reverse := by
      rw [same, List.reverse_append, List.reverse_cons, List.append_assoc, List.singleton_append]
    have passed : ∀ c ∈ last.toList.reverse, (c != separator) = true := by
      intro c mem
      refine bne_iff_ne.2 fun mark => fresh ?_
      exact mark ▸ List.mem_reverse.1 mem
    rw [backwards, List.dropWhile_append_of_pos passed, List.takeWhile_append_of_pos passed]
    simp

theorem splitAtLast?_eq_none_iff {separator : Char} {text : String} :
    splitAtLast? separator text = none ↔ separator ∉ text.toList := by
  constructor
  · intro uncut mem
    obtain ⟨after, before, split, fresh⟩ := List.eq_append_cons_of_mem (List.mem_reverse.2 mem)
    have forwards := congrArg List.reverse split
    rw [List.reverse_reverse, List.reverse_append, List.reverse_cons, List.append_assoc,
      List.singleton_append] at forwards
    have cut : splitAtLast? separator text =
        some (String.ofList before.reverse, String.ofList after.reverse) := by
      refine splitAtLast?_eq_some_iff.2 ⟨?_, ?_⟩
      · rw [String.toList_ofList, String.toList_ofList, forwards]
      · rw [String.toList_ofList, List.mem_reverse]
        exact fresh
    rw [uncut] at cut
    cases cut
  · intro absent
    refine Option.eq_none_iff_forall_ne_some.2 ?_
    rintro ⟨first, last⟩ cut
    refine absent ?_
    rw [(splitAtLast?_eq_some_iff.1 cut).1]
    exact List.mem_append_right _ List.mem_cons_self

theorem toByteArray_bytes (text : String) :
    (⟨(bytes text).toArray⟩ : ByteArray) = text.toByteArray :=
  calc (⟨(bytes text).toArray⟩ : ByteArray)
    _ = (bytes text).toByteArray := ByteArray.ext List.data_toByteArray.symm
    _ = (String.ofList text.toList).toByteArray := String.toByteArray_ofList.symm
    _ = text.toByteArray := by rw [String.ofList_toList]

theorem ofBytes?_bytes (text : String) : ofBytes? (bytes text) = some text := by
  rw [ofBytes?, toByteArray_bytes, String.fromUTF8?, dif_pos text.isValidUTF8]
  rfl

theorem bytes_injective {text other : String} (h : bytes text = bytes other) : text = other := by
  have read := ofBytes?_bytes text
  rw [h, ofBytes?_bytes] at read
  exact (Option.some.inj read).symm

theorem ofBytes?_eq_some_iff {content : Bytes} {text : String} :
    ofBytes? content = some text ↔ bytes text = content := by
  constructor
  · intro read
    rw [ofBytes?, String.fromUTF8?, Option.dite_none_right_eq_some] at read
    obtain ⟨valid, same⟩ := read
    cases same
    have same := toByteArray_bytes (String.fromUTF8 ⟨content.toArray⟩ valid)
    exact congrArg (fun array => array.data.toList) same
  · rintro rfl
    exact ofBytes?_bytes text

theorem newline_of_mem_utf8EncodeChar {c : Char} (h : 10 ∈ String.utf8EncodeChar c) : c = '\n' := by
  have ten : (10 : UInt8).toNat = 10 := rfl
  have code {value : Nat} (same : (10 : UInt8) = UInt8.ofNat value) (small : value < 256) :
      value = 10 := by
    have values := congrArg UInt8.toNat same
    rw [UInt8.toNat_ofNat', Nat.mod_eq_of_lt small, ten] at values
    exact values.symm
  have ascii {value : Nat} (same : (10 : UInt8) = UInt8.ofNat value) (small : value < 256) :
      value < 128 := by
    rw [code same small]
    decide
  simp only [String.utf8EncodeChar] at h
  split at h
  · have same := code (List.mem_singleton.1 h) (by omega)
    exact Char.toNat_inj.1 same
  -- every byte of a longer character is at least 128
  all_goals exfalso
  split at h
  · simp only [List.mem_cons, List.not_mem_nil, or_false] at h
    rcases h with same | same
    all_goals
      have small := ascii same (by omega)
      omega
  split at h
  · simp only [List.mem_cons, List.not_mem_nil, or_false] at h
    rcases h with same | same | same
    all_goals
      have small := ascii same (by omega)
      omega
  · simp only [List.mem_cons, List.not_mem_nil, or_false] at h
    rcases h with same | same | same | same
    all_goals
      have small := ascii same (by omega)
      omega

theorem newline_not_mem_bytes {text : String} (h : '\n' ∉ text.toList) : 10 ∉ bytes text := by
  intro mem
  obtain ⟨c, inside, byte⟩ := List.mem_flatMap.1 mem
  exact h (newline_of_mem_utf8EncodeChar byte ▸ inside)

/-- The byte strings differ before either ends, and there the first one has the lesser byte. -/
def Diverges : Bytes → Bytes → Prop
  | first :: left, second :: right => first < second ∨ first = second ∧ Diverges left right
  | _, _ => False

theorem Diverges.append_lt_append {left right : Bytes} (h : Diverges left right)
    (later others : Bytes) : left ++ later < right ++ others := by
  induction left generalizing right with
  | nil => cases h
  | cons first left ih =>
    cases right with
    | nil => cases h
    | cons second right =>
      rw [List.cons_append, List.cons_append, List.cons_lt_cons_iff]
      rcases h with less | ⟨same, deeper⟩
      · exact .inl less
      · exact .inr ⟨same, ih deeper⟩

private theorem ofNat_lt_ofNat {value other : Nat} (small : value < 256) (least : other < 256) :
    UInt8.ofNat value < UInt8.ofNat other ↔ value < other := by
  rw [UInt8.lt_iff_toNat_lt, UInt8.toNat_ofNat_of_lt' small, UInt8.toNat_ofNat_of_lt' least]

private theorem ofNat_eq_ofNat {value other : Nat} (small : value < 256) (least : other < 256) :
    UInt8.ofNat value = UInt8.ofNat other ↔ value = other := by
  rw [← UInt8.toNat_inj, UInt8.toNat_ofNat_of_lt' small, UInt8.toNat_ofNat_of_lt' least]

private theorem code_lt (c : Char) : c.val.toNat < 0x110000 := by
  have valid := c.valid
  simp only [UInt32.isValidChar, Nat.isValidChar] at valid
  omega

/-- The bytes of a lesser character are less, whatever follows: more bytes begin with a greater one,
and equally many are the digits of the character in base 64. -/
theorem diverges_utf8EncodeChar {c d : Char} (h : c < d) :
    Diverges (String.utf8EncodeChar c) (String.utf8EncodeChar d) := by
  have less : c.val.toNat < d.val.toNat := h
  have bound := code_lt d
  have square (code : Nat) : code / 4096 = code / 64 / 64 := by omega
  have cube (code : Nat) : code / 262144 = code / 64 / 64 / 64 := by omega
  simp only [String.utf8EncodeChar, square, cube]
  generalize c.val.toNat = code at *
  generalize d.val.toNat = other at *
  -- one case for the lengths of both characters
  split_ifs
  all_goals
    simp (disch := omega) only [Diverges, ofNat_lt_ofNat, ofNat_eq_ofNat, and_false, or_false]
    omega

private theorem append_lt_append {left right : Bytes} (front : Bytes) (h : left < right) :
    front ++ left < front ++ right := by
  induction front with
  | nil => exact h
  | cons byte front ih =>
    rw [List.cons_append, List.cons_append, List.cons_lt_cons_iff]
    exact .inr ⟨rfl, ih⟩

theorem bytes_lt_bytes {left right : String} (h : left < right) : bytes left < bytes right := by
  rw [String.lt_iff] at h
  rw [bytes, bytes]
  generalize left.toList = first at *
  generalize right.toList = second at *
  induction first generalizing second with
  | nil =>
    cases second with
    | nil => cases h
    | cons d second =>
      rw [List.flatMap_nil, List.flatMap_cons]
      cases written : String.utf8EncodeChar d with
      | nil => exact absurd written String.utf8EncodeChar_ne_nil
      | cons byte rest => exact List.nil_lt_cons byte _
  | cons c first ih =>
    cases second with
    | nil => cases h
    | cons d second =>
      rw [List.flatMap_cons, List.flatMap_cons]
      rcases List.cons_lt_cons_iff.1 h with less | ⟨rfl, later⟩
      · exact (diverges_utf8EncodeChar less).append_lt_append _ _
      · exact append_lt_append _ (ih _ later)

theorem bytes_lt_bytes_iff {left right : String} : bytes left < bytes right ↔ left < right := by
  refine ⟨?_, bytes_lt_bytes⟩
  intro less
  apply Decidable.byContradiction
  intro notLess
  by_cases greater : right < left
  · exact List.lt_asymm less (bytes_lt_bytes greater)
  · have same := String.le_antisymm (String.not_lt.1 notLess) (String.not_lt.1 greater)
    rw [same] at less
    exact List.lt_irrefl _ less

end SpeechService.Text
