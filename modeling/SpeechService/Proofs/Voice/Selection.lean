import Mathlib.Data.List.Nodup
import Mathlib.Data.List.Sort
import SpeechService.Proofs.Language
import SpeechService.Proofs.Text
import SpeechService.Voice.Registry

/-!
A registry against the list that it is made of. Looking up an identifier gives the first voice of
the list that has it, whatever the order of the list; `Preferred` says from the identifiers of the
list alone which one a request leads to.
-/

set_option autoImplicit false

namespace SpeechService

theorem find?_eq_some_iff_of_nodup {voices : List Voice} {id : String} {voice : Voice}
    (distinct : (voices.map (·.id)).Nodup) :
    voices.find? (·.id == id) = some voice ↔ voice ∈ voices ∧ voice.id = id := by
  constructor
  · intro found
    exact ⟨List.mem_of_find?_eq_some found, by simpa using List.find?_some found⟩
  · rintro ⟨mem, rfl⟩
    cases found : voices.find? (·.id == voice.id) with
    | none =>
      have missing := List.find?_eq_none.1 found voice mem
      simp at missing
    | some other =>
      have same : other.id = voice.id := by simpa using List.find?_some found
      rw [List.inj_on_of_nodup_map distinct (List.mem_of_find?_eq_some found) mem same]

theorem find?_eq_none_iff {voices : List Voice} {id : String} :
    voices.find? (·.id == id) = none ↔ id ∉ voices.map (·.id) := by
  simp [List.find?_eq_none]

theorem Ascending.nodup {voices : List Voice} (h : Ascending voices) :
    (voices.map (·.id)).Nodup := by
  refine List.pairwise_map.2 (h.imp ?_)
  intro left right less same
  rw [same] at less
  exact String.lt_irrefl _ less

theorem Ascending.eq_of_mem_iff {voices others : List Voice} (h : Ascending voices)
    (other : Ascending others) (members : ∀ voice, voice ∈ voices ↔ voice ∈ others) :
    voices = others := by
  have permuted : voices.Perm others :=
    (List.perm_ext_iff_of_nodup (h.nodup.of_map _) (other.nodup.of_map _)).2 members
  refine permuted.eq_of_pairwise ?_ h other
  intro left right _ _ less greater
  exact absurd greater (String.lt_asymm less)

theorem Ascending.eq_of_find?_eq {voices others : List Voice} (h : Ascending voices)
    (other : Ascending others)
    (same : ∀ id, voices.find? (·.id == id) = others.find? (·.id == id)) : voices = others := by
  refine h.eq_of_mem_iff other ?_
  intro voice
  have here : voices.find? (·.id == voice.id) = some voice ↔
      voice ∈ voices ∧ voice.id = voice.id := find?_eq_some_iff_of_nodup h.nodup
  rw [same, find?_eq_some_iff_of_nodup other.nodup] at here
  simpa using here.symm

namespace VoiceRegistry

theorem get?_eq_find? (registry : VoiceRegistry) (id : String) :
    registry.get? id = registry.voices.find? (·.id == id) := by
  have fits := search_fits id registry.voices registry.ascending
  rw [get?]
  generalize search id registry.voices = place at fits
  cases fits with
  | taken index voice found same =>
    have mem := List.mem_of_getElem? found
    exact found.trans ((find?_eq_some_iff_of_nodup registry.ascending.nodup).2 ⟨mem, same⟩).symm
  | free below above split less greater =>
    refine (find?_eq_none_iff.2 ?_).symm
    intro mem
    obtain ⟨voice, mem, same⟩ := List.mem_map.1 mem
    rw [split] at mem
    rcases List.mem_append.1 mem with first | later
    · exact String.lt_irrefl id (same ▸ less voice first)
    · exact String.lt_irrefl id (same ▸ greater voice later)

theorem find?_insert (voice : Voice) {sorted : List Voice} (ascending : Ascending sorted)
    (id : String) : (insert voice sorted).find? (·.id == id) =
      (sorted.find? (·.id == id)).or ([voice].find? (·.id == id)) := by
  have inserted := insert_inserted voice ascending
  generalize insert voice sorted = result at inserted
  cases inserted with
  | known other mem same =>
    by_cases asked : voice.id = id
    · have found := (find?_eq_some_iff_of_nodup ascending.nodup).2 ⟨mem, same.trans asked⟩
      rw [found, Option.some_or]
    · have other : [voice].find? (·.id == id) = none := by simp [asked]
      rw [other, Option.or_none]
  | added below above split less greater =>
    subst split
    rw [List.find?_append, List.find?_append, ← List.singleton_append, List.find?_append]
    by_cases asked : voice.id = id
    · have before : below.find? (·.id == id) = none := by
        refine find?_eq_none_iff.2 fun mem => ?_
        obtain ⟨other, mem, same⟩ := List.mem_map.1 mem
        exact String.lt_irrefl id (by simpa [same, asked] using less other mem)
      have after : above.find? (·.id == id) = none := by
        refine find?_eq_none_iff.2 fun mem => ?_
        obtain ⟨other, mem, same⟩ := List.mem_map.1 mem
        exact String.lt_irrefl id (by simpa [same, asked] using greater other mem)
      rw [before, after]
      simp
    · have other : [voice].find? (·.id == id) = none := by simp [asked]
      rw [other, Option.none_or, Option.or_none]

/-- Of several voices with one identifier the first one is kept. -/
theorem find?_sort (voices : List Voice) (id : String) :
    (sort voices).find? (·.id == id) = voices.find? (·.id == id) := by
  have general (sorted : List Voice) (ascending : Ascending sorted) :
      (voices.foldl (fun sorted voice => insert voice sorted) sorted).find? (·.id == id) =
        (sorted.find? (·.id == id)).or (voices.find? (·.id == id)) := by
    induction voices generalizing sorted with
    | nil => simp
    | cons voice voices ih =>
      rw [List.foldl_cons, ih _ (insert_ascending voice ascending), find?_insert voice ascending,
        Option.or_assoc, ← List.find?_append, List.singleton_append]
  exact general [] .nil

theorem mem_ids_sort_iff {voices : List Voice} {id : String} :
    id ∈ (sort voices).map (·.id) ↔ id ∈ voices.map (·.id) := by
  rw [← not_iff_not, ← find?_eq_none_iff, ← find?_eq_none_iff, find?_sort]

theorem sort_eq_nil_iff {voices : List Voice} : sort voices = [] ↔ voices = [] := by
  constructor
  · intro nothing
    refine List.eq_nil_iff_forall_not_mem.2 ?_
    intro voice mem
    have listed := mem_ids_sort_iff.2 (List.mem_map.2 ⟨voice, mem, rfl⟩)
    rw [nothing] at listed
    cases listed
  · rintro rfl
    rfl

theorem mem_of_mem_sort {voices : List Voice} {voice : Voice} (h : voice ∈ sort voices) :
    voice ∈ voices := by
  have found := (find?_eq_some_iff_of_nodup (sort_ascending voices).nodup).2 ⟨h, rfl⟩
  rw [find?_sort] at found
  exact List.mem_of_find?_eq_some found

theorem mem_sort_iff {voices : List Voice}
    (unique : ∀ voice ∈ voices, ∀ other ∈ voices, voice.id = other.id → voice = other)
    {voice : Voice} : voice ∈ sort voices ↔ voice ∈ voices := by
  refine ⟨mem_of_mem_sort, ?_⟩
  intro mem
  have listed : voice.id ∈ (sort voices).map (·.id) := mem_ids_sort_iff.2 (List.mem_map_of_mem mem)
  obtain ⟨other, sorted, same⟩ := List.mem_map.1 listed
  rw [← unique other (mem_of_mem_sort sorted) voice mem same]
  exact sorted

theorem ofList_nil : ofList [] = .error (.noVoicesLoaded "registry is empty") := rfl

theorem ofList_of_ne_nil {voices : List Voice} (some? : voices ≠ []) :
    ∃ registry, ofList voices = .ok registry ∧ registry.voices = sort voices := by
  have nonempty : sort voices ≠ [] := fun nothing => some? (sort_eq_nil_iff.1 nothing)
  rw [ofList]
  generalize sort_ascending voices = ascending
  generalize sort voices = sorted at ascending nonempty
  cases sorted with
  | nil => exact absurd rfl nonempty
  | cons first others => exact ⟨⟨first, others, ascending⟩, rfl, rfl⟩

theorem sort_of_perm {voices others : List Voice} (permuted : others.Perm voices)
    (distinct : (voices.map (·.id)).Nodup) : sort others = sort voices := by
  have distinct' : (others.map (·.id)).Nodup := (permuted.map _).nodup_iff.2 distinct
  refine (sort_ascending others).eq_of_find?_eq (sort_ascending voices) ?_
  intro id
  rw [find?_sort, find?_sort]
  refine Option.ext fun voice => ?_
  rw [find?_eq_some_iff_of_nodup distinct, find?_eq_some_iff_of_nodup distinct',
    permuted.mem_iff]

end VoiceRegistry

/-- Which of the identifiers `ids` a request for a voice and a language leads to. -/
inductive Preferred (ids : List String) (map : VoiceMap) (name language : String) : String → Prop
  | named (asked : name ≠ "default") (loaded : name ∈ ids) : Preferred ids map name language name
  | mapped (id : String) (passed : name = "default" ∨ name ∉ ids)
      (mapped : (language, id) ∈ map.voices.entries) (loaded : id ∈ ids) :
      Preferred ids map name language id
  | fallback (passed : name = "default" ∨ name ∉ ids)
      (unmapped : ∀ id, (language, id) ∈ map.voices.entries → id ∉ ids)
      (loaded : map.defaultVoice ∈ ids) : Preferred ids map name language map.defaultVoice
  | least (id : String) (passed : name = "default" ∨ name ∉ ids)
      (unmapped : ∀ id, (language, id) ∈ map.voices.entries → id ∉ ids)
      (unloaded : map.defaultVoice ∉ ids) (loaded : id ∈ ids)
      (least : ∀ other ∈ ids, Text.bytes id ≤ Text.bytes other) :
      Preferred ids map name language id

theorem Preferred.congr {ids others : List String} {map : VoiceMap} {name language id : String}
    (same : ∀ id, id ∈ ids ↔ id ∈ others) (h : Preferred ids map name language id) :
    Preferred others map name language id := by
  have skip {id : String} : id ∉ ids → id ∉ others := fun missing mem => missing ((same id).2 mem)
  cases h with
  | named asked loaded => exact .named asked ((same _).1 loaded)
  | mapped _ passed mapped loaded =>
    exact .mapped id (passed.imp_right skip) mapped ((same id).1 loaded)
  | fallback passed unmapped loaded =>
    exact .fallback (passed.imp_right skip) (fun id mapped => skip (unmapped id mapped))
      ((same _).1 loaded)
  | least _ passed unmapped unloaded loaded least =>
    exact .least id (passed.imp_right skip) (fun id mapped => skip (unmapped id mapped))
      (skip unloaded) ((same id).1 loaded) fun other mem => least other ((same other).2 mem)

namespace VoiceRegistry

variable (registry : VoiceRegistry) (map : VoiceMap) (name language : String)

theorem get?_eq_none_iff {id : String} : registry.get? id = none ↔ id ∉ registry.ids := by
  rw [get?_eq_find?, find?_eq_none_iff, ids]

theorem exists_get?_of_mem {id : String} (h : id ∈ registry.ids) :
    ∃ voice, registry.get? id = some voice := by
  rw [← Option.isSome_iff_exists, Option.isSome_iff_ne_none]
  exact fun missing => registry.get?_eq_none_iff.1 missing h

theorem first_le (id : String) (h : id ∈ registry.ids) : registry.first.id ≤ id := by
  obtain ⟨voice, mem, rfl⟩ := List.mem_map.1 h
  rcases List.mem_cons.1 mem with rfl | later
  · exact String.le_refl _
  · have less := (List.pairwise_cons.1 registry.ascending).1 voice later
    exact String.not_lt.1 (String.lt_asymm less)

theorem exists_preferred : ∃ id, Preferred registry.ids map name language id := by
  by_cases asked : name ≠ "default" ∧ name ∈ registry.ids
  · exact ⟨name, .named asked.1 asked.2⟩
  have passed : name = "default" ∨ name ∉ registry.ids := by
    by_cases named : name = "default"
    · exact .inl named
    · exact .inr fun loaded => asked ⟨named, loaded⟩
  by_cases mapped : ∃ id, (language, id) ∈ map.voices.entries ∧ id ∈ registry.ids
  · obtain ⟨id, mapped, loaded⟩ := mapped
    exact ⟨id, .mapped id passed mapped loaded⟩
  have unmapped : ∀ id, (language, id) ∈ map.voices.entries → id ∉ registry.ids :=
    fun id found loaded => mapped ⟨id, found, loaded⟩
  by_cases loaded : map.defaultVoice ∈ registry.ids
  · exact ⟨map.defaultVoice, .fallback passed unmapped loaded⟩
  refine ⟨registry.first.id, .least _ passed unmapped loaded List.mem_cons_self ?_⟩
  intro other mem less
  exact String.not_lt.2 (registry.first_le other mem) (Text.bytes_lt_bytes_iff.1 less)

theorem requested?_eq_none (passed : name = "default" ∨ name ∉ registry.ids) :
    registry.requested? name = none := by
  rw [requested?]
  split
  · rfl
  · rename_i asked
    rcases passed with named | missing
    · exact absurd named asked
    · exact registry.get?_eq_none_iff.2 missing

theorem mapped_eq_none
    (unmapped : ∀ id, (language, id) ∈ map.voices.entries → id ∉ registry.ids) :
    (map.voice? language).bind registry.get? = none := by
  cases mapped : map.voice? language with
  | none => rfl
  | some id => exact registry.get?_eq_none_iff.2 (unmapped id (TagTable.find?_eq_some_iff.1 mapped))

/-- A request is answered by the voice of the identifier that it leads to. -/
theorem get?_of_preferred {id : String} (h : Preferred registry.ids map name language id) :
    registry.get? id = some (registry.resolve map name language) := by
  rw [resolve]
  cases h with
  | named asked loaded =>
    obtain ⟨voice, found⟩ := registry.exists_get?_of_mem loaded
    have requested : registry.requested? name = some voice := by
      rw [requested?, anyVoice, if_neg asked, found]
    rw [requested, found]
    rfl
  | mapped _ passed mapped loaded =>
    obtain ⟨voice, found⟩ := registry.exists_get?_of_mem loaded
    have looked : map.voice? language = some id := TagTable.find?_eq_some_iff.2 mapped
    rw [registry.requested?_eq_none name passed, looked, Option.bind_some, found]
    rfl
  | fallback passed unmapped loaded =>
    obtain ⟨voice, found⟩ := registry.exists_get?_of_mem loaded
    rw [registry.requested?_eq_none name passed, registry.mapped_eq_none map language unmapped,
      found]
    rfl
  | least _ passed unmapped unloaded loaded least =>
    have lowest : id ≤ registry.first.id := by
      refine String.not_lt.1 fun less => ?_
      exact least registry.first.id List.mem_cons_self (Text.bytes_lt_bytes_iff.2 less)
    have same : id = registry.first.id := String.le_antisymm lowest (registry.first_le id loaded)
    have found : registry.get? id = some registry.first := by
      rw [get?_eq_find?]
      exact (find?_eq_some_iff_of_nodup registry.ascending.nodup).2
        ⟨List.mem_cons_self, same.symm⟩
    rw [registry.requested?_eq_none name passed, registry.mapped_eq_none map language unmapped,
      registry.get?_eq_none_iff.2 unloaded, found]
    rfl

/-- A list of voices makes a registry exactly if it is not empty. The registry lists the identifiers
of the list in the order of their bytes, finds the first voice of the list with an identifier, and
chooses the first voice with the identifier that a request leads to. Voices with distinct
identifiers make the same registry in any order. -/
theorem ofList_selects (voices : List Voice) :
    ((∃ failure, ofList voices = .error failure) ↔ voices = []) ∧
      (voices ≠ [] → ∃ registry, ofList voices = .ok registry ∧
        (registry.ids.map Text.bytes).Pairwise (· < ·) ∧
        (∀ id, id ∈ registry.ids ↔ ∃ voice ∈ voices, voice.id = id) ∧
        (∀ id, registry.get? id = voices.find? (·.id == id)) ∧
        ∀ map name language voice, registry.resolve map name language = voice ↔
          ∃ id, Preferred (voices.map (·.id)) map name language id ∧
            voices.find? (·.id == id) = some voice) ∧
      ∀ others, others.Perm voices → (voices.map (·.id)).Nodup → ofList others = ofList voices := by
  refine ⟨?_, ?_, ?_⟩
  · constructor
    · rintro ⟨failure, failed⟩
      apply Decidable.byContradiction
      intro some?
      obtain ⟨registry, made, -⟩ := ofList_of_ne_nil some?
      rw [made] at failed
      cases failed
    · rintro rfl
      exact ⟨_, ofList_nil⟩
  · intro some?
    obtain ⟨registry, made, sorted⟩ := ofList_of_ne_nil some?
    have ids : registry.ids = (sort voices).map (·.id) := congrArg (List.map Voice.id) sorted
    have members (id : String) : id ∈ registry.ids ↔ id ∈ voices.map (·.id) := by
      rw [ids, mem_ids_sort_iff]
    have found (id : String) : registry.get? id = voices.find? (·.id == id) := by
      rw [get?_eq_find?, sorted, find?_sort]
    refine ⟨registry, made, ?_, ?_, found, ?_⟩
    · refine List.pairwise_map.2 (List.pairwise_map.2 (registry.ascending.imp ?_))
      exact Text.bytes_lt_bytes
    · intro id
      rw [members, List.mem_map]
    · intro map name language voice
      obtain ⟨id, preferred⟩ := registry.exists_preferred map name language
      constructor
      · rintro rfl
        refine ⟨id, preferred.congr members, ?_⟩
        rw [← found, registry.get?_of_preferred map name language preferred]
      · rintro ⟨other, chosen, first⟩
        have same := registry.get?_of_preferred map name language
          (chosen.congr fun id => (members id).symm)
        rw [found, first] at same
        exact (Option.some.inj same).symm
  · intro others permuted distinct
    have same := sort_of_perm permuted distinct
    simp only [ofList, same]

/-- Two voices have one identifier, one has the name that stands for no particular voice, and one
is not named in ASCII. -/
def choir : List Voice :=
  let silent (rate : UInt32) (id : String) : Voice := ⟨⟨rate, fun _ _ _ => .ok []⟩, id⟩
  [silent 8000 "nora", silent 16000 "élodie", silent 22050 "nora", silent 24000 "default"]

/-- One language has a voice of the choir and another one a voice that is missing. -/
def choirMap : VoiceMap where
  voices := .ofList [("pt", "nora"), ("de", "hans")]
  defaultVoice := "élodie"

theorem ofList_selects_choir :
    choir ≠ [] ∧
      (∃ registry, ofList choir = .ok registry ∧
        (registry.get? "nora").map (·.nativeRate) = some 8000 ∧
        (registry.resolve choirMap "nora" "de").nativeRate = 8000 ∧
        (registry.resolve choirMap "default" "pt").nativeRate = 8000 ∧
        (registry.resolve choirMap "hans" "de").nativeRate = 16000 ∧
        (registry.resolve .standard "default" "fr").nativeRate = 24000) ∧
      (choir.drop 1).reverse.Perm (choir.drop 1) ∧ ((choir.drop 1).map (·.id)).Nodup ∧
      ofList (choir.drop 1).reverse = ofList (choir.drop 1) := by
  have some? : choir ≠ [] := nofun
  have permuted := List.reverse_perm (choir.drop 1)
  have distinct : ((choir.drop 1).map (·.id)).Nodup := by decide
  obtain ⟨-, made, -⟩ := ofList_selects choir
  obtain ⟨registry, made, -, -, found, chosen⟩ := made some?
  let Leads := Preferred (choir.map (·.id))
  have named : Leads choirMap "nora" "de" "nora" := .named (by decide) (by decide)
  have mapped : Leads choirMap "default" "pt" "nora" :=
    .mapped "nora" (.inl rfl) (by decide) (by decide)
  have fallback : Leads choirMap "hans" "de" choirMap.defaultVoice := by
    refine .fallback (.inr (by decide)) ?_ (by decide)
    intro id entry
    have missing : id = "hans" := by simpa [choirMap, TagTable.ofList, TagTable.insert] using entry
    rw [missing]
    decide
  have least : Leads .standard "default" "fr" "default" := by
    refine .least _ (.inl rfl) ?_ (by decide) (by decide) (by decide)
    intro id entry
    simp [VoiceMap.standard, TagTable.ofList, TagTable.insert, TagTable.empty] at entry
  refine ⟨some?, ⟨registry, made, ?_, ?_, ?_, ?_, ?_⟩, permuted, distinct, ?_⟩
  · rw [found]
    rfl
  · rw [(chosen choirMap "nora" "de" _).2 ⟨_, named, rfl⟩]
  · rw [(chosen choirMap "default" "pt" _).2 ⟨_, mapped, rfl⟩]
  · rw [(chosen choirMap "hans" "de" _).2 ⟨_, fallback, rfl⟩]
  · rw [(chosen .standard "default" "fr" _).2 ⟨_, least, rfl⟩]
  · exact (ofList_selects (choir.drop 1)).2.2 _ permuted distinct

end VoiceRegistry

end SpeechService
