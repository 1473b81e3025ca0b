import SpeechService.Proofs.Json.Record
import SpeechService.Proofs.Language
import SpeechService.Proofs.Text
import SpeechService.Proofs.Voice.Selection
import SpeechService.Voice.Directory

/-!
Which voices a folder holds. Each loaded voice is what the loader made of a model and its
configuration, and a document is a configuration where its section `audio`, if there is one, holds a
whole 32-bit rate or none. `Loadable` says which voices these are of the entries as a set, so the
order in which they are listed is of no concern, and neither is an entry that no loadable voice
needs.
-/

set_option autoImplicit false

namespace SpeechService

theorem VoiceRegistry.mem_of_ofList {voices : List Voice} {registry : VoiceRegistry}
    (h : ofList voices = .ok registry) {voice : Voice} (mem : voice ∈ registry.voices) :
    voice ∈ voices := by
  have some? : voices ≠ [] := by
    rintro rfl
    rw [ofList_nil] at h
    cases h
  obtain ⟨made, same, sorted⟩ := ofList_of_ne_nil some?
  rw [h] at same
  cases same
  rw [sorted] at mem
  exact mem_of_mem_sort mem

theorem VoiceConfig.ofFile_eq_ok_iff {path : String} {content : Bytes} {config : VoiceConfig} :
    ofFile path content = .ok config ↔
      ∃ text, content = Text.bytes text ∧ ofText text = .ok config := by
  rw [ofFile]
  cases read : Text.ofBytes? content with
  | none =>
    refine iff_of_false nofun ?_
    rintro ⟨text, rfl, -⟩
    rw [Text.ofBytes?_bytes] at read
    cases read
  | some text =>
    obtain rfl := Text.ofBytes?_eq_some_iff.1 read
    have only : (∃ other, Text.bytes text = Text.bytes other ∧ ofText other = .ok config) ↔
        ofText text = .ok config := by
      constructor
      · rintro ⟨other, bytes, accepted⟩
        rw [bytes, Text.ofBytes?_bytes] at read
        cases read
        exact accepted
      · exact fun accepted => ⟨text, rfl, accepted⟩
    rw [only]
    dsimp only
    cases ofText text <;> simp

theorem DiscoveredVoice.load?_eq_some_iff {loader : VoiceLoader} {path : String}
    {discovered : DiscoveredVoice} {voice : Voice} :
    discovered.load? loader path = some voice ↔ voice.id = discovered.id ∧
      ∃ config, discovered.config path = .ok config ∧
        loader discovered.id (childPath path discovered.model) config =
          .ok voice.toSynthesizer := by
  rw [load?]
  cases discovered.config path with
  | error failure => simp
  | ok config =>
    cases made : loader discovered.id (childPath path discovered.model) config with
    | error failure => simp [made]
    | ok synthesizer =>
      obtain ⟨own, id⟩ := voice
      simp only [Option.some.injEq, Except.ok.injEq, Voice.mk.injEq, exists_eq_left', made]
      tauto

theorem exists_loader_of_mem {loader : VoiceLoader} {path : String} {folder : Option Folder}
    {registry : VoiceRegistry} (loaded : loadVoices loader path folder = .ok registry)
    {voice : Voice} (mem : voice ∈ registry.voices) :
    ∃ model config, loader voice.id model config = .ok voice.toSynthesizer := by
  cases folder with
  | none => cases loaded
  | some folder =>
    simp only [loadVoices, scanVoices, bind, Except.bind] at loaded
    split at loaded
    · cases loaded
    · have listed := VoiceRegistry.mem_of_ofList loaded mem
      obtain ⟨discovered, -, load⟩ := List.mem_filterMap.1 listed
      obtain ⟨same, config, -, made⟩ := discovered.load?_eq_some_iff.1 load
      rw [same]
      exact ⟨_, config, made⟩

/-- A voice that is a tone. -/
def Voice.IsTone (voice : Voice) : Prop := ∃ tone : Tone, voice.toSynthesizer = tone.synthesizer

theorem isTone_of_loadVoices {path : String} {folder : Option Folder} {registry : VoiceRegistry}
    (loaded : loadVoices toneLoader path folder = .ok registry) :
    ∀ voice ∈ registry.voices, voice.IsTone := by
  intro voice mem
  obtain ⟨model, config, made⟩ := exists_loader_of_mem loaded mem
  rw [toneLoader, Except.ok.injEq] at made
  exact ⟨.standard config.rate, made.symm⟩

end SpeechService

namespace SpeechService.VoiceConfig

open Json (Document Single TypedField Value naturalMeaning)

def IsRate (value : Value) (config : VoiceConfig) : Prop :=
  ∃ number : UInt64, value = .number (.natural number) ∧ number.toNat = config.rate.toNat

/-- A value that is a configuration: an object or a list with one section, the audio section being
an object or a list with one rate. What is absent means the default rate. -/
def Written : Value → VoiceConfig → Prop :=
  Single "audio" standard (Single "sample_rate" standard IsRate)

def rateField : TypedField VoiceConfig :=
  .of "sample_rate" (Json.readNatural_means (UInt32.size - 1)) fun _ rate => ⟨UInt32.ofNat rate⟩

def audioField : TypedField VoiceConfig :=
  .of "audio" (Json.readRecord_means [rateField] standard) fun _ audio => audio

theorem rateField_step_iff {config : VoiceConfig} {value : Value} :
    rateField.step standard value = .ok config ↔ IsRate value config := by
  have step : rateField.step standard value =
      (naturalMeaning (UInt32.size - 1) value).map fun rate => ⟨UInt32.ofNat rate⟩ := rfl
  have small := config.rate.toNat_lt
  have size : UInt32.size = 2 ^ 32 := rfl
  rw [step]
  constructor
  · intro held
    obtain ⟨rate, natural, same⟩ := Json.exists_of_map_eq_ok held
    obtain ⟨number, rfl, rfl, fits⟩ :=
      Value.natural?_eq_some_iff.1 (Json.naturalMeaning_eq_ok_iff.1 natural)
    subst same
    exact ⟨number, rfl, (UInt32.toNat_ofNat_of_lt' (by omega)).symm⟩
  · rintro ⟨number, rfl, same⟩
    have natural : naturalMeaning (UInt32.size - 1) (.number (.natural number)) =
        .ok config.rate.toNat := by
      refine Json.naturalMeaning_eq_ok_iff.2 (Value.natural?_eq_some_iff.2 ⟨number, rfl, same, ?_⟩)
      omega
    rw [natural, Except.map, UInt32.ofNat_toNat]

theorem audioField_step_iff {config : VoiceConfig} {value : Value} :
    audioField.step standard value = .ok config ↔
      Single "sample_rate" standard IsRate value config := by
  have step : audioField.step standard value =
      (Json.recordMeaning [rateField] standard value).map id := rfl
  have inner := @Json.recordMeaning_single_iff _ rateField standard config value
  simp only [rateField_step_iff] at inner
  rw [step, Except.map_id]
  exact inner

/-- A document is a configuration exactly if its value is. -/
theorem ofText_eq_ok_iff {text : String} {value : Value} (document : Document text value)
    {config : VoiceConfig} : ofText text = .ok config ↔ Written value config := by
  have read : ofText text = Json.recordMeaning [audioField] standard value :=
    Json.readDocument_means (Json.readRecord_means [audioField] standard) document
  have outer := @Json.recordMeaning_single_iff _ audioField standard config value
  simp only [audioField_step_iff] at outer
  rw [read]
  exact outer

end SpeechService.VoiceConfig

namespace SpeechService

theorem Folder.file?_eq_some_iff {folder : Folder} (distinct : (folder.map Prod.fst).Nodup)
    {name : String} {content : Bytes} :
    folder.file? name = some content ↔ (name, .file content) ∈ folder := by
  rw [file?, ← lookup_eq_some_iff_mem distinct]
  cases folder.lookup name with
  | none => simp
  | some entry => cases entry <;> simp

def modelName (id : String) : String := id ++ ".onnx"

def configName (id : String) : String := id ++ ".onnx.json"

theorem toList_modelName (id : String) :
    (modelName id).toList = id.toList ++ '.' :: "onnx".toList :=
  String.toList_append

theorem modelName_append (id : String) : modelName id ++ ".json" = configName id := by
  rw [modelName, configName, String.append_assoc]
  rfl

theorem voiceId?_eq_some_iff {name id : String} :
    voiceId? name = some id ↔ name = modelName id ∧ id ≠ "" := by
  have fresh : '.' ∉ modelExtension.toList := by decide
  have cut : Text.splitAtLast? '.' name = some (id, modelExtension) ↔ name = modelName id := by
    rw [Text.splitAtLast?_eq_some_iff, ← String.toList_inj, toList_modelName]
    exact and_iff_left fresh
  rw [← cut, voiceId?]
  cases Text.splitAtLast? '.' name with
  | none => simp
  | some parts =>
    obtain ⟨first, extension⟩ := parts
    simp only [Option.some.injEq, Prod.mk.injEq]
    constructor
    · intro named
      split at named
      · rename_i model
        cases named
        exact ⟨⟨rfl, model.1⟩, model.2⟩
      · cases named
    · rintro ⟨⟨rfl, rfl⟩, some?⟩
      rw [if_pos ⟨rfl, some?⟩]

/-- What a folder at a path holds for a voice: a model, the configuration beside it, and what the
loader makes of both. -/
structure Loadable (loader : VoiceLoader) (path : String) (folder : Folder) (id : String)
    (config : VoiceConfig) (synthesizer : Synthesizer) : Prop where
  named : id ≠ ""
  model : ∃ entry, (modelName id, entry) ∈ folder
  configured : ∃ text, (configName id, .file (Text.bytes text)) ∈ folder ∧
    VoiceConfig.ofText text = .ok config
  accepted : loader id (childPath path (modelName id)) config = .ok synthesizer

theorem voiceOf?_eq_some_iff {folder : Folder} (distinct : (folder.map Prod.fst).Nodup)
    {name : String} {discovered : DiscoveredVoice} :
    folder.voiceOf? name = some discovered ↔ ∃ id content, name = modelName id ∧ id ≠ "" ∧
      (configName id, .file content) ∈ folder ∧
      discovered = ⟨id, name, configName id, content⟩ := by
  simp only [Folder.voiceOf?, Option.bind_eq_bind, Option.bind_eq_some_iff, voiceId?_eq_some_iff,
    Folder.file?_eq_some_iff distinct]
  constructor
  · rintro ⟨id, ⟨rfl, some?⟩, content, mem, same⟩
    rw [modelName_append] at mem same
    exact ⟨id, content, rfl, some?, mem, (Option.some.inj same).symm⟩
  · rintro ⟨id, content, rfl, some?, mem, rfl⟩
    refine ⟨id, ⟨rfl, some?⟩, content, ?_, ?_⟩
    · rw [modelName_append]
      exact mem
    · rw [modelName_append]

theorem mem_discover_iff {folder : Folder} {discovered : DiscoveredVoice} :
    discovered ∈ folder.discover ↔
      ∃ entry ∈ folder, folder.voiceOf? entry.1 = some discovered := by
  rw [Folder.discover, (List.mergeSort_perm _ _).mem_iff, List.mem_filterMap]

def Folder.load (loader : VoiceLoader) (path : String) (folder : Folder) : List Voice :=
  folder.discover.filterMap (·.load? loader path)

theorem mem_load_iff {loader : VoiceLoader} {path : String} {folder : Folder}
    (distinct : (folder.map Prod.fst).Nodup) {voice : Voice} :
    voice ∈ folder.load loader path ↔
      ∃ config, Loadable loader path folder voice.id config voice.toSynthesizer := by
  simp only [Folder.load, List.mem_filterMap, mem_discover_iff, voiceOf?_eq_some_iff distinct,
    DiscoveredVoice.load?_eq_some_iff]
  constructor
  · rintro ⟨_, ⟨⟨_, entry⟩, mem, id, content, rfl, some?, beside, rfl⟩, same, config, read, made⟩
    obtain ⟨text, rfl, parsed⟩ := VoiceConfig.ofFile_eq_ok_iff.1 read
    dsimp only at same made
    subst same
    exact ⟨config, some?, ⟨entry, mem⟩, ⟨text, beside, parsed⟩, made⟩
  · rintro ⟨config, some?, ⟨entry, mem⟩, ⟨text, beside, parsed⟩, made⟩
    refine ⟨_, ⟨_, mem, voice.id, Text.bytes text, rfl, some?, beside, rfl⟩, rfl, config, ?_, made⟩
    exact VoiceConfig.ofFile_eq_ok_iff.2 ⟨text, rfl, parsed⟩

section Entries

variable {loader : VoiceLoader} {path : String} {folder others before after : Folder}
  {entry : String × FolderEntry} {id : String} {config : VoiceConfig} {synthesizer : Synthesizer}

theorem Loadable.unique (distinct : (folder.map Prod.fst).Nodup) {other : VoiceConfig}
    {another : Synthesizer} (h : Loadable loader path folder id config synthesizer)
    (again : Loadable loader path folder id other another) :
    config = other ∧ synthesizer = another := by
  obtain ⟨text, beside, parsed⟩ := h.configured
  obtain ⟨content, same, read⟩ := again.configured
  rw [← lookup_eq_some_iff_mem distinct] at beside same
  rw [beside, Option.some.injEq, FolderEntry.file.injEq] at same
  obtain rfl := Text.bytes_injective same
  rw [parsed, Except.ok.injEq] at read
  subst read
  have made := h.accepted
  rw [again.accepted, Except.ok.injEq] at made
  exact ⟨rfl, made.symm⟩

theorem Loadable.mono (h : Loadable loader path folder id config synthesizer)
    (kept : ∀ entry ∈ folder, entry.1 = modelName id ∨ entry.1 = configName id → entry ∈ others) :
    Loadable loader path others id config synthesizer := by
  obtain ⟨some?, ⟨model, mem⟩, ⟨text, beside, parsed⟩, made⟩ := h
  exact ⟨some?, ⟨model, kept _ mem (.inl rfl)⟩, ⟨text, kept _ beside (.inr rfl), parsed⟩, made⟩

/-- Without an entry a folder holds the voices that do not need it. -/
theorem loadable_append_iff (distinct : ((before ++ entry :: after).map Prod.fst).Nodup) :
    Loadable loader path (before ++ after) id config synthesizer ↔
      Loadable loader path (before ++ entry :: after) id config synthesizer ∧
        entry.1 ≠ modelName id ∧ entry.1 ≠ configName id := by
  have middle (other : String × FolderEntry) :
      other ∈ before ++ entry :: after ↔ other = entry ∨ other ∈ before ++ after := by
    rw [List.perm_middle.mem_iff, List.mem_cons]
  constructor
  · intro h
    have fresh : entry.1 ∉ (before ++ after).map Prod.fst := by
      rw [List.map_append, List.map_cons, List.nodup_middle, List.nodup_cons,
        ← List.map_append] at distinct
      exact distinct.1
    have other {name : String} {content : FolderEntry} (mem : (name, content) ∈ before ++ after) :
        entry.1 ≠ name := by
      rintro rfl
      exact fresh (List.mem_map.2 ⟨_, mem, rfl⟩)
    obtain ⟨model, mem⟩ := h.model
    obtain ⟨text, beside, -⟩ := h.configured
    exact ⟨h.mono fun _ mem _ => (middle _).2 (.inr mem), other mem, other beside⟩
  · rintro ⟨h, notModel, notConfig⟩
    refine h.mono ?_
    intro other mem needed
    rcases (middle other).1 mem with rfl | kept
    · exact absurd needed (not_or.2 ⟨notModel, notConfig⟩)
    · exact kept

end Entries

section Registries

variable {loader : VoiceLoader} {path : String} {folder others : Folder}

theorem loadVoices_of_nil (nothing : folder.load loader path = []) :
    loadVoices loader path (some folder) =
      .error (.noVoicesLoaded ("no usable voice in " ++ path)) := by
  rw [Folder.load] at nothing
  simp only [loadVoices, scanVoices, Bind.bind, Except.bind, nothing]

theorem loadVoices_of_ne_nil (some? : folder.load loader path ≠ []) :
    loadVoices loader path (some folder) = VoiceRegistry.ofList (folder.load loader path) := by
  obtain ⟨voice, voices, loaded⟩ := List.exists_cons_of_ne_nil some?
  rw [loaded]
  rw [Folder.load] at loaded
  simp only [loadVoices, scanVoices, Bind.bind, Except.bind, loaded]

theorem eq_of_mem_load (distinct : (folder.map Prod.fst).Nodup) :
    ∀ voice ∈ folder.load loader path, ∀ other ∈ folder.load loader path,
      voice.id = other.id → voice = other := by
  rintro ⟨synthesizer, id⟩ mem ⟨another, _⟩ among rfl
  obtain ⟨config, loadable⟩ := (mem_load_iff distinct).1 mem
  obtain ⟨other, again⟩ := (mem_load_iff distinct).1 among
  obtain ⟨-, same⟩ := loadable.unique distinct again
  exact congrArg (Voice.mk · id) same

theorem loadVoices_congr (distinct : (folder.map Prod.fst).Nodup)
    (distinct' : (others.map Prod.fst).Nodup)
    (same : ∀ id config synthesizer, Loadable loader path others id config synthesizer ↔
      Loadable loader path folder id config synthesizer) :
    loadVoices loader path (some others) = loadVoices loader path (some folder) := by
  have members (voice : Voice) :
      voice ∈ others.load loader path ↔ voice ∈ folder.load loader path := by
    simp only [mem_load_iff distinct, mem_load_iff distinct', same]
  have sorted : VoiceRegistry.sort (others.load loader path) =
      VoiceRegistry.sort (folder.load loader path) := by
    refine (VoiceRegistry.sort_ascending _).eq_of_mem_iff (VoiceRegistry.sort_ascending _) ?_
    intro voice
    rw [VoiceRegistry.mem_sort_iff (eq_of_mem_load distinct'),
      VoiceRegistry.mem_sort_iff (eq_of_mem_load distinct), members]
  by_cases nothing : folder.load loader path = []
  · have empty : others.load loader path = [] := by
      refine List.eq_nil_iff_forall_not_mem.2 ?_
      intro voice mem
      have loaded := (members voice).1 mem
      rw [nothing] at loaded
      cases loaded
    rw [loadVoices_of_nil nothing, loadVoices_of_nil empty]
  · obtain ⟨voice, voices, loaded⟩ := List.exists_cons_of_ne_nil nothing
    have mem : voice ∈ folder.load loader path := loaded ▸ List.mem_cons_self
    have some? : others.load loader path ≠ [] := List.ne_nil_of_mem ((members voice).2 mem)
    rw [loadVoices_of_ne_nil nothing, loadVoices_of_ne_nil some?]
    simp only [VoiceRegistry.ofList, sorted]

theorem load_eq_nil_iff (distinct : (folder.map Prod.fst).Nodup) :
    folder.load loader path = [] ↔
      ∀ id config synthesizer, ¬Loadable loader path folder id config synthesizer := by
  rw [List.eq_nil_iff_forall_not_mem]
  constructor
  · intro nothing id config synthesizer loadable
    exact nothing ⟨synthesizer, id⟩ ((mem_load_iff distinct).2 ⟨config, loadable⟩)
  · intro nothing voice mem
    obtain ⟨config, loadable⟩ := (mem_load_iff distinct).1 mem
    exact nothing voice.id config voice.toSynthesizer loadable

theorem loadVoices_eq_modelNotFound_iff {place : Option Folder} {missing : String} :
    loadVoices loader path place = .error (.modelNotFound missing) ↔
      place = none ∧ missing = path := by
  cases place with
  | none =>
    have refused : loadVoices loader path none = .error (.modelNotFound path) := rfl
    simp [refused, eq_comm]
  | some folder =>
    refine iff_of_false ?_ nofun
    intro refused
    by_cases nothing : folder.load loader path = []
    · rw [loadVoices_of_nil nothing] at refused
      cases refused
    · obtain ⟨registry, made, -⟩ := VoiceRegistry.ofList_of_ne_nil nothing
      rw [loadVoices_of_ne_nil nothing, made] at refused
      cases refused

/-- A registry of the voices of a folder, and of no others, in the order of their bytes. -/
structure Registers (loader : VoiceLoader) (path : String) (folder : Folder)
    (registry : VoiceRegistry) : Prop where
  ascending : (registry.ids.map Text.bytes).Pairwise (· < ·)
  mem_iff : ∀ voice, voice ∈ registry.voices ↔
    ∃ config, Loadable loader path folder voice.id config voice.toSynthesizer

theorem exists_registers (distinct : (folder.map Prod.fst).Nodup)
    (some? : folder.load loader path ≠ []) :
    ∃ registry, loadVoices loader path (some folder) = .ok registry ∧
      Registers loader path folder registry := by
  obtain ⟨registry, made, sorted⟩ := VoiceRegistry.ofList_of_ne_nil some?
  refine ⟨registry, (loadVoices_of_ne_nil some?).trans made, ?_, ?_⟩
  · refine List.pairwise_map.2 (List.pairwise_map.2 (registry.ascending.imp ?_))
    exact Text.bytes_lt_bytes
  · intro voice
    rw [sorted, VoiceRegistry.mem_sort_iff (eq_of_mem_load distinct), mem_load_iff distinct]

theorem toneRate_of_mem (distinct : (folder.map Prod.fst).Nodup) {registry : VoiceRegistry}
    (made : loadVoices toneLoader path (some folder) = .ok registry) {voice : Voice}
    (mem : voice ∈ registry.voices) :
    ∃ text, (configName voice.id, .file (Text.bytes text)) ∈ folder ∧
      VoiceConfig.ofText text = .ok ⟨voice.nativeRate⟩ ∧
      ∀ value, Json.Document text value → VoiceConfig.Written value ⟨voice.nativeRate⟩ := by
  have some? : folder.load toneLoader path ≠ [] := by
    intro nothing
    rw [loadVoices_of_nil nothing] at made
    cases made
  obtain ⟨same, loaded, registers⟩ := exists_registers distinct some?
  rw [made, Except.ok.injEq] at loaded
  subst loaded
  obtain ⟨config, loadable⟩ := (registers.mem_iff voice).1 mem
  obtain ⟨text, beside, parsed⟩ := loadable.configured
  have accepted := loadable.accepted
  rw [toneLoader, Except.ok.injEq] at accepted
  have rate : config = ⟨voice.nativeRate⟩ := by
    rw [← accepted]
    rfl
  rw [rate] at parsed
  refine ⟨text, beside, parsed, ?_⟩
  intro value document
  exact (VoiceConfig.ofText_eq_ok_iff document).1 parsed

end Registries

/-- Loading fails for want of a folder exactly if there is none. From a folder it makes a registry
of its voices, or fails if it has none. The order of the entries is of no concern, nor is an entry
that belongs to no voice. A tone has the rate that the document of its configuration names, or the
default rate. -/
theorem loadVoices_loadable (loader : VoiceLoader) (path : String) :
    (∀ place missing, loadVoices loader path place = .error (.modelNotFound missing) ↔
      place = none ∧ missing = path) ∧
    ∀ folder : Folder, (folder.map Prod.fst).Nodup →
      ((∀ id config synthesizer, ¬Loadable loader path folder id config synthesizer) →
        loadVoices loader path (some folder) =
          .error (.noVoicesLoaded ("no usable voice in " ++ path))) ∧
      ((∃ id config synthesizer, Loadable loader path folder id config synthesizer) →
        ∃ registry, loadVoices loader path (some folder) = .ok registry ∧
          Registers loader path folder registry) ∧
      (∀ others : Folder, others.Perm folder →
        loadVoices loader path (some others) = loadVoices loader path (some folder)) ∧
      (∀ before entry after, folder = before ++ entry :: after →
        (∀ id config synthesizer, Loadable loader path folder id config synthesizer →
          entry.1 ≠ modelName id ∧ entry.1 ≠ configName id) →
        loadVoices loader path (some (before ++ after)) = loadVoices loader path (some folder)) ∧
      ∀ registry, loadVoices toneLoader path (some folder) = .ok registry →
        ∀ voice ∈ registry.voices, ∃ text,
          (configName voice.id, .file (Text.bytes text)) ∈ folder ∧
          VoiceConfig.ofText text = .ok ⟨voice.nativeRate⟩ ∧
          ∀ value, Json.Document text value → VoiceConfig.Written value ⟨voice.nativeRate⟩ := by
  refine ⟨fun place missing => loadVoices_eq_modelNotFound_iff, ?_⟩
  intro folder distinct
  refine ⟨?_, ?_, ?_, ?_, ?_⟩
  · intro nothing
    exact loadVoices_of_nil ((load_eq_nil_iff distinct).2 nothing)
  · rintro ⟨id, config, synthesizer, loadable⟩
    refine exists_registers distinct ?_
    intro nothing
    exact (load_eq_nil_iff distinct).1 nothing id config synthesizer loadable
  · intro others permuted
    refine loadVoices_congr distinct ((permuted.map _).nodup_iff.2 distinct) ?_
    intro id config synthesizer
    constructor
    · exact fun h => h.mono fun _ mem _ => permuted.mem_iff.1 mem
    · exact fun h => h.mono fun _ mem _ => permuted.mem_iff.2 mem
  · rintro before entry after rfl needless
    have fewer : ((before ++ after).map Prod.fst).Nodup :=
      distinct.sublist (((List.sublist_cons_self entry after).append_left before).map _)
    refine loadVoices_congr distinct fewer ?_
    intro id config synthesizer
    rw [loadable_append_iff distinct]
    exact and_iff_left_of_imp (needless id config synthesizer)
  · intro registry made voice mem
    exact toneRate_of_mem distinct made mem

def listedRate : String := "\x7b\"audio\":[8000]\x7d"

theorem listedRate_document :
    Json.Document listedRate (.object [("audio", .list [.number (.natural 8000)])]) := by
  have none := Json.space_nil
  have digits : Json.Digits ['8', '0', '0', '0'] := ⟨by decide, List.all_eq_true.1 (by decide)⟩
  have rate : Json.ScalarForm ['8', '0', '0', '0'] (.number (.natural 8000)) :=
    .number (@Json.NumberForm.mk _ [] [] false _ _ digits (by decide) .none .none) rfl
  have audio : Json.ValueForm 1 ['[', '8', '0', '0', '0', ']'] (.list [.number (.natural 8000)]) :=
    .inr (.inl ⟨_, @Json.ListForm.mk _ ['8', '0', '0', '0'] _ _ (.cons rate .nil)
      (.cons none (.nil none)), rfl⟩)
  have named : Json.MemberForm (Json.ValueForm 1) _ ⟨"audio", _, _⟩ :=
    .mk (Json.textForm_text "audio") none none audio
  exact ⟨2, [], _, [], none, .inr (.inr ⟨_, ⟨.cons named .nil, Json.itemsForm_separated _⟩, rfl⟩),
    none, by decide⟩

/-- Of the models one has no name, one lacks its configuration, and one is a folder. -/
def unsortedFolder : Folder :=
  [("orphan.onnx", .folder), (".onnx", .file []), (".onnx.json", .file (Text.bytes "[]")),
   ("b.onnx", .folder), ("b.onnx.json", .file (Text.bytes "[]")),
   ("a.b.onnx.json", .file (Text.bytes listedRate)), ("a.b.onnx", .file [])]

theorem loadVoices_loadable_unsorted :
    (unsortedFolder.map Prod.fst).Nodup ∧
      Loadable toneLoader "voices" unsortedFolder "a.b" ⟨8000⟩ (Tone.standard 8000).synthesizer ∧
      (∃ registry, loadVoices toneLoader "voices" (some unsortedFolder) = .ok registry ∧
        (⟨(Tone.standard 8000).synthesizer, "a.b"⟩ : Voice) ∈ registry.voices ∧
        ∀ voice ∈ registry.voices, voice.id ≠ "" ∧ voice.id ≠ "orphan") ∧
      (∃ value, Json.Document listedRate value ∧ VoiceConfig.Written value ⟨8000⟩) ∧
      loadVoices toneLoader "voices" (some unsortedFolder.reverse) =
        loadVoices toneLoader "voices" (some unsortedFolder) ∧
      loadVoices toneLoader "voices" (some (unsortedFolder.drop 1)) =
        loadVoices toneLoader "voices" (some unsortedFolder) ∧
      loadVoices toneLoader "voices" (some []) =
        .error (.noVoicesLoaded "no usable voice in voices") := by
  have distinct : (unsortedFolder.map Prod.fst).Nodup := by decide
  have parsed : VoiceConfig.ofText listedRate = .ok ⟨8000⟩ := by decide +kernel
  have beside : (configName "a.b", .file (Text.bytes listedRate)) ∈ unsortedFolder := by
    simp [unsortedFolder, configName]
  have loadable : Loadable toneLoader "voices" unsortedFolder "a.b" ⟨8000⟩
      (Tone.standard 8000).synthesizer := by
    refine ⟨by decide, ⟨.file [], ?_⟩, ⟨_, beside, parsed⟩, rfl⟩
    simp [unsortedFolder, modelName]
  -- the configuration of the model that is taken out would have to be in the folder
  have alone {id : String} {config : VoiceConfig} {synthesizer : Synthesizer}
      (h : Loadable toneLoader "voices" unsortedFolder id config synthesizer) :
      "orphan.onnx" ≠ modelName id ∧ "orphan.onnx" ≠ configName id := by
    obtain ⟨text, beside, -⟩ := h.configured
    constructor
    · intro same
      rw [← modelName_append, ← same] at beside
      simp [unsortedFolder] at beside
    · intro same
      rw [← same] at beside
      simp [unsortedFolder] at beside
  obtain ⟨-, from?⟩ := loadVoices_loadable toneLoader "voices"
  obtain ⟨-, some?, order, extra, tones⟩ := from? unsortedFolder distinct
  obtain ⟨registry, made, registers⟩ := some? ⟨_, _, _, loadable⟩
  have mem := (registers.mem_iff ⟨(Tone.standard 8000).synthesizer, "a.b"⟩).2 ⟨_, loadable⟩
  obtain ⟨refused, -⟩ := from? [] .nil
  refine ⟨distinct, loadable, ⟨registry, made, mem, ?_⟩, ⟨_, listedRate_document, ?_⟩, ?_, ?_, ?_⟩
  · intro voice mem
    obtain ⟨config, held⟩ := (registers.mem_iff voice).1 mem
    refine ⟨held.named, ?_⟩
    intro orphan
    exact (alone held).1 (orphan ▸ rfl)
  · obtain ⟨text, same, -, written⟩ := tones registry made _ mem
    rw [← lookup_eq_some_iff_mem distinct] at beside same
    rw [beside, Option.some.injEq, FolderEntry.file.injEq] at same
    obtain rfl := Text.bytes_injective same
    exact written _ listedRate_document
  · exact order _ (List.reverse_perm _)
  · exact extra [] _ _ rfl fun _ _ _ held => alone held
  · refine refused ?_
    intro id config synthesizer held
    obtain ⟨entry, mem⟩ := held.model
    cases mem

end SpeechService
