import Mathlib.Data.List.DropRight
import SpeechService.Proofs.Text
import SpeechService.Server.Settings

/-!
Settings that are always in range. `normalize` gives usable settings and leaves usable ones as they
are. Each field is brought into range and replaced on its own, so an environment that is applied
again replaces each field by the same value; of the address it replaces two parts, the whole and
then its port.

With a port of its own the address keeps the host that was asked for, without the blanks in front,
or gets the one that stands for all hosts. An address of the environment is cut before it is
trimmed: of a host of blanks only, nothing is left.
-/

set_option autoImplicit false

namespace SpeechService

namespace Server.Settings

theorem digits_of_port (port : Nat) : ∀ c ∈ (toString port).toList, c.isDigit = true := by
  intro c mem
  rw [show (toString port).toList = Nat.toDigits 10 port from Nat.toList_repr] at mem
  exact Nat.isDigit_of_mem_toDigits (by decide) (by decide) mem

theorem withPort_of_host {host : String} (some? : host ≠ "") (other port : Nat) :
    withPort (host ++ ":" ++ toString other) port = host ++ ":" ++ toString port := by
  have split : Text.splitAtLast? ':' (host ++ ":" ++ toString other) =
      some (host, toString other) := by
    refine Text.splitAtLast?_eq_some_iff.2 ⟨?_, ?_⟩
    · simp
    · intro mem
      have digit := digits_of_port other ':' mem
      exact absurd digit (by decide)
  have kept : host.isEmpty = false := by
    rw [Bool.eq_false_iff, ne_eq, String.isEmpty_iff]
    exact some?
  rw [withPort, split]
  simp only [kept, Bool.false_eq_true, if_false]

theorem withPort_cases (address : String) (port : Nat) :
    ∃ host, host ≠ "" ∧ withPort address port = host ++ ":" ++ toString port ∧
      (host = anyHost ∨ ∃ others, address.toList = host.toList ++ ':' :: others) := by
  have any : anyHost ≠ "" := by decide
  rw [withPort]
  cases split : Text.splitAtLast? ':' address with
  | none => exact ⟨anyHost, any, rfl, .inl rfl⟩
  | some parts =>
    obtain ⟨host, others⟩ := parts
    have letters := (Text.splitAtLast?_eq_some_iff.1 split).1
    by_cases empty : host = ""
    · subst empty
      exact ⟨anyHost, any, rfl, .inl rfl⟩
    · have kept : host.isEmpty = false := by
        rw [Bool.eq_false_iff, ne_eq, String.isEmpty_iff]
        exact empty
      simp only [kept, Bool.false_eq_true, if_false]
      exact ⟨host, empty, rfl, .inr ⟨others.toList, letters⟩⟩

theorem withPort_withPort (address : String) (port : Nat) :
    withPort (withPort address port) port = withPort address port := by
  obtain ⟨host, some?, same, -⟩ := withPort_cases address port
  rw [same, withPort_of_host some?]

theorem tight_withPort {address : String} (h : Text.Tight address) (port : Nat) :
    Text.Tight (withPort address port) := by
  obtain ⟨host, some?, same, kept⟩ := withPort_cases address port
  obtain ⟨c, rest, letters⟩ : ∃ c rest, host.toList = c :: rest := by
    apply List.exists_cons_of_ne_nil
    intro nothing
    exact some? (String.toList_eq_nil_iff.1 nothing)
  have whole : (host ++ ":" ++ toString port).toList =
      c :: (rest ++ ':' :: (toString port).toList) := by
    simp [letters]
  have nonempty : (toString port).toList ≠ [] := by
    rw [show (toString port).toList = Nat.toDigits 10 port from Nat.toList_repr]
    exact Nat.toDigits_ne_nil
  rw [same]
  refine ⟨?_, ?_, ?_⟩
  · intro empty
    rw [empty] at whole
    cases whole
  · rw [whole]
    intro d mem
    cases mem
    rcases kept with rfl | ⟨others, front⟩
    · cases letters
      decide
    · rw [letters] at front
      exact h.first c (by rw [front]; rfl)
  · intro d mem
    rw [whole, List.getLast?_cons, List.getLast?_append, List.getLast?_cons,
      List.getLast?_eq_some_getLast nonempty] at mem
    cases mem
    exact Text.not_isBlank_of_isDigit (digits_of_port port _ (List.getLast_mem nonempty))

/-- Settings with which a server can run. -/
structure Usable (settings : Settings) : Prop where
  workers : 1 ≤ settings.workers ∧ settings.workers ≤ 64
  translateTimeout : 1 ≤ settings.translateTimeout ∧ settings.translateTimeout ≤ 60000
  maxRequestBytes : 1024 ≤ settings.maxRequestBytes ∧
    settings.maxRequestBytes ≤ 256 * 1024 * 1024
  listenAddress : Text.Tight settings.listenAddress
  device : settings.device = "cpu" ∨ settings.device = "cuda" ∨ settings.device = "auto"
  recognizerModel : Text.isBlankText settings.recognizerModel = false

theorem standard_usable : standard.Usable where
  workers := by decide
  translateTimeout := by decide
  maxRequestBytes := by decide
  listenAddress := by
    have first : standard.listenAddress.toList.head? = some '0' := by decide
    have last : standard.listenAddress.toList.getLast? = some '1' := by decide
    refine ⟨by decide, ?_, ?_⟩
    · rw [first]
      intro c mem
      cases mem
      decide
    · rw [last]
      intro c mem
      cases mem
      decide
  device := .inl rfl
  recognizerModel := by decide

theorem clamp_bounds {low high : Nat} (h : low ≤ high) (value : Nat) :
    low ≤ clamp low high value ∧ clamp low high value ≤ high := by
  rw [clamp]
  omega

theorem clamp_of_bounds {low high value : Nat} (h : low ≤ value ∧ value ≤ high) :
    clamp low high value = value := by
  rw [clamp]
  omega

/-- The address that is listened on: without blanks around it, and never empty. -/
def tightAddress (address : String) : String :=
  (Text.trimmed? address).getD standard.listenAddress

theorem tight_tightAddress (address : String) : Text.Tight (tightAddress address) := by
  rw [tightAddress]
  cases trimmed : Text.trimmed? address with
  | none => exact standard_usable.listenAddress
  | some rest => exact Text.tight_of_trimmed? trimmed

theorem tightAddress_of_tight {address : String} (h : Text.Tight address) :
    tightAddress address = address := by
  rw [tightAddress, h.trimmed?_eq, Option.getD_some]

theorem deviceName_cases (device : String) :
    deviceName device = "cpu" ∨ deviceName device = "cuda" ∨ deviceName device = "auto" := by
  rw [deviceName]
  split
  · exact .inr (.inl rfl)
  split
  · exact .inr (.inr rfl)
  · exact .inl rfl

theorem deviceName_of_named {device : String}
    (h : device = "cpu" ∨ device = "cuda" ∨ device = "auto") : deviceName device = device := by
  rcases h with rfl | rfl | rfl <;> decide

/-- The model that is used: the standard one in place of a blank name. -/
def modelName (model : String) : String :=
  if Text.isBlankText model then standard.recognizerModel else model

theorem not_isBlankText_modelName (model : String) :
    Text.isBlankText (modelName model) = false := by
  rw [modelName]
  by_cases blank : Text.isBlankText model = true
  · rw [if_pos blank]
    exact standard_usable.recognizerModel
  · rw [if_neg blank]
    exact Bool.eq_false_iff.2 blank

theorem modelName_of_not_isBlankText {model : String} (h : Text.isBlankText model = false) :
    modelName model = model := by
  rw [modelName, h, if_neg Bool.false_ne_true]

variable (settings : Settings)

theorem normalize_eq : settings.normalize = { settings with
    workers := clamp 1 64 settings.workers
    translateTimeout := clamp 1 60000 settings.translateTimeout
    maxRequestBytes := clamp 1024 (256 * 1024 * 1024) settings.maxRequestBytes
    listenAddress := tightAddress settings.listenAddress
    device := deviceName settings.device
    recognizerModel := modelName settings.recognizerModel } := rfl

theorem normalize_usable : settings.normalize.Usable := by
  refine ⟨?_, ?_, ?_, ?_, ?_, ?_⟩ <;> simp only [normalize_eq]
  · exact clamp_bounds (by decide) settings.workers
  · exact clamp_bounds (by decide) settings.translateTimeout
  · exact clamp_bounds (by decide) settings.maxRequestBytes
  · exact tight_tightAddress settings.listenAddress
  · exact deviceName_cases settings.device
  · exact not_isBlankText_modelName settings.recognizerModel

theorem Usable.normalize_eq_self {settings : Settings} (h : settings.Usable) :
    settings.normalize = settings := by
  rw [normalize_eq, clamp_of_bounds h.workers, clamp_of_bounds h.translateTimeout,
    clamp_of_bounds h.maxRequestBytes, deviceName_of_named h.device,
    tightAddress_of_tight h.listenAddress, modelName_of_not_isBlankText h.recognizerModel]

def value? {α : Type} (environment : Environment) (name : String) (read : String → Option α) :
    Option α :=
  (environment.lookup name).bind read

theorem override_eq {α : Type} {store : Settings → α → Settings} (get : Settings → α)
    (environment : Environment) (name : String) (read : String → Option α)
    (same : store settings (get settings) = settings) :
    override environment name read store settings =
      store settings ((value? environment name read).getD (get settings)) := by
  rw [override, value?]
  cases (environment.lookup name).bind read with
  | none => exact same.symm
  | some value => rfl

def addressOf (environment : Environment) (address : String) : String :=
  let address := (value? environment "WHATS_LISTEN_ADDR" some).getD address
  ((value? environment "GRPC_PORT" (number? (UInt16.size - 1))).map (withPort address)).getD address

theorem override_port (environment : Environment) (name : String) (read : String → Option Nat) :
    override environment name read
      (fun settings port =>
        { settings with listenAddress := withPort settings.listenAddress port }) settings =
      { settings with
        listenAddress := ((value? environment name read).map
          (withPort settings.listenAddress)).getD settings.listenAddress } := by
  rw [override, value?]
  cases (environment.lookup name).bind read with
  | none => rfl
  | some port => rfl

/-- Each field depends on the environment and on itself alone. -/
theorem applyEnvironment_eq (environment : Environment) :
    settings.applyEnvironment environment = { settings with
      listenAddress := addressOf environment settings.listenAddress
      workers :=
        (value? environment "NUM_WORKERS" (number? (UInt64.size - 1))).getD settings.workers
      modelsPath := (value? environment "TTS_MODELS_DIR" some).getD settings.modelsPath
      recognizerModel :=
        (value? environment "WHISPER_MODEL_SIZE" some).getD settings.recognizerModel
      device := (value? environment "WHATS_DEVICE" some).getD settings.device
      translatorEnabled :=
        (value? environment "WHATS_TRANSLATOR" flag?).getD settings.translatorEnabled
      translateTimeout := (value? environment "WHATS_TRANSLATE_TIMEOUT_MS"
        (number? (UInt64.size - 1))).getD settings.translateTimeout
      maxRequestBytes := (value? environment "WHATS_MAX_REQUEST_BYTES"
        (number? (UInt64.size - 1))).getD settings.maxRequestBytes } := by
  -- the first override is rewritten first, so that each field is given by the settings alone
  rw [applyEnvironment, override_eq settings listenAddress environment "WHATS_LISTEN_ADDR" _ ?_,
    override_port, override_eq _ workers environment "NUM_WORKERS" _ ?_]
  dsimp only
  rw [override_eq _ modelsPath environment "TTS_MODELS_DIR" _ ?_]
  dsimp only
  rw [override_eq _ recognizerModel environment "WHISPER_MODEL_SIZE" _ ?_]
  dsimp only
  rw [override_eq _ device environment "WHATS_DEVICE" _ ?_]
  dsimp only
  rw [override_eq _ translatorEnabled environment "WHATS_TRANSLATOR" _ ?_]
  dsimp only
  rw [override_eq _ translateTimeout environment "WHATS_TRANSLATE_TIMEOUT_MS" _ ?_]
  dsimp only
  rw [override_eq _ maxRequestBytes environment "WHATS_MAX_REQUEST_BYTES" _ ?_]
  dsimp only
  rw [addressOf]
  all_goals rfl

theorem getD_getD {α : Type} {normal : α → α}
    (again : ∀ value, normal (normal value) = normal value) (given? : Option α) (value : α) :
    normal (given?.getD (normal (given?.getD value))) = normal (given?.getD value) := by
  cases given? with
  | none => exact again value
  | some given => rfl

theorem tightAddress_addressOf {address : String} (h : Text.Tight address)
    (environment : Environment) :
    tightAddress (addressOf environment (tightAddress (addressOf environment address))) =
      tightAddress (addressOf environment address) := by
  have again (address : String) : tightAddress (tightAddress address) = tightAddress address :=
    tightAddress_of_tight (tight_tightAddress address)
  simp only [addressOf]
  cases value? environment "GRPC_PORT" (number? (UInt16.size - 1)) with
  | none =>
    simp only [Option.map_none, Option.getD_none]
    exact getD_getD again _ address
  | some port =>
    cases value? environment "WHATS_LISTEN_ADDR" some with
    | some given => simp only [Option.map_some, Option.getD_some]
    | none =>
      -- the address is tight already, so its new port is the only change
      have stays := tightAddress_of_tight (tight_withPort h port)
      simp only [Option.map_some, Option.getD_some, Option.getD_none, stays, withPort_withPort]

theorem Usable.applyEnvironment_again {settings : Settings} (h : settings.Usable)
    (environment : Environment) :
    ((settings.applyEnvironment environment).normalize.applyEnvironment environment).normalize =
      (settings.applyEnvironment environment).normalize := by
  have number {low high : Nat} (order : low ≤ high) :=
    @getD_getD Nat (clamp low high) fun value => clamp_of_bounds (clamp_bounds order value)
  have device := @getD_getD String deviceName fun device =>
    deviceName_of_named (deviceName_cases device)
  have model := @getD_getD String modelName fun model =>
    modelName_of_not_isBlankText (not_isBlankText_modelName model)
  have kept {α : Type} (given? : Option α) (value : α) :
      given?.getD (given?.getD value) = given?.getD value :=
    @getD_getD α id (fun _ => rfl) given? value
  simp only [normalize_eq, applyEnvironment_eq]
  rw [tightAddress_addressOf h.listenAddress, number (by decide), number (by decide),
    number (by decide), device, model, kept, kept]

theorem value?_filter {α : Type} (environment : Environment) {name left : String} (h : name ≠ left)
    (read : String → Option α) :
    value? (environment.filter (·.1 != left)) name read = value? environment name read := by
  have same : (environment.filter (·.1 != left)).lookup name = environment.lookup name := by
    induction environment with
    | nil => rfl
    | cons entry later ih =>
      obtain ⟨key, value⟩ := entry
      by_cases dropped : key = left
      · subst dropped
        have other : (name == key) = false := beq_eq_false_iff_ne.2 h
        rw [List.filter_cons_of_neg (by simp), List.lookup_cons, other]
        exact ih
      · rw [List.filter_cons_of_pos (by simpa using dropped), List.lookup_cons,
          List.lookup_cons, ih]
  rw [value?, same, value?]

theorem applyEnvironment_filter (environment : Environment) :
    settings.applyEnvironment (environment.filter (·.1 != pathVariable)) =
      settings.applyEnvironment environment := by
  simp (disch := decide) only [applyEnvironment_eq, addressOf, value?_filter]

/-- The content of a settings file that says nothing: there is no such file, its bytes are those of
no text, or its text is not that of settings. -/
inductive Unreadable : Option Bytes → Prop
  | absent : Unreadable none
  | notText {content : Bytes} (other : ∀ text, Text.bytes text ≠ content) :
    Unreadable (some content)
  | malformed {text : String} {fault : Json.Fault} (rejected : ofText text = .error fault) :
    Unreadable (some (Text.bytes text))

theorem Unreadable.load_eq {content? : Option Bytes} (h : Unreadable content?) :
    load content? = standard := by
  have none? : content?.bind ofFile? = none := by
    cases h with
    | absent => rfl
    | notText other =>
      rw [Option.bind_some, ofFile?, Option.bind_eq_none_iff]
      intro text read
      exact absurd (Text.ofBytes?_eq_some_iff.1 read) (other text)
    | malformed rejected =>
      rw [Option.bind_some, ofFile?, Text.ofBytes?_bytes, Option.bind_some, rejected]
      rfl
  rw [load, none?, Option.getD_none]
  exact standard_usable.normalize_eq_self

/-- The content of a settings file whose text is that of settings. -/
def Gives (given : Settings) (content? : Option Bytes) : Prop :=
  ∃ text, content? = some (Text.bytes text) ∧ ofText text = .ok given

theorem unreadable_or_gives (content? : Option Bytes) :
    Unreadable content? ∨ ∃ given, Gives given content? := by
  cases content? with
  | none => exact .inl .absent
  | some content =>
    by_cases isText : ∃ text, Text.bytes text = content
    · obtain ⟨text, rfl⟩ := isText
      cases read : ofText text with
      | error fault => exact .inl (.malformed read)
      | ok given => exact .inr ⟨given, text, rfl, read⟩
    · exact .inl (.notText fun text same => isText ⟨text, same⟩)

theorem Gives.load_eq {given : Settings} {content? : Option Bytes} (h : Gives given content?) :
    load content? = given.normalize := by
  obtain ⟨text, rfl, read⟩ := h
  rw [load, Option.bind_some, ofFile?, Text.ofBytes?_bytes, Option.bind_some, read]
  rfl

theorem resolve_eq (environment : Environment) (file? : String → Option Bytes) :
    ∃ start : Settings, start.Usable ∧
      resolve environment file? = (start.applyEnvironment environment).normalize := by
  rw [resolve]
  cases environment.lookup pathVariable with
  | none => exact ⟨standard, standard_usable, rfl⟩
  | some path => exact ⟨load (file? path), normalize_usable _, rfl⟩

/-- Resolved settings are in range and settled. They begin with all that the settings file gives, or
as if there were no such file. -/
theorem resolve_usable (environment : Environment) (file? : String → Option Bytes) :
    (resolve environment file?).Usable ∧
      (resolve environment file?).normalize = resolve environment file? ∧
      ((resolve environment file?).applyEnvironment environment).normalize =
        resolve environment file? ∧
      ∀ path, environment.lookup pathVariable = some path →
        (Unreadable (file? path) ∨ ∃ given, Gives given (file? path)) ∧
        (Unreadable (file? path) → resolve environment file? =
          resolve (environment.filter (·.1 != pathVariable)) file?) ∧
        ∀ given, Gives given (file? path) →
          resolve environment file? = (given.normalize.applyEnvironment environment).normalize := by
  obtain ⟨start, usable, same⟩ := resolve_eq environment file?
  have inRange : (resolve environment file?).Usable := by
    rw [same]
    exact normalize_usable _
  refine ⟨inRange, inRange.normalize_eq_self, ?_, ?_⟩
  · rw [same]
    exact usable.applyEnvironment_again environment
  · intro path named
    refine ⟨unreadable_or_gives _, ?_, ?_⟩
    · intro unreadable
      have unnamed : (environment.filter (·.1 != pathVariable)).lookup pathVariable = none := by
        rw [List.lookup_eq_none_iff]
        intro entry mem
        have other := (List.mem_filter.1 mem).2
        rw [bne_comm]
        exact other
      simp only [resolve, named, unnamed]
      rw [unreadable.load_eq, applyEnvironment_filter]
    · intro given gives
      simp only [resolve, named]
      rw [gives.load_eq]

theorem resolve_usable_notText :
    let environment (path : String) : Environment :=
      [("WHATS_SETTINGS_PATH", path), ("WHATS_DEVICE", " GPU ")]
    let file? : String → Option Bytes := fun path =>
      if path = "full.json" then
        some (Text.bytes "\x7b\"numWorkers\":99,\"modelsDir\":\"m\",\"device\":\"auto\"\x7d")
      else some [0xFF]
    let given : Settings := { standard with workers := 99, modelsPath := "m", device := "auto" }
    (environment "other.json").lookup pathVariable = some "other.json" ∧
      Unreadable (file? "other.json") ∧ (resolve (environment "other.json") file?).Usable ∧
      resolve (environment "other.json") file? = resolve [("WHATS_DEVICE", " GPU ")] file? ∧
      (environment "full.json").lookup pathVariable = some "full.json" ∧
      Gives given (file? "full.json") ∧
      resolve (environment "full.json") file? =
        { standard with workers := 64, modelsPath := "m", device := "cuda" } := by
  intro environment file? given
  have other (text : String) : Text.bytes text ≠ [0xFF] := by
    intro same
    have read := Text.ofBytes?_eq_some_iff.2 same
    have rejected : Text.ofBytes? [0xFF] = none := by decide
    rw [rejected] at read
    cases read
  have unreadable : Unreadable (file? "other.json") := .notText other
  have gives : Gives given (file? "full.json") := ⟨_, rfl, by decide +kernel⟩
  obtain ⟨usable, -, -, named⟩ := resolve_usable (environment "other.json") file?
  obtain ⟨-, -, -, full⟩ := resolve_usable (environment "full.json") file?
  refine ⟨rfl, unreadable, usable, (named "other.json" rfl).2.1 unreadable, rfl, gives, ?_⟩
  rw [(full "full.json" rfl).2.2 given gives]
  decide +kernel

end Server.Settings

namespace Text

def trimStart (text : String) : String := String.ofList (text.toList.dropWhile isBlank)

theorem trimStart_eq_empty_iff (text : String) : trimStart text = "" ↔ isBlankText text = true := by
  rw [trimStart, String.ofList_eq_empty_iff, List.dropWhile_eq_nil_iff, isBlankText,
    List.all_eq_true]

end Text

namespace Server.Settings

/-- What precedes the last colon of an address; nothing without a colon. -/
def hostOf (address : String) : String :=
  String.ofList (address.toList.rdropWhile (· != ':')).dropLast

/-- What an address with another port should be: its host stays, without the blanks in front, and
where nothing is left of it, all hosts are meant. -/
def portedAddress (address : String) (port : Nat) : String :=
  let host := Text.trimStart (hostOf address)
  (if host = "" then anyHost else host) ++ ":" ++ toString port

theorem hostOf_of_split {address host rest : String}
    (split : address.toList = host.toList ++ ':' :: rest.toList) (fresh : ':' ∉ rest.toList) :
    hostOf address = host := by
  have passed : ∀ c ∈ rest.toList.reverse, (c != ':') = true := by
    intro c mem
    refine bne_iff_ne.2 fun mark => fresh ?_
    exact mark ▸ List.mem_reverse.1 mem
  rw [hostOf, List.rdropWhile, split, List.reverse_append, List.reverse_cons, List.append_assoc,
    List.singleton_append, List.dropWhile_append_of_pos passed,
    List.dropWhile_cons_of_neg (by decide), List.reverse_cons, List.reverse_reverse,
    List.dropLast_concat, String.ofList_toList]

theorem hostOf_of_not_mem {address : String} (fresh : ':' ∉ address.toList) :
    hostOf address = "" := by
  have all : ∀ c ∈ address.toList, (c != ':') = true := by
    intro c mem
    exact bne_iff_ne.2 fun mark => fresh (mark ▸ mem)
  rw [hostOf, List.rdropWhile_eq_nil_iff.2 all]
  rfl

theorem hostOf_eq (address : String) :
    hostOf address = ((Text.splitAtLast? ':' address).map Prod.fst).getD "" := by
  cases cut : Text.splitAtLast? ':' address with
  | none => exact hostOf_of_not_mem (Text.splitAtLast?_eq_none_iff.1 cut)
  | some parts =>
    obtain ⟨split, fresh⟩ := Text.splitAtLast?_eq_some_iff.1 cut
    exact hostOf_of_split split fresh

theorem withPort_eq (address : String) (port : Nat) : withPort address port =
    (if hostOf address = "" then anyHost else hostOf address) ++ ":" ++ toString port := by
  rw [withPort, hostOf_eq]
  cases Text.splitAtLast? ':' address with
  | none => rfl
  | some parts =>
    simp only [Option.map_some, Option.getD_some, String.isEmpty_iff]

theorem hostOf_append {rest : String} (fresh : ':' ∉ rest.toList) (host : String) :
    hostOf (host ++ ":" ++ rest) = host :=
  hostOf_of_split (by simp) fresh

theorem hostOf_trim (address : String) :
    hostOf (Text.trim address) = Text.trimStart (hostOf address) := by
  have letters : (Text.trim address).toList = Text.trimList address.toList := String.toList_ofList
  cases cut : Text.splitAtLast? ':' address with
  | none =>
    have absent := Text.splitAtLast?_eq_none_iff.1 cut
    have fresh : ':' ∉ (Text.trim address).toList := by
      rw [letters]
      exact fun mem => absent (Text.mem_of_mem_trimList mem)
    rw [hostOf_of_not_mem fresh, hostOf_of_not_mem absent]
    rfl
  | some parts =>
    obtain ⟨split, fresh⟩ := Text.splitAtLast?_eq_some_iff.1 cut
    have again : (Text.trim address).toList = (Text.trimStart parts.1).toList ++
        ':' :: (String.ofList (Text.trimEnd parts.2.toList)).toList := by
      rw [letters, split, Text.trimList_append_cons (by decide), Text.trimStart,
        String.toList_ofList, String.toList_ofList]
    rw [hostOf_of_split split fresh]
    refine hostOf_of_split again ?_
    rw [String.toList_ofList]
    exact fun mem => fresh (Text.mem_of_mem_trimEnd mem)

theorem trimEnd_port (port : Nat) :
    Text.trimEnd (toString port).toList = (toString port).toList := by
  have digits := digits_of_port port
  rw [Text.trimEnd]
  cases backwards : (toString port).toList.reverse with
  | nil => rw [List.dropWhile_nil, ← backwards, List.reverse_reverse]
  | cons c rest =>
    have mem : c ∈ (toString port).toList := by
      rw [← List.mem_reverse, backwards]
      exact List.mem_cons_self
    have visible := Text.not_isBlank_of_isDigit (digits c mem)
    rw [List.dropWhile_cons_of_neg (by simp [visible]), ← backwards, List.reverse_reverse]

theorem tightAddress_append_port (host : String) (port : Nat) :
    tightAddress (host ++ ":" ++ toString port) = Text.trimStart host ++ ":" ++ toString port := by
  have letters : (host ++ ":" ++ toString port).toList =
      host.toList ++ ':' :: (toString port).toList := by simp
  have trimmed : Text.trim (host ++ ":" ++ toString port) =
      Text.trimStart host ++ ":" ++ toString port := by
    rw [← String.toList_inj, Text.trim, String.toList_ofList, letters,
      Text.trimList_append_cons (by decide), trimEnd_port]
    simp [Text.trimStart]
  have visible : Text.isBlankText (host ++ ":" ++ toString port) = false := by
    have colon : Text.isBlank ':' = false := by decide
    rw [Text.isBlankText, letters, List.all_append, List.all_cons, colon, Bool.false_and,
      Bool.and_false]
  rw [tightAddress, Text.trimmed?_eq_some_iff.2 ⟨visible, trimmed⟩, Option.getD_some]

theorem trimStart_anyHost : Text.trimStart anyHost = anyHost := by decide

theorem withPort_tightAddress (address : String) (port : Nat) :
    withPort (tightAddress address) port = portedAddress address port := by
  cases trimmed : Text.trimmed? address with
  | none =>
    have blank := (Text.trimmed?_eq_none_iff address).1 trimmed
    have absent : ':' ∉ address.toList := by
      intro mem
      have colon := List.all_eq_true.1 blank ':' mem
      exact absurd colon (by decide)
    have host : hostOf standard.listenAddress = anyHost := by decide
    rw [tightAddress, trimmed, Option.getD_none, withPort_eq, host, portedAddress,
      hostOf_of_not_mem absent]
    rfl
  | some rest =>
    obtain ⟨-, rfl⟩ := Text.trimmed?_eq_some_iff.1 trimmed
    rw [tightAddress, trimmed, Option.getD_some, withPort_eq, hostOf_trim, portedAddress]

def fileAddress (environment : Environment) (file? : String → Option Bytes) : String :=
  ((((environment.lookup pathVariable).bind file?).bind ofFile?).getD standard).listenAddress

def requestedAddress (environment : Environment) (file? : String → Option Bytes) : String :=
  (environment.lookup "WHATS_LISTEN_ADDR").getD (fileAddress environment file?)

theorem resolve_listenAddress (environment : Environment) (file? : String → Option Bytes) :
    (resolve environment file?).listenAddress =
      tightAddress (addressOf environment (tightAddress (fileAddress environment file?))) := by
  rw [resolve, fileAddress]
  cases environment.lookup pathVariable with
  | none =>
    have stays := tightAddress_of_tight standard_usable.listenAddress
    simp only [normalize_eq, applyEnvironment_eq, Option.bind_none, Option.getD_none, stays]
  | some path =>
    simp only [normalize_eq, applyEnvironment_eq, load, Option.bind_some]

/-- The address is one of the environment, and its host is blank but not empty. -/
def LosesHost (environment : Environment) : Prop :=
  ∃ address, environment.lookup "WHATS_LISTEN_ADDR" = some address ∧ hostOf address ≠ "" ∧
    Text.isBlankText (hostOf address) = true

theorem hostOf_append_port (host : String) (port : Nat) :
    hostOf (host ++ ":" ++ toString port) = host := by
  refine hostOf_append ?_ host
  intro mem
  exact absurd (digits_of_port port ':' mem) (by decide)

theorem hostOf_portedAddress_ne (address : String) (port : Nat) :
    hostOf (portedAddress address port) ≠ "" := by
  rw [portedAddress, hostOf_append_port]
  split
  · decide
  · assumption

theorem tightAddress_portedAddress (address : String) (port : Nat) :
    tightAddress (portedAddress address port) = portedAddress address port := by
  have again (text : String) : Text.trimStart (Text.trimStart text) = Text.trimStart text := by
    rw [Text.trimStart, Text.trimStart, String.toList_ofList, List.dropWhile_idempotent]
  rw [portedAddress, tightAddress_append_port]
  split
  · rw [trimStart_anyHost]
  · rw [again]

/-- An address of the environment is trimmed after it is cut, so its host may get lost then. -/
theorem tightAddress_withPort (address : String) (port : Nat) :
    tightAddress (withPort address port) =
      if hostOf address ≠ "" ∧ Text.isBlankText (hostOf address) = true then ":" ++ toString port
      else portedAddress address port := by
  simp only [withPort_eq, tightAddress_append_port, ← Text.trimStart_eq_empty_iff, portedAddress]
  by_cases none? : hostOf address = ""
  · have nothing : Text.trimStart "" = "" := rfl
    simp only [none?, nothing, trimStart_anyHost, ne_eq, not_true, false_and, if_true, if_false]
  · by_cases blank : Text.trimStart (hostOf address) = ""
    · simp only [none?, blank, ne_eq, not_false_eq_true, and_self, if_true, if_false]
      rfl
    · simp only [none?, blank, and_false, if_false]

/-- With a port given, the address that is listened on is that address with this port, unless it is
one of the environment with a host of blanks; that host is lost, and no other address loses its
host. -/
theorem resolve_withPort (environment : Environment) (file? : String → Option Bytes) {port : Nat}
    (given : value? environment "GRPC_PORT" (number? (UInt16.size - 1)) = some port) :
    let resolved := (resolve environment file?).listenAddress
    (resolved = portedAddress (requestedAddress environment file?) port ↔
        ¬LosesHost environment) ∧
      (LosesHost environment → resolved = ":" ++ toString port) ∧
      (hostOf resolved = "" ↔ LosesHost environment) := by
  intro resolved
  have lost : hostOf (":" ++ toString port) = "" := hostOf_append_port "" port
  have promised := hostOf_portedAddress_ne (requestedAddress environment file?) port
  obtain ⟨kept, without⟩ :
      (¬LosesHost environment →
        resolved = portedAddress (requestedAddress environment file?) port) ∧
      (LosesHost environment → resolved = ":" ++ toString port) := by
    have whole : resolved = tightAddress (withPort ((environment.lookup "WHATS_LISTEN_ADDR").getD
        (tightAddress (fileAddress environment file?))) port) := by
      have asked : value? environment "WHATS_LISTEN_ADDR" some =
          environment.lookup "WHATS_LISTEN_ADDR" := Option.bind_fun_some _
      simp only [resolved, resolve_listenAddress, addressOf, given, asked, Option.map_some,
        Option.getD_some]
    cases set : environment.lookup "WHATS_LISTEN_ADDR" with
    | none =>
      have unset : ¬LosesHost environment := by
        rintro ⟨address, found, -⟩
        rw [set] at found
        cases found
      rw [whole, set, requestedAddress, set, Option.getD_none, Option.getD_none,
        withPort_tightAddress, tightAddress_portedAddress]
      exact ⟨fun _ => rfl, fun loses => absurd loses unset⟩
    | some address =>
      have loses : LosesHost environment ↔
          hostOf address ≠ "" ∧ Text.isBlankText (hostOf address) = true := by
        simp only [LosesHost, set, Option.some.injEq, exists_eq_left']
      rw [whole, set, requestedAddress, set, Option.getD_some, Option.getD_some,
        tightAddress_withPort, loses]
      exact ⟨fun named => if_neg named, fun blank => if_pos blank⟩
  refine ⟨⟨?_, kept⟩, without, ⟨?_, ?_⟩⟩
  · intro same loses
    rw [← same, without loses] at promised
    exact promised lost
  · intro none?
    by_contra named
    rw [kept named] at none?
    exact promised none?
  · intro loses
    rw [without loses, lost]

theorem resolve_withPort_settingsFile :
    let environment : Environment :=
      [("WHATS_SETTINGS_PATH", "settings.json"), ("GRPC_PORT", " +7")]
    let file? : String → Option Bytes :=
      fun _ => some (Text.bytes "\x7b\"listenAddr\": \"\\t[::1]:80 \"\x7d")
    value? environment "GRPC_PORT" (number? (UInt16.size - 1)) = some 7 ∧
      requestedAddress environment file? = "\t[::1]:80 " ∧ ¬LosesHost environment ∧
      (resolve environment file?).listenAddress = "[::1]:7" := by
  intro environment file?
  have given : value? environment "GRPC_PORT" (number? (UInt16.size - 1)) = some 7 := by decide
  have asked : requestedAddress environment file? = "\t[::1]:80 " := by decide +kernel
  have kept : ¬LosesHost environment := by
    rintro ⟨address, found, -⟩
    cases found
  obtain ⟨same, -, -⟩ := resolve_withPort environment file? given
  refine ⟨given, asked, kept, ?_⟩
  rw [same.2 kept, asked]
  decide

/-- A blank host of an address of the environment is lost; the same address of a settings file gets
all hosts in place of it. -/
theorem resolve_blankHost :
    let environment : Environment := [("WHATS_LISTEN_ADDR", "  :9000"), ("GRPC_PORT", "7")]
    let fromFile : Environment := [("WHATS_SETTINGS_PATH", "settings.json"), ("GRPC_PORT", "7")]
    let file? : String → Option Bytes :=
      fun _ => some (Text.bytes "\x7b\"listenAddr\": \"  :9000\"\x7d")
    requestedAddress environment file? = "  :9000" ∧
      requestedAddress fromFile file? = "  :9000" ∧
      portedAddress "  :9000" 7 = "0.0.0.0:7" ∧
      (resolve environment file?).listenAddress = ":7" ∧
      (resolve fromFile file?).listenAddress = "0.0.0.0:7" := by
  decide +kernel

end Server.Settings

end SpeechService
