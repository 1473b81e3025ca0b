import SpeechService.Proofs.Language
import SpeechService.Proofs.Wire.Messages

/-!
What a line with a request means. A document with one object is a request where its member `type`
names a kind and each member that names a field of this kind `Holds` a value of the type of the
field; a field without a member has its default, and all other members mean nothing. Members that
are in another order, or stand among further ones of other names, give a field the same.
-/

set_option autoImplicit false

namespace SpeechService

theorem Json.ValueForm.word32?_eq_some_iff {depth : Nat} {text : List Char} {value : Value}
    (form : ValueForm depth text value) {content : UInt32} :
    value.word32? = some content ↔
      Digits text ∧ Nat.ofDigitChars 10 text 0 = content.toNat := by
  have bound : UInt32.size - 1 ≤ greatestWord := by decide
  constructor
  · intro h
    obtain ⟨natural, taken, rfl⟩ := Option.map_eq_some_iff.1 h
    cases value with
    | number number =>
      obtain ⟨digits, spelled, inRange⟩ := form.number
      obtain ⟨digits, same, small⟩ := (spelled.natural?_eq_some_iff inRange bound).1 taken
      have fits : natural < UInt32.size := Nat.lt_of_le_pred (by decide) small
      have word : (UInt32.ofNat natural).toNat = natural := UInt32.toNat_ofNat_of_lt fits
      exact ⟨digits, same.trans word.symm⟩
    | _ => cases taken
  · rintro ⟨digits, same⟩
    obtain ⟨number, rfl⟩ := form.of_digits digits
    obtain ⟨written, spelled, inRange⟩ := form.number
    have small : content.toNat ≤ UInt32.size - 1 := Nat.le_pred_of_lt content.toNat_lt
    have taken := (spelled.natural?_eq_some_iff inRange bound).2 ⟨digits, same, small⟩
    rw [Value.word32?, Value.natural?, taken, Option.map_some, UInt32.ofNat_toNat]

namespace Wire

inductive FieldType where
  | bytes
  | word
  | text
  | optionalText
  | number

namespace FieldType

abbrev Content : FieldType → Type
  | .bytes => Bytes
  | .word => UInt32
  | .text => String
  | .optionalText => Option String
  | .number => Float32

/-- The value of a member is of a type, and stands for this content. A word is written in digits
alone, without a sign, a fraction or an exponent. -/
def Holds (member : Json.Member) : (type : FieldType) → type.Content → Prop
  | .bytes, content =>
    ∃ text, member.value = .text text ∧ Text.trimList text.toList = Base64.encode content
  | .word, content =>
    Json.Digits member.text ∧ Nat.ofDigitChars 10 member.text 0 = content.toNat
  | .text, content => member.value = .text content
  | .optionalText, content => member.value = content.elim .null .text
  | .number, content => ∃ number, member.value = .number number ∧ number.toSingle = content

def take : (type : FieldType) → Json.Value → Option type.Content
  | .bytes => bytes?
  | .word => Json.Value.word32?
  | .text => Json.Value.text?
  | .optionalText => Json.Value.optionalText?
  | .number => Json.Value.single?

theorem take_eq_some_iff {depth : Nat} {member : Json.Member}
    (form : Json.ValueForm depth member.text member.value) (type : FieldType)
    {content : type.Content} :
    type.take member.value = some content ↔ type.Holds member content := by
  cases type with
  | bytes =>
    constructor
    · intro h
      obtain ⟨text, value, read⟩ := Option.bind_eq_some_iff.1 h
      have same := Json.Value.text?_eq_some_iff.1 value
      exact ⟨text, same, Base64.ofText?_eq_some_iff.1 read⟩
    · rintro ⟨text, value, trimmed⟩
      have read := Base64.ofText?_eq_some_iff.2 trimmed
      exact Option.bind_eq_some_iff.2 ⟨text, Json.Value.text?_eq_some_iff.2 value, read⟩
  | word => exact form.word32?_eq_some_iff
  | text => exact Json.Value.text?_eq_some_iff
  | optionalText =>
    rw [take, Holds]
    cases content with
    | none => cases member.value <;> simp [Json.Value.optionalText?]
    | some text => cases member.value <;> simp [Json.Value.optionalText?]
  | number =>
    rw [take, Holds]
    cases member.value <;> simp [Json.Value.single?]

end FieldType

/-- The content of a field: what the member of its name stands for, or else its default. -/
inductive Gives (members : List Json.Member) (name : String) (type : FieldType)
    (default : type.Content) : type.Content → Prop
  | given {member : Json.Member} {content : type.Content} (mem : member ∈ members)
      (named : member.name = name) (holds : type.Holds member content) :
      Gives members name type default content
  | absent (none : ∀ member ∈ members, member.name ≠ name) :
      Gives members name type default default

structure Field (Message : Type) where
  name : String
  type : FieldType
  get : Message → type.Content

/-- A field of a message has what the members give it; its default is that of the blank message. -/
def Field.Given {Message : Type} (field : Field Message) (members : List Json.Member)
    (blank message : Message) : Prop :=
  Gives members field.name field.type (field.get blank) (field.get message)

/-- If a member names a field, its value is of the type of the field. -/
def Fits {Message : Type} (fields : List (Field Message)) (member : Json.Member) : Prop :=
  ∀ field ∈ fields, field.name = member.name → ∃ content, field.type.Holds member content

section Members

variable {members : List Json.Member} (distinct : (members.map Json.Member.name).Nodup)

include distinct in
theorem exists_gives_iff {name : String} {type : FieldType} {default : type.Content} :
    (∃ content, Gives members name type default content) ↔
      ∀ member ∈ members, name = member.name → ∃ content, type.Holds member content := by
  constructor
  · rintro ⟨_, given⟩ member mem named
    cases given with
    | @given other _ among same holds =>
      have one : other = member :=
        List.inj_on_of_nodup_map distinct among mem (same.trans named)
      exact ⟨_, one ▸ holds⟩
    | absent none => exact absurd named.symm (none member mem)
  · intro fits
    by_cases named : ∃ member ∈ members, name = member.name
    · obtain ⟨member, mem, named⟩ := named
      obtain ⟨content, holds⟩ := fits member mem named
      exact ⟨content, .given mem named.symm holds⟩
    · refine ⟨default, .absent ?_⟩
      intro member mem same
      exact named ⟨member, mem, same.symm⟩

include distinct in
theorem fit_of_given {Message : Type} {fields : List (Field Message)} {blank message : Message}
    (given : ∀ field ∈ fields, field.Given members blank message) :
    ∀ member ∈ members, Fits fields member := by
  intro member mem field among named
  exact (exists_gives_iff distinct).1 ⟨_, given field among⟩ member mem named

include distinct in
theorem exists_gives_of_fit {Message : Type} {fields : List (Field Message)}
    (fit : ∀ member ∈ members, Fits fields member) (blank : Message) :
    ∀ field ∈ fields, ∃ content,
      Gives members field.name field.type (field.get blank) content := by
  intro field among
  apply (exists_gives_iff distinct).2
  intro member mem named
  exact fit member mem field among named

theorem Gives.of_same {others : List Json.Member} {name : String} {type : FieldType}
    {default content : type.Content} (given : Gives members name type default content)
    (same : ∀ member : Json.Member, member.name = name → (member ∈ others ↔ member ∈ members)) :
    Gives others name type default content := by
  cases given with
  | given mem named holds => exact .given ((same _ named).2 mem) named holds
  | absent none =>
    refine .absent ?_
    intro member mem named
    exact none member ((same member named).1 mem) named

theorem Gives.congr {others : List Json.Member} {name : String} {type : FieldType}
    {default content : type.Content}
    (same : ∀ member : Json.Member, member.name = name → (member ∈ others ↔ member ∈ members)) :
    Gives others name type default content ↔ Gives members name type default content := by
  constructor
  · intro given
    exact given.of_same fun member named => (same member named).symm
  · intro given
    exact given.of_same same

variable {others extra : List Json.Member} (perm : others.Perm (members ++ extra))

include perm in
theorem mem_iff_of_perm {name : String} (apart : ∀ member ∈ extra, member.name ≠ name)
    (member : Json.Member) (named : member.name = name) : member ∈ others ↔ member ∈ members := by
  rw [perm.mem_iff, List.mem_append]
  constructor
  · intro mem
    rcases mem with mem | further
    · exact mem
    · exact absurd named (apart member further)
  · exact .inl

include perm in
theorem given_iff_of_perm {Message : Type} {fields : List (Field Message)}
    (apart : ∀ member ∈ extra, ∀ field ∈ fields, field.name ≠ member.name)
    {blank message : Message} :
    (∀ field ∈ fields, field.Given others blank message) ↔
      ∀ field ∈ fields, field.Given members blank message := by
  refine forall₂_congr ?_
  intro field among
  apply Gives.congr
  apply mem_iff_of_perm perm
  intro member mem same
  exact apart member mem field among same.symm

structure Besides (members : List Json.Member) (content : Json.Members) : Prop where
  distinct : (content.map Prod.fst).Nodup
  mem_iff : ∀ {name value}, name ≠ Json.kindName →
    ((name, value) ∈ content ↔ ∃ member ∈ members, member.name = name ∧ member.value = value)

include distinct in
theorem besides_of_split {before after : Json.Members} {kind : Json.Value}
    (split : members.map Json.Member.entry = before ++ (Json.kindName, kind) :: after) :
    Besides members (before ++ after) where
  distinct := by
    have names : (members.map Json.Member.entry).map Prod.fst = members.map Json.Member.name :=
      List.map_map ..
    rw [← names, split, List.map_append, List.map_cons, List.nodup_middle, List.nodup_cons,
      ← List.map_append] at distinct
    exact distinct.2
  mem_iff {name value} other := by
    have apart : (name, value) ≠ (Json.kindName, kind) := by
      intro same
      cases same
      exact other rfl
    rw [← Json.mem_entries_iff, split, List.mem_append, List.mem_append, List.mem_cons]
    simp only [apart, false_or]

variable {depth : Nat} {content : Json.Members} (besides : Besides members content)
  (forms : ∀ member ∈ members, Json.ValueForm depth member.text member.value)

include distinct besides forms in
/-- A field is taken from the members besides the kind as they give it. -/
theorem field?_eq_some_iff {names : List String} {name : String} (among : name ∈ names)
    (other : name ≠ Json.kindName) {type : FieldType} {default taken : type.Content} :
    Json.Members.field? (content.filter fun field => names.contains field.1) name type.take
        default = some taken ↔ Gives members name type default taken := by
  have lookup {value : Json.Value} :
      (content.filter fun field => names.contains field.1).lookup name = some value ↔
        ∃ member ∈ members, member.name = name ∧ member.value = value := by
    have named : names.contains name = true := List.contains_iff_mem.2 among
    rw [lookup_eq_some_iff_mem (besides.distinct.sublist (List.filter_sublist.map Prod.fst)),
      List.mem_filter, besides.mem_iff other]
    simp only [named, and_true]
  rw [Json.Members.field?]
  split
  · rename_i nothing
    have absent : ∀ member ∈ members, member.name ≠ name := by
      intro member mem named
      have found := lookup.2 ⟨member, mem, named, rfl⟩
      rw [nothing] at found
      cases found
    constructor
    · intro same
      cases same
      exact .absent absent
    · intro given
      cases given with
      | given mem named => exact absurd named (absent _ mem)
      | absent => rfl
  · rename_i value found
    obtain ⟨member, mem, named, rfl⟩ := lookup.1 found
    rw [type.take_eq_some_iff (forms member mem)]
    constructor
    · exact .given mem named
    · intro given
      cases given with
      | @given again _ also called holds =>
        -- a word is held by the text of a member, so equal values are not enough here
        have one : again = member :=
          List.inj_on_of_nodup_map distinct also mem (called.trans named.symm)
        exact one ▸ holds
      | absent none => exact absurd named (none member mem)

include distinct besides forms in
theorem forall_given_iff {Message : Type} {fields : List (Field Message)} {names : List String}
    (named : fields.map Field.name = names) (other : Json.kindName ∉ names)
    {blank message : Message} :
    (∀ field ∈ fields, Json.Members.field? (content.filter fun field => names.contains field.1)
        field.name field.type.take (field.get blank) = some (field.get message)) ↔
      ∀ field ∈ fields, field.Given members blank message := by
  have each (field : Field Message) (mem : field ∈ fields) :
      Json.Members.field? (content.filter fun field => names.contains field.1) field.name
          field.type.take (field.get blank) = some (field.get message) ↔
        field.Given members blank message := by
    have among : field.name ∈ names := named ▸ List.mem_map_of_mem mem
    have apart : field.name ≠ Json.kindName := fun same => other (same ▸ among)
    exact field?_eq_some_iff distinct besides forms among apart
  constructor
  · intro taken field mem
    exact (each field mem).1 (taken field mem)
  · intro given field mem
    exact (each field mem).2 (given field mem)

end Members

end Wire

end SpeechService

namespace SpeechService.Wire

def TranscribeMessage.fields : List (Field TranscribeMessage) :=
  [⟨"audio", .bytes, audio⟩, ⟨"sampleRate", .word, sampleRate⟩,
   ⟨"languageHint", .optionalText, languageHint⟩, ⟨"task", .text, task⟩,
   ⟨"targetLanguage", .optionalText, targetLanguage⟩, ⟨"sessionId", .text, sessionId⟩,
   ⟨"actionId", .text, actionId⟩]

def SynthesizeMessage.fields : List (Field SynthesizeMessage) :=
  [⟨"text", .text, text⟩, ⟨"voice", .text, voice⟩, ⟨"speed", .number, speed⟩,
   ⟨"language", .text, language⟩, ⟨"sessionId", .text, sessionId⟩, ⟨"actionId", .text, actionId⟩]

def HasKind (members : List Json.Member) (kind : String) : Prop :=
  ∃ member ∈ members, member.name = "type" ∧ member.value = .text kind

/-- The request that members make up. -/
inductive Means (members : List Json.Member) : Request → Prop
  | transcribe {message : TranscribeMessage} (kind : HasKind members "transcribe")
      (given : ∀ field ∈ TranscribeMessage.fields, field.Given members {} message) :
      Means members (.transcribe message)
  | synthesize {message : SynthesizeMessage} (kind : HasKind members "synthesize")
      (given : ∀ field ∈ SynthesizeMessage.fields, field.Given members {} message) :
      Means members (.synthesize message)
  | status (kind : HasKind members "status") : Means members .status

/-- Members of a request: its kind is known, and what names a field of this kind has its type. -/
inductive Acceptable (members : List Json.Member) : Prop
  | transcribe (kind : HasKind members "transcribe")
      (fit : ∀ member ∈ members, Fits TranscribeMessage.fields member)
  | synthesize (kind : HasKind members "synthesize")
      (fit : ∀ member ∈ members, Fits SynthesizeMessage.fields member)
  | status (kind : HasKind members "status")

/-- A member that neither is the kind nor names a field of it. -/
structure Meaningless (members : List Json.Member) (member : Json.Member) : Prop where
  notKind : member.name ≠ "type"
  notTranscribe : HasKind members "transcribe" →
    ∀ field ∈ TranscribeMessage.fields, field.name ≠ member.name
  notSynthesize : HasKind members "synthesize" →
    ∀ field ∈ SynthesizeMessage.fields, field.name ≠ member.name

section Members

variable {members : List Json.Member} (distinct : (members.map Json.Member.name).Nodup)

theorem HasKind.congr {others : List Json.Member}
    (same : ∀ member : Json.Member, member.name = "type" → (member ∈ others ↔ member ∈ members))
    {kind : String} : HasKind others kind ↔ HasKind members kind := by
  constructor
  · rintro ⟨member, mem, named, value⟩
    exact ⟨member, (same member named).1 mem, named, value⟩
  · rintro ⟨member, mem, named, value⟩
    exact ⟨member, (same member named).2 mem, named, value⟩

include distinct in
theorem HasKind.unique {kind other : String} (h : HasKind members kind)
    (others : HasKind members other) : kind = other := by
  obtain ⟨member, mem, named, value⟩ := h
  obtain ⟨again, among, called, content⟩ := others
  have one : member = again :=
    List.inj_on_of_nodup_map distinct mem among (named.trans called.symm)
  rw [one, content] at value
  cases value
  rfl

include distinct in
theorem TranscribeMessage.exists_given (fit : ∀ member ∈ members, Fits fields member) :
    ∃ message, ∀ field ∈ fields, field.Given members {} message := by
  have each := exists_gives_of_fit distinct fit {}
  simp only [fields, List.forall_mem_cons] at each
  obtain ⟨⟨audio, audioGiven⟩, ⟨rate, rateGiven⟩, ⟨hint, hintGiven⟩, ⟨task, taskGiven⟩,
    ⟨target, targetGiven⟩, ⟨session, sessionGiven⟩, ⟨action, actionGiven⟩, -⟩ := each
  refine ⟨⟨audio, rate, hint, task, target, session, action⟩, ?_⟩
  simp only [fields, List.forall_mem_cons]
  exact ⟨audioGiven, rateGiven, hintGiven, taskGiven, targetGiven, sessionGiven, actionGiven,
    List.forall_mem_nil _⟩

include distinct in
theorem SynthesizeMessage.exists_given (fit : ∀ member ∈ members, Fits fields member) :
    ∃ message, ∀ field ∈ fields, field.Given members {} message := by
  have each := exists_gives_of_fit distinct fit {}
  simp only [fields, List.forall_mem_cons] at each
  obtain ⟨⟨text, textGiven⟩, ⟨voice, voiceGiven⟩, ⟨speed, speedGiven⟩,
    ⟨language, languageGiven⟩, ⟨session, sessionGiven⟩, ⟨action, actionGiven⟩, -⟩ := each
  refine ⟨⟨text, voice, speed, language, session, action⟩, ?_⟩
  simp only [fields, List.forall_mem_cons]
  exact ⟨textGiven, voiceGiven, speedGiven, languageGiven, sessionGiven, actionGiven,
    List.forall_mem_nil _⟩

include distinct in
theorem exists_means_iff : (∃ request, Means members request) ↔ Acceptable members := by
  constructor
  · rintro ⟨request, means⟩
    cases means with
    | transcribe kind given => exact .transcribe kind (fit_of_given distinct given)
    | synthesize kind given => exact .synthesize kind (fit_of_given distinct given)
    | status kind => exact .status kind
  · intro acceptable
    cases acceptable with
    | transcribe kind fit =>
      obtain ⟨message, given⟩ := TranscribeMessage.exists_given distinct fit
      exact ⟨.transcribe message, .transcribe kind given⟩
    | synthesize kind fit =>
      obtain ⟨message, given⟩ := SynthesizeMessage.exists_given distinct fit
      exact ⟨.synthesize message, .synthesize kind given⟩
    | status kind => exact ⟨.status, .status kind⟩

section Order

variable {others extra : List Json.Member} (perm : others.Perm (members ++ extra))

include perm in
theorem means_iff_of_perm (meaningless : ∀ member ∈ extra, Meaningless members member)
    {request : Request} : Means others request ↔ Means members request := by
  have hasKind {kind : String} : HasKind others kind ↔ HasKind members kind := by
    apply HasKind.congr
    apply mem_iff_of_perm perm
    intro member mem
    exact (meaningless member mem).notKind
  have transcribe (kind : HasKind members "transcribe") {message : TranscribeMessage} :=
    @given_iff_of_perm _ _ _ perm _ TranscribeMessage.fields
      (fun member mem => (meaningless member mem).notTranscribe kind) {} message
  have synthesize (kind : HasKind members "synthesize") {message : SynthesizeMessage} :=
    @given_iff_of_perm _ _ _ perm _ SynthesizeMessage.fields
      (fun member mem => (meaningless member mem).notSynthesize kind) {} message
  constructor
  · intro means
    cases means with
    | transcribe kind given =>
      exact .transcribe (hasKind.1 kind) ((transcribe (hasKind.1 kind)).1 given)
    | synthesize kind given =>
      exact .synthesize (hasKind.1 kind) ((synthesize (hasKind.1 kind)).1 given)
    | status kind => exact .status (hasKind.1 kind)
  · intro means
    cases means with
    | transcribe kind given => exact .transcribe (hasKind.2 kind) ((transcribe kind).2 given)
    | synthesize kind given => exact .synthesize (hasKind.2 kind) ((synthesize kind).2 given)
    | status kind => exact .status (hasKind.2 kind)

end Order

variable {depth : Nat} {content : Json.Members} (besides : Besides members content)
  (forms : ∀ member ∈ members, Json.ValueForm depth member.text member.value)

include distinct besides forms in
theorem TranscribeMessage.ofValue?_eq_some_iff {message : TranscribeMessage} :
    ofValue? (.object content) = some message ↔
      ∀ field ∈ fields, field.Given members {} message := by
  have named : fields.map Field.name = names := rfl
  rw [← forall_given_iff distinct besides forms named (by decide), ofValue?,
    Json.Value.members?_of_nodup besides.distinct]
  simp only [Option.bind_eq_bind, Option.bind_some, Option.bind_eq_some_iff, fields,
    List.forall_mem_cons]
  constructor
  · rintro ⟨_, audio, _, rate, _, hint, _, task, _, target, _, session, _, action, ⟨⟩⟩
    exact ⟨audio, rate, hint, task, target, session, action, List.forall_mem_nil _⟩
  · rintro ⟨audio, rate, hint, task, target, session, action, -⟩
    exact ⟨_, audio, _, rate, _, hint, _, task, _, target, _, session, _, action, rfl⟩

include distinct besides forms in
theorem SynthesizeMessage.ofValue?_eq_some_iff {message : SynthesizeMessage} :
    ofValue? (.object content) = some message ↔
      ∀ field ∈ fields, field.Given members {} message := by
  have named : fields.map Field.name = names := rfl
  rw [← forall_given_iff distinct besides forms named (by decide), ofValue?,
    Json.Value.members?_of_nodup besides.distinct]
  simp only [Option.bind_eq_bind, Option.bind_some, Option.bind_eq_some_iff, fields,
    List.forall_mem_cons]
  constructor
  · rintro ⟨_, text, _, voice, _, speed, _, language, _, session, _, action, ⟨⟩⟩
    exact ⟨text, voice, speed, language, session, action, List.forall_mem_nil _⟩
  · rintro ⟨text, voice, speed, language, session, action, -⟩
    exact ⟨_, text, _, voice, _, speed, _, language, _, session, _, action, rfl⟩

include distinct besides forms in
theorem Request.ofContent?_eq_some_iff {kind : String} (known : kind ∈ kinds)
    (hasKind : HasKind members kind) {request : Request} :
    ofContent? kind (.object content) = some request ↔ Means members request := by
  have only {other : String} (another : HasKind members other) : kind = other :=
    hasKind.unique distinct another
  simp only [kinds, List.mem_cons, List.not_mem_nil, or_false] at known
  rcases known with rfl | rfl | rfl
  · rw [ofContent?, if_pos rfl, Option.map_eq_some_iff]
    simp only [TranscribeMessage.ofValue?_eq_some_iff distinct besides forms]
    constructor
    · rintro ⟨message, given, rfl⟩
      exact .transcribe hasKind given
    · intro means
      cases means with
      | transcribe _ given => exact ⟨_, given, rfl⟩
      | synthesize another => exact absurd (only another) (by decide)
      | status another => exact absurd (only another) (by decide)
  · rw [ofContent?, if_neg (by decide), if_pos rfl, Option.map_eq_some_iff]
    simp only [SynthesizeMessage.ofValue?_eq_some_iff distinct besides forms]
    constructor
    · rintro ⟨message, given, rfl⟩
      exact .synthesize hasKind given
    · intro means
      cases means with
      | transcribe another => exact absurd (only another) (by decide)
      | synthesize _ given => exact ⟨_, given, rfl⟩
      | status another => exact absurd (only another) (by decide)
  · rw [ofContent?, if_neg (by decide), if_neg (by decide), Option.map_eq_some_iff]
    simp only [Json.Value.members?_of_nodup besides.distinct]
    constructor
    · rintro ⟨_, -, rfl⟩
      exact .status hasKind
    · intro means
      cases means with
      | transcribe another => exact absurd (only another) (by decide)
      | synthesize another => exact absurd (only another) (by decide)
      | status => exact ⟨_, rfl, rfl⟩

theorem Means.hasKind {request : Request} (h : Means members request) :
    ∃ kind ∈ Request.kinds, HasKind members kind := by
  cases h with
  | transcribe kind => exact ⟨_, by decide, kind⟩
  | synthesize kind => exact ⟨_, by decide, kind⟩
  | status kind => exact ⟨_, by decide, kind⟩

end Members

section Documents

theorem Request.ofText_of_readTagged {text : String} {space : List Char}
    {outcome : Except Json.Fault (String × Json.Value)} (blank : Json.Space space)
    (read : Json.readTagged kinds text.toList = outcome.map (·, space)) :
    ofText text = outcome.bind fun message =>
      (ofContent? message.1 message.2).elim (.error .mismatched) .ok := by
  have closed : Json.skipSpace space = [] := by
    have nothing := blank.skipSpace []
    rw [List.append_nil] at nothing
    exact nothing
  rw [ofText, Json.readDocument, Request.read, read]
  cases outcome with
  | error fault => rfl
  | ok message =>
    simp only [Except.map, Bind.bind, Except.bind]
    cases ofContent? message.1 message.2 with
    | none => rfl
    | some request =>
      simp only [closed]
      rfl

variable {text : String} {members : List Json.Member} (document : Json.ObjectDocument text members)
  (distinct : (members.map Json.Member.name).Nodup)

include document distinct in
/-- A document is read as the request that its members mean, and is refused where they mean none. -/
theorem Request.exists_ofText_eq :
    ∃ meant : Option Request, ofText text = meant.elim (.error .mismatched) .ok ∧
      ∀ request, meant = some request ↔ Means members request := by
  obtain ⟨outcome, space, tagged, blank, read⟩ :=
    @Json.ObjectDocument.readTagged kinds _ _ document distinct
  have whole := ofText_of_readTagged blank read
  cases tagged with
  | @known before after kind split known others =>
    have hasKind : HasKind members kind :=
      Json.mem_entries_iff.1 (split ▸ List.mem_append_right before List.mem_cons_self)
    refine ⟨_, whole, ?_⟩
    intro request
    exact ofContent?_eq_some_iff distinct (besides_of_split distinct split) document.valueForm
      known hasKind
  | refused unknown =>
    refine ⟨none, whole, ?_⟩
    intro request
    constructor
    · nofun
    · intro means
      obtain ⟨kind, known, hasKind⟩ := means.hasKind
      exact absurd (Json.mem_entries_iff.2 hasKind) (unknown kind known)

/-- A document with members of distinct names is the request that its members mean, and is accepted
where each of them fits. Neither their order matters nor what else stands between them. -/
theorem Request.ofText_document (document : Json.ObjectDocument text members)
    (distinct : (members.map Json.Member.name).Nodup) :
    (∀ request, ofText text = .ok request ↔ Means members request) ∧
      ((∃ request, ofText text = .ok request) ↔ Acceptable members) ∧
      ∀ {other : String} {others extra : List Json.Member}, Json.ObjectDocument other others →
        (others.map Json.Member.name).Nodup → others.Perm (members ++ extra) →
        (∀ member ∈ extra, Meaningless members member) → ofText other = ofText text := by
  obtain ⟨meant, read, means⟩ := exists_ofText_eq document distinct
  have accepted (request : Request) : ofText text = .ok request ↔ Means members request := by
    rw [read, ← means]
    cases meant with
    | none => exact ⟨nofun, nofun⟩
    | some result => rw [Option.elim_some, Except.ok.injEq, Option.some.injEq]
  refine ⟨accepted, ?_, ?_⟩
  · simp only [accepted]
    exact exists_means_iff distinct
  · intro other others extra another names perm meaningless
    obtain ⟨otherMeant, readOther, otherMeans⟩ := exists_ofText_eq another names
    have same : otherMeant = meant := by
      apply Option.ext
      intro request
      rw [otherMeans, means, means_iff_of_perm perm meaningless]
    rw [readOther, read, same]

end Documents

def lateKind : List Json.Member :=
  [⟨"sampleRate", ['1', '6', '0', '0', '0'], .number (.natural 16000)⟩,
   ⟨"languageHint", Json.Written.null, .null⟩,
   ⟨"audio", Json.Written.text " AAE=\n", .text " AAE=\n"⟩,
   ⟨"type", Json.Written.text "transcribe", .text "transcribe"⟩]

def lateKindText : String :=
  " \x7b\"sampleRate\" : 16000,\"languageHint\":null," ++
    "\"audio\":\" AAE=\\n\",\"type\":\"transcribe\"\x7d"

def strangeMember : Json.Member := ⟨"voice", ['[', 'n', 'u', 'l', 'l', ']'], .list [.null]⟩

/-- The request of `lateKindText` with its members in reverse and a strange one in front. -/
def earlyKindText : String :=
  "\x7b\"voice\":[null],\"type\":\"transcribe\",\"audio\":\" AAE=\\n\"," ++
    "\"languageHint\":null,\"sampleRate\":16000\x7d"

theorem lateKind_documents : Json.ObjectDocument lateKindText lateKind ∧
    Json.ObjectDocument earlyKindText (strangeMember :: lateKind.reverse) := by
  have none := Json.space_nil
  have blank : Json.Space [' '] := by
    intro c mem
    cases List.mem_singleton.1 mem
    decide
  have digits : Json.Digits ['1', '6', '0', '0', '0'] :=
    ⟨by decide, List.all_eq_true.1 (by decide)⟩
  have rate : Json.ScalarForm ['1', '6', '0', '0', '0'] (.number (.natural 16000)) :=
    .number (@Json.NumberForm.mk _ [] [] false _ _ digits (by decide) .none .none) rfl
  have audio := Json.ScalarForm.text (Json.textForm_text " AAE=\n")
  have kind := Json.ScalarForm.text (Json.textForm_text "transcribe")
  have nulls : Json.ListForm (Json.ValueForm 125) ['[', 'n', 'u', 'l', 'l', ']'] [.null] :=
    @Json.ListForm.mk _ ['n', 'u', 'l', 'l'] _ _ (.cons (.inl .null) .nil) (.cons none (.nil none))
  have named {before after : List Char} (space : Json.Space before) (lead : Json.Space after)
      {member : Json.Member} (form : Json.ValueForm 126 member.text member.value) :=
    Json.MemberForm.mk (Json.textForm_text member.name) space lead form
  constructor
  · exact ⟨[' '], _, [], blank,
      ⟨.cons (named blank blank (.inl rate)) (.cons (named none none (.inl .null))
        (.cons (named none none (.inl audio)) (.cons (named none none (.inl kind)) .nil))),
        Json.itemsForm_separated _⟩,
      none, by decide⟩
  · exact ⟨[], _, [], none,
      ⟨.cons (named none none (.inr (.inl ⟨_, nulls, rfl⟩))) (.cons (named none none (.inl kind))
        (.cons (named none none (.inl audio)) (.cons (named none none (.inl .null))
          (.cons (named none none (.inl rate)) .nil)))), Json.itemsForm_separated _⟩,
      none, by decide⟩

theorem Request.ofText_lateKind :
    Json.ObjectDocument lateKindText lateKind ∧ (lateKind.map Json.Member.name).Nodup ∧
      ofText lateKindText = .ok (.transcribe { audio := [0, 1], sampleRate := 16000 }) ∧
      ofText earlyKindText = ofText lateKindText := by
  obtain ⟨document, early⟩ := lateKind_documents
  have distinct : (lateKind.map Json.Member.name).Nodup := by decide
  obtain ⟨read, -, kept⟩ := Request.ofText_document document distinct
  have member {index : Nat} {member : Json.Member} (at? : lateKind[index]? = some member) :
      member ∈ lateKind := List.mem_of_getElem? at?
  have absent {name : String} (other : name ∉ lateKind.map Json.Member.name) :
      ∀ member ∈ lateKind, member.name ≠ name := by
    rintro member mem rfl
    exact other (List.mem_map_of_mem mem)
  have kind : HasKind lateKind "transcribe" := ⟨_, @member 3 _ rfl, rfl, rfl⟩
  have meaningless : Meaningless lateKind strangeMember := by
    refine ⟨by decide, ?_, ?_⟩
    · intro _ field mem same
      have named : strangeMember.name ∈ TranscribeMessage.fields.map Field.name :=
        List.mem_map.2 ⟨field, mem, same⟩
      exact absurd named (by decide)
    · intro other
      exact absurd (kind.unique distinct other) (by decide)
  have perm : (strangeMember :: lateKind.reverse).Perm (lateKind ++ [strangeMember]) :=
    List.reverse_perm (lateKind ++ [strangeMember])
  refine ⟨document, distinct, (read _).2 (.transcribe kind ?_),
    kept early (by decide) perm (List.forall_mem_singleton.2 meaningless)⟩
  simp only [TranscribeMessage.fields, List.forall_mem_cons]
  exact ⟨.given (@member 2 _ rfl) rfl ⟨" AAE=\n", rfl, by decide⟩,
    .given (@member 0 _ rfl) rfl ⟨⟨by decide, List.all_eq_true.1 (by decide)⟩, by decide⟩,
    .given (@member 1 _ rfl) rfl rfl, .absent (absent (by decide)), .absent (absent (by decide)),
    .absent (absent (by decide)), .absent (absent (by decide)), List.forall_mem_nil _⟩

end SpeechService.Wire
