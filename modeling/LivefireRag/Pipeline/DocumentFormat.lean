import LivefireRag.Lib.Tokens
import LivefireRag.Pipeline.TokenPlan

/-!
# Document formats

A format is accepted when it is a template of one placeholder between two literals without
braces (`DocumentTemplate`), and then the text stands in the place of the placeholder,
whatever the text contains (`formatDocumentInput_eq_some`).
-/

namespace LivefireRag.Pipeline

open Machine Text

/-- A literal of a template. -/
def BraceFree (s : String) : Prop := '{' ∉ s.toList ∧ '}' ∉ s.toList

instance : DecidablePred BraceFree := fun s => by unfold BraceFree; infer_instance

/-- The literals before and behind the placeholder. -/
structure DocumentTemplate where
  before : String
  after : String
  before_closed : BraceFree before
  after_closed : BraceFree after

def DocumentTemplate.fill (template : DocumentTemplate) (text : String) : String :=
  template.before ++ text ++ template.after

theorem DocumentTemplate.fill_injective (template : DocumentTemplate) :
    Function.Injective template.fill := fun _ _ h => append_cancel h

theorem DocumentTemplate.utf8ByteSize_fill (template : DocumentTemplate) (text : String) :
    (template.fill text).utf8ByteSize =
      template.before.utf8ByteSize + text.utf8ByteSize + template.after.utf8ByteSize := by
  rw [fill, String.utf8ByteSize_append, String.utf8ByteSize_append]

theorem isToken_documentInputToken : IsToken '{' documentInputToken.toList :=
  ⟨documentInputToken.toList.tail, by decide, by decide⟩

theorem DocumentTemplate.toList_fill (template : DocumentTemplate) (text : String) :
    (template.fill text).toList =
      template.before.toList ++ text.toList ++ template.after.toList := by
  rw [fill, String.toList_append, String.toList_append]

/-- The placeholder of a template is its only one. -/
theorem DocumentTemplate.countMatches_fill (template : DocumentTemplate) :
    countMatches (template.fill documentInputToken) documentInputToken = 1 := by
  rw [countMatches, template.toList_fill, isToken_documentInputToken.countFrom_append_token_append,
    isToken_documentInputToken.countFrom_eq_zero template.before_closed.1,
    isToken_documentInputToken.countFrom_eq_zero template.after_closed.1]

/-- Replacing the placeholder fills the template. -/
theorem DocumentTemplate.replace_fill (template : DocumentTemplate) (text : String) :
    replace (template.fill documentInputToken) documentInputToken text = template.fill text := by
  apply String.toList_injective
  rw [replace, String.toList_ofList, template.toList_fill, template.toList_fill,
    isToken_documentInputToken.replaceFrom_append_token_append,
    replaceFrom_eq_self (isToken_documentInputToken.countFrom_eq_zero template.before_closed.1),
    replaceFrom_eq_self (isToken_documentInputToken.countFrom_eq_zero template.after_closed.1),
    List.append_assoc]

/-- A format with one placeholder and no other brace is a template. -/
theorem exists_template {format : String} (hcount : countMatches format documentInputToken = 1)
    (hbraces : BraceFree (replace format documentInputToken "")) :
    ∃ template : DocumentTemplate, format = template.fill documentInputToken := by
  obtain ⟨before, after, hsplit, -, -, hreplace⟩ := isToken_documentInputToken.exists_split hcount
  -- without the placeholder, the two literals remain
  have hremaining : (replace format documentInputToken "").toList = before ++ after := by
    rw [replace, String.toList_ofList]
    exact hreplace []
  rw [BraceFree, hremaining, List.mem_append, List.mem_append, not_or, not_or] at hbraces
  obtain ⟨⟨hopen, hopen'⟩, hclose, hclose'⟩ := hbraces
  have hbefore : BraceFree (String.ofList before) := by
    rw [BraceFree, String.toList_ofList]
    exact ⟨hopen, hclose⟩
  have hafter : BraceFree (String.ofList after) := by
    rw [BraceFree, String.toList_ofList]
    exact ⟨hopen', hclose'⟩
  refine ⟨⟨_, _, hbefore, hafter⟩, String.toList_injective ?_⟩
  simp only [DocumentTemplate.toList_fill, String.toList_ofList]
  exact hsplit

/-- The size that is checked is the size of the result. -/
theorem DocumentTemplate.size_fill (template : DocumentTemplate) (text : String) :
    documentInputToken.utf8ByteSize ≤ (template.fill documentInputToken).utf8ByteSize ∧
      (template.fill documentInputToken).utf8ByteSize - documentInputToken.utf8ByteSize +
        text.utf8ByteSize = (template.fill text).utf8ByteSize := by
  rw [template.utf8ByteSize_fill, template.utf8ByteSize_fill]
  constructor <;> omega

/-- **What is accepted, and what it gives.** -/
theorem formatDocumentInput_eq_some {format text input : String} :
    formatDocumentInput format text = some input ↔
      text ≠ "" ∧ format.utf8ByteSize ≤ maxDocumentFormatBytes ∧
        ∃ template : DocumentTemplate, format = template.fill documentInputToken ∧
          (template.fill text).utf8ByteSize ≤ maxFormattedDocumentBytes ∧
          input = template.fill text := by
  constructor
  · intro h
    unfold formatDocumentInput at h
    dsimp only at h
    split at h
    · cases h
    next hguard =>
    split at h
    · cases h
    next hbraces =>
    split at h
    · cases h
    push Not at hguard hbraces
    obtain ⟨htext, -, hsize, hcount⟩ := hguard
    obtain ⟨template, rfl⟩ := exists_template hcount hbraces
    obtain ⟨size, hadd, hresult⟩ := Option.bind_eq_some_iff.mp h
    obtain ⟨-, rfl⟩ := checkedAdd_eq_some.mp hadd
    rw [(template.size_fill text).2, template.replace_fill] at hresult
    split at hresult
    · cases hresult
    next hlong =>
    exact ⟨htext, hsize, template, rfl, not_lt.mp hlong, (Option.some.inj hresult).symm⟩
  · rintro ⟨htext, hsize, template, rfl, hlong, rfl⟩
    obtain ⟨htoken, hfilled⟩ := template.size_fill text
    have hguard : ¬ (text = "" ∨ template.fill documentInputToken = "" ∨
        maxDocumentFormatBytes < (template.fill documentInputToken).utf8ByteSize ∨
        countMatches (template.fill documentInputToken) documentInputToken ≠ 1) := by
      push Not
      refine ⟨htext, fun hempty => ?_, hsize, template.countMatches_fill⟩
      rw [hempty] at htoken
      exact absurd htoken (by decide)
    have hbraces : ¬ ('{' ∈ (template.fill "").toList ∨ '}' ∈ (template.fill "").toList) := by
      obtain ⟨hopen, hclose⟩ := template.before_closed
      obtain ⟨hopen', hclose'⟩ := template.after_closed
      rw [template.toList_fill]
      simp [hopen, hopen', hclose, hclose']
    have hadd : checkedAdd 64
        ((template.fill documentInputToken).utf8ByteSize - documentInputToken.utf8ByteSize)
        text.utf8ByteSize = some (template.fill text).utf8ByteSize := by
      rw [checkedAdd_eq_some, hfilled]
      unfold maxFormattedDocumentBytes at hlong
      omega
    unfold formatDocumentInput
    dsimp only
    rw [if_neg hguard, template.replace_fill, if_neg hbraces, if_neg (not_lt.mpr htoken), hadd,
      Option.bind_eq_bind, Option.bind_some, if_neg (not_lt.mpr hlong), template.replace_fill]

/-- **Document formats are closed.** A format is accepted exactly when it is a template
within the limits, and then different texts give different inputs. -/
theorem document_format_closed (format : String) :
    (∀ text input, formatDocumentInput format text = some input ↔
      text ≠ "" ∧ format.utf8ByteSize ≤ 4096 ∧
        ∃ template : DocumentTemplate, format = template.fill "{semantic_text}" ∧
          (template.fill text).utf8ByteSize ≤ 1048576 ∧ input = template.fill text) ∧
    ∀ text text' input, formatDocumentInput format text = some input →
      formatDocumentInput format text' = some input → text = text' := by
  refine ⟨fun text input => formatDocumentInput_eq_some, ?_⟩
  intro text text' input h h'
  obtain ⟨-, -, template, hformat, -, hinput⟩ := formatDocumentInput_eq_some.mp h
  obtain ⟨-, -, template', hformat', -, hinput'⟩ := formatDocumentInput_eq_some.mp h'
  -- the format has one placeholder, so both templates fill alike
  have hsame : template'.fill text' = template.fill text' := by
    rw [← template'.replace_fill, ← hformat', hformat, template.replace_fill]
  exact template.fill_injective (hinput.symm.trans (hinput'.trans hsame))

/-- A placeholder in the text is not filled again. -/
theorem placeholder_text_kept :
    formatDocumentInput "passage: {semantic_text}" "{semantic_text}" =
      some "passage: {semantic_text}" := by
  refine ((document_format_closed "passage: {semantic_text}").1 _ _).mpr
    ⟨by decide, by decide, ⟨"passage: ", "", by decide, by decide⟩, ?_, ?_, ?_⟩
  · decide
  · decide
  · decide

end LivefireRag.Pipeline
