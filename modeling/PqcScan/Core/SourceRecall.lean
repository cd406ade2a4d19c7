import PqcScan.Core.SourceMask
import PqcScan.Library.Spans

/-!
# Matches that start in code

`code_finditer` drops a match that starts in a comment or a literal, and with it what else
starts inside the match.
-/

namespace PqcScan
namespace Core

open Library

/-- The blanked characters are those of the tokens, but for spaces and newlines. -/
theorem isMasked_iff {lang : String} {forms : List Form}
    (supported : langForms.lookup lang = some forms) {source : List Char}
    {lexemes : List (Lexeme Char)} (lexes : Lexes (Noncode forms) source lexemes)
    (place : Nat) :
    isMasked source (stripNoncode source lang) place = true ↔
      InToken lexemes place ∧ ∃ char, source[place]? = some char ∧ blank char ≠ char := by
  have stripped : stripNoncode source lang = lexemes.flatMap (Lexeme.masked blank) := by
    rw [stripNoncode_of_lookup supported,
      stripWith_eq (distinct_langForms supported) lexes]
  have size : (stripNoncode source lang).length = source.length :=
    (stripNoncode_masks supported source).1
  obtain ⟨inside, outside⟩ := getElem?_masked blank lexemes place
  rw [lexes.text_eq, ← stripped] at inside outside
  rw [isMasked, Bool.and_eq_true_iff, decide_eq_true_iff, bne_iff_ne, size]
  constructor
  · rintro ⟨within, differs⟩
    have token : InToken lexemes place := by
      by_contra without
      exact differs (outside without).symm
    rw [inside token, List.getElem?_eq_getElem within, Option.map_some] at differs
    exact ⟨token, source[place], List.getElem?_eq_getElem within,
      fun same => differs (by rw [same])⟩
  · rintro ⟨token, char, here, solid⟩
    rw [inside token, here, Option.map_some]
    exact ⟨(List.getElem?_eq_some_iff.mp here).1, fun same =>
      solid (Option.some.inj same).symm⟩

section Recall

variable {γ : Type} {pattern : Matcher Char γ}

theorem mem_codeFinditer {text scanText : List Char} {found : Found γ} :
    found ∈ codeFinditer pattern text scanText ↔
      found ∈ pattern.finditer text ∧ isMasked text scanText found.start = false := by
  rw [codeFinditer, List.mem_filter, Bool.not_eq_true']

/-- Every match that starts in code is in a match that is kept, exactly when none starts
inside a match that the search finds in a comment or a literal. -/
theorem codeFinditer_covers_iff (positive : pattern.Positive) (source : List Char)
    (lang : String) :
    (∀ place < source.length, (pattern.matchAt source place).isSome = true →
      isMasked source (stripNoncode source lang) place = false →
        ∃ found ∈ codeFinditer pattern source (stripNoncode source lang),
          found.start ≤ place ∧ place < found.start + found.length) ↔
    ∀ found ∈ pattern.finditer source,
      isMasked source (stripNoncode source lang) found.start = true →
        ∀ place < source.length, found.start < place →
        place < found.start + found.length →
          (pattern.matchAt source place).isSome = true →
            isMasked source (stripNoncode source lang) place = true := by
  constructor
  · intro covered found member masked place within after before matched
    by_contra code
    rw [Bool.not_eq_true] at code
    obtain ⟨other, kept, inside⟩ := covered place within matched code
    obtain ⟨member', code'⟩ := mem_codeFinditer.mp kept
    have same := Matcher.finditer_inj positive member member' ⟨Nat.le_of_lt after,
      before⟩ inside
    rw [same, code'] at masked
    cases masked
  · intro apart place within matched code
    obtain ⟨found, member, before, spans⟩ := Matcher.finditer_covers within matched
    have size := positive _ _ _ _ (Matcher.finditer_matchAt positive member)
    have inside : place < found.start + found.length := by omega
    refine ⟨found, mem_codeFinditer.mpr ⟨member, ?_⟩, before, inside⟩
    by_contra masked
    rw [Bool.not_eq_false] at masked
    rcases Nat.lt_or_eq_of_le before with after | same
    · rw [apart found member masked place within after inside matched] at code
      cases code
    · rw [same, code] at masked
      cases masked

/-- Where no match lies inside another, a match is kept exactly when it starts in code. -/
theorem mem_codeFinditer_iff {source scanText : List Char} (positive : pattern.Positive)
    (sparse : ∀ place length detail,
      pattern.matchAt source place = some (length, detail) →
      ∀ inner, place < inner → inner < place + length →
      pattern.matchAt source inner = none)
    (found : Found γ) (within : found.start < source.length) :
    found ∈ codeFinditer pattern source scanText ↔
      pattern.matchAt source found.start = some (found.length, found.detail) ∧
        isMasked source scanText found.start = false := by
  rw [mem_codeFinditer]
  refine and_congr_left fun _ => ⟨Matcher.finditer_matchAt positive, fun matched => ?_⟩
  exact Matcher.mem_finditer_of_matchAt sparse positive within matched

end Recall

/-- `d[^ ]*`. -/
def letterRun : Matcher Char (Nat × List Char) :=
  Matcher.capture [.one (· == 'd'), .many (· != ' ')] [] []

/-- A literal whose end and what follows it are in one match. -/
def gluedLiteral : List Char := "x \"md5\"+d d".toList

theorem codeFinditer_covers_iff_gluedLiteral :
    (∀ place < gluedLiteral.length, (letterRun.matchAt gluedLiteral place).isSome = true →
      isMasked gluedLiteral (stripNoncode gluedLiteral "go") place = false →
        ∃ found ∈ codeFinditer letterRun gluedLiteral (stripNoncode gluedLiteral "go"),
          found.start ≤ place ∧ place < found.start + found.length) ↔
    ∀ found ∈ letterRun.finditer gluedLiteral,
      isMasked gluedLiteral (stripNoncode gluedLiteral "go") found.start = true →
        ∀ place < gluedLiteral.length, found.start < place →
        place < found.start + found.length →
          (letterRun.matchAt gluedLiteral place).isSome = true →
            isMasked gluedLiteral (stripNoncode gluedLiteral "go") place = true :=
  codeFinditer_covers_iff Matcher.capture_positive gluedLiteral "go"

example : (codeFinditer letterRun gluedLiteral (stripNoncode gluedLiteral "go")).map
    Found.start = [10] := by decide +kernel

end Core
end PqcScan
