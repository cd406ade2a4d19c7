import PqcScan.Core.LexicalForms

/-!
# The mask over comments and literals

`strip_noncode` blanks the tokens of the language's forms and nothing else.  The blanked
source has no tokens any more, so that stripping it again changes nothing, and the order
of the forms does not matter.
-/

namespace PqcScan
namespace Core

open Library

/-! ## Blanks -/

theorem blank_newline {char : Char} : blank char = '\n' ↔ char = '\n' := by
  rw [blank]
  split
  · next line => exact iff_of_true rfl line
  · next line => exact iff_of_false (by decide) line

theorem blank_of_ne {char : Char} (line : char ≠ '\n') : blank char = ' ' := if_neg line

/-- A text under a mask. -/
abbrev Veiled : List Char → List Char → Prop := List.Forall₂ (Veils blank)

theorem eq_of_veils {shown char : Char} (veils : Veils blank shown char)
    (solid : shown ≠ ' ') : shown = char := by
  rcases veils with same | masked
  · exact same
  · by_cases line : char = '\n'
    · rw [masked, line]
      rfl
    · exact absurd (masked.trans (blank_of_ne line)) solid

theorem newline_of_veils {shown char : Char} (veils : Veils blank shown char) :
    shown = '\n' ↔ char = '\n' := by
  rcases veils with rfl | rfl
  · exact Iff.rfl
  · exact blank_newline

theorem Veiled.append {front rest text : List Char}
    (veiled : Veiled (front ++ rest) text) :
    ∃ front' rest', text = front' ++ rest' ∧ Veiled front front' ∧ Veiled rest rest' := by
  induction front generalizing text with
  | nil => exact ⟨[], text, rfl, .nil, veiled⟩
  | cons char front inductionHypothesis =>
      cases veiled with
      | cons here later =>
          obtain ⟨front', rest', rfl, before, behind⟩ := inductionHypothesis later
          exact ⟨_ :: front', rest', rfl, .cons here before, behind⟩

theorem Veiled.eq_of_solid {needle text : List Char} (veiled : Veiled needle text)
    (solid : ∀ char ∈ needle, char ≠ ' ') : needle = text := by
  induction veiled with
  | nil => rfl
  | cons here later inductionHypothesis =>
      rw [List.forall_mem_cons] at solid
      rw [eq_of_veils here solid.1, inductionHypothesis solid.2]

/-! ## What a mask cannot bring out -/

/-- A text of the language at the head of a masked text is there without the
mask, perhaps another one. -/
def Endures (language : List Char → Prop) : Prop :=
  ∀ shown text token, Veiled shown text → token <+: shown → language token →
    ∃ other, other <+: text ∧ language other

theorem Endures.opened {opener : List Char} {language : List Char → Prop}
    (solid : ∀ char ∈ opener, char ≠ ' ') (endures : Endures language) :
    Endures (Opened opener language) := by
  rintro shown text token veiled ⟨rest, rfl⟩ ⟨body, rfl, spelled⟩
  rw [List.append_assoc] at veiled
  obtain ⟨front, back, rfl, before, behind⟩ := veiled.append
  obtain rfl := before.eq_of_solid solid
  obtain ⟨other, head, spelled'⟩ :=
    endures _ back body behind (List.prefix_append body rest) spelled
  exact ⟨opener ++ other, (List.prefix_append_right_inj opener).mpr head, other,
    rfl, spelled'⟩

theorem endures_closed {needle : List Char} (solid : ∀ char ∈ needle, char ≠ ' ') :
    Endures (Closed needle) := by
  rintro shown text token veiled ⟨rest, rfl⟩ ⟨body, rfl, -⟩
  rw [List.append_assoc] at veiled
  obtain ⟨front, back, rfl, -, behind⟩ := veiled.append
  obtain ⟨needle', back, rfl, here, -⟩ := behind.append
  obtain rfl := here.eq_of_solid solid
  exact exists_closed ⟨front, back, List.append_assoc _ _ _⟩

theorem endures_onLine : Endures OnLine := fun _ _ _ _ _ _ =>
  ⟨[], List.nil_prefix, fun _ inside => absurd inside List.not_mem_nil⟩

theorem exists_verbatimLength {text : List Char} (inside : '"' ∈ text) :
    ∃ length, verbatimLength text = some length := by
  induction text with
  | nil => cases inside
  | cons char text inductionHypothesis =>
      rw [verbatimLength_cons]
      by_cases open_ : char = '"'
      · rw [if_pos open_]
        cases text with
        | nil => exact ⟨1, rfl⟩
        | cons next text =>
            by_cases doubled : next = '"'
            · exact ⟨_, if_pos doubled⟩
            · exact ⟨1, if_neg doubled⟩
      · obtain ⟨length, found⟩ := inductionHypothesis
          ((List.mem_cons.mp inside).resolve_left (Ne.symm open_))
        exact ⟨length + 1, by rw [if_neg open_, found]; rfl⟩

theorem endures_verbatim : Endures Verbatim := by
  rintro shown text token veiled ⟨rest, rfl⟩ ⟨body, -, rfl⟩
  rw [List.append_assoc] at veiled
  obtain ⟨front, back, rfl, -, behind⟩ := veiled.append
  cases behind with
  | @cons quote other _ back here later =>
      obtain rfl := eq_of_veils here (by decide)
      obtain ⟨length, found⟩ := @exists_verbatimLength (front ++ '"' :: back) (by simp)
      obtain ⟨token, head, spelled, -⟩ := verbatim_of_verbatimLength found
      exact ⟨token, head, spelled⟩

theorem endures_hashed : Endures Hashed := by
  rintro shown text token veiled head ⟨count, spelled⟩
  have hash : ∀ char ∈ List.replicate count '#', char ≠ ' ' := by
    intro char inside
    rw [List.eq_of_mem_replicate inside]
    decide
  have solid : ∀ char ∈ List.replicate count '#' ++ ['"'], char ≠ ' ' := by
    intro char inside
    rcases List.mem_append.mp inside with inside | inside
    · exact hash char inside
    · rw [List.mem_singleton.mp inside]
      decide
  have needle : ∀ char ∈ '"' :: List.replicate count '#', char ≠ ' ' :=
    List.forall_mem_cons.mpr ⟨by decide, hash⟩
  obtain ⟨other, head', spelled'⟩ :=
    (endures_closed needle).opened solid shown text token veiled head spelled
  exact ⟨other, head', count, spelled'⟩

/-! ## Quotes -/

/-- A quote closes a literal of which a text is the rest, with a backslash
before the text or not. -/
def closes (quote : Char) : Bool → List Char → Bool
  | _, [] => false
  | true, char :: text => char != '\n' && closes quote false text
  | false, char :: text =>
      if char = quote then true
      else if char = '\\' then closes quote true text
      else char != '\n' && closes quote false text

theorem closes_eq {quote : Char} (text : List Char) :
    closes quote false text = (quotedLength quote text).isSome := by
  fun_induction quotedLength quote text with
  | case1 => rfl
  | case2 text => rw [closes, if_pos rfl]; rfl
  | case3 text open_ => rw [closes, if_neg open_, if_neg (by decide)]; rfl
  | case4 open_ line => rw [closes, if_neg open_, if_pos rfl]; rfl
  | case5 text open_ line =>
      rw [closes, if_neg open_, if_pos rfl]
      rfl
  | case6 escaped text line open_ newline inductionHypothesis =>
      rw [closes, if_neg open_, if_pos rfl, closes, inductionHypothesis,
        Option.isSome_map, bne_iff_ne.mpr line]
      rfl
  | case7 char text open_ line raw inductionHypothesis =>
      rw [closes, if_neg open_, if_neg raw, inductionHypothesis, Option.isSome_map,
        bne_iff_ne.mpr line]
      rfl

theorem closes_iff {quote : Char} (other : quote ≠ '\\') {text : List Char} :
    closes quote false text = true ↔ ∃ token, token <+: text ∧ Quoted quote token := by
  rw [closes_eq, Option.isSome_iff_exists]
  constructor
  · rintro ⟨length, found⟩
    obtain ⟨token, munch, -⟩ := (quotedLength_scans other).found text length found
    exact ⟨token, munch.head, munch.spelled⟩
  · rintro ⟨token, ⟨rest, rfl⟩, body, inside, rfl⟩
    rw [List.append_assoc, List.singleton_append]
    exact ⟨_, quotedLength_append other inside rest⟩

/-- A masked token is passed over. -/
theorem closes_masked {quote : Char} (mark : quote ≠ ' ') (end_ : quote ≠ '\n')
    {token rest : List Char} (filled : token ≠ []) {escaped : Bool}
    (closed : closes quote escaped (token.map blank ++ rest) = true) :
    '\n' ∉ token ∧ closes quote false rest = true := by
  induction token generalizing escaped with
  | nil => exact absurd rfl filled
  | cons char token inductionHypothesis =>
      rw [List.map_cons, List.cons_append] at closed
      have line : char ≠ '\n' := by
        rintro rfl
        have same : blank '\n' = '\n' := rfl
        rw [same] at closed
        cases escaped with
        | true => cases closed
        | false =>
            rw [closes, if_neg (Ne.symm end_)] at closed
            cases closed
      rw [blank_of_ne line] at closed
      have later : closes quote false (token.map blank ++ rest) = true := by
        cases escaped with
        | true => exact (Bool.and_eq_true_iff.mp closed).2
        | false =>
            rw [closes, if_neg (Ne.symm mark), if_neg (by decide)] at closed
            exact (Bool.and_eq_true_iff.mp closed).2
      cases token with
      | nil => exact ⟨by simpa using Ne.symm line, later⟩
      | cons next token =>
          obtain ⟨lines, behind⟩ := inductionHypothesis (List.cons_ne_nil _ _) later
          refine ⟨?_, behind⟩
          rw [List.mem_cons, not_or]
          exact ⟨Ne.symm line, lines⟩

/-- A token on one line that does not end with a backslash leaves no character escaped. -/
theorem closes_token {quote : Char} {token rest : List Char} (filled : token ≠ [])
    (line : '\n' ∉ token) (raw : token.getLast? ≠ some '\\') (escaped : Bool)
    (closed : closes quote false rest = true) :
    closes quote escaped (token ++ rest) = true := by
  induction token generalizing escaped with
  | nil => exact absurd rfl filled
  | cons char token inductionHypothesis =>
      rw [List.mem_cons, not_or] at line
      have here : (char != '\n') = true := bne_iff_ne.mpr (Ne.symm line.1)
      cases token with
      | nil =>
          have plain : char ≠ '\\' := fun same => raw (by rw [same]; rfl)
          cases escaped with
          | true => exact Bool.and_eq_true_iff.mpr ⟨here, closed⟩
          | false =>
              rw [List.singleton_append, closes, if_neg plain]
              split
              · rfl
              · exact Bool.and_eq_true_iff.mpr ⟨here, closed⟩
      | cons next token =>
          have later := inductionHypothesis (List.cons_ne_nil _ _) line.2 (by
            rwa [List.getLast?_cons_cons] at raw)
          cases escaped with
          | true => exact Bool.and_eq_true_iff.mpr ⟨here, later false⟩
          | false =>
              rw [List.cons_append, closes]
              split
              · rfl
              · split
                · exact later true
                · exact Bool.and_eq_true_iff.mpr ⟨here, later false⟩

theorem closes_newline {quote : Char} (end_ : quote ≠ '\n') (escaped : Bool)
    (text : List Char) :
    closes quote escaped ('\n' :: text) = false := by
  cases escaped with
  | true => rfl
  | false =>
      rw [closes, if_neg (Ne.symm end_), if_neg (by decide)]
      rfl

/-! ## Ends of tokens -/

/-- A token that ends with a backslash is a comment that goes on
to the end of its line. -/
theorem Form.Spells.ends {form : Form} {token : List Char} (spelled : form.Spells token)
    (raw : token.getLast? = some '\\') : form = .lineSlash ∨ form = .lineHash := by
  have other : ∀ (front : List Char) {char : Char}, char ≠ '\\' →
      token ≠ front ++ [char] := by
    rintro front char plain rfl
    rw [List.getLast?_concat] at raw
    exact plain (Option.some.inj raw)
  have hashed : ∀ {opener : List Char}, ¬ Opened opener Hashed token := by
    rintro opener ⟨body, rfl, count, body, rfl, inner, rfl, -⟩
    cases count with
    | zero => exact @other (opener ++ ([] ++ ['"'] ++ inner)) '"' (by decide) (by simp)
    | succ count =>
        refine @other (opener ++ (List.replicate (count + 1) '#' ++ ['"'] ++
          (inner ++ '"' :: List.replicate count '#'))) '#' (by decide) ?_
        rw [List.replicate_succ' (n := count)]
        simp
  cases form with
  | lineSlash => exact .inl rfl
  | lineHash => exact .inr rfl
  | dq =>
      obtain ⟨body, rfl, inner, -, rfl⟩ := spelled
      exact absurd (by simp) (@other ('"' :: inner) '"' (by decide))
  | sqStr =>
      obtain ⟨body, rfl, inner, -, rfl⟩ := spelled
      exact absurd (by simp) (@other ('\'' :: inner) '\'' (by decide))
  | char =>
      obtain ⟨body, rfl, one⟩ := spelled
      cases one with
      | @escape char line =>
          exact absurd (by simp) (@other ['\'', '\\', char] '\'' (by decide))
      | @plain char open_ line plain =>
          exact absurd (by simp) (@other ['\'', char] '\'' (by decide))
  | block =>
      obtain ⟨body, rfl, inner, rfl, -⟩ := spelled
      exact absurd (by simp) (@other ('/' :: '*' :: (inner ++ ['*'])) '/' (by decide))
  | backtick =>
      obtain ⟨body, rfl, inner, rfl, -⟩ := spelled
      exact absurd (by simp) (@other ('`' :: inner) '`' (by decide))
  | csharpVerbatim =>
      obtain ⟨body, rfl, inner, -, rfl⟩ := spelled
      exact absurd (by simp) (@other ('@' :: '"' :: inner) '"' (by decide))
  | rustRaw =>
      rcases spelled with spelled | spelled
      · exact absurd spelled hashed
      · exact absurd spelled hashed

/-- A comment goes on to the end of its line. -/
theorem line_ends {opener body rest : List Char} {language : List Char → Prop}
    (whole : ∀ token, Opened opener OnLine token → language token)
    (munch : Munch language (opener ++ body ++ rest) (opener ++ body))
    (inside : OnLine body) :
    rest = [] ∨ ∃ later, rest = '\n' :: later := by
  cases rest with
  | nil => exact .inl rfl
  | cons char later =>
      by_cases line : char = '\n'
      · exact .inr ⟨later, by rw [line]⟩
      · have longer := munch.longest (opener ++ (body ++ [char])) ⟨later, by simp⟩
          (whole _ ⟨body ++ [char], rfl, fun other member => by
            rcases List.mem_append.mp member with member | member
            · exact inside other member
            · rw [List.mem_singleton.mp member]
              exact bne_iff_ne.mpr line⟩)
        simp only [List.length_append, List.length_singleton] at longer
        omega

section Lexed

variable {forms : List Form} {text : List Char} {lexemes : List (Lexeme Char)}

/-- After a token that ends with a backslash the line is over. -/
theorem token_ends {token : List Char}
    (munch : Munch (Noncode forms) (token ++ text) token)
    (raw : token.getLast? = some '\\') : text = [] ∨ ∃ later, text = '\n' :: later := by
  obtain ⟨form, member, spelled⟩ := munch.spelled
  rcases spelled.ends raw with rfl | rfl
  · obtain ⟨body, rfl, inside⟩ := spelled
    exact line_ends (fun other spelled' => ⟨.lineSlash, member, spelled'⟩) munch inside
  · obtain ⟨body, rfl, inside⟩ := spelled
    exact line_ends (fun other spelled' => ⟨.lineHash, member, spelled'⟩) munch inside

theorem veiled_of_lexes (lexes : Lexes (Noncode forms) text lexemes) :
    Veiled (lexemes.flatMap (Lexeme.masked blank)) text := lexes.veils

/-- A quote that closes a literal in the masked text closes one in the text. -/
theorem closes_of_masked {quote : Char} (mark : quote ≠ ' ') (end_ : quote ≠ '\n')
    (lexes : Lexes (Noncode forms) text lexemes) {escaped : Bool}
    (closed : closes quote escaped (lexemes.flatMap (Lexeme.masked blank)) = true) :
    closes quote escaped text = true := by
  induction lexes generalizing escaped with
  | nil => exact closed
  | @token token text lexemes munch later inductionHypothesis =>
      have filled : token ≠ [] := by
        rintro rfl
        exact not_noncode_nil forms munch.spelled
      rw [List.flatMap_cons] at closed
      obtain ⟨line, behind⟩ := closes_masked mark end_ filled closed
      by_cases raw : token.getLast? = some '\\'
      · -- the literal would go on behind the end of the line
        have veiled := veiled_of_lexes later
        rcases token_ends munch raw with rfl | ⟨rest, rfl⟩
        · rw [List.forall₂_nil_right_iff.mp veiled] at behind
          cases behind
        · obtain ⟨shown, shownRest, here, -, whole⟩ :=
            List.forall₂_cons_right_iff.mp veiled
          rw [whole, (newline_of_veils here).mpr rfl, closes_newline end_] at behind
          cases behind
      · exact closes_token filled line raw escaped (inductionHypothesis behind)
  | @plain item text lexemes bare later inductionHypothesis =>
      rw [List.flatMap_cons] at closed
      change closes quote escaped (item :: lexemes.flatMap _) = true at closed
      cases escaped with
      | true =>
          obtain ⟨line, behind⟩ := Bool.and_eq_true_iff.mp closed
          exact Bool.and_eq_true_iff.mpr ⟨line, inductionHypothesis behind⟩
      | false =>
          rw [closes] at closed ⊢
          split
          · rfl
          · next open_ =>
            rw [if_neg open_] at closed
            split
            · next escape =>
              rw [if_pos escape] at closed
              exact inductionHypothesis closed
            · next plain =>
              rw [if_neg plain] at closed
              obtain ⟨line, behind⟩ := Bool.and_eq_true_iff.mp closed
              exact Bool.and_eq_true_iff.mpr ⟨line, inductionHypothesis behind⟩

/-- No text of one character but a hash is a token. -/
theorem Form.Spells.single {form : Form} {char : Char} (spelled : form.Spells [char]) :
    char = '#' := by
  cases form with
  | lineHash =>
      obtain ⟨body, whole, -⟩ := spelled
      exact (List.cons.inj whole).1
  | dq =>
      obtain ⟨body, whole, inner, -, rfl⟩ := spelled
      simp at whole
  | sqStr =>
      obtain ⟨body, whole, inner, -, rfl⟩ := spelled
      simp at whole
  | char =>
      obtain ⟨body, whole, one⟩ := spelled
      cases one <;> simp at whole
  | block =>
      obtain ⟨body, whole, -⟩ := spelled
      simp at whole
  | lineSlash =>
      obtain ⟨body, whole, -⟩ := spelled
      simp at whole
  | backtick =>
      obtain ⟨body, whole, inner, rfl, -⟩ := spelled
      simp at whole
  | csharpVerbatim =>
      obtain ⟨body, whole, -⟩ := spelled
      simp at whole
  | rustRaw =>
      rcases spelled with ⟨body, whole, count, inner, rfl, -⟩ | ⟨body, whole, count,
        inner, rfl, -⟩ <;>
        simp at whole

/-- A literal of one character in the masked text is one in the text. -/
theorem oneChar_of_masked (lexes : Lexes (Noncode forms) text lexemes) {token : List Char}
    (head : token <+: lexemes.flatMap (Lexeme.masked blank)) (one : OneChar token) :
    ∃ other, other <+: text ∧ OneChar other := by
  have veiled := veiled_of_lexes lexes
  obtain ⟨rest, whole⟩ := head
  cases one with
  | @escape char line =>
      rw [← whole] at veiled
      obtain ⟨slash, behind, here, shown, rfl⟩ := List.forall₂_cons_left_iff.mp veiled
      obtain ⟨other, behind', there, shown', rfl⟩ := List.forall₂_cons_left_iff.mp shown
      obtain ⟨quote, text, last, -, rfl⟩ := List.forall₂_cons_left_iff.mp shown'
      obtain rfl := eq_of_veils here (by decide)
      obtain rfl := eq_of_veils last (by decide)
      exact ⟨['\\', other, '\''], ⟨text, rfl⟩,
        .escape fun same => line ((newline_of_veils there).mpr same)⟩
  | @plain char open_ line raw =>
      rw [← whole] at veiled
      obtain ⟨other, behind, here, shown, rfl⟩ := List.forall₂_cons_left_iff.mp veiled
      obtain ⟨quote, rest', last, -, rfl⟩ := List.forall₂_cons_left_iff.mp shown
      obtain rfl := eq_of_veils last (by decide)
      refine ⟨[other, '\''], ⟨rest', rfl⟩, ?_⟩
      rcases here with rfl | rfl
      · exact .plain open_ line raw
      · have line' : other ≠ '\n' := fun same => line (blank_newline.mpr same)
        generalize split : other :: '\'' :: rest' = text at lexes
        cases lexes with
        | nil => cases split
        | @plain item text lexemes bare later =>
            obtain ⟨rfl, -⟩ := List.cons.inj split
            obtain ⟨same, -⟩ := List.cons.inj whole
            rw [same] at open_ line raw
            exact .plain open_ line raw
        | @token token text lexemes munch later =>
            -- the quote is not blank, so the token before it has one character
            rw [List.flatMap_cons] at whole
            cases token with
            | nil => exact absurd munch.spelled (not_noncode_nil forms)
            | cons first token =>
                obtain ⟨rfl, behind⟩ := List.cons.inj split
                obtain ⟨-, masked⟩ := List.cons.inj whole
                cases token with
                | nil =>
                    obtain ⟨form, -, spelled⟩ := munch.spelled
                    obtain rfl := spelled.single
                    exact .plain (by decide) (by decide) (by decide)
                | cons second token =>
                    obtain ⟨rfl, -⟩ := List.cons.inj behind
                    exact absurd (List.cons.inj masked).1 (by decide)

/-! ## Stripping twice -/

/-- A character between the tokens of a text begins no token of the masked text. -/
theorem quiet_masked {item : Char}
    (lexes : Lexes (Noncode forms) (item :: text) (.plain item :: lexemes))
    {token : List Char}
    (head : token <+: item :: lexemes.flatMap (Lexeme.masked blank)) :
    ¬ Noncode forms token := by
  rintro ⟨form, member, spelled⟩
  have veiled := veiled_of_lexes lexes
  obtain ⟨bare, later⟩ := lexes.plain_inv
  obtain ⟨other, head', spelled'⟩ : ∃ other, other <+: item :: text ∧
      form.Spells other := by
    have quoted : ∀ quote, quote ≠ ' ' → quote ≠ '\n' → quote ≠ '\\' →
        Opened [quote] (Quoted quote) token →
          ∃ other, other <+: item :: text ∧ Opened [quote] (Quoted quote) other := by
      rintro quote mark end_ raw ⟨body, rfl, inside⟩
      obtain ⟨rfl, head'⟩ := List.cons_prefix_cons.mp head
      obtain ⟨inner, within, inside'⟩ := (closes_iff raw).mp
        (closes_of_masked mark end_ later ((closes_iff raw).mpr ⟨body, head', inside⟩))
      exact ⟨quote :: inner, List.cons_prefix_cons.mpr ⟨rfl, within⟩, inner, rfl, inside'⟩
    cases form with
    | dq => exact quoted '"' (by decide) (by decide) (by decide) spelled
    | sqStr => exact quoted '\'' (by decide) (by decide) (by decide) spelled
    | char =>
        obtain ⟨body, rfl, one⟩ := spelled
        obtain ⟨rfl, head'⟩ := List.cons_prefix_cons.mp head
        obtain ⟨inner, within, one'⟩ := oneChar_of_masked later head' one
        exact ⟨'\'' :: inner, List.cons_prefix_cons.mpr ⟨rfl, within⟩, inner, rfl, one'⟩
    | block => exact (endures_closed
        (by decide)).opened (by decide) _ _ _ veiled head spelled
    | lineSlash => exact endures_onLine.opened (by decide) _ _ _ veiled head spelled
    | lineHash => exact endures_onLine.opened (by decide) _ _ _ veiled head spelled
    | backtick => exact (endures_closed
        (by decide)).opened (by decide) _ _ _ veiled head spelled
    | csharpVerbatim =>
        exact endures_verbatim.opened (by decide) _ _ _ veiled head spelled
    | rustRaw =>
        rcases spelled with spelled | spelled
        · obtain ⟨other, head', spelled'⟩ :=
            endures_hashed.opened (by decide) _ _ _ veiled head spelled
          exact ⟨other, head', .inl spelled'⟩
        · obtain ⟨other, head', spelled'⟩ :=
            endures_hashed.opened (by decide) _ _ _ veiled head spelled
          exact ⟨other, head', .inr spelled'⟩
  exact bare other head' ⟨form, member, spelled'⟩

/-- No token begins with a blank. -/
theorem not_noncode_blank (forms : List Form) (item : Char) (text : List Char) :
    ¬ Noncode forms (blank item :: text) := by
  rintro ⟨form, -, spelled⟩
  have opener := spelled.openerOf []
  have none_ : openerOf ((blank item :: text) ++ []) = 0 := by
    by_cases line : item = '\n'
    · rw [line]
      rfl
    · rw [blank_of_ne line]
      rfl
  have positive := form.openerOf_pos
  omega

/-- Stripping blanks the tokens of the lexed source. -/
theorem stripWith_eq (distinct : Distinct forms)
    (lexes : Lexes (Noncode forms) text lexemes) :
    stripWith (combined forms) text = lexemes.flatMap (Lexeme.masked blank) :=
  lexes.maskSpans_finditer (combined_blind forms) (combined_scans distinct)
    (not_noncode_nil forms)

theorem stripWith_masked (distinct : Distinct forms)
    (lexes : Lexes (Noncode forms) text lexemes) :
    stripWith (combined forms) (lexemes.flatMap (Lexeme.masked blank)) =
      lexemes.flatMap (Lexeme.masked blank) := by
  rw [stripWith_eq distinct
    (lexes.masked (not_noncode_blank forms) (not_noncode_nil forms)
    fun item text lexemes lexes token head => quiet_masked lexes head)]
  exact masked_plain blank _

/-- The order of the forms does not matter. -/
theorem stripWith_perm {order : List Form} (distinct : Distinct forms)
    (perm : order.Perm forms)
    (text : List Char) :
    stripWith (combined order) text = stripWith (combined forms) text := by
  have distinct' : Distinct order :=
    perm.symm.pairwise distinct fun other => Ne.symm other
  have same : ∀ token, Noncode order token ↔ Noncode forms token := fun token =>
    exists_congr fun form => and_congr_left fun _ => perm.mem_iff
  have scans := (combined_scans distinct').congr same
  obtain ⟨lexemes, lexes⟩ :=
    Lexes.exists_ (combined_scans distinct) (not_noncode_nil forms) text
  rw [stripWith_eq distinct lexes, stripWith]
  exact lexes.maskSpans_finditer (combined_blind order) scans (not_noncode_nil forms)

end Lexed

/-! ## Languages -/

theorem stripNoncode_of_lookup {lang : String} {forms : List Form}
    (supported : langForms.lookup lang = some forms) (source : List Char) :
    stripNoncode source lang = stripWith (combined forms) source := by
  rw [stripNoncode, patternFor, supported]
  rfl

/-- `strip_noncode` masks the comments and literals of a source: the longest texts of the
forms of its language, read from left to right.  Their characters become blanks, newlines
apart, and all others stay.  What is left has no more to strip, and any order of the forms
gives the same. -/
theorem stripNoncode_masks {lang : String} {forms : List Form}
    (supported : langForms.lookup lang = some forms) (source : List Char) :
    (stripNoncode source lang).length = source.length ∧
    (∀ place : Nat, (stripNoncode source lang)[place]? = some '\n' ↔
      source[place]? = some '\n') ∧
    (∃ lexemes, Lexes (Noncode forms) source lexemes ∧
      (∀ other, Lexes (Noncode forms) source other → other = lexemes) ∧
      stripNoncode source lang = lexemes.flatMap (Lexeme.masked blank)) ∧
    stripNoncode (stripNoncode source lang) lang = stripNoncode source lang ∧
    ∀ order : List Form, order.Perm forms →
      stripWith (combined order) source = stripNoncode source lang := by
  have distinct := distinct_langForms supported
  obtain ⟨lexemes, lexes⟩ :=
    Lexes.exists_ (combined_scans distinct) (not_noncode_nil forms) source
  have stripped : stripNoncode source lang = lexemes.flatMap (Lexeme.masked blank) := by
    rw [stripNoncode_of_lookup supported, stripWith_eq distinct lexes]
  have veiled : Veiled (stripNoncode source lang) source := by
    rw [stripped]
    exact veiled_of_lexes lexes
  refine ⟨veiled.length_eq, fun place => ?_, ?_, ?_, fun order perm => ?_⟩
  · have size := veiled.length_eq
    by_cases within : place < source.length
    · have within' : place < (stripNoncode source lang).length := by omega
      have here := veiled.get within' within
      rw [List.getElem?_eq_getElem within, List.getElem?_eq_getElem within',
        Option.some.injEq, Option.some.injEq]
      exact newline_of_veils here
    · rw [List.getElem?_eq_none (by omega), List.getElem?_eq_none (by omega)]
  · exact ⟨lexemes, lexes,
      fun other lexes' => (lexes.unique (not_noncode_nil forms) lexes').symm, stripped⟩
  · rw [stripped, stripNoncode_of_lookup supported, stripWith_masked distinct lexes]
  · rw [stripWith_perm distinct perm, stripNoncode_of_lookup supported]

/-- A string in a comment in Go. -/
theorem stripNoncode_masks_go :
    stripNoncode "x // \"y\n".toList "go" = "x      \n".toList ∧
    stripNoncode (stripNoncode "x // \"y\n".toList "go") "go" =
      stripNoncode "x // \"y\n".toList "go" :=
  ⟨by decide +kernel,
    (@stripNoncode_masks "go" [.block, .lineSlash, .backtick, .dq,
      .char] (by decide) _).2.2.2.1⟩

end Core
end PqcScan
