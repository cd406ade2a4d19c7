import PqcScan.Core.Srcstrip

/-!
# The forms as languages

What the texts of each form look like, and that a form finds the longest of them at the
head of a text.  No two forms of a language find one at the same place.
-/

namespace PqcScan
namespace Core

open Library

/-! ## Languages -/

/-- The inside of a literal between quotes. -/
inductive QuotedBody (quote : Char) : List Char → Prop
  | nil : QuotedBody quote []
  | escape {char : Char} {body : List Char} (line : char ≠ '\n') (later :
      QuotedBody quote body) :
      QuotedBody quote ('\\' :: char :: body)
  | plain {char : Char} {body : List Char} (open_ : char ≠ quote) (line : char ≠ '\n')
      (raw : char ≠ '\\') (later : QuotedBody quote body) :
        QuotedBody quote (char :: body)

/-- A literal behind its first quote. -/
def Quoted (quote : Char) (token : List Char) : Prop :=
  ∃ body, QuotedBody quote body ∧ token = body ++ [quote]

/-- A literal of one character behind its first quote. -/
inductive OneChar : List Char → Prop
  | escape {char : Char} (line : char ≠ '\n') : OneChar ['\\', char, '\'']
  | plain {char : Char} (open_ : char ≠ '\'') (line : char ≠ '\n') (raw : char ≠ '\\') :
      OneChar [char, '\'']

/-- The rest of a line. -/
def OnLine (token : List Char) : Prop := ∀ char ∈ token, (char != '\n') = true

/-- The inside of a literal with doubled quotes. -/
inductive VerbatimBody : List Char → Prop
  | nil : VerbatimBody []
  | doubled {body : List Char} (later : VerbatimBody body) :
      VerbatimBody ('"' :: '"' :: body)
  | plain {char : Char} {body : List Char} (open_ : char ≠ '"') (later :
      VerbatimBody body) :
      VerbatimBody (char :: body)

/-- A literal with doubled quotes behind its first quote. -/
def Verbatim (token : List Char) : Prop :=
  ∃ body, VerbatimBody body ∧ token = body ++ ['"']

/-- A raw literal from its hashes on. -/
def Hashed (token : List Char) : Prop :=
  ∃ count, Opened (List.replicate count '#' ++ ['"'])
    (Closed ('"' :: List.replicate count '#')) token

/-- The texts of a form. -/
def Form.Spells : Form → List Char → Prop
  | .dq => Opened ['"'] (Quoted '"')
  | .sqStr => Opened ['\''] (Quoted '\'')
  | .char => Opened ['\''] OneChar
  | .block => Opened ['/', '*'] (Closed ['*', '/'])
  | .lineSlash => Opened ['/', '/'] OnLine
  | .lineHash => Opened ['#'] OnLine
  | .backtick => Opened ['`'] (Closed ['`'])
  | .rustRaw => fun token => Opened ['b', 'r'] Hashed token ∨ Opened ['r'] Hashed token
  | .csharpVerbatim => Opened ['@', '"'] Verbatim

/-! ## Reading -/

theorem quotedLength_cons (quote char : Char) (text : List Char) :
    quotedLength quote (char :: text) =
      if char = quote then some 1
      else if char = '\n' then none
      else if char = '\\' then
        match text with
        | [] => none
        | escaped :: text =>
            if escaped = '\n' then none else (quotedLength quote text).map (· + 2)
      else (quotedLength quote text).map (· + 1) := by
  refine (quotedLength.eq_def quote (char :: text)).trans ?_
  rfl

theorem quotedLength_append {quote : Char} (other : quote ≠ '\\') {body : List Char}
    (inside : QuotedBody quote body) (rest : List Char) :
    quotedLength quote (body ++ quote :: rest) = some (body.length + 1) := by
  induction inside with
  | nil =>
      rw [List.nil_append, quotedLength_cons, if_pos rfl]
      rfl
  | @escape char body line later inductionHypothesis =>
      rw [List.cons_append, List.cons_append, quotedLength_cons, if_neg (Ne.symm other),
        if_neg (by decide), if_pos rfl]
      simp only [if_neg line, inductionHypothesis]
      rfl
  | @plain char body open_ line raw later inductionHypothesis =>
      rw [List.cons_append, quotedLength_cons, if_neg open_, if_neg line, if_neg raw,
        inductionHypothesis]
      rfl

theorem quotedBody_of_quotedLength {quote : Char} {text : List Char} {length : Nat}
    (found : quotedLength quote text = some length) : ∃ body rest,
      QuotedBody quote body ∧ text = body ++ quote :: rest ∧
      length = body.length + 1 := by
  fun_induction quotedLength quote text generalizing length with
  | case1 => cases found
  | case2 text =>
      cases found
      exact ⟨[], text, .nil, rfl, rfl⟩
  | case3 => cases found
  | case4 => cases found
  | case5 => cases found
  | case6 escaped text line open_ newline inductionHypothesis =>
      obtain ⟨inner, here, rfl⟩ := Option.map_eq_some_iff.mp found
      obtain ⟨body, rest, inside, rfl, rfl⟩ := inductionHypothesis here
      exact ⟨'\\' :: escaped :: body, rest, .escape line inside, rfl, rfl⟩
  | case7 char text open_ line raw inductionHypothesis =>
      obtain ⟨inner, here, rfl⟩ := Option.map_eq_some_iff.mp found
      obtain ⟨body, rest, inside, rfl, rfl⟩ := inductionHypothesis here
      exact ⟨char :: body, rest, .plain open_ line raw inside, rfl, rfl⟩

theorem quotedLength_scans {quote : Char} (other : quote ≠ '\\') :
    Scans (quotedLength quote) (Quoted quote) := by
  refine .of_exact ?_ ?_
  · intro text length found
    obtain ⟨body, rest, inside, rfl, rfl⟩ := quotedBody_of_quotedLength found
    exact ⟨body ++ [quote], ⟨rest, by rw [List.append_assoc]; rfl⟩, ⟨body, inside, rfl⟩,
      by rw [List.length_append]; rfl⟩
  · rintro token rest ⟨body, inside, rfl⟩
    rw [List.append_assoc, List.singleton_append, quotedLength_append other inside,
      List.length_append]
    rfl

theorem charLength_scans : Scans charLength OneChar := by
  refine .of_exact ?_ ?_
  · intro text length found
    match text with
    | [] => cases found
    | [_] => cases found
    | char :: next :: text =>
        rw [charLength] at found
        split at found
        · next escape =>
          obtain ⟨⟨line, closed⟩, size⟩ := Option.ite_none_right_eq_some.mp found
          cases size
          cases text with
          | nil => cases closed
          | cons close rest =>
              cases closed
              exact ⟨['\\', next, '\''], ⟨rest, by rw [escape]; rfl⟩, .escape line, rfl⟩
        · next raw =>
          obtain ⟨⟨open_, line, rfl⟩, size⟩ := Option.ite_none_right_eq_some.mp found
          cases size
          exact ⟨[char, '\''], ⟨text, rfl⟩, .plain open_ line raw, rfl⟩
  · rintro token rest spelled
    cases spelled with
    | escape line => exact if_pos ⟨line, rfl⟩
    | plain open_ line raw => exact (if_neg raw).trans (if_pos ⟨open_, line, rfl⟩)

theorem lineLength_scans : Scans lineLength OnLine := takeWhile_scans (· != '\n')

theorem verbatimLength_cons (char : Char) (text : List Char) :
    verbatimLength (char :: text) =
      if char = '"' then
        match text with
        | [] => some 1
        | next :: text =>
            if next = '"' then some (((verbatimLength text).map (· + 2)).getD 1)
            else some 1
      else (verbatimLength text).map (· + 1) := by
  refine (verbatimLength.eq_def (char :: text)).trans ?_
  rfl

theorem verbatim_of_verbatimLength {text : List Char} {length : Nat}
    (found : verbatimLength text = some length) :
    ∃ token, token <+: text ∧ Verbatim token ∧ token.length = length := by
  fun_induction verbatimLength text generalizing length with
  | case1 => cases found
  | case2 =>
      cases found
      exact ⟨['"'], List.prefix_rfl, ⟨[], .nil, rfl⟩, rfl⟩
  | case3 text inductionHypothesis =>
      cases later : verbatimLength text with
      | none =>
          rw [later] at found
          cases found
          exact ⟨['"'], ⟨'"' :: text, rfl⟩, ⟨[], .nil, rfl⟩, rfl⟩
      | some inner =>
          rw [later] at found
          cases found
          obtain ⟨token, head, ⟨body, inside, rfl⟩, rfl⟩ := inductionHypothesis later
          refine ⟨'"' :: '"' :: (body ++ ['"']), ?_,
            ⟨'"' :: '"' :: body, .doubled inside, rfl⟩, rfl⟩
          rw [List.cons_prefix_cons, List.cons_prefix_cons]
          exact ⟨rfl, rfl, head⟩
  | case4 next text other =>
      cases found
      exact ⟨['"'], ⟨next :: text, rfl⟩, ⟨[], .nil, rfl⟩, rfl⟩
  | case5 char text open_ inductionHypothesis =>
      obtain ⟨inner, here, rfl⟩ := Option.map_eq_some_iff.mp found
      obtain ⟨token, head, ⟨body, inside, rfl⟩, rfl⟩ := inductionHypothesis here
      refine ⟨char :: (body ++ ['"']), ?_, ⟨char :: body, .plain open_ inside, rfl⟩, rfl⟩
      rw [List.cons_prefix_cons]
      exact ⟨rfl, head⟩

/-- No literal at the head is longer than what is found. -/
theorem le_verbatimLength {body : List Char} (inside : VerbatimBody body)
    (rest : List Char) :
    ∃ length, verbatimLength (body ++ '"' :: rest) = some length ∧
    body.length + 1 ≤ length := by
  induction inside with
  | nil =>
      rw [List.nil_append, verbatimLength_cons, if_pos rfl]
      cases rest with
      | nil => exact ⟨1, rfl, Nat.le_refl 1⟩
      | cons next rest =>
          by_cases doubled : next = '"'
          · refine ⟨_, if_pos doubled, ?_⟩
            cases verbatimLength rest with
            | none => exact Nat.le_refl 1
            | some inner => exact Nat.le_add_left 1 (inner + 1)
          · exact ⟨1, if_neg doubled, Nat.le_refl 1⟩
  | @doubled body later inductionHypothesis =>
      obtain ⟨length, found, enough⟩ := inductionHypothesis
      refine ⟨length + 2, ?_, Nat.add_le_add_right enough 2⟩
      rw [List.cons_append, List.cons_append, verbatimLength_cons, if_pos rfl]
      simp only [if_pos, found]
      rfl
  | @plain char body open_ later inductionHypothesis =>
      obtain ⟨length, found, enough⟩ := inductionHypothesis
      refine ⟨length + 1, ?_, Nat.succ_le_succ enough⟩
      rw [List.cons_append, verbatimLength_cons, if_neg open_, found]
      rfl

theorem verbatimLength_scans : Scans verbatimLength Verbatim where
  found := by
    intro text length found
    obtain ⟨token, head, spelled, rfl⟩ := verbatim_of_verbatimLength found
    refine ⟨token, ⟨head, spelled, ?_⟩, rfl⟩
    rintro other ⟨rest, rfl⟩ ⟨body, inside, rfl⟩
    obtain ⟨length, found', enough⟩ := le_verbatimLength inside rest
    rw [List.append_assoc, List.singleton_append, found', Option.some.injEq] at found
    rw [List.length_append, List.length_singleton]
    omega
  missing := by
    rintro text missing token ⟨rest, rfl⟩ ⟨body, inside, rfl⟩
    obtain ⟨length, found, -⟩ := le_verbatimLength inside rest
    rw [List.append_assoc, List.singleton_append, found] at missing
    cases missing

theorem takeWhile_hashes (count : Nat) (text : List Char) :
    (List.replicate count '#' ++ '"' :: text).takeWhile
      (· == '#') = List.replicate count '#' := by
  rw [List.takeWhile_append_of_pos (by simp), List.takeWhile_cons_of_neg (by decide),
    List.append_nil]

theorem hashedLength_append (count : Nat) (text : List Char) :
    hashedLength (List.replicate count '#' ++ '"' :: text) =
      opened (List.replicate count '#' ++ ['"'])
      (closedBy ('"' :: List.replicate count '#'))
        (List.replicate count '#' ++ '"' :: text) := by
  rw [hashedLength, takeWhile_hashes]

theorem hashedLength_scans : Scans hashedLength Hashed where
  found := by
    intro text length found
    obtain ⟨count, hashes⟩ : ∃ count,
        text.takeWhile (· == '#') = List.replicate count '#' :=
      ⟨_, List.eq_replicate_iff.mpr ⟨rfl, fun char inside =>
        eq_of_beq (List.all_eq_true.mp List.all_takeWhile char inside)⟩⟩
    rw [hashedLength, hashes] at found
    have scans := (closedBy_scans ('"' :: List.replicate count '#')).opened
      (List.replicate count '#' ++ ['"'])
    obtain ⟨token, munch, size⟩ := scans.found text length found
    refine ⟨token, ⟨munch.head, ⟨count, munch.spelled⟩, ?_⟩, size⟩
    rintro other ⟨rest, rfl⟩ ⟨count', body, rfl, closed⟩
    -- the hashes of a text are those of every token at its head
    have same : List.replicate count '#' = List.replicate count' '#' := by
      rw [← hashes, List.append_assoc, List.append_assoc, List.singleton_append,
        takeWhile_hashes]
    obtain rfl : count = count' := by simpa using congrArg List.length same
    exact munch.longest _ ⟨rest, rfl⟩ ⟨body, rfl, closed⟩
  missing := by
    rintro text missing token ⟨rest, rfl⟩ ⟨count, body, rfl, closed⟩
    have scans := (closedBy_scans ('"' :: List.replicate count '#')).opened
      (List.replicate count '#' ++ ['"'])
    have whole : List.replicate count '#' ++ ['"'] ++ body ++ rest =
        List.replicate count '#' ++ '"' :: (body ++ rest) := by
      rw [List.append_assoc, List.append_assoc, List.singleton_append]
    rw [whole, hashedLength_append] at missing
    refine scans.missing _ missing _ ?_ ⟨body, rfl, closed⟩
    rw [← whole]
    exact List.prefix_append _ _

/-! ## Openers -/

/-- Tells the forms apart by the first two characters of a text. -/
def openerOf : List Char → Nat
  | '/' :: '*' :: _ => 1
  | '/' :: '/' :: _ => 2
  | '#' :: _ => 3
  | '"' :: _ => 4
  | '\'' :: _ => 5
  | '`' :: _ => 6
  | 'b' :: _ => 7
  | 'r' :: _ => 7
  | '@' :: _ => 8
  | _ => 0

/-- Where the texts of the form begin. -/
def Form.opener : Form → Nat
  | .block => 1
  | .lineSlash => 2
  | .lineHash => 3
  | .dq => 4
  | .sqStr => 5
  | .char => 5
  | .backtick => 6
  | .rustRaw => 7
  | .csharpVerbatim => 8

theorem Form.Spells.openerOf {form : Form} {token : List Char}
    (spelled : form.Spells token)
    (rest : List Char) : openerOf (token ++ rest) = form.opener := by
  cases form with
  | rustRaw => rcases spelled with ⟨body, rfl, -⟩ | ⟨body, rfl, -⟩ <;> rfl
  | _ =>
      obtain ⟨body, rfl, -⟩ := spelled
      rfl

theorem Form.exclude {form form' : Form} (other : form.opener ≠ form'.opener) :
    Exclude form.Spells form'.Spells := by
  rintro text token token' ⟨rest, rfl⟩ ⟨rest', whole⟩ spelled spelled'
  apply other
  rw [← spelled.openerOf rest, ← spelled'.openerOf rest', whole]

theorem Form.length_scans (form : Form) : Scans form.length form.Spells := by
  cases form with
  | dq => exact (quotedLength_scans (by decide)).opened _
  | sqStr => exact (quotedLength_scans (by decide)).opened _
  | char => exact charLength_scans.opened _
  | block => exact (closedBy_scans _).opened _
  | lineSlash => exact lineLength_scans.opened _
  | lineHash => exact lineLength_scans.opened _
  | backtick => exact (closedBy_scans _).opened _
  | csharpVerbatim => exact verbatimLength_scans.opened _
  | rustRaw =>
      refine (hashedLength_scans.opened ['b', 'r']).or
        (hashedLength_scans.opened ['r']) ?_
      rintro text token token' ⟨rest, rfl⟩ ⟨rest', whole⟩ ⟨body, rfl, -⟩ ⟨body', rfl, -⟩
      cases whole

/-- The texts of some forms. -/
abbrev Noncode (forms : List Form) : List Char → Prop := OneOf Form.Spells forms

theorem Form.openerOf_pos (form : Form) : 0 < form.opener := by cases form <;> decide

theorem not_noncode_nil (forms : List Form) : ¬ Noncode forms [] := by
  rintro ⟨form, -, spelled⟩
  have opener := spelled.openerOf []
  have positive := form.openerOf_pos
  rw [← opener] at positive
  exact absurd positive (Nat.lt_irrefl 0)

/-- Forms with different openers. -/
def Distinct (forms : List Form) : Prop :=
  forms.Pairwise fun form form' => form.opener ≠ form'.opener

instance (forms : List Form) : Decidable (Distinct forms) :=
  inferInstanceAs (Decidable (forms.Pairwise fun form form' =>
    form.opener ≠ form'.opener))

theorem combined_blind (forms : List Form) : (combined forms).Blind := fun _ _ => rfl

/-- The combined pattern finds the tokens of its forms. -/
theorem combined_scans {forms : List Form} (distinct : Distinct forms) :
    Scans (fun text => (combined forms none text).map Prod.fst) (Noncode forms) := by
  have scans := @Scans.oneOf _ _ _ _ Form.length_scans forms
    (distinct.imp fun other => Form.exclude other)
  have same : (fun text => (combined forms none text).map Prod.fst) =
      fun text => forms.findSome? fun form => form.length text := by
    funext text
    rw [combined, Option.map_map]
    exact Option.map_id'
  rwa [same]

/-- The forms of a language have different openers. -/
theorem distinct_langForms {lang : String} {forms : List Form}
    (supported : langForms.lookup lang = some forms) : Distinct forms := by
  have all : ∀ entry ∈ langForms, Distinct entry.2 := by decide
  obtain ⟨front, rest, whole, -⟩ := List.lookup_eq_some_iff.mp supported
  exact all (lang, forms) (by rw [whole]; simp)

end Core
end PqcScan
