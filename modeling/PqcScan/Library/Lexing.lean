import Mathlib.Data.List.Forall2
import PqcScan.Library.Fences
import PqcScan.Library.Patterns

/-!
# Lexing

Texts in tokens of a language, each the longest where it starts, and single items between
them; functions that find the token at the head of a text; and masks over the tokens.
-/

namespace PqcScan
namespace Library

variable {α γ ι : Type}

/-! ## Tokens at the head of a text -/

/-- The longest text of the language at the head of a text. -/
structure Munch (language : List α → Prop) (text token : List α) : Prop where
  head : token <+: text
  spelled : language token
  longest : ∀ other, other <+: text → language other → other.length ≤ token.length

theorem Munch.unique {language : List α → Prop} {text first second : List α}
    (one : Munch language text first) (two : Munch language text second) :
    first = second := by
  have shorter := two.longest first one.head one.spelled
  have longer := one.longest second two.head two.spelled
  exact (List.prefix_of_prefix_length_le one.head two.head shorter).eq_of_length
    (by omega)

/-- The function finds the length of the token at the head of a text. -/
structure Scans (scan : List α → Option Nat) (language : List α → Prop) : Prop where
  found : ∀ text length, scan text = some length →
    ∃ token, Munch language text token ∧ token.length = length
  missing : ∀ text, scan text = none → ∀ token, token <+: text → ¬ language token

section Scans

variable {scan scan' : List α → Option Nat} {language language' : List α → Prop}

theorem Scans.of_munch (scans : Scans scan language) {text token : List α}
    (munch : Munch language text token) : scan text = some token.length := by
  cases found : scan text with
  | none => exact absurd munch.spelled (scans.missing text found token munch.head)
  | some length =>
      obtain ⟨other, here, rfl⟩ := scans.found text length found
      rw [here.unique munch]

/-- A function that finds every text of the language behind which anything may follow. -/
theorem Scans.of_exact
    (sound : ∀ text length, scan text = some length →
      ∃ token, token <+: text ∧ language token ∧ token.length = length)
    (complete : ∀ token rest, language token → scan (token ++ rest) = some token.length) :
    Scans scan language where
  found := by
    intro text length found
    obtain ⟨token, head, spelled, size⟩ := sound text length found
    refine ⟨token, ⟨head, spelled, ?_⟩, size⟩
    rintro other ⟨rest, rfl⟩ spelled'
    rw [complete other rest spelled', Option.some.injEq] at found
    omega
  missing := by
    rintro text missing token ⟨rest, rfl⟩ spelled
    rw [complete token rest spelled] at missing
    cases missing

theorem Scans.congr (scans : Scans scan language)
    (same : ∀ token, language token ↔ language' token) :
    Scans scan language' := by
  obtain rfl : language = language' := funext fun token => propext (same token)
  exact scans

/-! ### Openers and closers -/

variable [DecidableEq α]

/-- Scan behind an opener. -/
def opened (opener : List α) (scan : List α → Option Nat) (text : List α) : Option Nat :=
  if opener.isPrefixOf text then (scan (text.drop opener.length)).map (· + opener.length)
  else none

/-- A text behind an opener. -/
def Opened (opener : List α) (language : List α → Prop) (token : List α) : Prop :=
  ∃ body, token = opener ++ body ∧ language body

theorem opened_append (opener : List α) (scan : List α → Option Nat) (text : List α) :
    opened opener scan (opener ++ text) = (scan text).map (· + opener.length) := by
  rw [opened, if_pos (List.isPrefixOf_iff_prefix.mpr ⟨text, rfl⟩), List.drop_left]

omit [DecidableEq α] in
theorem Munch.opened {opener text token : List α} (munch : Munch language text token) :
    Munch (Opened opener language) (opener ++ text) (opener ++ token) where
  head := (List.prefix_append_right_inj opener).mpr munch.head
  spelled := ⟨token, rfl, munch.spelled⟩
  longest := by
    rintro other head ⟨body, rfl, spelled⟩
    have shorter := munch.longest body
      ((List.prefix_append_right_inj opener).mp head) spelled
    simpa using shorter

theorem Scans.opened (scans : Scans scan language) (opener : List α) :
    Scans (opened opener scan) (Opened opener language) where
  found := by
    intro text length found
    rw [Library.opened, Option.ite_none_right_eq_some,
      List.isPrefixOf_iff_prefix] at found
    obtain ⟨⟨rest, rfl⟩, found⟩ := found
    rw [List.drop_left] at found
    obtain ⟨inner, here, rfl⟩ := Option.map_eq_some_iff.mp found
    obtain ⟨token, munch, rfl⟩ := scans.found rest inner here
    exact ⟨opener ++ token, munch.opened, by rw [List.length_append, Nat.add_comm]⟩
  missing := by
    rintro text missing token head ⟨body, rfl, spelled⟩
    obtain ⟨rest, rfl⟩ := head
    rw [List.append_assoc, opened_append, Option.map_eq_none_iff] at missing
    exact scans.missing _ missing body (List.prefix_append _ _) spelled

/-- Scan to the end of the first needle. -/
def closedBy (needle text : List α) : Option Nat :=
  (firstAt needle text).map (· + needle.length)

/-- A text that ends with the first needle in it. -/
def Closed (needle token : List α) : Prop :=
  ∃ body, token = body ++ needle ∧
    ∀ before after, token = before ++ (needle ++ after) → body.length ≤ before.length

theorem closedBy_scans (needle : List α) : Scans (closedBy needle) (Closed needle) := by
  refine .of_exact ?_ ?_
  · intro text length found
    obtain ⟨place, here, rfl⟩ := Option.map_eq_some_iff.mp found
    obtain ⟨body, rest, whole, rfl, first⟩ := firstAt_eq_some_iff.mp here
    refine ⟨body ++ needle, ⟨rest, ?_⟩, ⟨body, rfl, fun before after split => ?_⟩,
      List.length_append⟩
    · rw [whole, List.append_assoc]
    · refine first before (after ++ rest) ?_
      rw [whole, ← List.append_assoc, split, List.append_assoc, List.append_assoc]
  · rintro token rest ⟨body, rfl, first⟩
    have here : firstAt needle (body ++ needle ++ rest) = some body.length := by
      refine firstAt_eq_some_iff.mpr ⟨body, rest, List.append_assoc _ _ _, rfl, ?_⟩
      intro before after whole
      by_contra earlier
      -- a needle before it lies in the token
      have inside : before ++ needle <+: body ++ needle := by
        refine List.prefix_of_prefix_length_le ⟨after, ?_⟩ ⟨rest, rfl⟩ ?_
        · rw [List.append_assoc, ← whole]
        · rw [List.length_append, List.length_append]
          omega
      obtain ⟨middle, split⟩ := inside
      exact earlier (first before middle (by rw [← split, List.append_assoc]))
    rw [closedBy, here, List.length_append]
    rfl

/-- A needle in a text closes a text at its head. -/
theorem exists_closed {needle text : List α} (inside : needle <:+: text) :
    ∃ token, token <+: text ∧ Closed needle token := by
  obtain ⟨before, after, whole⟩ := inside
  rw [List.append_assoc] at whole
  obtain ⟨place, found⟩ := @firstAt_isSome _ _ needle before after
  rw [whole] at found
  have here : closedBy needle text = some (place + needle.length) := by
    rw [closedBy, found]
    rfl
  obtain ⟨token, munch, -⟩ := (closedBy_scans needle).found text _ here
  exact ⟨token, munch.head, munch.spelled⟩

omit [DecidableEq α] in
/-- Scan an item of a class as often as it comes. -/
theorem takeWhile_scans (member : α → Bool) :
    Scans (fun text => some (text.takeWhile member).length)
      fun token => ∀ item ∈ token, member item = true where
  found := by
    rintro text length found
    cases found
    refine ⟨text.takeWhile member, ⟨List.takeWhile_prefix member, fun item inside =>
      List.all_eq_true.mp List.all_takeWhile item inside, ?_⟩, rfl⟩
    rintro other ⟨rest, rfl⟩ all
    rw [List.takeWhile_append_of_pos all, List.length_append]
    exact Nat.le_add_right _ _
  missing := nofun

/-! ### Several languages -/

omit [DecidableEq α]

/-- No text has tokens of both languages at its head. -/
def Exclude (language language' : List α → Prop) : Prop :=
  ∀ text token token', token <+: text → token' <+: text → language token →
    ¬ language' token'

theorem Scans.or (scans : Scans scan language) (scans' : Scans scan' language')
    (exclude : Exclude language language') :
    Scans (fun text => (scan text).or (scan' text)) fun token =>
      language token ∨ language' token where
  found := by
    intro text length found
    rcases Option.or_eq_some_iff.mp found with here | ⟨-, here⟩
    · obtain ⟨token, munch, size⟩ := scans.found text length here
      refine ⟨token, ⟨munch.head, .inl munch.spelled, ?_⟩, size⟩
      rintro other head (spelled | spelled)
      · exact munch.longest other head spelled
      · exact absurd spelled (exclude text token other munch.head head munch.spelled)
    · obtain ⟨token, munch, size⟩ := scans'.found text length here
      refine ⟨token, ⟨munch.head, .inr munch.spelled, ?_⟩, size⟩
      rintro other head (spelled | spelled)
      · exact absurd munch.spelled (exclude text other token head munch.head spelled)
      · exact munch.longest other head spelled
  missing := by
    rintro text missing token head (spelled | spelled)
    · exact scans.missing text (Option.or_eq_none_iff.mp missing).1 token head spelled
    · exact scans'.missing text (Option.or_eq_none_iff.mp missing).2 token head spelled

/-- The languages of several kinds of tokens. -/
def OneOf (languages : ι → List α → Prop) (kinds : List ι) (token : List α) : Prop :=
  ∃ kind ∈ kinds, languages kind token

theorem Scans.oneOf {scan : ι → List α → Option Nat} {languages : ι → List α → Prop}
    (scans : ∀ kind, Scans (scan kind) (languages kind)) {kinds : List ι}
    (exclude : kinds.Pairwise fun kind kind' =>
      Exclude (languages kind) (languages kind')) :
    Scans (fun text => kinds.findSome? fun kind => scan kind text)
    (OneOf languages kinds) := by
  induction kinds with
  | nil => exact ⟨nofun, fun text _ token _ => nofun⟩
  | cons kind kinds inductionHypothesis =>
      rw [List.pairwise_cons] at exclude
      have apart : Exclude (languages kind) (OneOf languages kinds) := by
        rintro text token token' head head' spelled ⟨kind', member, spelled'⟩
        exact exclude.1 kind' member text token token' head head' spelled spelled'
      have both := (scans kind).or (inductionHypothesis exclude.2) apart
      have same : (fun text => (kind :: kinds).findSome? fun kind => scan kind text) =
          fun text => (scan kind text).or
            (kinds.findSome? fun kind => scan kind text) := by
        funext text
        rw [List.findSome?_cons]
        cases scan kind text <;> rfl
      rw [same]
      refine both.congr fun token => ?_
      exact (List.exists_mem_cons_iff (fun kind => languages kind token) kind kinds).symm

end Scans

/-! ## Lexemes -/

/-- A part of a text: an item by itself, or a token. -/
inductive Lexeme (α : Type)
  | plain (item : α)
  | token (items : List α)

namespace Lexeme

/-- What the lexeme covers. -/
def text : Lexeme α → List α
  | .plain item => [item]
  | .token items => items

/-- What is left of the lexeme under a mask. -/
def masked (mask : α → α) : Lexeme α → List α
  | .plain item => [item]
  | .token items => items.map mask

end Lexeme

/-- The lexemes of a text from left to right: the longest token where
there is one, else an item. -/
inductive Lexes (language : List α → Prop) : List α → List (Lexeme α) → Prop
  | nil : Lexes language [] []
  | token {token text : List α} {lexemes : List (Lexeme α)}
      (munch : Munch language (token ++ text) token) (later :
        Lexes language text lexemes) :
      Lexes language (token ++ text) (.token token :: lexemes)
  | plain {item : α} {text : List α} {lexemes : List (Lexeme α)}
      (bare : ∀ token, token <+: item :: text → ¬ language token)
      (later : Lexes language text lexemes) :
      Lexes language (item :: text) (.plain item :: lexemes)

namespace Lexes

variable {language : List α → Prop} {text : List α} {lexemes : List (Lexeme α)}

/-- The lexemes cover the text. -/
theorem text_eq (lexes : Lexes language text lexemes) :
    lexemes.flatMap Lexeme.text = text := by
  induction lexes with
  | nil => rfl
  | token munch later inductionHypothesis =>
      rw [List.flatMap_cons, inductionHypothesis]
      rfl
  | plain bare later inductionHypothesis =>
      rw [List.flatMap_cons, inductionHypothesis]
      rfl

theorem plain_inv {item other : α}
    (lexes : Lexes language (item :: text) (.plain other :: lexemes)) :
    (∀ token, token <+: item :: text → ¬ language token) ∧
    Lexes language text lexemes := by
  generalize whole : item :: text = both at lexes
  cases lexes with
  | plain bare later =>
      obtain ⟨rfl, rfl⟩ := List.cons.inj whole
      exact ⟨bare, later⟩

theorem unique (filled : ¬ language []) (lexes : Lexes language text lexemes)
    {other : List (Lexeme α)} (lexes' : Lexes language text other) : lexemes = other := by
  induction lexes generalizing other with
  | nil =>
      generalize empty : ([] : List α) = text at lexes'
      cases lexes' with
      | nil => rfl
      | token munch later =>
          obtain ⟨rfl, -⟩ := List.append_eq_nil_iff.mp empty.symm
          exact absurd munch.spelled filled
      | plain bare later => cases empty
  | @token token text lexemes munch later inductionHypothesis =>
      generalize whole : token ++ text = both at lexes'
      cases lexes' with
      | nil =>
          obtain ⟨rfl, -⟩ := List.append_eq_nil_iff.mp whole
          exact absurd munch.spelled filled
      | @token token' text' lexemes' munch' later' =>
          rw [whole] at munch
          obtain rfl := munch.unique munch'
          obtain rfl := List.append_cancel_left whole
          rw [inductionHypothesis later']
      | plain bare later' =>
          rw [whole] at munch
          exact absurd munch.spelled (bare token munch.head)
  | @plain item text lexemes bare later inductionHypothesis =>
      generalize whole : item :: text = both at lexes'
      cases lexes' with
      | nil => cases whole
      | token munch' later' =>
          rw [whole] at bare
          exact absurd munch'.spelled (bare _ munch'.head)
      | plain bare' later' =>
          cases whole
          rw [inductionHypothesis later']

theorem exists_ {scan : List α → Option Nat} (scans : Scans scan language)
    (filled : ¬ language []) (text : List α) :
    ∃ lexemes, Lexes language text lexemes := by
  induction size : text.length using Nat.strong_induction_on generalizing text with
  | _ size inductionHypothesis =>
      subst size
      cases text with
      | nil => exact ⟨[], .nil⟩
      | cons item text =>
          cases found : scan (item :: text) with
          | none =>
              obtain ⟨lexemes, later⟩ :=
                inductionHypothesis text.length (Nat.lt_succ_self _) text rfl
              exact ⟨_, .plain (scans.missing _ found) later⟩
          | some length =>
              obtain ⟨token, munch, -⟩ := scans.found _ _ found
              obtain ⟨rest, whole⟩ := munch.head
              have some_ : token ≠ [] := by
                rintro rfl
                exact filled munch.spelled
              have positive := List.length_pos_iff.mpr some_
              obtain ⟨lexemes, later⟩ := inductionHypothesis rest.length (by
                rw [← whole, List.length_append]
                omega) rest rfl
              rw [← whole] at munch ⊢
              exact ⟨_, .token munch later⟩

end Lexes

/-! ## Masks -/

/-- The text with a mask over what the matches cover. -/
def maskSpans (mask : α → α) (found : List (Found γ)) (text : List α) : List α :=
  found.foldl (fun text found => text.mapIdx fun place item =>
    if found.start ≤ place ∧ place < found.start + found.length then mask item
    else item) text

theorem maskSpans_cons (mask : α → α) (match_ : Found γ) (found : List (Found γ))
    (text : List α) :
    maskSpans mask (match_ :: found) text = maskSpans mask found
      (text.mapIdx fun place item =>
        if match_.start ≤ place ∧ place < match_.start + match_.length then mask item
      else item) :=
  rfl

/-- Matches behind a part of the text leave it as it is. -/
theorem maskSpans_shift (mask : α → α) (front text : List α) (found : List (Found γ)) :
    maskSpans mask (found.map (Found.shift front.length)) (front ++ text) =
      front ++ maskSpans mask found text := by
  induction found generalizing text with
  | nil => rfl
  | cons match_ found inductionHypothesis =>
      rw [List.map_cons, maskSpans_cons, maskSpans_cons, List.mapIdx_append]
      have before : front.mapIdx (fun place item =>
          if (match_.shift front.length).start ≤ place ∧
            place < (match_.shift front.length).start + (match_.shift front.length).length
          then mask item else item) = front := by
        refine (List.mapIdx_eq_iff.mpr fun place => ?_)
        cases here : front[place]? with
        | none => rfl
        | some item =>
            have within := (List.getElem?_eq_some_iff.mp here).1
            rw [Option.map_some, if_neg]
            rw [Found.shift_start]
            omega
      have behind : (fun place item =>
          if (match_.shift front.length).start ≤ place + front.length ∧
            place + front.length <
              (match_.shift front.length).start + (match_.shift front.length).length
          then mask item else item) = fun place item =>
          if match_.start ≤ place ∧ place < match_.start + match_.length
          then mask item else item := by
        funext place item
        have length : (match_.shift front.length).length = match_.length := rfl
        rw [Found.shift_start, length]
        congr 1
        exact propext (by omega)
      rw [before, behind]
      exact inductionHypothesis _

/-- An item and what it is masked as. -/
def Veils (mask : α → α) (shown item : α) : Prop := shown = item ∨ shown = mask item

section Masks

variable {language : List α → Prop} {text : List α} {lexemes :
  List (Lexeme α)} {mask : α → α}

theorem Lexes.veils (lexes : Lexes language text lexemes) :
    List.Forall₂ (Veils mask) (lexemes.flatMap (Lexeme.masked mask)) text := by
  induction lexes with
  | nil => exact .nil
  | @token token text lexemes munch later inductionHypothesis =>
      rw [List.flatMap_cons]
      refine List.rel_append (R := Veils mask) ?_ inductionHypothesis
      change List.Forall₂ _ (token.map mask) token
      rw [List.forall₂_map_left_iff, List.forall₂_same]
      exact fun item _ => .inr rfl
  | @plain item text lexemes bare later inductionHypothesis =>
      rw [List.flatMap_cons]
      exact .cons (.inl rfl) inductionHypothesis

/-- Masked over its matches the text has its tokens masked. -/
theorem Lexes.maskSpans_finditer {matcher : Matcher α γ} (blind : matcher.Blind)
    (scans : Scans (fun text => (matcher none text).map Prod.fst) language)
    (filled : ¬ language []) (lexes : Lexes language text lexemes) :
    maskSpans mask (matcher.finditer text) text = lexemes.flatMap
      (Lexeme.masked mask) := by
  induction lexes with
  | nil => rfl
  | @token token text lexemes munch later inductionHypothesis =>
      obtain ⟨⟨length, detail⟩, taken, same⟩ :=
        Option.map_eq_some_iff.mp (scans.of_munch munch)
      obtain rfl : length = token.length := same
      cases token with
      | nil => exact absurd munch.spelled filled
      | cons item token =>
          rw [List.cons_append, List.length_cons] at taken
          have matches_ := blind.finditer_cons taken
          rw [List.drop_left] at matches_
          rw [List.cons_append, matches_, maskSpans_cons, List.flatMap_cons]
          have first : (item :: (token ++ text)).mapIdx (fun place item =>
              if 0 ≤ place ∧ place < 0 + (token.length + 1) then mask item else item) =
                (item :: token).map mask ++ text := by
            rw [← List.cons_append, List.mapIdx_append]
            congr 1
            · rw [List.mapIdx_eq_iff]
              intro place
              rw [List.getElem?_map]
              cases here : (item :: token)[place]? with
              | none => rfl
              | some other =>
                  have within := (List.getElem?_eq_some_iff.mp here).1
                  rw [List.length_cons] at within
                  rw [Option.map_some, Option.map_some, if_pos (by omega)]
            · rw [List.mapIdx_eq_iff]
              intro place
              cases text[place]? with
              | none => rfl
              | some other =>
                  rw [Option.map_some, if_neg]
                  rw [List.length_cons]
                  omega
          have size : token.length + 1 = ((item :: token).map mask).length := by
            rw [List.length_map, List.length_cons]
          rw [first, size, maskSpans_shift, inductionHypothesis]
          rfl
  | @plain item text lexemes bare later inductionHypothesis =>
      have silent : matcher none (item :: text) = none := by
        cases taken : matcher none (item :: text) with
        | none => rfl
        | some found =>
            obtain ⟨token, munch, -⟩ :=
              scans.found (item :: text) found.1 (by rw [taken]; rfl)
            exact absurd munch.spelled (bare token munch.head)
      have matches_ : matcher.finditer ([item] ++ text) = _ := blind.finditer_behind (by
        intro tail within some_
        have same : tail = [item] := by
          cases List.suffix_cons_iff.mp within with
          | inl same => exact same
          | inr empty => exact absurd (List.suffix_nil.mp empty) some_
        rw [same]
        exact silent)
      rw [List.singleton_append] at matches_
      have shifted := maskSpans_shift mask [item] text (matcher.finditer text)
      rw [List.singleton_append, inductionHypothesis] at shifted
      rw [matches_, shifted, List.flatMap_cons]
      rfl

/-- If no token begins with a mask and none appears at an item, the
masked text has no tokens. -/
theorem Lexes.masked (lexes : Lexes language text lexemes)
    (hidden : ∀ item text, ¬ language (mask item :: text)) (filled : ¬ language [])
    (quiet : ∀ item text lexemes, Lexes language (item :: text) (.plain item :: lexemes) →
      ∀ token, token <+: item :: lexemes.flatMap (Lexeme.masked mask) →
      ¬ language token) :
    Lexes language (lexemes.flatMap (Lexeme.masked mask))
      ((lexemes.flatMap (Lexeme.masked mask)).map Lexeme.plain) := by
  induction lexes with
  | nil => exact .nil
  | @token token text lexemes munch later inductionHypothesis =>
      rw [List.flatMap_cons]
      clear munch
      change Lexes language (token.map mask ++ _) ((token.map mask ++ _).map Lexeme.plain)
      induction token with
      | nil => exact inductionHypothesis
      | cons item token inner =>
          refine .plain ?_ inner
          intro other head spelled
          cases other with
          | nil => exact filled spelled
          | cons first other =>
              obtain ⟨rfl, -⟩ := List.cons_prefix_cons.mp head
              exact hidden item other spelled
  | @plain item text lexemes bare later inductionHypothesis =>
      exact .plain (quiet item text lexemes (.plain bare later)) inductionHypothesis

theorem masked_plain (mask : α → α) (text : List α) :
    (text.map Lexeme.plain).flatMap (Lexeme.masked mask) = text := by
  rw [List.flatMap_map]
  exact List.flatMap_singleton' text

/-- A place in a token. -/
def InToken : List (Lexeme α) → Nat → Prop
  | [], _ => False
  | .plain _ :: lexemes, place => 0 < place ∧ InToken lexemes (place - 1)
  | .token items :: lexemes, place =>
      place < items.length ∨ items.length ≤ place ∧ InToken lexemes (place - items.length)

/-- The mask lies on the tokens. -/
theorem getElem?_masked (mask : α → α) (lexemes : List (Lexeme α)) (place : Nat) :
    (InToken lexemes place → (lexemes.flatMap (Lexeme.masked mask))[place]? =
      (lexemes.flatMap Lexeme.text)[place]?.map mask) ∧
    (¬ InToken lexemes place → (lexemes.flatMap (Lexeme.masked mask))[place]? =
      (lexemes.flatMap Lexeme.text)[place]?) := by
  induction lexemes generalizing place with
  | nil => exact ⟨False.elim, fun _ => rfl⟩
  | cons lexeme lexemes inductionHypothesis =>
      rw [List.flatMap_cons, List.flatMap_cons]
      cases lexeme with
      | plain item =>
          rw [InToken]
          cases place with
          | zero => exact ⟨fun inside => absurd inside.1 (Nat.lt_irrefl 0), fun _ => rfl⟩
          | succ place =>
              obtain ⟨inside, outside⟩ := inductionHypothesis place
              refine ⟨fun within => inside within.2, fun without =>
                outside fun within => ?_⟩
              exact without ⟨Nat.succ_pos place, within⟩
      | token items =>
          rw [InToken, Lexeme.masked, Lexeme.text]
          by_cases within : place < items.length
          · rw [List.getElem?_append_left (by rwa [List.length_map]),
              List.getElem?_append_left within, List.getElem?_map]
            exact ⟨fun _ => rfl, fun without => absurd (.inl within) without⟩
          · rw [List.getElem?_append_right (by rw [List.length_map]; omega),
              List.getElem?_append_right (by omega), List.length_map]
            obtain ⟨inside, outside⟩ := inductionHypothesis (place - items.length)
            refine ⟨fun here => inside ?_, fun without => outside fun here => ?_⟩
            · rcases here with here | ⟨-, here⟩
              · exact absurd here within
              · exact here
            · exact without (.inr ⟨by omega, here⟩)

end Masks

end Library
end PqcScan
