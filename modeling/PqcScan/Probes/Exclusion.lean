import PqcScan.Probes.CipherLists

/-!
# Tokens that a directive takes out

A token that a cipher string, a protocol list or an algorithm list negates is not enabled
by it.  The probes strip the operators before they judge the token, and so report it all
the same whenever the bare name is weak.
-/

namespace PqcScan
namespace Probes

open Library Python PqcScan.Core

/-- What a finding says. -/
def said (finding : Finding) : String × Classification × String :=
  (finding.algorithm, finding.classification, finding.title)

/-- There is more than white space. -/
def visible (text : List Char) : Bool := !(strip text).isEmpty

/-- A cipher string takes the element out. -/
def Negated (raw : List Char) : Prop :=
  (strip raw).head? = some '!' ∨ (strip raw).head? = some '-'

/-- A protocol list takes the word out. -/
def NegatedProtocol (word : List Char) : Prop := word.head? = some '-'

/-- The elements of an algorithm list, each with whether the list takes it out. -/
def algorithmItems (values : List Char) : List (Bool × List Char) :=
  (listElements values).map fun raw => (listOperator values == some '-', raw)

section Statements

variable (tables : CaseTables) (directive : CipherDirective) (line : ConfigLine)
  (path : String) (now : DateTime) (value : List Char)

/-- No negated token of the directive is reported, and none of them makes a difference. -/
def CiphersExcluded : Prop :=
  Excludes cipherElements visible
    (fun value => cipherToken tables directive path now (cipherString value))
    (scanCiphers tables directive path now) said Negated value

/-- No negated word of the directive is reported, and none of them makes a difference. -/
def ProtocolsExcluded : Prop :=
  Excludes protocolWords (fun _ => true) (fun _ => protocolToken tables path now)
    (scanProtocols tables path now) said NegatedProtocol value

/-- No element of a negated list is reported, and none of them makes a difference. -/
def AlgorithmsExcluded : Prop :=
  Excludes algorithmItems (fun item => visible item.2)
    (fun _ item => algorithmToken tables line now item.2)
    (scanAlgorithms tables line now) said (fun item => item.1 = true) value

/-- The bare name is no cipher that is reported. -/
def CipherPassed (raw : List Char) : Prop :=
  (bareToken raw = [] ∨ oneOf (tables.upper (bareToken raw)) cipherKeywords = true) ∨
    ∃ cls, tables.classify (bareToken raw) = some cls ∧ cls ≠ .sangatTinggi ∧
    cls ≠ .tinggi

/-- `int` refuses the number in the bare name. -/
def CipherFailed (raw : List Char) : Prop :=
  ¬ (bareToken raw = [] ∨ oneOf (tables.upper (bareToken raw)) cipherKeywords = true) ∧
    tables.classify (bareToken raw) = none

end Statements

/-! ## Texts of given elements -/

/-- The parts between separators have none. -/
theorem free_of_mem_splitOnP {p : Char → Bool} {text part : List Char}
    (member : part ∈ text.splitOnP p) : ∀ char ∈ part, p char = false := by
  induction text generalizing part with
  | nil =>
      rw [List.splitOnP_nil, List.mem_singleton] at member
      rw [member]
      exact nofun
  | cons char text inductionHypothesis =>
      rw [List.splitOnP_cons_eq_if_modifyHead] at member
      split at member
      · rcases List.mem_cons.mp member with rfl | later
        · exact nofun
        · exact inductionHypothesis later
      · next other =>
        cases parts : text.splitOnP p with
        | nil => exact absurd parts (List.splitOnP_ne_nil p text)
        | cons first rest =>
            rw [parts] at member inductionHypothesis
            rcases List.mem_cons.mp member with rfl | later
            · rw [List.forall_mem_cons]
              exact ⟨by simpa using other, inductionHypothesis List.mem_cons_self⟩
            · exact inductionHypothesis (List.mem_cons_of_mem _ later)

/-- Elements between separators, also in front and at the end. -/
def enclosed (mark : Char) (parts : List (List Char)) : List Char :=
  mark :: parts.flatMap (· ++ [mark])

theorem splitOn_enclosed {mark : Char} {parts : List (List Char)}
    (free : ∀ part ∈ parts, mark ∉ part) :
    (enclosed mark parts).splitOn mark = [] :: (parts ++ [[]]) := by
  have later : (parts.flatMap (· ++ [mark])).splitOn mark = parts ++ [[]] := by
    induction parts with
    | nil => rfl
    | cons part parts inductionHypothesis =>
        rw [List.forall_mem_cons] at free
        rw [List.flatMap_cons, List.append_assoc, List.singleton_append,
          List.splitOn_append_cons_self_of_not_mem free.1, inductionHypothesis free.2,
          List.cons_append]
  rw [enclosed, ← List.nil_append (mark :: _),
    List.splitOn_append_cons_self_of_not_mem List.not_mem_nil, later]

@[simp] theorem getLast?_enclosed (mark : Char) (parts : List (List Char)) :
    (enclosed mark parts).getLast? = some mark := by
  rcases List.eq_nil_or_concat' parts with rfl | ⟨others, last, rfl⟩
  · rfl
  · have closed : enclosed mark (others ++ [last]) =
        enclosed mark others ++ last ++ [mark] := by
      simp [enclosed]
    rw [closed, List.getLast?_concat]

/-- What does not take the separator leaves the text as it is. -/
theorem trim_enclosed {p : Char → Bool} {mark : Char} (kept : p mark = false)
    (parts : List (List Char)) :
    (((enclosed mark parts).dropWhile p).reverse.dropWhile p).reverse =
      enclosed mark parts := by
  apply trim_of_ends
  · rintro _ ⟨⟩
    exact kept
  · rw [getLast?_enclosed]
    rintro _ ⟨⟩
    exact kept

/-- Only visible elements count, so that each list of them is that of some text. -/
theorem filter_enclosed {mark : Char} {parts : List (List Char)}
    (free : ∀ part ∈ parts, mark ∉ part) (shown : ∀ part ∈ parts, visible part = true) :
    ((enclosed mark parts).splitOn mark).filter visible = parts := by
  have blank : visible [] = false := rfl
  rw [splitOn_enclosed free, List.filter_cons_of_neg (by simp [blank]),
    List.filter_append, List.filter_eq_self.mpr shown,
    List.filter_cons_of_neg (by simp [blank]), List.filter_nil, List.append_nil]

/-! ## Cipher strings -/

section Ciphers

variable {tables : CaseTables} {directive : CipherDirective} {path :
  String} {now : DateTime}

/-- What is said of an element depends on the element alone. -/
theorem said_cipherToken (cipherStr raw : List Char) :
    (cipherToken tables directive path now cipherStr raw).map (List.map said) =
      (cipherToken tables directive path now [] raw).map (List.map said) := by
  unfold cipherToken
  dsimp only
  split
  · rfl
  · rw [Option.map_map, Option.map_map]
    congr 1
    funext cls
    rw [Function.comp, Function.comp]
    split <;> rfl

theorem cipherToken_of_blank {raw : List Char} (blank : visible raw = false) :
    cipherToken tables directive path now [] raw = some [] := by
  have stripped : strip raw = [] := by simpa [visible] using blank
  have bare : bareToken raw = [] := by rw [bareToken, stripped]; rfl
  rw [cipherToken, if_pos (Or.inl bare)]

theorem cipherToken_passes {raw : List Char} :
    (cipherToken tables directive path now [] raw).map (List.map said) = some [] ↔
      CipherPassed tables raw := by
  rw [CipherPassed, cipherToken]
  split
  · next skipped =>
    exact iff_of_true rfl (Or.inl skipped)
  · next examined =>
    rw [or_iff_right examined, Option.map_map, Option.map_eq_some_iff]
    refine exists_congr fun cls => and_congr_right fun _ => ?_
    rw [Function.comp]
    split
    · next weak => exact iff_of_false (by simp) (by tauto)
    · next strong => exact iff_of_true rfl (by tauto)

theorem cipherToken_fails {raw : List Char} :
    (cipherToken tables directive path now [] raw).map (List.map said) = none ↔
      CipherFailed tables raw := by
  rw [CipherFailed, cipherToken]
  split
  · next skipped =>
    exact iff_of_false (by simp) fun failed => failed.1 skipped
  · next examined =>
    rw [and_iff_right examined, Option.map_map, Option.map_eq_none_iff]

/-- The elements that remain are those of a cipher string. -/
theorem cipherElements_writable {value : List Char} {fewer : List (List Char)}
    (inserted : Inserted Negated fewer ((cipherElements value).filter visible)) :
    ∃ other, (cipherElements other).filter visible = fewer := by
  have within : ∀ part ∈ fewer, ':' ∉ part ∧ visible part = true := by
    intro part member
    obtain ⟨element, shown⟩ := List.mem_filter.mp (inserted.mem_of_mem member)
    refine ⟨?_, shown⟩
    intro separator
    rw [cipherElements, List.splitOn_eq_splitOnP] at element
    have other := free_of_mem_splitOnP element ':' separator
    simp at other
  have same : cipherString (enclosed ':' fewer) = enclosed ':' fewer := by
    have quotes : ∀ quote, (':' == quote) = false →
        stripChar quote (enclosed ':' fewer) = enclosed ':' fewer :=
      fun quote other => @trim_enclosed (· == quote) ':' other fewer
    rw [cipherString, strip, trim_enclosed (by decide), quotes '"' (by decide),
      quotes '\'' (by decide)]
  refine ⟨enclosed ':' fewer, ?_⟩
  rw [cipherElements, same]
  exact filter_enclosed (fun part member => (within part member).1)
    fun part member => (within part member).2

theorem ciphersExcluded_iff (value : List Char) :
    CiphersExcluded tables directive path now value ↔
      Skippable (CipherPassed tables) (CipherFailed tables) Negated
        ((cipherElements value).filter visible) :=
  @excludes_iff _ _ _ _ cipherElements visible _ _ said
    (fun raw => (cipherToken tables directive path now [] raw).map (List.map said)) _ _ _
    (fun _ => rfl) (fun value raw => said_cipherToken (cipherString value) raw)
    (fun raw blank => by rw [cipherToken_of_blank blank]; rfl)
    (fun _ => cipherToken_passes) (fun _ => cipherToken_fails) value
    fun _ inserted => cipherElements_writable inserted

end Ciphers

/-! ## Protocol lists -/

theorem splitWords_cons {space : Char} (blank : isSpace space = true) (text : List Char) :
    splitWords (space :: text) = splitWords text := by
  rw [splitWords, List.splitOnP_cons_eq_if_modifyHead, if_pos blank,
    List.filter_cons_of_neg (by simp), splitWords]

theorem splitWords_concat {space : Char} (blank : isSpace space = true)
    (text : List Char) :
    splitWords (text ++ [space]) = splitWords text := by
  rw [splitWords, List.splitOnP_append_cons text [] blank, List.splitOnP_nil,
    List.filter_append, List.filter_cons_of_neg (by simp), List.filter_nil,
    List.append_nil, splitWords]

/-- The words of a text are those of the stripped text. -/
theorem splitWords_strip (text : List Char) :
    splitWords (strip text) = splitWords text := by
  have front : ∀ text, splitWords (text.dropWhile isSpace) = splitWords text := by
    intro text
    induction text with
    | nil => rfl
    | cons char rest inductionHypothesis =>
        by_cases blank : isSpace char = true
        · rw [List.dropWhile_cons_of_pos blank, splitWords_cons blank,
            inductionHypothesis]
        · rw [List.dropWhile_cons_of_neg blank]
  have back : ∀ text : List Char,
      splitWords (text.dropWhile isSpace).reverse = splitWords text.reverse := by
    intro text
    induction text with
    | nil => rfl
    | cons char rest inductionHypothesis =>
        by_cases blank : isSpace char = true
        · rw [List.dropWhile_cons_of_pos blank, List.reverse_cons,
            splitWords_concat blank, inductionHypothesis]
        · rw [List.dropWhile_cons_of_neg blank]
  rw [strip, back, List.reverse_reverse, front]

theorem splitWords_spaced {words : List (List Char)}
    (solid : ∀ word ∈ words, word ≠ [] ∧ ∀ char ∈ word, isSpace char = false) :
    splitWords (words.flatMap (· ++ [' '])) = words := by
  induction words with
  | nil => rfl
  | cons word words inductionHypothesis =>
      rw [List.forall_mem_cons] at solid
      rw [List.flatMap_cons, List.append_assoc, List.singleton_append, splitWords,
        List.splitOnP_append_cons_of_forall_mem solid.1.2 ' ' (by decide),
        List.filter_cons_of_pos (by simpa using solid.1.1)]
      exact congrArg (List.cons word) (inductionHypothesis solid.2)

section Protocols

variable {tables : CaseTables} {path : String} {now : DateTime}

/-- The words that remain are those of a protocol list. -/
theorem protocolWords_writable {value : List Char} {fewer : List (List Char)}
    (inserted : Inserted NegatedProtocol fewer (protocolWords value)) :
    ∃ other, protocolWords other = fewer := by
  refine ⟨fewer.flatMap (· ++ [' ']), ?_⟩
  rw [protocolWords, splitWords_strip]
  apply splitWords_spaced
  intro word member
  have source := inserted.mem_of_mem member
  rw [protocolWords, splitWords] at source
  obtain ⟨part, filled⟩ := List.mem_filter.mp source
  exact ⟨by simpa using filled, free_of_mem_splitOnP part⟩

theorem protocolToken_passes (word : List Char) :
    (protocolToken tables path now word).map (List.map said) = some [] ↔
      oneOf (tables.upper (bareProtocol word)) weakProtocols = false := by
  rw [protocolToken]
  cases oneOf (tables.upper (bareProtocol word)) weakProtocols <;> simp

theorem protocolsExcluded_iff (value : List Char) :
    ProtocolsExcluded tables path now value ↔
      ∀ word ∈ protocolWords value, NegatedProtocol word →
        oneOf (tables.upper (bareProtocol word)) weakProtocols = false := by
  have excludes := @excludes_iff _ _ _ _ protocolWords (fun _ => true)
    (fun _ => protocolToken tables path now) (scanProtocols tables path now) said
    (fun word => (protocolToken tables path now word).map (List.map said))
    (fun word => oneOf (tables.upper (bareProtocol word)) weakProtocols = false)
    (fun _ => False) NegatedProtocol (fun _ => rfl) (fun _ _ => rfl) nofun
    protocolToken_passes (fun _ => by simp [protocolToken]) value
  simp only [List.filter_true] at excludes
  rw [ProtocolsExcluded, excludes fun _ inserted => protocolWords_writable inserted,
    skippable_of_total (fun _ => not_false)]

end Protocols

/-! ## Algorithm lists -/

section Algorithms

variable {tables : CaseTables} {line : ConfigLine} {now : DateTime}

theorem scanAlgorithms_eq (values : List Char) :
    scanAlgorithms tables line now values =
      reported (fun item : Bool × List Char => algorithmToken tables line now item.2)
        (algorithmItems values) := by
  rw [algorithmItems, ← reported_comp]
  rfl

/-- The elements that remain are those of an algorithm list. -/
theorem algorithmItems_writable {values : List Char} {fewer : List (Bool × List Char)}
    (inserted : Inserted (fun item => item.1 = true) fewer
      ((algorithmItems values).filter fun item => visible item.2)) :
    ∃ other, ((algorithmItems other).filter fun item => visible item.2) = fewer := by
  by_cases negated : listOperator values = some '-'
  · have within : ∀ item ∈ fewer, item.1 = true ∧ ',' ∉ item.2 ∧
        visible item.2 = true := by
      intro item member
      obtain ⟨element, shown⟩ := List.mem_filter.mp (inserted.mem_of_mem member)
      obtain ⟨part, source, rfl⟩ := List.mem_map.mp element
      refine ⟨by simp [negated], ?_, shown⟩
      intro separator
      rw [listElements, List.splitOn_eq_splitOnP] at source
      have other := free_of_mem_splitOnP source ',' separator
      simp at other
    have same : strip ('-' :: enclosed ',' (fewer.map Prod.snd)) =
        '-' :: enclosed ',' (fewer.map Prod.snd) := by
      apply trim_of_ends
      · rintro _ ⟨⟩
        decide
      · rw [List.getLast?_cons, getLast?_enclosed]
        rintro _ ⟨⟩
        decide
    have operator : listOperator ('-' :: enclosed ',' (fewer.map Prod.snd)) =
        some '-' := by
      rw [listOperator, same]
      rfl
    refine ⟨'-' :: enclosed ',' (fewer.map Prod.snd), ?_⟩
    rw [algorithmItems, listElements, operator, same, List.filter_map]
    change List.map _ (List.filter visible
      ((enclosed ',' (fewer.map Prod.snd)).splitOn ',')) = fewer
    rw [filter_enclosed, List.map_map]
    · conv_rhs => rw [← List.map_id fewer]
      apply List.map_congr_left
      intro item member
      exact Prod.ext (within item member).1.symm rfl
    · intro part member
      obtain ⟨item, source, rfl⟩ := List.mem_map.mp member
      exact (within item source).2.1
    · intro part member
      obtain ⟨item, source, rfl⟩ := List.mem_map.mp member
      exact (within item source).2.2
  · refine ⟨values, (inserted.eq_of_none ?_).symm⟩
    intro item member
    obtain ⟨part, -, rfl⟩ := List.mem_map.mp (List.mem_of_mem_filter member)
    simp [negated]

/-- Nothing but its operator tells a reported list from another: the probe looks at no
list as negated. -/
theorem algorithmsExcluded_iff (values : List Char) :
    AlgorithmsExcluded tables line now values ↔
      (listOperator values = some '-' → ∀ raw ∈ listElements values,
        strip raw = [] ∨ tables.classify (sshCanonical tables (strip raw)) = none) := by
  have excludes := @excludes_iff _ _ _ _ algorithmItems (fun item => visible item.2)
    (fun _ item => algorithmToken tables line now item.2)
      (scanAlgorithms tables line now) said
    (fun item => (algorithmToken tables line now item.2).map (List.map said))
    (fun item => strip item.2 = [])
    (fun item => strip item.2 ≠ [] ∧
      tables.classify (sshCanonical tables (strip item.2)) = none)
    (fun item => item.1 = true) scanAlgorithms_eq (fun _ _ => rfl)
    (fun item blank => by
      have stripped : strip item.2 = [] := by simpa [visible] using blank
      rw [algorithmToken, if_pos stripped]
      rfl)
    (fun item => by
      rw [algorithmToken]
      split
      · next blank => exact iff_of_true rfl blank
      · next filled =>
        refine iff_of_false ?_ filled
        cases tables.classify (sshCanonical tables (strip item.2)) <;> simp)
    (fun item => by
      rw [algorithmToken]
      split
      · next blank => exact iff_of_false (by simp) fun both => both.1 blank
      · next filled =>
        rw [Option.map_map, Option.map_eq_none_iff, and_iff_right filled])
    values
  rw [AlgorithmsExcluded, excludes fun _ inserted => algorithmItems_writable inserted]
  by_cases negated : listOperator values = some '-'
  · have all : ∀ item ∈ (algorithmItems values).filter fun item => visible item.2,
        item.1 = true := by
      intro item member
      obtain ⟨part, -, rfl⟩ := List.mem_map.mp (List.mem_of_mem_filter member)
      simp [negated]
    rw [skippable_of_all all, imp_iff_right negated]
    constructor
    · intro silent raw member
      by_cases blank : strip raw = []
      · exact Or.inl blank
      · have item : (listOperator values == some '-', raw) ∈
            (algorithmItems values).filter fun item => visible item.2 :=
          List.mem_filter.mpr ⟨List.mem_map_of_mem member, by simpa [visible] using blank⟩
        exact (silent _ item).imp id And.right
    · intro silent item member
      obtain ⟨part, source, rfl⟩ := List.mem_map.mp (List.mem_of_mem_filter member)
      by_cases blank : strip part = []
      · exact Or.inl blank
      · exact Or.inr ⟨blank, (silent part source).resolve_left blank⟩
  · refine iff_of_true (skippable_of_none ?_) fun impossible => absurd impossible negated
    intro item member
    obtain ⟨part, -, rfl⟩ := List.mem_map.mp (List.mem_of_mem_filter member)
    simp [negated]

end Algorithms

/-! ## All directives -/

/-- Negated tokens never show exactly when what stands behind the operators is nothing
that the probe reports. -/
theorem negated_tokens_iff (tables : CaseTables) (path : String) (now : DateTime) :
    (∀ directive value, CiphersExcluded tables directive path now value ↔
      Skippable (CipherPassed tables) (CipherFailed tables) Negated
        ((cipherElements value).filter visible)) ∧
    (∀ value, ProtocolsExcluded tables path now value ↔
      ∀ word ∈ protocolWords value, NegatedProtocol word →
        oneOf (tables.upper (bareProtocol word)) weakProtocols = false) ∧
    (∀ line values, AlgorithmsExcluded tables line now values ↔
      (listOperator values = some '-' → ∀ raw ∈ listElements values,
        strip raw = [] ∨ tables.classify (sshCanonical tables (strip raw)) = none)) :=
  ⟨fun _ => ciphersExcluded_iff, protocolsExcluded_iff, fun _ => algorithmsExcluded_iff⟩

/-- A hardened configuration is reported. -/
theorem hardened_reported :
    ¬ CiphersExcluded plainTables nginxCiphers "/etc/nginx/nginx.conf" 0
      "HIGH:!RC4".toList ∧
    ¬ ProtocolsExcluded plainTables "/etc/apache2/apache2.conf" 0 "all -SSLv3".toList ∧
    ¬ AlgorithmsExcluded plainTables ⟨"fs.conf.sshd",
      "/etc/ssh/sshd_config.d/a.conf", "a.conf",
      1, "Ciphers"⟩ 0 "-3des-cbc".toList := by
  refine ⟨?_, ?_, ?_⟩
  · intro excludes
    have silent := excludes.unreported ["HIGH".toList] "!RC4".toList []
      (by decide +kernel)
      (by unfold Negated; decide +kernel)
    have lengths := congrArg List.length silent
    revert lengths
    decide +kernel
  · intro excludes
    have silent := excludes.unreported ["all".toList] "-SSLv3".toList []
      (by decide +kernel)
      (by unfold NegatedProtocol; decide +kernel)
    have lengths := congrArg List.length silent
    revert lengths
    decide +kernel
  · intro excludes
    have silent := excludes.unreported [] (true,
      "3des-cbc".toList) [] (by decide +kernel) rfl
    have lengths := congrArg List.length silent
    revert lengths
    decide +kernel

end Probes
end PqcScan
