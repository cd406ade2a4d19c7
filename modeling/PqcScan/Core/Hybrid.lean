import PqcScan.Core.Names

/-!
# Hybrid names

A classical token, a separator or nothing and a post-quantum name.  `classify` finds the
post-quantum half only by the fragments of ML-KEM and ML-DSA: the other families count as
ready by their prefix alone.
-/

namespace PqcScan
namespace Core

open Library Python

/-- How the classical tokens begin: RSA, P-256, secp256r1, prime256v1, X25519 and X448. -/
def classicalHeads : List String := ["RSA", "P", "SECP", "PRIME", "X25519", "X448"]

/-- A classical token: it begins as one, and no post-quantum fragment begins in it. -/
structure ClassicalToken where
  text : List Char
  ascii : ∀ char ∈ text, char.toNat < 128
  begins : ∃ head ∈ classicalHeads, startsWith (upper text) head = true
  pure : ¬ "ML".toList <:+: upper text
  ends : (upper text).getLast? ≠ some 'M'

/-- A hybrid name; its post-quantum half is ready by itself. -/
structure HybridName (tables : CaseTables) where
  classical : ClassicalToken
  separator : List Char
  pqc : List Char
  separator_ascii : ∀ char ∈ separator, char.toNat < 128
  separator_plain : ∀ char ∈ separator, char.isAlphanum = false
  ready : tables.classify pqc = some .pqcReady

namespace HybridName

variable {tables : CaseTables} (name : HybridName tables)

/-- The name as a text. -/
def text : List Char := name.classical.text ++ (name.separator ++ name.pqc)

/-- The post-quantum half, in upper case, has a fragment of ML-KEM or ML-DSA. -/
def Visible : Prop := pqcHybridFragments.any (contains (tables.upper name.pqc)) = true

end HybridName

/-- A part that cannot begin in the text before is in the text after. -/
theorem infix_of_not_begun {before after part : List Char} {first second : Char}
    (begins : [first, second] <+: part) (pure : ¬ [first, second] <:+: before)
    (ends : before.getLast? ≠ some first) (within : part <:+: before ++ after) :
    part <:+: after := by
  obtain ⟨front, back, whole⟩ := within
  rw [List.append_assoc] at whole
  rcases List.append_eq_append_iff.mp whole with ⟨gap, inside, rest⟩ | ⟨gap,
    outside, rest⟩
  · obtain ⟨tail, rfl⟩ := begins
    cases gap with
    | nil => exact ⟨[], back, rest⟩
    | cons char gap =>
        injection rest with same rest
        cases gap with
        | nil =>
            apply absurd _ ends
            rw [inside, same, List.getLast?_append]
            rfl
        | cons other gap =>
            injection rest with sameOther rest
            apply absurd _ pure
            rw [inside, same, sameOther]
            exact ⟨front, gap, List.append_assoc front [char, other] gap⟩
  · exact ⟨gap, back, by rw [List.append_assoc, rest]⟩

/-- No alias of the tables begins as a classical token, but for those of RSASSA-PSS. -/
theorem alias_begins : ∀ entry ∈ friendlyMap, ∀ head ∈ classicalHeads,
    startsWith (upper entry.1.toList) head = true →
      'm' ∉ entry.1.toList ∧ 'k' ∉ entry.1.toList ∧
        pqcReady (upper entry.2.toList) = false := by
  decide +kernel

theorem toUpper_of_plain (char : Char) :
    char.isAlphanum = false → char.toUpper = char := by
  revert char
  apply forall_char
  · decide
  · intro char _ upper _
    exact upper

theorem isSpace_toUpper (char : Char) : isSpace char.toUpper = isSpace char := by
  revert char
  apply forall_char
  · decide
  · intro char _ upper
    rw [upper]

/-- `str.strip` keeps a head without white space. -/
theorem prefix_strip {head rest : List Char} (nonempty : head ≠ [])
    (plain : ∀ char ∈ head, isSpace char = false) : head <+: strip (head ++ rest) := by
  have front : (head ++ rest).dropWhile isSpace = head ++ rest := by
    obtain ⟨first, others, rfl⟩ := List.exists_cons_of_ne_nil nonempty
    apply List.dropWhile_cons_of_neg
    rw [plain first List.mem_cons_self]
    exact Bool.false_ne_true
  have back : head.reverse.dropWhile isSpace = head.reverse := by
    cases reversed : head.reverse with
    | nil => rfl
    | cons last others =>
        apply List.dropWhile_cons_of_neg
        have member : last ∈ head := by
          rw [← List.mem_reverse, reversed]
          exact List.mem_cons_self
        rw [plain last member]
        exact Bool.false_ne_true
  rw [strip, front, List.reverse_append, List.dropWhile_append]
  split
  · rw [back, List.reverse_reverse]
  · rw [List.reverse_append, List.reverse_reverse]
    exact List.prefix_append _ _

/-- No prefix of the ready names agrees with the head of a classical token. -/
theorem classicalHeads_apart :
    ∀ head ∈ classicalHeads, ∀ ready ∈ pqcReadyPrefixes, Apart head ready := by
  decide +kernel

theorem fragments_begin :
    ∀ fragment ∈ pqcHybridFragments, ['M', 'L'] <+: fragment.toList := by
  decide

namespace HybridName

variable {tables : CaseTables} (name : HybridName tables)

theorem upper_separator : tables.upper name.separator = name.separator := by
  rw [tables.upper_ascii name.separator_ascii, Python.upper]
  conv_rhs => rw [← List.map_id name.separator]
  apply List.map_congr_left
  intro char member
  exact toUpper_of_plain char (name.separator_plain char member)

/-- What precedes the post-quantum half begins no fragment. -/
theorem before_pure :
    ¬ ['M', 'L'] <:+: upper name.classical.text ++ name.separator ∧
      (upper name.classical.text ++ name.separator).getLast? ≠ some 'M' := by
  have plain : 'M' ∉ name.separator := by
    intro member
    have letter := name.separator_plain 'M' member
    exact absurd letter (by decide)
  constructor
  · intro within
    have later := infix_of_not_begun (List.prefix_refl _) name.classical.pure
      name.classical.ends within
    exact plain (later.subset List.mem_cons_self)
  · intro last
    rw [List.getLast?_append] at last
    cases ends : name.separator.getLast? with
    | none =>
        rw [ends] at last
        exact name.classical.ends last
    | some char =>
        rw [ends, Option.some_or] at last
        rw [last] at ends
        exact plain (List.mem_of_getLast? ends)

/-- The whole name in upper case. -/
theorem upper_text :
    tables.upper name.text =
      (upper name.classical.text ++ name.separator) ++ tables.upper name.pqc := by
  rw [text, tables.upper_append, tables.upper_append, name.upper_separator,
    tables.upper_ascii name.classical.ascii, List.append_assoc]

theorem pqcReady_upper_text :
    pqcReady (tables.upper name.text) = true ↔ name.Visible := by
  obtain ⟨head, listed, starts⟩ := name.classical.begins
  have whole : startsWith (tables.upper name.text) head = true := by
    rw [startsWith_iff] at starts ⊢
    rw [name.upper_text, List.append_assoc]
    exact starts.trans (List.prefix_append _ _)
  have none : pqcReadyPrefixes.any (startsWith (tables.upper name.text)) = false := by
    rw [List.any_eq_false]
    intro ready member
    rw [not_startsWith whole (classicalHeads_apart head listed ready member)]
    exact Bool.false_ne_true
  rw [pqcReady, none, Bool.false_or, Visible, List.any_eq_true, List.any_eq_true]
  refine exists_congr fun fragment => and_congr_right fun member => ?_
  rw [contains_iff, contains_iff, name.upper_text]
  constructor
  · exact infix_of_not_begun (fragments_begin fragment member) name.before_pure.1
      name.before_pure.2
  · exact fun within => within.trans (List.suffix_append _ _).isInfix

/-- The letters that a hybrid name begins with. -/
theorem begins_lettered :
    ∃ head rest, name.text = head ++ rest ∧ head ≠ [] ∧
      (∀ char ∈ head, char.toNat < 128 ∧ isSpace char = false) ∧
      (∃ char ∈ head, char.isAlpha = true) ∧
      ∃ listed ∈ classicalHeads, upper head = listed.toList := by
  obtain ⟨listed, member, starts⟩ := name.classical.begins
  have spelled : ∀ listed ∈ classicalHeads, listed.toList ≠ [] ∧
      (∀ char ∈ listed.toList, isSpace char = false) ∧
      ∃ char ∈ listed.toList, char.isAlpha = true := by
    decide
  obtain ⟨nonempty, plain, letter, among, alpha⟩ := spelled listed member
  rw [startsWith_iff] at starts
  have taken : upper (name.classical.text.take listed.toList.length) = listed.toList := by
    rw [Python.upper, List.map_take]
    exact (List.prefix_iff_eq_take.mp starts).symm
  refine ⟨name.classical.text.take listed.toList.length,
    name.classical.text.drop listed.toList.length ++ (name.separator ++ name.pqc),
    ?_, ?_, ?_, ?_, listed, member, taken⟩
  · rw [← List.append_assoc, List.take_append_drop, text]
  · intro empty
    rw [empty] at taken
    exact nonempty taken.symm
  · intro char inside
    refine ⟨name.classical.ascii char (List.mem_of_mem_take inside), ?_⟩
    rw [← isSpace_toUpper]
    apply plain
    rw [← taken]
    exact List.mem_map_of_mem inside
  · rw [← taken] at among
    obtain ⟨char, inside, same⟩ := List.mem_map.mp among
    refine ⟨char, inside, ?_⟩
    rw [← isAlpha_toUpper, same]
    exact alpha

theorem lookupOid_text : lookupOid name.text = none := by
  obtain ⟨head, rest, whole, -, -, ⟨char, inside, alpha⟩, -⟩ := name.begins_lettered
  simp only [lookupOid, Option.map_eq_none_iff, List.find?_eq_none, beq_iff_eq]
  intro entry member equal
  have digits := lettered_oid entry member
  rw [equal, whole, List.all_append, Bool.and_eq_true, List.all_eq_true] at digits
  have plain := digits.1 char inside
  rw [alpha] at plain
  cases plain

/-- A hybrid name that is an alias shows no post-quantum half. -/
theorem alias_not_visible {entry : String × String} (member : entry ∈ friendlyMap)
    (alias_ : entry.1.toList = strip (tables.lower name.text)) :
    pqcReady (upper entry.2.toList) = false ∧ ¬ name.Visible := by
  obtain ⟨head, rest, whole, nonempty, plain, -, listed, among, spelled⟩ :=
    name.begins_lettered
  have ascii := (aliases_ascii entry member).1
  have folded : (strip name.text).map fold = entry.1.toList := by
    rw [alias_]
    apply tables.lower_word
    rw [← alias_]
    exact ascii
  have starts : startsWith (upper entry.1.toList) listed = true := by
    rw [startsWith_iff, ← folded, ← spelled, Python.upper, Python.upper, List.map_map]
    have kept : head <+: strip name.text := by
      rw [whole]
      exact prefix_strip nonempty fun char inside => (plain char inside).2
    have same : head.map Char.toUpper = head.map (Char.toUpper ∘ fold) := by
      apply List.map_congr_left
      intro char inside
      have small := (plain char inside).1
      have notKelvin : char ≠ kelvin := by
        intro equal
        rw [equal] at small
        exact absurd small (by decide)
      rw [Function.comp_apply, fold, if_neg notKelvin, toUpper_toLower]
    rw [same]
    exact kept.map _
  obtain ⟨noM, noK, notReady⟩ := alias_begins entry member listed among starts
  refine ⟨notReady, ?_⟩
  intro visible
  rw [Visible, List.any_eq_true] at visible
  obtain ⟨fragment, fragmentMember, within⟩ := visible
  have inside : 'M' ∈ tables.upper name.text := by
    rw [name.upper_text]
    apply List.mem_append_right
    exact (contains_iff.mp within).subset
      ((fragments_begin fragment fragmentMember).subset List.mem_cons_self)
  rcases tables.letter_of_alias member alias_ inside (by decide) with k | m
  · exact noK k
  · exact noM m

theorem pqcReady_canonical :
    pqcReady (tables.canonical name.text) = true ↔ name.Visible := by
  cases friendly : lookupName friendlyMap (strip (tables.lower name.text)) with
  | none => rw [tables.canonical_of_unknown name.lookupOid_text friendly,
      name.pqcReady_upper_text]
  | some canonical =>
      obtain ⟨entry, member, alias_, same⟩ := lookupName_mem friendly
      obtain ⟨notReady, hidden⟩ := name.alias_not_visible member alias_
      refine iff_of_false ?_ hidden
      have normalised : tables.normalise name.text = entry.2.toList := by
        simp only [CaseTables.normalise, name.lookupOid_text, friendly]
        exact same.symm
      rw [CaseTables.canonical, normalised,
        tables.upper_ascii (aliases_ascii entry member).2, notReady]
      exact Bool.false_ne_true

/-- A hybrid name is ready, and not exposed, exactly when its post-quantum half has a
fragment of ML-KEM or ML-DSA. -/
theorem ready_iff :
    (tables.classify name.text = some .pqcReady ∧ tables.hndlExposed name.text = false) ↔
      name.Visible := by
  rw [tables.classify_eq_pqcReady, name.pqcReady_canonical]
  constructor
  · exact fun both => both.1
  · intro visible
    exact ⟨visible, tables.hndlExposed_of_ready (name.pqcReady_canonical.mpr visible)⟩

end HybridName

theorem nothing_ascii : ∀ char ∈ ([] : List Char), char.toNat < 128 := by simp

/-- The draft hybrid of X25519 and Kyber. -/
def x25519Kyber768 : HybridName plainTables where
  classical :=
    { text := "X25519".toList
      ascii := by decide
      begins := ⟨"X25519", by decide, by decide⟩
      pure := by decide
      ends := by decide }
  separator := []
  pqc := "Kyber768".toList
  separator_ascii := nothing_ascii
  separator_plain := by simp
  ready := by decide

/-- The draft hybrid is exposed, and nothing of it is known. -/
theorem x25519Kyber768_not_ready :
    ¬ ∀ (tables : CaseTables) (name : HybridName tables),
      tables.classify name.text = some .pqcReady ∧
      tables.hndlExposed name.text = false := by
  intro always
  have ready := (always plainTables x25519Kyber768).1
  have unknown : plainTables.classify x25519Kyber768.text = some .info := by
    decide +kernel
  rw [unknown] at ready
  cases ready

end Core
end PqcScan
